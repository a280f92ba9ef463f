import SageNotation.Grammar.Statements
import SageNotation.Grammar.Types

/-!
Reading declarations.

Each routine starts after the at-keyword.  It answers nothing when the header
does not have its shape.  Specifications and refinements consist of clauses; a
clause that does not have its shape ends the declaration before it.
-/

namespace SageNotation.Grammar

open Token

def moduleDecl (tokens : List Token) : Option (Reading (Span → Declaration) tokens) :=
  match expect .identifier tokens with
  | none => none
  | some name =>
      let text := Reading.description name.rest
      some
        { value := fun span =>
            .module { name := name.token.value, description := text.value, span := span }
          rest := text.rest
          suffix := text.suffix.trans name.suffix }

def typeDecl (tokens : List Token) : Option (Reading (Span → Declaration) tokens) :=
  match expect .identifier tokens with
  | none => none
  | some name =>
      match expect .assign name.rest with
      | none => none
      | some assign =>
          match expect .lbrace assign.rest with
          | none => none
          | some opening =>
              match recordFields opening.rest with
              | none => none
              | some fields =>
                  some
                    { value := fun span =>
                        .type { name := name.token.value, fields := fields.value, span := span }
                      rest := fields.rest
                      suffix := fields.suffix.trans
                        (opening.suffix.trans (assign.suffix.trans name.suffix)) }

def typeAfter (mark : Kind) (tokens : List Token) : Option (Reading (Option TypeExpr) tokens) :=
  match expect mark tokens with
  | none => some (.nothing none)
  | some taken =>
      match typeExpr taken.rest with
      | none => none
      | some type => some ((type.map some).widen taken.suffix)

def params (tokens : List Token) : Option (Reading (List Param) tokens) :=
  match tokens with
  | [] => none
  | first :: rest =>
      if first.isTrivia then (params rest).map (·.widen (List.suffix_cons _ _))
      else if first.kind = .rparen then
        some { value := [], rest := rest, suffix := List.suffix_cons _ _ }
      else if first.kind = .identifier then
        match typeAfter .colon rest with
        | none => none
        | some type =>
            match params (divider type.rest) with
            | none => none
            | some others =>
                some
                  { value :=
                      { name := first.value
                        type := type.value
                        span := first.through rest type.rest } :: others.value
                    rest := others.rest
                    suffix := suffix_cons_of_suffix first (others.suffix.trans
                      ((divider_suffix type.rest).trans type.suffix)) }
      else none
termination_by tokens.length
decreasing_by
  all_goals simp only [List.length_cons]
  · omega
  · have within := type.length_le
    have divided := length_divider_le type.rest
    omega

/-- A parameter list is optional. -/
def paramList (tokens : List Token) : Option (Reading (List Param) tokens) :=
  match expect .lparen tokens with
  | none => some (.nothing [])
  | some opening => (params opening.rest).map (·.widen opening.suffix)

def contractKind? : Kind → Option ContractKind
  | .clause .req => some .requires
  | .clause .ens => some .ensures
  | _ => none

def contracts (tokens : List Token) : Reading (List Contract) tokens :=
  match tokens with
  | [] => .nothing []
  | first :: rest =>
      if first.isTrivia then (contracts rest).widen (List.suffix_cons _ _)
      else
        match contractKind? first.kind with
        | none => .nothing []
        | some kind =>
            let others := contracts (afterLine rest)
            { value :=
                { kind := kind
                  condition := render (line rest)
                  span := first.through rest (afterLine rest) } :: others.value
              rest := others.rest
              suffix := suffix_cons_of_suffix first (others.suffix.trans (afterLine_suffix rest)) }
termination_by tokens.length
decreasing_by
  all_goals simp only [List.length_cons]
  · omega
  · have within := (afterLine_suffix rest).length_le
    omega

def callable (tokens : List Token) :
    Option (Reading ((Span → Callable) × List Recovery) tokens) :=
  match expect .identifier tokens with
  | none => none
  | some name =>
      match paramList name.rest with
      | none => none
      | some params =>
          match typeAfter .arrow params.rest with
          | none => none
          | some result =>
              let text := Reading.description result.rest
              let terms := contracts text.rest
              let statements := body terms.rest
              some
                { value :=
                    (fun span =>
                      { name := name.token.value
                        params := params.value
                        returnType := result.value
                        description := text.value
                        contracts := terms.value
                        body := statements.value.1
                        span := span },
                      statements.value.2)
                  rest := statements.rest
                  suffix := statements.suffix.trans (terms.suffix.trans (text.suffix.trans
                    (result.suffix.trans (params.suffix.trans name.suffix)))) }

/-- Clauses for as long as `form` reads one.  It is told the clauses before, the
latest first.  A clause that is refused ends the run and is recorded. -/
def clauses {γ : Type}
    (form : List γ → Token → (tokens : List Token) → Attempt (Span → γ) tokens)
    (earlier : List γ) (tokens : List Token) : Reading (List γ × List Recovery) tokens :=
  match tokens with
  | [] => .nothing (earlier.reverse, [])
  | first :: rest =>
      if first.isTrivia then (clauses form earlier rest).widen (List.suffix_cons _ _)
      else
        match form earlier first rest with
        | .unknown =>
            .nothing (earlier.reverse, [])
        | .refused =>
            { value := (earlier.reverse, [.clause first.span])
              rest := first :: rest
              suffix := List.suffix_rfl }
        | .read reading =>
            (clauses form ((reading.stamp first).value :: earlier) reading.rest).widen
              (suffix_cons_of_suffix first reading.suffix)
termination_by tokens.length
decreasing_by
  all_goals simp only [List.length_cons]
  · omega
  · have within := reading.length_le
    omega

/-- State fields, one a line, for as long as a name and a colon come next. -/
def stateFields (tokens : List Token) : Option (Reading (List StateField) tokens) :=
  match tokens with
  | [] => some (.nothing [])
  | first :: rest =>
      if first.isTrivia then (stateFields rest).map (·.widen (List.suffix_cons _ _))
      else if first.kind = .identifier then
        match expect .colon rest with
        | none => some (.nothing [])
        | some colon =>
            match typeExpr colon.rest with
            | none => none
            | some type =>
                match stateFields type.rest with
                | none => none
                | some others =>
                    some
                      { value :=
                          { name := first.value
                            type := type.value
                            span := first.through rest type.rest } :: others.value
                        rest := others.rest
                        suffix := suffix_cons_of_suffix first
                          (others.suffix.trans (type.suffix.trans colon.suffix)) }
      else some (.nothing [])
termination_by tokens.length
decreasing_by
  all_goals simp only [List.length_cons]
  · omega
  · have shorter := colon.length_lt
    have within := type.length_le
    omega

/-- An invariant goes on over lines that do not start with an at-keyword, a
string, a comment or a separator, and are not blank. -/
def continuesInvariant (token : Token) : Bool :=
  !(token.kind.isAtWord || token.endsLine || token.kind == .string || token.kind == .dash3)

def invariant (tokens : List Token) : Reading (Span → Invariant) tokens :=
  let others := followingLines continuesInvariant (afterLine tokens)
  { value := fun span =>
      { expression := Text.trim (joinNonempty " " ((line tokens :: others.value).map render))
        span := span }
    rest := others.rest
    suffix := others.suffix.trans (afterLine_suffix tokens) }

inductive SpecClause where
  | property (property : Property)
  | state (fields : List StateField)
  | invariant (invariant : Invariant)

def specClause (_ : List SpecClause) (first : Token) (tokens : List Token) :
    Attempt (Span → SpecClause) tokens :=
  match first.kind with
  | .clause .property =>
      .read ((Reading.stringOrLine tokens).map fun text span =>
        .property { description := text, span := span })
  | .clause .state =>
      .ofOption ((stateFields tokens).map (·.map fun fields _ => .state fields))
  | .clause .invariant => .read ((invariant tokens).map fun node span => .invariant (node span))
  | _ => .unknown

namespace SpecClause

def property? : SpecClause → Option Property
  | property node => some node
  | _ => none

def stateFields : SpecClause → List StateField
  | state fields => fields
  | _ => []

def invariant? : SpecClause → Option Invariant
  | invariant node => some node
  | _ => none

end SpecClause

def specDecl (tokens : List Token) :
    Option (Reading ((Span → Declaration) × List Recovery) tokens) :=
  match expect .identifier tokens with
  | none => none
  | some name =>
      let text := Reading.description name.rest
      let parts := clauses specClause [] text.rest
      some
        { value :=
            (fun span =>
              .spec
                { name := name.token.value
                  description := text.value
                  properties := parts.value.1.filterMap SpecClause.property?
                  state := parts.value.1.flatMap SpecClause.stateFields
                  invariants := parts.value.1.filterMap SpecClause.invariant?
                  span := span },
              parts.value.2)
          rest := parts.rest
          suffix := parts.suffix.trans (text.suffix.trans name.suffix) }

/-- An implementation: an optional target, and the text up to the next construct
of the document or the next comment. -/
def implementation (tokens : List Token) : Reading (Span → Declaration) tokens :=
  let target := expect .identifier tokens
  let start := skipBlank (dropOne .identifier tokens)
  let belongs := fun token : Token => !(endsBody token.kind || token.kind == .comment)
  let rows := (start.takeWhile belongs).splitOnP (·.kind == .newline)
  { value := fun span =>
      .implementation
        { target := target.map (·.token.value)
          body := Text.trim (String.intercalate "\n" (rows.map render))
          span := span }
    rest := start.dropWhile belongs
    suffix := (List.dropWhile_suffix _).trans
      ((skipBlank_suffix _).trans (dropOne_suffix _ _)) }

end SageNotation.Grammar
