import SageNotation.Grammar.Declarations

/-!
Reading refinements: a header that names the parent and, optionally, a child and
a tag, and then clauses in any order.
-/

namespace SageNotation.Grammar

open Token

structure RefinementName where
  child : Option String
  tag : Option String

def tagName (tokens : List Token) : Option (Reading (Option String) tokens) :=
  match expect .lbracket tokens with
  | none => some (.nothing none)
  | some opening =>
      match expect .identifier opening.rest with
      | none => none
      | some tag =>
          match expect .rbracket tag.rest with
          | none => none
          | some closing =>
              some
                { value := some tag.token.value
                  rest := closing.rest
                  suffix := closing.suffix.trans (tag.suffix.trans opening.suffix) }

def refinementName (tokens : List Token) : Option (Reading RefinementName tokens) :=
  match expect (.plain .asWord) tokens with
  | none => some (.nothing ⟨none, none⟩)
  | some word =>
      match expect .identifier word.rest with
      | none => none
      | some child =>
          match tagName child.rest with
          | none => none
          | some tag =>
              some
                { value := ⟨some child.token.value, tag.value⟩
                  rest := tag.rest
                  suffix := tag.suffix.trans (child.suffix.trans word.suffix) }

def decisionClause (tokens : List Token) : Reading (Span → Decision) tokens :=
  let text := Reading.stringOrLine tokens
  { value := fun span => { text := text.value, span := span }
    rest := dropOne .bang2 text.rest
    suffix := (dropOne_suffix _ _).trans text.suffix }

def checkedProperties (tokens : List Token) : Reading (List Preserved) tokens :=
  match tokens with
  | [] => .nothing []
  | first :: rest =>
      if first.isTrivia then (checkedProperties rest).widen (List.suffix_cons _ _)
      else if first.kind = .checkmark then
        let text := Reading.stringOrLine rest
        let others := checkedProperties text.rest
        { value :=
            { description := text.value
              checked := true
              span := first.through rest text.rest } :: others.value
          rest := others.rest
          suffix := suffix_cons_of_suffix first (others.suffix.trans text.suffix) }
      else .nothing []
termination_by tokens.length
decreasing_by
  all_goals simp only [List.length_cons]
  · omega
  · have within := (Reading.stringOrLine rest).length_le
    omega

/-- The properties a refinement keeps: at most one bare string, then those that
have been ticked off. -/
def preserved (tokens : List Token) : Reading (List Preserved) tokens :=
  match expect .string (skipBlank tokens) with
  | none => checkedProperties tokens
  | some bare =>
      let others := checkedProperties bare.rest
      { value :=
          { description := bare.token.value, checked := false, span := bare.token.span } ::
            others.value
        rest := others.rest
        suffix := others.suffix.trans (bare.suffix.trans (skipBlank_suffix tokens)) }

/-- A mapping goes on over indented lines that open no other clause. -/
def continuesMapping (token : Token) : Bool :=
  continuesInvariant token && token.kind != .checkmark && token.kind != .bang2 &&
    1 < token.span.start.col

def mapping (tokens : List Token) : Reading (Span → Mapping) tokens :=
  let text := Reading.stringOrLine tokens
  let others := followingLines continuesMapping text.rest
  { value := fun span =>
      { description := text.value, lines := others.value.map render, span := span }
    rest := others.rest
    suffix := others.suffix.trans text.suffix }

def isComparisonKey (name : String) : Bool :=
  name == "advantages" || name == "disadvantages"

def comparisonEntries (tokens : List Token) : Reading (List (String × String)) tokens :=
  match tokens with
  | [] => .nothing []
  | first :: rest =>
      if first.isTrivia then (comparisonEntries rest).widen (List.suffix_cons _ _)
      else if first.kind = .identifier ∧ isComparisonKey first.value then
        match expect .colon rest with
        | none => .nothing []
        | some colon =>
            let text := Reading.stringOrLine colon.rest
            let others := comparisonEntries text.rest
            { value := (first.value, text.value) :: others.value
              rest := others.rest
              suffix := suffix_cons_of_suffix first
                (others.suffix.trans (text.suffix.trans colon.suffix)) }
      else .nothing []
termination_by tokens.length
decreasing_by
  all_goals simp only [List.length_cons]
  · omega
  · have within := (Reading.stringOrLine colon.rest).length_le
    have shorter := colon.length_lt
    omega

def lastEntry? (key : String) (entries : List (String × String)) : Option String :=
  entries.reverse.lookup key

def comparison (tokens : List Token) : Option (Reading (Span → Comparison) tokens) :=
  match expect .identifier tokens with
  | none => none
  | some target =>
      let entries := comparisonEntries target.rest
      some
        { value := fun span =>
            { target := target.token.value
              advantages := lastEntry? "advantages" entries.value
              disadvantages := lastEntry? "disadvantages" entries.value
              span := span }
          rest := entries.rest
          suffix := entries.suffix.trans target.suffix }

inductive RefinementClause where
  | description (text : String)
  | decision (decision : Decision)
  | state (fields : List StateField)
  | preserves (properties : List Preserved)
  | maps (mapping : Mapping)
  | comparison (comparison : Comparison)

namespace RefinementClause

def description? : RefinementClause → Option String
  | description text => some text
  | _ => none

def decision? : RefinementClause → Option Decision
  | decision node => some node
  | _ => none

def stateFields : RefinementClause → List StateField
  | state fields => fields
  | _ => []

def preserved : RefinementClause → List Preserved
  | preserves properties => properties
  | _ => []

def mapping? : RefinementClause → Option Mapping
  | maps node => some node
  | _ => none

def comparison? : RefinementClause → Option Comparison
  | comparison node => some node
  | _ => none

end RefinementClause

/-- A bare string is a decision when two exclamation marks follow it, else the
description, unless there is one already. -/
def stringClause (earlier : List RefinementClause) (text : String) (tokens : List Token) :
    Attempt (Span → RefinementClause) tokens :=
  match expect .bang2 tokens with
  | some mark =>
      .read
        { value := fun span => .decision { text := text, span := span }
          rest := mark.rest
          suffix := mark.suffix }
  | none =>
      if earlier.any (·.description?.isSome) then .unknown
      else
        .read
          { value := fun _ => .description text
            rest := tokens
            suffix := List.suffix_rfl }

def refinementClause (earlier : List RefinementClause) (first : Token) (tokens : List Token) :
    Attempt (Span → RefinementClause) tokens :=
  match first.kind with
  | .clause .decision => .read ((decisionClause tokens).map fun node span => .decision (node span))
  | .string => stringClause earlier first.value tokens
  | .bang2 => .read ((decisionMark tokens).map fun node span => .decision (node span))
  | .clause .state =>
      .ofOption ((stateFields tokens).map (·.map fun fields _ => .state fields))
  | .clause .preserves =>
      .read ((preserved tokens).map fun properties _ => .preserves properties)
  | .clause .maps => .read ((mapping tokens).map fun node span => .maps (node span))
  | .clause .compareWith =>
      .ofOption ((comparison tokens).map (·.map fun node span => .comparison (node span)))
  | _ => .unknown

def refinement (tokens : List Token) :
    Option (Reading ((Span → Declaration) × List Recovery) tokens) :=
  match expect .identifier tokens with
  | none => none
  | some parent =>
      match refinementName parent.rest with
      | none => none
      | some name =>
          let parts := clauses refinementClause [] name.rest
          some
            { value :=
                (fun span =>
                  .refinement
                    { parent := parent.token.value
                      child := name.value.child
                      tag := name.value.tag
                      description := parts.value.1.findSome? RefinementClause.description?
                      decisions := parts.value.1.filterMap RefinementClause.decision?
                      state := parts.value.1.flatMap RefinementClause.stateFields
                      preserves := parts.value.1.flatMap RefinementClause.preserved
                      maps := parts.value.1.filterMap RefinementClause.mapping?
                      comparison := (parts.value.1.filterMap RefinementClause.comparison?).getLast?
                      span := span },
                  parts.value.2)
              rest := parts.rest
              suffix := parts.suffix.trans (name.suffix.trans parent.suffix) }

end SageNotation.Grammar
