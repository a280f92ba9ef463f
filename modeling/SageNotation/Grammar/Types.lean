import SageNotation.Document.Basic
import SageNotation.Grammar.Reading

/-!
Reading type expressions.

A type is an identifier, an identifier with type arguments between angle
brackets, a pair of parentheses, or a record between braces.  The fields of a
record may be spread over lines, divided by optional commas, and closed early by
an ellipsis; a record that is still open at the end of the input is complete.
-/

namespace SageNotation.Grammar

open Token

def divider (tokens : List Token) : List Token :=
  dropOne .comma (skipBlank tokens)

theorem divider_suffix (tokens : List Token) : divider tokens <:+ tokens :=
  (dropOne_suffix _ _).trans (skipBlank_suffix tokens)

theorem length_divider_le (tokens : List Token) : (divider tokens).length ≤ tokens.length :=
  (divider_suffix tokens).length_le

/-- The end of a record after an ellipsis: a closing brace or the end of the
input. -/
def recordEnd (tokens : List Token) : Option (Reading Unit tokens) :=
  match tokens with
  | [] => some (.nothing ())
  | token :: rest =>
      if token.kind = .rbrace then
        some { value := (), rest := rest, suffix := List.suffix_cons _ _ }
      else if token.kind = .eof then some (.nothing ())
      else none

mutual

def typeExpr (tokens : List Token) : Option (Reading TypeExpr tokens) :=
  match tokens with
  | [] => none
  | first :: rest =>
      match first.kind with
      | .lbrace =>
          match recordFields rest with
          | none => none
          | some fields =>
              some (((fields.map TypeExpr.record).stamp first).widen (List.suffix_cons _ _))
      | .lparen =>
          match expect .rparen rest with
          | none => none
          | some closing =>
              some
                { value := .named "()" (first.through rest closing.rest)
                  rest := closing.rest
                  suffix := suffix_cons_of_suffix first closing.suffix }
      | .identifier =>
          match expect .less rest with
          | none =>
              some
                { value := .named first.value first.span
                  rest := rest
                  suffix := List.suffix_cons _ _ }
          | some opening =>
              match typeArgs opening.rest with
              | none => none
              | some args =>
                  match expect .greater args.rest with
                  | none => none
                  | some closing =>
                      some
                        { value := .generic first.value args.value
                            (first.through rest closing.rest)
                          rest := closing.rest
                          suffix := suffix_cons_of_suffix first
                            (closing.suffix.trans (args.suffix.trans opening.suffix)) }
      | _ => none
termination_by 2 * tokens.length
decreasing_by
  all_goals simp only [List.length_cons]
  · omega
  · have shorter := opening.length_lt
    omega

def typeArgs (tokens : List Token) : Option (Reading (List TypeExpr) tokens) :=
  match typeExpr tokens with
  | none => none
  | some arg =>
      match expect .comma arg.rest with
      | none => some (arg.map ([·]))
      | some comma =>
          match typeArgs comma.rest with
          | none => none
          | some others =>
              some
                { value := arg.value :: others.value
                  rest := others.rest
                  suffix := others.suffix.trans (comma.suffix.trans arg.suffix) }
termination_by 2 * tokens.length + 1
decreasing_by
  · omega
  · have shorter := comma.length_lt
    have within := arg.length_le
    omega

/-- The fields of a record after its opening brace, and the closing brace. -/
def recordFields (tokens : List Token) : Option (Reading (List Field) tokens) :=
  match tokens with
  | [] => some (.nothing [])
  | first :: rest =>
      if first.isTrivia then
        (recordFields rest).map (·.widen (List.suffix_cons _ _))
      else
        match first.kind with
        | .rbrace => some { value := [], rest := rest, suffix := List.suffix_cons _ _ }
        | .eof => some (.nothing [])
        | .ellipsis =>
            (recordEnd (skipBlank rest)).map fun reading =>
              { value := []
                rest := reading.rest
                suffix := suffix_cons_of_suffix first (reading.suffix.trans (skipBlank_suffix rest)) }
        | .identifier =>
            match expect .colon rest with
            | none => none
            | some colon =>
                match typeExpr colon.rest with
                | none => none
                | some type =>
                    match recordFields (divider type.rest) with
                    | none => none
                    | some others =>
                        some
                          { value :=
                              .mk first.value type.value (first.through rest type.rest) ::
                                others.value
                            rest := others.rest
                            suffix := suffix_cons_of_suffix first
                              (others.suffix.trans ((divider_suffix type.rest).trans
                                (type.suffix.trans colon.suffix))) }
        | _ => none
termination_by 2 * tokens.length
decreasing_by
  all_goals simp only [List.length_cons]
  · omega
  · have shorter := colon.length_lt
    omega
  · have shorter := colon.length_lt
    have within := type.length_le
    have divided := length_divider_le type.rest
    omega

end

end SageNotation.Grammar
