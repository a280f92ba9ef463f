import SageNotation.Proofs.Cut.Documents

/-!
The routines of the reader in front of an end mark.

`Routine` lists them.  Wherever one is called, it goes up to the next end mark at
most, also where it looks ahead and then refuses the tokens, and what stands from
the mark on makes no difference to its answer.
-/

namespace SageNotation

namespace Grammar

open Token
open Reading (Extends Resumes)

variable {back : List Token}

/-- In front of an end mark the routine answers as at the end of the list, or refuses
as it does there, and leaves the mark and all that stands behind it. -/
def StopsAtMark {α : Type} (routine : (tokens : List Token) → Option (Reading α tokens)) : Prop :=
  ∀ front back : List Token, StartsMark back →
    Option.Rel (Extends back) (routine (front ++ back)) (routine front)

def always {α : Type} (routine : (tokens : List Token) → Reading α tokens) (tokens : List Token) :
    Option (Reading α tokens) :=
  some (routine tokens)

/-- The routines of the reader. -/
inductive Routine : (α : Type) → ((tokens : List Token) → Option (Reading α tokens)) → Prop where
  -- Words and lines
  | lineText : Routine _ (always Reading.lineText)
  | stringOrLine : Routine _ (always Reading.stringOrLine)
  | string? : Routine _ Reading.string?
  | description : Routine _ (always Reading.description)
  | rawLine (first : Token) : Routine _ (always (rawLine first))
  -- Types
  | typeExpr : Routine _ typeExpr
  | typeArgs : Routine _ typeArgs
  | recordFields : Routine _ recordFields
  | recordEnd : Routine _ recordEnd
  -- Statements
  | bracedLines (depth : Int) : Routine _ (always (bracedLines depth))
  | proseOrDecision (text : String) : Routine _ (always (proseOrDecision text))
  | decisionMark : Routine _ (always decisionMark)
  | binding (isDecision : Bool) : Routine _ (binding isDecision)
  | consequent : Routine _ (always consequent)
  | alternative : Routine _ (always alternative)
  | conditional (isDecision : Bool) : Routine _ (always (conditional isDecision))
  | returned : Routine _ (always returned)
  | marked : Routine _ marked
  | statement (first : Token) : Routine _ (always (statement first))
  | body : Routine _ (always body)
  -- Declarations
  | moduleDecl : Routine _ moduleDecl
  | typeDecl : Routine _ typeDecl
  | returnType : Routine _ (typeAfter .arrow)
  | paramType : Routine _ (typeAfter .colon)
  | params : Routine _ params
  | paramList : Routine _ paramList
  | contracts : Routine _ (always contracts)
  | callable : Routine _ callable
  | stateFields : Routine _ stateFields
  | invariantLines : Routine _ (always (followingLines continuesInvariant))
  | invariant : Routine _ (always invariant)
  | specClauses (earlier : List SpecClause) : Routine _ (always (clauses specClause earlier))
  | specDecl : Routine _ specDecl
  | implementation : Routine _ (always implementation)
  -- Refinements
  | tagName : Routine _ tagName
  | refinementName : Routine _ refinementName
  | decisionClause : Routine _ (always decisionClause)
  | checkedProperties : Routine _ (always checkedProperties)
  | preserved : Routine _ (always preserved)
  | mappingLines : Routine _ (always (followingLines continuesMapping))
  | mapping : Routine _ (always mapping)
  | comparisonEntries : Routine _ (always comparisonEntries)
  | comparison : Routine _ comparison
  | refinementClauses (earlier : List RefinementClause) :
      Routine _ (always (clauses refinementClause earlier))
  | refinement : Routine _ refinement
  -- Documents
  | inferredFact (inference : Inference) : Routine _ (always (inferredFact inference))
  | item (first : Token) : Routine _ (always (item first))
  | items : Routine _ (always items)

/-! ### They stop -/

theorem stopsAtMark_always {α : Type} {routine : (tokens : List Token) → Reading α tokens}
    (stops : ∀ front back, StartsMark back → Extends back (routine (front ++ back)) (routine front)) :
    StopsAtMark (always routine) :=
  fun front back marked => .some (stops front back marked)

theorem rel_of_resumes (marked : StartsMark back) {α : Type} {long short : List Token}
    {lost : Prop} {wide : Option (Reading α long)} {narrow : Option (Reading α short)}
    (same : Resumes (Extends back) (StartsCut back ∧ lost) wide narrow) :
    Option.Rel (Extends back) wide narrow := by
  cases same with
  | neither => exact .none
  | both further => exact .some further
  | fails cause => exact False.elim (marked.not_cut cause.1)

theorem rel_of_keeps (marked : StartsMark back) {α : Type} {long short tokens : List Token}
    {wide : Option (Reading α long)} {narrow : Option (Reading α short)}
    (same : Option.Rel (Keeps back (Severs back tokens)) wide narrow) :
    Option.Rel (Extends back) wide narrow := by
  cases same with
  | none => exact .none
  | some further => exact .some (further.extends marked)

theorem Routine.stops {α : Type} {routine : (tokens : List Token) → Option (Reading α tokens)}
    (listed : Routine α routine) : StopsAtMark routine := by
  cases listed with
  | lineText =>
      exact stopsAtMark_always fun front _ marked =>
        Reading.lineText_append marked.border (marked.row front)
  | stringOrLine =>
      exact stopsAtMark_always fun front _ marked =>
        Reading.stringOrLine_append marked.border (marked.row front)
  | string? => exact fun front _ marked => Reading.string?_append marked.border front
  | description =>
      exact stopsAtMark_always fun front _ marked =>
        Reading.description_append marked.border front
  | rawLine first =>
      exact stopsAtMark_always fun front _ marked =>
        rawLine_append marked.border first (marked.row front)
  | typeExpr =>
      exact fun front _ marked => rel_of_resumes marked (types_run marked.border front).1
  | typeArgs =>
      exact fun front _ marked => rel_of_resumes marked (types_run marked.border front).2.1
  | recordFields =>
      exact fun front _ marked => rel_of_resumes marked (types_run marked.border front).2.2
  | recordEnd => exact fun front _ marked => rel_of_resumes marked (recordEnd_runs marked.border front)
  | bracedLines depth =>
      exact stopsAtMark_always fun front _ marked =>
        bracedLines_append marked.border depth (marked.lines front)
  | proseOrDecision text =>
      exact stopsAtMark_always fun front _ marked => proseOrDecision_append marked.border text front
  | decisionMark =>
      exact stopsAtMark_always fun front _ marked =>
        decisionMark_append marked.border (marked.row front)
  | binding isDecision =>
      exact fun front _ marked => binding_append marked.border isDecision (marked.lines front)
  | consequent =>
      exact stopsAtMark_always fun front _ marked =>
        consequent_append marked.border (marked.lines front)
  | alternative =>
      exact stopsAtMark_always fun front _ marked =>
        alternative_append marked.border (marked.lines front)
  | conditional isDecision =>
      exact stopsAtMark_always fun front _ marked =>
        conditional_append marked.border isDecision (marked.row front)
  | returned =>
      exact stopsAtMark_always fun front _ marked => returned_append marked.border (marked.row front)
  | marked => exact fun front _ marked => marked_append marked.border (marked.row front)
  | statement first =>
      exact stopsAtMark_always fun front _ marked =>
        statement_append marked.border first (marked.row front)
  | body =>
      exact stopsAtMark_always fun front _ marked => body_append marked.border (marked.lines front)
  | moduleDecl => exact fun front _ marked => moduleDecl_append marked.border front
  | typeDecl =>
      exact fun front _ marked =>
        rel_of_resumes marked (typeDecl_append marked.border (marked.lines front))
  | returnType =>
      exact fun front _ marked =>
        rel_of_resumes marked (typeAfter_append marked.border .arrow rfl (marked.lines front))
  | paramType =>
      exact fun front _ marked =>
        rel_of_resumes marked (typeAfter_append marked.border .colon rfl (marked.lines front))
  | params =>
      exact fun front _ marked =>
        rel_of_resumes marked (params_append marked.border (marked.lines front))
  | paramList =>
      exact fun front _ marked =>
        rel_of_resumes marked (paramList_append marked.border (marked.lines front))
  | contracts =>
      exact stopsAtMark_always fun front _ marked =>
        contracts_append marked.border (marked.lines front)
  | callable =>
      exact fun front _ marked =>
        rel_of_resumes marked (callable_append marked.border (marked.lines front))
  | stateFields =>
      exact fun front _ marked =>
        rel_of_resumes marked (stateFields_append marked.border (marked.lines front))
  | invariantLines =>
      exact stopsAtMark_always fun front _ marked =>
        followingLines_append marked.border (fun _ => continuesInvariant_border) (marked.lines front)
  | invariant =>
      exact stopsAtMark_always fun front _ marked => invariant_append marked.border (marked.row front)
  | specClauses earlier =>
      exact stopsAtMark_always fun front _ marked =>
        (specClauses_append marked.border earlier (marked.lines front)).extends marked
  | specDecl =>
      exact fun front _ marked =>
        rel_of_keeps marked (specDecl_append marked.border (marked.lines front))
  | implementation =>
      exact stopsAtMark_always fun front _ marked => implementation_append marked.border front
  | tagName => exact fun front _ marked => tagName_append marked.border front
  | refinementName => exact fun front _ marked => refinementName_append marked.border front
  | decisionClause =>
      exact stopsAtMark_always fun front _ marked =>
        decisionClause_append marked.border (marked.row front)
  | checkedProperties =>
      exact stopsAtMark_always fun front _ marked =>
        checkedProperties_append marked.border (marked.lines front)
  | preserved =>
      exact stopsAtMark_always fun front _ marked =>
        preserved_append marked.border (marked.lines front)
  | mappingLines =>
      exact stopsAtMark_always fun front _ marked =>
        followingLines_append marked.border (fun _ => continuesMapping_border) (marked.lines front)
  | mapping =>
      exact stopsAtMark_always fun front _ marked => mapping_append marked.border (marked.row front)
  | comparisonEntries =>
      exact stopsAtMark_always fun front _ marked =>
        comparisonEntries_append marked.border (marked.lines front)
  | comparison => exact fun front _ marked => comparison_append marked.border (marked.lines front)
  | refinementClauses earlier =>
      exact stopsAtMark_always fun front _ marked =>
        (refinementClauses_append marked.border earlier (marked.lines front)).extends marked
  | refinement =>
      exact fun front _ marked =>
        rel_of_keeps marked (refinement_append marked.border (marked.lines front))
  | inferredFact inference =>
      exact stopsAtMark_always fun front _ marked =>
        inferredFact_append inference marked.border (marked.row front)
  | item first => exact stopsAtMark_always fun front _ marked => item_mark marked first front
  | items => exact stopsAtMark_always fun front _ marked => items_mark marked front

end Grammar

end SageNotation
