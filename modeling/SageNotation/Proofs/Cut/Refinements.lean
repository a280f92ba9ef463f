import SageNotation.Grammar.Refinements
import SageNotation.Proofs.Cut.Declarations

/-!
Refinements before a border: the header, each clause, and the clauses in their
order.
-/

namespace SageNotation.Grammar

open Token
open Reading (Extends Resumes extends_nothing resumes_of_rel)

variable {front back : List Token}

/-! ### Headers -/

theorem tagName_append (border : StartsBorder back) (front : List Token) :
    Option.Rel (Extends back) (tagName (front ++ back)) (tagName front) := by
  unfold tagName
  rcases expect_cases border .lbracket rfl front with ⟨wide, narrow⟩ | ⟨opening, rest, rfl, opened⟩
  · rw [wide, narrow]
    exact .some (extends_nothing none)
  · simp only [List.cons_append, expect_of_kind opened]
    rcases expect_cases border .identifier rfl rest with ⟨wide, narrow⟩ | ⟨tag, rest, rfl, named⟩
    · rw [wide, narrow]
      exact .none
    · simp only [List.cons_append, expect_of_kind named]
      rcases expect_cases border .rbracket rfl rest with
        ⟨wide, narrow⟩ | ⟨closing, rest, rfl, closed⟩
      · rw [wide, narrow]
        exact .none
      · simp only [List.cons_append, expect_of_kind closed]
        exact .some ⟨rfl, rfl⟩

theorem refinementName_append (border : StartsBorder back) (front : List Token) :
    Option.Rel (Extends back) (refinementName (front ++ back)) (refinementName front) := by
  unfold refinementName
  rcases expect_cases border (.plain .asWord) rfl front with
    ⟨wide, narrow⟩ | ⟨word, rest, rfl, wanted⟩
  · rw [wide, narrow]
    exact .some ⟨rfl, rfl⟩
  · simp only [List.cons_append, expect_of_kind wanted]
    rcases expect_cases border .identifier rfl rest with ⟨wide, narrow⟩ | ⟨child, rest, rfl, named⟩
    · rw [wide, narrow]
      exact .none
    · simp only [List.cons_append, expect_of_kind named]
      have tag := tagName_append border rest
      generalize tagName (rest ++ back) = wide at tag ⊢
      generalize tagName rest = narrow at tag ⊢
      cases tag with
      | none => exact .none
      | some same =>
          refine .some ⟨?_, same.rest⟩
          simp only [same.value]

/-! ### Clauses -/

theorem decisionClause_append (border : StartsBorder back) (ended : RowBefore back front) :
    Extends back (decisionClause (front ++ back)) (decisionClause front) := by
  have text := Reading.stringOrLine_append border ended
  refine ⟨?_, ?_⟩
  · simp only [decisionClause, text.value]
  · simp only [decisionClause, text.rest, dropOne_append border .bang2 rfl]

theorem checkedProperties_append (border : StartsBorder back) (lines : LinesBefore back front) :
    Extends back (checkedProperties (front ++ back)) (checkedProperties front) := by
  fun_induction checkedProperties front with
  | case1 =>
      obtain ⟨next, later, rfl, ends, plain⟩ := border.split
      rw [List.nil_append, checkedProperties, if_neg plain, if_neg (ne_of_endsBody ends rfl)]
      exact extends_nothing []
  | case2 first rest trivia ih =>
      rw [List.cons_append, checkedProperties, if_pos trivia]
      exact (ih (lines.of_suffix (List.suffix_cons first rest))).widen _ _
  | case3 first rest plain ticked text others ih =>
      rw [List.cons_append, checkedProperties, if_neg plain, if_pos ticked]
      have ended := lines.row_of_plain plain
      have same := Reading.stringOrLine_append border ended
      have later := ih (ended.lines.of_suffix text.suffix)
      rw [← same.rest] at later
      refine ⟨?_, later.rest⟩
      simp only [same.value, same.rest, later.value, through_append]
      rfl
  | case4 first rest plain other =>
      rw [List.cons_append, checkedProperties, if_neg plain, if_neg other]
      exact extends_nothing []

theorem preserved_append (border : StartsBorder back) (lines : LinesBefore back front) :
    Extends back (preserved (front ++ back)) (preserved front) := by
  unfold preserved
  have skipped := skipBlank_append border front
  have inner := lines.of_suffix (skipBlank_suffix front)
  rcases expect_cases border .string rfl (skipBlank front) with
    ⟨wide, narrow⟩ | ⟨bare, rest, same, wanted⟩
  · rw [← skipped] at wide
    rw [wide, narrow]
    exact checkedProperties_append border lines
  · rw [same, List.cons_append] at skipped
    rw [same] at inner
    rw [expect_of_split same wanted, expect_of_split skipped wanted]
    have others := checkedProperties_append border (inner.of_suffix (List.suffix_cons bare rest))
    refine ⟨?_, others.rest⟩
    simp only [others.value]

theorem continuesMapping_border {token : Token} (ends : endsBody token.kind = true) :
    continuesMapping token = false := by
  simp only [continuesMapping, continuesInvariant_border ends, Bool.false_and]

theorem mapping_append (border : StartsBorder back) (ended : RowBefore back front) :
    Extends back (mapping (front ++ back)) (mapping front) := by
  have text := Reading.stringOrLine_append border ended
  have others := followingLines_append border (fun _ => continuesMapping_border)
    (ended.lines.of_suffix (Reading.stringOrLine front).suffix)
  rw [← text.rest] at others
  refine ⟨?_, others.rest⟩
  simp only [mapping, text.value, others.value]

theorem comparisonEntries_append (border : StartsBorder back) (lines : LinesBefore back front) :
    Extends back (comparisonEntries (front ++ back)) (comparisonEntries front) := by
  fun_induction comparisonEntries front with
  | case1 =>
      obtain ⟨next, later, rfl, ends, plain⟩ := border.split
      have other : ¬ (next.kind = .identifier ∧ isComparisonKey next.value = true) :=
        fun both => ne_of_endsBody ends rfl both.1
      rw [List.nil_append, comparisonEntries, if_neg plain, if_neg other]
      exact extends_nothing []
  | case2 first rest trivia ih =>
      rw [List.cons_append, comparisonEntries, if_pos trivia]
      exact (ih (lines.of_suffix (List.suffix_cons first rest))).widen _ _
  | case3 first rest plain key missing =>
      rw [List.cons_append, comparisonEntries, if_neg plain, if_pos key]
      rcases expect_cases border .colon rfl rest with ⟨wide, _⟩ | ⟨colon, after, rfl, divided⟩
      · simp only [wide]
        exact extends_nothing []
      · rw [expect_of_kind divided] at missing
        cases missing
  | case4 first rest plain key colon found text others ih =>
      rw [List.cons_append, comparisonEntries, if_neg plain, if_pos key]
      have divided := kind_of_expect found
      obtain ⟨token, after, split⟩ := colon
      subst split
      simp only [List.cons_append, expect_of_kind divided]
      have row := lines.of_suffix (List.suffix_cons first _)
      have ended := row.row_of_kind divided (by decide)
      have same := Reading.stringOrLine_append border ended
      have later := ih (ended.lines.of_suffix text.suffix)
      rw [← same.rest] at later
      refine ⟨?_, later.rest⟩
      simp only [same.value, later.value]
      rfl
  | case5 first rest plain other =>
      rw [List.cons_append, comparisonEntries, if_neg plain, if_neg other]
      exact extends_nothing []

theorem comparison_append (border : StartsBorder back) (lines : LinesBefore back front) :
    Option.Rel (Extends back) (comparison (front ++ back)) (comparison front) := by
  unfold comparison
  rcases expect_cases border .identifier rfl front with ⟨wide, narrow⟩ | ⟨target, rest, rfl, named⟩
  · rw [wide, narrow]
    exact .none
  · simp only [List.cons_append, expect_of_kind named]
    have entries := comparisonEntries_append border (lines.of_suffix (List.suffix_cons target rest))
    refine .some ⟨?_, entries.rest⟩
    simp only [entries.value]

theorem stringClause_append (border : StartsBorder back) (earlier : List RefinementClause)
    (text : String) (front : List Token) (lost : Prop) :
    Attempt.Resumes (Extends back) lost (stringClause earlier text (front ++ back))
      (stringClause earlier text front) := by
  unfold stringClause
  rcases expect_cases border .bang2 rfl front with ⟨wide, narrow⟩ | ⟨mark, rest, rfl, wanted⟩
  · rw [wide, narrow]
    by_cases described : earlier.any (·.description?.isSome) = true
    · simp only [described, if_true]
      exact .unknown
    · simp only [described]
      exact .read ⟨rfl, rfl⟩
  · simp only [List.cons_append, expect_of_kind wanted]
    exact .read ⟨rfl, rfl⟩

theorem refinementClause_append (border : StartsBorder back) (earlier : List RefinementClause)
    (first : Token) (ended : RowBefore back front) :
    Attempt.Resumes (Extends back) (Severs back front)
      (refinementClause earlier first (front ++ back)) (refinementClause earlier first front) := by
  unfold refinementClause
  split
  · exact .read ((decisionClause_append border ended).map _)
  · exact stringClause_append border earlier first.value front _
  · exact .read ((decisionMark_append border ended).map _)
  · have fields := stateFields_append border ended.lines
    exact Attempt.resumes_ofOption (fields.map fun same => same.map _)
  · exact .read ((preserved_append border ended.lines).map _)
  · exact .read ((mapping_append border ended).map _)
  · refine Attempt.resumes_ofOption (Resumes.map ?_ fun same => Extends.map same _)
    exact resumes_of_rel (comparison_append border ended.lines)
  · exact .unknown

theorem refinementClause_border (earlier : List RefinementClause) {first : Token}
    (tokens : List Token) (ends : endsBody first.kind = true) :
    refinementClause earlier first tokens = .unknown := by
  unfold refinementClause
  rcases endsBody_cases ends with ⟨word, kind⟩ | ⟨inference, kind⟩ | kind | kind <;> rw [kind]

theorem refinementClauses_append (border : StartsBorder back) (earlier : List RefinementClause)
    (lines : LinesBefore back front) :
    Keeps back (Severs back front) (clauses refinementClause earlier (front ++ back))
      (clauses refinementClause earlier front) :=
  clauses_append border (fun earlier _ tokens => refinementClause_border earlier tokens)
    (fun earlier first _ => refinementClause_append border earlier first) earlier lines

theorem refinement_append (border : StartsBorder back) (lines : LinesBefore back front) :
    Option.Rel (Keeps back (Severs back front)) (refinement (front ++ back)) (refinement front) := by
  unfold refinement
  rcases expect_cases border .identifier rfl front with ⟨wide, narrow⟩ | ⟨parent, rest, rfl, named⟩
  · rw [wide, narrow]
    exact .none
  · simp only [List.cons_append, expect_of_kind named]
    have name := refinementName_append border rest
    generalize refinementName (rest ++ back) = wide at name ⊢
    generalize refinementName rest = narrow at name ⊢
    cases name with
    | none => exact .none
    | @some wide narrow same =>
        have within := narrow.suffix.trans (List.suffix_cons parent rest)
        have parts := refinementClauses_append border [] (lines.of_suffix within)
        rw [← same.rest] at parts
        rcases parts with further | ⟨unclosed, kept⟩
        · refine .some (Or.inl ⟨?_, further.rest⟩)
          simp only [same.value, further.value]
        · exact .some (Or.inr ⟨unclosed.of_suffix within, kept⟩)

end SageNotation.Grammar
