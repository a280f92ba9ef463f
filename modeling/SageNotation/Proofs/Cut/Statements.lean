import SageNotation.Grammar.Statements
import SageNotation.Proofs.Cut.Reading

/-!
Statements before a border.

Lines that continue a statement, the branches of a conditional and the body of a
declaration all stop before a border, whatever the lines before it look like.
-/

namespace SageNotation.Grammar

open Token
open Reading (Extends extends_nothing extends_option_map)

variable {front back : List Token}

/-! ### Lines that go on -/

theorem nextLine?_append {continues : Token → Bool} (border : StartsBorder back)
    (stops : ∀ token : Token, endsBody token.kind = true → continues token = false)
    (front : List Token) :
    Option.Rel (fun wide narrow => wide.rest = narrow.rest ++ back ∧ narrow.rest ≠ [])
      (nextLine? continues (front ++ back)) (nextLine? continues front) := by
  unfold nextLine?
  have dropped := dropOne_append border .comment rfl front
  rcases expect_cases border .newline rfl (dropOne .comment front) with
    ⟨wide, narrow⟩ | ⟨newline, rest, same, wanted⟩
  · rw [← dropped] at wide
    rw [wide, narrow]
    exact .none
  · rw [same, List.cons_append] at dropped
    rw [expect_of_split same wanted, expect_of_split dropped wanted]
    cases rest with
    | nil =>
        obtain ⟨next, later, rfl, ends⟩ := border
        simp only [List.nil_append, stops next ends, Bool.false_eq_true, if_false]
        exact .none
    | cons token others =>
        by_cases going : continues token = true
        · simp only [List.cons_append, going, if_true]
          exact .some ⟨rfl, List.cons_ne_nil token others⟩
        · simp only [List.cons_append, going, Bool.false_eq_true, if_false]
          exact .none

theorem followingLines_append {continues : Token → Bool} (border : StartsBorder back)
    (stops : ∀ token : Token, endsBody token.kind = true → continues token = false)
    (lines : LinesBefore back front) :
    Extends back (followingLines continues (front ++ back)) (followingLines continues front) := by
  fun_induction followingLines continues front with
  | case1 front missing =>
      have next := nextLine?_append border stops front
      rw [followingLines]
      rw [missing] at next
      generalize nextLine? continues (front ++ back) = wide at next ⊢
      cases next with
      | none => exact ⟨rfl, dropOne_append border .comment rfl front⟩
  | case2 front newline found others ih =>
      have next := nextLine?_append border stops front
      rw [followingLines]
      rw [found] at next
      generalize nextLine? continues (front ++ back) = wide at next ⊢
      cases next with
      | @some wide _ same =>
          obtain ⟨rest, nonempty⟩ := same
          have further := lines.of_suffix (suffix_of_nextLine newline)
          obtain ⟨row, left⟩ := line_append border (further.row nonempty)
          have same := ih (further.of_suffix (afterLine_suffix _))
          rw [← left, ← rest] at same
          refine ⟨?_, same.rest⟩
          change line wide.rest :: _ = line newline.rest :: others.value
          rw [same.value, rest, row]

theorem bracedLines_append (border : StartsBorder back) (depth : Int)
    (lines : LinesBefore back front) :
    Extends back (bracedLines depth (front ++ back)) (bracedLines depth front) := by
  have stops : ∀ token : Token, endsBody token.kind = true → (!endsBody token.kind) = false := by
    intro token ends
    rw [ends]
    rfl
  fun_induction bracedLines depth front with
  | case1 depth front opened missing =>
      have next := nextLine?_append border stops front
      rw [bracedLines, if_pos opened]
      rw [missing] at next
      generalize nextLine? _ (front ++ back) = wide at next ⊢
      cases next with
      | none => exact ⟨rfl, dropOne_append border .comment rfl front⟩
  | case2 depth front opened newline found row others ih =>
      have next := nextLine?_append border stops front
      rw [bracedLines, if_pos opened]
      rw [found] at next
      generalize nextLine? _ (front ++ back) = wide at next ⊢
      cases next with
      | @some wide _ same =>
          obtain ⟨rest, nonempty⟩ := same
          have further := lines.of_suffix (suffix_of_nextLine newline)
          obtain ⟨rowSame, left⟩ := line_append border (further.row nonempty)
          have same := ih (further.of_suffix (afterLine_suffix _))
          rw [← rest] at rowSame left
          rw [← left] at same
          refine ⟨?_, ?_⟩
          · change line wide.rest :: (bracedLines (depth + braceBalance (line wide.rest)) _).value =
              row :: others.value
            rw [rowSame, same.value]
          · change (bracedLines (depth + braceBalance (line wide.rest)) _).rest = _
            rw [rowSame, same.rest]
  | case3 depth front closed =>
      rw [bracedLines, if_neg closed]
      exact extends_nothing []

/-! ### Statements -/

theorem proseOrDecision_append (border : StartsBorder back) (text : String) (front : List Token) :
    Extends back (proseOrDecision text (front ++ back)) (proseOrDecision text front) := by
  unfold proseOrDecision
  rcases expect_cases border .bang2 rfl front with ⟨wide, narrow⟩ | ⟨mark, rest, rfl, wanted⟩
  · rw [wide, narrow]
    exact ⟨rfl, rfl⟩
  · simp only [List.cons_append, expect_of_kind wanted]
    exact ⟨rfl, rfl⟩

theorem binding_append (border : StartsBorder back) (isDecision : Bool)
    (lines : LinesBefore back front) :
    Option.Rel (Extends back) (binding isDecision (front ++ back)) (binding isDecision front) := by
  unfold binding
  rcases expect_cases border .identifier rfl front with ⟨wide, narrow⟩ | ⟨name, rest, rfl, named⟩
  · rw [wide, narrow]
    exact .none
  · simp only [List.cons_append, expect_of_kind named]
    rcases expect_cases border .assign rfl rest with ⟨wide, narrow⟩ | ⟨assign, value, rfl, assigned⟩
    · rw [wide, narrow]
      exact .none
    · simp only [List.cons_append, expect_of_kind assigned]
      have inner := lines.of_suffix (List.suffix_cons name _)
      have ended : RowBefore back value := inner.row_of_kind assigned (by decide)
      obtain ⟨row, left⟩ := line_append border ended
      have further := bracedLines_append border (braceBalance (line value))
        (ended.lines.of_suffix (afterLine_suffix value))
      rw [← left] at further
      refine .some ⟨?_, ?_⟩
      · simp only [row, further.value]
      · simp only [row, further.rest]

theorem consequent_append (border : StartsBorder back) (lines : LinesBefore back front) :
    Extends back (consequent (front ++ back)) (consequent front) := by
  unfold consequent
  rcases expect_cases border .fatArrow rfl front with ⟨wide, narrow⟩ | ⟨arrow, rest, rfl, wanted⟩
  · rw [wide, narrow]
    exact extends_nothing ""
  · simp only [List.cons_append, expect_of_kind wanted]
    have ended : RowBefore back rest := lines.row_of_kind wanted (by decide)
    exact ((Reading.lineText_append border ended).map Text.trim).widen _ _

theorem alternative_append (border : StartsBorder back) (lines : LinesBefore back front) :
    Extends back (alternative (front ++ back)) (alternative front) := by
  unfold alternative
  have skipped := skipBlank_append border front
  have inner := lines.of_suffix (skipBlank_suffix front)
  rcases expect_cases border (.plain .elseWord) rfl (skipBlank front) with
    ⟨wide, narrow⟩ | ⟨word, rest, same, wanted⟩
  · rw [← skipped] at wide
    rw [wide, narrow]
    exact extends_nothing none
  · rw [same, List.cons_append] at skipped
    rw [same] at inner
    rw [expect_of_split same wanted, expect_of_split skipped wanted]
    have ended : RowBefore back rest := inner.row_of_kind wanted (by decide)
    have further := Reading.lineText_append border (ended.dropOne .fatArrow (by decide))
    rw [← dropOne_append border .fatArrow rfl] at further
    exact (further.map _).widen _ _

theorem condition_append (border : StartsBorder back) (ended : RowBefore back front) :
    (front ++ back).takeWhile (!endsCondition ·) = front.takeWhile (!endsCondition ·) ∧
      (front ++ back).dropWhile (!endsCondition ·) =
        front.dropWhile (!endsCondition ·) ++ back := by
  refine whileAppend_row (fun token ends => ?_) border ended
  rw [endsCondition, ends]
  rfl

theorem conditional_append (border : StartsBorder back) (isDecision : Bool)
    (ended : RowBefore back front) :
    Extends back (conditional isDecision (front ++ back)) (conditional isDecision front) := by
  obtain ⟨condition, left⟩ := condition_append border ended
  have inner := ended.lines.of_suffix (List.dropWhile_suffix (!endsCondition ·))
  have branch := consequent_append border inner
  rw [← left] at branch
  have other := alternative_append border
    (inner.of_suffix (consequent (front.dropWhile (!endsCondition ·))).suffix)
  rw [← branch.rest] at other
  refine ⟨?_, other.rest⟩
  simp only [conditional, condition, branch.value, other.value]

theorem returned_append (border : StartsBorder back) (ended : RowBefore back front) :
    Extends back (returned (front ++ back)) (returned front) :=
  (Reading.lineText_append border ended).map _

theorem decisionMark_append (border : StartsBorder back) (ended : RowBefore back front) :
    Extends back (decisionMark (front ++ back)) (decisionMark front) :=
  (Reading.stringOrLine_append border ended).map _

theorem marked_append (border : StartsBorder back) (ended : RowBefore back front) :
    Option.Rel (Extends back) (marked (front ++ back)) (marked front) := by
  unfold marked
  rcases expect_cases border (.plain .letWord) rfl front with
    ⟨wide, narrow⟩ | ⟨word, rest, rfl, wanted⟩
  · rw [wide, narrow]
    rcases expect_cases border (.plain .ifWord) rfl front with
      ⟨wide, narrow⟩ | ⟨word, rest, rfl, wanted⟩
    · rw [wide, narrow]
      exact .some ((decisionMark_append border ended).map _)
    · simp only [List.cons_append, expect_of_kind wanted]
      have inner : RowBefore back rest := ended.lines.row_of_kind wanted (by decide)
      exact .some ((conditional_append border true inner).widen _ _)
  · simp only [List.cons_append, expect_of_kind wanted]
    have inner := ended.lines.of_suffix (List.suffix_cons word rest)
    exact extends_option_map (binding_append border true inner) fun further => further.widen _ _

theorem statementForm_append (border : StartsBorder back) (first : Token)
    (ended : RowBefore back front) :
    Attempt.Resumes (Extends back) False (statementForm first (front ++ back))
      (statementForm first front) := by
  unfold statementForm
  split
  · exact .read (proseOrDecision_append border first.value front)
  · exact Attempt.resumes_ofOption (Reading.resumes_of_rel (marked_append border ended))
  · exact Attempt.resumes_ofOption
      (Reading.resumes_of_rel (binding_append border false ended.lines))
  · exact .read (conditional_append border false ended)
  · exact .read (returned_append border ended)
  · exact .unknown

theorem rawLine_append (border : StartsBorder back) (first : Token) (ended : RowBefore back front) :
    Extends back (rawLine first (front ++ back)) (rawLine first front) := by
  obtain ⟨row, left⟩ := line_append border ended
  refine ⟨?_, left⟩
  simp only [rawLine, row]

theorem statement_append (border : StartsBorder back) (first : Token) (ended : RowBefore back front) :
    Extends back (statement first (front ++ back)) (statement first front) := by
  unfold statement
  have form := statementForm_append border first ended
  have raw := (rawLine_append border first ended).stamp first
  generalize statementForm first (front ++ back) = wide at form ⊢
  generalize statementForm first front = narrow at form ⊢
  cases form with
  | unknown => exact raw.map _
  | refused => exact raw.map _
  | read same => exact (same.stamp first).map _
  | fails never => exact False.elim never

theorem body_append (border : StartsBorder back) (lines : LinesBefore back front) :
    Extends back (body (front ++ back)) (body front) := by
  fun_induction body front with
  | case1 =>
      obtain ⟨next, later, rfl, ends, plain⟩ := border.split
      rw [List.nil_append, body, if_neg plain, if_pos ends]
      exact ⟨rfl, rfl⟩
  | case2 first rest trivia ih =>
      rw [List.cons_append, body, if_pos trivia]
      exact (ih (lines.of_suffix (List.suffix_cons first rest))).widen _ _
  | case3 first rest plain ending =>
      rw [List.cons_append, body, if_neg plain, if_pos ending]
      exact extends_nothing ([], [])
  | case4 first rest plain going one others ih =>
      rw [List.cons_append, body, if_neg plain, if_neg going]
      have here := statement_append border first (lines.row_of_plain plain)
      have later := ih ((lines.of_suffix (List.suffix_cons first rest)).of_suffix one.suffix)
      rw [← here.rest] at later
      refine ⟨?_, later.rest⟩
      simp only [here.value, later.value]
      rfl

end SageNotation.Grammar
