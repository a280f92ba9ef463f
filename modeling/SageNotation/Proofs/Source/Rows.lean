import SageNotation.Proofs.Source.Order
import SageNotation.Source.Text

/-!
Rows of a text and positions that are counted in it.

Newlines cut a text into rows, and a place in the rows has an offset
(`rowOffset?`).  A position that is reached by counting through the front of a
text is the place of its offset (`rowOffset?_after`), and counting further moves
it forward, on its row or to a later one (`after_forward`).
-/

namespace SageNotation

namespace Position

theorem after_forward (position : Position) (text : List Char) :
    position.line < (position.after text).line ∨
      ((position.after text).line = position.line ∧
        (position.after text).col = position.col + text.length) := by
  induction text generalizing position with
  | nil => exact Or.inr ⟨rfl, (Int.add_zero _).symm⟩
  | cons character rest ih =>
      have later := ih (position.next character)
      change position.line < ((position.next character).after rest).line ∨ _ ∧ _
      by_cases newline : character = '\n'
      · have below : (position.next character).line = position.line + 1 := by
          rw [next, if_pos newline]
        left
        omega
      · have here : (position.next character).line = position.line ∧
            (position.next character).col = position.col + 1 := by
          rw [next, if_neg newline]
          exact ⟨rfl, rfl⟩
        rcases later with further | ⟨sameLine, moved⟩
        · left
          omega
        · right
          change ((position.next character).after rest).line = position.line ∧
            ((position.next character).after rest).col = position.col + (rest.length + 1 : Nat)
          omega

theorem line_le_after (position : Position) (text : List Char) :
    position.line ≤ (position.after text).line := by
  rcases position.after_forward text with later | ⟨same, _⟩ <;> omega

theorem col_after_pos {position : Position} (positive : 1 ≤ position.col) (text : List Char) :
    1 ≤ (position.after text).col := by
  induction text generalizing position with
  | nil => exact positive
  | cons character rest ih =>
      apply ih
      rw [next]
      split
      · exact Int.le_refl 1
      · change 1 ≤ position.col + 1
        omega

end Position

namespace SourceText

/-- The lines of the text by newlines alone; the newlines belong to none of them. -/
def rows (source : SourceText) : List (List Char) :=
  source.content.toList.splitOn '\n'

/-- The offset of a place: the row by its number, both components from zero.  A row
ends right behind its last character. -/
def rowOffset? : List (List Char) → Nat → Nat → Option Nat
  | [], _, _ => none
  | row :: _, 0, character => if character ≤ row.length then some character else none
  | row :: others, number + 1, character =>
      (rowOffset? others number character).map (row.length + 1 + ·)

/-! ### Cutting off rows -/

theorem mem_of_mem_splitOnP {α : Type} {stops : α → Bool} {items row : List α} {item : α}
    (member : item ∈ row) (listed : row ∈ items.splitOnP stops) :
    item ∈ items ∧ stops item = false := by
  induction items generalizing row with
  | nil =>
      rw [List.splitOnP_nil, List.mem_singleton] at listed
      rw [listed] at member
      cases member
  | cons first others ih =>
      obtain ⟨own, later, parted⟩ := List.exists_cons_of_ne_nil (List.splitOnP_ne_nil stops others)
      have inside : ∀ {row}, item ∈ row → row ∈ own :: later →
          item ∈ first :: others ∧ stops item = false := by
        intro row member listed
        rw [← parted] at listed
        exact (ih member listed).imp_left (List.mem_cons_of_mem first)
      rw [List.splitOnP_cons_eq_if_modifyHead, parted] at listed
      split at listed
      · rcases List.mem_cons.mp listed with rfl | listed
        · cases member
        · exact inside member listed
      · rename_i kept
        rcases List.mem_cons.mp listed with rfl | listed
        · rcases List.mem_cons.mp member with rfl | member
          · exact ⟨List.mem_cons_self, eq_false_of_ne_true kept⟩
          · exact inside member List.mem_cons_self
        · exact inside member (List.mem_cons_of_mem own listed)

theorem splitOn_plain {front : List Char} (unbroken : '\n' ∉ front) (rest : List Char) :
    (front ++ rest).splitOn '\n' = (rest.splitOn '\n').modifyHead (front ++ ·) := by
  induction front with
  | nil =>
      rw [List.nil_append]
      cases rest.splitOn '\n' <;> rfl
  | cons character others ih =>
      have here : character ≠ '\n' := fun same => unbroken (List.mem_cons.mpr (Or.inl same.symm))
      have later : '\n' ∉ others := fun member => unbroken (List.mem_cons_of_mem _ member)
      rw [List.cons_append, List.splitOn_cons_eq_if_modifyHead,
        if_neg (ne_true_of_eq_false (beq_false_of_ne here)), ih later]
      cases rest.splitOn '\n' <;> rfl

theorem splitOn_row {row : List Char} (unbroken : '\n' ∉ row) (rest : List Char) :
    (row ++ '\n' :: rest).splitOn '\n' = row :: rest.splitOn '\n' := by
  rw [splitOn_plain unbroken, List.splitOn_cons_eq_if_modifyHead, if_pos (beq_self_eq_true _),
    List.modifyHead_cons, List.append_nil]

theorem rowOffset?_first {front : List Char} (unbroken : '\n' ∉ front) (rest : List Char) :
    rowOffset? ((front ++ rest).splitOn '\n') 0 front.length = some front.length := by
  rw [splitOn_plain unbroken]
  cases rows : rest.splitOn '\n' with
  | nil => exact absurd rows (List.splitOn_ne_nil '\n' rest)
  | cons row others =>
      rw [List.modifyHead_cons, rowOffset?, List.length_append]
      exact if_pos (Nat.le_add_right _ _)

theorem rowOffset?_counted (position : Position) (front : List Char) (unbroken : '\n' ∉ front)
    (col : position.col = front.length + 1) (before rest : List Char) :
    rowOffset? ((front ++ (before ++ rest)).splitOn '\n')
        ((position.after before).line - position.line).toNat
        ((position.after before).col - 1).toNat =
      some (front.length + before.length) := by
  induction before generalizing position front with
  | nil =>
      have number : ((position.after []).line - position.line).toNat = 0 := by
        rw [Position.after_nil, Int.sub_self, Int.toNat_zero]
      have character : ((position.after []).col - 1).toNat = front.length := by
        rw [Position.after_nil, col]
        omega
      rw [number, character]
      exact rowOffset?_first unbroken rest
  | cons character others ih =>
      by_cases newline : character = '\n'
      · -- The first row is complete, and counting goes on at the start of the next one.
        subst newline
        have later := ih (position.next '\n') [] List.not_mem_nil rfl
        have below := (position.next '\n').line_le_after others
        have start : (position.next '\n').line = position.line + 1 := rfl
        have number : ((position.after ('\n' :: others)).line - position.line).toNat =
            (((position.next '\n').after others).line - (position.next '\n').line).toNat + 1 := by
          change (((position.next '\n').after others).line - position.line).toNat = _
          omega
        rw [List.nil_append, List.length_nil, Nat.zero_add] at later
        rw [List.cons_append, splitOn_row unbroken, number, rowOffset?]
        change (rowOffset? _ _ (((position.next '\n').after others).col - 1).toNat).map _ = _
        rw [later, Option.map_some, List.length_cons]
        congr 1
        omega
      · have step : position.next character =
            ⟨position.offset + 1, position.line, position.col + 1⟩ := if_neg newline
        have further : '\n' ∉ front ++ [character] := by
          rw [List.mem_append, List.mem_singleton, not_or]
          exact ⟨unbroken, Ne.symm newline⟩
        have moved : (position.next character).col = (front ++ [character]).length + 1 := by
          rw [step, List.length_append, List.length_singleton]
          change position.col + 1 = _
          omega
        have later := ih _ _ further moved
        have total : (front ++ [character]).length + others.length =
            front.length + (character :: others).length := by
          rw [List.length_append, List.length_singleton, List.length_cons]
          omega
        rw [total, List.append_assoc, step] at later
        change rowOffset? ((front ++ character :: (others ++ rest)).splitOn '\n')
          (((position.next character).after others).line - position.line).toNat
          (((position.next character).after others).col - 1).toNat = _
        rw [step]
        exact later

end SourceText

/-! ### Counted positions -/

/-- A position that counting through the front of a text arrives at. -/
def Position.Counted (text : String) (position : Position) : Prop :=
  ∃ before, before <+: text.toList ∧ position = Position.first.after before

namespace Position.Counted

variable {text : String} {position earlier later : Position}

theorem line_pos (counted : position.Counted text) : 1 ≤ position.line := by
  obtain ⟨before, _, rfl⟩ := counted
  exact Position.first.line_le_after before

theorem col_pos (counted : position.Counted text) : 1 ≤ position.col := by
  obtain ⟨before, _, rfl⟩ := counted
  exact Position.col_after_pos (Int.le_refl 1) before

/-- Of two counted positions one is reached from the other. -/
theorem exists_after (first : earlier.Counted text) (second : later.Counted text)
    (ordered : earlier.offset ≤ later.offset) :
    ∃ between : List Char, later = earlier.after between ∧
      earlier.offset + between.length = later.offset := by
  obtain ⟨before, front, rfl⟩ := first
  obtain ⟨beyond, ahead, rfl⟩ := second
  rw [Position.offset_after, Position.offset_after] at ordered
  have shorter : before.length ≤ beyond.length := by omega
  obtain ⟨between, rfl⟩ := List.prefix_of_prefix_length_le front ahead shorter
  refine ⟨between, Position.after_append _ _ _, ?_⟩
  rw [Position.offset_after, Position.offset_after, List.length_append]
  omega

/-- A counted position is the place of its offset in the rows of the text. -/
theorem rowOffset?_eq {source : SourceText} (counted : position.Counted source.content) :
    SourceText.rowOffset? source.rows (position.line - 1).toNat (position.col - 1).toNat =
      some position.offset.toNat := by
  obtain ⟨before, ⟨rest, split⟩, rfl⟩ := counted
  have place := SourceText.rowOffset?_counted .first [] List.not_mem_nil rfl before rest
  rw [List.nil_append, split, List.length_nil, Nat.zero_add] at place
  have offset : (Position.first.after before).offset.toNat = before.length := by
    rw [Position.offset_after]
    change ((0 : Int) + before.length).toNat = _
    omega
  rw [offset]
  exact place

end Position.Counted

end SageNotation
