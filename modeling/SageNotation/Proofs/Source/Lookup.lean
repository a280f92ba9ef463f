import Mathlib.Data.List.TakeWhile
import SageNotation.Proofs.Source.Rows
import SageNotation.Proofs.Source.Table

/-!
Offsets of a text and places in its rows.

A cursor stands between two characters.  It knows the rows above it, what stands on its
own row to either side, and the rows below.  Every offset of a text is that of a cursor,
and so is every column of a row up to right behind its last character.  The position of a
cursor can be read off it (`positionAt_before`), and looking up a position leads back to
the offset (`offsetAt_positionAt`).  So the two look-ups are inverse to each other, and
both keep the order (`lookups_inverse`).
-/

namespace SageNotation

namespace Position

theorem after_unbroken {text : List Char} (unbroken : '\n' ∉ text) (position : Position) :
    position.after text =
      ⟨position.offset + text.length, position.line, position.col + text.length⟩ := by
  have offset := position.offset_after text
  have counted : (position.after text).line = position.line ∧
      (position.after text).col = position.col + text.length := by
    induction text generalizing position with
    | nil => exact ⟨rfl, (Int.add_zero _).symm⟩
    | cons character rest ih =>
        have here : character ≠ '\n' := fun same => unbroken (List.mem_cons.mpr (Or.inl same.symm))
        have later : '\n' ∉ rest := fun member => unbroken (List.mem_cons_of_mem _ member)
        obtain ⟨line, col⟩ := ih later (position.next character) (Position.offset_after _ _)
        change ((position.next character).after rest).line = _ ∧
          ((position.next character).after rest).col = _
        rw [line, col, next, if_neg here, List.length_cons]
        refine ⟨rfl, ?_⟩
        dsimp only
        omega
  rw [← offset, ← counted.1, ← counted.2]

/-- A row and its newline lead to the start of the next line. -/
theorem after_row {row : List Char} (unbroken : '\n' ∉ row) (position : Position) :
    position.after (row ++ ['\n']) =
      ⟨position.offset + (row ++ ['\n']).length, position.line + 1, 1⟩ := by
  rw [after_append, after_unbroken unbroken, List.length_append, List.length_singleton]
  change Position.mk (position.offset + row.length + 1) _ 1 = _
  rw [Position.mk.injEq]
  refine ⟨?_, rfl, rfl⟩
  omega

/-- An earlier line, or the same line and an earlier column. -/
def ReadsBefore (left right : Position) : Prop :=
  left.line < right.line ∨ (left.line = right.line ∧ left.col < right.col)

end Position

namespace SourceText

/-! ### Rows with their newlines -/

def ended (rows : List (List Char)) : List Char :=
  rows.flatMap (· ++ ['\n'])

def begun (rows : List (List Char)) : List Char :=
  rows.flatMap ('\n' :: ·)

theorem ended_cons (row : List Char) (others : List (List Char)) :
    ended (row :: others) = row ++ ['\n'] ++ ended others := List.flatMap_cons

theorem begun_cons (row : List Char) (others : List (List Char)) :
    begun (row :: others) = '\n' :: (row ++ begun others) := List.flatMap_cons

theorem intercalate_rows (above : List (List Char)) (row : List Char) (below : List (List Char)) :
    ['\n'].intercalate (above ++ row :: below) = ended above ++ (row ++ begun below) := by
  induction above with
  | nil =>
      change ['\n'].intercalate (row :: below) = row ++ begun below
      induction below generalizing row with
      | nil => rw [List.intercalate_singleton]; exact (List.append_nil row).symm
      | cons next others ih =>
          rw [List.intercalate_cons_cons, ih, begun_cons, List.append_assoc]
          rfl
  | cons first others ih =>
      obtain ⟨next, rest, same⟩ : ∃ next rest, others ++ row :: below = next :: rest :=
        List.exists_cons_of_ne_nil (List.append_ne_nil_of_right_ne_nil _ (List.cons_ne_nil _ _))
      rw [same] at ih
      rw [List.cons_append, same, List.intercalate_cons_cons, ih, ended_cons]
      simp only [List.append_assoc]

theorem after_ended {rows : List (List Char)} (unbroken : ∀ row ∈ rows, '\n' ∉ row)
    {position : Position} (start : position.col = 1) :
    position.after (ended rows) =
      ⟨position.offset + (ended rows).length, position.line + rows.length, 1⟩ := by
  induction rows generalizing position with
  | nil =>
      rw [ended, List.flatMap_nil, Position.after_nil, List.length_nil, List.length_nil]
      change position = ⟨position.offset + 0, position.line + 0, 1⟩
      rw [Int.add_zero, Int.add_zero, ← start]
  | cons row others ih =>
      obtain ⟨here, later⟩ := List.forall_mem_cons.mp unbroken
      rw [ended_cons, Position.after_append, Position.after_row here, ih later rfl,
        Position.mk.injEq]
      refine ⟨?_, ?_, rfl⟩
      · have length : (row ++ ['\n'] ++ ended others).length =
            (row ++ ['\n']).length + (ended others).length := List.length_append
        rw [length]
        dsimp only
        omega
      · rw [List.length_cons]
        dsimp only
        omega

/-! ### Cursors -/

/-- A place between two characters of a text in rows: the rows above it, the characters of
its own row on either side, and the rows below. -/
structure Cursor where
  above : List (List Char)
  left : List Char
  right : List Char
  below : List (List Char)

namespace Cursor

def row (cursor : Cursor) : List Char :=
  cursor.left ++ cursor.right

def rows (cursor : Cursor) : List (List Char) :=
  cursor.above ++ cursor.row :: cursor.below

/-- All characters of the text before the cursor. -/
def before (cursor : Cursor) : List Char :=
  ended cursor.above ++ cursor.left

/-- All characters of the text behind the cursor. -/
def behind (cursor : Cursor) : List Char :=
  cursor.right ++ begun cursor.below

variable {cursor : Cursor} {source : SourceText}

theorem intercalate_rows (cursor : Cursor) :
    ['\n'].intercalate cursor.rows = cursor.before ++ cursor.behind := by
  rw [rows, SourceText.intercalate_rows, row, before, behind, List.append_assoc, List.append_assoc]

theorem text_eq (inside : cursor.rows = source.rows) :
    source.content.toList = cursor.before ++ cursor.behind := by
  rw [← intercalate_rows, inside]
  exact (List.intercalate_splitOn '\n').symm

theorem unbroken (inside : cursor.rows = source.rows) : ∀ row ∈ cursor.rows, '\n' ∉ row := by
  rw [inside]
  intro row listed member
  have parted : row ∈ source.content.toList.splitOnP (· == '\n') := by
    rw [← List.splitOn_eq_splitOnP]
    exact listed
  have stops := (mem_of_mem_splitOnP member parted).2
  rw [beq_self_eq_true] at stops
  cases stops

/-- What has been counted at a cursor: the rows above it, and the characters before it on its
row. -/
theorem after_before (inside : cursor.rows = source.rows) :
    Position.first.after cursor.before =
      ⟨cursor.before.length, cursor.above.length + 1, cursor.left.length + 1⟩ := by
  have free := unbroken inside
  rw [rows, List.forall_mem_append, List.forall_mem_cons] at free
  obtain ⟨above, own, _⟩ := free
  have left : '\n' ∉ cursor.left := fun member => own (List.mem_append_left _ member)
  rw [before, Position.after_append, after_ended above rfl, Position.after_unbroken left,
    List.length_append, Position.mk.injEq]
  change (0 : Int) + _ + _ = _ ∧ (1 : Int) + _ = _ ∧ (1 : Int) + _ = _
  refine ⟨?_, ?_, ?_⟩ <;> omega

/-- The position that is looked up for a cursor is the one that has been counted there. -/
theorem positionAt_before (inside : cursor.rows = source.rows) :
    source.positionAt cursor.before.length =
      ⟨cursor.before.length, cursor.above.length + 1, cursor.left.length + 1⟩ :=
  (positionAt_length (text_eq inside)).trans (after_before inside)

theorem length_before_le (inside : cursor.rows = source.rows) :
    cursor.before.length ≤ source.length := by
  rw [length, text_eq inside, List.length_append]
  exact Nat.le_add_right _ _

theorem exists_of_le {rows : List (List Char)} (nonempty : rows ≠ []) {offset : Nat}
    (within : offset ≤ (['\n'].intercalate rows).length) :
    ∃ cursor : Cursor, cursor.rows = rows ∧ cursor.before.length = offset := by
  induction rows generalizing offset with
  | nil => exact absurd rfl nonempty
  | cons row others ih =>
      by_cases own : offset ≤ row.length
      · refine ⟨⟨[], row.take offset, row.drop offset, others⟩, ?_, ?_⟩
        · rw [Cursor.rows, Cursor.row, List.take_append_drop]
          rfl
        · exact List.length_take_of_le own
      · cases others with
        | nil =>
            rw [List.intercalate_singleton] at within
            exact absurd within own
        | cons next more =>
            rw [List.intercalate_cons_cons, List.length_append, List.length_append,
              List.length_singleton] at within
            have later : offset - (row.length + 1) ≤ (['\n'].intercalate (next :: more)).length := by
              omega
            obtain ⟨⟨above, left, right, below⟩, same, length⟩ := ih (List.cons_ne_nil _ _) later
            refine ⟨⟨row :: above, left, right, below⟩, congrArg (row :: ·) same, ?_⟩
            simp only [before, ended_cons, List.length_append, List.length_singleton] at length ⊢
            omega

/-- There is a cursor at every offset of a text. -/
theorem exists_at (source : SourceText) {offset : Nat} (within : offset ≤ source.length) :
    ∃ cursor : Cursor, cursor.rows = source.rows ∧ cursor.before.length = offset := by
  have whole : ['\n'].intercalate source.rows = source.content.toList := List.intercalate_splitOn '\n'
  apply exists_of_le (List.splitOn_ne_nil '\n' _)
  change offset ≤ (['\n'].intercalate source.rows).length
  rw [whole]
  exact within

theorem exists_in_row {rows : List (List Char)} {number character : Nat} {row : List Char}
    (listed : rows[number]? = some row) (within : character ≤ row.length) :
    ∃ cursor : Cursor, cursor.rows = rows ∧ cursor.above.length = number ∧
      cursor.left.length = character ∧ cursor.row = row := by
  obtain ⟨inside, same⟩ := List.getElem?_eq_some_iff.mp listed
  have whole : row.take character ++ row.drop character = row := List.take_append_drop _ _
  refine ⟨⟨rows.take number, row.take character, row.drop character, rows.drop (number + 1)⟩,
    ?_, List.length_take_of_le (Nat.le_of_lt inside), List.length_take_of_le within, whole⟩
  rw [Cursor.rows, Cursor.row]
  dsimp only
  rw [whole, ← same, ← List.drop_eq_getElem_cons inside, List.take_append_drop]

end Cursor

/-! ### Looking up and back -/

variable {source : SourceText}

theorem clamp_of_le {offset : Nat} (within : offset ≤ source.length) :
    source.clamp offset = offset := by
  rw [clamp, Int.toNat_natCast]
  exact Nat.min_eq_left within

theorem offsetAt_positionAt (source : SourceText) (offset : Int) :
    source.offsetAt (source.positionAt offset).line (source.positionAt offset).col =
      source.clamp offset := by
  rw [positionAt]
  dsimp only
  generalize passed : source.lineStarts.takeWhile (· ≤ source.clamp offset) = starts
  have front : starts <+: source.lineStarts := by
    rw [← passed]
    exact List.takeWhile_prefix _
  have nonempty : starts ≠ [] := by
    rw [← passed, lineStarts, List.takeWhile_cons, if_pos (decide_eq_true (Nat.zero_le _))]
    exact List.cons_ne_nil _ _
  have positive : 0 < starts.length := List.length_pos_iff.mpr nonempty
  have last : source.lineStarts[starts.length - 1]? = some (starts.getLastD 0) := by
    rw [List.getLastD_eq_getLast?, List.getLast?_eq_getElem?,
      List.prefix_iff_getElem?.mp front _ (Nat.sub_lt positive Nat.one_pos),
      List.getElem?_eq_getElem (Nat.sub_lt positive Nat.one_pos)]
    rfl
  have number : ((starts.length : Int) - 1).toNat = starts.length - 1 := by omega
  rw [offsetAt, if_neg (by omega), number, last]
  dsimp only
  have back : ((starts.getLastD 0 : Nat) : Int) +
      ((source.clamp offset : Int) - (starts.getLastD 0 : Nat) + 1) - 1 = source.clamp offset := by
    omega
  rw [back]
  exact clamp_of_le (Nat.min_le_right _ _)

/-- A line of the text and a column in it, both counted from one: that of a character, or
the one right behind the last. -/
def HasPlace (source : SourceText) (line col : Int) : Prop :=
  ∃ (number : Nat) (row : List Char), source.rows[number]? = some row ∧ line = number + 1 ∧
    1 ≤ col ∧ col ≤ row.length + 1

theorem Cursor.hasPlace {cursor : Cursor} (inside : cursor.rows = source.rows) :
    source.HasPlace (cursor.above.length + 1) (cursor.left.length + 1) := by
  refine ⟨cursor.above.length, cursor.row, ?_, rfl, ?_, ?_⟩
  · rw [← inside, Cursor.rows, List.getElem?_append_right (Nat.le_refl _), Nat.sub_self]
    rfl
  · omega
  · rw [Cursor.row, List.length_append]
    omega

theorem HasPlace.exists_cursor {line col : Int} (place : source.HasPlace line col) :
    ∃ cursor : Cursor, cursor.rows = source.rows ∧ line = cursor.above.length + 1 ∧
      col = cursor.left.length + 1 := by
  obtain ⟨number, row, listed, rfl, positive, within⟩ := place
  have inside : (col - 1).toNat ≤ row.length := by omega
  obtain ⟨cursor, same, above, left, _⟩ := Cursor.exists_in_row listed inside
  refine ⟨cursor, same, ?_, ?_⟩ <;> omega

theorem positionAt_clamp (source : SourceText) (offset : Int) :
    source.positionAt (source.clamp offset) = source.positionAt offset := by
  have same : source.clamp (source.clamp offset) = source.clamp offset :=
    clamp_of_le (Nat.min_le_right _ _)
  rw [positionAt, positionAt, same]

theorem counted_positionAt (source : SourceText) (offset : Int) :
    (source.positionAt offset).Counted source.content := by
  have within : source.clamp offset ≤ source.length := Nat.min_le_right _ _
  obtain ⟨cursor, inside, length⟩ := Cursor.exists_at source within
  have text := Cursor.text_eq inside
  refine ⟨cursor.before, ⟨cursor.behind, text.symm⟩, ?_⟩
  rw [← positionAt_clamp, ← length]
  exact positionAt_length text

theorem readsBefore_positionAt {earlier later : Int} (inside : 0 ≤ earlier)
    (ordered : earlier < later) (within : later ≤ source.length) :
    (source.positionAt earlier).ReadsBefore (source.positionAt later) := by
  have before : (source.positionAt earlier).offset < (source.positionAt later).offset := by
    change (source.clamp earlier : Int) < source.clamp later
    simp only [clamp]
    omega
  obtain ⟨between, reached, length⟩ :=
    (counted_positionAt source earlier).exists_after (counted_positionAt source later)
      (Int.le_of_lt before)
  rw [Position.ReadsBefore, reached]
  rcases (source.positionAt earlier).after_forward between with below | ⟨same, further⟩
  · exact Or.inl below
  · right
    omega

/-- The two look-ups of a text, from an offset to a line and a column and back. -/
structure Inverse (source : SourceText) : Prop where
  /-- An offset outside the text counts as the nearest one in it. -/
  clamped : ∀ offset : Int,
    source.positionAt offset = source.positionAt (max 0 (min offset source.length))
  placed : ∀ offset : Int,
    source.HasPlace (source.positionAt offset).line (source.positionAt offset).col
  back : ∀ offset : Int, 0 ≤ offset → offset ≤ source.length →
    (source.offsetAt (source.positionAt offset).line (source.positionAt offset).col : Int) = offset
  forth : ∀ line col : Int, source.HasPlace line col →
    (source.positionAt (source.offsetAt line col)).line = line ∧
      (source.positionAt (source.offsetAt line col)).col = col
  ordered : ∀ earlier later : Int, 0 ≤ earlier → earlier < later → later ≤ source.length →
    (source.positionAt earlier).ReadsBefore (source.positionAt later)

/-- Offsets of a text and places in its rows correspond to each other one by one and in
order. -/
theorem lookups_inverse (source : SourceText) : source.Inverse := by
  refine
    { clamped := ?_
      placed := ?_
      back := ?_
      forth := ?_
      ordered := fun _ _ => readsBefore_positionAt }
  · intro offset
    have nearest : max 0 (min offset source.length) = (source.clamp offset : Int) := by
      rw [clamp]
      omega
    rw [nearest, positionAt_clamp]
  · intro offset
    have within : source.clamp offset ≤ source.length := Nat.min_le_right _ _
    obtain ⟨cursor, inside, length⟩ := Cursor.exists_at source within
    rw [← positionAt_clamp, ← length, Cursor.positionAt_before inside]
    exact Cursor.hasPlace inside
  · intro offset inside within
    rw [offsetAt_positionAt, clamp]
    omega
  · intro line col place
    obtain ⟨cursor, inside, rfl, rfl⟩ := place.exists_cursor
    have position := Cursor.positionAt_before inside
    have offset := offsetAt_positionAt source cursor.before.length
    rw [position, clamp_of_le (Cursor.length_before_le inside)] at offset
    rw [offset, position]
    exact ⟨rfl, rfl⟩

end SourceText

end SageNotation
