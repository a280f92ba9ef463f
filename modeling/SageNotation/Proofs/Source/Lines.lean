import Mathlib.Data.List.DropRight
import SageNotation.Proofs.Source.Lookup

/-!
Lines of a text and its rows.

Positions count rows, which end at newlines, while a text is shown by lines, which end at
any line break.  A row with no break inside is one line, but for a carriage return at its
end.  Up to the first row with another break, lines and rows have the same numbers
(`lineChars_cursor`); such a row is cut off at its first break, so that the line that is
shown for an offset is the row around it exactly as long as there has been no such row
(`lineAt_rowAt_iff`).
-/

namespace SageNotation

namespace Text

def upToBreak (text : List Char) : List Char :=
  text.takeWhile (!isLineBreak ·)

/-- The line is the row, but for one carriage return at the end of the row. -/
def UpToReturn (line row : List Char) : Prop :=
  row = line ∨ row = line ++ ['\r']

instance (line row : List Char) : Decidable (UpToReturn line row) :=
  inferInstanceAs (Decidable (_ ∨ _))

/-- No line break in the row, but for one carriage return at its end. -/
def OneLine (row : List Char) : Prop :=
  ∃ line, UpToReturn line row ∧ ∀ character ∈ line, isLineBreak character = false

/-! ### The first line -/

theorem upToBreak_plain {character : Char} (plain : isLineBreak character = false)
    (rest : List Char) : upToBreak (character :: rest) = character :: upToBreak rest :=
  List.takeWhile_cons_of_pos (p := fun character => !isLineBreak character) (by rw [plain]; rfl)

theorem upToBreak_break {character : Char} (breaks : isLineBreak character = true)
    (rest : List Char) : upToBreak (character :: rest) = [] :=
  List.takeWhile_cons_of_neg (p := fun character => !isLineBreak character)
    (by rw [breaks]; exact Bool.false_ne_true)

theorem lineChars_plain {character : Char} (plain : isLineBreak character = false)
    (rest : List Char) :
    lineChars (character :: rest) = extendFirst character (lineChars rest) := by
  rw [lineChars.eq_3, plain, if_neg Bool.false_ne_true]
  rintro others rfl
  cases plain

theorem lineChars_append {line text : List Char} {others : List (List Char)}
    (plain : ∀ character ∈ line, isLineBreak character = false)
    (ends : lineChars text = [] :: others) : lineChars (line ++ text) = line :: others := by
  induction line with
  | nil => exact ends
  | cons character rest ih =>
      obtain ⟨here, later⟩ := List.forall_mem_cons.mp plain
      rw [List.cons_append, lineChars_plain here, ih later]
      rfl

theorem head?_lineChars (text : List Char) :
    (lineChars text).head? = if text = [] then none else some (upToBreak text) := by
  fun_induction lineChars text with
  | case1 => rfl
  | case2 rest ih => rfl
  | case3 character rest notPair breaks ih =>
      rw [if_neg (List.cons_ne_nil _ _), upToBreak_break breaks]
      rfl
  | case4 character rest notPair plain ih =>
      rw [if_neg (List.cons_ne_nil _ _), upToBreak_plain (eq_false_of_ne_true plain)]
      cases lines : lineChars rest with
      | nil =>
          rw [lines] at ih
          split at ih
          · rename_i empty
            rw [empty]
            rfl
          · cases ih
      | cons line others =>
          rw [lines] at ih
          split at ih
          · cases ih
          · rw [Option.some.inj ih]
            rfl

theorem upToBreak_append {line : List Char}
    (plain : ∀ character ∈ line, isLineBreak character = false) (rest : List Char) :
    upToBreak (line ++ rest) = line ++ upToBreak rest :=
  List.takeWhile_append_of_pos fun character member => by rw [plain character member]; rfl

theorem isLineBreak_of_mem_upToBreak {text : List Char} {character : Char}
    (member : character ∈ upToBreak text) : isLineBreak character = false := by
  have plain := List.mem_takeWhile_imp member
  rwa [Bool.not_eq_true'] at plain

theorem OneLine.upToBreak_eq {line row : List Char} (same : UpToReturn line row)
    (plain : ∀ character ∈ line, isLineBreak character = false) : upToBreak row = line := by
  rcases same with rfl | rfl
  · have whole := upToBreak_append plain []
    rw [List.append_nil] at whole
    exact whole.trans (List.append_nil row)
  · rw [upToBreak_append plain, upToBreak_break (by decide), List.append_nil]

theorem oneLine_iff {row : List Char} : OneLine row ↔ UpToReturn (upToBreak row) row := by
  constructor
  · rintro ⟨line, same, plain⟩
    rwa [OneLine.upToBreak_eq same plain]
  · exact fun same => ⟨_, same, fun _ => isLineBreak_of_mem_upToBreak⟩

theorem lineChars_row {row : List Char} (whole : OneLine row) (rest : List Char) :
    lineChars (row ++ '\n' :: rest) = upToBreak row :: lineChars rest := by
  obtain ⟨line, same, plain⟩ := whole
  rw [OneLine.upToBreak_eq same plain]
  rcases same with rfl | rfl
  · exact lineChars_append plain rfl
  · rw [List.append_assoc]
    exact lineChars_append plain rfl

end Text

namespace SourceText

open Text

/-! ### Rows before a cursor -/

theorem lineChars_ended {rows : List (List Char)} (whole : ∀ row ∈ rows, OneLine row)
    (rest : List Char) :
    lineChars (ended rows ++ rest) = rows.map upToBreak ++ lineChars rest := by
  induction rows with
  | nil => rfl
  | cons row others ih =>
      obtain ⟨here, later⟩ := List.forall_mem_cons.mp whole
      rw [ended_cons, List.append_assoc, List.append_assoc, List.singleton_append,
        lineChars_row here, ih later]
      rfl

/-- A row ends at the first break, or where it ends itself. -/
theorem upToBreak_begun (row : List Char) (below : List (List Char)) :
    upToBreak (row ++ begun below) = upToBreak row := by
  have stops : upToBreak (begun below) = [] := by
    cases below with
    | nil => rfl
    | cons next others => rfl
  rw [upToBreak, List.takeWhile_append]
  split
  · rename_i whole
    have same : upToBreak row = row :=
      (List.takeWhile_prefix _).eq_of_length whole
    change row ++ upToBreak (begun below) = upToBreak row
    rw [stops, same, List.append_nil]
  · rfl

section Cursors

variable {source : SourceText} {cursor : Cursor}

/-- With no broken row above, the line of a cursor is its row up to the first break. -/
theorem lineChars_cursor (inside : cursor.rows = source.rows)
    (whole : ∀ row ∈ cursor.above, OneLine row) :
    (lineChars source.content.toList)[cursor.above.length]? =
      if cursor.row ++ begun cursor.below = [] then none else some (upToBreak cursor.row) := by
  have text : source.content.toList = ended cursor.above ++ (cursor.row ++ begun cursor.below) := by
    rw [Cursor.text_eq inside, Cursor.before, Cursor.behind, Cursor.row, List.append_assoc,
      List.append_assoc]
  have length : (cursor.above.map upToBreak).length = cursor.above.length := List.length_map _
  rw [text, lineChars_ended whole, List.getElem?_append_right (Nat.le_of_eq length), length,
    Nat.sub_self, ← List.head?_eq_getElem?, head?_lineChars, upToBreak_begun]

theorem lineAt_cursor (inside : cursor.rows = source.rows)
    (whole : ∀ row ∈ cursor.above, OneLine row) :
    (source.lineAt (cursor.above.length + 1)).toList = upToBreak cursor.row := by
  have number : ((cursor.above.length : Int) + 1 - 1).toNat = cursor.above.length := by omega
  rw [lineAt, if_neg (by omega), number, lines, Text.lines, List.getD_eq_getElem?_getD,
    List.getElem?_map, lineChars_cursor inside whole]
  split
  · rename_i empty
    rw [(List.append_eq_nil_iff.mp empty).1]
    rfl
  · exact String.toList_ofList

/-! ### The row around an offset -/

/-- The characters between the last newline before an offset, or the start of the text, and
the next newline from there on, or its end. -/
def rowAt (source : SourceText) (offset : Nat) : List Char :=
  (source.content.toList.take offset).rtakeWhile (· != '\n') ++
    (source.content.toList.drop offset).takeWhile (· != '\n')

theorem rtakeWhile_ended (above : List (List Char)) :
    (ended above).rtakeWhile (· != '\n') = [] := by
  rcases List.eq_nil_or_concat above with rfl | ⟨others, row, rfl⟩
  · rfl
  · rw [ended, List.concat_eq_append, List.flatMap_append, List.flatMap_singleton,
      ← List.append_assoc]
    exact List.rtakeWhile_concat_neg _ _ _ (by decide)

theorem takeWhile_behind (inside : cursor.rows = source.rows) :
    cursor.behind.takeWhile (· != '\n') = cursor.right := by
  have right : ∀ character ∈ cursor.right, (character != '\n') = true := by
    intro character member
    apply bne_iff_ne.mpr
    rintro rfl
    exact Cursor.unbroken inside cursor.row (List.mem_append_right _ List.mem_cons_self)
      (List.mem_append_right _ member)
  have below : (begun cursor.below).takeWhile (· != '\n') = [] := by
    cases cursor.below <;> rfl
  rw [Cursor.behind, List.takeWhile_append_of_pos right, below, List.append_nil]

theorem rowAt_cursor (inside : cursor.rows = source.rows) :
    source.rowAt cursor.before.length = cursor.row := by
  have left : ∀ character ∈ cursor.left.reverse, (character != '\n') = true := by
    intro character member
    apply bne_iff_ne.mpr
    rintro rfl
    exact Cursor.unbroken inside cursor.row (List.mem_append_right _ List.mem_cons_self)
      (List.mem_append_left _ (List.mem_reverse.mp member))
  have above := rtakeWhile_ended cursor.above
  rw [List.rtakeWhile, List.reverse_eq_nil_iff] at above
  rw [rowAt, Cursor.text_eq inside, List.take_left, List.drop_left, takeWhile_behind inside,
    Cursor.before, List.rtakeWhile, List.reverse_append, List.takeWhile_append_of_pos left, above,
    List.append_nil, List.reverse_reverse, Cursor.row]

theorem rowAt_clamp (source : SourceText) (offset : Nat) :
    source.rowAt (source.clamp offset) = source.rowAt offset := by
  rw [clamp, Int.toNat_natCast]
  rcases Nat.le_total offset source.length with within | beyond
  · rw [Nat.min_eq_left within]
  · have all : source.content.toList.length ≤ offset := beyond
    rw [Nat.min_eq_right beyond, rowAt, rowAt, length, List.take_length, List.drop_length,
      List.take_of_length_le all, List.drop_eq_nil_of_le all]

/-! ### Lines and rows of offsets -/

/-- The line that is shown for an offset is the row around it. -/
def ShowsRow (source : SourceText) (offset : Nat) : Prop :=
  UpToReturn (source.lineAt (source.positionAt offset).line).toList (source.rowAt offset)

theorem showsRow_clamp (source : SourceText) (offset : Nat) :
    source.ShowsRow (source.clamp offset) ↔ source.ShowsRow offset := by
  rw [ShowsRow, ShowsRow, positionAt_clamp, rowAt_clamp]

/-- With no broken row above, an offset is shown its row if that is not broken either. -/
theorem showsRow_cursor (inside : cursor.rows = source.rows)
    (whole : ∀ row ∈ cursor.above, OneLine row) :
    source.ShowsRow cursor.before.length ↔ OneLine cursor.row := by
  rw [ShowsRow, Cursor.positionAt_before inside, lineAt_cursor inside whole, rowAt_cursor inside,
    oneLine_iff]

end Cursors

/-- The rows up to the one that an offset is in. -/
def rowsUpTo (source : SourceText) (offset : Nat) : List (List Char) :=
  source.rows.take (source.positionAt offset).line.toNat

theorem rowsUpTo_cursor {source : SourceText} {cursor : Cursor}
    (inside : cursor.rows = source.rows) :
    source.rowsUpTo cursor.before.length = cursor.above ++ [cursor.row] := by
  have number : ((cursor.above.length : Int) + 1).toNat = (cursor.above ++ [cursor.row]).length := by
    rw [List.length_append, List.length_singleton]
    omega
  have front : source.rows = (cursor.above ++ [cursor.row]) ++ cursor.below := by
    rw [← inside, Cursor.rows, List.append_assoc, List.singleton_append]
  rw [rowsUpTo, Cursor.positionAt_before inside, number, front, List.take_left]

theorem rowsUpTo_prefix {source : SourceText} {earlier later : Nat} (ordered : earlier ≤ later) :
    source.rowsUpTo earlier <+: source.rowsUpTo later := by
  have offsets : (source.positionAt earlier).offset ≤ (source.positionAt later).offset := by
    change (source.clamp earlier : Int) ≤ source.clamp later
    simp only [clamp]
    omega
  obtain ⟨between, reached, _⟩ :=
    (counted_positionAt source earlier).exists_after (counted_positionAt source later) offsets
  have lines := (source.positionAt earlier).line_le_after between
  rw [← reached] at lines
  exact List.take_prefix_take_left (by omega)

theorem exists_start {source : SourceText} {offset : Nat} {above : List (List Char)}
    {row : List Char} (listed : above ++ [row] <+: source.rowsUpTo offset) :
    ∃ cursor : Cursor, cursor.rows = source.rows ∧ (cursor.above = above ∧ cursor.row = row) ∧
      cursor.before.length ≤ offset := by
  obtain ⟨below, split⟩ := listed.trans (List.take_prefix _ _)
  have count := listed.length_le
  rw [rowsUpTo, List.length_append, List.length_singleton, List.length_take] at count
  let cursor : Cursor := ⟨above, [], row, below⟩
  have inside : cursor.rows = source.rows := by
    rw [← split, List.append_assoc]
    rfl
  refine ⟨cursor, inside, ⟨rfl, rfl⟩, ?_⟩
  by_contra behind
  have within := Cursor.length_before_le inside
  have reads : (source.positionAt offset).ReadsBefore (source.positionAt cursor.before.length) :=
    readsBefore_positionAt (by omega) (by omega) (by omega)
  have col := (counted_positionAt source offset).col_pos
  rw [Cursor.positionAt_before inside] at reads
  change _ < (above.length + 1 : Int) ∨ _ = (above.length + 1 : Int) ∧ _ < ((0 : Nat) + 1 : Int) at reads
  omega

/-- Up to an offset the lines that are shown are the rows of the text exactly if no row up to
there has a line break inside. -/
theorem lineAt_rowAt_iff (source : SourceText) (offset : Nat) :
    (∀ earlier ≤ offset, source.ShowsRow earlier) ↔ ∀ row ∈ source.rowsUpTo offset, OneLine row := by
  constructor
  · intro shown
    -- Along the rows: with those above known to be lines, a row is tested at its own start.
    have along : ∀ front, front <+: source.rowsUpTo offset → ∀ row ∈ front, OneLine row := by
      intro front
      induction front using List.reverseRecOn with
      | nil => exact fun _ => List.forall_mem_nil _
      | append_singleton above row ih =>
          intro within
          have whole := ih ((List.prefix_append above [row]).trans within)
          obtain ⟨cursor, inside, rows, started⟩ := exists_start within
          have here := shown _ started
          rw [← rows.1] at whole
          rw [showsRow_cursor inside whole, rows.2] at here
          rw [List.forall_mem_append, List.forall_mem_singleton, ← rows.1]
          exact ⟨whole, here⟩
    exact along _ List.prefix_rfl
  · intro whole earlier ordered
    have within : source.clamp earlier ≤ source.length := Nat.min_le_right _ _
    obtain ⟨cursor, inside, length⟩ := Cursor.exists_at source within
    have rows : cursor.above ++ [cursor.row] <+: source.rowsUpTo offset := by
      rw [← rowsUpTo_cursor inside, length]
      have nearer : source.clamp earlier ≤ earlier := Nat.min_le_left _ _
      exact rowsUpTo_prefix (Nat.le_trans nearer ordered)
    have above : ∀ row ∈ cursor.above, OneLine row := fun row member =>
      whole row (rows.subset (List.mem_append_left _ member))
    rw [← showsRow_clamp, ← length, showsRow_cursor inside above]
    exact whole _ (rows.subset (List.mem_append_right _ List.mem_cons_self))

/-- A form feed ends a line but no row: the line that is shown for the start of the text is
cut off there. -/
theorem formFeed_not_shown :
    (ofText "a\x0cb" "t.sage").positionAt 0 = ⟨0, 1, 1⟩ ∧
      (ofText "a\x0cb" "t.sage").lineAt 1 = "a" ∧
      (ofText "a\x0cb" "t.sage").rowAt 0 = ['a', '\x0c', 'b'] ∧
      ¬(ofText "a\x0cb" "t.sage").ShowsRow 0 := by
  refine ⟨by decide +kernel, by decide +kernel, by decide +kernel, ?_⟩
  rw [ShowsRow]
  decide +kernel

end SourceText

end SageNotation
