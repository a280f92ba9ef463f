import SageNotation.Diagnostic.Check
import SageNotation.Diagnostic.Render
import SageNotation.Proofs.Diagnostic.Spans
import SageNotation.Proofs.Source.Lines

/-!
Carets under the text that a diagnostic is about.

A span that is stamped on a node starts at a cursor with a character to its right.  If it
stops on the row of this cursor it has as many columns as characters, and otherwise it is
underlined to the end of the row (`Cursor.caretCount_eq`).  Where newlines are the only line
breaks, the line that is shown is the row (`Cursor.sourceLine?_eq`), so the carets of every
diagnostic stand under the first of the characters that it is about (`render_underlines`).
-/

namespace SageNotation

namespace Text

/-- Lines are ended by newlines and by nothing else. -/
def BrokenByNewlines (text : String) : Prop :=
  ∀ character ∈ text.toList, isLineBreak character = true → character = '\n'

instance (text : String) : Decidable (BrokenByNewlines text) :=
  List.decidableBAll (fun character => isLineBreak character = true → character = '\n') text.toList

end Text

namespace SourceText

/-- The offset where the row around an offset ends. -/
def rowEnd (source : SourceText) (offset : Nat) : Nat :=
  offset + ((source.content.toList.drop offset).takeWhile (· != '\n')).length

namespace Cursor

variable {source : SourceText} {cursor : Cursor}

theorem rowEnd_eq (inside : cursor.rows = source.rows) :
    source.rowEnd cursor.before.length = cursor.before.length + cursor.right.length := by
  rw [rowEnd, Cursor.text_eq inside, List.drop_left, takeWhile_behind inside]

theorem unbroken_right (inside : cursor.rows = source.rows) : '\n' ∉ cursor.right := by
  have own : cursor.row ∈ cursor.rows :=
    List.mem_append_right cursor.above List.mem_cons_self
  exact fun member => unbroken inside cursor.row own (List.mem_append_right cursor.left member)

theorem plain_of_mem_rows (broken : Text.BrokenByNewlines source.content) {row : List Char}
    (listed : row ∈ source.rows) : ∀ character ∈ row, Text.isLineBreak character = false := by
  intro character member
  have parted : row ∈ source.content.toList.splitOnP (· == '\n') := by
    rw [← List.splitOn_eq_splitOnP]
    exact listed
  obtain ⟨within, other⟩ := mem_of_mem_splitOnP member parted
  by_contra breaks
  rw [Bool.not_eq_false] at breaks
  rw [broken character within breaks] at other
  cases other

theorem sourceLine?_eq (inside : cursor.rows = source.rows) (ahead : cursor.right ≠ [])
    (broken : Text.BrokenByNewlines source.content) {span : Span}
    {linesOf : String → List String} (added : linesOf span.file = Text.lines source.content)
    (start : span.start = Position.first.after cursor.before) :
    Diagnostic.sourceLine? linesOf span = some (String.ofList cursor.row) := by
  have plain : ∀ row ∈ cursor.rows, ∀ character ∈ row, Text.isLineBreak character = false := by
    rw [inside]
    exact fun _ => plain_of_mem_rows broken
  rw [Cursor.rows, List.forall_mem_append, List.forall_mem_cons] at plain
  obtain ⟨above, own, _⟩ := plain
  have whole : ∀ row ∈ cursor.above, Text.OneLine row := fun row member =>
    ⟨row, Or.inl rfl, above row member⟩
  have filled : cursor.row ++ begun cursor.below ≠ [] := by
    intro empty
    exact ahead (List.append_eq_nil_iff.mp (List.append_eq_nil_iff.mp empty).1).2
  have line : span.start.line = (cursor.above.length : Int) + 1 := by
    rw [start, Cursor.after_before inside]
  have number : ((cursor.above.length : Int) + 1 - 1).toNat = cursor.above.length := by omega
  rw [Diagnostic.sourceLine?, line, if_neg (by omega), number, added, Text.lines,
    List.getElem?_map, lineChars_cursor inside whole, if_neg filled,
    Text.OneLine.upToBreak_eq (Or.inl rfl) own, Option.map_some]

theorem line_lt_of_leaves (inside : cursor.rows = source.rows) {start stop : Position}
    {more : List Char} (reached : stop = start.after (cursor.right ++ more))
    (covered : cursor.right ++ more <+: cursor.behind) (leaves : 0 < more.length) :
    start.line < stop.line := by
  have rest : more <+: begun cursor.below := (List.prefix_append_right_inj cursor.right).mp covered
  cases more with
  | nil => cases leaves
  | cons first others =>
      have newline : first = '\n' := by
        cases below : cursor.below with
        | nil =>
            rw [below] at rest
            cases List.prefix_nil.mp rest
        | cons row later =>
            rw [below, begun_cons] at rest
            exact (List.cons_prefix_cons.mp rest).1
      have next := Position.after_row (unbroken_right inside) start
      have onwards := (start.after (cursor.right ++ ['\n'])).line_le_after others
      rw [← Position.after_append, List.append_assoc, List.singleton_append, ← newline,
        ← reached, newline, next] at onwards
      exact Int.lt_of_add_one_le onwards

/-- On one row a span has as many columns as characters; one that leaves the row is underlined
to the end of it. -/
theorem caretCount_eq (inside : cursor.rows = source.rows) (ahead : cursor.right ≠ [])
    {span : Span} {between : List Char} (start : span.start = Position.first.after cursor.before)
    (stop : span.stop = span.start.after between) (covered : between <+: cursor.behind)
    (nonempty : between ≠ []) :
    Diagnostic.caretCount span (String.ofList cursor.row) =
      min between.length cursor.right.length := by
  have room := List.length_pos_iff.mpr ahead
  have some := List.length_pos_iff.mpr nonempty
  have right := unbroken_right inside
  have col : span.start.col = (cursor.left.length : Int) + 1 := by
    rw [start, Cursor.after_before inside]
  rcases Nat.lt_or_ge cursor.right.length between.length with leaves | stays
  · have front : cursor.right <+: between :=
      List.prefix_of_prefix_length_le (List.prefix_append _ _) covered (Nat.le_of_lt leaves)
    obtain ⟨more, rfl⟩ := front
    have below : span.start.line < span.stop.line :=
      line_lt_of_leaves inside stop covered (by simpa using leaves)
    have length : cursor.row.length = cursor.left.length + cursor.right.length :=
      List.length_append
    rw [Diagnostic.caretCount, if_neg (by omega), String.toList_ofList, col, length,
      Nat.min_eq_right (Nat.le_of_lt leaves)]
    omega
  · have within : between <+: cursor.right :=
      List.prefix_of_prefix_length_le covered (List.prefix_append _ _) stays
    have unbroken : '\n' ∉ between := fun member => right (within.subset member)
    rw [Position.after_unbroken unbroken] at stop
    rw [Diagnostic.caretCount, stop, if_pos rfl, Nat.min_eq_left stays]
    dsimp only
    omega

/-- The cursor at the start of a stamped span, and what the span covers behind it. -/
theorem exists_of_stamped (source : SourceText) {file : String} {span : Span}
    (stamped : span.Stamped source.content file) :
    ∃ (cursor : Cursor) (between : List Char), cursor.rows = source.rows ∧ cursor.right ≠ [] ∧
      span.start = Position.first.after cursor.before ∧ span.stop = span.start.after between ∧
      between <+: cursor.behind ∧ between ≠ [] := by
  obtain ⟨before, first, rest, split, visible, start⟩ := stamped.meets
  have within : before.length ≤ source.length := by
    rw [length, split, List.length_append]
    exact Nat.le_add_right _ _
  obtain ⟨cursor, inside, length⟩ := exists_at source within
  obtain ⟨same, behind⟩ := List.append_inj ((Cursor.text_eq inside).symm.trans split) length
  rw [← same] at start
  have ahead : cursor.right ≠ [] := by
    have run := takeWhile_behind inside
    rw [behind, List.takeWhile_cons_of_pos (p := fun character => character != '\n')
      (bne_iff_ne.mpr visible)] at run
    rw [← run]
    exact List.cons_ne_nil _ _
  obtain ⟨beyond, front, stop⟩ := stamped.counted.stop
  have ordered := stamped.counted.nonempty
  rw [start, stop, Position.offset_after, Position.offset_after] at ordered
  have shorter : cursor.before.length ≤ beyond.length := by omega
  rw [Cursor.text_eq inside] at front
  obtain ⟨between, rfl⟩ :=
    List.prefix_of_prefix_length_le (List.prefix_append _ _) front shorter
  refine ⟨cursor, between, inside, ahead, start, ?_, ?_, ?_⟩
  · rw [stop, start, Position.after_append]
  · exact (List.prefix_append_right_inj cursor.before).mp front
  · rintro rfl
    rw [List.append_nil] at ordered
    exact Int.lt_irrefl _ ordered

end Cursor

end SourceText

namespace Diagnostic

theorem headerRow_plain (diagnostic : Diagnostic) :
    headerRow .plain diagnostic =
      diagnostic.severity.name ++ "[" ++ diagnostic.code ++ "]: " ++ diagnostic.message := by
  simp [headerRow, Palette.plain, String.append_assoc]

/-- The line number in four columns, or in more where it has more digits. -/
def numbered (number : Int) : List Char :=
  List.replicate (4 - (toString number).toList.length) ' ' ++ (toString number).toList

theorem gutter_eq (number : Int) : gutter number = String.ofList (numbered number) := by
  have width : (4 - ((toString number).length : Int)).toNat =
      4 - (toString number).toList.length := by
    rw [String.length_toList]
    omega
  rw [gutter, numbered, repeated, width, String.ofList_append, String.ofList_toList]

theorem excerptRows_plain (severity : Severity) (span : Span) (line : String) :
    excerptRows .plain severity span line =
      ["  " ++ String.ofList (numbered span.start.line) ++ " | " ++ line,
        "     | " ++ String.ofList (List.replicate (span.start.col - 1).toNat ' ' ++
          List.replicate (caretCount span line).toNat '^')] := by
  simp [excerptRows, bar, Palette.plain, repeated, gutter_eq, String.ofList_append,
    String.append_assoc]

/-- The rows that show a diagnostic about a span: what was found, where, the row of text with
carets below, and the notes. -/
def excerpt (diagnostic : Diagnostic) (span : Span) (row : List Char) (carets : Nat) :
    List String :=
  [diagnostic.severity.name ++ "[" ++ diagnostic.code ++ "]: " ++ diagnostic.message,
    "  --> " ++ (span.file ++ ":" ++ toString span.start.line ++ ":" ++ toString span.start.col),
    "     |",
    "  " ++ String.ofList (numbered span.start.line) ++ " | " ++ String.ofList row,
    "     | " ++ String.ofList (List.replicate (span.start.col - 1).toNat ' ' ++
      List.replicate carets '^')] ++
  diagnostic.notes.map ("  = note: " ++ ·)

theorem rows_located {linesOf : String → List String} {located : Located} {row : List Char}
    {carets : Nat} (shown : sourceLine? linesOf located.span = some (String.ofList row))
    (width : caretCount located.span (String.ofList row) = carets) :
    rows .plain linesOf located.toDiagnostic =
      excerpt located.toDiagnostic located.span row carets := by
  have label : labelRows .plain linesOf located.finding.severity
      { span := located.span, message := "", style := .primary } =
        ["  --> " ++ located.span.label,
          "     |",
          "  " ++ String.ofList (numbered located.span.start.line) ++ " | " ++ String.ofList row,
          "     | " ++ String.ofList (List.replicate (located.span.start.col - 1).toNat ' ' ++
            List.replicate carets '^')] := by
    rw [labelRows, shown, Option.elim_some, excerptRows_plain, width, Int.toNat_natCast]
    simp [bar, Palette.plain]
  have note : ∀ text,
      "  " ++ Palette.plain.blue ++ "=" ++ Palette.plain.reset ++ " note: " ++ text =
        "  = note: " ++ text := by
    intro text
    simp [Palette.plain]
  rw [rows, headerRow_plain, excerpt, Located.toDiagnostic, Finding.toDiagnostic, ← Span.label]
  simp only [List.flatMap_cons, List.flatMap_nil, label, note, List.map_nil, List.append_nil,
    List.cons_append, List.nil_append]

/-- What is written of a diagnostic about a span: the row around the start of the span, and
carets under the characters of the span in this row, at least one. -/
structure Underlined (text : SourceText) (diagnostic : Diagnostic) (written : String) (span : Span)
    (start carets : Nat) : Prop where
  labelled : diagnostic.labels.map Label.span = [span]
  starts : span.start.offset = start
  column : 1 ≤ span.start.col
  positive : 1 ≤ carets
  width : (carets : Int) = min span.stop.offset (text.rowEnd start) - start
  /-- The carets stand below the first characters of the span. -/
  below : ((text.rowAt start).drop (span.start.col - 1).toNat).take carets =
    (text.content.toList.drop start).take carets
  written : written =
    String.intercalate "\n" (diagnostic.excerpt span (text.rowAt start) carets)

/-- Without colour every diagnostic of a checked source is underlined, provided that newlines
are its only line breaks. -/
theorem render_underlines {options : CheckOptions} {source file : String}
    {linesOf : String → List String} {diagnostic : Diagnostic}
    (broken : Text.BrokenByNewlines source) (added : linesOf file = Text.lines source)
    (listed : diagnostic ∈ (CheckResult.ofSource options source file).diagnostics) :
    ∃ span start carets,
      Underlined ⟨file, source⟩ diagnostic (diagnostic.render false linesOf) span start carets := by
  obtain ⟨located, rfl, stamped⟩ := CheckResult.exists_stamped_of_listed listed
  let text : SourceText := ⟨file, source⟩
  obtain ⟨cursor, between, inside, ahead, start, stop, covered, nonempty⟩ :=
    SourceText.Cursor.exists_of_stamped text stamped
  have counted := SourceText.Cursor.after_before inside
  have row : text.rowAt cursor.before.length = cursor.row := SourceText.rowAt_cursor inside
  have ends := SourceText.Cursor.rowEnd_eq inside
  have room := List.length_pos_iff.mpr ahead
  have some := List.length_pos_iff.mpr nonempty
  have offset : located.span.start.offset = cursor.before.length := by rw [start, counted]
  have reached : located.span.stop.offset = cursor.before.length + between.length := by
    rw [stop, Position.offset_after, offset]
  have column : located.span.start.col = cursor.left.length + 1 := by
    rw [start, counted]
  have left : (located.span.start.col - 1).toNat = cursor.left.length := by omega
  refine ⟨located.span, cursor.before.length, min between.length cursor.right.length, ?_⟩
  refine
    { labelled := rfl
      starts := offset
      column := ?_
      positive := ?_
      width := ?_
      below := ?_
      written := ?_ }
  · omega
  · omega
  · rw [reached, ends]
    omega
  · rw [row, left, SourceText.Cursor.text_eq inside, List.drop_left, SourceText.Cursor.row,
      List.drop_left, SourceText.Cursor.behind,
      List.take_append_of_le_length (Nat.min_le_right _ _)]
  · have line : linesOf located.span.file = Text.lines text.content := by
      rw [stamped.named]
      exact added
    have shown := SourceText.Cursor.sourceLine?_eq inside ahead broken line start
    have width := SourceText.Cursor.caretCount_eq inside ahead start stop covered nonempty
    rw [← row] at shown width
    exact congrArg (String.intercalate "\n") (rows_located shown (by exact_mod_cast width))

def secondType : String := "@type A = \x7b x: Int \x7d\n  @type A = \x7b\n  y: Int\n\x7d\n"

theorem render_underlines_secondType :
    Text.BrokenByNewlines secondType ∧
      ∃ diagnostic ∈ (CheckResult.ofSource ⟨false, true⟩ secondType "a.sage").diagnostics,
        ∃ span start carets, Underlined ⟨"a.sage", secondType⟩ diagnostic
          (diagnostic.render false fun _ => Text.lines secondType) span start carets := by
  have broken : Text.BrokenByNewlines secondType := by decide +kernel
  have found : (CheckResult.ofSource ⟨false, true⟩ secondType "a.sage").diagnostics ≠ [] := by
    decide +kernel
  obtain ⟨diagnostic, listed⟩ := List.exists_mem_of_ne_nil _ found
  exact ⟨broken, diagnostic, listed, render_underlines broken rfl listed⟩

end Diagnostic

end SageNotation
