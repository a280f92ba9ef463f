import SageNotation.Proofs.Grammar.Marks

/-!
Reading up to a border.

A border is a token that ends every body: an end mark, or a cut, which is an
at-keyword of the document or a separator.  In front of an end mark the routines
read the same as they do before the end of the list, and so they do in front of a
cut at the start of a line.  `Reading.Extends` compares the two readings: the
values agree, and what is left differs by the tokens from the border on.
-/

namespace SageNotation

namespace Token

/-! ### Whole lines before a cut -/

def EndsLine (run : List Token) : Prop :=
  ∃ last, run.getLast? = some last ∧ last.kind = .newline

/-- A run that is empty or ends with a newline. -/
def WholeLines (run : List Token) : Prop :=
  run = [] ∨ EndsLine run

/-- The tokens start with one that opens a construct of the document. -/
def StartsCut (tokens : List Token) : Prop :=
  ∃ cut later, tokens = cut :: later ∧ (cut.kind.isTopLevel || cut.kind == .dash3) = true

theorem EndsLine.of_suffix {run rest : List Token} (ends : EndsLine run) (ahead : rest <:+ run)
    (nonempty : rest ≠ []) : EndsLine rest := by
  obtain ⟨last, lastOf, newline⟩ := ends
  obtain ⟨before, split⟩ := ahead
  rw [← split, List.getLast?_append, List.getLast?_eq_some_getLast nonempty,
    Option.some_or] at lastOf
  exact ⟨last, (List.getLast?_eq_some_getLast nonempty).trans lastOf, newline⟩

namespace WholeLines

variable {run rest : List Token} {first : Token}

theorem endsLine (whole : WholeLines run) (nonempty : run ≠ []) : EndsLine run := by
  rcases whole with empty | ends
  · exact False.elim (nonempty empty)
  · exact ends

theorem of_suffix (whole : WholeLines run) (ahead : rest <:+ run) : WholeLines rest := by
  by_cases empty : rest = []
  · exact Or.inl empty
  · right
    refine (whole.endsLine ?_).of_suffix ahead empty
    rintro rfl
    exact empty (List.suffix_nil.mp ahead)

theorem endsLine_tail (whole : WholeLines (first :: rest)) (other : first.kind ≠ .newline) :
    EndsLine rest := by
  have ends := whole.endsLine (List.cons_ne_nil first rest)
  refine ends.of_suffix (List.suffix_cons first rest) ?_
  rintro rfl
  obtain ⟨last, lastOf, newline⟩ := ends
  rw [List.getLast?_singleton] at lastOf
  rw [Option.some.inj lastOf] at other
  exact other newline

theorem endsLine_of_kind {kind : Kind} (whole : WholeLines (first :: rest))
    (same : first.kind = kind) (other : kind ≠ .newline) : EndsLine rest := by
  apply whole.endsLine_tail
  rw [same]
  exact other

theorem endsLine_of_plain (whole : WholeLines (first :: rest)) (plain : ¬ first.isTrivia = true) :
    EndsLine rest := by
  apply whole.endsLine_tail
  intro newline
  apply plain
  rw [isTrivia, newline]
  rfl

end WholeLines

theorem EndsLine.wholeLines {run : List Token} (ends : EndsLine run) : WholeLines run :=
  Or.inr ends

theorem EndsLine.exists_newline {run : List Token} (ends : EndsLine run) :
    ∃ token ∈ run, token.kind = .newline := by
  obtain ⟨last, lastOf, newline⟩ := ends
  exact ⟨last, List.mem_of_getLast? lastOf, newline⟩

theorem EndsLine.dropOne {run : List Token} (ends : EndsLine run) (kind : Kind)
    (other : kind ≠ .newline) : EndsLine (dropOne kind run) := by
  cases run with
  | nil => exact ends
  | cons first rest =>
      by_cases wanted : first.kind = kind
      · rw [Token.dropOne, if_pos wanted]
        exact ends.wholeLines.endsLine_of_kind wanted other
      · rw [Token.dropOne, if_neg wanted]
        exact ends

/-! ### Borders -/

/-- The tokens start with one that ends every body. -/
def StartsBorder (tokens : List Token) : Prop :=
  ∃ first later, tokens = first :: later ∧ Grammar.endsBody first.kind = true

theorem endsBody_cases {kind : Kind} (ends : Grammar.endsBody kind = true) :
    (∃ word, kind = .declare word) ∨ (∃ inference, kind = .inferred inference) ∨
      kind = .dash3 ∨ kind = .eof := by
  cases kind with
  | declare word => exact Or.inl ⟨word, rfl⟩
  | inferred inference => exact Or.inr (Or.inl ⟨inference, rfl⟩)
  | dash3 => exact Or.inr (Or.inr (Or.inl rfl))
  | eof => exact Or.inr (Or.inr (Or.inr rfl))
  | _ => cases ends

theorem isTrivia_of_endsBody {kind : Kind} (ends : Grammar.endsBody kind = true) :
    kind.isTrivia = false := by
  rcases endsBody_cases ends with ⟨word, rfl⟩ | ⟨inference, rfl⟩ | rfl | rfl <;> rfl

theorem ne_of_endsBody {kind other : Kind} (ends : Grammar.endsBody kind = true)
    (going : Grammar.endsBody other = false) : kind ≠ other := by
  rintro rfl
  rw [ends] at going
  cases going

theorem StartsMark.border {tokens : List Token} (marked : StartsMark tokens) :
    StartsBorder tokens := by
  obtain ⟨mark, later, same, ends⟩ := marked
  exact ⟨mark, later, same, by rw [ends]; rfl⟩

theorem StartsMark.not_cut {tokens : List Token} (marked : StartsMark tokens) :
    ¬ StartsCut tokens := by
  rintro ⟨next, later, same, ends⟩
  obtain ⟨mark, _, rfl, ending⟩ := marked
  rw [← (List.cons.inj same).1, ending] at ends
  cases ends

theorem StartsCut.border {tokens : List Token} (cuts : StartsCut tokens) : StartsBorder tokens := by
  obtain ⟨next, later, same, ends⟩ := cuts
  exact ⟨next, later, same, by rw [Grammar.endsBody, ends, Bool.true_or]⟩

/-- A border is no newline and no comment, so that the loops over lines look at it. -/
theorem StartsBorder.split {tokens : List Token} (border : StartsBorder tokens) :
    ∃ first later, tokens = first :: later ∧ Grammar.endsBody first.kind = true ∧
      ¬ first.isTrivia = true := by
  obtain ⟨first, later, same, ends⟩ := border
  exact ⟨first, later, same, ends, ne_true_of_eq_false (isTrivia_of_endsBody ends)⟩

theorem StartsBorder.mark_or_cut {tokens : List Token} (border : StartsBorder tokens) :
    StartsMark tokens ∨ StartsCut tokens := by
  obtain ⟨first, later, same, ends⟩ := border
  rw [Grammar.endsBody, Bool.or_eq_true, beq_iff_eq] at ends
  rcases ends with opens | mark
  · exact Or.inr ⟨first, later, same, opens⟩
  · exact Or.inl ⟨first, later, same, mark⟩

/-! ### Runs before a border -/

/-- The run may stand before the border: before a cut it is made of whole lines. -/
def LinesBefore (back run : List Token) : Prop :=
  StartsCut back → WholeLines run

def RowBefore (back run : List Token) : Prop :=
  StartsCut back → EndsLine run

namespace LinesBefore

variable {back run rest : List Token} {first : Token}

theorem row (lines : LinesBefore back run) (nonempty : run ≠ []) : RowBefore back run :=
  fun cuts => (lines cuts).endsLine nonempty

theorem of_suffix (lines : LinesBefore back run) (ahead : rest <:+ run) : LinesBefore back rest :=
  fun cuts => (lines cuts).of_suffix ahead

theorem row_of_kind {kind : Kind} (lines : LinesBefore back (first :: rest))
    (same : first.kind = kind) (other : kind ≠ .newline) : RowBefore back rest :=
  fun cuts => (lines cuts).endsLine_of_kind same other

theorem row_of_plain (lines : LinesBefore back (first :: rest)) (plain : ¬ first.isTrivia = true) :
    RowBefore back rest :=
  fun cuts => (lines cuts).endsLine_of_plain plain

end LinesBefore

theorem RowBefore.lines {back run : List Token} (ended : RowBefore back run) :
    LinesBefore back run :=
  fun cuts => (ended cuts).wholeLines

theorem RowBefore.dropOne {back run : List Token} (ended : RowBefore back run) (kind : Kind)
    (other : kind ≠ .newline) : RowBefore back (dropOne kind run) :=
  fun cuts => (ended cuts).dropOne kind other

theorem StartsMark.lines {back : List Token} (marked : StartsMark back) (run : List Token) :
    LinesBefore back run :=
  fun cuts => False.elim (marked.not_cut cuts)

theorem StartsMark.row {back : List Token} (marked : StartsMark back) (run : List Token) :
    RowBefore back run :=
  fun cuts => False.elim (marked.not_cut cuts)

/-! ### Primitive routines -/

section Primitive

variable {front back : List Token}

/-- A loop over tokens stops at the same place with and without more tokens after
it, if it stops inside the run or at once after it. -/
theorem whileAppend {keep : Token → Bool} (stops : (∃ token ∈ front, keep token = false) ∨
      ∃ next later, back = next :: later ∧ keep next = false) :
    (front ++ back).takeWhile keep = front.takeWhile keep ∧
      (front ++ back).dropWhile keep = front.dropWhile keep ++ back := by
  induction front with
  | nil =>
      rcases stops with ⟨token, member, _⟩ | ⟨next, later, same, stop⟩
      · cases member
      · simp [same, stop]
  | cons first rest ih =>
      by_cases going : keep first = true
      -- The loop goes on, so that the place where it stops is further on.
      · have further : (∃ token ∈ rest, keep token = false) ∨
            ∃ next later, back = next :: later ∧ keep next = false := by
          rcases stops with ⟨token, member, stop⟩ | atCut
          · rcases List.mem_cons.mp member with same | later
            · rw [← same, stop] at going
              cases going
            · exact Or.inl ⟨token, later, stop⟩
          · exact Or.inr atCut
        obtain ⟨taken, left⟩ := ih further
        simp [going, taken, left]
      · simp [going]

theorem whileAppend_border (border : StartsBorder back) (keep : Token → Bool)
    (stops : ∀ token, Grammar.endsBody token.kind = true → keep token = false)
    (front : List Token) :
    (front ++ back).takeWhile keep = front.takeWhile keep ∧
      (front ++ back).dropWhile keep = front.dropWhile keep ++ back := by
  obtain ⟨next, later, same, ends⟩ := border
  exact whileAppend (Or.inr ⟨next, later, same, stops next ends⟩)

theorem skipBlank_append (border : StartsBorder back) (front : List Token) :
    skipBlank (front ++ back) = skipBlank front ++ back :=
  (whileAppend_border border isTrivia (fun _ ends => isTrivia_of_endsBody ends) front).2

theorem whileAppend_row {keep : Token → Bool}
    (stops : ∀ token : Token, token.endsLine = true → keep token = false)
    (border : StartsBorder back) (ended : RowBefore back front) :
    (front ++ back).takeWhile keep = front.takeWhile keep ∧
      (front ++ back).dropWhile keep = front.dropWhile keep ++ back := by
  apply whileAppend
  rcases border.mark_or_cut with ⟨mark, later, same, ends⟩ | cuts
  · exact Or.inr ⟨mark, later, same, stops mark (by simp [endsLine, ends])⟩
  · obtain ⟨token, member, newline⟩ := (ended cuts).exists_newline
    exact Or.inl ⟨token, member, stops token (by simp [endsLine, isTrivia, newline, Kind.isTrivia])⟩

theorem line_append (border : StartsBorder back) (ended : RowBefore back front) :
    line (front ++ back) = line front ∧ afterLine (front ++ back) = afterLine front ++ back :=
  whileAppend_row (fun token ends => by rw [ends]; rfl) border ended

theorem expect_cases (border : StartsBorder back) (kind : Kind) (going : Grammar.endsBody kind = false)
    (front : List Token) :
    (expect kind (front ++ back) = none ∧ expect kind front = none) ∨
      ∃ token rest, front = token :: rest ∧ token.kind = kind := by
  cases front with
  | nil =>
      obtain ⟨next, later, same, ends⟩ := border
      left
      refine ⟨?_, rfl⟩
      rw [same]
      exact if_neg (ne_of_endsBody ends going)
  | cons token rest =>
      by_cases wanted : token.kind = kind
      · exact Or.inr ⟨token, rest, rfl, wanted⟩
      · left
        constructor
        · rw [List.cons_append, expect, if_neg wanted]
        · rw [expect, if_neg wanted]

theorem dropOne_append (border : StartsBorder back) (kind : Kind)
    (going : Grammar.endsBody kind = false) (front : List Token) :
    dropOne kind (front ++ back) = dropOne kind front ++ back := by
  cases front with
  | nil =>
      obtain ⟨next, later, same, ends⟩ := border
      rw [same]
      exact if_neg (ne_of_endsBody ends going)
  | cons token rest =>
      by_cases wanted : token.kind = kind
      · rw [List.cons_append, dropOne, if_pos wanted, dropOne, if_pos wanted]
      · rw [List.cons_append, dropOne, if_neg wanted, dropOne, if_neg wanted]
        rfl

theorem isNext_append (border : StartsBorder back) (kind : Kind)
    (going : Grammar.endsBody kind = false) (front : List Token) :
    isNext kind (front ++ back) = isNext kind front := by
  cases front with
  | nil =>
      obtain ⟨next, later, same, ends⟩ := border
      rw [same]
      exact beq_eq_false_iff_ne.mpr (ne_of_endsBody ends going)
  | cons token rest => rfl

theorem through_append (first : Token) (tokens rest back : List Token) :
    first.through (tokens ++ back) (rest ++ back) = first.through tokens rest := by
  have same : between (tokens ++ back) (rest ++ back) = between tokens rest := by
    unfold between
    rw [List.length_append, List.length_append, Nat.add_sub_add_right,
      List.take_append_of_le_length (Nat.sub_le _ _)]
  rw [through, through, same]

end Primitive

end Token

/-! ### Readings before a border -/

namespace Reading

open Token

/-- The same reading in front of more tokens. -/
structure Extends (back : List Token) {α : Type} {long short : List Token}
    (wide : Reading α long) (narrow : Reading α short) : Prop where
  value : wide.value = narrow.value
  rest : wide.rest = narrow.rest ++ back

variable {α β : Type} {front back long short : List Token}

theorem extends_nothing (value : α) :
    Extends back (nothing value : Reading α (front ++ back)) (nothing value : Reading α front) :=
  ⟨rfl, rfl⟩

theorem Extends.map {wide : Reading α long} {narrow : Reading α short}
    (same : Extends back wide narrow) (change : α → β) :
    Extends back (wide.map change) (narrow.map change) :=
  ⟨congrArg change same.value, same.rest⟩

theorem Extends.widen {longer larger : List Token} {wide : Reading α long}
    {narrow : Reading α short} (same : Extends back wide narrow) (earlier : long <:+ longer)
    (before : short <:+ larger) : Extends back (wide.widen earlier) (narrow.widen before) :=
  ⟨same.value, same.rest⟩

theorem Extends.stamp {wide : Reading (Span → α) (front ++ back)} {narrow : Reading (Span → α) front}
    (same : Extends back wide narrow) (first : Token) :
    Extends back (wide.stamp first) (narrow.stamp first) := by
  refine ⟨?_, same.rest⟩
  change wide.value (first.through (front ++ back) wide.rest) =
    narrow.value (first.through front narrow.rest)
  rw [same.value, same.rest, through_append]

theorem extends_option_map {wide : Option (Reading α long)} {narrow : Option (Reading α short)}
    {long' short' : List Token} {widen : Reading α long → Reading β long'}
    {change : Reading α short → Reading β short'} (same : Option.Rel (Extends back) wide narrow)
    (each : ∀ {wide narrow}, Extends back wide narrow → Extends back (widen wide) (change narrow)) :
    Option.Rel (Extends back) (wide.map widen) (narrow.map change) := by
  cases same with
  | none => exact .none
  | some further => exact .some (each further)

/-- A reading that may fail before a border.  Apart from the failures for the stated
cause, it succeeds when the reading without more tokens does. -/
inductive Resumes {α : Type} {long short : List Token}
    (related : Reading α long → Reading α short → Prop) (lost : Prop) :
    Option (Reading α long) → Option (Reading α short) → Prop where
  | neither : Resumes related lost none none
  | both {wide : Reading α long} {narrow : Reading α short} (same : related wide narrow) :
      Resumes related lost (some wide) (some narrow)
  | fails (cause : lost) (narrow : Option (Reading α short)) : Resumes related lost none narrow

section Resumes

variable {lost cause : Prop} {wide : Option (Reading α long)} {narrow : Option (Reading α short)}
  {related weaker : Reading α long → Reading α short → Prop}

theorem resumes_of_rel (same : Option.Rel related wide narrow) :
    Resumes related lost wide narrow := by
  cases same with
  | none => exact .neither
  | some further => exact .both further

theorem Resumes.imp (same : Resumes related lost wide narrow) (because : lost → cause) :
    Resumes related cause wide narrow := by
  cases same with
  | neither => exact .neither
  | both further => exact .both further
  | fails lost => exact .fails (because lost) narrow

theorem Resumes.map {long' short' : List Token} {widen : Reading α long → Reading β long'}
    {change : Reading α short → Reading β short'}
    {other : Reading β long' → Reading β short' → Prop} (same : Resumes related lost wide narrow)
    (each : ∀ {wide narrow}, related wide narrow → other (widen wide) (change narrow)) :
    Resumes other lost (wide.map widen) (narrow.map change) := by
  cases same with
  | neither => exact .neither
  | both further => exact .both (each further)
  | fails lost => exact .fails lost _

end Resumes

theorem lineText_append (border : StartsBorder back) (ended : RowBefore back front) :
    Extends back (lineText (front ++ back)) (lineText front) := by
  obtain ⟨row, left⟩ := line_append border ended
  exact ⟨congrArg render row, left⟩

theorem stringOrLine_append (border : StartsBorder back) (ended : RowBefore back front) :
    Extends back (stringOrLine (front ++ back)) (stringOrLine front) := by
  cases front with
  | nil =>
      obtain ⟨first, later, same, ends⟩ := id border
      have other : ¬ first.kind = .string := ne_of_endsBody ends rfl
      have text := lineText_append border ended
      rw [same, List.nil_append] at text ⊢
      rw [stringOrLine, stringOrLine, if_neg other]
      exact text
  | cons token rest =>
      rw [List.cons_append, stringOrLine, stringOrLine]
      by_cases string : token.kind = .string
      · rw [if_pos string, if_pos string]
        exact ⟨rfl, rfl⟩
      · rw [if_neg string, if_neg string]
        exact lineText_append border ended

theorem string?_append (border : StartsBorder back) (front : List Token) :
    Option.Rel (Extends back) (string? (front ++ back)) (string? front) := by
  induction front with
  | nil =>
      obtain ⟨next, later, same, ends, plain⟩ := border.split
      have other : ¬ (next.kind = .string ∧ isNext .bang2 later = false) :=
        fun both => ne_of_endsBody ends rfl both.1
      rw [same, List.nil_append, string?, string?, if_neg plain, if_neg other]
      exact .none
  | cons token rest ih =>
      rw [List.cons_append, string?, string?, isNext_append border .bang2 rfl]
      by_cases trivia : token.isTrivia = true
      · rw [if_pos trivia, if_pos trivia]
        exact extends_option_map ih fun further => further.widen _ _
      · rw [if_neg trivia, if_neg trivia]
        by_cases found : token.kind = .string ∧ isNext .bang2 rest = false
        · rw [if_pos found, if_pos found]
          exact .some ⟨rfl, rfl⟩
        · rw [if_neg found, if_neg found]
          exact .none

theorem description_append (border : StartsBorder back) (front : List Token) :
    Extends back (description (front ++ back)) (description front) := by
  unfold description
  have text := string?_append border front
  generalize string? (front ++ back) = wide at text ⊢
  generalize string? front = narrow at text ⊢
  cases text with
  | none => exact extends_nothing none
  | some further => exact further.map some

end Reading

namespace Attempt

inductive Resumes {α : Type} {long short : List Token}
    (related : Reading α long → Reading α short → Prop) (lost : Prop) :
    Attempt α long → Attempt α short → Prop where
  | unknown : Resumes related lost unknown unknown
  | refused : Resumes related lost refused refused
  | read {wide : Reading α long} {narrow : Reading α short} (same : related wide narrow) :
      Resumes related lost (read wide) (read narrow)
  | fails (cause : lost) (narrow : Attempt α short) : Resumes related lost refused narrow

variable {α β : Type} {long short : List Token} {lost : Prop}
  {related : Reading α long → Reading α short → Prop}

theorem resumes_ofOption {wide : Option (Reading α long)} {narrow : Option (Reading α short)}
    (same : Reading.Resumes related lost wide narrow) :
    Resumes related lost (ofOption wide) (ofOption narrow) := by
  cases same with
  | neither => exact .refused
  | both further => exact .read further
  | fails cause => exact .fails cause _

theorem Resumes.map {wide : Attempt α long} {narrow : Attempt α short}
    {other : Reading β long → Reading β short → Prop} {change : α → β}
    (same : Resumes related lost wide narrow)
    (each : ∀ {wide narrow}, related wide narrow → other (wide.map change) (narrow.map change)) :
    Resumes other lost (wide.map change) (narrow.map change) := by
  cases same with
  | unknown => exact .unknown
  | refused => exact .refused
  | read further => exact .read (each further)
  | fails cause => exact .fails cause _

end Attempt

end SageNotation
