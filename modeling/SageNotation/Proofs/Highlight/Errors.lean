import SageNotation.Proofs.Highlight.Pieces

/-!
What highlighting keeps and where it fails.

`Mode` says, character by character, what a text is read as: plain text, a comment, a
string or an escaped character of one.  It knows nothing of rules or pieces.  A backslash
dangles where it is read in a string with no character on its line to escape
(`DanglesAt`).  The pieces of a source are never empty, they make up the source, and
those that are errors start exactly at the dangling backslashes (`pieces_lossless`).
-/

namespace SageNotation.Highlight

open Token (Ordinary isOrdinary_iff ordinary_takeWhile take_length_takeWhile drop_length_takeWhile)

/-- What the next character of a text is read as. -/
inductive Mode where
  | plain | comment | string | escaped
  deriving DecidableEq

namespace Mode

/-- The mode behind a character: a comment ends with its line, a string with a quote, and
a backslash in a string takes the next character with it. -/
def next : Mode → Char → Mode
  | plain, '"' => string
  | plain, '#' => comment
  | plain, _ => plain
  | comment, '\n' => plain
  | comment, _ => comment
  | string, '"' => plain
  | string, '\\' => escaped
  | string, _ => string
  | escaped, _ => string

def after (mode : Mode) (text : List Char) : Mode :=
  text.foldl next mode

def ofScan (inString : Bool) : Mode :=
  if inString then string else plain

@[simp] theorem after_nil (mode : Mode) : mode.after [] = mode := rfl

theorem after_cons (mode : Mode) (character : Char) (rest : List Char) :
    mode.after (character :: rest) = (mode.next character).after rest := rfl

theorem after_append (mode : Mode) (front back : List Char) :
    mode.after (front ++ back) = (mode.after front).after back :=
  List.foldl_append

theorem after_of_kept {mode : Mode} {text : List Char}
    (kept : ∀ character ∈ text, mode.next character = mode) : mode.after text = mode := by
  induction text with
  | nil => rfl
  | cons character rest ih =>
      obtain ⟨here, later⟩ := List.forall_mem_cons.mp kept
      rw [after_cons, here, ih later]

theorem next_plain {character : Char} (quote : character ≠ '"') (hash : character ≠ '#') :
    plain.next character = plain := next.eq_3 character quote hash

theorem next_comment {character : Char} (newline : character ≠ '\n') :
    comment.next character = comment := next.eq_5 character newline

theorem next_string {character : Char} (quote : character ≠ '"')
    (backslash : character ≠ '\\') : string.next character = string :=
  next.eq_8 character quote backslash

end Mode

/-- A backslash in a string that is not escaped itself and has nothing on its line to
escape, in a text that starts in some mode. -/
def DanglesAt (mode : Mode) (text : List Char) (offset : Nat) : Prop :=
  text[offset]? = some '\\' ∧ mode.after (text.take offset) = .string ∧
    ∀ following ∈ text[offset + 1]?, following = '\n'

/-- One of the pieces is an error, and starts at an offset. -/
def FailsAt (pieces : List Piece) (offset : Nat) : Prop :=
  ∃ front piece back, pieces = front ++ piece :: back ∧ piece.category = .error ∧
    (front.flatMap Piece.text).length = offset

/-! ### Piece by piece -/

theorem not_failsAt_nil (offset : Nat) : ¬FailsAt [] offset := by
  rintro ⟨front, piece, back, none, _⟩
  exact List.append_ne_nil_of_right_ne_nil front (List.cons_ne_nil piece back) none.symm

theorem failsAt_cons {piece : Piece} {others : List Piece} {offset : Nat} :
    FailsAt (piece :: others) offset ↔
      (piece.category = .error ∧ offset = 0) ∨
        ∃ later, FailsAt others later ∧ offset = piece.text.length + later := by
  constructor
  · rintro ⟨front, failed, back, split, error, length⟩
    cases front with
    | nil =>
        obtain ⟨rfl, _⟩ := List.cons.inj split
        exact Or.inl ⟨error, length.symm⟩
    | cons first front =>
        obtain ⟨rfl, rest⟩ := List.cons.inj split
        refine Or.inr ⟨_, ⟨front, failed, back, rest, error, rfl⟩, ?_⟩
        rw [← length, List.flatMap_cons, List.length_append]
  · rintro (⟨error, rfl⟩ | ⟨later, ⟨front, failed, back, rfl, error, rfl⟩, rfl⟩)
    · exact ⟨[], piece, others, rfl, error, rfl⟩
    · refine ⟨piece :: front, failed, back, rfl, error, ?_⟩
      rw [List.flatMap_cons, List.length_append]

section Dangling

variable {mode : Mode} {front back : List Char} {offset : Nat}

theorem not_danglesAt_nil (mode : Mode) (offset : Nat) : ¬DanglesAt mode [] offset :=
  fun dangles => by cases dangles.1

theorem danglesAt_behind (mode : Mode) (front back : List Char) (later : Nat) :
    DanglesAt mode (front ++ back) (front.length + later) ↔
      DanglesAt (mode.after front) back later := by
  have before : (front ++ back).take (front.length + later) = front ++ back.take later :=
    List.take_length_add_append later
  rw [DanglesAt, DanglesAt, before, Mode.after_append, Nat.add_assoc,
    List.getElem?_append_right (Nat.le_add_right _ _),
    List.getElem?_append_right (Nat.le_add_right _ _), Nat.add_sub_cancel_left,
    Nat.add_sub_cancel_left]

/-- No backslash dangles in the front of a text. -/
def Firm (mode : Mode) (front back : List Char) : Prop :=
  ∀ offset < front.length, ¬DanglesAt mode (front ++ back) offset

theorem Firm.danglesAt_iff (firm : Firm mode front back) :
    DanglesAt mode (front ++ back) offset ↔
      ∃ later, DanglesAt (mode.after front) back later ∧ offset = front.length + later := by
  constructor
  · intro dangles
    have beyond : front.length ≤ offset :=
      Nat.le_of_not_lt fun inside => firm offset inside dangles
    obtain ⟨later, rfl⟩ := Nat.exists_eq_add_of_le beyond
    exact ⟨later, (danglesAt_behind mode front back later).mp dangles, rfl⟩
  · rintro ⟨later, dangles, rfl⟩
    exact (danglesAt_behind mode front back later).mpr dangles

theorem firm_of_unread
    (unread : ∀ offset < front.length, mode.after (front.take offset) ≠ .string) :
    Firm mode front back := by
  intro offset inside dangles
  have before : (front ++ back).take offset = front.take offset :=
    List.take_append_of_le_length (Nat.le_of_lt inside)
  exact unread offset inside (before ▸ dangles.2.1)

theorem firm_of_kept (kept : ∀ character ∈ front, mode.next character = mode)
    (outside : mode ≠ .string) : Firm mode front back :=
  firm_of_unread fun offset _ => by
    rw [Mode.after_of_kept fun character member => kept character (List.mem_of_mem_take member)]
    exact outside

theorem firm_of_not_mem (free : '\\' ∉ front) : Firm mode front back := by
  intro offset inside dangles
  have here := dangles.1
  rw [List.getElem?_append_left inside] at here
  exact free (List.mem_of_getElem? here)

/-- At the end of a line two modes that a newline makes the same are not told apart. -/
theorem danglesAt_lineEnd {other : Mode} {text : List Char}
    (ends : ∀ first ∈ text.head?, first = '\n') (same : mode.next '\n' = other.next '\n') :
    DanglesAt mode text offset ↔ DanglesAt other text offset := by
  cases text with
  | nil => exact iff_of_false (not_danglesAt_nil _ _) (not_danglesAt_nil _ _)
  | cons first rest =>
      obtain rfl : first = '\n' := ends first rfl
      cases offset with
      | zero =>
          have none : ∀ mode, ¬DanglesAt mode ('\n' :: rest) 0 :=
            fun _ dangles => by cases dangles.1
          exact iff_of_false (none mode) (none other)
      | succ offset =>
          rw [DanglesAt, DanglesAt, List.take_succ_cons, Mode.after_cons, Mode.after_cons, same]

end Dangling

/-! ### The whole source -/

theorem next_of_ordinary {text : List Char} (ordinary : Ordinary text) :
    ∀ character ∈ text, Mode.plain.next character = .plain := by
  intro character member
  obtain ⟨hash, quote, _⟩ := isOrdinary_iff.mp (ordinary character member)
  exact Mode.next_plain quote hash

/-- Outside strings only a quote and a hash sign lead out of plain text. -/
theorem outside_plain (previous : Option Char) {first : Char} (rest : List Char)
    (quote : first ≠ '"') (hash : first ≠ '#') :
    (outside previous first rest).category ≠ .error ∧
      ∀ character ∈ first :: rest.take (outside previous first rest).extra,
        Mode.plain.next character = .plain := by
  by_cases atSign : first = '@'
  · subst atSign
    have letters : ∀ run : Char → Bool, run '#' = false → run '"' = false → run '@' = false →
        ∀ character ∈ '@' :: rest.takeWhile run, Mode.plain.next character = .plain :=
      fun run hash quote atSign => List.forall_mem_cons.mpr
        ⟨rfl, next_of_ordinary (ordinary_takeWhile hash quote atSign rest)⟩
    rcases outside_atSign previous rest with ⟨category, known, _, here⟩ | ⟨here, _⟩
    · rw [here, take_length_takeWhile]
      constructor
      · rintro rfl
        cases known
      · exact letters _ rfl rfl rfl
    · rw [here, take_length_takeWhile]
      exact ⟨Category.noConfusion, letters _ rfl rfl rfl⟩
  · have ordinary := isOrdinary_iff.mpr ⟨hash, quote, atSign⟩
    obtain ⟨category, taken⟩ := outside_ordinary previous rest ordinary
    constructor
    · intro error
      rw [error] at category
      cases category
    · exact List.forall_mem_cons.mpr ⟨Mode.next_plain quote hash, next_of_ordinary taken⟩

theorem head?_dropWhile_newline (text : List Char) :
    ∀ first ∈ (text.dropWhile (· != '\n')).head?, first = '\n' := by
  intro first here
  have stops := List.head?_dropWhile_not (· != '\n') text
  rw [Option.mem_def.mp here] at stops
  simpa using stops

def Tracks (text : List Char) : Prop :=
  ∀ inString previous offset,
    FailsAt (scan inString previous text) offset ↔ DanglesAt (.ofScan inString) text offset

section Tracks

variable {mode : Mode} {category : Category} {front back rest : List Char} {offset : Nat}

theorem failsAt_of_firm (sound : category ≠ .error) (firm : Firm mode front back)
    {inString : Bool} (state : ∀ later, DanglesAt (mode.after front) back later ↔
      DanglesAt (.ofScan inString) back later) (behind : Tracks back) (previous : Option Char) :
    FailsAt (⟨category, front⟩ :: scan inString previous back) offset ↔
      DanglesAt mode (front ++ back) offset := by
  rw [failsAt_cons, firm.danglesAt_iff]
  simp only [sound, false_and, false_or, state, behind inString previous _]

theorem split_piece (first : Char) (rest : List Char) (taken : Nat) :
    (first :: rest.take taken) ++ rest.drop taken = first :: rest := by
  rw [List.cons_append, List.take_append_drop]

/-- A comment goes on to the end of its line, where it is as good as plain text. -/
theorem failsAt_comment (behind : Tracks (rest.dropWhile (· != '\n'))) (previous : Option Char) :
    FailsAt (⟨.comment, '#' :: rest.takeWhile (· != '\n')⟩ ::
        scan false previous (rest.dropWhile (· != '\n'))) offset ↔
      DanglesAt .plain
        (('#' :: rest.takeWhile (· != '\n')) ++ rest.dropWhile (· != '\n')) offset := by
  have kept : ∀ character ∈ rest.takeWhile (· != '\n'),
      Mode.comment.next character = .comment := by
    intro character member
    have within := List.all_eq_true.mp List.all_takeWhile character member
    exact Mode.next_comment (bne_iff_ne.mp within)
  have firm : Firm .plain ('#' :: rest.takeWhile (· != '\n')) (rest.dropWhile (· != '\n')) := by
    apply firm_of_unread
    intro offset _
    cases offset with
    | zero => exact Mode.noConfusion
    | succ offset =>
        have still : Mode.comment.after ((rest.takeWhile (· != '\n')).take offset) = .comment :=
          Mode.after_of_kept fun character member => kept character (List.mem_of_mem_take member)
        change Mode.comment.after ((rest.takeWhile (· != '\n')).take offset) ≠ .string
        rw [still]
        exact Mode.noConfusion
  refine failsAt_of_firm Category.noConfusion firm (fun later => ?_) behind previous
  change DanglesAt (Mode.comment.after (rest.takeWhile (· != '\n'))) _ _ ↔ _
  rw [Mode.after_of_kept kept]
  exact danglesAt_lineEnd (head?_dropWhile_newline rest) rfl

theorem tracks_outside (first : Char) (behind : ∀ taken, Tracks (rest.drop taken))
    (previous : Option Char) :
    FailsAt (scan false previous (first :: rest)) offset ↔
      DanglesAt .plain (first :: rest) offset := by
  rw [scan_outside]
  by_cases quote : first = '"'
  · subst quote
    rw [outside_quote, List.take_zero, List.drop_zero]
    have firm : Firm .plain ['"'] rest := firm_of_not_mem (by decide)
    exact failsAt_of_firm Category.noConfusion firm (fun _ => Iff.rfl) (behind 0) _
  rw [beq_false_of_ne quote, ← split_piece first rest (outside previous first rest).extra]
  by_cases hash : first = '#'
  · subst hash
    have left := behind (rest.takeWhile (· != '\n')).length
    rw [drop_length_takeWhile] at left
    rw [outside_hash, take_length_takeWhile, drop_length_takeWhile]
    exact failsAt_comment left _
  · obtain ⟨sound, kept⟩ := outside_plain previous rest quote hash
    refine failsAt_of_firm sound (firm_of_kept kept Mode.noConfusion) (fun later => ?_) (behind _) _
    rw [Mode.after_of_kept kept]
    rfl

/-- A backslash at the end of a line dangles, and the string goes on behind it. -/
theorem danglesAt_backslash (ends : ∀ first ∈ back.head?, first = '\n') :
    DanglesAt .string ('\\' :: back) offset ↔
      offset = 0 ∨ ∃ later, DanglesAt .string back later ∧ offset = 1 + later := by
  have there : ∀ later,
      DanglesAt .string ('\\' :: back) (1 + later) ↔ DanglesAt .string back later :=
    fun later => (danglesAt_behind .string ['\\'] back later).trans (danglesAt_lineEnd ends rfl)
  constructor
  · intro dangles
    cases offset with
    | zero => exact Or.inl rfl
    | succ later =>
        rw [Nat.add_comm] at dangles ⊢
        exact Or.inr ⟨later, (there later).mp dangles, rfl⟩
  · rintro (rfl | ⟨later, dangles, rfl⟩)
    · rw [List.head?_eq_getElem?] at ends
      exact ⟨rfl, rfl, ends⟩
    · exact (there later).mpr dangles

theorem failsAt_backslash (ends : ∀ first ∈ back.head?, first = '\n') (behind : Tracks back)
    (previous : Option Char) :
    FailsAt (⟨.error, ['\\']⟩ :: scan true previous back) offset ↔
      DanglesAt .string ('\\' :: back) offset := by
  rw [failsAt_cons, danglesAt_backslash ends]
  simp only [true_and, behind true previous _, List.length_singleton]
  rfl

theorem firm_escape {escaped : Char} (other : escaped ≠ '\n') :
    Firm .string ['\\', escaped] back := by
  intro offset within dangles
  cases offset with
  | zero => exact other (dangles.2.2 escaped rfl)
  | succ offset =>
      have only : offset = 0 := by
        simp only [List.length_cons, List.length_nil] at within
        omega
      subst only
      exact Mode.noConfusion dangles.2.1

theorem tracks_inside (first : Char) (behind : ∀ taken, Tracks (rest.drop taken))
    (previous : Option Char) :
    FailsAt (scan true previous (first :: rest)) offset ↔
      DanglesAt .string (first :: rest) offset := by
  rw [scan_inside]
  by_cases quote : first = '"'
  · subst quote
    have firm : Firm .string ['"'] rest := firm_of_not_mem (by decide)
    exact failsAt_of_firm Category.noConfusion firm (fun _ => Iff.rfl) (behind 0) _
  rw [bne_iff_ne.mpr quote]
  by_cases backslash : first = '\\'
  · subst backslash
    cases rest with
    | nil => exact failsAt_backslash (fun first none => by cases none) (behind 0) _
    | cons escaped others =>
        by_cases newline : escaped = '\n'
        · subst newline
          refine failsAt_backslash (fun first here => ?_) (behind 0) _
          exact (Option.some.inj (Option.mem_def.mp here)).symm
        · have escape : inside '\\' (escaped :: others) = ⟨.escape, 1⟩ := by
            rw [inside, if_pos rfl]
            exact if_neg newline
          rw [escape]
          have firm : Firm .string ['\\', escaped] others := firm_escape newline
          exact failsAt_of_firm Category.noConfusion firm (fun _ => Iff.rfl) (behind 1) _
  · have run : inside first rest = ⟨.string, (rest.takeWhile isPlain).length⟩ := by
      unfold inside
      rw [if_neg backslash, if_neg quote]
      rfl
    have plain : ∀ character ∈ first :: rest.takeWhile isPlain,
        character ≠ '"' ∧ character ≠ '\\' := by
      refine List.forall_mem_cons.mpr ⟨⟨quote, backslash⟩, fun character member => ?_⟩
      have within := List.all_eq_true.mp List.all_takeWhile character member
      simpa only [isPlain, Bool.and_eq_true, bne_iff_ne] using within
    have kept : ∀ character ∈ first :: rest.takeWhile isPlain,
        Mode.string.next character = .string :=
      fun character member => Mode.next_string (plain character member).1 (plain character member).2
    rw [run, ← split_piece first rest (rest.takeWhile isPlain).length, take_length_takeWhile]
    refine failsAt_of_firm Category.noConfusion ?_ (fun later => ?_) (behind _) _
    · exact firm_of_not_mem fun member => (plain '\\' member).2 rfl
    · rw [Mode.after_of_kept kept]
      rfl

end Tracks

/-- The pieces from a place on fail where a backslash dangles. -/
theorem tracks (text : List Char) : Tracks text := by
  induction bound : text.length using Nat.strongRecOn generalizing text with
  | ind count shorter =>
      intro inString previous offset
      cases text with
      | nil =>
          rw [scan]
          exact iff_of_false (not_failsAt_nil offset) (not_danglesAt_nil _ offset)
      | cons first rest =>
          have behind : ∀ taken, Tracks (rest.drop taken) := by
            intro taken
            refine shorter _ ?_ _ rfl
            rw [← bound, List.length_cons, List.length_drop]
            omega
          cases inString with
          | false => exact tracks_outside first behind previous
          | true => exact tracks_inside first behind previous

theorem ne_nil_of_mem_scan {inString : Bool} {previous : Option Char} {text : List Char}
    {piece : Piece} (member : piece ∈ scan inString previous text) : piece.text ≠ [] := by
  induction bound : text.length using Nat.strongRecOn generalizing inString previous text with
  | ind count shorter =>
      cases text with
      | nil =>
          rw [scan] at member
          cases member
      | cons first rest =>
          rw [scan] at member
          rcases List.mem_cons.mp member with rfl | later
          · exact List.cons_ne_nil _ _
          · refine shorter _ ?_ later rfl
            rw [← bound, List.length_cons, List.length_drop]
            omega

theorem rules_newline (previous : Option Char) (rest : List Char) :
    (rules.findSome? fun rule => rule previous '\n' rest) = some ⟨.text, 0⟩ := rfl

/-- No piece is empty, the pieces put together are the source, and errors are where a
backslash dangles and nowhere else.  Outside strings the rules leave nothing but single
characters on their lines. -/
theorem pieces_lossless (source : String) :
    (∀ piece ∈ pieces source, piece.text ≠ []) ∧
    (pieces source).flatMap Piece.text = source.toList ∧
    (∀ offset, FailsAt (pieces source) offset ↔ DanglesAt .plain source.toList offset) ∧
    ∀ previous first rest, (rules.findSome? fun rule => rule previous first rest) = none →
      first ≠ '\n' := by
  refine ⟨?nonempty, ?whole, ?errors, ?left⟩
  case nonempty => exact fun piece member => ne_nil_of_mem_scan member
  case whole => exact (shown_pieces source).flatMap_text
  case errors => exact tracks source.toList false none
  case left =>
    rintro previous first rest none rfl
    rw [rules_newline] at none
    cases none

end SageNotation.Highlight
