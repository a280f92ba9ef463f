import Mathlib.Data.List.Forall2
import SageNotation.Proofs.Token.Partition

/-!
Tokens of a text whose lines end in a carriage return and a newline.

No token but a string holds a newline, and what decides about a token is never a
carriage return: at top level it is passed over, at the end of a comment it is
trimmed, and it ends words, numbers and operators as a newline does.  So putting
a carriage return in front of every newline keeps the tokens, one for one, with
their lines and columns.
-/

namespace SageNotation

namespace Text

/-- The text with a carriage return in front of every newline. -/
def dosBreaks : List Char → List Char
  | [] => []
  | character :: rest =>
      if character = '\n' then '\r' :: '\n' :: dosBreaks rest else character :: dosBreaks rest

def dosText (text : String) : String :=
  String.ofList (dosBreaks text.toList)

theorem dosBreaks_newline (rest : List Char) :
    dosBreaks ('\n' :: rest) = '\r' :: '\n' :: dosBreaks rest := rfl

theorem dosBreaks_plain {character : Char} (other : character ≠ '\n') (rest : List Char) :
    dosBreaks (character :: rest) = character :: dosBreaks rest := by
  rw [dosBreaks, if_neg other]

theorem dosBreaks_append (front back : List Char) :
    dosBreaks (front ++ back) = dosBreaks front ++ dosBreaks back := by
  induction front with
  | nil => rfl
  | cons character rest ih =>
      rw [List.cons_append, dosBreaks, dosBreaks, ih]
      split <;> rfl

theorem dosBreaks_unbroken {text : List Char} (unbroken : '\n' ∉ text) : dosBreaks text = text := by
  induction text with
  | nil => rfl
  | cons character rest ih =>
      obtain ⟨other, others⟩ := List.ne_and_not_mem_of_not_mem_cons unbroken
      rw [dosBreaks_plain other.symm, ih others]

theorem takeWhile_dosBreaks (run : Char → Bool) (newline : run '\n' = false)
    (carriage : run '\r' = false) (text : List Char) :
    (dosBreaks text).takeWhile run = text.takeWhile run := by
  induction text with
  | nil => rfl
  | cons character rest ih =>
      rw [dosBreaks]
      split
      · rename_i here
        rw [here, List.takeWhile_cons_of_neg (ne_true_of_eq_false carriage),
          List.takeWhile_cons_of_neg (ne_true_of_eq_false newline)]
      · rw [List.takeWhile_cons, List.takeWhile_cons, ih]

theorem not_mem_takeWhile {run : Char → Bool} (newline : run '\n' = false) (text : List Char) :
    '\n' ∉ text.takeWhile run := by
  intro member
  rw [List.all_eq_true.mp List.all_takeWhile _ member] at newline
  cases newline

/-- Where the first part of a text holds no newline, the text is divided as before. -/
theorem divided_dosBreaks {text : List Char} {count : Nat} (unbroken : '\n' ∉ text.take count) :
    (dosBreaks text).take count = text.take count ∧
      (dosBreaks text).drop count = dosBreaks (text.drop count) := by
  induction text generalizing count with
  | nil =>
      rw [dosBreaks, List.take_nil, List.drop_nil]
      exact ⟨rfl, rfl⟩
  | cons character rest ih =>
      cases count with
      | zero => exact ⟨rfl, rfl⟩
      | succ count =>
          obtain ⟨other, others⟩ := List.ne_and_not_mem_of_not_mem_cons unbroken
          obtain ⟨front, back⟩ := ih others
          rw [dosBreaks_plain other.symm, List.take_succ_cons, List.take_succ_cons, front]
          exact ⟨rfl, back⟩

theorem line_dosBreaks (text : List Char) :
    (text.dropWhile (· != '\n') = [] ∧
      (dosBreaks text).takeWhile (· != '\n') = text.takeWhile (· != '\n') ∧
      (dosBreaks text).dropWhile (· != '\n') = []) ∨
    ∃ later, text.dropWhile (· != '\n') = '\n' :: later ∧
      (dosBreaks text).takeWhile (· != '\n') = text.takeWhile (· != '\n') ++ ['\r'] ∧
      (dosBreaks text).dropWhile (· != '\n') = '\n' :: dosBreaks later := by
  induction text with
  | nil => exact Or.inl ⟨rfl, rfl, rfl⟩
  | cons character rest ih =>
      by_cases newline : character = '\n'
      · subst newline
        exact Or.inr ⟨rest, rfl, rfl, rfl⟩
      · have going : (character != '\n') = true := bne_iff_ne.mpr newline
        rw [dosBreaks_plain newline]
        simp only [List.takeWhile_cons, List.dropWhile_cons, going, if_true]
        rcases ih with ⟨ended, line, behind⟩ | ⟨later, split, line, behind⟩
        · exact Or.inl ⟨ended, congrArg _ line, behind⟩
        · exact Or.inr ⟨later, split, congrArg _ line, behind⟩

theorem trimChars_concat {blank : Char} (isBlank : isBlank blank = true) (text : List Char) :
    trimChars (text ++ [blank]) = trimChars text := by
  have ends : ∀ front : List Char, trimEnd (front ++ [blank]) = trimEnd front := by
    intro front
    rw [trimEnd, List.reverse_append, List.reverse_singleton, List.singleton_append,
      List.dropWhile_cons_of_pos isBlank, trimEnd]
  rw [trimChars, trimStart, List.dropWhile_append]
  split
  · rename_i nothing
    have done := List.isEmpty_iff.mp nothing
    rw [trimChars, trimStart, done, List.dropWhile_cons_of_pos isBlank, List.dropWhile_nil]
  · exact ends _

end Text

namespace Position

/-- The same line and column, whatever the offsets. -/
structure SamePlace (left right : Position) : Prop where
  line : left.line = right.line
  col : left.col = right.col

namespace SamePlace

variable {left right : Position}

theorem next (same : SamePlace left right) (character : Char) :
    SamePlace (left.next character) (right.next character) := by
  unfold Position.next
  split
  · exact ⟨congrArg (· + 1) same.line, rfl⟩
  · exact ⟨same.line, congrArg (· + 1) same.col⟩

/-- A carriage return before a newline moves neither the lines nor the columns after it. -/
theorem after (same : SamePlace left right) (text : List Char) :
    SamePlace (left.after text) (right.after (Text.dosBreaks text)) := by
  induction text generalizing left right with
  | nil => exact same
  | cons character rest ih =>
      rw [Text.dosBreaks]
      split
      · rename_i newline
        subst newline
        exact ih ⟨congrArg (· + 1) same.line, rfl⟩
      · exact ih (same.next character)

end SamePlace

end Position

namespace Token

open Text (dosBreaks dosText dosBreaks_newline dosBreaks_plain dosBreaks_append dosBreaks_unbroken
  divided_dosBreaks line_dosBreaks takeWhile_dosBreaks not_mem_takeWhile trimChars_concat)
open Position (SamePlace)

/-! ### Lexemes -/

theorem ofPair?_break {second : Char} (ends : second = '\n' ∨ second = '\r') (first : Char) :
    Kind.ofPair? first second = none := by
  unfold Kind.ofPair?
  split <;> simp_all

theorem pair?_dosBreaks (first : Char) (rest : List Char) :
    pair? first (dosBreaks rest) = pair? first rest := by
  cases rest with
  | nil => rfl
  | cons second others =>
      rw [dosBreaks]
      split
      · rename_i newline
        rw [pair?, pair?, ofPair?_break (Or.inr rfl), ofPair?_break (Or.inl newline)]
      · rfl

theorem starts_twice {character : Char} {rest : List Char}
    (twice : 2 ≤ (rest.takeWhile (· == character)).length) :
    ∃ others, rest = character :: character :: others := by
  cases rest with
  | nil => cases twice
  | cons second others =>
      rw [List.takeWhile_cons] at twice
      split at twice
      · rename_i here
        cases others with
        | nil => exact absurd twice (Nat.not_succ_le_self 1)
        | cons third more =>
            rw [List.takeWhile_cons] at twice
            split at twice
            · rename_i further
              rw [eq_of_beq here, eq_of_beq further]
              exact ⟨more, rfl⟩
            · exact absurd twice (Nat.not_succ_le_self 1)
      · exact absurd twice (by decide)

theorem ellipsis?_eq (first : Char) (rest : List Char) :
    ellipsis? first rest =
      if first = '.' ∧ 2 ≤ (rest.takeWhile (· == '.')).length then some ⟨some .ellipsis, 2⟩
      else none := by
  unfold ellipsis?
  split
  · exact (if_pos ⟨rfl, Nat.le_add_left 2 _⟩).symm
  · rename_i unmatched
    rw [if_neg]
    rintro ⟨dot, twice⟩
    obtain ⟨others, same⟩ := starts_twice twice
    exact unmatched others dot same

theorem dashes?_eq (first : Char) (rest : List Char) :
    dashes? first rest =
      if first = '-' ∧ 2 ≤ (rest.takeWhile (· == '-')).length then
        some ⟨some .dash3, (rest.takeWhile (· == '-')).length⟩
      else none := by
  unfold dashes?
  split
  · exact (if_pos ⟨rfl, Nat.le_add_left 2 _⟩).symm
  · rename_i unmatched
    rw [if_neg]
    rintro ⟨dash, twice⟩
    obtain ⟨others, same⟩ := starts_twice twice
    exact unmatched others dash same

theorem word?_dosBreaks (first : Char) (rest : List Char) :
    word? first (dosBreaks rest) = word? first rest := by
  simp only [word?, takeWhile_dosBreaks isWordChar rfl rfl,
    takeWhile_dosBreaks isNumberChar rfl rfl]

theorem lexeme_dosBreaks {first : Char} (newline : first ≠ '\n') (comment : first ≠ '#')
    (string : first ≠ '"') (rest : List Char) :
    lexeme first (dosBreaks rest) = lexeme first rest := by
  simp only [lexeme, mark?, if_neg newline, if_neg comment, if_neg string, dashes?_eq, ellipsis?_eq,
    takeWhile_dosBreaks (· == '-') rfl rfl, takeWhile_dosBreaks (· == '.') rfl rfl,
    pair?_dosBreaks, word?_dosBreaks]

theorem later_of_mark {first : Char} {rest : List Char} {found : Lexeme}
    (mark : mark? first rest = some found) :
    ∀ later ∈ rest.take found.extra, later ∈ ['!', '=', '>', '&', '.'] := by
  simp only [mark?, Option.orElse_eq_or, Option.or_eq_some_iff, Option.map_eq_some_iff] at mark
  rcases mark with pair | ⟨_, dots | ⟨_, kind, _, same⟩⟩
  · cases rest with
    | nil => cases pair
    | cons second others =>
        obtain ⟨kind, known, same⟩ := Option.map_eq_some_iff.mp pair
        rw [← same]
        intro later member
        rw [List.mem_singleton.mp member]
        unfold Kind.ofPair? at known
        split at known <;> cases known <;> decide
  · rw [ellipsis?_eq] at dots
    split at dots
    · rename_i twice
      obtain ⟨others, split⟩ := starts_twice twice.2
      cases dots
      rw [split]
      exact (by simp : ∀ later ∈ ['.', '.'], later ∈ ['!', '=', '>', '&', '.'])
    · cases dots
  · rw [← same]
    exact List.forall_mem_nil _

theorem unbroken_take {first : Char} {rest : List Char} {kind : Kind}
    (found : (lexeme first rest).kind = some kind) (string : kind ≠ .string) :
    '\n' ∉ rest.take (lexeme first rest).extra := by
  have runs : ∀ {run : Char → Bool}, kind.run? = some run → run '\n' = false →
      '\n' ∉ rest.take (lexeme first rest).extra := by
    intro run known newline
    rw [(divided_by_run found known).1]
    exact not_mem_takeWhile newline rest
  obtain ⟨extra, length, recognized⟩ := recognized_kind found
  cases recognized with
  | newline =>
      rw [length]
      exact List.not_mem_nil
  | comment => exact runs rfl rfl
  | string => exact absurd rfl string
  | prime =>
      rw [length]
      exact List.not_mem_nil
  | dashes => exact runs rfl rfl
  | mark _ _ _ here =>
      rw [length]
      exact fun member => absurd (later_of_mark here _ member) (by decide)
  | word _ spelled => exact runs (Kind.run?_of_isWord spelled.isWord) rfl
  | number => exact runs rfl rfl

/-! ### Strings -/

theorem stringExtent_plain {character : Char} (rest : List Char) (notQuote : character ≠ '"')
    (notBackslash : character ≠ '\\') :
    stringExtent (character :: rest) = stringExtent rest + 1 := by
  rw [stringExtent] <;> intros <;> contradiction

theorem stringContent_dosBreaks (text : List Char) :
    stringContent (dosBreaks text) = dosBreaks (stringContent text) := by
  have newline : ∀ rest, stringContent ('\n' :: rest) = '\n' :: stringContent rest :=
    fun rest => stringContent_plain rest (by decide) (by decide)
  have carriage : ∀ rest, stringContent ('\r' :: rest) = '\r' :: stringContent rest :=
    fun rest => stringContent_plain rest (by decide) (by decide)
  fun_induction stringContent text with
  | case1 => rfl
  | case2 rest => rfl
  | case3 => rfl
  | case4 character rest ih =>
      rw [dosBreaks_plain (by decide), dosBreaks, dosBreaks]
      split
      · rw [stringContent, newline, ih]
      · rw [stringContent, ih]
  | case5 character rest notQuote notLast notEscape ih =>
      have notBackslash : character ≠ '\\' := by
        intro backslash
        cases rest with
        | nil => exact notLast backslash rfl
        | cons next others => exact notEscape next others backslash rfl
      rw [dosBreaks, dosBreaks]
      split
      · rw [carriage, newline, ih]
      · rw [stringContent_plain _ notQuote notBackslash, ih]

/-- A string goes on to the same quote, and each newline on the way makes it longer by
a carriage return. -/
theorem stringExtent_dosBreaks (text : List Char) :
    stringExtent (dosBreaks text) = (dosBreaks (text.take (stringExtent text))).length := by
  have newline : ∀ rest, stringExtent ('\n' :: rest) = stringExtent rest + 1 :=
    fun rest => stringExtent_plain rest (by decide) (by decide)
  have carriage : ∀ rest, stringExtent ('\r' :: rest) = stringExtent rest + 1 :=
    fun rest => stringExtent_plain rest (by decide) (by decide)
  fun_induction stringExtent text with
  | case1 => rfl
  | case2 rest => rfl
  | case3 character rest ih =>
      have backslash : ∀ text, dosBreaks ('\\' :: text) = '\\' :: dosBreaks text :=
        fun text => dosBreaks_plain (by decide) text
      rw [List.take_succ_cons, List.take_succ_cons, backslash, backslash, dosBreaks, dosBreaks]
      split
      · rw [stringExtent, newline, ih]
        rfl
      · rw [stringExtent, ih]
        rfl
  | case4 character rest notQuote notEscape ih =>
      rw [List.take_succ_cons]
      by_cases backslash : character = '\\'
      · cases rest with
        | nil =>
            subst backslash
            rfl
        | cons next others => exact False.elim (notEscape next others backslash rfl)
      · rw [dosBreaks, dosBreaks]
        split
        · rw [carriage, newline, ih]
          rfl
        · rw [stringExtent_plain _ notQuote backslash, ih]
          rfl

theorem divided_by_string (text : List Char) :
    (dosBreaks text).take (stringExtent (dosBreaks text)) =
        dosBreaks (text.take (stringExtent text)) ∧
      (dosBreaks text).drop (stringExtent (dosBreaks text)) =
        dosBreaks (text.drop (stringExtent text)) := by
  have whole : dosBreaks text =
      dosBreaks (text.take (stringExtent text)) ++ dosBreaks (text.drop (stringExtent text)) := by
    rw [← dosBreaks_append, List.take_append_drop]
  rw [stringExtent_dosBreaks, whole]
  exact ⟨List.take_left, List.drop_left⟩

/-! ### Tokens -/

/-- What a carriage return in front of every newline changes in a token: the newlines
of a string, and where a newline stands on its line. -/
structure BreaksAlike (token other : Token) : Prop where
  kind : other.kind = token.kind
  value : other.value = if token.kind = .string then dosText token.value else token.value
  place : token.kind ≠ .newline → SamePlace token.span.start other.span.start

section Scan

variable {file : String} {position other : Position} {first : Char} {rest : List Char} {kind : Kind}

theorem alike_cut {others row : List Char} (same : SamePlace position other)
    (plain : kind ≠ .string) (value : valueOf kind first row = valueOf kind first others) :
    BreaksAlike (cut file position kind first others) (cut file other kind first row) := by
  refine ⟨rfl, ?_, fun _ => same⟩
  exact value.trans (if_neg plain).symm

theorem scan_carriage (file : String) (position : Position) (rest : List Char) :
    scan file position ('\r' :: rest) = scan file (position.after ['\r']) rest := by
  apply scan_passed
  cases rest <;> rfl

theorem scan_newline_alike (found : (lexeme '\n' rest).kind = some kind)
    (behind : ∀ {place : Position}, SamePlace (position.after ['\n']) place →
      List.Forall₂ BreaksAlike (scan file (position.after ['\n']) rest)
        (scan file place (dosBreaks rest)))
    (same : SamePlace position other) :
    List.Forall₂ BreaksAlike (scan file position ('\n' :: rest))
      (scan file other (dosBreaks ('\n' :: rest))) := by
  have ahead : (lexeme '\n' (dosBreaks rest)).kind = some kind := found
  rw [dosBreaks_newline, scan_carriage, scan_cut found, scan_cut ahead]
  cases found
  refine .cons ⟨rfl, rfl, fun stands => absurd rfl stands⟩ (behind ?_)
  exact same.after ['\n']

/-- The carriage return at the end of a comment belongs to it and is trimmed. -/
theorem scan_comment_alike (found : (lexeme '#' rest).kind = some kind)
    (behind : ∀ {place : Position},
      SamePlace (position.after ('#' :: rest.takeWhile (· != '\n'))) place →
      List.Forall₂ BreaksAlike
        (scan file (position.after ('#' :: rest.takeWhile (· != '\n')))
          (rest.dropWhile (· != '\n')))
        (scan file place (dosBreaks (rest.dropWhile (· != '\n')))))
    (same : SamePlace position other) :
    List.Forall₂ BreaksAlike (scan file position ('#' :: rest))
      (scan file other (dosBreaks ('#' :: rest))) := by
  have isComment : ∀ text, (lexeme '#' text).kind = some .comment := fun _ => rfl
  cases found
  have here : '\n' ∉ '#' :: rest.takeWhile (· != '\n') :=
    List.not_mem_cons_of_ne_of_not_mem (by decide) (not_mem_takeWhile rfl rest)
  have further := behind (same.after ('#' :: rest.takeWhile (· != '\n')))
  rw [dosBreaks_unbroken here] at further
  rw [dosBreaks_plain (by decide), scan_cut (isComment rest), scan_cut (isComment (dosBreaks rest)),
    (divided_by_run (isComment rest) rfl).1, (divided_by_run (isComment rest) rfl).2,
    (divided_by_run (isComment (dosBreaks rest)) rfl).1,
    (divided_by_run (isComment (dosBreaks rest)) rfl).2]
  -- The carriage return in front of the newline is taken into the comment, so the second
  -- run goes on one character later than a scan of the changed rest.
  rcases line_dosBreaks rest with ⟨ended, line, left⟩ | ⟨later, split, line, left⟩
  · rw [ended] at further ⊢
    rw [line, left]
    exact .cons (alike_cut same (by decide) rfl) further
  · rw [split, dosBreaks_newline, scan_carriage, ← Position.after_append] at further
    rw [split, line, left]
    refine .cons (alike_cut same (by decide) ?_) further
    exact congrArg String.ofList (trimChars_concat (by decide) _)

theorem scan_string_alike (found : (lexeme '"' rest).kind = some kind)
    (behind : ∀ {place : Position},
      SamePlace (position.after ('"' :: rest.take (stringExtent rest))) place →
      List.Forall₂ BreaksAlike
        (scan file (position.after ('"' :: rest.take (stringExtent rest)))
          (rest.drop (stringExtent rest)))
        (scan file place (dosBreaks (rest.drop (stringExtent rest)))))
    (same : SamePlace position other) :
    List.Forall₂ BreaksAlike (scan file position ('"' :: rest))
      (scan file other (dosBreaks ('"' :: rest))) := by
  have isString : ∀ text, lexeme '"' text = ⟨some .string, stringExtent text⟩ := fun _ => rfl
  have known : ∀ text, (lexeme '"' text).kind = some .string := fun _ => rfl
  cases found
  have further := behind (same.after ('"' :: rest.take (stringExtent rest)))
  have divided := divided_by_string rest
  rw [dosBreaks_plain (by decide)] at further ⊢
  rw [scan_cut (known rest), scan_cut (known (dosBreaks rest)), isString, isString, divided.1,
    divided.2]
  refine .cons ⟨rfl, ?_, fun _ => same⟩ further
  change String.ofList (stringContent (dosBreaks (rest.take (stringExtent rest)))) =
    dosText (String.ofList (stringContent (rest.take (stringExtent rest))))
  rw [stringContent_dosBreaks, dosText, String.toList_ofList]

theorem scan_plain_alike (newline : first ≠ '\n') (comment : first ≠ '#') (string : first ≠ '"')
    (found : (lexeme first rest).kind = some kind)
    (behind : ∀ {place : Position},
      SamePlace (position.after (first :: rest.take (lexeme first rest).extra)) place →
      List.Forall₂ BreaksAlike
        (scan file (position.after (first :: rest.take (lexeme first rest).extra))
          (rest.drop (lexeme first rest).extra))
        (scan file place (dosBreaks (rest.drop (lexeme first rest).extra))))
    (same : SamePlace position other) :
    List.Forall₂ BreaksAlike (scan file position (first :: rest))
      (scan file other (dosBreaks (first :: rest))) := by
  have alike := lexeme_dosBreaks newline comment string rest
  have ahead : (lexeme first (dosBreaks rest)).kind = some kind := by rw [alike, found]
  have plain : kind ≠ .string := by
    rintro rfl
    exact string (extra_of_string found).1
  have unbroken := unbroken_take found plain
  have divided := divided_dosBreaks unbroken
  have here : '\n' ∉ first :: rest.take (lexeme first rest).extra :=
    List.not_mem_cons_of_ne_of_not_mem newline.symm unbroken
  have further := behind (same.after (first :: rest.take (lexeme first rest).extra))
  rw [dosBreaks_unbroken here] at further
  rw [dosBreaks_plain newline, scan_cut found, scan_cut ahead, alike, divided.1, divided.2]
  exact .cons (alike_cut same plain rfl) further

/-- Scanning goes on in step, token by token. -/
theorem scan_dosBreaks (file : String) {position other : Position} (text : List Char)
    (same : SamePlace position other) :
    List.Forall₂ BreaksAlike (scan file position text) (scan file other (dosBreaks text)) := by
  induction position, text using scan_induction generalizing other with
  | empty position =>
      rw [dosBreaks, scan, scan]
      exact .cons ⟨rfl, rfl, fun _ => same⟩ .nil
  | passed position first rest found ih =>
      have newline : first ≠ '\n' := by
        rintro rfl
        cases found
      have comment : first ≠ '#' := by
        rintro rfl
        cases found
      have string : first ≠ '"' := by
        rintro rfl
        cases found
      have ahead : (lexeme first (dosBreaks rest)).kind = none := by
        rw [lexeme_dosBreaks newline comment string, found]
      rw [dosBreaks_plain newline, scan_passed found, scan_passed ahead]
      exact ih (same.next first)
  | token position first rest kind found ih =>
      by_cases newline : first = '\n'
      · subst newline
        exact scan_newline_alike found ih same
      · by_cases comment : first = '#'
        · subst comment
          have isComment : (lexeme '#' rest).kind = some .comment := rfl
          have line := divided_by_run isComment rfl
          rw [line.1, line.2] at ih
          exact scan_comment_alike found ih same
        · by_cases string : first = '"'
          · subst string
            exact scan_string_alike found ih same
          · exact scan_plain_alike newline comment string found ih same

end Scan

end Token

end SageNotation
