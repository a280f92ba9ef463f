import SageNotation.Grammar.Documents
import SageNotation.Proofs.Token.Firm

/-!
Characters by which a token is known.

A double quote stands in no token but a string, and the arrow to the left and the two
exclamation marks are spelled in one way only.  All three follow from what can stand
behind the first character of a token (`not_mem_take`) and from how a mark is made up
(`text_of_isMark`).
-/

namespace SageNotation

open Grammar

namespace Token

section Characters

variable {source file : String} {token : Token} {character first : Char} {rest : List Char}
  {kind : Kind}

theorem not_mem_take (found : (lexeme first rest).kind = some kind) (string : kind ≠ .string)
    (comment : kind ≠ .comment) (letter : isWordChar character = false)
    (mark : character ∉ ['!', '=', '>', '&', '.', '-']) :
    character ∉ rest.take (lexeme first rest).extra := by
  have runs : ∀ {run : Char → Bool}, kind.run? = some run → run character = false →
      character ∉ rest.take (lexeme first rest).extra := by
    intro run known stops member
    rw [(divided_by_run found known).1] at member
    rw [List.all_eq_true.mp List.all_takeWhile character member] at stops
    cases stops
  obtain ⟨extra, length, recognized⟩ := recognized_kind found
  cases recognized with
  | string => exact absurd rfl string
  | comment => exact absurd rfl comment
  | newline | prime =>
      rw [length]
      exact List.not_mem_nil
  | dashes =>
      apply runs rfl
      apply beq_eq_false_iff_ne.mpr
      rintro rfl
      exact mark (by decide)
  | mark _ _ _ here =>
      rw [length]
      intro member
      exact mark (List.mem_append_left ['-'] (later_of_mark here character member))
  | word _ spelled => exact runs (Kind.run?_of_isWord spelled.isWord) letter
  | number =>
      apply runs rfl
      rw [isNumberChar, Bool.or_eq_false_iff]
      constructor
      · by_contra digit
        rw [isWordChar_of_isDigit (eq_true_of_ne_false digit)] at letter
        cases letter
      · apply beq_eq_false_iff_ne.mpr
        rintro rfl
        exact mark (by decide)

/-- A character that is of no word and of none of these marks can only be the first of
its token. -/
theorem found_of_mem_value (member : token ∈ tokenize source file)
    (significant : token.isSignificant = true) (string : token.kind ≠ .string)
    (letter : isWordChar character = false) (mark : character ∉ ['!', '=', '>', '&', '.', '-'])
    (within : character ∈ token.value.toList) :
    ∃ rest, (lexeme character rest).kind = some token.kind := by
  have comment : token.kind ≠ .comment := by
    intro same
    rw [isSignificant, same] at significant
    cases significant
  obtain ⟨before, first, rest, place⟩ :=
    exists_cutAt member (kind_ne_eof_of_isSignificant significant)
  have value : token.value.toList = first :: rest.take (lexeme first rest).extra := by
    rw [place.value_of_verbatim comment string file, place.spanText_eq file, String.toList_ofList]
  rw [value] at within
  rcases List.mem_cons.mp within with rfl | later
  · exact ⟨rest, place.found⟩
  · exact absurd later (not_mem_take place.found string comment letter mark)

/-- No token but a string holds a double quote. -/
theorem quote_not_mem_text (member : token ∈ tokenize source file)
    (significant : token.isSignificant = true) (string : token.kind ≠ .string) :
    '"' ∉ token.text.toList := by
  rw [text, if_neg string]
  intro within
  obtain ⟨rest, found⟩ :=
    found_of_mem_value member significant string (by decide) (by decide) within
  exact string (Option.some.inj found).symm

theorem mark_cases {found : Lexeme} (mark : mark? first rest = some found) :
    (∃ second others kind, rest = second :: others ∧ Kind.ofPair? first second = some kind ∧
      found = ⟨some kind, 1⟩) ∨ (first = '.' ∧ found = ⟨some .ellipsis, 2⟩) ∨
    ∃ kind, (Kind.ofSymbol? first = some kind ∨ Kind.ofChar? first = some kind) ∧
      found = .single kind := by
  simp only [mark?, Option.orElse_eq_or, Option.or_eq_some_iff, Option.map_eq_some_iff] at mark
  rcases mark with pair | ⟨_, dots | ⟨_, kind, known, same⟩⟩
  · cases rest with
    | nil => cases pair
    | cons second others =>
        obtain ⟨kind, known, same⟩ := Option.map_eq_some_iff.mp pair
        exact Or.inl ⟨second, others, kind, rfl, known, same.symm⟩
  · unfold ellipsis? at dots
    split at dots
    · exact Or.inr (Or.inl ⟨rfl, (Option.some.inj dots).symm⟩)
    · cases dots
  · exact Or.inr (Or.inr ⟨kind, known.imp_right And.right, same.symm⟩)

theorem mark_of_found (found : (lexeme first rest).kind = some kind) (fixed : kind.isMark = true)
    (other : kind ≠ .prime) :
    mark? first rest = some ⟨some kind, (lexeme first rest).extra⟩ := by
  obtain ⟨extra, length, recognized⟩ := recognized_kind found
  rw [length]
  cases recognized with
  | mark _ _ _ here => exact here
  | prime => exact absurd rfl other
  | newline | comment | string | dashes | number => cases fixed
  | word _ spelled =>
      have runs := Kind.run?_of_isWord spelled.isWord
      rw [Kind.run?_of_isMark fixed] at runs
      cases runs

theorem text_of_isMark (member : token ∈ tokenize source file) (fixed : token.kind.isMark = true)
    (other : token.kind ≠ .prime) :
    (∃ first second, token.text.toList = [first, second] ∧
      Kind.ofPair? first second = some token.kind) ∨ token.kind = .ellipsis ∨
    ∃ first, token.text.toList = [first] ∧
      (Kind.ofSymbol? first = some token.kind ∨ Kind.ofChar? first = some token.kind) := by
  have apart : ∀ kind : Kind, kind.isMark = false → token.kind ≠ kind := by
    rintro kind none rfl
    rw [none] at fixed
    cases fixed
  obtain ⟨before, first, rest, place⟩ := exists_cutAt member (apart .eof rfl)
  have text : token.text.toList = first :: rest.take (lexeme first rest).extra := by
    rw [Token.text, if_neg (apart .string rfl),
      place.value_of_verbatim (apart .comment rfl) (apart .string rfl) file, place.spanText_eq file,
      String.toList_ofList]
  have mark := mark_of_found place.found fixed other
  generalize (lexeme first rest).extra = extra at text mark
  rcases mark_cases mark with ⟨second, others, kind, rfl, pair, same⟩ | ⟨_, same⟩ |
    ⟨kind, known, same⟩
  · obtain ⟨kinds, rfl⟩ := Lexeme.mk.inj same
    rw [Option.some.inj kinds]
    exact Or.inl ⟨first, second, text, pair⟩
  · exact Or.inr (Or.inl (Option.some.inj (Lexeme.mk.inj same).1))
  · obtain ⟨kinds, rfl⟩ := Lexeme.mk.inj same
    rw [Option.some.inj kinds]
    exact Or.inr (Or.inr ⟨first, text, known⟩)

theorem text_of_leftArrow (member : token ∈ tokenize source file)
    (arrow : token.kind = .leftArrow) : token.text.toList = [leftArrow] := by
  have spelled := text_of_isMark member (by rw [arrow]; rfl) (by rw [arrow]; decide)
  rw [arrow] at spelled
  rcases spelled with ⟨first, second, _, pair⟩ | dots | ⟨first, text, symbol | punctuation⟩
  · unfold Kind.ofPair? at pair
    split at pair <;> cases pair
  · cases dots
  · unfold Kind.ofSymbol? at symbol
    split at symbol <;> cases symbol
    exact text
  · unfold Kind.ofChar? at punctuation
    split at punctuation <;> cases punctuation

theorem text_of_bang2 (member : token ∈ tokenize source file) (bangs : token.kind = .bang2) :
    token.text = "!!" := by
  have spelled := text_of_isMark member (by rw [bangs]; rfl) (by rw [bangs]; decide)
  rw [bangs] at spelled
  rcases spelled with ⟨first, second, text, pair⟩ | dots | ⟨first, _, symbol | punctuation⟩
  · unfold Kind.ofPair? at pair
    split at pair <;> cases pair
    exact String.toList_inj.mp text
  · cases dots
  · unfold Kind.ofSymbol? at symbol
    split at symbol <;> cases symbol
  · unfold Kind.ofChar? at punctuation
    split at punctuation <;> cases punctuation

end Characters

end Token

end SageNotation
