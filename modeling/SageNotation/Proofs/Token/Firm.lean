import SageNotation.Proofs.Grammar.Progress
import SageNotation.Proofs.Prose.Words
import SageNotation.Proofs.Token.Breaks
import SageNotation.Proofs.Token.Spelling

/-!
Texts of tokens without blanks at their ends.

No token but a string or a comment holds a blank, and the text of a string stands
between quotes.  So the text of every significant token has a first and a last
character and neither is blank (`firm_of_mem_tokenize`), and the same goes for the
readable text of every run of such tokens: it is blank only for the empty run, and
trimming leaves it as it is.  Around one of its tokens a run has the text of the tokens
before it and of those behind (`render_middle`).
-/

namespace SageNotation

open Text (Firm)

namespace Token

/-! ### Characters of tokens -/

theorem isBlank_of_isWordChar {character : Char} (letter : isWordChar character = true) :
    Text.isBlank character = false := by
  delta isWordChar Char.isAlphanum Char.isAlpha Char.isUpper Char.isLower Char.isDigit at letter
  simp only [Bool.or_eq_true, Bool.and_eq_true, decide_eq_true_eq, beq_iff_eq,
    UInt32.le_iff_toNat_le] at letter
  change (((65 ≤ character.toNat ∧ character.toNat ≤ 90) ∨
    (97 ≤ character.toNat ∧ character.toNat ≤ 122)) ∨
    (48 ≤ character.toNat ∧ character.toNat ≤ 57)) ∨ character = '_' at letter
  rcases letter with range | underscore
  · simp only [Text.isBlank, Bool.or_eq_false_iff, Bool.and_eq_false_iff, decide_eq_false_iff_not,
      beq_eq_false_iff_ne]
    omega
  · rw [underscore]
    decide

theorem isBlank_of_isNumberChar {character : Char} (digit : isNumberChar character = true) :
    Text.isBlank character = false := by
  rcases Bool.or_eq_true _ _ |>.mp digit with digit | dot
  · apply isBlank_of_isWordChar
    rw [isDigit_eq] at digit
    simp only [isWordChar, Char.isAlphanum, digit, Bool.or_true, Bool.true_or]
  · rw [eq_of_beq dot]
    decide

section Characters

variable {first : Char} {rest : List Char} {kind : Kind}

theorem isBlank_of_mark {found : Lexeme} (mark : mark? first rest = some found) :
    Text.isBlank first = false := by
  simp only [mark?, Option.orElse_eq_or, Option.or_eq_some_iff, Option.map_eq_some_iff] at mark
  rcases mark with pair | ⟨_, dots | ⟨_, kind, symbol | ⟨_, punctuation⟩, _⟩⟩
  · cases rest with
    | nil => cases pair
    | cons second others =>
        obtain ⟨kind, known, _⟩ := Option.map_eq_some_iff.mp pair
        unfold Kind.ofPair? at known
        split at known <;> cases known <;> decide
  · unfold ellipsis? at dots
    split at dots
    · decide
    · cases dots
  · unfold Kind.ofSymbol? at symbol
    split at symbol <;> cases symbol <;> decide
  · unfold Kind.ofChar? at punctuation
    split at punctuation <;> cases punctuation <;> decide

theorem isBlank_of_spelled (spelled : Spelled first rest kind) : Text.isBlank first = false := by
  rcases spelled with ⟨rfl, _⟩ | ⟨letter, _⟩
  · decide
  · exact isBlank_of_isWordChar (isWordChar_of_isWordStart letter)

theorem solid_lexeme (found : (lexeme first rest).kind = some kind) (string : kind ≠ .string)
    (trivia : kind.isTrivia = false) :
    ∀ character ∈ first :: rest.take (lexeme first rest).extra, Text.isBlank character = false := by
  have runs : ∀ {run : Char → Bool}, kind.run? = some run →
      (∀ character, run character = true → Text.isBlank character = false) →
      ∀ character ∈ rest.take (lexeme first rest).extra, Text.isBlank character = false := by
    intro run known solid character member
    rw [(divided_by_run found known).1] at member
    exact solid character (List.all_eq_true.mp List.all_takeWhile character member)
  rw [List.forall_mem_cons]
  obtain ⟨extra, length, recognized⟩ := recognized_kind found
  cases recognized with
  | newline | comment => cases trivia
  | string => exact absurd rfl string
  | prime here =>
      rw [length, here]
      exact ⟨by decide, List.forall_mem_nil _⟩
  | dashes here =>
      rw [here]
      refine ⟨by decide, here ▸ runs rfl ?_⟩
      intro character dash
      rw [eq_of_beq dash]
      decide
  | mark _ _ _ here =>
      refine ⟨isBlank_of_mark here, ?_⟩
      rw [length]
      intro character member
      have later := later_of_mark here character member
      simp only [List.mem_cons, List.not_mem_nil, or_false] at later
      rcases later with rfl | rfl | rfl | rfl | rfl
      all_goals decide
  | word _ spelled =>
      exact ⟨isBlank_of_spelled spelled,
        runs (Kind.run?_of_isWord spelled.isWord) fun _ => isBlank_of_isWordChar⟩
  | number here =>
      refine ⟨isBlank_of_isNumberChar ?_, runs rfl fun _ => isBlank_of_isNumberChar⟩
      rw [isNumberChar, here]
      rfl

end Characters

theorem IsName.allBlank {name : String} (named : IsName name) : Text.allBlank name = false := by
  obtain ⟨first, letters, text, word⟩ := named
  rw [Text.allBlank, text, List.all_cons, isBlank_of_spelled word.spelled, Bool.false_and]

/-! ### Texts of tokens and of runs -/

/-- A text with a first and a last character, neither of them blank. -/
def Standing (text : String) : Prop :=
  text.toList ≠ [] ∧ Firm text.toList

theorem standing_of_solid {characters : List Char} (nonempty : characters ≠ [])
    (solid : ∀ character ∈ characters, Text.isBlank character = false) :
    Standing (String.ofList characters) := by
  rw [Standing, String.toList_ofList]
  refine ⟨nonempty, ?_, ?_⟩
  · exact fun character member => solid character (List.mem_of_mem_head? member)
  · exact fun character member => solid character (List.mem_of_getLast? member)

theorem standing_quoted (content : List Char) :
    Standing (String.ofList ('"' :: (content ++ ['"']))) := by
  rw [Standing, String.toList_ofList]
  refine ⟨List.cons_ne_nil _ _, ?_, ?_⟩
  · intro character member
    cases member
    decide
  · intro character member
    rw [← List.cons_append, List.getLast?_concat] at member
    cases member
    decide

/-- The text of every significant token stands by itself. -/
theorem standing_of_mem_tokenize {source file : String} {token : Token}
    (member : token ∈ tokenize source file) (significant : token.isSignificant = true) :
    Standing token.text := by
  have plain := isTrivia_of_isSignificant significant
  obtain ⟨before, first, rest, place⟩ :=
    exists_cutAt member (kind_ne_eof_of_isSignificant significant)
  by_cases string : token.kind = .string
  · have quoted := standing_quoted token.value.toList
    rw [← toList_text_of_string string, String.ofList_toList] at quoted
    exact quoted
  · have comment : token.kind ≠ .comment := by
      intro same
      rw [isTrivia, same] at plain
      cases plain
    have verbatim : token.text = String.ofList (first :: rest.take (lexeme first rest).extra) := by
      rw [text, if_neg string, place.value_of_verbatim comment string file, place.spanText_eq file]
    rw [verbatim]
    exact standing_of_solid (List.cons_ne_nil _ _) (solid_lexeme place.found string plain)

theorem standing_of_mem_beforeEnd {source file : String} {token : Token}
    (member : token ∈ Grammar.beforeEnd (tokenize source file)) (plain : token.isTrivia = false) :
    Standing token.text :=
  standing_of_mem_tokenize (Grammar.mem_beforeEnd.mp member).1
    (Grammar.isSignificant_of_mem_beforeEnd member plain)

theorem isTrivia_of_mem_line {tokens : List Token} {token : Token} (member : token ∈ line tokens) :
    token.isTrivia = false := by
  have going : (!token.endsLine) = true := List.all_eq_true.mp List.all_takeWhile token member
  rw [Bool.not_eq_true'] at going
  exact isTrivia_of_endsLine going

section Runs

variable {run more : List Token}

theorem render_singleton (token : Token) : render [token] = token.text := by
  rw [render, List.map_singleton, String.intercalate_singleton]

theorem render_append (nonempty : run ≠ []) (further : more ≠ []) :
    render (run ++ more) = render run ++ " " ++ render more := by
  rw [render, List.map_append, String.intercalate_append_of_ne_nil]
  · rfl
  · exact fun none => nonempty (List.map_eq_nil_iff.mp none)
  · exact fun none => further (List.map_eq_nil_iff.mp none)

theorem Standing.append {left right : String} (front : Standing left) (back : Standing right)
    (between : String) : Standing (left ++ between ++ right) := by
  rw [Standing, String.toList_append, String.toList_append, List.append_assoc]
  refine ⟨List.append_ne_nil_of_left_ne_nil front.1 _, ?_, ?_⟩
  · intro character member
    rw [List.head?_append_of_ne_nil _ front.1] at member
    exact front.2.first character member
  · intro character member
    rw [← List.append_assoc, List.getLast?_append_of_ne_nil _ back.1] at member
    exact back.2.last character member

theorem standing_render (standing : ∀ token ∈ run, Standing token.text) (nonempty : run ≠ []) :
    Standing (render run) := by
  induction run with
  | nil => exact absurd rfl nonempty
  | cons first others ih =>
      obtain ⟨here, later⟩ := List.forall_mem_cons.mp standing
      cases others with
      | nil =>
          rw [render, List.map_singleton, String.intercalate_singleton]
          exact here
      | cons second others =>
          rw [render_cons_cons]
          exact here.append (ih later (List.cons_ne_nil _ _)) " "

theorem Standing.allBlank {text : String} (standing : Standing text) :
    Text.allBlank text = false := by
  obtain ⟨nonempty, firm⟩ := standing
  obtain ⟨first, rest, same⟩ := List.exists_cons_of_ne_nil nonempty
  have head := firm.first first (by rw [same]; rfl)
  rw [Text.allBlank, same, List.all_cons, head, Bool.false_and]

theorem Standing.trim {text : String} (standing : Standing text) : Text.trim text = text := by
  have start : Text.trimStart text.toList = text.toList := by
    obtain ⟨first, rest, same⟩ := List.exists_cons_of_ne_nil standing.1
    have head := standing.2.first first (by rw [same]; rfl)
    rw [Text.trimStart, same, List.dropWhile_cons_of_neg (ne_true_of_eq_false head)]
  have stop : Text.trimEnd text.toList = text.toList := by
    obtain ⟨front, last, same⟩ : ∃ front last, text.toList = front ++ [last] :=
      ⟨_, _, (List.dropLast_append_getLast standing.1).symm⟩
    have tail := standing.2.last last (by rw [same, List.getLast?_concat]; rfl)
    rw [Text.trimEnd, same, List.reverse_concat, List.dropWhile_cons_of_neg (ne_true_of_eq_false tail),
      ← List.reverse_concat, List.reverse_reverse]
  rw [Text.trim, Text.trimChars, start, stop, String.ofList_toList]

theorem allBlank_render_iff (standing : ∀ token ∈ run, Standing token.text) :
    Text.allBlank (render run) = true ↔ run = [] := by
  constructor
  · intro blank
    by_contra nonempty
    rw [(standing_render standing nonempty).allBlank] at blank
    cases blank
  · rintro rfl
    rfl

theorem trim_render (standing : ∀ token ∈ run, Standing token.text) :
    Text.trim (render run) = render run := by
  by_cases nonempty : run = []
  · rw [nonempty]
    rfl
  · exact (standing_render standing nonempty).trim

end Runs

/-! ### The text of a run around its tokens -/

section Around

variable {run : List Token}

theorem render_cons (nonempty : run ≠ []) (first : Token) :
    render (first :: run) = first.text ++ " " ++ render run := by
  rw [← List.singleton_append, render_append (List.cons_ne_nil first []) nonempty,
    render_singleton]

theorem mem_render_iff {character : Char} (plain : character ≠ ' ') :
    character ∈ (render run).toList ↔ ∃ token ∈ run, character ∈ token.text.toList := by
  induction run with
  | nil =>
      rw [render_nil, String.toList_empty]
      exact iff_of_false List.not_mem_nil fun ⟨_, member, _⟩ => List.not_mem_nil member
  | cons first others ih =>
      rw [List.exists_mem_cons_iff, ← ih]
      cases others with
      | nil =>
          rw [render_nil, String.toList_empty, render_singleton]
          exact (or_iff_left List.not_mem_nil).symm
      | cons second others =>
          have gap : character ∉ " ".toList := fun member => plain (List.mem_singleton.mp member)
          rw [render_cons_cons, String.toList_append, String.toList_append, List.mem_append,
            List.mem_append, or_iff_left gap]

/-- The same text but for a space at one of its ends. -/
def Spaced (text spaced : List Char) : Prop :=
  spaced = text ∨ spaced = text ++ [' '] ∨ spaced = ' ' :: text

theorem Spaced.trimChars_eq {text spaced : List Char} (same : Spaced text spaced) :
    Text.trimChars spaced = Text.trimChars text := by
  rcases same with rfl | rfl | rfl
  · rfl
  · exact Text.trimChars_concat rfl text
  · rfl

theorem Spaced.mem_iff {text spaced : List Char} {character : Char} (same : Spaced text spaced)
    (plain : character ≠ ' ') : character ∈ spaced ↔ character ∈ text := by
  rcases same with rfl | rfl | rfl
  · rfl
  · rw [List.mem_append, List.mem_singleton, or_iff_left plain]
  · rw [List.mem_cons, or_iff_right plain]

/-- The readable text of a run around one of its tokens. -/
theorem render_middle (front : List Token) (token : Token) (back : List Token) :
    ∃ before after, (render (front ++ token :: back)).toList = before ++ token.text.toList ++ after ∧
      Spaced (render front).toList before ∧ Spaced (render back).toList after := by
  have behind : ∃ after, (render (token :: back)).toList = token.text.toList ++ after ∧
      Spaced (render back).toList after := by
    by_cases last : back = []
    · refine ⟨[], ?_, Or.inl (by rw [last]; rfl)⟩
      rw [last, render_singleton, List.append_nil]
    · refine ⟨' ' :: (render back).toList, ?_, Or.inr (Or.inr rfl)⟩
      rw [render_cons last, String.toList_append, String.toList_append, List.append_assoc]
      rfl
  obtain ⟨after, same, spaced⟩ := behind
  by_cases opening : front = []
  · refine ⟨[], after, ?_, Or.inl (by rw [opening]; rfl), spaced⟩
    rw [opening]
    exact same
  · refine ⟨(render front).toList ++ [' '], after, ?_, Or.inr (Or.inl rfl), spaced⟩
    rw [render_append opening (List.cons_ne_nil token back), String.toList_append,
      String.toList_append, same]
    simp only [List.append_assoc]
    rfl

end Around

end Token

end SageNotation
