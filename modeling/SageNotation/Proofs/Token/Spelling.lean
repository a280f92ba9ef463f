import SageNotation.Proofs.Token.Partition

/-!
Tokens of a written text, wherever it stands.

A sign is a token without its span, and `signs` lists those of a text.  The
pieces of the notation that headers are written with give the same signs in
front of every text that cannot extend their last token.
-/

namespace SageNotation.Token

/-- What a token is apart from its place. -/
def sign (token : Token) : Kind × String :=
  (token.kind, token.value)

/-- The signs of a text, that of the end mark included. -/
def signs (text : List Char) : List (Kind × String) :=
  (scan "" .first text).map sign

theorem map_sign_scan (file : String) (position : Position) (text : List Char) :
    (scan file position text).map sign = signs text := by
  have anywhere : ∀ other place, (scan file position text).map sign =
      (scan other place text).map sign := by
    intro other place
    induction position, text using scan_induction generalizing place with
    | empty position =>
        rw [scan, scan]
        rfl
    | passed position first rest found ih =>
        rw [scan_passed found, scan_passed found]
        exact ih _
    | token position first rest kind found ih =>
        rw [scan_cut found, scan_cut found, List.map_cons, List.map_cons, ih]
        rfl
  exact anywhere "" .first

theorem signs_nil : signs [] = [(.eof, "")] := by
  rw [signs, scan]
  rfl

section Pieces

variable {first : Char} {rest letters : List Char} {kind : Kind}

theorem signs_passed (found : (lexeme first rest).kind = none) :
    signs (first :: rest) = signs rest := by
  rw [signs, scan_passed found, map_sign_scan]

theorem signs_cut (found : (lexeme first rest).kind = some kind) :
    signs (first :: rest) = (kind, valueOf kind first (rest.take (lexeme first rest).extra)) ::
      signs (rest.drop (lexeme first rest).extra) := by
  rw [signs, scan_cut found, List.map_cons, map_sign_scan]
  rfl

theorem signs_space (rest : List Char) : signs (' ' :: rest) = signs rest := by
  apply signs_passed
  cases rest <;> rfl

/-! ### Marks -/

theorem valueOf_isMark (mark : kind.isMark = true) (first : Char) (others : List Char) :
    valueOf kind first others = String.ofList (first :: others) := by
  unfold valueOf
  split
  · cases mark
  · cases mark
  · rfl

theorem signs_single (found : lexeme first rest = .single kind) (mark : kind.isMark = true) :
    signs (first :: rest) = (kind, String.ofList [first]) :: signs rest := by
  have known : (lexeme first rest).kind = some kind := by
    rw [found]
    rfl
  rw [signs_cut known, found, valueOf_isMark mark]
  rfl

def punctuation : List (Char × Kind) :=
  [('(', .lparen), (')', .rparen), ('{', .lbrace), ('}', .rbrace), ('[', .lbracket),
    (']', .rbracket), (':', .colon), (',', .comma)]

theorem signs_punctuation (known : (first, kind) ∈ punctuation) (rest : List Char) :
    signs (first :: rest) = (kind, String.ofList [first]) :: signs rest := by
  simp only [punctuation, List.mem_cons, Prod.mk.injEq, List.not_mem_nil, or_false] at known
  rcases known with ⟨rfl, rfl⟩ | ⟨rfl, rfl⟩ | ⟨rfl, rfl⟩ | ⟨rfl, rfl⟩ | ⟨rfl, rfl⟩ | ⟨rfl, rfl⟩ |
    ⟨rfl, rfl⟩ | ⟨rfl, rfl⟩ <;>
  exact signs_single (by cases rest <;> rfl) rfl

def NoEquals (text : List Char) : Prop :=
  ∀ next ∈ text.head?, next ≠ '='

theorem pair?_angle (angle : first = '<' ∨ first = '>') (apart : NoEquals rest) :
    pair? first rest = none := by
  cases rest with
  | nil => rfl
  | cons next others =>
      have different : next ≠ '=' := apart next rfl
      cases known : Kind.ofPair? first next with
      | none =>
          rw [pair?, known]
          rfl
      | some kind =>
          unfold Kind.ofPair? at known
          split at known <;> simp_all

theorem signs_less (apart : NoEquals rest) : signs ('<' :: rest) = (.less, "<") :: signs rest := by
  apply signs_single _ rfl
  have unpaired : pair? '<' rest = none := pair?_angle (Or.inl rfl) apart
  simp only [lexeme, mark?, unpaired]
  rfl

theorem signs_greater (apart : NoEquals rest) :
    signs ('>' :: rest) = (.greater, ">") :: signs rest := by
  apply signs_single _ rfl
  have unpaired : pair? '>' rest = none := pair?_angle (Or.inr rfl) apart
  simp only [lexeme, mark?, unpaired]
  rfl

theorem signs_assign (rest : List Char) :
    signs ('=' :: ' ' :: rest) = (.assign, "=") :: signs rest := by
  have found : lexeme '=' (' ' :: rest) = .single .assign := rfl
  rw [signs_single found rfl, signs_space]

theorem signs_arrow (rest : List Char) :
    signs ('-' :: '>' :: rest) = (.arrow, "->") :: signs rest :=
  signs_cut rfl

/-! ### Words -/

theorem not_isDigit_of_isWordStart (letter : isWordStart first = true) : isDigit first = false := by
  change ((decide (65 ≤ first.val ∧ first.val ≤ 90) ||
    (decide (97 ≤ first.val) && decide (first.val ≤ 122))) || first == '_') = true at letter
  simp only [Bool.or_eq_true, Bool.and_eq_true, decide_eq_true_eq, beq_iff_eq,
    UInt32.le_iff_toNat_le] at letter
  rcases letter with letter | underscore
  · have beyond : 57 < first.val.toNat := by
      change (65 ≤ first.val.toNat ∧ first.val.toNat ≤ 90) ∨
        (97 ≤ first.val.toNat ∧ first.val.toNat ≤ 122) at letter
      omega
    simp only [isDigit, Char.le_def, UInt32.le_iff_toNat_le, Bool.and_eq_false_iff,
      decide_eq_false_iff_not]
    right
    exact Nat.not_le.mpr beyond
  · rw [underscore]
    rfl

theorem isWordChar_of_isWordStart (letter : isWordStart first = true) : isWordChar first = true := by
  simp only [isWordStart, Bool.or_eq_true] at letter
  simp only [isWordChar, Char.isAlphanum, Bool.or_eq_true]
  rcases letter with letter | underscore
  · exact Or.inl (Or.inl letter)
  · exact Or.inr underscore

theorem isWordChar_of_isDigit (digit : isDigit first = true) : isWordChar first = true := by
  simp only [isWordChar, Char.isAlphanum, ← isDigit_eq, digit, Bool.or_true, Bool.true_or]

theorem lt_of_isWordChar (letter : isWordChar first = true) : first.toNat < 128 := by
  delta isWordChar Char.isAlphanum Char.isAlpha Char.isUpper Char.isLower Char.isDigit at letter
  simp only [Bool.or_eq_true, Bool.and_eq_true, decide_eq_true_eq, beq_iff_eq,
    UInt32.le_iff_toNat_le, ge_iff_le] at letter
  rcases letter with ((⟨_, high⟩ | ⟨_, high⟩) | ⟨_, high⟩) | rfl
  · exact Nat.lt_of_le_of_lt high (by decide)
  · exact Nat.lt_of_le_of_lt high (by decide)
  · exact Nat.lt_of_le_of_lt high (by decide)
  · decide

theorem mark?_of_isWordChar (letter : isWordChar first = true) (rest : List Char) :
    mark? first rest = none := by
  have pairs : pair? first rest = none := by
    cases rest with
    | nil => rfl
    | cons next others =>
        cases known : Kind.ofPair? first next with
        | none =>
            rw [pair?, known]
            rfl
        | some kind =>
            unfold Kind.ofPair? at known
            split at known <;> cases known <;> cases letter
  have dots : ellipsis? first rest = none := by
    unfold ellipsis?
    split
    · cases letter
    · rfl
  have symbols : Kind.ofSymbol? first = none := by
    cases known : Kind.ofSymbol? first with
    | none => rfl
    | some kind =>
        unfold Kind.ofSymbol? at known
        split at known <;> cases known <;> cases letter
  have marks : Kind.ofChar? first = none := by
    cases known : Kind.ofChar? first with
    | none => rfl
    | some kind =>
        unfold Kind.ofChar? at known
        split at known <;> cases known <;> cases letter
  rw [mark?, pairs, dots, symbols, marks]
  rfl

theorem lexeme_of_isWordStart (letter : isWordStart first = true) (rest : List Char) :
    lexeme first rest = ⟨some (Kind.ofPlainWord (String.ofList (first :: rest.takeWhile isWordChar))),
      (rest.takeWhile isWordChar).length⟩ := by
  have apart : ∀ other, isWordStart other = false → first ≠ other := by
    rintro other unlike rfl
    rw [letter] at unlike
    cases unlike
  have dashes : dashes? first rest = none := by
    unfold dashes?
    split
    · cases letter
    · rfl
  have word : word? first rest =
      some ⟨some (Kind.ofPlainWord (String.ofList (first :: rest.takeWhile isWordChar))),
        (rest.takeWhile isWordChar).length⟩ := by
    simp only [word?, if_neg (apart '@' rfl), not_isDigit_of_isWordStart letter,
      Bool.false_eq_true, if_false, letter, if_true]
  rw [lexeme, if_neg (apart '\n' rfl), if_neg (apart '#' rfl), if_neg (apart '"' rfl),
    if_neg (apart '\x27' rfl), dashes,
    mark?_of_isWordChar (isWordChar_of_isWordStart letter), word]
  rfl

theorem lexeme_atSign (rest : List Char) :
    lexeme '@' rest = ⟨some (Kind.ofAtWord (String.ofList ('@' :: rest.takeWhile isWordChar))),
      (rest.takeWhile isWordChar).length⟩ := by
  cases rest <;> rfl

/-- Characters before which every word ends. -/
def EndsWord (text : List Char) : Prop :=
  ∀ next ∈ text.head?, isWordChar next = false

theorem endsWord_nil : EndsWord [] := by
  intro next member
  cases member

theorem takeWhile_ended {run : Char → Bool} (all : ∀ letter ∈ letters, run letter = true)
    (stops : ∀ next ∈ rest.head?, run next = false) :
    (letters ++ rest).takeWhile run = letters := by
  have none : rest.takeWhile run = [] := by
    cases rest with
    | nil => rfl
    | cons next others => exact List.takeWhile_cons_of_neg (ne_true_of_eq_false (stops next rfl))
  rw [List.takeWhile_append_of_pos all, none, List.append_nil]

theorem valueOf_isWord (word : kind.isWord = true) (first : Char) (others : List Char) :
    valueOf kind first others = String.ofList (first :: others) := by
  unfold valueOf
  split
  · cases word
  · cases word
  · rfl

/-- A word of this kind, which ends where the characters of words end. -/
structure WordOf (kind : Kind) (first : Char) (letters : List Char) : Prop where
  run : ∀ letter ∈ letters, isWordChar letter = true
  spelled : Spelled first letters kind

theorem takeWhile_letters (run : ∀ letter ∈ letters, isWordChar letter = true) :
    letters.takeWhile isWordChar = letters := by
  have whole := takeWhile_ended run endsWord_nil
  rw [List.append_nil] at whole
  exact whole

theorem Spelled.wordOf (spelled : Spelled first rest kind) :
    WordOf kind first (rest.takeWhile isWordChar) := by
  have run : ∀ letter ∈ rest.takeWhile isWordChar, isWordChar letter = true :=
    List.all_eq_true.mp List.all_takeWhile
  refine ⟨run, ?_⟩
  rw [Spelled, takeWhile_letters run]
  exact spelled

theorem WordOf.lexeme_eq (word : WordOf kind first letters) (stops : EndsWord rest) :
    lexeme first (letters ++ rest) = ⟨some kind, letters.length⟩ := by
  have run := takeWhile_ended word.run stops
  have whole := takeWhile_letters word.run
  rcases word.spelled with ⟨rfl, same⟩ | ⟨letter, same⟩
  · rw [whole] at same
    rw [lexeme_atSign, run, ← same]
  · rw [whole] at same
    rw [lexeme_of_isWordStart letter, run, ← same]

theorem WordOf.signs_eq (word : WordOf kind first letters) (stops : EndsWord rest) :
    signs (first :: letters ++ rest) = (kind, String.ofList (first :: letters)) :: signs rest := by
  have found := word.lexeme_eq stops
  have known : (lexeme first (letters ++ rest)).kind = some kind := by rw [found]
  rw [List.cons_append, signs_cut known, found, List.take_left, List.drop_left,
    valueOf_isWord word.spelled.isWord]

end Pieces

/-! ### Names -/

/-- A text that is spelled as an identifier. -/
def IsName (name : String) : Prop :=
  ∃ first letters, name.toList = first :: letters ∧ WordOf .identifier first letters

theorem IsName.signs_eq {name : String} (named : IsName name) {rest : List Char}
    (stops : EndsWord rest) : signs (name.toList ++ rest) = (.identifier, name) :: signs rest := by
  obtain ⟨first, letters, text, word⟩ := named
  rw [text, word.signs_eq stops, ← text, String.ofList_toList]

theorem IsName.not_isEmpty {name : String} (named : IsName name) : name.isEmpty = false := by
  obtain ⟨first, letters, text, _⟩ := named
  cases empty : name.isEmpty with
  | false => rfl
  | true =>
      rw [String.isEmpty_iff] at empty
      rw [empty] at text
      cases text

theorem IsName.noEquals {name : String} (named : IsName name) (rest : List Char) :
    NoEquals (name.toList ++ rest) := by
  obtain ⟨first, letters, text, word⟩ := named
  rw [text]
  intro next member
  cases member
  rintro rfl
  rcases word.spelled with ⟨sign, _⟩ | ⟨letter, _⟩
  · cases sign
  · cases letter

theorem IsName.ne_unit {name : String} (named : IsName name) : name ≠ "()" := by
  rintro rfl
  obtain ⟨first, letters, text, word⟩ := named
  cases text
  rcases word.spelled with ⟨sign, _⟩ | ⟨letter, _⟩
  · cases sign
  · cases letter

theorem IsName.not_keyword {name : String} (named : IsName name) :
    name ∉ Kind.atWords.map Prod.fst ∧ name ∉ Kind.plainWords.map Prod.fst := by
  obtain ⟨first, letters, text, word⟩ := named
  have apart := word.spelled.not_keyword
  rwa [takeWhile_letters word.run, ← text, String.ofList_toList] at apart

/-- Every identifier of a text is a name. -/
theorem isName_of_mem_tokenize {source file : String} {token : Token}
    (member : token ∈ tokenize source file) (identifier : token.kind = .identifier) :
    IsName token.value := by
  obtain ⟨before, first, rest, place⟩ := exists_cutAt member (by rw [identifier]; decide)
  have found := place.found
  have value := place.value
  have runs : token.kind.run? = some isWordChar := by
    rw [identifier]
    rfl
  rw [identifier] at found value
  rw [(place.divided_at_run runs).1] at value
  refine ⟨first, rest.takeWhile isWordChar, ?_, (spelled_of_identifier found).wordOf⟩
  rw [value]
  exact String.toList_ofList

/-- The names are what identifiers hold: a name by itself is cut into one identifier. -/
theorem isName_iff {name : String} :
    IsName name ↔ ∃ source file, ∃ token ∈ tokenize source file,
      token.kind = .identifier ∧ token.value = name := by
  constructor
  · intro named
    have whole := named.signs_eq endsWord_nil
    rw [List.append_nil, ← map_sign_scan "" .first] at whole
    obtain ⟨token, rest, split, here, _⟩ := List.map_eq_cons_iff.mp whole
    obtain ⟨kind, value⟩ := Prod.mk.inj here
    refine ⟨name, "", token, ?_, kind, value⟩
    rw [tokenize, split]
    exact List.mem_cons_self
  · rintro ⟨source, file, token, member, kind, rfl⟩
    exact isName_of_mem_tokenize member kind

end SageNotation.Token
