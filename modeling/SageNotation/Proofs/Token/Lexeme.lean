import SageNotation.Token.Scan

/-!
What a token may look like at its first character.

`Recognized` lists the ways in which a lexeme is found, with what each of them
says about the characters ahead; `recognized_lexeme` puts every lexeme under one
of them.  The kinds fall into words, marks and those with a rule of their own,
and `Kind.run?` gives the characters over which a token of a kind goes on as far
as it can.
-/

namespace SageNotation

theorem mem_of_lookup {α : Type} {table : List (String × α)} {name : String} {value : α}
    (found : table.lookup name = some value) : (name, value) ∈ table := by
  obtain ⟨before, after, same, _⟩ := List.lookup_eq_some_iff.mp found
  rw [same]
  exact List.mem_append_right before List.mem_cons_self

namespace Kind

def isWord : Kind → Bool
  | declare _ | clause _ | inferred _ | plain _ | identifier => true
  | _ => false

def isMark : Kind → Bool
  | declare _ | clause _ | inferred _ | plain _ | string | number | identifier => false
  | dash3 | comment | newline | eof => false
  | _ => true

/-- The characters over which a token of this kind goes on for as long as they
last. -/
def run? : Kind → Option (Char → Bool)
  | declare _ | clause _ | inferred _ | plain _ | identifier => some Token.isWordChar
  | number => some Token.isNumberChar
  | dash3 => some (· == '-')
  | comment => some (· != '\n')
  | _ => none

theorem run?_of_isWord {kind : Kind} (word : kind.isWord = true) :
    kind.run? = some Token.isWordChar := by
  cases kind <;> cases word <;> rfl

theorem run?_of_isMark {kind : Kind} (mark : kind.isMark = true) : kind.run? = none := by
  cases kind <;> cases mark <;> rfl

theorem isMark_of_ofPair? {first second : Char} {kind : Kind}
    (known : ofPair? first second = some kind) : kind.isMark = true := by
  unfold ofPair? at known
  split at known <;> cases known <;> rfl

theorem isMark_of_ofSymbol? {character : Char} {kind : Kind}
    (known : ofSymbol? character = some kind) : kind.isMark = true := by
  unfold ofSymbol? at known
  split at known <;> cases known <;> rfl

theorem isMark_of_ofChar? {character : Char} {kind : Kind}
    (known : ofChar? character = some kind) : kind.isMark = true := by
  unfold ofChar? at known
  split at known <;> cases known <;> rfl

theorem isWord_ofAtWord (word : String) : (ofAtWord word).isWord = true := by
  have keywords : ∀ entry ∈ atWords, entry.2.isWord = true := by decide
  unfold ofAtWord
  cases found : atWords.lookup word with
  | none => rfl
  | some kind => exact keywords _ (mem_of_lookup found)

theorem isWord_ofPlainWord (word : String) : (ofPlainWord word).isWord = true := by
  have keywords : ∀ entry ∈ plainWords, entry.2.isWord = true := by decide
  unfold ofPlainWord
  cases found : plainWords.lookup word with
  | none => rfl
  | some kind => exact keywords _ (mem_of_lookup found)

/-- A spelling of a table whose kinds are all keywords is no identifier. -/
theorem not_mem_of_lookup_identifier {words : List (String × Kind)} {word : String}
    (keywords : ∀ entry ∈ words, entry.2 ≠ identifier)
    (unknown : (words.lookup word).getD identifier = identifier) :
    word ∉ words.map Prod.fst := by
  intro member
  obtain ⟨entry, within, same⟩ := List.mem_map.mp member
  cases found : words.lookup word with
  | none =>
      have apart := List.lookup_eq_none_iff.mp found entry within
      rw [same, bne_self_eq_false] at apart
      cases apart
  | some kind =>
      rw [found] at unknown
      exact keywords _ (mem_of_lookup found) unknown

end Kind

namespace Token

/-- A character with which some token starts. -/
def startsToken (character : Char) : Bool :=
  character == '\n' || character == '#' || character == '"' || character == '\x27' ||
    character == '@' || isWordChar character || (Kind.ofSymbol? character).isSome ||
    (Kind.ofChar? character).isSome

theorem isDigit_eq (character : Char) : isDigit character = character.isDigit := rfl

/-- The kind that its spelling gives to the word that starts with `first`. -/
def Spelled (first : Char) (rest : List Char) (kind : Kind) : Prop :=
  (first = '@' ∧ kind = Kind.ofAtWord (String.ofList (first :: rest.takeWhile isWordChar))) ∨
    (isWordStart first = true ∧
      kind = Kind.ofPlainWord (String.ofList (first :: rest.takeWhile isWordChar)))

theorem Spelled.isWord {first : Char} {rest : List Char} {kind : Kind}
    (spelled : Spelled first rest kind) : kind.isWord = true := by
  rcases spelled with ⟨_, same⟩ | ⟨_, same⟩
  · rw [same]
    exact Kind.isWord_ofAtWord _
  · rw [same]
    exact Kind.isWord_ofPlainWord _

theorem Spelled.not_keyword {first : Char} {rest : List Char}
    (spelled : Spelled first rest .identifier) :
    String.ofList (first :: rest.takeWhile isWordChar) ∉ Kind.atWords.map Prod.fst ∧
      String.ofList (first :: rest.takeWhile isWordChar) ∉ Kind.plainWords.map Prod.fst := by
  have atKeywords : ∀ entry ∈ Kind.atWords, entry.2 ≠ .identifier := by decide
  have plainKeywords : ∀ entry ∈ Kind.plainWords, entry.2 ≠ .identifier := by decide
  have withSign : ∀ word ∈ Kind.atWords.map Prod.fst, word.toList.head? = some '@' := by decide
  have withoutSign : ∀ word ∈ Kind.plainWords.map Prod.fst, word.toList.head? ≠ some '@' := by
    decide
  rcases spelled with ⟨sign, same⟩ | ⟨letter, same⟩
  · refine ⟨Kind.not_mem_of_lookup_identifier atKeywords same.symm, ?_⟩
    intro member
    apply withoutSign _ member
    rw [String.toList_ofList, sign]
    rfl
  · refine ⟨?_, Kind.not_mem_of_lookup_identifier plainKeywords same.symm⟩
    intro member
    have sign := withSign _ member
    rw [String.toList_ofList, List.head?_cons] at sign
    rw [Option.some.inj sign] at letter
    cases letter

/-- How a lexeme is found at `first`, with `rest` ahead. -/
inductive Recognized (first : Char) (rest : List Char) : Lexeme → Prop where
  | newline (here : first = '\n') : Recognized first rest (.single .newline)
  | comment (here : first = '#') :
      Recognized first rest ⟨some .comment, (rest.takeWhile (· != '\n')).length⟩
  | string (here : first = '"') : Recognized first rest ⟨some .string, stringExtent rest⟩
  | prime (here : first = '\x27') : Recognized first rest (.single .prime)
  | dashes (here : first = '-') :
      Recognized first rest ⟨some .dash3, (rest.takeWhile (· == '-')).length⟩
  | mark (kind : Kind) (extra : Nat) (fixed : kind.isMark = true)
      (here : mark? first rest = some ⟨some kind, extra⟩) : Recognized first rest ⟨some kind, extra⟩
  | word (kind : Kind) (spelled : Spelled first rest kind) :
      Recognized first rest ⟨some kind, (rest.takeWhile isWordChar).length⟩
  | number (here : isDigit first = true) :
      Recognized first rest ⟨some .number, (rest.takeWhile isNumberChar).length⟩
  | skipped (here : startsToken first = false) : Recognized first rest .skipped

theorem recognized_of_dashes {first : Char} {rest : List Char} {found : Lexeme}
    (dashes : dashes? first rest = some found) : Recognized first rest found := by
  unfold dashes? at dashes
  split at dashes
  · rw [← Option.some.inj dashes]
    exact .dashes rfl
  · cases dashes

theorem isMark_of_pair {first : Char} {rest : List Char} {found : Lexeme}
    (pair : pair? first rest = some found) : ∃ kind, found.kind = some kind ∧ kind.isMark = true := by
  cases rest with
  | nil => cases pair
  | cons second others =>
      obtain ⟨kind, known, same⟩ := Option.map_eq_some_iff.mp pair
      rw [← same]
      exact ⟨kind, rfl, Kind.isMark_of_ofPair? known⟩

theorem isMark_of_ellipsis {first : Char} {rest : List Char} {found : Lexeme}
    (dots : ellipsis? first rest = some found) :
    ∃ kind, found.kind = some kind ∧ kind.isMark = true := by
  unfold ellipsis? at dots
  split at dots
  · rw [← Option.some.inj dots]
    exact ⟨.ellipsis, rfl, rfl⟩
  · cases dots

theorem isMark_of_mark {first : Char} {rest : List Char} {found : Lexeme}
    (mark : mark? first rest = some found) : ∃ kind, found.kind = some kind ∧ kind.isMark = true := by
  simp only [mark?, Option.orElse_eq_or, Option.or_eq_some_iff, Option.map_eq_some_iff] at mark
  rcases mark with pair | ⟨_, dots | ⟨_, kind, known, same⟩⟩
  · exact isMark_of_pair pair
  · exact isMark_of_ellipsis dots
  · rw [← same]
    rcases known with symbol | ⟨_, punctuation⟩
    · exact ⟨kind, rfl, Kind.isMark_of_ofSymbol? symbol⟩
    · exact ⟨kind, rfl, Kind.isMark_of_ofChar? punctuation⟩

theorem recognized_of_mark {first : Char} {rest : List Char} {found : Lexeme}
    (mark : mark? first rest = some found) : Recognized first rest found := by
  obtain ⟨kind, known, fixed⟩ := isMark_of_mark mark
  obtain ⟨_, extra⟩ := found
  cases known
  exact .mark kind extra fixed mark

theorem recognized_of_word {first : Char} {rest : List Char} {found : Lexeme}
    (word : word? first rest = some found) : Recognized first rest found := by
  simp only [word?] at word
  split at word
  · rename_i here
    rw [← Option.some.inj word]
    exact .word _ (Or.inl ⟨here, rfl⟩)
  · split at word
    · rename_i here
      rw [← Option.some.inj word]
      exact .number here
    · split at word
      · rename_i here
        rw [← Option.some.inj word]
        exact .word _ (Or.inr ⟨here, rfl⟩)
      · cases word

/-- A character that opens neither a mark nor a word, and is not one of the four
with a rule of their own, starts no token. -/
theorem not_startsToken {first : Char} {rest : List Char} (newline : first ≠ '\n')
    (hash : first ≠ '#') (quote : first ≠ '"') (apostrophe : first ≠ '\x27')
    (mark : mark? first rest = none) (word : word? first rest = none) :
    startsToken first = false := by
  simp only [mark?, Option.orElse_eq_or, Option.or_eq_none_iff, Option.map_eq_none_iff] at mark
  obtain ⟨_, _, symbol, punctuation⟩ := mark
  simp only [word?] at word
  split at word
  · cases word
  · rename_i atSign
    split at word
    · cases word
    · rename_i digit
      split at word
      · cases word
      · rename_i letter
        have noWord : isWordChar first = false := by
          simp only [isWordStart, isDigit_eq, Bool.or_eq_true, not_or, Bool.not_eq_true] at digit letter
          simp only [isWordChar, Char.isAlphanum, letter, digit, Bool.or_self]
        simp only [startsToken, beq_eq_false_iff_ne.mpr newline, beq_eq_false_iff_ne.mpr hash,
          beq_eq_false_iff_ne.mpr quote, beq_eq_false_iff_ne.mpr apostrophe,
          beq_eq_false_iff_ne.mpr atSign, noWord, symbol, punctuation, Option.isSome_none,
          Bool.or_self]

theorem recognized_lexeme (first : Char) (rest : List Char) :
    Recognized first rest (lexeme first rest) := by
  unfold lexeme
  split
  · rename_i here
    exact .newline here
  · rename_i newline
    split
    · rename_i here
      exact .comment here
    · rename_i hash
      split
      · rename_i here
        exact .string here
      · rename_i quote
        split
        · rename_i here
          exact .prime here
        · rename_i apostrophe
          simp only [Option.orElse_eq_or]
          cases dashes : dashes? first rest with
          | some found => exact recognized_of_dashes dashes
          | none =>
              cases mark : mark? first rest with
              | some found => exact recognized_of_mark mark
              | none =>
                  cases word : word? first rest with
                  | some found => exact recognized_of_word word
                  | none =>
                      exact .skipped (not_startsToken newline hash quote apostrophe mark word)

theorem take_length_takeWhile (run : Char → Bool) (text : List Char) :
    text.take (text.takeWhile run).length = text.takeWhile run :=
  (List.prefix_iff_eq_take.mp (List.takeWhile_prefix run)).symm

theorem drop_length_takeWhile (run : Char → Bool) (text : List Char) :
    text.drop (text.takeWhile run).length = text.dropWhile run := by
  have split : (text.takeWhile run ++ text.dropWhile run).drop (text.takeWhile run).length =
      text.dropWhile run := List.drop_left
  rw [List.takeWhile_append_dropWhile] at split
  exact split

/-! ### What a kind says about the characters of its token -/

section Kinds

variable {first : Char} {rest : List Char} {kind : Kind}

theorem recognized_kind (found : (lexeme first rest).kind = some kind) :
    ∃ extra, (lexeme first rest).extra = extra ∧ Recognized first rest ⟨some kind, extra⟩ := by
  have recognized := recognized_lexeme first rest
  refine ⟨(lexeme first rest).extra, rfl, ?_⟩
  rw [← found]
  exact recognized

theorem kind_ne_eof (found : (lexeme first rest).kind = some kind) : kind ≠ .eof := by
  intro same
  subst same
  obtain ⟨_, _, recognized⟩ := recognized_kind found
  cases recognized with
  | mark _ _ fixed => cases fixed
  | word _ spelled => cases spelled.isWord

/-- A token of a kind with a run of its own takes that run as far as it goes. -/
theorem extra_of_run {run : Char → Bool} (found : (lexeme first rest).kind = some kind)
    (runs : kind.run? = some run) : (lexeme first rest).extra = (rest.takeWhile run).length := by
  obtain ⟨_, length, recognized⟩ := recognized_kind found
  cases recognized with
  | mark _ _ fixed =>
      rw [Kind.run?_of_isMark fixed] at runs
      cases runs
  | word _ spelled =>
      rw [Kind.run?_of_isWord spelled.isWord] at runs
      cases runs
      exact length
  | newline | string | prime => cases runs
  | comment | dashes | number =>
      cases runs
      exact length

theorem divided_by_run {run : Char → Bool} (found : (lexeme first rest).kind = some kind)
    (runs : kind.run? = some run) :
    rest.take (lexeme first rest).extra = rest.takeWhile run ∧
      rest.drop (lexeme first rest).extra = rest.dropWhile run := by
  rw [extra_of_run found runs]
  exact ⟨take_length_takeWhile run rest, drop_length_takeWhile run rest⟩

theorem extra_of_newline (found : (lexeme first rest).kind = some .newline) :
    (lexeme first rest).extra = 0 := by
  obtain ⟨_, length, recognized⟩ := recognized_kind found
  cases recognized with
  | newline => exact length
  | mark _ _ fixed => cases fixed
  | word _ spelled => cases spelled.isWord

theorem extra_of_string (found : (lexeme first rest).kind = some .string) :
    first = '"' ∧ (lexeme first rest).extra = stringExtent rest := by
  obtain ⟨_, length, recognized⟩ := recognized_kind found
  cases recognized with
  | string here => exact ⟨here, length⟩
  | mark _ _ fixed => cases fixed
  | word _ spelled => cases spelled.isWord

theorem spelled_of_isWord (found : (lexeme first rest).kind = some kind)
    (word : kind.isWord = true) : Spelled first rest kind := by
  obtain ⟨_, _, recognized⟩ := recognized_kind found
  cases recognized with
  | mark _ _ fixed => cases kind <;> cases word <;> cases fixed
  | word _ spelled => exact spelled
  | newline | comment | string | prime | dashes | number => cases word

theorem spelled_of_identifier (found : (lexeme first rest).kind = some .identifier) :
    Spelled first rest .identifier :=
  spelled_of_isWord found rfl

theorem passed_over (found : (lexeme first rest).kind = none) :
    startsToken first = false ∧ (lexeme first rest).extra = 0 := by
  have recognized := recognized_lexeme first rest
  generalize lexeme first rest = lexed at recognized found
  cases recognized with
  | skipped here => exact ⟨here, rfl⟩
  | newline | comment | string | prime | dashes | mark | word | number => cases found

end Kinds

end Token

end SageNotation
