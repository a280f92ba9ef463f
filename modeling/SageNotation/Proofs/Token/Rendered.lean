import SageNotation.Proofs.Prose.Words
import SageNotation.Proofs.Token.Breaks
import SageNotation.Proofs.Token.Spelling

/-!
The readable text of a run of tokens, scanned again.

In that text a space or the end follows every token, and neither goes on with a
word, a number, dashes or a mark (`readsBack_of_mem`).  A string is put between
quotes as it is, so it is read back when it holds no quote and no backslash, and
never otherwise: a quote closes it too early, and a backslash is lost unless
another one follows, which shifts the rest of the string against itself down to
the closing quote (`stringContent_ne_backslashes`).
-/

namespace SageNotation.Token

open Text

/-- What comes after a token in a readable text: a space, or nothing. -/
def StartsGap (text : List Char) : Prop :=
  ∀ next ∈ text.head?, next = ' '

theorem startsGap_cases {text : List Char} (gap : StartsGap text) :
    text = [] ∨ ∃ rest, text = ' ' :: rest := by
  cases text with
  | nil => exact Or.inl rfl
  | cons next rest =>
      have space : next = ' ' := gap next rfl
      exact Or.inr ⟨rest, by rw [space]⟩

theorem StartsGap.stops {text : List Char} {run : Char → Bool} (gap : StartsGap text)
    (space : run ' ' = false) : ∀ next ∈ text.head?, run next = false := by
  intro next member
  rw [gap next member]
  exact space

/-! ### Lexemes in front of a gap -/

section Gap

variable {first : Char} {rest back : List Char} {kind : Kind}

theorem mark_before_gap {found : Lexeme} (mark : mark? first rest = some found)
    (gap : StartsGap back) :
    lexeme first (rest.take found.extra ++ back) =
      ⟨found.kind, (rest.take found.extra).length⟩ := by
  simp only [mark?, Option.orElse_eq_or, Option.or_eq_some_iff, Option.map_eq_some_iff] at mark
  rcases mark with pair | ⟨_, dots | ⟨_, kind, known, same⟩⟩
  · cases rest with
    | nil => cases pair
    | cons second others =>
        obtain ⟨kind, known, same⟩ := Option.map_eq_some_iff.mp pair
        rw [← same]
        unfold Kind.ofPair? at known
        split at known <;> cases known <;> rfl
  · rw [ellipsis?_eq] at dots
    split at dots
    · rename_i twice
      obtain ⟨others, split⟩ := starts_twice twice.2
      cases dots
      rw [split, twice.1]
      rfl
    · cases dots
  · rw [← same]
    change lexeme first back = _
    rcases known with symbol | ⟨_, punctuation⟩
    · unfold Kind.ofSymbol? at symbol
      rcases startsGap_cases gap with rfl | ⟨rest, rfl⟩ <;> split at symbol <;> cases symbol <;> rfl
    · unfold Kind.ofChar? at punctuation
      rcases startsGap_cases gap with rfl | ⟨rest, rfl⟩ <;> split at punctuation <;>
        cases punctuation <;> rfl

theorem dashes_before_gap (found : (lexeme '-' rest).kind = some .dash3) (gap : StartsGap back) :
    lexeme '-' (rest.takeWhile (· == '-') ++ back) =
      ⟨some .dash3, (rest.takeWhile (· == '-')).length⟩ := by
  have whole : (rest.takeWhile (· == '-') ++ back).takeWhile (· == '-') =
      rest.takeWhile (· == '-') :=
    takeWhile_ended (List.all_eq_true.mp List.all_takeWhile) (gap.stops rfl)
  have long : 2 ≤ (rest.takeWhile (· == '-')).length := by
    by_contra short
    have noDashes : dashes? '-' rest = none := by
      rw [dashes?_eq, if_neg fun both => short both.2]
    change ((((dashes? '-' rest).orElse fun _ => (mark? '-' rest).orElse fun _ =>
      word? '-' rest)).getD .skipped).kind = _ at found
    rw [noDashes] at found
    cases mark : mark? '-' rest with
    | none =>
        rw [mark] at found
        cases found
    | some lexed =>
        rw [mark] at found
        obtain ⟨kind, known, fixed⟩ := isMark_of_mark mark
        rw [show lexed.kind = some .dash3 from found] at known
        cases known
        cases fixed
  have dashes : dashes? '-' (rest.takeWhile (· == '-') ++ back) =
      some ⟨some .dash3, (rest.takeWhile (· == '-')).length⟩ := by
    rw [dashes?_eq, whole, if_pos ⟨rfl, long⟩]
  change ((dashes? '-' _).orElse fun _ => _).getD .skipped = _
  rw [dashes]
  rfl

theorem lexeme_of_isDigit (digit : isDigit first = true) (rest : List Char) :
    lexeme first rest = ⟨some .number, (rest.takeWhile isNumberChar).length⟩ := by
  have apart : ∀ other, isDigit other = false → first ≠ other := by
    rintro other unlike rfl
    rw [digit] at unlike
    cases unlike
  have dashes : dashes? first rest = none := by
    rw [dashes?_eq, if_neg fun both => apart '-' rfl both.1]
  have word : word? first rest = some ⟨some .number, (rest.takeWhile isNumberChar).length⟩ := by
    simp only [word?, if_neg (apart '@' rfl), digit, if_true]
  rw [lexeme, if_neg (apart '\n' rfl), if_neg (apart '#' rfl), if_neg (apart '"' rfl),
    if_neg (apart '\x27' rfl), dashes, mark?_of_isWordChar (isWordChar_of_isDigit digit), word]
  rfl

/-- The characters of a token that needs no newline to end it make the same token in front
of a gap. -/
theorem lexeme_before_gap (found : (lexeme first rest).kind = some kind) (string : kind ≠ .string)
    (comment : kind ≠ .comment) (gap : StartsGap back) :
    lexeme first (rest.take (lexeme first rest).extra ++ back) =
      ⟨some kind, (rest.take (lexeme first rest).extra).length⟩ := by
  obtain ⟨extra, length, recognized⟩ := recognized_kind found
  cases recognized with
  | newline here =>
      rw [length, here]
      rfl
  | comment => exact absurd rfl comment
  | string => exact absurd rfl string
  | prime here =>
      rw [length, here]
      rfl
  | dashes here =>
      subst here
      rw [(divided_by_run found rfl).1]
      exact dashes_before_gap found gap
  | mark _ _ fixed here =>
      rw [length]
      exact mark_before_gap here gap
  | word _ spelled =>
      rw [(divided_by_run found (Kind.run?_of_isWord spelled.isWord)).1]
      exact spelled.wordOf.lexeme_eq (gap.stops rfl)
  | number here =>
      have all := List.all_eq_true.mp (List.all_takeWhile (p := isNumberChar) (l := rest))
      rw [(divided_by_run found rfl).1, lexeme_of_isDigit here,
        takeWhile_ended all (gap.stops rfl)]

end Gap

/-! ### Strings between quotes -/

theorem stringContent_take (text : List Char) :
    stringContent (text.take (stringExtent text)) = stringContent text := by
  fun_induction stringExtent text with
  | case1 => rfl
  | case2 rest => rfl
  | case3 character rest ih =>
      rw [List.take_succ_cons, List.take_succ_cons, stringContent, stringContent, ih]
  | case4 character rest notQuote notEscape ih =>
      rw [List.take_succ_cons]
      by_cases backslash : character = '\\'
      · cases rest with
        | nil => rfl
        | cons next others => exact absurd rfl (notEscape next others backslash)
      · rw [stringContent_plain _ notQuote backslash, stringContent_plain _ notQuote backslash, ih]

def Unescaped (value : List Char) : Prop :=
  '"' ∉ value ∧ '\\' ∉ value

theorem Unescaped.extent {value : List Char} (plain : Unescaped value) (back : List Char) :
    stringExtent (value ++ '"' :: back) = value.length + 1 := by
  induction value with
  | nil => rfl
  | cons character rest ih =>
      obtain ⟨notQuote, noQuote⟩ := List.ne_and_not_mem_of_not_mem_cons plain.1
      obtain ⟨notBackslash, noBackslash⟩ := List.ne_and_not_mem_of_not_mem_cons plain.2
      rw [List.cons_append, stringExtent_plain _ notQuote.symm notBackslash.symm,
        ih ⟨noQuote, noBackslash⟩, List.length_cons]

theorem stringContent_ne_backslashes (text back : List Char) (count : Nat) :
    stringContent (text ++ '"' :: back) ≠ List.replicate (count + 1) '\\' ++ text := by
  fun_induction unescaped text generalizing count with
  | case1 => exact nofun
  | case2 => exact fun same => absurd (List.head_eq_of_cons_eq same) (by decide)
  | case3 character rest ih =>
      intro same
      have next : character = '\\' := List.head_eq_of_cons_eq same
      have further : stringContent (rest ++ '"' :: back) =
          List.replicate count '\\' ++ '\\' :: character :: rest := List.tail_eq_of_cons_eq same
      apply ih (count + 1)
      rw [further, next, List.replicate_succ', List.replicate_succ']
      simp only [List.append_assoc, List.cons_append, List.nil_append]
  | case4 character rest notEnd notEscape ih =>
      intro same
      have notBackslash : character ≠ '\\' := by
        intro backslash
        cases rest with
        | nil => exact notEnd backslash rfl
        | cons next others => exact notEscape next others backslash rfl
      by_cases quote : character = '"'
      · rw [quote] at same
        exact nomatch same
      · rw [List.cons_append, stringContent_plain _ quote notBackslash] at same
        exact notBackslash (List.head_eq_of_cons_eq same)

theorem unescaped_cons {character : Char} {rest : List Char} (notQuote : character ≠ '"')
    (notBackslash : character ≠ '\\') : Unescaped (character :: rest) ↔ Unescaped rest := by
  simp only [Unescaped, List.mem_cons, notQuote.symm, notBackslash.symm, false_or]

/-- A value is read back from between quotes exactly when it needs no escapes. -/
theorem stringContent_eq_iff (value back : List Char) :
    stringContent (value ++ '"' :: back) = value ↔ Unescaped value := by
  induction value with
  | nil => exact iff_of_true rfl ⟨List.not_mem_nil, List.not_mem_nil⟩
  | cons character rest ih =>
      by_cases quote : character = '"'
      · subst quote
        exact iff_of_false nofun fun plain => plain.1 List.mem_cons_self
      · by_cases backslash : character = '\\'
        · subst backslash
          refine iff_of_false ?_ fun plain => plain.2 List.mem_cons_self
          cases rest with
          | nil => exact fun same => absurd (List.head_eq_of_cons_eq same) (by decide)
          | cons next others =>
              intro same
              have here : next = '\\' := List.head_eq_of_cons_eq same
              have further : stringContent (others ++ '"' :: back) = next :: others :=
                List.tail_eq_of_cons_eq same
              rw [here] at further
              exact stringContent_ne_backslashes others back 0 further
        · rw [List.cons_append, stringContent_plain _ quote backslash, List.cons_inj_right, ih,
            unescaped_cons quote backslash]

/-! ### Signs of a rendered run -/

/-- The token is no string, or one whose value stands between quotes as it is. -/
def Plain (token : Token) : Prop :=
  token.kind = .string → Unescaped token.value.toList

/-- The text of the token is read as the token, wherever it stands before a gap. -/
def ReadsBack (token : Token) : Prop :=
  ∀ rest, StartsGap rest → signs (token.text.toList ++ rest) = sign token :: signs rest

theorem signs_string (text : List Char) :
    signs ('"' :: text) =
      (.string, String.ofList (stringContent text)) :: signs (text.drop (stringExtent text)) := by
  have found : lexeme '"' text = ⟨some .string, stringExtent text⟩ := rfl
  have known : (lexeme '"' text).kind = some .string := rfl
  rw [signs_cut known, found]
  change (_, String.ofList (stringContent (text.take (stringExtent text)))) :: _ = _
  rw [stringContent_take]

/-- A string is read from its opening quote on, whatever its value holds. -/
theorem signs_text_of_string {token : Token} (string : token.kind = .string) (rest : List Char) :
    signs (token.text.toList ++ rest) =
      (.string, String.ofList (stringContent (token.value.toList ++ '"' :: rest))) ::
        signs ((token.value.toList ++ '"' :: rest).drop
          (stringExtent (token.value.toList ++ '"' :: rest))) := by
  rw [toList_text_of_string string, List.cons_append, List.append_assoc, List.singleton_append,
    signs_string]

theorem readsBack_of_string {token : Token} (string : token.kind = .string)
    (plain : Unescaped token.value.toList) : ReadsBack token := by
  intro rest _
  rw [signs_text_of_string string, (stringContent_eq_iff _ _).mpr plain, plain.extent,
    String.ofList_toList, ← List.drop_drop, List.drop_left, sign, string]
  rfl

theorem readsBack_of_mem {source file : String} {token : Token}
    (member : token ∈ tokenize source file) (significant : token.isSignificant = true)
    (plain : Plain token) : ReadsBack token := by
  by_cases string : token.kind = .string
  · exact readsBack_of_string string (plain string)
  · obtain ⟨before, first, others, place⟩ := exists_cutAt member (by
      intro marked
      rw [isSignificant, marked] at significant
      cases significant)
    have comment : token.kind ≠ .comment := by
      intro comment
      rw [isSignificant, comment] at significant
      cases significant
    have value : token.value = String.ofList (first :: others.take (lexeme first others).extra) := by
      rw [place.value]
      unfold valueOf
      split
      · rename_i same
        exact absurd same comment
      · rename_i same
        exact absurd same string
      · rfl
    intro rest gap
    have found := lexeme_before_gap place.found string comment gap
    have known : (lexeme first (others.take (lexeme first others).extra ++ rest)).kind =
        some token.kind := by rw [found]
    rw [text, if_neg string, value, String.toList_ofList, List.cons_append, signs_cut known, found,
      List.take_left, List.drop_left, ← place.value]
    rfl

theorem toList_render_cons (first : Token) (others : List Token) :
    ∃ behind, (render (first :: others)).toList = first.text.toList ++ behind ∧
      StartsGap behind ∧ signs behind = signs (render others).toList := by
  cases others with
  | nil =>
      refine ⟨[], ?_, nofun, rfl⟩
      rw [List.append_nil]
      rfl
  | cons second others =>
      refine ⟨' ' :: (render (second :: others)).toList, ?_, ?_, signs_space _⟩
      · rw [render_cons_cons, String.toList_append, String.toList_append, List.append_assoc]
        rfl
      · intro next member
        exact (Option.some.inj member).symm

/-- Token by token the rendered run is read as it was, up to the first string whose value
does not come back. -/
theorem signs_render_iff {run : List Token} (reads : ∀ token ∈ run, Plain token → ReadsBack token) :
    signs (render run).toList = run.map sign ++ [(.eof, "")] ↔ ∀ token ∈ run, Plain token := by
  induction run with
  | nil =>
      rw [render_nil, String.toList_empty, signs_nil]
      exact iff_of_true rfl (List.forall_mem_nil _)
  | cons first others ih =>
      obtain ⟨behind, text, gap, later⟩ := toList_render_cons first others
      rw [text, List.map_cons, List.cons_append, List.forall_mem_cons]
      by_cases plain : Plain first
      · rw [reads first List.mem_cons_self plain behind gap, later, List.cons_inj_right,
          ih fun token member => reads token (List.mem_cons_of_mem first member),
          and_iff_right plain]
      · refine iff_of_false ?_ fun all => plain all.1
        intro same
        obtain ⟨string, escaped⟩ := Classical.not_imp.mp plain
        rw [signs_text_of_string string, sign, List.cons.injEq, Prod.mk.injEq] at same
        apply escaped
        rw [← stringContent_eq_iff _ behind, ← String.ofList_inj, same.1.2, String.ofList_toList]

/-- A run of tokens without newlines and comments is read back from its readable text
exactly when no string in it holds a quote or a backslash. -/
theorem tokenize_render_iff {source file : String} {run : List Token}
    (within : run <:+: tokenize source file)
    (significant : ∀ token ∈ run, token.isSignificant = true) (name : String) :
    (tokenize (render run) name).dropLast.map sign = run.map sign ↔
      ∀ token ∈ run, token.kind = .string → '"' ∉ token.value.toList ∧ '\\' ∉ token.value.toList := by
  have reads : ∀ token ∈ run, Plain token → ReadsBack token :=
    fun token member => readsBack_of_mem (within.subset member) (significant token member)
  obtain ⟨front, same, _⟩ := scan_laid name .first (render run).toList
  have signed : signs (render run).toList = front.map sign ++ [(.eof, "")] := by
    rw [← map_sign_scan name .first, same, List.map_append]
    rfl
  refine Iff.trans ?_ (signs_render_iff reads)
  rw [tokenize, same, List.dropLast_concat, signed, List.append_left_inj]

def mixedLine : String := "if x>=1..---'@ \"a#\nb\" y \"c\\\\\""

theorem tokenize_render_iff_of_mixedLine :
    (∀ token ∈ (tokenize mixedLine "f.sage").take 10, token.isSignificant = true) ∧
      (tokenize (render ((tokenize mixedLine "f.sage").take 9)) "g.sage").dropLast.map sign =
        ((tokenize mixedLine "f.sage").take 9).map sign ∧
      (tokenize (render ((tokenize mixedLine "f.sage").take 10)) "g.sage").dropLast.map sign ≠
        ((tokenize mixedLine "f.sage").take 10).map sign := by
  have significant : ∀ token ∈ (tokenize mixedLine "f.sage").take 10,
      token.isSignificant = true := by
    decide +kernel
  have plain : ∀ token ∈ (tokenize mixedLine "f.sage").take 9, token.kind = .string →
      '"' ∉ token.value.toList ∧ '\\' ∉ token.value.toList := by
    decide +kernel
  have escaped : ¬∀ token ∈ (tokenize mixedLine "f.sage").take 10, token.kind = .string →
      '"' ∉ token.value.toList ∧ '\\' ∉ token.value.toList := by
    decide +kernel
  have shorter : (tokenize mixedLine "f.sage").take 9 <+: (tokenize mixedLine "f.sage").take 10 :=
    List.take_prefix_take_left (by decide)
  refine ⟨significant, ?_, ?_⟩
  · have within := (List.take_prefix 9 (tokenize mixedLine "f.sage")).isInfix
    have words := fun token member => significant token (shorter.subset member)
    exact (tokenize_render_iff within words "g.sage").mpr plain
  · have within := (List.take_prefix 10 (tokenize mixedLine "f.sage")).isInfix
    exact fun same => escaped ((tokenize_render_iff within significant "g.sage").mp same)

end SageNotation.Token
