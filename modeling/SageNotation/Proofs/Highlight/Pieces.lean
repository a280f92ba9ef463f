import SageNotation.Highlight.Scan
import SageNotation.Proofs.Token.Landmarks

/-!
How the pieces of a source divide its text.

`Shown` lists the ways in which pieces follow each other outside strings: one
piece of ordinary characters, a comment, a whole string in one or more pieces, an
at-keyword, or another word with an at sign.  `shown_scan` puts every source under
them.  The rules are looked at once, each for what it takes from the text when its
first character opens nothing (`keeps_rules`), and once for an at sign
(`outside_atSign`).
-/

namespace SageNotation.Highlight

open Token (isOrdinary Ordinary isOrdinary_iff ordinary_takeWhile atWordKind stringExtent
  stringExtent_plain takeWhile_ended take_length_takeWhile drop_length_takeWhile)

namespace Category

def isString : Category → Bool
  | string | escape | error => true
  | _ => false

def isAtWord : Category → Bool
  | declaration | clause | inferred => true
  | _ => false

def isOrdinary (category : Category) : Bool :=
  !(category == comment || category.isString || category.isAtWord)

theorem isOrdinary_iff {category : Category} : category.isOrdinary = true ↔
    category ≠ comment ∧ category.isString = false ∧ category.isAtWord = false := by
  simp only [isOrdinary, Bool.not_eq_true', Bool.or_eq_false_iff, beq_eq_false_iff_ne, and_assoc]

theorem isString_of_isAtWord : ∀ {category : Category}, category.isAtWord = true →
    category.isString = false
  | declaration, _ | clause, _ | inferred, _ => rfl

end Category

/-! ### Rules at an ordinary character -/

/-- An extent of ordinary characters, by what follows its first one. -/
def OrdinaryExtent (rest : List Char) (extent : Extent) : Prop :=
  extent.category.isOrdinary = true ∧ Ordinary (rest.take extent.extra)

/-- From a character that opens nothing on, the rule takes no character that does. -/
def Keeps (rule : Rule) : Prop :=
  ∀ previous first rest extent, isOrdinary first = true → rule previous first rest = some extent →
    OrdinaryExtent rest extent

section Keeps

variable {category : Category} {rest : List Char} {extent : Extent}

theorem ordinaryExtent_of_run {condition : Prop} [Decidable condition] {run : Char → Bool}
    (ordinary : category.isOrdinary = true) (hash : run '#' = false) (quote : run '"' = false)
    (atSign : run '@' = false)
    (found : (if condition then some ⟨category, (rest.takeWhile run).length⟩ else none) =
      some extent) : OrdinaryExtent rest extent := by
  split at found
  · cases found
    refine ⟨ordinary, ?_⟩
    rw [take_length_takeWhile]
    exact ordinary_takeWhile hash quote atSign rest
  · cases found

theorem ordinaryExtent_of_literal {word : String} {first initial : Char} {others : List Char}
    (spelled : word.toList = initial :: others) (here : initial = first)
    (ahead : others.isPrefixOf rest = true) (ordinary : isOrdinary first = true)
    (known : word.toList.head? = some '@' ∨
      category.isOrdinary = true ∧ word.toList.all isOrdinary = true) :
    OrdinaryExtent rest ⟨category, others.length⟩ := by
  rw [spelled] at known
  rcases known with atSign | ⟨plain, letters⟩
  · cases atSign
    rw [← here] at ordinary
    cases ordinary
  · obtain ⟨behind, rfl⟩ := List.isPrefixOf_iff_prefix.mp ahead
    refine ⟨plain, fun character member => ?_⟩
    rw [List.take_left] at member
    exact List.all_eq_true.mp letters character (List.mem_cons_of_mem initial member)

theorem keeps_wordOf {words : List String} (known : ∀ word ∈ words,
    word.toList.head? = some '@' ∨ category.isOrdinary = true ∧ word.toList.all isOrdinary = true) :
    Keeps (wordOf words category) := by
  intro previous first rest extent ordinary found
  obtain ⟨word, member, applied⟩ := List.exists_of_findSome?_eq_some found
  cases spelled : word.toList with
  | nil =>
      rw [spelled] at applied
      cases applied
  | cons initial others =>
      simp only [spelled] at applied
      split at applied
      · rename_i fits
        cases applied
        exact ordinaryExtent_of_literal spelled fits.1 fits.2.1 ordinary (known word member)
      · cases applied

theorem keeps_textOf {texts : List String} (known : ∀ text ∈ texts,
    text.toList.head? = some '@' ∨ category.isOrdinary = true ∧ text.toList.all isOrdinary = true) :
    Keeps (textOf texts category) := by
  intro previous first rest extent ordinary found
  obtain ⟨text, member, applied⟩ := List.exists_of_findSome?_eq_some found
  cases spelled : text.toList with
  | nil =>
      rw [spelled] at applied
      cases applied
  | cons initial others =>
      simp only [spelled] at applied
      split at applied
      · rename_i fits
        cases applied
        exact ordinaryExtent_of_literal spelled fits.1 fits.2 ordinary (known text member)
      · cases applied

theorem keeps_oneOf {characters : String}
    (known : category.isOrdinary = true ∨ characters.toList.any isOrdinary = false) :
    Keeps (oneOf characters category) := by
  intro previous first rest extent ordinary found
  unfold oneOf at found
  split at found
  · rename_i member
    cases found
    rcases known with plain | none
    · exact ⟨plain, List.forall_mem_nil _⟩
    · have present := List.any_eq_true.mpr ⟨first, List.contains_iff_mem.mp member, ordinary⟩
      rw [none] at present
      cases present
  · cases found

theorem keeps_comment : Keeps comment := by
  intro previous first rest extent ordinary found
  unfold comment at found
  split at found
  · rename_i hash
    exact absurd hash (isOrdinary_iff.mp ordinary).1
  · cases found

theorem keeps_separator : Keeps separator := by
  intro previous first rest extent _ found
  simp only [separator] at found
  split at found
  · cases found
    refine ⟨rfl, ?_⟩
    change Ordinary (rest.take (_ + _))
    rw [List.take_add, take_length_takeWhile, drop_length_takeWhile, take_length_takeWhile]
    intro character member
    rcases List.mem_append.mp member with dash | space
    · exact ordinary_takeWhile rfl rfl rfl _ character dash
    · exact ordinary_takeWhile rfl rfl rfl _ character space
  · cases found

theorem keeps_keyword : Keeps keyword := by
  intro previous first rest extent ordinary found
  unfold keyword at found
  split at found
  · exact keeps_wordOf (by decide) previous first rest extent ordinary found
  · cases found

theorem keeps_atName : Keeps atName := by
  intro previous first rest extent ordinary found
  unfold atName at found
  split at found
  · rename_i atSign
    exact absurd atSign (isOrdinary_iff.mp ordinary).2.2
  · cases found

theorem keeps_rules : ∀ rule ∈ rules, Keeps rule := by
  simp only [rules, List.forall_mem_cons]
  refine ⟨?spaces, ?newline, keeps_comment, keeps_separator, ?decision, ?quote, ?number,
    ?declarations, ?clauses, ?inferred, keeps_keyword, ?symbols, ?tick, ?arrow, ?operators,
    ?operator, ?fieldName, ?typeName, ?name, ?punctuation, keeps_atName, List.forall_mem_nil _⟩
  case spaces => exact fun _ _ _ _ _ found => ordinaryExtent_of_run rfl rfl rfl rfl found
  case number => exact fun _ _ _ _ _ found => ordinaryExtent_of_run rfl rfl rfl rfl found
  case fieldName => exact fun _ _ _ _ _ found => ordinaryExtent_of_run rfl rfl rfl rfl found
  case typeName => exact fun _ _ _ _ _ found => ordinaryExtent_of_run rfl rfl rfl rfl found
  case name => exact fun _ _ _ _ _ found => ordinaryExtent_of_run rfl rfl rfl rfl found
  case declarations | clauses | inferred => exact keeps_wordOf (by decide)
  case decision | operators => exact keeps_textOf (by decide)
  case quote => exact keeps_oneOf (Or.inr rfl)
  all_goals exact keeps_oneOf (Or.inl rfl)

end Keeps

theorem outside_ordinary (previous : Option Char) {first : Char} (rest : List Char)
    (ordinary : isOrdinary first = true) : OrdinaryExtent rest (outside previous first rest) := by
  unfold outside
  cases found : rules.findSome? fun rule => rule previous first rest with
  | none => exact ⟨rfl, List.forall_mem_nil _⟩
  | some extent =>
      obtain ⟨rule, member, applied⟩ := List.exists_of_findSome?_eq_some found
      exact keeps_rules rule member previous first rest extent ordinary applied

/-! ### The other first characters -/

theorem outside_hash (previous : Option Char) (rest : List Char) :
    outside previous '#' rest = ⟨.comment, (rest.takeWhile (· != '\n')).length⟩ := rfl

theorem outside_quote (previous : Option Char) (rest : List Char) :
    outside previous '"' rest = ⟨.string, 0⟩ := by
  have noSeparator : separator previous '"' rest = none := by
    simp only [separator]
    exact if_neg fun fits => absurd fits.2.1 (by decide)
  simp only [outside, rules, List.findSome?_cons, noSeparator]
  rfl

theorem isWordChar_of_lt {character : Char} (ascii : character.toNat < 128) :
    isWordChar character = Token.isWordChar character := by
  rw [isWordChar, Text.isAlphanumeric, if_pos ascii]
  rfl

theorem isWordChar_of_token {character : Char} (letter : Token.isWordChar character = true) :
    isWordChar character = true := by
  rw [isWordChar_of_lt (Token.lt_of_isWordChar letter), letter]

theorem stops_of_wordEnds {text : List Char} (ends : wordEnds text = true) :
    ∀ next ∈ text.head?, Token.isWordChar next = false := by
  intro next member
  obtain ⟨others, rfl⟩ := List.head?_eq_some_iff.mp member
  cases letter : Token.isWordChar next with
  | false => rfl
  | true =>
      rw [wordEnds, isWordChar_of_token letter] at ends
      cases ends

theorem literal_fits_iff {letters : List Char} (rest : List Char)
    (word : ∀ letter ∈ letters, Token.isWordChar letter = true) :
    (letters.isPrefixOf rest = true ∧ wordEnds (rest.drop letters.length) = true) ↔
      (wordEnds (rest.dropWhile Token.isWordChar) = true ∧
        letters = rest.takeWhile Token.isWordChar) := by
  constructor
  · rintro ⟨ahead, ends⟩
    obtain ⟨behind, rfl⟩ := List.isPrefixOf_iff_prefix.mp ahead
    rw [List.drop_left] at ends
    have whole := takeWhile_ended word (stops_of_wordEnds ends)
    have left := drop_length_takeWhile Token.isWordChar (letters ++ behind)
    rw [whole, List.drop_left] at left
    exact ⟨left ▸ ends, whole.symm⟩
  · rintro ⟨ends, rfl⟩
    rw [drop_length_takeWhile]
    exact ⟨List.isPrefixOf_iff_prefix.mpr (List.takeWhile_prefix _), ends⟩

/-- At an at sign a list of at-words is asked for the word that stands there. -/
theorem wordOf_atSign {words : List String} {category : Category}
    (spelled : ∀ word ∈ words, word.toList.head? = some '@' ∧
      word.toList.tail.all Token.isWordChar = true) (previous : Option Char) (rest : List Char) :
    wordOf words category previous '@' rest =
      if wordEnds (rest.dropWhile Token.isWordChar) = true ∧
          String.ofList ('@' :: rest.takeWhile Token.isWordChar) ∈ words then
        some ⟨category, (rest.takeWhile Token.isWordChar).length⟩
      else none := by
  induction words with
  | nil => exact (if_neg fun found => absurd found.2 List.not_mem_nil).symm
  | cons word others ih =>
      obtain ⟨here, later⟩ := List.forall_mem_cons.mp spelled
      have behind := ih later
      rw [wordOf] at behind ⊢
      rw [List.findSome?_cons, behind]
      obtain ⟨letters, text⟩ := List.head?_eq_some_iff.mp here.1
      rw [text, List.tail_cons] at here
      have fits := literal_fits_iff rest (List.all_eq_true.mp here.2)
      have same : letters = rest.takeWhile Token.isWordChar ↔
          String.ofList ('@' :: rest.takeWhile Token.isWordChar) = word := by
        rw [← String.toList_inj, String.toList_ofList, text, List.cons_inj_right, eq_comm]
      simp only [text, true_and, fits, same, List.mem_cons]
      by_cases hit : wordEnds (rest.dropWhile Token.isWordChar) = true ∧
          String.ofList ('@' :: rest.takeWhile Token.isWordChar) = word
      · rw [if_pos (⟨hit.1, Or.inl hit.2⟩ : _ ∧ (_ ∨ _)), same.mpr hit.2]
        simp only [hit, and_self, if_true]
      · simp only [and_or_left, hit, false_or, if_false]

theorem outside_atSign_eq (previous : Option Char) (rest : List Char) :
    outside previous '@' rest =
      (((wordOf declarationWords .declaration previous '@' rest).orElse fun _ =>
        (wordOf clauseWords .clause previous '@' rest).orElse fun _ =>
          wordOf inferredWords .inferred previous '@' rest).getD
        ⟨.name, (rest.takeWhile isWordChar).length⟩) := by
  have noSeparator : separator previous '@' rest = none := by
    simp only [separator]
    exact if_neg fun fits => absurd fits.2.1 (by decide)
  have noKeyword : keyword previous '@' rest = none := by
    unfold keyword
    split <;> rfl
  cases declared : wordOf declarationWords .declaration previous '@' rest with
  | some extent =>
      simp only [outside, rules, List.findSome?_cons, noSeparator, declared]
      rfl
  | none =>
      cases bound : wordOf clauseWords .clause previous '@' rest with
      | some extent =>
          simp only [outside, rules, List.findSome?_cons, noSeparator, declared, bound]
          rfl
      | none =>
          cases inferred : wordOf inferredWords .inferred previous '@' rest with
          | some extent | none =>
              simp only [outside, rules, List.findSome?_cons, noSeparator, noKeyword, declared, bound,
                inferred]
              rfl

/-- At an at sign stands a keyword of one of three sorts, or a name. -/
theorem outside_atSign (previous : Option Char) (rest : List Char) :
    (∃ category, category.isAtWord = true ∧ (atWordKind rest).isAtWord = true ∧
      outside previous '@' rest = ⟨category, (rest.takeWhile Token.isWordChar).length⟩) ∨
    (outside previous '@' rest = ⟨.name, (rest.takeWhile isWordChar).length⟩ ∧
      ((atWordKind rest).isAtWord = true → wordEnds (rest.dropWhile Token.isWordChar) = false)) := by
  have known : (atWordKind rest).isAtWord = true ↔
      String.ofList ('@' :: rest.takeWhile Token.isWordChar) ∈
        declarationWords ++ (clauseWords ++ inferredWords) :=
    Kind.isAtWord_ofAtWord _
  rw [List.mem_append, List.mem_append] at known
  rw [outside_atSign_eq, wordOf_atSign (by decide), wordOf_atSign (by decide),
    wordOf_atSign (by decide)]
  by_cases ends : wordEnds (rest.dropWhile Token.isWordChar) = true
  · simp only [ends, true_and, Bool.true_eq_false]
    by_cases declared : String.ofList ('@' :: rest.takeWhile Token.isWordChar) ∈ declarationWords
    · exact Or.inl ⟨.declaration, rfl, known.mpr (Or.inl declared), by rw [if_pos declared]; rfl⟩
    by_cases bound : String.ofList ('@' :: rest.takeWhile Token.isWordChar) ∈ clauseWords
    · exact Or.inl ⟨.clause, rfl, known.mpr (Or.inr (Or.inl bound)),
        by rw [if_neg declared, if_pos bound]; rfl⟩
    by_cases inferred : String.ofList ('@' :: rest.takeWhile Token.isWordChar) ∈ inferredWords
    · exact Or.inl ⟨.inferred, rfl, known.mpr (Or.inr (Or.inr inferred)),
        by rw [if_neg declared, if_neg bound, if_pos inferred]; rfl⟩
    refine Or.inr ⟨by rw [if_neg declared, if_neg bound, if_neg inferred]; rfl, fun keyword => ?_⟩
    rcases known.mp keyword with found | found | found
    · exact declared found
    · exact bound found
    · exact inferred found
  · rw [if_neg fun found => ends found.1, if_neg fun found => ends found.1,
      if_neg fun found => ends found.1]
    exact Or.inr ⟨rfl, fun _ => Bool.eq_false_iff.mpr ends⟩

/-! ### Strings -/

def isPlain (character : Char) : Bool :=
  character != '"' && character != '\\'

theorem stringExtent_of_plain {first : Char} (plain : isPlain first = true) (rest : List Char) :
    stringExtent (first :: rest) = stringExtent rest + 1 := by
  simp only [isPlain, Bool.and_eq_true, bne_iff_ne] at plain
  exact stringExtent_plain rest plain.1 plain.2

theorem stringExtent_run (text : List Char) :
    stringExtent text =
      (text.takeWhile isPlain).length + stringExtent (text.drop (text.takeWhile isPlain).length) := by
  induction text with
  | nil => rfl
  | cons first rest ih =>
      cases plain : isPlain first with
      | false => rw [List.takeWhile_cons_of_neg (ne_true_of_eq_false plain), List.length_nil,
          Nat.zero_add, List.drop_zero]
      | true =>
          rw [List.takeWhile_cons_of_pos plain, List.length_cons, List.drop_succ_cons,
            stringExtent_of_plain plain, ih]
          omega

/-- A piece before the closing quote is one of the string, which goes on behind it. -/
theorem inside_unclosed {first : Char} (unclosed : first ≠ '"') (rest : List Char) :
    (inside first rest).category.isString = true ∧
      stringExtent (first :: rest) =
        (inside first rest).extra + 1 + stringExtent (rest.drop (inside first rest).extra) := by
  unfold inside
  by_cases backslash : first = '\\'
  · rw [if_pos backslash, backslash]
    cases rest with
    | nil => exact ⟨rfl, rfl⟩
    | cons escaped others =>
        have passed : stringExtent ('\\' :: escaped :: others) = stringExtent others + 2 := rfl
        by_cases newline : escaped = '\n'
        · -- The newline is no part of this piece; it stands for itself in the next one.
          have plain : stringExtent ('\n' :: others) = stringExtent others + 1 :=
            stringExtent_of_plain rfl others
          rw [newline] at passed ⊢
          refine ⟨rfl, ?_⟩
          change stringExtent ('\\' :: '\n' :: others) = 0 + 1 + stringExtent ('\n' :: others)
          omega
        · simp only [if_neg newline]
          refine ⟨rfl, ?_⟩
          rw [List.drop_succ_cons, List.drop_zero, passed]
          omega
  · rw [if_neg backslash, if_neg unclosed]
    refine ⟨rfl, ?_⟩
    have behind := stringExtent_run rest
    rw [stringExtent_plain rest unclosed backslash]
    change _ = (rest.takeWhile isPlain).length + 1 +
      stringExtent (rest.drop (rest.takeWhile isPlain).length)
    omega

/-! ### Sources -/

theorem scan_outside (previous : Option Char) (first : Char) (rest : List Char) :
    scan false previous (first :: rest) =
      ⟨(outside previous first rest).category,
        first :: rest.take (outside previous first rest).extra⟩ ::
      scan (first == '"') (first :: rest.take (outside previous first rest).extra).getLast?
        (rest.drop (outside previous first rest).extra) := by
  rw [scan]
  by_cases quote : first = '"'
  · simp [quote]
  · simp [quote, beq_false_of_ne quote]

theorem scan_inside (previous : Option Char) (first : Char) (rest : List Char) :
    scan true previous (first :: rest) =
      ⟨(inside first rest).category, first :: rest.take (inside first rest).extra⟩ ::
      scan (first != '"') (first :: rest.take (inside first rest).extra).getLast?
        (rest.drop (inside first rest).extra) := by
  rw [scan]
  by_cases quote : first = '"'
  · simp [quote]
  · simp [quote, bne_iff_ne.mpr quote]

/-- Inside a string the pieces go on to the closing quote, or to the end of the text. -/
theorem scan_string (previous : Option Char) (text : List Char) :
    ∃ inner following, scan true previous text =
        inner ++ scan false following (text.drop (stringExtent text)) ∧
      (∀ piece ∈ inner, piece.category.isString = true) ∧
      inner.flatMap Piece.text = text.take (stringExtent text) := by
  induction bound : text.length using Nat.strongRecOn generalizing text previous with
  | ind count shorter =>
      cases text with
      | nil => exact ⟨[], none, by rw [List.drop_nil, scan, scan]; rfl, List.forall_mem_nil _, rfl⟩
      | cons first rest =>
          rw [scan_inside]
          by_cases quote : first = '"'
          · subst quote
            exact ⟨[⟨.string, ['"']⟩], some '"', rfl, List.forall_mem_singleton.mpr rfl, rfl⟩
          · obtain ⟨ofString, extent⟩ := inside_unclosed quote rest
            have below : (rest.drop (inside first rest).extra).length < count := by
              rw [← bound, List.length_cons, List.length_drop]
              omega
            obtain ⟨inner, following, behind, all, covered⟩ := shorter _ below
              (first :: rest.take (inside first rest).extra).getLast? _ rfl
            refine ⟨⟨(inside first rest).category, first :: rest.take (inside first rest).extra⟩ ::
              inner, following, ?_, List.forall_mem_cons.mpr ⟨ofString, all⟩, ?_⟩
            · rw [bne_iff_ne.mpr quote, behind, List.drop_drop, extent, Nat.add_right_comm,
                List.drop_succ_cons, List.cons_append]
            · rw [List.flatMap_cons, covered, extent, Nat.add_right_comm, List.take_succ_cons,
                List.take_add, List.cons_append]

/-- The ways in which the pieces of a text follow each other, from outside a string on. -/
inductive Shown : List Char → List Piece → Prop where
  | nil : Shown [] []
  | ordinary {front rest : List Char} {category : Category} {pieces : List Piece} :
      Ordinary front → category.isOrdinary = true → Shown rest pieces →
      Shown (front ++ rest) (⟨category, front⟩ :: pieces)
  | comment {rest : List Char} {pieces : List Piece} :
      Shown (rest.dropWhile (· != '\n')) pieces →
      Shown ('#' :: rest) (⟨.comment, '#' :: rest.takeWhile (· != '\n')⟩ :: pieces)
  | string {rest : List Char} {inner pieces : List Piece} :
      (∀ piece ∈ inner, piece.category.isString = true) →
      inner.flatMap Piece.text = '"' :: rest.take (stringExtent rest) →
      Shown (rest.drop (stringExtent rest)) pieces → Shown ('"' :: rest) (inner ++ pieces)
  | atWord {rest : List Char} {category : Category} {pieces : List Piece} :
      category.isAtWord = true → (atWordKind rest).isAtWord = true →
      Shown (rest.dropWhile Token.isWordChar) pieces →
      Shown ('@' :: rest) (⟨category, '@' :: rest.takeWhile Token.isWordChar⟩ :: pieces)
  | atName {rest : List Char} {pieces : List Piece} :
      ((atWordKind rest).isAtWord = true → wordEnds (rest.dropWhile Token.isWordChar) = false) →
      Shown (rest.dropWhile isWordChar) pieces →
      Shown ('@' :: rest) (⟨.name, '@' :: rest.takeWhile isWordChar⟩ :: pieces)

theorem shown_scan (previous : Option Char) (text : List Char) :
    Shown text (scan false previous text) := by
  induction bound : text.length using Nat.strongRecOn generalizing text previous with
  | ind count shorter =>
      cases text with
      | nil =>
          rw [scan]
          exact .nil
      | cons first rest =>
          have behind : ∀ (taken : Nat) (following : Option Char),
              Shown (rest.drop taken) (scan false following (rest.drop taken)) := by
            intro taken following
            refine shorter _ ?_ following _ rfl
            rw [← bound, List.length_cons, List.length_drop]
            omega
          have behindRun : ∀ (run : Char → Bool) (following : Option Char),
              Shown (rest.dropWhile run) (scan false following (rest.dropWhile run)) := by
            intro run following
            rw [← drop_length_takeWhile]
            exact behind _ following
          rw [scan_outside]
          by_cases hash : first = '#'
          · rw [hash, outside_hash, take_length_takeWhile, drop_length_takeWhile]
            exact .comment (behindRun _ _)
          by_cases quote : first = '"'
          · rw [quote, outside_quote, List.take_zero, List.drop_zero]
            obtain ⟨inner, following, inside, all, covered⟩ := scan_string (some '"') rest
            change Shown ('"' :: rest) (⟨.string, ['"']⟩ :: scan true (some '"') rest)
            rw [inside]
            exact .string (List.forall_mem_cons.mpr ⟨rfl, all⟩)
              (by rw [List.flatMap_cons, covered]; rfl) (behind _ _)
          by_cases atSign : first = '@'
          · rw [atSign]
            rcases outside_atSign previous rest with ⟨category, known, keyword, here⟩ | ⟨here, ends⟩
            · rw [here, take_length_takeWhile, drop_length_takeWhile]
              exact .atWord known keyword (behindRun _ _)
            · rw [here, take_length_takeWhile, drop_length_takeWhile]
              exact .atName ends (behindRun _ _)
          have ordinaryFirst : isOrdinary first = true := isOrdinary_iff.mpr ⟨hash, quote, atSign⟩
          obtain ⟨ordinary, taken⟩ := outside_ordinary previous rest ordinaryFirst
          rw [beq_false_of_ne quote]
          have whole := Shown.ordinary (List.forall_mem_cons.mpr ⟨ordinaryFirst, taken⟩) ordinary
            (behind (outside previous first rest).extra
              (first :: rest.take (outside previous first rest).extra).getLast?)
          rw [List.cons_append, List.take_append_drop] at whole
          exact whole

theorem shown_pieces (source : String) : Shown source.toList (pieces source) :=
  shown_scan none source.toList

theorem Shown.flatMap_text {text : List Char} {pieces : List Piece} (shown : Shown text pieces) :
    pieces.flatMap Piece.text = text := by
  induction shown with
  | nil => rfl
  | ordinary _ _ _ ih => rw [List.flatMap_cons, ih]
  | comment _ ih | atWord _ _ _ ih | atName _ _ ih =>
      rw [List.flatMap_cons, ih, List.cons_append, List.takeWhile_append_dropWhile]
  | string _ covered _ ih =>
      rw [List.flatMap_append, covered, ih, List.cons_append, List.take_append_drop]

end SageNotation.Highlight
