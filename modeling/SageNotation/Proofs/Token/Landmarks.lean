import SageNotation.Proofs.Token.Breaks
import SageNotation.Proofs.Token.Spelling

/-!
The tokens by which a text is divided: comments, strings and at-keywords.

Each of them starts with a character of its own, and no other token has one of
these characters in it.  So their spans are found by looking for these characters
alone, and what stands between may be cut into tokens in any way
(`spansOf_skip`).
-/

namespace SageNotation

namespace Kind

/-- Comments, strings and at-keywords. -/
def isLandmark (kind : Kind) : Bool :=
  kind == comment || kind == string || kind.isAtWord

theorem not_isLandmark_of_isMark {kind : Kind} (mark : kind.isMark = true) :
    kind.isLandmark = false := by
  cases kind <;> cases mark <;> rfl

theorem not_isLandmark_of_plain {word : String} : (ofPlainWord word).isLandmark = false := by
  have keywords : ∀ entry ∈ plainWords, entry.2.isLandmark = false := by decide
  unfold ofPlainWord
  cases found : plainWords.lookup word with
  | none => rfl
  | some kind => exact keywords _ (mem_of_lookup found)

theorem isAtWord_of_isLandmark {kind : Kind} (word : kind.isWord = true)
    (landmark : kind.isLandmark = true) : kind.isAtWord = true := by
  rw [isLandmark, Bool.or_eq_true, Bool.or_eq_true] at landmark
  rcases landmark with (isComment | isString) | keyword
  · rw [beq_iff_eq.mp isComment] at word
    cases word
  · rw [beq_iff_eq.mp isString] at word
    cases word
  · exact keyword

theorem beq_of_isAtWord {kind other : Kind} (keyword : kind.isAtWord = true)
    (plain : other.isAtWord = false) : (kind == other) = false := by
  refine beq_false_of_ne fun same => ?_
  rw [same, plain] at keyword
  cases keyword

/-- A word with an at sign is a keyword exactly when the table spells it. -/
theorem isAtWord_ofAtWord (word : String) :
    (ofAtWord word).isAtWord = true ↔ word ∈ atWords.map Prod.fst := by
  have keywords : ∀ entry ∈ atWords, entry.2.isAtWord = true := by decide
  unfold ofAtWord
  cases found : atWords.lookup word with
  | none =>
      refine iff_of_false Bool.false_ne_true ?_
      intro member
      obtain ⟨entry, within, same⟩ := List.mem_map.mp member
      have apart := List.lookup_eq_none_iff.mp found entry within
      rw [same, bne_self_eq_false] at apart
      cases apart
  | some kind =>
      have within := mem_of_lookup found
      exact iff_of_true (keywords _ within) (List.mem_map_of_mem within)

end Kind

namespace Token

def isOrdinary (character : Char) : Bool :=
  character != '#' && character != '"' && character != '@'

theorem isOrdinary_iff {character : Char} :
    isOrdinary character = true ↔ character ≠ '#' ∧ character ≠ '"' ∧ character ≠ '@' := by
  simp only [isOrdinary, Bool.and_eq_true, bne_iff_ne, and_assoc]

/-- Characters of which none opens a landmark. -/
def Ordinary (text : List Char) : Prop :=
  ∀ character ∈ text, isOrdinary character = true

theorem ordinary_takeWhile {run : Char → Bool} (hash : run '#' = false) (quote : run '"' = false)
    (atSign : run '@' = false) (text : List Char) : Ordinary (text.takeWhile run) := by
  intro character member
  have within : run character = true := List.all_eq_true.mp List.all_takeWhile character member
  have apart : ∀ other, run other = false → character ≠ other := by
    rintro other unlike rfl
    rw [within] at unlike
    cases unlike
  exact isOrdinary_iff.mpr ⟨apart _ hash, apart _ quote, apart _ atSign⟩

def spansOf (kinds : Kind → Bool) (tokens : List Token) : List Span :=
  (tokens.filter fun token => kinds token.kind).map (·.span)

theorem spansOf_cons (kinds : Kind → Bool) (token : Token) (others : List Token) :
    spansOf kinds (token :: others) =
      (if kinds token.kind = true then [token.span] else []) ++ spansOf kinds others := by
  rw [spansOf, List.filter_cons]
  split <;> rfl

def Selects (kinds : Kind → Bool) : Prop :=
  ∀ kind, kinds kind = true → kind.isLandmark = true

section Spans

variable {kinds : Kind → Bool} {file : String} {position : Position} {first : Char}
  {rest : List Char} {kind : Kind}

theorem Selects.unselected (selects : Selects kinds) (plain : kind.isLandmark = false) :
    kinds kind = false := by
  cases selected : kinds kind with
  | false => rfl
  | true =>
      rw [selects kind selected] at plain
      cases plain

/-- A token with an ordinary first character is no landmark and holds the start of none. -/
theorem ordinary_of_cut (ordinary : isOrdinary first = true)
    (found : (lexeme first rest).kind = some kind) :
    kind.isLandmark = false ∧ Ordinary (rest.take (lexeme first rest).extra) := by
  obtain ⟨notHash, notQuote, notAt⟩ := isOrdinary_iff.mp ordinary
  have runs : ∀ {run : Char → Bool}, kind.run? = some run → run '#' = false → run '"' = false →
      run '@' = false → Ordinary (rest.take (lexeme first rest).extra) := by
    intro run known hash quote atSign
    rw [(divided_by_run found known).1]
    exact ordinary_takeWhile hash quote atSign rest
  obtain ⟨extra, length, recognized⟩ := recognized_kind found
  cases recognized with
  | newline | prime =>
      rw [length]
      exact ⟨rfl, List.forall_mem_nil _⟩
  | comment here => exact absurd here notHash
  | string here => exact absurd here notQuote
  | dashes => exact ⟨rfl, runs rfl rfl rfl rfl⟩
  | mark _ _ fixed here =>
      rw [length]
      refine ⟨Kind.not_isLandmark_of_isMark fixed, fun later member => ?_⟩
      have each : ['!', '=', '>', '&', '.'].all isOrdinary = true := rfl
      exact List.all_eq_true.mp each later (later_of_mark here later member)
  | word _ spelled =>
      refine ⟨?_, runs (Kind.run?_of_isWord spelled.isWord) rfl rfl rfl⟩
      rcases spelled with ⟨atSign, _⟩ | ⟨_, same⟩
      · exact absurd atSign notAt
      · rw [same]
        exact Kind.not_isLandmark_of_plain
  | number => exact ⟨rfl, runs rfl rfl rfl rfl⟩

theorem spansOf_passed (found : (lexeme first rest).kind = none) :
    spansOf kinds (scan file position (first :: rest)) =
      spansOf kinds (scan file (position.after [first]) rest) := by
  rw [scan_passed found]

theorem spansOf_cut (kinds : Kind → Bool) (file : String) (position : Position)
    (found : (lexeme first rest).kind = some kind) :
    spansOf kinds (scan file position (first :: rest)) =
      (if kinds kind = true then
        [⟨file, position, stopOf kind position (first :: rest.take (lexeme first rest).extra)⟩]
      else []) ++
        spansOf kinds (scan file (position.after (first :: rest.take (lexeme first rest).extra))
          (rest.drop (lexeme first rest).extra)) := by
  rw [scan_cut found]
  exact spansOf_cons kinds _ _

theorem spansOf_unselected (unselected : kinds kind = false)
    (found : (lexeme first rest).kind = some kind) :
    spansOf kinds (scan file position (first :: rest)) =
      spansOf kinds (scan file (position.after (first :: rest.take (lexeme first rest).extra))
        (rest.drop (lexeme first rest).extra)) := by
  rw [spansOf_cut kinds file position found, if_neg (ne_true_of_eq_false unselected), List.nil_append]

/-- Ordinary characters are passed over by the landmarks, however they are cut. -/
theorem spansOf_skip (selects : Selects kinds) (file : String) (position : Position)
    {front : List Char} (ordinary : Ordinary front) (rest : List Char) :
    spansOf kinds (scan file position (front ++ rest)) =
      spansOf kinds (scan file (position.after front) rest) := by
  -- A token may reach over the end of the front, so the length of the whole text goes down.
  induction bound : (front ++ rest).length using Nat.strongRecOn
    generalizing front rest position with
  | ind count shorter =>
      cases front with
      | nil => rfl
      | cons first others =>
          have ordinaryFirst := ordinary first List.mem_cons_self
          have below : (others ++ rest).length < count := by
            rw [← bound, List.cons_append, List.length_cons]
            exact Nat.lt_succ_self _
          have behind := shorter _ below (position.after [first])
            (fun character member => ordinary character (List.mem_cons_of_mem first member)) rest rfl
          rw [List.cons_append]
          cases found : (lexeme first (others ++ rest)).kind with
          | none => exact (spansOf_passed found).trans behind
          | some kind =>
              obtain ⟨plain, ordinaryTaken⟩ := ordinary_of_cut ordinaryFirst found
              have cut := shorter _ below (position.after [first]) ordinaryTaken
                ((others ++ rest).drop (lexeme first (others ++ rest)).extra)
                (congrArg List.length (List.take_append_drop _ _))
              rw [List.take_append_drop] at cut
              exact (spansOf_unselected (selects.unselected plain) found).trans
                (cut.symm.trans behind)

theorem spansOf_comment (kinds : Kind → Bool) (file : String) (position : Position)
    (rest : List Char) :
    spansOf kinds (scan file position ('#' :: rest)) =
      (if kinds .comment = true then
        [⟨file, position, position.after ('#' :: rest.takeWhile (· != '\n'))⟩] else []) ++
        spansOf kinds (scan file (position.after ('#' :: rest.takeWhile (· != '\n')))
          (rest.dropWhile (· != '\n'))) := by
  have found : (lexeme '#' rest).kind = some .comment := rfl
  rw [spansOf_cut kinds file position found, (divided_by_run found rfl).1,
    (divided_by_run found rfl).2]
  rfl

theorem spansOf_string (kinds : Kind → Bool) (file : String) (position : Position)
    (rest : List Char) :
    spansOf kinds (scan file position ('"' :: rest)) =
      (if kinds .string = true then
        [⟨file, position, position.after ('"' :: rest.take (stringExtent rest))⟩] else []) ++
        spansOf kinds (scan file (position.after ('"' :: rest.take (stringExtent rest)))
          (rest.drop (stringExtent rest))) := by
  have found : (lexeme '"' rest).kind = some .string := rfl
  exact spansOf_cut kinds file position found

def atWordKind (rest : List Char) : Kind :=
  Kind.ofAtWord (String.ofList ('@' :: rest.takeWhile isWordChar))

theorem spansOf_atWord (kinds : Kind → Bool) (file : String) (position : Position)
    (rest : List Char) :
    spansOf kinds (scan file position ('@' :: rest)) =
      (if kinds (atWordKind rest) = true then
        [⟨file, position, position.after ('@' :: rest.takeWhile isWordChar)⟩] else []) ++
        spansOf kinds (scan file (position.after ('@' :: rest.takeWhile isWordChar))
          (rest.dropWhile isWordChar)) := by
  have found : (lexeme '@' rest).kind = some (atWordKind rest) := by
    rw [lexeme_atSign]
    rfl
  have word : (atWordKind rest).isWord = true := Kind.isWord_ofAtWord _
  have run := divided_by_run found (Kind.run?_of_isWord word)
  have sameLine : ∀ text, stopOf (atWordKind rest) position text = position.after text := by
    intro text
    rw [stopOf, if_neg]
    intro newline
    rw [newline] at word
    cases word
  rw [spansOf_cut kinds file position found, run.1, run.2, sameLine]

theorem spansOf_atSign (selects : Selects kinds) (unselected : kinds (atWordKind rest) = false) :
    spansOf kinds (scan file position ('@' :: rest)) =
      spansOf kinds (scan file (position.after ['@']) rest) := by
  have letters : Ordinary (rest.takeWhile isWordChar) := ordinary_takeWhile rfl rfl rfl rest
  have behind := spansOf_skip selects file (position.after ['@']) letters
    (rest.dropWhile isWordChar)
  rw [List.takeWhile_append_dropWhile] at behind
  rw [spansOf_atWord, if_neg (ne_true_of_eq_false unselected), List.nil_append]
  exact behind.symm

end Spans

end Token

end SageNotation
