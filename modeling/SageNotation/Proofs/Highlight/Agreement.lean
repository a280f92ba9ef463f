import SageNotation.Proofs.Highlight.Pieces

/-!
The pieces of a source and its tokens agree on strings, comments and at-keywords.

Pieces and tokens divide what stands between these in different ways, and a string
is one token but may be several pieces.  `Counterpart` says which categories stand
for which kinds; `Shown.alike` goes through a source once for all of them, with the
relation between the two lists of spans as a parameter.
-/

namespace SageNotation.Highlight

open Token (Selects Ordinary atWordKind stringExtent spansOf_skip spansOf_comment spansOf_string
  spansOf_atWord spansOf_atSign ordinary_takeWhile)

/-! ### Places of pieces -/

/-- The spans of the pieces of some categories, with the first piece at a position. -/
def spansOf (categories : Category → Bool) (file : String) : Position → List Piece → List Span
  | _, [] => []
  | position, piece :: others =>
      (if categories piece.category = true then
        [⟨file, position, position.after piece.text⟩] else []) ++
      spansOf categories file (position.after piece.text) others

def Covers (spans : List Span) (offset : Int) : Prop :=
  ∃ span ∈ spans, span.start.offset ≤ offset ∧ offset < span.stop.offset

/-- A word character that has no place in the words of a source. -/
def isForeign (character : Char) : Bool :=
  decide (128 ≤ character.toNat) && isWordChar character

section Places

variable {categories : Category → Bool} {file : String}

theorem spansOf_append (position : Position) (front back : List Piece) :
    spansOf categories file position (front ++ back) =
      spansOf categories file position front ++
        spansOf categories file (position.after (front.flatMap Piece.text)) back := by
  induction front generalizing position with
  | nil => rfl
  | cons piece others ih =>
      rw [List.cons_append, spansOf, ih, spansOf, List.flatMap_cons, Position.after_append,
        List.append_assoc]

theorem spansOf_unselected (position : Position) {pieces : List Piece}
    (unselected : ∀ piece ∈ pieces, categories piece.category = false) :
    spansOf categories file position pieces = [] := by
  induction pieces generalizing position with
  | nil => rfl
  | cons piece others ih =>
      obtain ⟨here, later⟩ := List.forall_mem_cons.mp unselected
      rw [spansOf, here, ih _ later]
      rfl

theorem covers_append {front back : List Span} {offset : Int} :
    Covers (front ++ back) offset ↔ Covers front offset ∨ Covers back offset := by
  simp only [Covers, List.mem_append, or_and_right, exists_or]

theorem covers_singleton {span : Span} {offset : Int} :
    Covers [span] offset ↔ span.start.offset ≤ offset ∧ offset < span.stop.offset := by
  simp only [Covers, List.mem_singleton, exists_eq_left]

theorem covers_selected (position : Position) {pieces : List Piece}
    (selected : ∀ piece ∈ pieces, categories piece.category = true) (offset : Int) :
    Covers (spansOf categories file position pieces) offset ↔
      Covers [⟨file, position, position.after (pieces.flatMap Piece.text)⟩] offset := by
  induction pieces generalizing position with
  | nil =>
      rw [covers_singleton]
      refine iff_of_false (fun ⟨_, member, _⟩ => List.not_mem_nil member) ?_
      rintro ⟨low, high⟩
      exact absurd (Int.lt_of_le_of_lt low high) (Int.lt_irrefl _)
  | cons piece others ih =>
      obtain ⟨here, later⟩ := List.forall_mem_cons.mp selected
      rw [spansOf, if_pos here, covers_append, ih _ later, List.flatMap_cons, Position.after_append]
      simp only [covers_singleton, Position.offset_after]
      omega

end Places

/-! ### Categories and kinds -/

/-- Categories that stand for the same landmarks as some kinds do. -/
structure Counterpart (categories : Category → Bool) (kinds : Kind → Bool) : Prop where
  ordinary : ∀ category, category.isOrdinary = true → categories category = false
  selects : Selects kinds
  comment : categories .comment = kinds .comment
  string : ∀ category, category.isString = true → categories category = kinds .string
  atWord : ∀ category, category.isAtWord = true → ∀ kind, kind.isAtWord = true →
    categories category = kinds kind

theorem counterpart_strings : Counterpart Category.isString (· == .string) where
  ordinary _ plain := (Category.isOrdinary_iff.mp plain).2.1
  selects kind selected := by
    rw [beq_iff_eq.mp selected]
    rfl
  comment := rfl
  string _ part := part
  atWord category known kind keyword := by
    rw [Category.isString_of_isAtWord known, Kind.beq_of_isAtWord keyword rfl]

theorem counterpart_comments : Counterpart (· == .comment) (· == .comment) where
  ordinary _ plain := beq_false_of_ne (Category.isOrdinary_iff.mp plain).1
  selects kind selected := by
    rw [beq_iff_eq.mp selected]
    rfl
  comment := rfl
  string category part := beq_false_of_ne fun comment => by
    rw [comment] at part
    cases part
  atWord category known kind keyword := by
    rw [Kind.beq_of_isAtWord keyword rfl]
    refine beq_false_of_ne fun comment => ?_
    rw [comment] at known
    cases known

theorem counterpart_atWords : Counterpart Category.isAtWord Kind.isAtWord where
  ordinary _ plain := (Category.isOrdinary_iff.mp plain).2.2
  selects kind keyword := by rw [Kind.isLandmark, keyword, Bool.or_true]
  comment := rfl
  string category part := by
    refine Bool.eq_false_iff.mpr fun known => ?_
    rw [Category.isString_of_isAtWord known] at part
    cases part
  atWord _ known _ keyword := known.trans keyword.symm

/-! ### The division of a source -/

/-- No span ends in front of a foreign word character. -/
def Unfollowed (source : List Char) (spans : List Span) : Prop :=
  ∀ span ∈ spans, (source[span.stop.offset.toNat]?).any isForeign = false

/-- A relation between lists of spans that is kept when lists are put side by side. -/
structure Additive (related : List Span → List Span → Prop) : Prop where
  refl : ∀ spans, related spans spans
  append : ∀ {left right left' right'}, related left right → related left' right' →
    related (left ++ left') (right ++ right')

def atWordsOf (kinds : Kind → Bool) (kind : Kind) : Bool :=
  kinds kind && kind.isAtWord

/-- Wherever a text stands in a source, the spans of its pieces are related to those of
its tokens, unless a selected at-word is followed by a foreign character. -/
def Alike (related : List Span → List Span → Prop) (categories : Category → Bool)
    (kinds : Kind → Bool) (file : String) (text : List Char) (pieces : List Piece) : Prop :=
  ∀ before, Unfollowed (before ++ text) (Token.spansOf (atWordsOf kinds)
      (Token.scan file (Position.first.after before) text)) →
    related (spansOf categories file (Position.first.after before) pieces)
      (Token.spansOf kinds (Token.scan file (Position.first.after before) text))

section Alike

variable {categories : Category → Bool} {kinds : Kind → Bool} {file : String}
  {related : List Span → List Span → Prop} {text rest : List Char} {pieces : List Piece}

theorem Unfollowed.right {source : List Char} {left right : List Span}
    (unfollowed : Unfollowed source (left ++ right)) : Unfollowed source right :=
  fun span member => unfollowed span (List.mem_append_right left member)

theorem Alike.behind (alike : Alike related categories kinds file rest pieces) {front : List Char}
    (whole : front ++ rest = text) (before : List Char)
    (unfollowed : Unfollowed (before ++ text) (Token.spansOf (atWordsOf kinds)
      (Token.scan file ((Position.first.after before).after front) rest))) :
    related (spansOf categories file ((Position.first.after before).after front) pieces)
      (Token.spansOf kinds (Token.scan file ((Position.first.after before).after front) rest)) := by
  have there := alike (before ++ front)
  rw [List.append_assoc, whole, Position.after_append] at there
  exact there unfollowed

theorem Counterpart.selects_atWords (counterpart : Counterpart categories kinds) :
    Selects (atWordsOf kinds) :=
  fun kind selected => counterpart.selects kind (Bool.and_eq_true_iff.mp selected).1

/-- A word that goes on behind the letters of a token goes on with a foreign character. -/
theorem isForeign_of_dropWhile {rest : List Char}
    (goesOn : wordEnds (rest.dropWhile Token.isWordChar) = false) :
    ∃ next others, rest.dropWhile Token.isWordChar = next :: others ∧ isForeign next = true := by
  cases left : rest.dropWhile Token.isWordChar with
  | nil =>
      rw [left] at goesOn
      cases goesOn
  | cons next others =>
      refine ⟨next, others, rfl, ?_⟩
      rw [left, wordEnds, Bool.not_eq_false'] at goesOn
      have stopped : Token.isWordChar next = false := by
        have stops := List.head?_dropWhile_not Token.isWordChar rest
        rw [left] at stops
        simpa using stops
      refine Bool.and_eq_true_iff.mpr ⟨decide_eq_true ?_, goesOn⟩
      refine Nat.le_of_not_lt fun ascii => ?_
      rw [isWordChar_of_lt ascii, stopped] at goesOn
      cases goesOn

theorem kinds_atName (counterpart : Counterpart categories kinds) {before rest : List Char}
    (ends : (atWordKind rest).isAtWord = true → wordEnds (rest.dropWhile Token.isWordChar) = false)
    (unfollowed : Unfollowed (before ++ '@' :: rest) (Token.spansOf (atWordsOf kinds)
      (Token.scan file (Position.first.after before) ('@' :: rest)))) :
    kinds (atWordKind rest) = false := by
  cases selected : kinds (atWordKind rest) with
  | false => rfl
  | true =>
      have keyword : (atWordKind rest).isAtWord = true :=
        Kind.isAtWord_of_isLandmark (Kind.isWord_ofAtWord _) (counterpart.selects _ selected)
      have chosen : atWordsOf kinds (atWordKind rest) = true :=
        Bool.and_eq_true_iff.mpr ⟨selected, keyword⟩
      obtain ⟨next, others, left, foreign⟩ := isForeign_of_dropWhile (ends keyword)
      have place : ((Position.first.after before).after
          ('@' :: rest.takeWhile Token.isWordChar)).offset.toNat =
            (before ++ '@' :: rest.takeWhile Token.isWordChar).length := by
        rw [← Position.after_append, Position.offset_after]
        exact congrArg Int.toNat (Int.zero_add _)
      have whole : before ++ '@' :: rest =
          (before ++ '@' :: rest.takeWhile Token.isWordChar) ++ next :: others := by
        rw [List.append_assoc, List.cons_append, ← left, List.takeWhile_append_dropWhile]
      have here := unfollowed
        ⟨file, Position.first.after before,
          (Position.first.after before).after ('@' :: rest.takeWhile Token.isWordChar)⟩ (by
            rw [spansOf_atWord, if_pos chosen]
            exact List.mem_append_left _ List.mem_cons_self)
      rw [place, whole, List.getElem?_append_right (Nat.le_refl _), Nat.sub_self] at here
      exact absurd foreign (ne_true_of_eq_false here)

theorem spansOf_atName (selects : Selects kinds) (unselected : kinds (atWordKind rest) = false)
    (file : String) (position : Position) :
    Token.spansOf kinds (Token.scan file position ('@' :: rest)) =
      Token.spansOf kinds (Token.scan file (position.after ('@' :: rest.takeWhile isWordChar))
        (rest.dropWhile isWordChar)) := by
  have letters : Ordinary (rest.takeWhile isWordChar) := ordinary_takeWhile rfl rfl rfl rest
  have skipped := spansOf_skip selects file (position.after ['@']) letters
    (rest.dropWhile isWordChar)
  rw [List.takeWhile_append_dropWhile] at skipped
  exact (spansOf_atSign selects unselected).trans skipped

theorem Shown.alike (shown : Shown text pieces) (additive : Additive related)
    (counterpart : Counterpart categories kinds)
    (merge : kinds .string = true → ∀ position inner,
      (∀ piece ∈ inner, categories piece.category = true) →
      related (spansOf categories file position inner)
        [⟨file, position, position.after (inner.flatMap Piece.text)⟩]) :
    Alike related categories kinds file text pieces := by
  induction shown with
  | nil =>
      intro before _
      rw [Token.scan, Token.spansOf_cons, counterpart.selects.unselected rfl]
      exact additive.refl []
  | @ordinary front rest category pieces ordinary plain _ ih =>
      intro before unfollowed
      rw [spansOf_skip counterpart.selects_atWords _ _ ordinary] at unfollowed
      rw [spansOf_skip counterpart.selects _ _ ordinary, spansOf, counterpart.ordinary category plain]
      exact ih.behind rfl before unfollowed
  | @comment rest pieces _ ih =>
      intro before unfollowed
      rw [spansOf_comment] at unfollowed ⊢
      rw [spansOf, counterpart.comment]
      exact additive.append (additive.refl _)
        (ih.behind (congrArg ('#' :: ·) List.takeWhile_append_dropWhile) before unfollowed.right)
  | @string rest inner pieces all covered _ ih =>
      intro before unfollowed
      rw [spansOf_string] at unfollowed ⊢
      rw [spansOf_append, covered]
      refine additive.append ?_
        (ih.behind (congrArg ('"' :: ·) (List.take_append_drop _ _)) before unfollowed.right)
      have same : ∀ piece ∈ inner, categories piece.category = kinds .string :=
        fun piece member => counterpart.string piece.category (all piece member)
      cases selected : kinds .string with
      | false =>
          rw [selected] at same
          rw [spansOf_unselected _ same]
          exact additive.refl []
      | true =>
          rw [selected] at same
          have merged := merge selected (Position.first.after before) inner same
          rw [covered] at merged
          exact merged
  | @atWord rest category pieces known keyword _ ih =>
      intro before unfollowed
      rw [spansOf_atWord] at unfollowed ⊢
      rw [spansOf, counterpart.atWord category known _ keyword]
      exact additive.append (additive.refl _)
        (ih.behind (congrArg ('@' :: ·) List.takeWhile_append_dropWhile) before unfollowed.right)
  | @atName rest pieces ends _ ih =>
      intro before unfollowed
      have unselected := kinds_atName counterpart ends unfollowed
      rw [spansOf_atName counterpart.selects_atWords (by rw [atWordsOf, unselected]; rfl)]
        at unfollowed
      rw [spansOf_atName counterpart.selects unselected, spansOf, counterpart.ordinary .name rfl]
      exact ih.behind (congrArg ('@' :: ·) List.takeWhile_append_dropWhile) before unfollowed

end Alike

/-! ### Agreement -/

section Agreement

variable {kinds : Kind → Bool} {source : List Char} {tokens : List Token}

theorem additive_eq : Additive (· = ·) where
  refl _ := rfl
  append left right := by rw [left, right]

theorem additive_covers :
    Additive fun left right => ∀ offset, Covers left offset ↔ Covers right offset where
  refl _ _ := Iff.rfl
  append left right offset := by rw [covers_append, covers_append, left, right]

theorem unfollowed_of_tokens (apart : ∀ token ∈ tokens, token.kind.isAtWord = true →
      kinds token.kind = true → (source[token.span.stop.offset.toNat]?).any isForeign = false) :
    Unfollowed source (Token.spansOf (atWordsOf kinds) tokens) := by
  intro span member
  obtain ⟨token, selected, rfl⟩ := List.mem_map.mp member
  obtain ⟨within, chosen⟩ := List.mem_filter.mp selected
  obtain ⟨known, keyword⟩ := Bool.and_eq_true_iff.mp chosen
  exact apart token within keyword known

/-- Pieces and tokens agree on strings as stretches of the text, and on comments one
by one.  They agree on at-keywords one by one too, unless a word character from
beyond ASCII follows a keyword: to the tokens the word has ended there. -/
theorem pieces_agree_tokens (source file : String) :
    (∀ offset, Covers (spansOf Category.isString file .first (pieces source)) offset ↔
      Covers (Token.spansOf (· == .string) (Token.tokenize source file)) offset) ∧
    spansOf (· == .comment) file .first (pieces source) =
      Token.spansOf (· == .comment) (Token.tokenize source file) ∧
    ((∀ token ∈ Token.tokenize source file, token.kind.isAtWord = true →
        (source.toList[token.span.stop.offset.toNat]?).any isForeign = false) →
      spansOf Category.isAtWord file .first (pieces source) =
        Token.spansOf Kind.isAtWord (Token.tokenize source file)) := by
  have shown := shown_pieces source
  refine ⟨?strings, ?comments, ?atWords⟩
  case strings =>
    refine shown.alike additive_covers counterpart_strings
      (fun _ position inner selected => covers_selected position selected) []
      (unfollowed_of_tokens fun token _ keyword string => ?_)
    rw [beq_iff_eq.mp string] at keyword
    cases keyword
  case comments =>
    refine shown.alike additive_eq counterpart_comments (fun string => ?_) []
      (unfollowed_of_tokens fun token _ keyword comment => ?_)
    · cases string
    · rw [beq_iff_eq.mp comment] at keyword
      cases keyword
  case atWords =>
    intro apart
    refine shown.alike additive_eq counterpart_atWords (fun string => ?_) []
      (unfollowed_of_tokens fun token member keyword _ => apart token member keyword)
    cases string

def quotedSource : String := "@req \"\\\"\" # \"\n@fn \"\\\n"

theorem pieces_agree_tokens_of_quotedSource :
    (∀ token ∈ Token.tokenize quotedSource "a.sage", token.kind.isAtWord = true →
      (quotedSource.toList[token.span.stop.offset.toNat]?).any isForeign = false) ∧
    spansOf Category.isAtWord "a.sage" .first (pieces quotedSource) =
      Token.spansOf Kind.isAtWord (Token.tokenize quotedSource "a.sage") := by
  have apart : ∀ token ∈ Token.tokenize quotedSource "a.sage", token.kind.isAtWord = true →
      (quotedSource.toList[token.span.stop.offset.toNat]?).any isForeign = false := by
    decide +kernel
  exact ⟨apart, (pieces_agree_tokens quotedSource "a.sage").2.2 apart⟩

/-- A keyword to the tokens only. -/
example : spansOf Category.isAtWord "a.sage" .first (pieces "@fné") = [] ∧
    Token.spansOf Kind.isAtWord (Token.tokenize "@fné" "a.sage") =
      [⟨"a.sage", ⟨0, 1, 1⟩, ⟨3, 1, 4⟩⟩] := by
  decide +kernel

end Agreement

end SageNotation.Highlight
