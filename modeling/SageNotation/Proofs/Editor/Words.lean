import SageNotation.Proofs.Editor.Ranges
import SageNotation.Proofs.Source.Lines
import SageNotation.Proofs.Token.Spelling

/-!
The word at a cursor and the token there.

A token is cut where the characters of its own notion of a word end, which are ASCII; the
word at a cursor takes letters of every script and at signs as well, and it is looked for
on one of the lines that the text is shown by.  Where newlines are the only breaks of a text,
its rows are these lines.  Then a keyword or an identifier with no further word character
on either side is the word at every cursor from ahead of it to right behind it
(`wordAt_of_alone`).
-/

namespace SageNotation

namespace Text

/-- Every line break is a newline or a carriage return ahead of one. -/
def OnlyNewlines : List Char → Prop
  | [] => True
  | character :: rest =>
      (isLineBreak character = true →
        character = '\n' ∨ (character = '\r' ∧ rest.head? = some '\n')) ∧ OnlyNewlines rest

instance decidableOnlyNewlines : (text : List Char) → Decidable (OnlyNewlines text)
  | [] => .isTrue trivial
  | _ :: rest =>
      have := decidableOnlyNewlines rest
      inferInstanceAs (Decidable (_ ∧ _))

theorem OnlyNewlines.of_append {front rest : List Char} (only : OnlyNewlines (front ++ rest)) :
    OnlyNewlines rest := by
  induction front with
  | nil => exact only
  | cons character others ih => exact ih only.2

theorem OneLine.cons {character : Char} {row : List Char} (plain : isLineBreak character = false)
    (whole : OneLine row) : OneLine (character :: row) := by
  obtain ⟨line, same, others⟩ := whole
  refine ⟨character :: line, ?_, List.forall_mem_cons.mpr ⟨plain, others⟩⟩
  rcases same with rfl | rfl
  · exact Or.inl rfl
  · exact Or.inr rfl

theorem OnlyNewlines.oneLine {row : List Char} {below : List (List Char)}
    (only : OnlyNewlines (row ++ SourceText.begun below)) (unbroken : '\n' ∉ row) :
    OneLine row := by
  induction row with
  | nil => exact ⟨[], Or.inl rfl, List.forall_mem_nil _⟩
  | cons character rest ih =>
      obtain ⟨here, later⟩ := only
      have free : '\n' ∉ rest := fun member => unbroken (List.mem_cons_of_mem _ member)
      cases breaks : isLineBreak character with
      | false => exact (ih later free).cons breaks
      | true =>
          rcases here breaks with rfl | ⟨rfl, next⟩
          · exact absurd List.mem_cons_self unbroken
          · cases rest with
            | nil => exact ⟨[], Or.inr rfl, List.forall_mem_nil _⟩
            | cons first others =>
                cases next
                exact absurd List.mem_cons_self free

theorem OnlyNewlines.oneLine_of_mem {source : SourceText}
    (only : OnlyNewlines source.content.toList) : ∀ row ∈ source.rows, OneLine row := by
  intro row member
  obtain ⟨above, below, split⟩ := List.append_of_mem member
  have inside : (SourceText.Cursor.mk above [] row below).rows = source.rows := split.symm
  rw [SourceText.Cursor.text_eq inside] at only
  have behind := only.of_append
  exact behind.oneLine (SourceText.Cursor.unbroken inside row (by rwa [inside]))

theorem OneLine.upToBreak_append {front back : List Char} (whole : OneLine (front ++ back))
    (last : front.getLast? ≠ some '\r') :
    Text.upToBreak (front ++ back) = front ++ Text.upToBreak back := by
  apply Text.upToBreak_append
  obtain ⟨line, same, plain⟩ := whole
  suffices within : front <+: line from fun character member => plain character (within.subset member)
  rcases same with same | same
  · exact ⟨back, same⟩
  · rcases List.eq_nil_or_concat back with rfl | ⟨others, final, rfl⟩
    · rw [List.append_nil] at same
      rw [same, List.getLast?_concat] at last
      exact absurd rfl last
    · rw [List.concat_eq_append, ← List.append_assoc] at same
      exact ⟨others, List.append_inj_left' same rfl⟩

end Text

namespace Editor

open Text SourceText

/-! ### The word on a line -/

/-- A run of word characters with none on either side is the word at every index from its start
to its end. -/
theorem wordAround_eq {front word back : List Char}
    (letters : ∀ letter ∈ word, isWordChar letter = true)
    (starts : ∀ previous ∈ front.getLast?, isWordChar previous = false)
    (stops : ∀ next ∈ back.head?, isWordChar next = false) {index : Nat}
    (within : index ≤ word.length) :
    wordAround (front ++ (word ++ back)) (front.length + index) = String.ofList word := by
  have ahead : ((word.take index).reverse ++ front.reverse).takeWhile isWordChar =
      (word.take index).reverse := by
    apply Token.takeWhile_ended
    · exact fun letter member => letters letter (List.mem_of_mem_take (List.mem_reverse.mp member))
    · rwa [List.head?_reverse]
  have behind : (word.drop index ++ back).takeWhile isWordChar = word.drop index :=
    Token.takeWhile_ended (fun letter member => letters letter (List.mem_of_mem_drop member)) stops
  rw [wordAround, List.take_length_add_append, List.drop_length_add_append,
    List.take_append_of_le_length within, List.drop_append_of_le_length within,
    List.reverse_append, ahead, behind, List.reverse_reverse, List.take_append_drop]

theorem exists_cursorIndex {length start width : Nat} {character : Int}
    (inside : start + width ≤ length) (positive : 0 < width) (low : start ≤ character)
    (high : character ≤ start + width) :
    ∃ index ≤ width, cursorIndex? length character = some (start + index) := by
  unfold cursorIndex?
  rw [if_neg (by omega)]
  by_cases before : character < length
  · refine ⟨character.toNat - start, by omega, ?_⟩
    rw [if_pos before]
    congr 1
    omega
  · -- Right behind the last character of the line, which is then that of the word.
    refine ⟨width - 1, by omega, ?_⟩
    rw [if_neg before, if_pos (by omega)]
    congr 1
    omega

/-- A word ahead of a cursor, where every row of the text is a line. -/
theorem wordAt_cursor {source : SourceText} {cursor : Cursor} {word more : List Char}
    (inside : cursor.rows = source.rows) (whole : ∀ row ∈ source.rows, OneLine row)
    (right : cursor.right = word ++ more) (nonempty : word ≠ [])
    (letters : ∀ letter ∈ word, isWordChar letter = true)
    (starts : ∀ previous ∈ cursor.left.getLast?, isWordChar previous = false)
    (stops : ∀ next ∈ more.head?, isWordChar next = false) {character : Int}
    (low : cursor.left.length ≤ character) (high : character ≤ cursor.left.length + word.length) :
    wordAt source.content cursor.above.length character = String.ofList word := by
  rw [← inside, Cursor.rows, List.forall_mem_append, List.forall_mem_cons] at whole
  obtain ⟨above, own, _⟩ := whole
  have row : cursor.row = (cursor.left ++ word) ++ more := by
    rw [Cursor.row, right, List.append_assoc]
  have last : (cursor.left ++ word).getLast? ≠ some '\r' := by
    rw [List.getLast?_append_of_ne_nil _ nonempty]
    intro carriage
    have letter := letters '\r' (List.mem_of_getLast? carriage)
    cases letter
  rw [row] at own
  have line : upToBreak cursor.row = cursor.left ++ (word ++ upToBreak more) := by
    rw [row, own.upToBreak_append last, List.append_assoc]
  have ends : ∀ next ∈ (upToBreak more).head?, isWordChar next = false := by
    intro next member
    rw [upToBreak, List.head?_takeWhile] at member
    exact stops next (Option.mem_filter_iff.mp member).1
  have full : cursor.row ++ begun cursor.below ≠ [] := by
    rw [row]
    simp only [ne_eq, List.append_eq_nil_iff, nonempty, and_false, false_and, not_false_eq_true]
  have fits : cursor.left.length + word.length ≤ (upToBreak cursor.row).length := by
    rw [line, List.length_append, List.length_append]
    omega
  obtain ⟨index, within, found⟩ :=
    exists_cursorIndex fits (List.length_pos_iff.mpr nonempty) low high
  rw [wordAt, if_neg (by omega), Int.toNat_natCast, lineChars_cursor inside above, if_neg full]
  dsimp only
  rw [found, line]
  exact wordAround_eq letters starts ends within

/-! ### The token on the line -/

theorem isWordChar_of_token {character : Char} (letter : Token.isWordChar character = true) :
    isWordChar character = true := by
  have same : isWordChar character = (Token.isWordChar character || character == '@') := by
    rw [isWordChar, isAlphanumeric, if_pos (Token.lt_of_isWordChar letter)]
    rfl
  rw [same, letter, Bool.true_or]

theorem isWordChar_of_spelled {first : Char} {rest : List Char} {kind : Kind}
    (spelled : Token.Spelled first rest kind) : isWordChar first = true := by
  rcases spelled with ⟨rfl, _⟩ | ⟨letter, _⟩
  · decide
  · exact isWordChar_of_token (Token.isWordChar_of_isWordStart letter)

/-- Where a keyword or an identifier was cut: the characters before it, its own, and those
behind it. -/
structure CutWord (text : String) (token : Token) (before letters behind : List Char) : Prop where
  split : text.toList = before ++ (letters ++ behind)
  start : token.span.start = Position.first.after before
  stop : token.span.stop = token.span.start.after letters
  value : token.value = String.ofList letters
  nonempty : letters ≠ []
  run : ∀ letter ∈ letters, isWordChar letter = true

theorem exists_cutWord {text file : String} {token : Token}
    (member : token ∈ Token.tokenize text file) (word : token.kind.isWord = true) :
    ∃ before letters behind, CutWord text token before letters behind := by
  have marked : token.kind ≠ .eof := by
    intro same
    rw [same] at word
    cases word
  obtain ⟨before, first, rest, kind, split, found, rfl⟩ := Token.cut_of_mem_scan member marked
  change kind.isWord = true at word
  have own := (Token.divided_by_run found (Kind.run?_of_isWord word)).1
  have line : kind ≠ .newline := by
    rintro rfl
    cases word
  rw [own]
  refine ⟨before, first :: rest.takeWhile Token.isWordChar, rest.dropWhile Token.isWordChar, ?_⟩
  refine
    { split := ?_
      start := rfl
      stop := if_neg line
      value := Token.valueOf_isWord word _ _
      nonempty := List.cons_ne_nil _ _
      run := ?_ }
  · rw [List.cons_append, List.takeWhile_append_dropWhile]
    exact split
  · refine List.forall_mem_cons.mpr ⟨isWordChar_of_spelled (Token.spelled_of_isWord found word), ?_⟩
    exact fun letter within => isWordChar_of_token (List.all_eq_true.mp List.all_takeWhile _ within)

/-- No word character of the editor on either side of a token. -/
structure Alone (text : String) (token : Token) : Prop where
  before : ∀ previous ∈ (text.toList.take token.span.start.offset.toNat).getLast?,
    isWordChar previous = false
  behind : ∀ next ∈ (text.toList.drop token.span.stop.offset.toNat).head?, isWordChar next = false

section Cut

variable {text : String} {token : Token} {before letters behind : List Char}

theorem CutWord.sides (place : CutWord text token before letters behind)
    (alone : Alone text token) : (∀ previous ∈ before.getLast?, isWordChar previous = false) ∧
      ∀ next ∈ behind.head?, isWordChar next = false := by
  have start : token.span.start.offset.toNat = before.length := by
    rw [place.start, Position.offset_after]
    change ((0 : Int) + _).toNat = _
    omega
  have stop : token.span.stop.offset.toNat = (before ++ letters).length := by
    rw [place.stop, Position.offset_after, place.start, Position.offset_after, List.length_append]
    change ((0 : Int) + _ + _).toNat = _
    omega
  obtain ⟨ahead, next⟩ := alone
  rw [place.split, start, List.take_left] at ahead
  rw [place.split, stop, ← List.append_assoc, List.drop_left] at next
  exact ⟨ahead, next⟩

theorem CutWord.exists_cursor (place : CutWord text token before letters behind) (file : String) :
    ∃ cursor : Cursor, cursor.rows = (SourceText.mk file text).rows ∧ cursor.before = before ∧
      cursor.right = letters ++ behind.takeWhile (· != '\n') := by
  have within : before.length ≤ (SourceText.mk file text).length := by
    change before.length ≤ text.toList.length
    rw [place.split, List.length_append]
    exact Nat.le_add_right _ _
  obtain ⟨cursor, inside, length⟩ := Cursor.exists_at _ within
  have whole : cursor.before ++ cursor.behind = before ++ (letters ++ behind) :=
    (Cursor.text_eq inside).symm.trans place.split
  obtain ⟨same, ahead⟩ := List.append_inj whole length
  refine ⟨cursor, inside, same, ?_⟩
  rw [← takeWhile_behind inside, ahead]
  apply List.takeWhile_append_of_pos
  intro letter member
  apply bne_iff_ne.mpr
  rintro rfl
  cases place.run _ member

theorem CutWord.wordAt_eq (place : CutWord text token before letters behind)
    (only : OnlyNewlines text.toList) (alone : Alone text token) {character : Int}
    (low : token.span.start.col - 1 ≤ character) (high : character ≤ token.span.stop.col - 1) :
    wordAt text (token.span.start.line - 1) character = token.value := by
  obtain ⟨cursor, inside, rfl, right⟩ := place.exists_cursor ""
  obtain ⟨starts, stops⟩ := place.sides alone
  have free : '\n' ∉ letters := fun member => by cases place.run _ member
  have start := place.start.trans (Cursor.after_before inside)
  rw [place.stop, Position.after_unbroken free, start] at high
  rw [start] at low ⊢
  dsimp only at low high ⊢
  have row : (cursor.above.length : Int) + 1 - 1 = cursor.above.length := by omega
  rw [row, place.value]
  apply wordAt_cursor inside only.oneLine_of_mem right place.nonempty place.run
  · intro previous member
    apply starts
    rw [Cursor.before, List.getLast?_append, member]
    rfl
  · intro next member
    rw [List.head?_takeWhile] at member
    exact stops next (Option.mem_filter_iff.mp member).1
  · omega
  · omega

end Cut

/-- For a word, the definition is that of the first declaration that introduces it. -/
theorem definitionOf_analyze (uri text : String) {word : String} (named : word ≠ "") :
    definitionOf (Checker.standard.analyze uri (some text)) word =
      (Item.firstNamed? word (Document.parse text uri).body).map fun decl =>
        Range.ofSpan decl.span := by
  have declared : (Checker.standard.analyze uri (some text)).declarations.find? word =
      Item.firstNamed? word (Document.parse text uri).body := find?_declarationsByName _ named
  have full : ¬ word.isEmpty = true := fun empty => named (String.isEmpty_iff.mp empty)
  rw [definitionOf, if_neg full, declared]

/-- In a text whose only breaks are newlines, a keyword or an identifier that stands alone is
the word at every cursor on it, also right behind it, and its definition there is that of the
first declaration that introduces it. -/
theorem wordAt_of_alone {text file : String} {token : Token} {character : Int}
    (only : OnlyNewlines text.toList) (member : token ∈ Token.tokenize text file)
    (word : token.kind.isWord = true) (alone : Alone text token)
    (low : token.span.start.col - 1 ≤ character) (high : character ≤ token.span.stop.col - 1) :
    wordAt text (token.span.start.line - 1) character = token.value ∧
      ∀ (session : Session) (uri : String),
        session.find? uri = some (Checker.standard.analyze uri (some text)) →
        session.definition uri ⟨token.span.start.line - 1, character⟩ =
          if (Place.mk (token.span.start.line - 1) character).isValid then
            .ok ((Item.firstNamed? token.value (Document.parse text uri).body).map fun decl =>
              Range.ofSpan decl.span)
          else .error .invalidPlace := by
  obtain ⟨before, letters, behind, place⟩ := exists_cutWord member word
  have found := place.wordAt_eq only alone low high
  have named : token.value ≠ "" := by
    rw [place.value]
    exact fun empty => place.nonempty (String.ofList_eq_empty_iff.mp empty)
  refine ⟨found, fun session uri known => ?_⟩
  rw [definition_open known rfl, found, definitionOf_analyze uri text named]

def mention : String := "@mod bank\r\n@fn pay -> bank"

theorem wordAt_of_alone_at_end :
    wordAt mention 1 15 = "bank" ∧
      (Session.empty.analyze "f.sage" (some mention)).1.definition "f.sage" ⟨1, 15⟩ =
        .ok (some ⟨⟨0, 0⟩, ⟨0, 9⟩⟩) := by
  have only : OnlyNewlines mention.toList := by decide +kernel
  have member : ⟨.identifier, "bank", ⟨"f.sage", ⟨22, 2, 12⟩, ⟨26, 2, 16⟩⟩⟩ ∈
      Token.tokenize mention "f.sage" := by decide +kernel
  have ahead : (mention.toList.take 22).getLast? = some ' ' := by decide +kernel
  have ended : (mention.toList.drop 26).head? = none := by decide +kernel
  have alone : Alone mention ⟨.identifier, "bank", ⟨"f.sage", ⟨22, 2, 12⟩, ⟨26, 2, 16⟩⟩⟩ := by
    constructor
    · intro previous member
      cases ahead.symm.trans member
      decide
    · intro next member
      cases ended.symm.trans member
  have low : (12 : Int) - 1 ≤ 15 := by decide
  have high : (15 : Int) ≤ 16 - 1 := by decide
  obtain ⟨word, definition⟩ := wordAt_of_alone only member rfl alone low high
  have known : (Session.empty.analyze "f.sage" (some mention)).1.find? "f.sage" =
      some (Checker.standard.analyze "f.sage" (some mention)) := List.lookup_cons_self
  refine ⟨word, (definition _ "f.sage" known).trans ?_⟩
  have declared : ((Item.firstNamed? "bank" (Document.parse mention "f.sage").body).map fun decl =>
      Range.ofSpan decl.span) = some ⟨⟨0, 0⟩, ⟨0, 9⟩⟩ := by decide +kernel
  dsimp only
  rw [declared]
  rfl

end Editor

end SageNotation
