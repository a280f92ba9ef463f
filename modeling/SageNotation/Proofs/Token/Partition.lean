import SageNotation.Proofs.Source.Order
import SageNotation.Proofs.Token.Lexeme
import SageNotation.Source.Text

/-!
Tokens as a partition of their text.

`cut` is the token that a lexeme makes of its characters.  Three facts about
`scan` carry the rest: its tokens follow each other and the end mark comes last
(`scan_laid`), each of them was cut from the text at its own offset
(`cut_of_mem_scan`), and a character outside all of them starts no token
(`covered_or_passed`).  `Partitions` says what a run of tokens owes to its text.
-/

namespace SageNotation.Token

/-! ### The content of a string -/

/-- Characters that may stand between the quotes of a string: no quote and no
backslash by itself, but a backslash with any character after it. -/
inductive Quotable : List Char → Prop where
  | nil : Quotable []
  | plain {character : Char} {rest : List Char} (notQuote : character ≠ '"')
      (notBackslash : character ≠ '\\') (others : Quotable rest) : Quotable (character :: rest)
  | escaped (character : Char) {rest : List Char} (others : Quotable rest) :
      Quotable ('\\' :: character :: rest)

/-- The characters without each backslash that escapes the one after it, and
without a last backslash that escapes nothing. -/
def unescaped : List Char → List Char
  | [] => []
  | ['\\'] => []
  | '\\' :: character :: rest => character :: unescaped rest
  | character :: rest => character :: unescaped rest

def Dangling (inner : List Char) : Prop :=
  ∃ body, inner = body ++ ['\\'] ∧ Quotable body

theorem stringContent_plain {character : Char} (rest : List Char) (notQuote : character ≠ '"')
    (notBackslash : character ≠ '\\') :
    stringContent (character :: rest) = character :: stringContent rest := by
  rw [stringContent] <;> intros <;> contradiction

theorem unescaped_plain {character : Char} (rest : List Char) (notBackslash : character ≠ '\\') :
    unescaped (character :: rest) = character :: unescaped rest := by
  rw [unescaped] <;> intros <;> contradiction

theorem string_cases (text : List Char) :
    (∃ inner, text.take (stringExtent text) = inner ++ ['"'] ∧ Quotable inner ∧
      stringContent (text.take (stringExtent text)) = unescaped inner) ∨
    (text.take (stringExtent text) = text ∧ (Quotable text ∨ Dangling text) ∧ stringContent text = unescaped text) := by
  fun_induction stringExtent text with
  | case1 => exact Or.inr ⟨rfl, Or.inl .nil, rfl⟩
  | case2 rest => exact Or.inl ⟨[], rfl, .nil, rfl⟩
  | case3 character rest ih =>
      simp only [List.take_succ_cons, stringContent]
      rcases ih with ⟨inner, same, quotable, content⟩ | ⟨same, quotable, content⟩
      · left
        refine ⟨'\\' :: character :: inner, ?_, .escaped character quotable, ?_⟩
        · rw [same]; rfl
        · rw [content]; rfl
      · right
        rw [same, content]
        refine ⟨rfl, ?_, rfl⟩
        rcases quotable with whole | ⟨body, split, front⟩
        · exact Or.inl (.escaped character whole)
        · right
          exact ⟨'\\' :: character :: body, by rw [split]; rfl, .escaped character front⟩
  | case4 character rest notQuote notEscape ih =>
      simp only [List.take_succ_cons]
      by_cases backslash : character = '\\'
      · cases rest with
        | nil =>
            subst backslash
            exact Or.inr ⟨rfl, Or.inr ⟨[], rfl, .nil⟩, rfl⟩
        | cons next others => exact False.elim (notEscape next others backslash rfl)
      · rw [stringContent_plain _ notQuote backslash, stringContent_plain _ notQuote backslash]
        rcases ih with ⟨inner, same, quotable, content⟩ | ⟨same, quotable, content⟩
        · left
          refine ⟨character :: inner, ?_, .plain notQuote backslash quotable, ?_⟩
          · rw [same]; rfl
          · rw [content, unescaped_plain _ backslash]
        · right
          rw [same, content, unescaped_plain _ backslash]
          refine ⟨rfl, ?_, rfl⟩
          rcases quotable with whole | ⟨body, split, front⟩
          · exact Or.inl (.plain notQuote backslash whole)
          · right
            exact ⟨character :: body, by rw [split]; rfl, .plain notQuote backslash front⟩
/-! ### Cutting one token -/

/-- A token that stands between two offsets of the named text. -/
def Between (file : String) (low high : Int) (token : Token) : Prop :=
  token.span.Between file low high

theorem widens_between (file : String) : Widens (Between file) :=
  fun _ _ _ _ _ here below above => Span.widens_between file here below above

def cut (file : String) (position : Position) (kind : Kind) (first : Char)
    (others : List Char) : Token :=
  { kind := kind
    value := valueOf kind first others
    span := ⟨file, position, stopOf kind position (first :: others)⟩ }

section Cut

variable {file : String} {position : Position} {first : Char} {rest : List Char} {kind : Kind}

theorem offset_stop_cut (file : String) (position : Position)
    (found : (lexeme first rest).kind = some kind) :
    (cut file position kind first (rest.take (lexeme first rest).extra)).span.stop.offset =
      position.offset + (first :: rest.take (lexeme first rest).extra).length := by
  change (stopOf kind position (first :: rest.take (lexeme first rest).extra)).offset = _
  unfold stopOf
  split
  · rename_i newline
    subst newline
    rw [extra_of_newline found]
    rfl
  · exact Position.offset_after _ _

theorem between_cut (found : (lexeme first rest).kind = some kind) :
    Between file position.offset
      (position.after (first :: rest.take (lexeme first rest).extra)).offset
      (cut file position kind first (rest.take (lexeme first rest).extra)) := by
  have stop := offset_stop_cut file position found
  rw [Position.offset_after]
  rw [List.length_cons] at stop ⊢
  refine ⟨rfl, Int.le_refl _, ?_, Int.le_of_eq stop⟩
  change position.offset < _
  omega

theorem scan_cut (found : (lexeme first rest).kind = some kind) :
    scan file position (first :: rest) =
      cut file position kind first (rest.take (lexeme first rest).extra) ::
        scan file (position.after (first :: rest.take (lexeme first rest).extra))
          (rest.drop (lexeme first rest).extra) := by
  rw [scan, found]
  rfl

theorem scan_passed (found : (lexeme first rest).kind = none) :
    scan file position (first :: rest) = scan file (position.after [first]) rest := by
  rw [scan, found, (passed_over found).2]
  rfl

end Cut

/-- Every text is empty, or starts with a character that is passed over, or with
a token.  Scanning goes on with what is left. -/
theorem scan_induction {motive : Position → List Char → Prop}
    (empty : ∀ position, motive position [])
    (passed : ∀ position first rest, (lexeme first rest).kind = none →
      motive (position.after [first]) rest → motive position (first :: rest))
    (token : ∀ position first rest kind, (lexeme first rest).kind = some kind →
      motive (position.after (first :: rest.take (lexeme first rest).extra))
        (rest.drop (lexeme first rest).extra) → motive position (first :: rest))
    (position : Position) (text : List Char) : motive position text := by
  induction position, text using scan.induct with
  | case1 position => exact empty position
  | case2 position first rest found others following none ih =>
      have nothing := (passed_over none).2
      apply passed position first rest none
      simpa only [following, others, found, nothing, List.take_zero, List.drop_zero] using ih
  | case3 position first rest found others following kind some ih =>
      exact token position first rest kind some ih

/-- The end mark comes last, and the tokens before it follow each other through
the text. -/
theorem scan_laid (file : String) (position : Position) (text : List Char) :
    ∃ front, scan file position text = front ++ [endMark file (position.after text)] ∧
      (∀ token ∈ front, token.kind ≠ .eof) ∧
      InOrder (Between file) position.offset (position.after text).offset front := by
  induction position, text using scan_induction with
  | empty position =>
      refine ⟨[], ?_, ?_, Int.le_refl _⟩
      · rw [scan]
        rfl
      · intro token member
        cases member
  | passed position first rest found ih =>
      obtain ⟨front, same, marks, ordered⟩ := ih
      refine ⟨front, ?_, marks, ?_⟩
      · rw [scan_passed found, same]
        rfl
      · refine ordered.widen (widens_between file) ?_ (Int.le_refl _)
        rw [Position.offset_after]
        omega
  | token position first rest kind found ih =>
      obtain ⟨front, same, marks, ordered⟩ := ih
      have whole : first :: rest = (first :: rest.take (lexeme first rest).extra) ++
          rest.drop (lexeme first rest).extra := by
        rw [List.cons_append, List.take_append_drop]
      refine ⟨cut file position kind first (rest.take (lexeme first rest).extra) :: front,
        ?_, ?_, ?_⟩
      · rw [scan_cut found, same, ← Position.after_append, ← whole]
        rfl
      · intro token member
        rcases List.mem_cons.mp member with here | later
        · rw [here]
          exact kind_ne_eof found
        · exact marks token later
      · rw [whole, Position.after_append]
        refine ⟨_, ?_, between_cut found, ordered⟩
        rw [Position.offset_after]
        omega

theorem cut_of_mem_scan {file : String} {position : Position} {text : List Char} {token : Token}
    (member : token ∈ scan file position text) (marked : token.kind ≠ .eof) :
    ∃ before first rest kind, text = before ++ first :: rest ∧
      (lexeme first rest).kind = some kind ∧
      token = cut file (position.after before) kind first
        (rest.take (lexeme first rest).extra) := by
  induction position, text using scan_induction with
  | empty position =>
      rw [scan, List.mem_singleton] at member
      rw [member] at marked
      exact False.elim (marked rfl)
  | passed position first rest found ih =>
      rw [scan_passed found] at member
      obtain ⟨before, next, others, kind, split, known, same⟩ := ih member
      refine ⟨first :: before, next, others, kind, ?_, known, same⟩
      rw [split]
      rfl
  | token position first rest kind found ih =>
      rw [scan_cut found] at member
      rcases List.mem_cons.mp member with here | later
      · exact ⟨[], first, rest, kind, rfl, found, here⟩
      · obtain ⟨before, next, others, kind, split, known, same⟩ := ih later
        refine ⟨(first :: rest.take (lexeme first rest).extra) ++ before, next, others, kind,
          ?_, known, ?_⟩
        · rw [List.append_assoc, ← split, List.cons_append, List.take_append_drop]
        · rw [Position.after_append]
          exact same

/-- A character belongs to a token, or no token starts with it. -/
theorem covered_or_passed (file : String) (position : Position) (text : List Char)
    (index : Nat) (character : Char) (here : text[index]? = some character) :
    (∃ token ∈ scan file position text, token.span.start.offset ≤ position.offset + index ∧
      position.offset + index < token.span.stop.offset) ∨ startsToken character = false := by
  induction position, text using scan_induction generalizing index with
  | empty position => cases here
  | passed position first rest found ih =>
      cases index with
      | zero =>
          cases here
          exact Or.inr (passed_over found).1
      | succ index =>
          rw [List.getElem?_cons_succ] at here
          rcases ih index here with ⟨token, member, above, below⟩ | none
          · left
            rw [Position.offset_after, List.length_singleton] at above below
            rw [scan_passed found]
            refine ⟨token, member, ?_, ?_⟩ <;> omega
          · exact Or.inr none
  | token position first rest kind found ih =>
      rw [scan_cut found]
      have stop := offset_stop_cut file position found
      by_cases inside : index < (first :: rest.take (lexeme first rest).extra).length
      · left
        refine ⟨_, List.mem_cons_self, ?_, ?_⟩
        · change position.offset ≤ _
          omega
        · rw [stop]
          omega
      · have whole : first :: rest = (first :: rest.take (lexeme first rest).extra) ++
            rest.drop (lexeme first rest).extra := by
          rw [List.cons_append, List.take_append_drop]
        rw [whole, List.getElem?_append_right (Nat.le_of_not_lt inside)] at here
        rcases ih _ here with ⟨token, member, above, below⟩ | none
        · left
          rw [Position.offset_after] at above below
          refine ⟨token, List.mem_cons_of_mem _ member, ?_, ?_⟩ <;> omega
        · exact Or.inr none

/-! ### Tokens and the text they were cut from -/

theorem slice_middle {text : SourceText} {before middle after : List Char}
    (split : text.content.toList = before ++ (middle ++ after)) :
    text.slice before.length (before.length + middle.length) = String.ofList middle := by
  have stop : ((before.length : Int) + middle.length).toNat = before.length + middle.length := by
    omega
  rw [SourceText.slice, split, stop, Int.toNat_natCast, List.take_length_add_append,
    List.take_left, List.drop_left]

/-- Where a token of a text was cut: the characters before it, its first
character, and those ahead of that. -/
structure CutAt (source : String) (token : Token) (before : List Char) (first : Char)
    (rest : List Char) : Prop where
  text : source.toList = before ++ first :: rest
  found : (lexeme first rest).kind = some token.kind
  value : token.value = valueOf token.kind first (rest.take (lexeme first rest).extra)
  start : token.span.start.offset = before.length
  stop : token.span.stop.offset =
    before.length + (first :: rest.take (lexeme first rest).extra).length

theorem exists_cutAt {source file : String} {token : Token}
    (member : token ∈ tokenize source file) (marked : token.kind ≠ .eof) :
    ∃ before first rest, CutAt source token before first rest := by
  obtain ⟨before, first, rest, kind, text, found, same⟩ := cut_of_mem_scan member marked
  have place : (Position.first.after before).offset = before.length := by
    rw [Position.offset_after]
    exact Int.zero_add _
  refine ⟨before, first, rest, text, ?_, ?_, ?_, ?_⟩
  · rw [same]
    exact found
  · rw [same]
    rfl
  · rw [same]
    exact place
  · rw [same, offset_stop_cut file _ found, place]

namespace CutAt

variable {source : String} {token : Token} {before rest : List Char} {first : Char}

theorem spanText_eq (place : CutAt source token before first rest) (file : String) :
    (SourceText.mk file source).spanText token.span =
      String.ofList (first :: rest.take (lexeme first rest).extra) := by
  rw [SourceText.spanText, place.start, place.stop]
  apply slice_middle
  change source.toList = before ++ (first :: _ ++ rest.drop (lexeme first rest).extra)
  rw [List.cons_append, List.take_append_drop]
  exact place.text

theorem slice_tail (place : CutAt source token before first rest) (file : String) :
    (SourceText.mk file source).slice (token.span.start.offset + 1) token.span.stop.offset =
      String.ofList (rest.take (lexeme first rest).extra) := by
  have start : token.span.start.offset + 1 = ((before ++ [first]).length : Nat) := by
    rw [place.start, List.length_append, List.length_singleton]
    omega
  have stop : token.span.stop.offset =
      ((before ++ [first]).length : Nat) + (rest.take (lexeme first rest).extra).length := by
    rw [place.stop, List.length_append, List.length_singleton, List.length_cons]
    omega
  rw [start, stop]
  apply slice_middle
  change source.toList = (before ++ [first]) ++ (_ ++ rest.drop (lexeme first rest).extra)
  rw [List.take_append_drop, List.append_assoc]
  exact place.text

theorem next_eq (place : CutAt source token before first rest) :
    source.toList[token.span.stop.offset.toNat]? =
      (rest.drop (lexeme first rest).extra).head? := by
  have text : source.toList = (before ++ first :: rest.take (lexeme first rest).extra) ++
      rest.drop (lexeme first rest).extra := by
    rw [List.append_assoc, List.cons_append, List.take_append_drop]
    exact place.text
  have stop : token.span.stop.offset.toNat =
      (before ++ first :: rest.take (lexeme first rest).extra).length := by
    rw [place.stop, List.length_append]
    omega
  rw [text, stop, List.getElem?_append_right (Nat.le_refl _), Nat.sub_self,
    List.head?_eq_getElem?]

theorem divided_at_run {run : Char → Bool} (place : CutAt source token before first rest)
    (runs : token.kind.run? = some run) :
    rest.take (lexeme first rest).extra = rest.takeWhile run ∧
      rest.drop (lexeme first rest).extra = rest.dropWhile run :=
  divided_by_run place.found runs

/-- A token of a kind with a run of its own ends where that run ends. -/
theorem next_of_run {run : Char → Bool} {character : Char}
    (place : CutAt source token before first rest) (runs : token.kind.run? = some run)
    (next : source.toList[token.span.stop.offset.toNat]? = some character) :
    run character = false := by
  rw [place.next_eq, (place.divided_at_run runs).2] at next
  have stopped := List.head?_dropWhile_not run rest
  rw [next] at stopped
  exact stopped

theorem run_of_mem {run : Char → Bool} {character : Char}
    (place : CutAt source token before first rest) (runs : token.kind.run? = some run)
    (member : character ∈ rest.take (lexeme first rest).extra) : run character = true := by
  rw [(place.divided_at_run runs).1] at member
  exact List.all_eq_true.mp List.all_takeWhile character member

theorem value_of_verbatim (place : CutAt source token before first rest)
    (comment : token.kind ≠ .comment) (string : token.kind ≠ .string) (file : String) :
    token.value = (SourceText.mk file source).spanText token.span := by
  rw [place.value, place.spanText_eq file]
  unfold valueOf
  split
  · rename_i same
    exact False.elim (comment same)
  · rename_i same
    exact False.elim (string same)
  · rfl

theorem value_of_comment (place : CutAt source token before first rest)
    (comment : token.kind = .comment) (file : String) :
    token.value = Text.trim
      ((SourceText.mk file source).slice (token.span.start.offset + 1) token.span.stop.offset) := by
  rw [place.value, place.slice_tail file, comment, Text.trim, String.toList_ofList]
  rfl

end CutAt

theorem CutAt.not_keyword {source : String} {token : Token} {before rest : List Char}
    {first : Char} (place : CutAt source token before first rest)
    (identifier : token.kind = .identifier) :
    token.value ∉ Kind.atWords.map Prod.fst ∧ token.value ∉ Kind.plainWords.map Prod.fst := by
  have found := place.found
  rw [identifier] at found
  have runs : token.kind.run? = some isWordChar := by rw [identifier]; rfl
  have value : token.value = String.ofList (first :: rest.takeWhile isWordChar) := by
    rw [place.value, identifier, (place.divided_at_run runs).1]
    rfl
  rw [value]
  exact (spelled_of_identifier found).not_keyword

/-- The characters of a string token, quotes included, and what they stand for.
Only the end of the text may take the place of the closing quote. -/
inductive StringText (atEnd : Prop) : List Char → List Char → Prop where
  | closed (inner : List Char) (quotable : Quotable inner) :
      StringText atEnd ('"' :: (inner ++ ['"'])) (unescaped inner)
  | unclosed (inner : List Char) (last : atEnd) (quotable : Quotable inner ∨ Dangling inner) :
      StringText atEnd ('"' :: inner) (unescaped inner)

theorem CutAt.stringText {source : String} {token : Token} {before rest : List Char} {first : Char}
    (place : CutAt source token before first rest) (string : token.kind = .string)
    (file : String) :
    StringText (token.span.stop.offset = source.length)
      ((SourceText.mk file source).spanText token.span).toList token.value.toList := by
  have found := place.found
  rw [string] at found
  obtain ⟨quote, extent⟩ := extra_of_string found
  have value : token.value.toList = stringContent (rest.take (stringExtent rest)) := by
    rw [place.value, string, ← extent]
    exact String.toList_ofList
  rw [place.spanText_eq file, String.toList_ofList, value, extent, quote]
  rcases string_cases rest with ⟨inner, same, quotable, content⟩ | ⟨same, quotable, content⟩
  · rw [content, same]
    exact .closed inner quotable
  · rw [same, content]
    refine .unclosed rest ?_ quotable
    rw [place.stop, extent, same, ← String.length_toList, place.text, List.length_append]
    omega

/-! ### The partition -/

/-- What a run of tokens owes to the text they were cut from. -/
structure Partitions (source file : String) (tokens : List Token) : Prop where
  /-- The last token and no other is the end mark, and it is empty at the end of the text. -/
  ended : ∃ front mark, tokens = front ++ [mark] ∧ (∀ token ∈ front, token.kind ≠ .eof) ∧
    mark.kind = .eof ∧ mark.span.start = mark.span.stop ∧
    mark.span.start.offset = (source.length : Int)
  nonempty : ∀ token ∈ tokens, token.kind ≠ .eof → token.span.Between file 0 source.length
  ordered : tokens.Pairwise fun earlier later => earlier.span.Precedes later.span
  /-- A character outside all tokens is one with which no token starts. -/
  passed : ∀ (index : Nat) (character : Char), source.toList[index]? = some character →
    (∀ token ∈ tokens, ¬(token.span.start.offset ≤ index ∧ index < token.span.stop.offset)) →
    startsToken character = false
  verbatim : ∀ token ∈ tokens, token.kind ≠ .string → token.kind ≠ .comment →
    token.kind ≠ .eof → token.value = (SourceText.mk file source).spanText token.span
  comments : ∀ token ∈ tokens, token.kind = .comment →
    token.value = Text.trim ((SourceText.mk file source).slice
      (token.span.start.offset + 1) token.span.stop.offset)
  strings : ∀ token ∈ tokens, token.kind = .string →
    StringText (token.span.stop.offset = source.length)
      ((SourceText.mk file source).spanText token.span).toList token.value.toList
  /-- Words, numbers, dashes and comments go on as far as their characters do. -/
  maximal : ∀ token ∈ tokens, ∀ run, token.kind.run? = some run →
    (∀ character ∈ ((SourceText.mk file source).spanText token.span).toList.tail,
      run character = true) ∧
    ∀ character, source.toList[token.span.stop.offset.toNat]? = some character →
      run character = false
  identifiers : ∀ token ∈ tokens, token.kind = .identifier →
    token.value ∉ Kind.atWords.map Prod.fst ∧ token.value ∉ Kind.plainWords.map Prod.fst

/-- Scanning divides a text into tokens: nothing but characters that start no
token is left out, and what a token carries is read off its own stretch. -/
theorem tokenize_partitions (source file : String) :
    Partitions source file (tokenize source file) := by
  obtain ⟨front, same, marks, ordered⟩ := scan_laid file .first source.toList
  have stop : (Position.first.after source.toList).offset = source.length := by
    rw [Position.offset_after, String.length_toList]
    exact Int.zero_add _
  rw [stop] at ordered
  have laid : InOrder (Between file) 0 source.length front := ordered
  refine
    { ended := ?_
      nonempty := ?_
      ordered := ?_
      passed := ?_
      verbatim := ?_
      comments := ?_
      strings := ?_
      maximal := ?_
      identifiers := ?_ }
  · exact ⟨front, _, same, marks, rfl, rfl, stop⟩
  · intro token member marked
    rw [tokenize, same] at member
    rcases List.mem_append.mp member with within | last
    · exact laid.stands_of_mem (widens_between file) within
    · rw [List.mem_singleton.mp last] at marked
      exact False.elim (marked rfl)
  · rw [tokenize, same]
    apply List.pairwise_append.mpr
    refine ⟨?_, List.pairwise_singleton _ _, ?_⟩
    · exact laid.pairwise (widens_between file) fun _ _ _ _ _ => Span.precedes_of_between
    · intro earlier within last member
      rw [List.mem_singleton.mp member]
      have inside := laid.stands_of_mem (widens_between file) within
      exact Int.le_trans inside.before (Int.le_of_eq stop.symm)
  · intro index character here outside
    rcases covered_or_passed file .first source.toList index character here with covered | passed
    · obtain ⟨token, member, above, below⟩ := covered
      have zero : Position.first.offset + (index : Int) = index := Int.zero_add _
      rw [zero] at above below
      exact False.elim (outside token member ⟨above, below⟩)
    · exact passed
  · intro token member string comment marked
    obtain ⟨before, first, rest, place⟩ := exists_cutAt member marked
    exact place.value_of_verbatim comment string file
  · intro token member comment
    obtain ⟨before, first, rest, place⟩ := exists_cutAt member (by rw [comment]; decide)
    exact place.value_of_comment comment file
  · intro token member string
    obtain ⟨before, first, rest, place⟩ := exists_cutAt member (by rw [string]; decide)
    exact place.stringText string file
  · intro token member run runs
    obtain ⟨before, first, rest, place⟩ := exists_cutAt member (by
      intro marked
      rw [marked] at runs
      cases runs)
    refine ⟨?_, fun character => place.next_of_run runs⟩
    intro character within
    rw [place.spanText_eq file, String.toList_ofList, List.tail_cons] at within
    exact place.run_of_mem runs within
  · intro token member identifier
    obtain ⟨before, first, rest, place⟩ := exists_cutAt member (by rw [identifier]; decide)
    exact place.not_keyword identifier

end SageNotation.Token
