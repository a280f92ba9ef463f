import Mathlib.Data.List.TakeWhile
import SageNotation.Proofs.Token.Breaks

/-!
Tokens of a text that is put together at a line end.

What decides about a token is never further ahead than the next newline, a string
apart, and a string that is closed does not look behind its quote.  So a text
whose last token is the newline at its end gives its tokens whatever comes after
it (`scan_append`).  The tokens of the second text are those it has by itself,
moved down by the characters and lines of the first (`scan_below`).
-/

namespace SageNotation

namespace Position

def below (front : List Char) (position : Position) : Position :=
  { offset := position.offset + front.length
    line := position.line + front.count '\n'
    col := position.col }

theorem next_below (front : List Char) (position : Position) (character : Char) :
    (position.below front).next character = (position.next character).below front := by
  unfold next below
  split
  all_goals
    simp only [mk.injEq, and_true]
    omega

theorem after_below (front : List Char) (position : Position) (text : List Char) :
    (position.below front).after text = (position.after text).below front := by
  induction text generalizing position with
  | nil => rfl
  | cons character rest ih =>
      change ((position.below front).next character).after rest = _
      rw [next_below, ih]
      rfl

theorem line_after (position : Position) (text : List Char) :
    (position.after text).line = position.line + text.count '\n' := by
  induction text generalizing position with
  | nil => exact (Int.add_zero _).symm
  | cons character rest ih =>
      change ((position.next character).after rest).line = _
      rw [ih, List.count_cons, next]
      split
      · rename_i newline
        rw [newline, beq_self_eq_true, if_pos rfl]
        change position.line + 1 + _ = _
        omega
      · rename_i other
        rw [beq_false_of_ne other, if_neg Bool.false_ne_true]
        rfl

theorem after_newline (front : List Char) :
    first.after (front ++ ['\n']) = first.below (front ++ ['\n']) := by
  have lines := line_after first (front ++ ['\n'])
  have offset := offset_after first (front ++ ['\n'])
  have col : (first.after (front ++ ['\n'])).col = 1 := by
    rw [after_append]
    rfl
  cases same : first.after (front ++ ['\n']) with
  | mk _ _ _ =>
      rw [same] at lines offset col
      rw [below, ← lines, ← offset]
      exact congrArg _ col

end Position

def Span.below (front : List Char) (span : Span) : Span :=
  { span with start := span.start.below front, stop := span.stop.below front }

namespace Token

def below (front : List Char) (token : Token) : Token :=
  { token with span := token.span.below front }

/-! ### The second text -/

theorem stopOf_below (front : List Char) (kind : Kind) (start : Position) (text : List Char) :
    stopOf kind (start.below front) text = (stopOf kind start text).below front := by
  unfold stopOf
  split
  · simp only [Position.beside, Position.below, Position.mk.injEq, and_true]
    omega
  · exact Position.after_below front start text

/-- Tokens move with the place where scanning starts. -/
theorem scan_below (front : List Char) (file : String) (position : Position) (text : List Char) :
    scan file (position.below front) text = (scan file position text).map (below front) := by
  induction position, text using scan_induction with
  | empty position =>
      rw [scan, scan]
      rfl
  | passed position first rest found ih =>
      rw [scan_passed found, scan_passed found, Position.after_below, ih]
  | token position first rest kind found ih =>
      rw [scan_cut found, scan_cut found, Position.after_below, ih, List.map_cons]
      congr 1
      simp only [cut, stopOf_below, below, Span.below]

/-! ### The first text -/

section Append

variable {first : Char} {rest : List Char} {run : Char → Bool}

theorem takeWhile_append_of_mem {stop : Char} (ahead : stop ∈ rest) (stops : run stop = false)
    (back : List Char) : (rest ++ back).takeWhile run = rest.takeWhile run := by
  rw [List.takeWhile_append, if_neg]
  intro whole
  have all := List.takeWhile_eq_self_iff.mp ((List.takeWhile_prefix run).eq_of_length whole)
  rw [all stop ahead] at stops
  cases stops

theorem pair?_append (ahead : rest ≠ []) (first : Char) (back : List Char) :
    pair? first (rest ++ back) = pair? first rest := by
  cases rest with
  | nil => exact absurd rfl ahead
  | cons second others => rfl

theorem stringExtent_append {text : List Char} (closed : stringExtent text < text.length)
    (back : List Char) : stringExtent (text ++ back) = stringExtent text := by
  fun_induction stringExtent text with
  | case1 => exact absurd closed (Nat.lt_irrefl 0)
  | case2 rest => rfl
  | case3 character rest ih =>
      simp only [List.length_cons, Nat.add_lt_add_iff_right] at closed
      simp only [List.cons_append, stringExtent, ih closed]
  | case4 character rest notQuote notEscape ih =>
      have shorter : stringExtent rest < rest.length := Nat.lt_of_succ_lt_succ closed
      by_cases backslash : character = '\\'
      · cases rest with
        | nil => exact absurd shorter (Nat.not_lt_zero _)
        | cons next others => exact absurd rfl (notEscape next others backslash)
      · rw [List.cons_append, stringExtent_plain _ notQuote backslash, ih shorter]

theorem lt_length_of_unread {character : Char} {count : Nat} (unread : character ∈ rest.drop count) :
    count < rest.length :=
  Nat.lt_of_not_le fun short => List.ne_nil_of_mem unread (List.drop_eq_nil_of_le short)

/-- A lexeme with a newline behind it does not look at what comes after that newline. -/
theorem lexeme_append (unread : '\n' ∈ rest.drop (lexeme first rest).extra) (back : List Char) :
    lexeme first (rest ++ back) = lexeme first rest := by
  have ahead : '\n' ∈ rest := List.mem_of_mem_drop unread
  by_cases string : first = '"'
  · subst string
    change Lexeme.mk _ (stringExtent (rest ++ back)) = Lexeme.mk _ (stringExtent rest)
    rw [stringExtent_append (lt_length_of_unread unread)]
  · have line : (rest ++ back).takeWhile (· != '\n') = rest.takeWhile (· != '\n') :=
      takeWhile_append_of_mem ahead rfl back
    have dashes : (rest ++ back).takeWhile (· == '-') = rest.takeWhile (· == '-') :=
      takeWhile_append_of_mem ahead rfl back
    have dots : (rest ++ back).takeWhile (· == '.') = rest.takeWhile (· == '.') :=
      takeWhile_append_of_mem ahead rfl back
    have letters : (rest ++ back).takeWhile isWordChar = rest.takeWhile isWordChar :=
      takeWhile_append_of_mem ahead rfl back
    have digits : (rest ++ back).takeWhile isNumberChar = rest.takeWhile isNumberChar :=
      takeWhile_append_of_mem ahead rfl back
    simp only [lexeme, mark?, word?, if_neg string, dashes?_eq, ellipsis?_eq, line, dashes, dots,
      letters, digits, pair?_append (List.ne_nil_of_mem ahead)]

end Append

/-- The last token of a text is the newline at its end. -/
def EndsInNewline (file : String) (position : Position) (text : List Char) : Prop :=
  ∃ newline, (scan file position text).dropLast.getLast? = some newline ∧
    newline.kind = .newline ∧ newline.span.stop.offset = position.offset + text.length

section EndsInNewline

variable {file : String} {position : Position} {first : Char} {rest : List Char} {kind : Kind}

theorem eq_newline_of_kind (found : (lexeme first rest).kind = some .newline) : first = '\n' := by
  obtain ⟨_, _, recognized⟩ := recognized_kind found
  cases recognized with
  | newline here => exact here
  | mark _ _ fixed => cases fixed
  | word _ spelled => cases spelled.isWord

theorem EndsInNewline.exists_front {text : List Char} (ends : EndsInNewline file position text) :
    ∃ front, text = front ++ ['\n'] := by
  obtain ⟨newline, last, isNewline, stop⟩ := ends
  have member : newline ∈ scan file position text :=
    List.dropLast_subset _ (List.mem_of_getLast? last)
  obtain ⟨before, first, rest, kind, split, found, same⟩ :=
    cut_of_mem_scan member (by rw [isNewline]; decide)
  have known : kind = .newline := by
    rw [← isNewline, same]
    rfl
  subst known
  rw [same, offset_stop_cut file _ found, extra_of_newline found, Position.offset_after, split,
    List.length_append] at stop
  simp only [List.take_zero, List.length_cons, List.length_nil] at stop
  have nothing : rest = [] := List.eq_nil_of_length_eq_zero (by omega)
  refine ⟨before, ?_⟩
  rw [split, nothing, eq_newline_of_kind found]

theorem EndsInNewline.newline_mem {text : List Char} (ends : EndsInNewline file position text) :
    '\n' ∈ text := by
  obtain ⟨front, split⟩ := ends.exists_front
  rw [split]
  exact List.mem_concat_self

theorem EndsInNewline.behind_passed (found : (lexeme first rest).kind = none)
    (ends : EndsInNewline file position (first :: rest)) :
    EndsInNewline file (position.after [first]) rest := by
  obtain ⟨newline, last, isNewline, stop⟩ := ends
  rw [scan_passed found] at last
  refine ⟨newline, last, isNewline, ?_⟩
  rw [stop, Position.offset_after, List.length_cons, List.length_singleton]
  omega

theorem scan_ne_nil (file : String) (position : Position) (text : List Char) :
    scan file position text ≠ [] := by
  obtain ⟨front, same, _⟩ := scan_laid file position text
  rw [same]
  exact List.concat_ne_nil _ _

theorem EndsInNewline.behind_cut (found : (lexeme first rest).kind = some kind)
    (ends : EndsInNewline file position (first :: rest)) :
    (first = '\n' ∧ rest = []) ∨
      EndsInNewline file (position.after (first :: rest.take (lexeme first rest).extra))
        (rest.drop (lexeme first rest).extra) := by
  obtain ⟨newline, last, isNewline, stop⟩ := ends
  rw [scan_cut found, List.dropLast_cons_of_ne_nil (scan_ne_nil _ _ _), List.getLast?_cons,
    Option.some.injEq] at last
  cases later : (scan file (position.after (first :: rest.take (lexeme first rest).extra))
      (rest.drop (lexeme first rest).extra)).dropLast.getLast? with
  | none =>
      left
      rw [later, Option.getD_none] at last
      rw [← last] at isNewline stop
      cases (isNewline : kind = .newline)
      rw [offset_stop_cut file _ found, extra_of_newline found] at stop
      simp only [List.take_zero, List.length_cons, List.length_nil] at stop
      exact ⟨eq_newline_of_kind found, List.eq_nil_of_length_eq_zero (by omega)⟩
  | some token =>
      right
      rw [later, Option.getD_some] at last
      refine ⟨newline, by rw [later, last], isNewline, ?_⟩
      rw [stop, Position.offset_after, Int.add_assoc, ← Int.natCast_add, ← List.length_append,
        List.cons_append, List.take_append_drop]

end EndsInNewline

/-- A text whose last token is the newline at its end gives its tokens before any text. -/
theorem scan_append (file : String) (position : Position) (front back : List Char)
    (ends : front = [] ∨ EndsInNewline file position front) :
    scan file position (front ++ back) =
      (scan file position front).dropLast ++ scan file (position.after front) back := by
  induction position, front using scan_induction with
  | empty position =>
      rw [scan]
      rfl
  | passed position first rest found ih =>
      rcases ends with nothing | ends
      · cases nothing
      · have later := ends.behind_passed found
        have unread : '\n' ∈ rest.drop (lexeme first rest).extra := by
          rw [(passed_over found).2]
          exact later.newline_mem
        have ahead : (lexeme first (rest ++ back)).kind = none := by
          rw [lexeme_append unread, found]
        rw [List.cons_append, scan_passed found, scan_passed ahead, ih (Or.inr later)]
        rfl
  | token position first rest kind found ih =>
      have whole : rest.take (lexeme first rest).extra ++ rest.drop (lexeme first rest).extra =
          rest := List.take_append_drop _ _
      -- The newline at the very end is one character long, so it reads nothing ahead either.
      have unchanged : lexeme first (rest ++ back) = lexeme first rest ∧
          (lexeme first rest).extra ≤ rest.length ∧
          (rest.drop (lexeme first rest).extra = [] ∨
            EndsInNewline file (position.after (first :: rest.take (lexeme first rest).extra))
              (rest.drop (lexeme first rest).extra)) := by
        rcases ends with nothing | ends
        · cases nothing
        · rcases ends.behind_cut found with ⟨rfl, rfl⟩ | later
          · exact ⟨rfl, Nat.le_refl 0, Or.inl rfl⟩
          · have unread := later.newline_mem
            exact ⟨lexeme_append unread back, Nat.le_of_lt (lt_length_of_unread unread), Or.inr later⟩
      obtain ⟨same, within, later⟩ := unchanged
      have ahead : (lexeme first (rest ++ back)).kind = some kind := by rw [same, found]
      rw [List.cons_append, scan_cut found, scan_cut ahead, same,
        List.take_append_of_le_length within, List.drop_append_of_le_length within, ih later,
        List.dropLast_cons_of_ne_nil (scan_ne_nil _ _ _), List.cons_append,
        ← Position.after_append, List.cons_append, whole]

/-- A text is empty, or the token before its end mark is a newline at its very end. -/
def EndsAtLine (source file : String) : Prop :=
  source = "" ∨ ∃ newline, (tokenize source file).dropLast.getLast? = some newline ∧
    newline.kind = .newline ∧ newline.span.stop.offset = source.length

/-- Scanning two texts one below the other: the tokens of the first but its end mark,
and those of the second with the characters and lines of the first counted in. -/
theorem tokenize_append_at_line (front back file : String) (ends : EndsAtLine front file) :
    tokenize (front ++ back) file =
      (tokenize front file).dropLast ++ (tokenize back file).map (below front.toList) := by
  have lines : front.toList = [] ∨ EndsInNewline file .first front.toList := by
    rcases ends with rfl | ⟨newline, last, isNewline, stop⟩
    · exact Or.inl rfl
    · refine Or.inr ⟨newline, last, isNewline, ?_⟩
      rw [stop, ← String.length_toList]
      exact (Int.zero_add _).symm
  have start : Position.first.after front.toList = Position.first.below front.toList := by
    rcases lines with nothing | newline
    · rw [nothing]
      rfl
    · obtain ⟨others, split⟩ := newline.exists_front
      rw [split, Position.after_newline]
  rw [tokenize, String.toList_append, scan_append file .first _ _ lines, start, scan_below]
  rfl

theorem tokenize_append_at_line_of_string :
    EndsAtLine "let x = \"a\nb\" # c\r\n" "f.sage" ∧
      tokenize ("let x = \"a\nb\" # c\r\n" ++ " @mod m\n") "f.sage" =
        (tokenize "let x = \"a\nb\" # c\r\n" "f.sage").dropLast ++
          (tokenize " @mod m\n" "f.sage").map (below "let x = \"a\nb\" # c\r\n".toList) := by
  have ends : EndsAtLine "let x = \"a\nb\" # c\r\n" "f.sage" :=
    Or.inr ⟨⟨.newline, "\n", ⟨"f.sage", ⟨18, 2, 8⟩, ⟨19, 2, 9⟩⟩⟩, by decide +kernel, rfl, rfl⟩
  exact ⟨ends, tokenize_append_at_line _ _ _ ends⟩

end Token

end SageNotation
