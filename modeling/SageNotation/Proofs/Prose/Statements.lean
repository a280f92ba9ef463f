import SageNotation.Proofs.Document.Prose
import SageNotation.Proofs.Grammar.Parts
import SageNotation.Proofs.Prose.Words

/-!
Statements and types, and the strings that are read for them.

The texts of a statement tell the strings among its tokens, and those of a body
the strings of its statements.  There are no strings in a type.
-/

namespace SageNotation

open Token

namespace Grammar

/-! ### Lines that follow -/

theorem past_nextLine {texts : List String} {continues : Token → Bool} {tokens rest : List Token}
    {newline : Taken (dropOne .comment tokens)} (tells : Tells texts (between newline.rest rest))
    (found : nextLine? continues tokens = some newline) (ahead : rest <:+ newline.rest) :
    Tells texts (between tokens rest) := by
  unfold nextLine? at found
  split at found
  · cases found
  · rename_i taken takenFound
    split at found
    · cases found
    · split at found
      · cases found
        exact (tells.past_taken takenFound (by decide) ahead).past_dropOne (by decide)
          (ahead.trans newline.suffix)
      · cases found

theorem tells_line {texts : List String} {tokens rest : List Token}
    (back : Tells texts (between (afterLine tokens) rest)) (ahead : rest <:+ afterLine tokens) :
    Tells (render (line tokens) :: texts) (between tokens rest) :=
  (lineText_tells tokens).seq back (afterLine_suffix tokens) ahead

theorem followingLines_tells (continues : Token → Bool) (tokens : List Token) :
    Tells ((followingLines continues tokens).value.map render)
      (between tokens (followingLines continues tokens).rest) := by
  induction tokens using followingLines.induct continues with
  | case1 tokens missing =>
      rw [followingLines, missing]
      exact (Tells.nothing _ (dropOne .comment tokens)).past_dropOne (by decide) List.suffix_rfl
  | case2 tokens newline found ih =>
      rw [followingLines, found]
      have next := (followingLines continues (afterLine newline.rest)).suffix
      exact past_nextLine (tells_line ih next) found (next.trans (afterLine_suffix _))

theorem bracedLines_tells (depth : Int) (tokens : List Token) :
    Tells ((bracedLines depth tokens).value.map render)
      (between tokens (bracedLines depth tokens).rest) := by
  induction depth, tokens using bracedLines.induct with
  | case1 depth tokens deep missing =>
      rw [bracedLines, if_pos deep, missing]
      exact (Tells.nothing _ (dropOne .comment tokens)).past_dropOne (by decide) List.suffix_rfl
  | case2 depth tokens deep newline found row ih =>
      rw [bracedLines, if_pos deep, found]
      have next := (bracedLines (depth + braceBalance row) (afterLine newline.rest)).suffix
      exact past_nextLine (tells_line ih next) found (next.trans (afterLine_suffix _))
  | case3 depth tokens shallow =>
      rw [bracedLines, if_neg shallow]
      exact .nothing _ tokens

/-! ### Statements -/

section Statements

variable {first : Token} {tokens : List Token}

/-- The strings of a run are told by the texts of what is made of it, whatever its span. -/
def Voices {α : Type} (texts : α → List String) (make : Span → α) (run : List Token) : Prop :=
  ∀ span, Tells (texts (make span)) run

theorem binding_voices {isDecision : Bool} {reading : Reading (Span → Statement) tokens}
    (read : binding isDecision tokens = some reading) :
    Voices Statement.texts reading.value (between tokens reading.rest) := by
  unfold binding at read
  split at read
  · cases read
  · rename_i name nameFound
    split at read
    · cases read
    · rename_i assign assignFound
      cases read
      intro span
      have next := (bracedLines (braceBalance (line assign.rest)) (afterLine assign.rest)).suffix
      have behind := next.trans (afterLine_suffix _)
      have rows := tells_line (bracedLines_tells _ (afterLine assign.rest)) next
      have value := (tells_joinNonempty rows "\n").trim
      exact (value.past_taken assignFound (by decide) behind).past_taken nameFound (by decide)
        (behind.trans assign.suffix)

theorem consequent_tells (tokens : List Token) :
    Tells [(consequent tokens).value] (between tokens (consequent tokens).rest) := by
  unfold consequent
  split
  · exact .nothing _ tokens
  · rename_i arrow found
    exact (lineText_tells arrow.rest).trim.past_taken found (by decide) (afterLine_suffix _)

theorem alternative_tells (tokens : List Token) :
    Tells (alternative tokens).value.toList (between tokens (alternative tokens).rest) := by
  unfold alternative
  split
  · exact .nothing _ tokens
  · rename_i word found
    have text := (lineText_tells (dropOne .fatArrow word.rest)).trim
    have behind := afterLine_suffix (dropOne .fatArrow word.rest)
    have row := behind.trans (dropOne_suffix _ _)
    exact ((text.past_dropOne (by decide) behind).past_taken found (by decide) row).past_skipBlank
      (row.trans word.suffix)

theorem conditional_voices (isDecision : Bool) (tokens : List Token) :
    Voices Statement.texts (conditional isDecision tokens).value
      (between tokens (conditional isDecision tokens).rest) := by
  intro span
  let condition := tokens.takeWhile (!endsCondition ·)
  let behind := tokens.dropWhile (!endsCondition ·)
  have divided : between tokens behind = condition := by
    have whole := between_append condition behind
    rw [List.takeWhile_append_dropWhile] at whole
    exact whole
  have tested : Tells [render condition] (between tokens behind) := by
    rw [divided]
    exact .of_render condition
  have branch := consequent_tells behind
  have other := alternative_tells (consequent behind).rest
  have further := (alternative (consequent behind).rest).suffix
  exact tested.seq (branch.seq other (consequent behind).suffix further) (List.dropWhile_suffix _)
    (further.trans (consequent behind).suffix)

theorem decisionMark_voices (tokens : List Token) :
    Voices (fun node : Decision => [node.text]) (decisionMark tokens).value
      (between tokens (decisionMark tokens).rest) :=
  fun _ => (stringOrLine_tells tokens).trim

theorem marked_voices {reading : Reading (Span → Statement) tokens}
    (read : marked tokens = some reading) :
    Voices Statement.texts reading.value (between tokens reading.rest) := by
  intro span
  unfold marked at read
  split at read
  · rename_i word found
    obtain ⟨inner, bound, same⟩ := Option.map_eq_some_iff.mp read
    subst same
    exact (binding_voices bound span).past_taken found (by decide) inner.suffix
  · split at read
    · rename_i word found
      cases read
      exact (conditional_voices true word.rest span).past_taken found (by decide)
        (conditional true word.rest).suffix
    · cases read
      exact decisionMark_voices tokens span

theorem tells_first {texts : List String} {run : List Token} (listed : first.value ∈ texts)
    (tells : Tells texts run) : Tells texts (first :: run) := by
  intro token member string
  rcases List.mem_cons.mp member with same | later
  · rw [same]
    exact ⟨_, listed, content_within first⟩
  · exact tells token later string

theorem statementForm_voices {reading : Reading (Span → Statement) tokens}
    (read : statementForm first tokens = .read reading) :
    Voices Statement.texts reading.value (first :: between tokens reading.rest) := by
  intro span
  unfold statementForm at read
  split at read
  · cases read
    unfold proseOrDecision
    split
    · rename_i mark found
      have marked := (Tells.nothing [first.value] mark.rest).past_taken found (by decide)
        List.suffix_rfl
      exact tells_first (List.mem_singleton_self _) marked
    · exact tells_first (List.mem_singleton_self _) (.nothing [first.value] tokens)
  · rename_i kind
    exact (marked_voices (Attempt.eq_some_of_ofOption read) span).cons (by rw [kind]; decide)
  · rename_i kind
    exact (binding_voices (Attempt.eq_some_of_ofOption read) span).cons (by rw [kind]; decide)
  · rename_i kind
    cases read
    exact (conditional_voices false tokens span).cons (by rw [kind]; decide)
  · -- The value of a return is the rest of its line.
    rename_i kind
    cases read
    exact (lineText_tells tokens).trim.cons (by rw [kind]; decide)
  · cases read

theorem rawLine_voices (first : Token) (tokens : List Token) :
    Voices Statement.texts (rawLine first tokens).value
      (first :: between tokens (rawLine first tokens).rest) := by
  intro span
  change Tells [render (first :: line tokens)] (first :: between tokens (afterLine tokens))
  rw [between_line]
  exact .of_render _

theorem statement_tells (first : Token) (tokens : List Token) :
    Tells (statement first tokens).value.1.texts
      (first :: between tokens (statement first tokens).rest) := by
  unfold statement
  split
  · rename_i reading read
    exact statementForm_voices read _
  · exact rawLine_voices first tokens _
  · exact rawLine_voices first tokens _

theorem body_tells (tokens : List Token) :
    Tells ((body tokens).value.1.flatMap Statement.texts) (between tokens (body tokens).rest) := by
  induction tokens using body.induct with
  | case1 =>
      rw [body]
      exact .nothing _ []
  | case2 first rest trivia ih =>
      rw [body, if_pos trivia]
      exact ih.past_cons (kind_ne_string_of_isTrivia trivia) (body rest).suffix
  | case3 first rest plain ending =>
      rw [body, if_neg plain, if_pos ending]
      exact .nothing _ _
  | case4 first rest plain going one ih =>
      rw [body, if_neg plain, if_neg going]
      have here := statement_tells first rest
      rw [← between_cons one.suffix] at here
      exact here.seq ih (suffix_cons_of_suffix first one.suffix) (body one.rest).suffix

end Statements

/-! ### Types -/

theorem past_divider {texts : List String} {tokens rest : List Token}
    (tells : Tells texts (between (divider tokens) rest)) (ahead : rest <:+ divider tokens) :
    Tells texts (between tokens rest) :=
  (tells.past_dropOne (by decide) ahead).past_skipBlank (ahead.trans (dropOne_suffix _ _))

mutual

theorem ReadsType.tells (texts : List String) : ∀ {tokens : List Token} {type : TypeExpr}
    {left : List Token}, ReadsType tokens type left → Tells texts (between tokens left)
  | _, _, _, .record brace inner =>
      (inner.tells texts).past_cons (by rw [brace]; decide) inner.suffix
  | _, _, left, .unit opened closed => by
      have closing := (Tells.nothing texts left).past_cons (by rw [closed]; decide) List.suffix_rfl
      exact closing.past_cons (by rw [opened]; decide) (List.suffix_cons _ _)
  | _, _, left, .named name _ =>
      (Tells.nothing texts left).past_cons (by rw [name]; decide) List.suffix_rfl
  | _, _, left, .generic name opened inner closed => by
      have closing := (Tells.nothing texts left).past_cons (by rw [closed]; decide) List.suffix_rfl
      have behind := (List.suffix_cons _ left).trans inner.suffix
      have args := (inner.tells texts).trans closing inner.suffix (List.suffix_cons _ _)
      exact (args.past_cons (by rw [opened]; decide) behind).past_cons (by rw [name]; decide)
        (suffix_cons_of_suffix _ behind)

theorem ReadsArgs.tells (texts : List String) : ∀ {tokens : List Token} {args : List TypeExpr}
    {left : List Token}, ReadsArgs tokens args left → Tells texts (between tokens left)
  | _, _, _, .one type _ => type.tells texts
  | _, _, _, .more type divided others => by
      have next := (others.tells texts).past_cons (by rw [divided]; decide) others.suffix
      exact (type.tells texts).trans next type.suffix (suffix_cons_of_suffix _ others.suffix)

theorem ReadsFields.tells (texts : List String) : ∀ {tokens : List Token} {fields : List Field}
    {left : List Token}, ReadsFields tokens fields left → Tells texts (between tokens left)
  | _, _, left, .ended _ => .nothing texts left
  | _, _, _, .blank trivia others =>
      (others.tells texts).past_cons (kind_ne_string_of_isTrivia trivia) others.suffix
  | _, _, left, .closed brace =>
      (Tells.nothing texts left).past_cons (by rw [brace]; decide) List.suffix_rfl
  | _, _, left, .elided rest dots stop => by
      rcases stop with ⟨_, same⟩ | ⟨brace, closed, same⟩
      · have behind : left <:+ skipBlank rest := by
          rw [same]
        have blank : Tells texts (between (skipBlank rest) left) := by
          rw [same]
          exact .nothing texts left
        exact (blank.past_skipBlank behind).past_cons (by rw [dots]; decide)
          (behind.trans (skipBlank_suffix rest))
      · have behind : left <:+ skipBlank rest := by
          rw [same]
          exact List.suffix_cons _ _
        have closing : Tells texts (between (skipBlank rest) left) := by
          rw [same]
          exact (Tells.nothing texts left).past_cons (by rw [closed]; decide) List.suffix_rfl
        exact (closing.past_skipBlank behind).past_cons (by rw [dots]; decide)
          (behind.trans (skipBlank_suffix rest))
  | _, _, _, .field colon name typed inner others => by
      have further := others.suffix.trans (divider_suffix _)
      have whole := (inner.tells texts).trans (past_divider (others.tells texts) others.suffix)
        inner.suffix further
      have behind := further.trans inner.suffix
      exact (whole.past_cons (by rw [typed]; decide) behind).past_cons (by rw [name]; decide)
        (suffix_cons_of_suffix colon behind)

end

theorem typeExpr_tells (texts : List String) {tokens : List Token}
    {reading : Reading TypeExpr tokens} (read : typeExpr tokens = some reading) :
    Tells texts (between tokens reading.rest) :=
  (readsTypes.1 tokens reading read).tells texts

end Grammar

end SageNotation
