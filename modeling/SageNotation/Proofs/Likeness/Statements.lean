import SageNotation.Proofs.Likeness.Reading

/-!
Statements read side by side.

A statement holds texts only, so in step means here that the texts are equal.
The lines of a binding are the one place where runs that are alike are left alike
only apart from newlines and comments in front: an open brace takes in a comment
at the very end of the input, which a run without comments does not have.
-/

namespace SageNotation.Grammar

open Token
open Reading (Parallel lineText_parallel stringOrLine_parallel parallel_nothing
  parallel_option_map parallel_of_follows_total)

namespace Likeness

variable {like : Likeness} {left right : List Token} {first other : Token}

/-! ### Lines -/

/-- In front of the end of a line one comment is left out; then the runs are at their
ends, or they go on with tokens that stand for each other. -/
theorem dropComment_cases (mirrors : like.Mirrors left right) :
    (dropOne .comment left = [] ∧ dropOne .comment right = []) ∨
      ∃ first rest other row, dropOne .comment left = first :: rest ∧
        dropOne .comment right = other :: row ∧ like.token first other ∧ like.Mirrors rest row := by
  have split : ∀ {tokens others : List Token}, like.Mirrors tokens others →
      (∀ token ∈ tokens.head?, like.omits → token.kind ≠ .comment) →
      (tokens = [] ∧ others = []) ∨ ∃ first rest other row, tokens = first :: rest ∧
        others = other :: row ∧ like.token first other ∧ like.Mirrors rest row := by
    intro tokens others alike plain
    cases alike with
    | nil => exact Or.inl ⟨rfl, rfl⟩
    | cons same further => exact Or.inr ⟨_, _, _, _, rfl, rfl, same, further⟩
    | omitted may comment => exact absurd comment (plain _ rfl may)
  cases mirrors with
  | nil => exact Or.inl ⟨rfl, rfl⟩
  | @cons first other rest row same others =>
      by_cases comment : first.kind = .comment
      · rw [dropOne, dropOne, if_pos comment, if_pos ((like.kind same).symm.trans comment)]
        exact split others fun _ _ may => absurd comment (like.kept may same).1
      · have other : ¬ other.kind = .comment := fun found => comment ((like.kind same).trans found)
        rw [dropOne, dropOne, if_neg comment, if_neg other]
        exact Or.inr ⟨_, _, _, _, rfl, rfl, same, others⟩
  | @omitted first rest row may comment last others =>
      have plain : ∀ {run : List Token}, (∀ token ∈ run.head?, token.kind = .newline) →
          ∀ token ∈ run.head?, token.kind ≠ .comment := by
        intro run newline token next comment
        rw [newline token next] at comment
        cases comment
      rw [dropOne, if_pos comment, dropOne_of_head (plain (others.ended last))]
      exact split others fun token next _ => plain last token next

theorem dropComment_mirrors (mirrors : like.Mirrors left right) :
    like.Mirrors (dropOne .comment left) (dropOne .comment right) := by
  rcases dropComment_cases mirrors with
    ⟨leftDone, rightDone⟩ | ⟨first, rest, other, row, leftSplit, rightSplit, same, others⟩
  · rw [leftDone, rightDone]
    exact .nil
  · rw [leftSplit, rightSplit]
    exact .cons same others

theorem lineEnd_parallel (mirrors : like.Mirrors left right) :
    Option.Rel (fun here there : Taken _ => like.Mirrors here.rest there.rest)
      (expect .newline (dropOne .comment left)) (expect .newline (dropOne .comment right)) := by
  have ahead := dropComment_cases mirrors
  generalize dropOne .comment left = tokens at ahead ⊢
  generalize dropOne .comment right = others at ahead ⊢
  rcases ahead with ⟨rfl, rfl⟩ | ⟨first, rest, other, row, rfl, rfl, same, further⟩
  · exact .none
  · rw [expect, expect]
    by_cases newline : first.kind = .newline
    · rw [if_pos newline, if_pos ((like.kind same).symm.trans newline)]
      exact .some further
    · rw [if_neg newline, if_neg fun found => newline ((like.kind same).trans found)]
      exact .none

theorem nextLine?_parallel {continues : Token → Bool} (mirrors : like.Mirrors left right)
    (stops : ∀ token, token.isTrivia = true → continues token = false)
    (alike : ∀ {first other}, like.token first other → continues first = continues other) :
    Option.Rel (fun here there : Taken _ => like.Mirrors here.rest there.rest)
      (nextLine? continues left) (nextLine? continues right) := by
  have ends := lineEnd_parallel mirrors
  unfold nextLine?
  generalize expect .newline (dropOne .comment left) = wide at ends ⊢
  generalize expect .newline (dropOne .comment right) = narrow at ends ⊢
  cases ends with
  | none => exact .none
  | @some here there further =>
      obtain ⟨_, rest, hereSplit⟩ := here
      obtain ⟨_, row, thereSplit⟩ := there
      rcases further.front with
        ⟨token, rest, other, row, rfl, rfl, same, _⟩ | ⟨leftBlank, rightBlank⟩
      · simp only [alike same]
        split
        · exact .some further
        · exact .none
      · cases rest with
        | nil =>
            cases row with
            | nil => exact .none
            | cons other row =>
                simp only [stops other (rightBlank other rfl), Bool.false_eq_true, if_false]
                exact .none
        | cons token rest =>
            simp only [stops token (leftBlank token rfl), Bool.false_eq_true, if_false]
            cases row with
            | nil => exact .none
            | cons other row =>
                simp only [stops other (rightBlank other rfl), Bool.false_eq_true, if_false]
                exact .none

theorem followingLines_parallel {continues : Token → Bool}
    (stops : ∀ token, token.isTrivia = true → continues token = false)
    (alike : ∀ {first other}, like.token first other → continues first = continues other)
    (mirrors : like.Mirrors left right) :
    Parallel (List.Forall₂ (List.Forall₂ like.token)) like.Mirrors
      (followingLines continues left) (followingLines continues right) := by
  induction size : left.length using Nat.strongRecOn generalizing left right with
  | ind length ih =>
      have next := nextLine?_parallel mirrors stops alike
      rw [followingLines, followingLines]
      generalize nextLine? continues left = wide at next ⊢
      generalize nextLine? continues right = narrow at next ⊢
      cases next with
      | none => exact ⟨.nil, dropComment_mirrors mirrors⟩
      | @some here there further =>
          have shorter : (afterLine here.rest).length < length := by
            rw [← size]
            exact Nat.lt_of_le_of_lt (afterLine_suffix _).length_le (length_lt_of_nextLine here)
          have others := ih _ shorter further.line.2 rfl
          exact ⟨.cons further.line.1 others.value, others.rest⟩

/-! ### Lines between braces -/

theorem braceBalance_eq (same : List.Forall₂ like.token left right) :
    braceBalance left = braceBalance right := by
  have counted : ∀ kind : Kind, left.countP (·.kind == kind) = right.countP (·.kind == kind) := by
    intro kind
    induction same with
    | nil => rfl
    | cons here _ ih => rw [List.countP_cons, List.countP_cons, ih, like.kind here]
  rw [braceBalance, braceBalance, counted, counted]

/-- The next line within a body, where blank lines and comments count as lines.  A
comment at the end of the input may be a line of its own in the first run only. -/
theorem bodyLine_parallel (mirrors : like.Mirrors left right) :
    Option.Rel (fun here there : Taken _ => like.Mirrors here.rest there.rest)
        (nextLine? (fun token => !endsBody token.kind) left)
        (nextLine? (fun token => !endsBody token.kind) right) ∨
      (∃ here comment, nextLine? (fun token => !endsBody token.kind) left = some here ∧
        here.rest = [comment] ∧ comment.kind = .comment) ∧
      nextLine? (fun token => !endsBody token.kind) right = none ∧
      skipBlank (dropOne .comment right) = [] := by
  have ends := lineEnd_parallel mirrors
  unfold nextLine?
  generalize expect .newline (dropOne .comment left) = wide at ends ⊢
  generalize found : expect .newline (dropOne .comment right) = narrow at ends ⊢
  cases ends with
  | none => exact Or.inl .none
  | @some here there further =>
      have newline := kind_of_expect found
      obtain ⟨_, rest, hereSplit⟩ := here
      obtain ⟨_, row, thereSplit⟩ := there
      cases further with
      | nil => exact Or.inl .none
      | cons same others =>
          left
          simp only [like.kind same]
          split
          · exact .some (.cons same others)
          · exact .none
      | @omitted token rest _ may comment last others =>
          cases others with
          | nil =>
              right
              refine ⟨⟨_, token, if_pos ?_, rfl, comment⟩, rfl, ?_⟩
              · simp only [comment]
                rfl
              · rw [thereSplit, skipBlank,
                  List.dropWhile_cons_of_pos (isTrivia_of_blank newline rfl), List.dropWhile_nil]
          | @cons next other rest row same further =>
              left
              have nextKind := last next rfl
              simp only [comment, ← like.kind same, nextKind]
              exact .some (.omitted may comment last (.cons same further))
          | omitted _ another =>
              have nextKind := last _ rfl
              rw [another] at nextKind
              cases nextKind

theorem bracedLines_comment (depth : Int) {comment : Token} (isComment : comment.kind = .comment) :
    (bracedLines depth [comment]).value = [] ∧
      skipBlank (bracedLines depth [comment]).rest = [] := by
  rw [bracedLines]
  split_ifs
  · have dropped : dropOne .comment [comment] = [] := if_pos isComment
    have missing : expect .newline (dropOne .comment [comment]) = none := by
      rw [dropped]
      rfl
    have ended : nextLine? (fun token => !endsBody token.kind) [comment] = none := by
      rw [nextLine?, missing]
    rw [ended]
    exact ⟨rfl, congrArg skipBlank dropped⟩
  · refine ⟨rfl, ?_⟩
    exact List.dropWhile_cons_of_pos (isTrivia_of_blank isComment rfl)

/-- A comment at the end of the input, where a line of an open brace could stand, is one
empty line. -/
theorem bracedLines_at_end {depth : Int} {tokens : List Token} {comment : Token}
    {here : Taken (dropOne .comment tokens)} (going : 0 < depth)
    (found : nextLine? (fun token => !endsBody token.kind) tokens = some here)
    (last : here.rest = [comment]) (isComment : comment.kind = .comment) :
    (bracedLines depth tokens).value = [[]] ∧
      skipBlank (bracedLines depth tokens).rest = [] := by
  have stops : comment.endsLine = true :=
    endsLine_of_isTrivia (isTrivia_of_blank isComment rfl)
  have row : line here.rest = [] := by
    rw [last, line, List.takeWhile_cons_of_neg]
    rw [stops]
    decide
  have behind : afterLine here.rest = [comment] := by
    rw [last, afterLine, List.dropWhile_cons_of_neg]
    rw [stops]
    decide
  have inner := bracedLines_comment (depth + braceBalance []) isComment
  rw [← behind] at inner
  rw [bracedLines, if_pos going, found]
  simp only [row]
  exact ⟨congrArg ([] :: ·) inner.1, inner.2⟩

theorem bracedLines_parallel (depth : Int) (mirrors : like.Mirrors left right) :
    Parallel (fun rows lines : List (List Token) =>
        (rows.map render).filter (!·.isEmpty) = (lines.map render).filter (!·.isEmpty))
      like.Follows (bracedLines depth left) (bracedLines depth right) := by
  induction size : left.length using Nat.strongRecOn generalizing depth left right with
  | ind length ih =>
      rw [bracedLines, bracedLines]
      split_ifs with going
      · rcases bodyLine_parallel mirrors with
          next | ⟨⟨here, comment, found, last, isComment⟩, missing, ended⟩
        · generalize nextLine? (fun token => !endsBody token.kind) left = wide at next ⊢
          generalize nextLine? (fun token => !endsBody token.kind) right = narrow at next ⊢
          cases next with
          | none => exact ⟨rfl, (dropComment_mirrors mirrors).follows⟩
          | @some here there further =>
              have shorter : (afterLine here.rest).length < length := by
                rw [← size]
                exact Nat.lt_of_le_of_lt (afterLine_suffix _).length_le (length_lt_of_nextLine here)
              have others := ih _ shorter (depth + braceBalance (line here.rest)) further.line.2 rfl
              rw [braceBalance_eq further.line.1] at others
              simp only [braceBalance_eq further.line.1]
              refine ⟨?_, others.rest⟩
              simp only [List.map_cons, List.filter_cons, render_eq further.line.1, others.value]
        · -- The comment at the end is an empty line of the first run, and drops out as one.
          have row := bracedLines_at_end going found last isComment
          rw [bracedLines, if_pos going] at row
          rw [missing]
          refine ⟨?_, ?_⟩
          · rw [row.1]
            rfl
          · unfold Follows
            rw [row.2, ended]
            exact .nil
      · exact ⟨rfl, mirrors.follows⟩

/-! ### Forms of statements -/

theorem proseOrDecision_parallel (text : String) (mirrors : like.Mirrors left right) :
    Parallel (like.Makes (like.Sees Statement.toTree)) like.Follows
      (proseOrDecision text left) (proseOrDecision text right) := by
  have mark := mirrors.expect .bang2 rfl
  unfold proseOrDecision
  generalize expect .bang2 left = wide at mark ⊢
  generalize expect .bang2 right = narrow at mark ⊢
  cases mark with
  | none => exact ⟨makes_node (fun _ => rfl) (fun _ _ => rfl), mirrors.follows⟩
  | some taken => exact ⟨makes_node (fun _ => rfl) (fun _ _ => rfl), taken.2.follows⟩

theorem decisionMark_parallel (mirrors : like.Mirrors left right) :
    Parallel (like.Makes (like.Sees Decision.toTree)) like.Mirrors
      (decisionMark left) (decisionMark right) := by
  apply (stringOrLine_parallel mirrors).map
  rintro text _ rfl
  exact makes_node (fun _ => rfl) fun _ _ => rfl

theorem joinNonempty_cons {separator text : String} {texts others : List String}
    (same : texts.filter (!·.isEmpty) = others.filter (!·.isEmpty)) :
    joinNonempty separator (text :: texts) = joinNonempty separator (text :: others) := by
  rw [joinNonempty, joinNonempty, List.filter_cons, List.filter_cons, same]

theorem binding_parallel (isDecision : Bool) (mirrors : like.Mirrors left right) :
    Option.Rel (Parallel (like.Makes (like.Sees Statement.toTree)) like.Follows)
      (binding isDecision left) (binding isDecision right) := by
  have named := mirrors.expect .identifier rfl
  unfold binding
  generalize expect .identifier left = wide at named ⊢
  generalize expect .identifier right = narrow at named ⊢
  cases named with
  | none => exact .none
  | @some name label named =>
      have assigned := named.2.expect .assign rfl
      simp only []
      generalize expect .assign name.rest = wide at assigned ⊢
      generalize expect .assign label.rest = narrow at assigned ⊢
      cases assigned with
      | none => exact .none
      | @some assign other assigned =>
          have row := assigned.2.line
          have others := bracedLines_parallel (braceBalance (line assign.rest)) row.2
          rw [braceBalance_eq row.1] at others
          refine .some ⟨?_, ?_⟩
          · simp only [List.map_cons, like.value named.1, render_eq row.1, braceBalance_eq row.1,
              joinNonempty_cons others.value]
            exact makes_node (fun _ => rfl) fun _ _ => rfl
          · simp only [braceBalance_eq row.1]
            exact others.rest

theorem consequent_parallel (mirrors : like.Mirrors left right) :
    Parallel Eq like.Mirrors (consequent left) (consequent right) := by
  have arrow := mirrors.expect .fatArrow rfl
  unfold consequent
  generalize expect .fatArrow left = wide at arrow ⊢
  generalize expect .fatArrow right = narrow at arrow ⊢
  cases arrow with
  | none => exact parallel_nothing rfl mirrors
  | some taken => exact ((lineText_parallel taken.2).map (congrArg Text.trim)).widen _ _

theorem alternative_parallel (mirrors : like.Mirrors left right) :
    Parallel Eq like.Mirrors (alternative left) (alternative right) := by
  have word := mirrors.skipBlank.expect (.plain .elseWord) rfl
  unfold alternative
  generalize expect (.plain .elseWord) (skipBlank left) = wide at word ⊢
  generalize expect (.plain .elseWord) (skipBlank right) = narrow at word ⊢
  cases word with
  | none => exact parallel_nothing rfl mirrors
  | some taken =>
      have branch := lineText_parallel (taken.2.dropOne .fatArrow rfl)
      exact (branch.map (congrArg (some ∘ Text.trim))).widen _ _

theorem conditional_parallel (isDecision : Bool) (mirrors : like.Mirrors left right) :
    Parallel (like.Makes (like.Sees Statement.toTree)) like.Follows
      (conditional isDecision left) (conditional isDecision right) := by
  have condition : List.Forall₂ like.token (left.takeWhile (!endsCondition ·))
        (right.takeWhile (!endsCondition ·)) ∧
      like.Mirrors (left.dropWhile (!endsCondition ·)) (right.dropWhile (!endsCondition ·)) := by
    apply mirrors.split_while
    · intro token trivia
      rw [endsCondition, endsLine_of_isTrivia trivia]
      rfl
    · intro first other same
      rw [endsCondition, endsCondition, endsLine_eq same, like.kind same]
  have branch := consequent_parallel condition.2
  have other := alternative_parallel branch.rest
  refine ⟨?_, other.rest.follows⟩
  simp only [conditional, render_eq condition.1, branch.value, other.value]
  exact makes_node (fun _ => rfl) fun _ _ => rfl

theorem returned_parallel (mirrors : like.Mirrors left right) :
    Parallel (like.Makes (like.Sees Statement.toTree)) like.Follows
      (returned left) (returned right) := by
  apply ((lineText_parallel mirrors).map _).follows
  rintro text _ rfl
  exact makes_node (fun _ => rfl) fun _ _ => rfl

theorem marked_parallel (mirrors : like.Mirrors left right) :
    Option.Rel (Parallel (like.Makes (like.Sees Statement.toTree)) like.Follows)
      (marked left) (marked right) := by
  have bound := mirrors.expect (.plain .letWord) rfl
  unfold marked
  generalize expect (.plain .letWord) left = wide at bound ⊢
  generalize expect (.plain .letWord) right = narrow at bound ⊢
  cases bound with
  | some taken =>
      exact parallel_option_map (binding_parallel true taken.2) fun parallel => parallel.widen _ _
  | none =>
      have chosen := mirrors.expect (.plain .ifWord) rfl
      simp only []
      generalize expect (.plain .ifWord) left = wide at chosen ⊢
      generalize expect (.plain .ifWord) right = narrow at chosen ⊢
      cases chosen with
      | some taken => exact .some ((conditional_parallel true taken.2).widen _ _)
      | none =>
          have decision := decisionMark_parallel mirrors
          exact .some (decision.map fun made span place stands => made span place stands).follows

theorem statementForm_parallel (same : like.token first other) (mirrors : like.Mirrors left right) :
    Attempt.Parallel (Parallel (like.Makes (like.Sees Statement.toTree)) like.Follows)
      (statementForm first left) (statementForm other right) := by
  unfold statementForm
  rw [← like.kind same, ← like.value same]
  split
  · exact .read (proseOrDecision_parallel _ mirrors)
  · exact Attempt.parallel_ofOption (marked_parallel mirrors)
  · exact Attempt.parallel_ofOption (binding_parallel false mirrors)
  · exact .read (conditional_parallel false mirrors)
  · exact .read (returned_parallel mirrors)
  · exact .unknown

/-! ### Statements -/

theorem rawLine_parallel (same : like.token first other) (mirrors : like.Mirrors left right) :
    Parallel (like.Makes (like.Sees Statement.toTree)) like.Follows
      (rawLine first left) (rawLine other right) := by
  refine ⟨?_, mirrors.line.2.follows⟩
  simp only [rawLine, render_eq (.cons same mirrors.line.1)]
  exact makes_node (fun _ => rfl) fun _ _ => rfl

theorem statement_parallel (same : like.token first other) (mirrors : like.Mirrors left right) :
    Parallel (fun here there => like.Sees Statement.toTree here.1 there.1) like.Follows
      (statement first left) (statement other right) := by
  have form := statementForm_parallel same mirrors
  have raw := (rawLine_parallel same mirrors).stamp same mirrors.counts
  unfold statement
  generalize statementForm first left = wide at form ⊢
  generalize statementForm other right = narrow at form ⊢
  cases form with
  | unknown => exact raw.map id
  | refused => exact raw.map id
  | read parallel => exact (parallel.stamp same mirrors.counts).map id

theorem body_parallel (follows : like.Follows left right) :
    Parallel (fun here there => List.Forall₂ (like.Sees Statement.toTree) here.1 there.1) like.Follows
      (body left) (body right) := by
  induction size : left.length using Nat.strongRecOn generalizing left right with
  | ind length ih =>
      apply parallel_of_follows_total body _ follows
      · rw [body]
        exact parallel_nothing .nil Mirrors.nil.follows
      · intro first rest other row shorter plain same others
        rw [body, body, ← isTrivia_eq same, if_neg (ne_true_of_eq_false plain), ← like.kind same,
          if_neg (ne_true_of_eq_false plain)]
        split
        · exact parallel_nothing .nil (Mirrors.cons same others).follows
        · have one := statement_parallel same others
          have within := (statement first rest).length_le
          have later := ih _ (by omega) one.rest rfl
          exact ⟨.cons one.value later.value, later.rest⟩
      · intro first trivia rest
        rw [body, if_pos trivia]

end Likeness

end SageNotation.Grammar
