import Mathlib.Data.List.Forall2
import SageNotation.Grammar.Refinements
import SageNotation.Proofs.Document.View
import SageNotation.Proofs.Grammar.Extent

/-!
Two runs of tokens read side by side.

A `Likeness` says which tokens may stand for each other in the two runs, what is
looked at in the spans, and whether the second run may lack comments of the
first.  Runs that are alike (`Likeness.Mirrors`) keep the routines in step: each
of them takes the same turns, makes nodes that look the same (`Sees`), and
leaves runs that are alike again.  Some routines leave them alike only apart
from newlines and comments in front (`Likeness.Follows`).
-/

namespace SageNotation

namespace Grammar

open Token

/-- What two runs of tokens have in common. -/
structure Likeness where
  /-- Tokens that may stand for each other. -/
  token : Token → Token → Prop
  /-- May the second run lack comments of the first? -/
  omits : Prop
  /-- What is looked at in a span. -/
  view : Span → Span
  kind : ∀ {first other}, token first other → first.kind = other.kind
  value : ∀ {first other}, token first other → first.value = other.value
  continues : ∀ {first other}, token first other → continuesMapping first = continuesMapping other
  extent : ∀ {first other run others}, token first other → List.Forall₂ token run others →
    view (extent first run) = view (extent other others)
  /-- Comments are left out everywhere or nowhere, and an implementation, whose text a
  comment ends, has to keep them. -/
  kept : ∀ {first other}, omits → token first other →
    first.kind ≠ .comment ∧ first.kind ≠ .declare .impl

namespace Likeness

variable (like : Likeness)

/-- The tokens of the second run stand for those of the first.  Where comments are
left out, each of them was the last token of its line. -/
inductive Mirrors : List Token → List Token → Prop where
  | nil : Mirrors [] []
  | cons {first other : Token} {left right : List Token} (same : like.token first other)
      (others : Mirrors left right) : Mirrors (first :: left) (other :: right)
  | omitted {first : Token} {left right : List Token} (may : like.omits)
      (comment : first.kind = .comment) (last : ∀ token ∈ left.head?, token.kind = .newline)
      (others : Mirrors left right) : Mirrors (first :: left) right

/-- The runs are alike apart from newlines and comments in front. -/
def Follows (left right : List Token) : Prop :=
  like.Mirrors (skipBlank left) (skipBlank right)

/-- The significant tokens of the two runs stand for each other. -/
def Counts (left right : List Token) : Prop :=
  List.Forall₂ like.token (left.filter isSignificant) (right.filter isSignificant)

/-- Two things that look the same as trees. -/
def Sees {α : Type} (tree : α → Tree) (left right : α) : Prop :=
  (tree left).viewed like.view = (tree right).viewed like.view

/-- Two nodes that agree once spans that look the same are stamped on them. -/
def Makes {α : Type} (agree : α → α → Prop) (left right : Span → α) : Prop :=
  ∀ span other, like.view span = like.view other → agree (left span) (right other)

variable {like} {left right leftRest rightRest : List Token} {first other : Token}

theorem isTrivia_of_blank {token : Token} {kind : Kind} (same : token.kind = kind)
    (blank : kind.isTrivia = true) : token.isTrivia = true := by
  rw [isTrivia, same, blank]

theorem isTrivia_eq (same : like.token first other) : first.isTrivia = other.isTrivia := by
  rw [isTrivia, isTrivia, like.kind same]

theorem endsLine_eq (same : like.token first other) : first.endsLine = other.endsLine := by
  rw [endsLine, endsLine, isTrivia_eq same, like.kind same]

theorem isSignificant_eq (same : like.token first other) :
    first.isSignificant = other.isSignificant := by
  rw [isSignificant, isSignificant, like.kind same]

theorem span_eq (same : like.token first other) : like.view first.span = like.view other.span := by
  have alone := like.extent same .nil
  rwa [extent_nil, extent_nil] at alone

theorem text_eq (same : like.token first other) : first.text = other.text := by
  rw [text, text, like.kind same, like.value same]

theorem render_eq (same : List.Forall₂ like.token left right) : render left = render right := by
  have texts : left.map text = right.map text := by
    induction same with
    | nil => rfl
    | cons here _ ih => rw [List.map_cons, List.map_cons, text_eq here, ih]
  rw [render, render, texts]

theorem makes_node {α : Type} {tree : α → Tree} {build : Span → α} {label : String}
    {fields : Span → List (String × Tree)}
    (made : ∀ span, tree (build span) = .node label (fields span) span)
    (apart : ∀ span place, fields span = fields place) :
    like.Makes (like.Sees tree) build build := by
  intro span place stands
  rw [Sees, made, made, Tree.viewed, Tree.viewed, stands, apart span place]

/-! ### Runs that are alike -/

namespace Mirrors

theorem of_forall₂ (same : List.Forall₂ like.token left right) : like.Mirrors left right := by
  induction same with
  | nil => exact .nil
  | cons here _ ih => exact .cons here ih

theorem forall₂ (mirrors : like.Mirrors left right) (never : ¬ like.omits) :
    List.Forall₂ like.token left right := by
  induction mirrors with
  | nil => exact .nil
  | cons same _ ih => exact .cons same ih
  | omitted may => exact False.elim (never may)

theorem counts (mirrors : like.Mirrors left right) : like.Counts left right := by
  induction mirrors with
  | nil => exact .nil
  | @cons first other _ _ same _ ih =>
      rw [Counts, List.filter_cons, List.filter_cons, isSignificant_eq same]
      split
      · exact .cons same ih
      · exact ih
  | @omitted first _ _ _ comment _ _ ih =>
      have silent : first.isSignificant = false := by
        rw [isSignificant, comment]
        rfl
      rw [Counts, List.filter_cons_of_neg (ne_true_of_eq_false silent)]
      exact ih

theorem skipBlank (mirrors : like.Mirrors left right) :
    like.Mirrors (skipBlank left) (skipBlank right) := by
  induction mirrors with
  | nil => exact .nil
  | @cons first other left right same others ih =>
      unfold Token.skipBlank at ih ⊢
      rw [List.dropWhile_cons, List.dropWhile_cons, isTrivia_eq same]
      split
      · exact ih
      · exact .cons same others
  | @omitted first _ _ _ comment _ _ ih =>
      have trivia := isTrivia_of_blank comment rfl
      unfold Token.skipBlank at ih ⊢
      rw [List.dropWhile_cons_of_pos trivia]
      exact ih

theorem follows (mirrors : like.Mirrors left right) : like.Follows left right :=
  mirrors.skipBlank

theorem ended (mirrors : like.Mirrors left right)
    (last : ∀ token ∈ left.head?, token.kind = .newline) :
    ∀ token ∈ right.head?, token.kind = .newline := by
  intro token next
  cases mirrors with
  | nil => cases next
  | cons same =>
      cases next
      rw [← like.kind same]
      exact last _ rfl
  | omitted _ comment =>
      have newline := last _ rfl
      rw [comment] at newline
      cases newline

/-- The runs up to the first token that stops a loop, and from it on.  Newlines and
comments stop it. -/
theorem split_while {keep : Token → Bool} (mirrors : like.Mirrors left right)
    (stops : ∀ token, token.isTrivia = true → keep token = false)
    (alike : ∀ {first other}, like.token first other → keep first = keep other) :
    List.Forall₂ like.token (left.takeWhile keep) (right.takeWhile keep) ∧
      like.Mirrors (left.dropWhile keep) (right.dropWhile keep) := by
  induction mirrors with
  | nil => exact ⟨.nil, .nil⟩
  | @cons first other left right same others ih =>
      rw [List.takeWhile_cons, List.takeWhile_cons, List.dropWhile_cons, List.dropWhile_cons,
        alike same]
      split
      · exact ⟨.cons same ih.1, ih.2⟩
      · exact ⟨.nil, .cons same others⟩
  | @omitted first left right may comment last others _ =>
      have trivia := isTrivia_of_blank comment rfl
      have leftStops := ne_true_of_eq_false (stops first trivia)
      rw [List.takeWhile_cons_of_neg leftStops, List.dropWhile_cons_of_neg leftStops]
      cases right with
      | nil => exact ⟨.nil, .omitted may comment last others⟩
      | cons other right =>
          have newline := others.ended last other rfl
          have rightStops := ne_true_of_eq_false (stops other (isTrivia_of_blank newline rfl))
          rw [List.takeWhile_cons_of_neg rightStops, List.dropWhile_cons_of_neg rightStops]
          exact ⟨.nil, .omitted may comment last others⟩

theorem line (mirrors : like.Mirrors left right) :
    List.Forall₂ like.token (line left) (line right) ∧
      like.Mirrors (afterLine left) (afterLine right) := by
  apply mirrors.split_while
  · intro token trivia
    rw [endsLine_of_isTrivia trivia]
    rfl
  · intro first other same
    rw [endsLine_eq same]

/-- Either the first tokens stand for each other, or neither run comes with more than a
newline or a comment. -/
theorem front (mirrors : like.Mirrors left right) :
    (∃ first rest other row, left = first :: rest ∧ right = other :: row ∧
      like.token first other ∧ like.Mirrors rest row) ∨
    ((∀ token ∈ left.head?, token.isTrivia = true) ∧
      ∀ token ∈ right.head?, token.isTrivia = true) := by
  cases mirrors with
  | nil =>
      right
      constructor
      · intro token next
        cases next
      · intro token next
        cases next
  | cons same others => exact Or.inl ⟨_, _, _, _, rfl, rfl, same, others⟩
  | omitted _ comment last others =>
      right
      constructor
      · intro token next
        cases next
        exact isTrivia_of_blank comment rfl
      · intro token next
        exact isTrivia_of_blank (others.ended last token next) rfl

end Mirrors

end Likeness

namespace Likeness

variable {like : Likeness} {left right leftRest rightRest : List Token} {kind : Kind}

theorem ne_of_head (trivia : ∀ token ∈ left.head?, token.isTrivia = true)
    (plain : kind.isTrivia = false) : ∀ token ∈ left.head?, token.kind ≠ kind := by
  rintro token next rfl
  have blank := trivia token next
  rw [isTrivia, plain] at blank
  cases blank

theorem dropOne_of_head (other : ∀ token ∈ left.head?, token.kind ≠ kind) :
    dropOne kind left = left := by
  cases left with
  | nil => rfl
  | cons first rest => exact if_neg (other first rfl)

theorem isNext_of_head (other : ∀ token ∈ left.head?, token.kind ≠ kind) :
    isNext kind left = false := by
  cases left with
  | nil => rfl
  | cons first rest => exact beq_eq_false_iff_ne.mpr (other first rfl)

theorem expect_of_head (other : ∀ token ∈ left.head?, token.kind ≠ kind) :
    expect kind left = none := by
  cases left with
  | nil => rfl
  | cons first rest => exact if_neg (other first rfl)

namespace Mirrors

theorem dropOne (kind : Kind) (mirrors : like.Mirrors left right) (plain : kind.isTrivia = false) :
    like.Mirrors (dropOne kind left) (dropOne kind right) := by
  rcases mirrors.front with
    ⟨first, rest, other, row, rfl, rfl, same, others⟩ | ⟨leftBlank, rightBlank⟩
  · rw [Token.dropOne, Token.dropOne, like.kind same]
    split
    · exact others
    · exact mirrors
  · rw [dropOne_of_head (ne_of_head leftBlank plain), dropOne_of_head (ne_of_head rightBlank plain)]
    exact mirrors

theorem isNext (kind : Kind) (mirrors : like.Mirrors left right) (plain : kind.isTrivia = false) :
    isNext kind left = isNext kind right := by
  rcases mirrors.front with
    ⟨first, rest, other, row, rfl, rfl, same, _⟩ | ⟨leftBlank, rightBlank⟩
  · rw [Token.isNext, Token.isNext, like.kind same]
  · rw [isNext_of_head (ne_of_head leftBlank plain), isNext_of_head (ne_of_head rightBlank plain)]

theorem expect (kind : Kind) (mirrors : like.Mirrors left right) (plain : kind.isTrivia = false) :
    Option.Rel (fun here there : Taken _ => like.token here.token there.token ∧
        like.Mirrors here.rest there.rest)
      (expect kind left) (expect kind right) := by
  rcases mirrors.front with
    ⟨first, rest, other, row, rfl, rfl, same, others⟩ | ⟨leftBlank, rightBlank⟩
  · rw [Token.expect, Token.expect]
    by_cases wanted : first.kind = kind
    · rw [if_pos wanted, if_pos ((like.kind same).symm.trans wanted)]
      exact .some ⟨same, others⟩
    · rw [if_neg wanted, if_neg fun found => wanted ((like.kind same).trans found)]
      exact .none
  · rw [expect_of_head (ne_of_head leftBlank plain), expect_of_head (ne_of_head rightBlank plain)]
    exact .none

end Mirrors

/-- Behind newlines and comments both runs are at their end, or they go on with tokens
that stand for each other. -/
theorem Follows.front (follows : like.Follows left right) :
    (skipBlank left = [] ∧ skipBlank right = []) ∨
      ∃ first rest other row, skipBlank left = first :: rest ∧ skipBlank right = other :: row ∧
        first.isTrivia = false ∧ like.token first other ∧ like.Mirrors rest row := by
  have stopped := List.head?_dropWhile_not isTrivia left
  unfold Follows at follows
  generalize leftSplit : skipBlank left = tokens at follows ⊢
  generalize skipBlank right = others at follows ⊢
  unfold skipBlank at leftSplit
  rw [leftSplit] at stopped
  cases follows with
  | nil => exact Or.inl ⟨rfl, rfl⟩
  | cons same further => exact Or.inr ⟨_, _, _, _, rfl, rfl, stopped, same, further⟩
  | omitted _ comment =>
      have plain : Token.isTrivia _ = false := stopped
      rw [isTrivia_of_blank comment rfl] at plain
      cases plain

/-! ### Spans -/

theorem Follows.counts (follows : like.Follows left right) : like.Counts left right := by
  have silent : ∀ tokens : List Token,
      (skipBlank tokens).filter isSignificant = tokens.filter isSignificant := by
    intro tokens
    induction tokens with
    | nil => rfl
    | cons first rest ih =>
        unfold Token.skipBlank at ih ⊢
        by_cases trivia : first.isTrivia = true
        · have quiet : ¬ first.isSignificant = true := by
            intro significant
            rw [isTrivia_of_isSignificant significant] at trivia
            cases trivia
          rw [List.dropWhile_cons_of_pos trivia, ih, List.filter_cons_of_neg quiet]
        · rw [List.dropWhile_cons_of_neg trivia]
  have inner := Mirrors.counts follows
  rw [Counts, silent, silent] at inner
  exact inner

theorem extent_filter (first : Token) (run : List Token) :
    Token.extent first (run.filter isSignificant) = Token.extent first run := by
  rw [Token.extent, Token.extent, lastSignificant?, lastSignificant?, List.filter_filter]
  simp only [Bool.and_self]

theorem counts_between (tokens : like.Counts left right) (rests : like.Counts leftRest rightRest)
    (leftAhead : leftRest <:+ left) (rightAhead : rightRest <:+ right) :
    like.Counts (between left leftRest) (between right rightRest) := by
  unfold Counts at tokens rests ⊢
  -- What is left over has the same length, so the two fronts can be cut off alike.
  rw [← between_append_rest leftAhead, ← between_append_rest rightAhead, List.filter_append,
    List.filter_append] at tokens
  have total := tokens.length_eq
  have later := rests.length_eq
  rw [List.length_append, List.length_append] at total
  have lengths : ((between left leftRest).filter isSignificant).length =
      ((between right rightRest).filter isSignificant).length := by omega
  have front := List.forall₂_take ((between left leftRest).filter isSignificant).length tokens
  rw [List.take_left, lengths, List.take_left] at front
  exact front

/-- Constructs that start alike and leave runs alike have spans that look the same. -/
theorem through_eq {first other : Token} (same : like.token first other)
    (tokens : like.Counts left right) (rests : like.Counts leftRest rightRest)
    (leftAhead : leftRest <:+ left) (rightAhead : rightRest <:+ right) :
    like.view (first.through left leftRest) = like.view (other.through right rightRest) := by
  rw [through_eq_extent, through_eq_extent, ← extent_filter first, ← extent_filter other]
  exact like.extent same (counts_between tokens rests leftAhead rightAhead)

end Likeness

end Grammar

/-! ### Readings side by side -/

namespace Reading

open Token
open Grammar (Likeness)
open Grammar.Likeness

/-- Two readings whose values agree and that leave runs which are alike in some way. -/
structure Parallel {α : Type} (agree : α → α → Prop) (ends : List Token → List Token → Prop)
    {tokens others : List Token} (left : Reading α tokens) (right : Reading α others) : Prop where
  value : agree left.value right.value
  rest : ends left.rest right.rest

variable {α β : Type} {like : Likeness} {tokens others : List Token}
  {agree : α → α → Prop} {ends : List Token → List Token → Prop}
  {left : Reading α tokens} {right : Reading α others}

theorem Parallel.map {concur : β → β → Prop} {change other : α → β}
    (parallel : Parallel agree ends left right)
    (each : ∀ {here there}, agree here there → concur (change here) (other there)) :
    Parallel concur ends (left.map change) (right.map other) :=
  ⟨each parallel.value, parallel.rest⟩

theorem Parallel.widen {wider broader : List Token} (parallel : Parallel agree ends left right)
    (earlier : tokens <:+ wider) (before : others <:+ broader) :
    Parallel agree ends (left.widen earlier) (right.widen before) :=
  ⟨parallel.value, parallel.rest⟩

theorem Parallel.follows (parallel : Parallel agree like.Mirrors left right) :
    Parallel agree like.Follows left right :=
  ⟨parallel.value, parallel.rest.follows⟩

theorem Parallel.stamp {first other : Token} {left : Reading (Span → α) tokens}
    {right : Reading (Span → α) others}
    (parallel : Parallel (like.Makes agree) like.Follows left right)
    (same : like.token first other) (counts : like.Counts tokens others) :
    Parallel agree like.Follows (left.stamp first) (right.stamp other) := by
  refine ⟨?_, parallel.rest⟩
  apply parallel.value
  exact through_eq same counts parallel.rest.counts left.suffix right.suffix

theorem parallel_nothing {value other : α} (same : agree value other) (alike : ends tokens others) :
    Parallel agree ends (nothing value : Reading α tokens) (nothing other : Reading α others) :=
  ⟨same, alike⟩

theorem parallel_option_map {wider broader : List Token} {concur : β → β → Prop}
    {stops : List Token → List Token → Prop} {wide : Option (Reading α tokens)}
    {narrow : Option (Reading α others)}
    {change : Reading α tokens → Reading β wider} {other : Reading α others → Reading β broader}
    (parallel : Option.Rel (Parallel agree ends) wide narrow)
    (each : ∀ {left right}, Parallel agree ends left right →
      Parallel concur stops (change left) (other right)) :
    Option.Rel (Parallel concur stops) (wide.map change) (narrow.map other) := by
  cases parallel with
  | none => exact .none
  | some further => exact .some (each further)

theorem parallel_skipBlank {routine : (tokens : List Token) → Option (Reading α tokens)}
    (passes : ∀ {first : Token}, first.isTrivia = true → ∀ rest,
      routine (first :: rest) = (routine rest).map (·.widen (List.suffix_cons _ _)))
    (tokens : List Token) :
    Option.Rel (Parallel Eq Eq) (routine tokens) (routine (skipBlank tokens)) := by
  unfold skipBlank
  induction tokens with
  | nil =>
      rw [List.dropWhile_nil]
      cases routine [] with
      | none => exact .none
      | some reading => exact .some ⟨rfl, rfl⟩
  | cons first rest ih =>
      by_cases trivia : first.isTrivia = true
      · rw [List.dropWhile_cons_of_pos trivia, passes trivia]
        generalize routine rest = wide at ih ⊢
        generalize routine (rest.dropWhile isTrivia) = narrow at ih ⊢
        cases ih with
        | none => exact .none
        | some same => exact .some ⟨same.value, same.rest⟩
      · rw [List.dropWhile_cons_of_neg trivia]
        cases routine (first :: rest) with
        | none => exact .none
        | some reading => exact .some ⟨rfl, rfl⟩

/-- A routine that leaves out newlines and comments in front reads in step from runs that
are alike apart from these, if it does so from runs that start with other tokens. -/
theorem parallel_of_follows (routine : (tokens : List Token) → Option (Reading α tokens))
    (passes : ∀ {first : Token}, first.isTrivia = true → ∀ rest,
      routine (first :: rest) = (routine rest).map (·.widen (List.suffix_cons _ _)))
    (follows : like.Follows tokens others)
    (ended : Option.Rel (Parallel agree ends) (routine []) (routine []))
    (step : ∀ {first rest other row}, rest.length < tokens.length → first.isTrivia = false →
      like.token first other → like.Mirrors rest row →
      Option.Rel (Parallel agree ends) (routine (first :: rest)) (routine (other :: row))) :
    Option.Rel (Parallel agree ends) (routine tokens) (routine others) := by
  have inner : Option.Rel (Parallel agree ends) (routine (skipBlank tokens))
      (routine (skipBlank others)) := by
    rcases follows.front with
      ⟨leftDone, rightDone⟩ | ⟨first, rest, other, row, leftSplit, rightSplit, plain, same, further⟩
    · rw [leftDone, rightDone]
      exact ended
    · have shorter := (skipBlank_suffix tokens).length_le
      rw [leftSplit, List.length_cons] at shorter
      rw [leftSplit, rightSplit]
      exact step shorter plain same further
  have before := parallel_skipBlank passes tokens
  have after := parallel_skipBlank passes others
  generalize routine tokens = wide at before ⊢
  generalize routine others = narrow at after ⊢
  generalize routine (skipBlank tokens) = wideInner at before inner
  generalize routine (skipBlank others) = narrowInner at after inner
  cases inner with
  | none =>
      cases before
      cases after
      exact .none
  | some parallel =>
      cases before with
      | some left =>
          cases after with
          | some right =>
              refine .some ⟨?_, ?_⟩
              · rw [left.value, right.value]
                exact parallel.value
              · rw [left.rest, right.rest]
                exact parallel.rest

theorem parallel_of_follows_total (routine : (tokens : List Token) → Reading α tokens)
    (passes : ∀ {first : Token}, first.isTrivia = true → ∀ rest,
      routine (first :: rest) = (routine rest).widen (List.suffix_cons _ _))
    (follows : like.Follows tokens others)
    (ended : Parallel agree ends (routine []) (routine []))
    (step : ∀ {first rest other row}, rest.length < tokens.length → first.isTrivia = false →
      like.token first other → like.Mirrors rest row →
      Parallel agree ends (routine (first :: rest)) (routine (other :: row))) :
    Parallel agree ends (routine tokens) (routine others) := by
  have total : Option.Rel (Parallel agree ends) (some (routine tokens)) (some (routine others)) := by
    apply parallel_of_follows (fun tokens => some (routine tokens)) _ follows
      (.some ended) fun shorter plain same further => .some (step shorter plain same further)
    intro first trivia rest
    exact congrArg some (passes trivia rest)
  cases total with
  | some parallel => exact parallel

theorem lineText_parallel (mirrors : like.Mirrors tokens others) :
    Parallel Eq like.Mirrors (lineText tokens) (lineText others) :=
  ⟨render_eq mirrors.line.1, mirrors.line.2⟩

theorem stringOrLine_parallel (mirrors : like.Mirrors tokens others) :
    Parallel Eq like.Mirrors (stringOrLine tokens) (stringOrLine others) := by
  have text := lineText_parallel mirrors
  rcases mirrors.front with
    ⟨first, rest, other, row, rfl, rfl, same, further⟩ | ⟨leftBlank, rightBlank⟩
  · rw [stringOrLine, stringOrLine]
    by_cases string : first.kind = .string
    · rw [if_pos string, if_pos ((like.kind same).symm.trans string)]
      exact ⟨like.value same, further⟩
    · rw [if_neg string, if_neg fun found => string ((like.kind same).trans found)]
      exact text
  · have plain : ∀ {run : List Token}, (∀ token ∈ run.head?, token.isTrivia = true) →
        stringOrLine run = lineText run := by
      intro run blank
      cases run with
      | nil => rfl
      | cons first rest =>
          have other : first.kind ≠ .string := ne_of_head blank rfl first rfl
          exact if_neg other
    rw [plain leftBlank, plain rightBlank]
    exact text

theorem string?_parallel (mirrors : like.Mirrors tokens others) :
    Option.Rel (Parallel Eq like.Mirrors) (string? tokens) (string? others) := by
  induction mirrors with
  | nil =>
      rw [string?]
      exact .none
  | @cons first other rest row same further ih =>
      rw [string?, string?, isTrivia_eq same, like.kind same, further.isNext .bang2 rfl]
      split
      · exact parallel_option_map ih fun parallel => parallel.widen _ _
      · split
        · exact .some ⟨like.value same, further⟩
        · exact .none
  | @omitted first rest row _ comment _ _ ih =>
      have trivia := isTrivia_of_blank comment rfl
      rw [string?, if_pos trivia]
      generalize string? rest = wide at ih ⊢
      generalize string? row = narrow at ih ⊢
      cases ih with
      | none => exact .none
      | some parallel => exact .some ⟨parallel.value, parallel.rest⟩

theorem description_parallel (mirrors : like.Mirrors tokens others) :
    Parallel Eq like.Mirrors (description tokens) (description others) := by
  unfold description
  have text := string?_parallel mirrors
  generalize string? tokens = wide at text ⊢
  generalize string? others = narrow at text ⊢
  cases text with
  | none => exact parallel_nothing rfl mirrors
  | some parallel => exact parallel.map (congrArg some)

end Reading

namespace Attempt

inductive Parallel {α : Type} {tokens others : List Token}
    (related : Reading α tokens → Reading α others → Prop) :
    Attempt α tokens → Attempt α others → Prop where
  | unknown : Parallel related unknown unknown
  | refused : Parallel related refused refused
  | read {left : Reading α tokens} {right : Reading α others} (parallel : related left right) :
      Parallel related (read left) (read right)

variable {α β : Type} {tokens others : List Token}
  {related : Reading α tokens → Reading α others → Prop}

theorem parallel_ofOption {left : Option (Reading α tokens)} {right : Option (Reading α others)}
    (parallel : Option.Rel related left right) :
    Parallel related (ofOption left) (ofOption right) := by
  cases parallel with
  | none => exact .refused
  | some further => exact .read further

theorem Parallel.map {left : Attempt α tokens} {right : Attempt α others}
    {other : Reading β tokens → Reading β others → Prop} {change : α → β}
    (parallel : Parallel related left right)
    (each : ∀ {left right}, related left right → other (left.map change) (right.map change)) :
    Parallel other (left.map change) (right.map change) := by
  cases parallel with
  | unknown => exact .unknown
  | refused => exact .refused
  | read further => exact .read (each further)

end Attempt

end SageNotation
