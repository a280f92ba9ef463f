import SageNotation.Grammar.Documents
import SageNotation.Proofs.Cut.Documents
import SageNotation.Proofs.Document.Faithful
import SageNotation.Proofs.Likeness.Refinements
import SageNotation.Proofs.Token.Breaks

/-!
Documents read side by side.

From runs that are alike the same items are read, one for one.  In particular a
document does not depend on the places of its tokens but for the columns that
decide where a mapping ends, and so not on how the lines of its text end.
-/

namespace SageNotation.Grammar

open Token
open Reading (Parallel parallel_nothing parallel_option_map lineText_parallel)

namespace Likeness

variable {like : Likeness} {left right : List Token} {first other : Token}

/-! ### Items -/

theorem inferredFact_parallel (inference : Inference) (mirrors : like.Mirrors left right) :
    Parallel (like.Makes (like.Sees InferredFact.toTree)) like.Mirrors
      (inferredFact inference left) (inferredFact inference right) := by
  apply (lineText_parallel mirrors).map
  rintro text _ rfl
  exact makes_node (fun _ => rfl) fun _ _ => rfl

/-- The items of two readings agree once spans that look the same are stamped on them. -/
def MakesItem (like : Likeness) (left right : (Span → Item) × List Recovery) : Prop :=
  like.Makes (like.Sees Item.toTree) left.1 right.1

theorem asDeclaration_parallel {ends : List Token → List Token → Prop}
    {wide : Option (Reading ((Span → Declaration) × List Recovery) left)}
    {narrow : Option (Reading ((Span → Declaration) × List Recovery) right)}
    (parallel : Option.Rel
      (Parallel (fun here there => like.Makes (like.Sees Declaration.toTree) here.1 there.1) ends)
      wide narrow)
    (ahead : ∀ {rest row}, ends rest row → like.Follows rest row) :
    Attempt.Parallel (Parallel like.MakesItem like.Follows) (asDeclaration wide)
      (asDeclaration narrow) :=
  (Attempt.parallel_ofOption parallel).map fun read =>
    ⟨fun span place stands => read.value span place stands, ahead read.rest⟩

theorem plainly_parallel {α : Type} {agree : α → α → Prop} {ends : List Token → List Token → Prop}
    {wide : Reading α left} {narrow : Reading α right} (parallel : Parallel agree ends wide narrow) :
    Parallel (fun here there => agree here.1 there.1) ends (plainly wide) (plainly narrow) :=
  ⟨parallel.value, parallel.rest⟩

theorem declarationForm_parallel {word : DeclareWord} (mirrors : like.Mirrors left right)
    (kept : word = .impl → ¬ like.omits) :
    Attempt.Parallel (Parallel like.MakesItem like.Follows)
      (declarationForm word left) (declarationForm word right) := by
  cases word with
  | mod =>
      exact asDeclaration_parallel
        (parallel_option_map (moduleDecl_parallel mirrors) plainly_parallel) Mirrors.follows
  | type =>
      exact asDeclaration_parallel
        (parallel_option_map (typeDecl_parallel mirrors) plainly_parallel) Mirrors.follows
  | fn =>
      exact asDeclaration_parallel
        (parallel_option_map (callable_parallel mirrors) fun parallel =>
          parallel.map fun made => made "FunctionDecl") id
  | spec => exact asDeclaration_parallel (specDecl_parallel mirrors) Mirrors.follows
  | op =>
      exact asDeclaration_parallel
        (parallel_option_map (callable_parallel mirrors) fun parallel =>
          parallel.map fun made => made "OperationDecl") id
  | refine => exact asDeclaration_parallel (refinement_parallel mirrors) Mirrors.follows
  | impl =>
      have text := implementation_parallel (mirrors.forall₂ (kept rfl))
      exact asDeclaration_parallel (.some (plainly_parallel text)) fun same =>
        (Mirrors.of_forall₂ same).follows

theorem itemForm_parallel (same : like.token first other) (mirrors : like.Mirrors left right) :
    Attempt.Parallel (Parallel like.MakesItem like.Follows)
      (itemForm first left) (itemForm other right) := by
  have statement : Attempt.Parallel (Parallel like.MakesItem like.Follows)
      ((statementForm first left).map fun node => (fun span => .statement (node span), []))
      ((statementForm other right).map fun node => (fun span => .statement (node span), [])) :=
    (statementForm_parallel same mirrors).map fun read =>
      ⟨fun span place stands => read.value span place stands, read.rest⟩
  unfold itemForm
  rw [← like.kind same]
  split
  · rename_i word kind
    refine declarationForm_parallel mirrors ?_
    rintro rfl may
    exact (like.kept may same).2 kind
  · rename_i inference _
    have fact := inferredFact_parallel inference mirrors
    exact .read ⟨fun span place stands => fact.value span place stands, fact.rest.follows⟩
  · refine .read (parallel_nothing ?_ mirrors.follows)
    intro span place stands
    simp only [Sees, Item.toTree, Tree.viewed, stands]
  · exact statement

theorem item_parallel (same : like.token first other) (mirrors : like.Mirrors left right) :
    Parallel (fun here there => like.Sees Item.toTree here.1 there.1) like.Follows
      (item first left) (item other right) := by
  have form := itemForm_parallel same mirrors
  have raw := (rawLine_parallel same mirrors).stamp same mirrors.counts
  unfold item
  generalize itemForm first left = wide at form ⊢
  generalize itemForm other right = narrow at form ⊢
  cases form with
  | unknown => exact raw.map id
  | refused => exact raw.map id
  | @read wide narrow parallel =>
      refine ⟨?_, parallel.rest⟩
      apply parallel.value
      exact through_eq same mirrors.counts parallel.rest.counts wide.suffix narrow.suffix

theorem items_skipBlank (tokens : List Token) :
    (items (skipBlank tokens)).value = (items tokens).value := by
  unfold skipBlank
  induction tokens with
  | nil => rfl
  | cons first rest ih =>
      by_cases trivia : first.isTrivia = true
      · rw [List.dropWhile_cons_of_pos trivia, ih, items_trivia trivia]
        rfl
      · rw [List.dropWhile_cons_of_neg trivia]

/-- From runs that are alike items are read that look the same, one for one. -/
theorem items_parallel (follows : like.Follows left right) :
    List.Forall₂ (like.Sees Item.toTree) (items left).value.1 (items right).value.1 := by
  induction size : left.length using Nat.strongRecOn generalizing left right with
  | ind length ih =>
      rw [← items_skipBlank left, ← items_skipBlank right]
      rcases follows.front with
        ⟨leftDone, rightDone⟩ | ⟨first, rest, other, row, leftSplit, rightSplit, plain, same, others⟩
      · rw [leftDone, rightDone, items]
        exact .nil
      · have total := (skipBlank_suffix left).length_le
        have within := (item first rest).length_le
        rw [leftSplit, List.length_cons] at total
        have one := item_parallel same others
        have otherPlain := (isTrivia_eq same).symm.trans plain
        rw [leftSplit, rightSplit]
        by_cases ends : first.kind = .eof
        · rw [items_atMark ends, items_atMark ((like.kind same).symm.trans ends)]
          exact .nil
        · have going : other.kind ≠ .eof := like.kind same ▸ ends
          rw [(items_plain (ne_true_of_eq_false plain) ends rest).1,
            (items_plain (ne_true_of_eq_false otherPlain) going row).1]
          exact .cons one.value (ih _ (by omega) one.rest rfl)

/-! ### Places -/

/-- Tokens of one kind and one value that go on with a mapping alike, wherever they
stand. -/
def besidesPlaces : Likeness where
  token first other := first.kind = other.kind ∧ first.value = other.value ∧
    continuesMapping first = continuesMapping other
  omits := False
  view := Span.unseen
  kind same := same.1
  value same := same.2.1
  continues same := same.2.2
  extent _ _ := rfl
  kept may := False.elim may

end Likeness

open Likeness

variable {tokens others : List Token}

theorem beforeEnd_forall₂ {like : Likeness} (same : List.Forall₂ like.token tokens others) :
    List.Forall₂ like.token (beforeEnd tokens) (beforeEnd others) :=
  (split_while_forall₂ (·.kind != .eof) same fun alike => by rw [like.kind alike]).1

/-- Tokens that differ in their places only, and go on with mappings alike, make
documents that differ in their places only. -/
theorem unplaced_ofTokens_eq (same : List.Forall₂ besidesPlaces.token tokens others)
    (file another : Option String) :
    (Document.ofTokens tokens file).unplaced = (Document.ofTokens others another).unplaced := by
  have seen := items_parallel (Mirrors.of_forall₂ (beforeEnd_forall₂ same)).follows
  have body : List.Forall₂ Eq ((items (beforeEnd tokens)).value.1.map Item.unplaced)
      ((items (beforeEnd others)).value.1.map Item.unplaced) := by
    rw [List.forall₂_map_left_iff, List.forall₂_map_right_iff]
    refine seen.imp fun item other alike => Item.toTree_inj.mp ?_
    rw [Item.toTree_unplaced, Item.toTree_unplaced]
    exact alike
  rw [List.forall₂_eq_eq_eq] at body
  rw [Document.unplaced, Document.unplaced, body_ofTokens, body_ofTokens, body]

/-- Two tokens that differ in their places only, and stand in the first column both or
neither. -/
structure SameButPlace (first other : Token) : Prop where
  kind : first.kind = other.kind
  value : first.value = other.value
  column : first.span.start.col ≤ 1 ↔ other.span.start.col ≤ 1

theorem SameButPlace.besidesPlaces {first other : Token} (same : SameButPlace first other) :
    besidesPlaces.token first other := by
  refine ⟨same.kind, same.value, ?_⟩
  have indented : decide (1 < first.span.start.col) = decide (1 < other.span.start.col) := by
    rw [decide_eq_decide, ← Int.not_le, ← Int.not_le, same.column]
  simp only [continuesMapping, continuesInvariant, endsLine, isTrivia, same.kind, indented]

/-- The data of a document depends on the places of its tokens by their first columns
alone. -/
theorem ofTokens_apart_from_places (same : List.Forall₂ SameButPlace tokens others)
    (file another : Option String) :
    (Document.ofTokens tokens file).toData false =
      (Document.ofTokens others another).toData false := by
  have unplaced := unplaced_ofTokens_eq (same.imp fun _ _ alike => alike.besidesPlaces) file another
  rw [← Document.toData_unplaced, unplaced, Document.toData_unplaced]

def mappingLines : String := "@refine A as B\n@maps \"rows\"\n  x -> y\n  y -> z\n\"kept\"\n"

def shifted (token : Token) : Token :=
  { token with span := ⟨"elsewhere", ⟨0, 0, 3 * token.span.start.col - 2⟩, .first⟩ }

theorem ofTokens_apart_from_places_shifted :
    List.Forall₂ SameButPlace (tokenize mappingLines "here")
        ((tokenize mappingLines "here").map shifted) ∧
      (Document.ofTokens (tokenize mappingLines "here") none).toData false =
        (Document.ofTokens ((tokenize mappingLines "here").map shifted) (some "there")).toData
          false := by
  have same : List.Forall₂ SameButPlace (tokenize mappingLines "here")
      ((tokenize mappingLines "here").map shifted) := by
    rw [List.forall₂_map_right_iff, List.forall₂_same]
    intro token _
    refine ⟨rfl, rfl, ?_⟩
    simp only [shifted]
    omega
  exact ⟨same, ofTokens_apart_from_places same none (some "there")⟩

/-! ### Line breaks -/

/-- Where no string holds a newline, a carriage return in front of every newline keeps
the values and the columns that reading looks at. -/
theorem besidesPlaces_of_breaks {first other : Token} (alike : BreaksAlike first other)
    (whole : first.kind = .string → '\n' ∉ first.value.toList) :
    besidesPlaces.token first other := by
  have value : other.value = first.value := by
    rw [alike.value]
    split
    · rename_i string
      rw [Text.dosText, Text.dosBreaks_unbroken (whole string), String.ofList_toList]
    · rfl
  refine ⟨alike.kind.symm, value.symm, ?_⟩
  -- A newline may stand elsewhere on its line, but no mapping goes on with one.
  by_cases newline : first.kind = .newline
  · rw [continuesMapping_of_isTrivia (isTrivia_of_blank newline rfl),
      continuesMapping_of_isTrivia (isTrivia_of_blank (alike.kind.trans newline) rfl)]
  · simp only [continuesMapping, continuesInvariant, endsLine, isTrivia, alike.kind, (alike.place newline).col]

/-- A text whose lines end in a carriage return and a newline has the same tokens and,
if no string runs over a line break, the same document but for the places. -/
theorem read_dosText (source file : String) :
    List.Forall₂ BreaksAlike (tokenize source file) (tokenize (Text.dosText source) file) ∧
      ((∀ token ∈ tokenize source file, token.kind = .string → '\n' ∉ token.value.toList) →
        (Document.parse (Text.dosText source) file).unplaced =
          (Document.parse source file).unplaced) := by
  have alike : List.Forall₂ BreaksAlike (tokenize source file)
      (tokenize (Text.dosText source) file) := by
    rw [tokenize, tokenize, Text.dosText, String.toList_ofList]
    exact scan_dosBreaks file source.toList ⟨rfl, rfl⟩
  refine ⟨alike, fun whole => ?_⟩
  have same : List.Forall₂ besidesPlaces.token (tokenize source file)
      (tokenize (Text.dosText source) file) := by
    refine ((List.forall₂_and_left _ _).mpr ⟨whole, alike⟩).imp ?_
    rintro first other ⟨string, breaks⟩
    exact besidesPlaces_of_breaks breaks string
  exact (unplaced_ofTokens_eq same (some file) (some file)).symm

def brokenLines : String :=
  "@refine A as B # of A\n@maps \"a\\\"b\"\n  x => y # first\n  y ...\n---\n@fn f\n  \"c\"!!\n"

theorem read_dosText_broken_lines :
    (∀ token ∈ tokenize brokenLines "f.sage", token.kind = .string → '\n' ∉ token.value.toList) ∧
      (Document.parse (Text.dosText brokenLines) "f.sage").unplaced =
        (Document.parse brokenLines "f.sage").unplaced := by
  have whole : ∀ token ∈ tokenize brokenLines "f.sage",
      token.kind = .string → '\n' ∉ token.value.toList := by
    decide +kernel
  exact ⟨whole, (read_dosText brokenLines "f.sage").2 whole⟩

end SageNotation.Grammar
