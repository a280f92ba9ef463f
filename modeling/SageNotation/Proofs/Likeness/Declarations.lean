import SageNotation.Proofs.Likeness.Statements
import SageNotation.Proofs.Likeness.Types

/-!
Declarations read side by side.

The loops of a declaration pass over newlines and comments before they look at a
token, so from runs that are alike they take the same number of turns; what they
collect is related entry by entry.  An implementation keeps its text up to the
next comment and is read in step only from runs that have the same comments.
-/

namespace SageNotation.Grammar

open Token
open Reading (Parallel parallel_nothing parallel_option_map parallel_of_follows
  parallel_of_follows_total description_parallel stringOrLine_parallel)

namespace Likeness

variable {like : Likeness} {left right : List Token} {first other : Token}

theorem sees_optional {α : Type} {tree : α → Tree} {piece another : Option α}
    (same : Option.Rel (like.Sees tree) piece another) :
    (piece.elim .absent tree).viewed like.view = (another.elim .absent tree).viewed like.view := by
  cases same with
  | none => rfl
  | some here => exact here

theorem sees_filterMap {α γ : Type} {agree : γ → γ → Prop} (pick : γ → Option α) (tree : α → Tree)
    {parts others : List γ} (same : List.Forall₂ agree parts others)
    (each : ∀ {part other}, agree part other → Option.Rel (like.Sees tree) (pick part) (pick other)) :
    Tree.viewedItems like.view ((parts.filterMap pick).map tree) =
      Tree.viewedItems like.view ((others.filterMap pick).map tree) :=
  sees_trees (List.rel_filterMap (fun _ _ agreed => each agreed) same)

theorem sees_flatMap {α γ : Type} {agree : γ → γ → Prop} (pick : γ → List α) (tree : α → Tree)
    {parts others : List γ} (same : List.Forall₂ agree parts others)
    (each : ∀ {part other}, agree part other →
      List.Forall₂ (like.Sees tree) (pick part) (pick other)) :
    Tree.viewedItems like.view ((parts.flatMap pick).map tree) =
      Tree.viewedItems like.view ((others.flatMap pick).map tree) :=
  sees_trees (List.rel_flatMap same fun _ _ agreed => each agreed)

/-! ### Modules and types -/

theorem moduleDecl_parallel (mirrors : like.Mirrors left right) :
    Option.Rel (Parallel (like.Makes (like.Sees Declaration.toTree)) like.Mirrors)
      (moduleDecl left) (moduleDecl right) := by
  have named := mirrors.expect .identifier rfl
  unfold moduleDecl
  generalize expect .identifier left = wide at named ⊢
  generalize expect .identifier right = narrow at named ⊢
  cases named with
  | none => exact .none
  | @some name label named =>
      have text := description_parallel named.2
      refine .some ⟨?_, text.rest⟩
      simp only [like.value named.1, text.value]
      exact makes_node (fun _ => rfl) fun _ _ => rfl

theorem typeDecl_parallel (mirrors : like.Mirrors left right) :
    Option.Rel (Parallel (like.Makes (like.Sees Declaration.toTree)) like.Mirrors)
      (typeDecl left) (typeDecl right) := by
  have named := mirrors.expect .identifier rfl
  unfold typeDecl
  generalize expect .identifier left = wide at named ⊢
  generalize expect .identifier right = narrow at named ⊢
  cases named with
  | none => exact .none
  | @some name label named =>
      have assigned := named.2.expect .assign rfl
      simp only []
      generalize expect .assign name.rest = wide at assigned ⊢
      generalize expect .assign label.rest = narrow at assigned ⊢
      cases assigned with
      | none => exact .none
      | @some assign assignOther assigned =>
          have opened := assigned.2.expect .lbrace rfl
          simp only []
          generalize expect .lbrace assign.rest = wide at opened ⊢
          generalize expect .lbrace assignOther.rest = narrow at opened ⊢
          cases opened with
          | none => exact .none
          | @some opening openingOther opened =>
              have fields := recordFields_parallel opened.2
              simp only []
              generalize recordFields opening.rest = wide at fields ⊢
              generalize recordFields openingOther.rest = narrow at fields ⊢
              cases fields with
              | none => exact .none
              | some fields =>
                  refine .some ⟨?_, fields.rest⟩
                  intro span place stands
                  simp only [Sees, Declaration.toTree, Tree.viewed, Tree.viewedFields,
                    fieldsToTrees_eq_map, sees_trees fields.value, like.value named.1, stands]

/-! ### Functions and operations -/

theorem typeAfter_parallel (mark : Kind) (plain : mark.isTrivia = false)
    (mirrors : like.Mirrors left right) :
    Option.Rel (Parallel (Option.Rel (like.Sees TypeExpr.toTree)) like.Mirrors)
      (typeAfter mark left) (typeAfter mark right) := by
  have marked := mirrors.expect mark plain
  unfold typeAfter
  generalize expect mark left = wide at marked ⊢
  generalize expect mark right = narrow at marked ⊢
  cases marked with
  | none => exact .some (parallel_nothing .none mirrors)
  | @some taken takenOther marked =>
      have type := typeExpr_parallel marked.2
      simp only []
      generalize typeExpr taken.rest = wide at type ⊢
      generalize typeExpr takenOther.rest = narrow at type ⊢
      cases type with
      | none => exact .none
      | some type => exact .some ((type.map .some).widen _ _)

theorem params_trivia (trivia : first.isTrivia = true) (rest : List Token) :
    params (first :: rest) = (params rest).map (·.widen (List.suffix_cons _ _)) := by
  rw [params, if_pos trivia]

theorem params_parallel (mirrors : like.Mirrors left right) :
    Option.Rel (Parallel (List.Forall₂ (like.Sees Param.toTree)) like.Mirrors)
      (params left) (params right) := by
  induction size : left.length using Nat.strongRecOn generalizing left right with
  | ind length ih =>
      apply parallel_of_follows params params_trivia mirrors.follows
      · rw [params]
        exact .none
      · intro first rest other row shorter plain same further
        rw [params, params, ← isTrivia_eq same, ← like.kind same,
          if_neg (ne_true_of_eq_false plain), if_neg (ne_true_of_eq_false plain)]
        by_cases closing : first.kind = .rparen
        · rw [if_pos closing, if_pos closing]
          exact .some ⟨.nil, further⟩
        · rw [if_neg closing, if_neg closing]
          by_cases name : first.kind = .identifier
          · rw [if_pos name, if_pos name]
            have type := typeAfter_parallel .colon rfl further
            generalize typeAfter .colon rest = wide at type ⊢
            generalize typeAfter .colon row = narrow at type ⊢
            cases type with
            | none => exact .none
            | @some wide narrow type =>
                have divided := length_divider_le wide.rest
                have within := wide.length_le
                have later := ih _ (by omega) (divider_mirrors type.rest) rfl
                simp only []
                generalize params (divider wide.rest) = wideParams at later ⊢
                generalize params (divider narrow.rest) = narrowParams at later ⊢
                cases later with
                | none => exact .none
                | some later =>
                    refine .some ⟨.cons ?_ later.value, later.rest⟩
                    have stands := through_eq same further.counts type.rest.counts wide.suffix
                      narrow.suffix
                    simp only [Sees, Param.toTree, Tree.viewed, Tree.viewedFields,
                      sees_optional type.value, like.value same, stands]
          · rw [if_neg name, if_neg name]
            exact .none

theorem paramList_parallel (mirrors : like.Mirrors left right) :
    Option.Rel (Parallel (List.Forall₂ (like.Sees Param.toTree)) like.Mirrors)
      (paramList left) (paramList right) := by
  have opened := mirrors.expect .lparen rfl
  unfold paramList
  generalize expect .lparen left = wide at opened ⊢
  generalize expect .lparen right = narrow at opened ⊢
  cases opened with
  | none => exact .some (parallel_nothing .nil mirrors)
  | some opened =>
      exact parallel_option_map (params_parallel opened.2) fun parallel => parallel.widen _ _

theorem contracts_parallel (mirrors : like.Mirrors left right) :
    Parallel (List.Forall₂ (like.Sees Contract.toTree)) like.Mirrors
      (contracts left) (contracts right) := by
  induction size : left.length using Nat.strongRecOn generalizing left right with
  | ind length ih =>
      apply parallel_of_follows_total contracts _ mirrors.follows
      · rw [contracts]
        exact parallel_nothing .nil .nil
      · intro first rest other row shorter plain same further
        rw [contracts, contracts, ← isTrivia_eq same, ← like.kind same,
          if_neg (ne_true_of_eq_false plain), if_neg (ne_true_of_eq_false plain)]
        cases contractKind? first.kind with
        | none => exact parallel_nothing .nil (.cons same further)
        | some kind =>
            have within := (afterLine_suffix rest).length_le
            have later := ih _ (by omega) further.line.2 rfl
            refine ⟨.cons ?_ later.value, later.rest⟩
            have stands := through_eq same further.counts further.line.2.counts
              (afterLine_suffix rest) (afterLine_suffix row)
            simp only [Sees, Contract.toTree, Tree.viewed, render_eq further.line.1, stands]
      · intro first trivia rest
        rw [contracts, if_pos trivia]

theorem callable_parallel (mirrors : like.Mirrors left right) :
    Option.Rel (Parallel
        (fun here there => ∀ label, like.Makes (like.Sees (Callable.toTree label)) here.1 there.1)
        like.Follows)
      (callable left) (callable right) := by
  have named := mirrors.expect .identifier rfl
  unfold callable
  generalize expect .identifier left = wide at named ⊢
  generalize expect .identifier right = narrow at named ⊢
  cases named with
  | none => exact .none
  | @some name nameOther named =>
      have listed := paramList_parallel named.2
      simp only []
      generalize paramList name.rest = wide at listed ⊢
      generalize paramList nameOther.rest = narrow at listed ⊢
      cases listed with
      | none => exact .none
      | @some params paramsOther listed =>
          have typed := typeAfter_parallel .arrow rfl listed.rest
          simp only []
          generalize typeAfter .arrow params.rest = wide at typed ⊢
          generalize typeAfter .arrow paramsOther.rest = narrow at typed ⊢
          cases typed with
          | none => exact .none
          | @some result resultOther typed =>
              have text := description_parallel typed.rest
              have terms := contracts_parallel text.rest
              have statements := body_parallel terms.rest.follows
              refine .some ⟨?_, statements.rest⟩
              intro label span place stands
              simp only [Sees, Callable.toTree, Tree.viewed, Tree.viewedFields,
                sees_trees listed.value, sees_optional typed.value, sees_trees terms.value,
                sees_trees statements.value, like.value named.1, text.value, stands]

/-! ### Clauses -/

/-- Clauses are read in step if each of them is, whatever has been read before it. -/
theorem clauses_parallel {γ : Type} {agree : γ → γ → Prop}
    (form : List γ → Token → (tokens : List Token) → Attempt (Span → γ) tokens)
    (forms : ∀ {earlier before : List γ} {first other : Token} {rest row : List Token},
      List.Forall₂ agree earlier before → like.token first other → like.Mirrors rest row →
      Attempt.Parallel (Parallel (like.Makes agree) like.Mirrors)
        (form earlier first rest) (form before other row))
    {earlier before : List γ} (history : List.Forall₂ agree earlier before)
    (mirrors : like.Mirrors left right) :
    Parallel (fun here there => List.Forall₂ agree here.1 there.1) like.Mirrors
      (clauses form earlier left) (clauses form before right) := by
  induction size : left.length using Nat.strongRecOn generalizing earlier before left right with
  | ind length ih =>
      subst size
      cases mirrors with
      | nil =>
          rw [clauses, clauses]
          exact ⟨List.rel_reverse history, .nil⟩
      | @cons first other rest row same further =>
          rw [clauses, clauses, ← isTrivia_eq same]
          split
          · exact (ih rest.length (Nat.lt_succ_self _) history further rfl).widen _ _
          · have one := forms history same further
            generalize form earlier first rest = wide at one ⊢
            generalize form before other row = narrow at one ⊢
            cases one with
            | unknown => exact parallel_nothing (List.rel_reverse history) (.cons same further)
            | refused => exact ⟨List.rel_reverse history, .cons same further⟩
            | @read wide narrow one =>
                have within := wide.length_le
                have clause := (one.follows.stamp same further.counts).value
                have later := ih wide.rest.length (Nat.lt_succ_of_le within) (.cons clause history)
                  one.rest rfl
                exact later.widen _ _
      | @omitted first rest _ _ comment _ further =>
          rw [clauses, if_pos (isTrivia_of_blank comment rfl)]
          have later := ih rest.length (Nat.lt_succ_self _) history further rfl
          exact ⟨later.value, later.rest⟩

theorem stateFields_parallel (mirrors : like.Mirrors left right) :
    Option.Rel (Parallel (List.Forall₂ (like.Sees StateField.toTree)) like.Mirrors)
      (stateFields left) (stateFields right) := by
  induction size : left.length using Nat.strongRecOn generalizing left right with
  | ind length ih =>
      apply parallel_of_follows stateFields _ mirrors.follows
      · rw [stateFields]
        exact .some (parallel_nothing .nil .nil)
      · intro first rest other row shorter plain same further
        rw [stateFields, stateFields, ← isTrivia_eq same, ← like.kind same,
          if_neg (ne_true_of_eq_false plain), if_neg (ne_true_of_eq_false plain)]
        by_cases name : first.kind = .identifier
        · rw [if_pos name, if_pos name]
          have typed := further.expect .colon rfl
          generalize expect .colon rest = wide at typed ⊢
          generalize expect .colon row = narrow at typed ⊢
          cases typed with
          | none => exact .some (parallel_nothing .nil (.cons same further))
          | @some colon colonOther typed =>
              have type := typeExpr_parallel typed.2
              simp only []
              generalize typeExpr colon.rest = wide at type ⊢
              generalize typeExpr colonOther.rest = narrow at type ⊢
              cases type with
              | none => exact .none
              | @some wide narrow type =>
                  have within := wide.length_le
                  have before := colon.length_lt
                  have later := ih _ (by omega) type.rest rfl
                  simp only []
                  generalize stateFields wide.rest = wideFields at later ⊢
                  generalize stateFields narrow.rest = narrowFields at later ⊢
                  cases later with
                  | none => exact .none
                  | some later =>
                      refine .some ⟨.cons ?_ later.value, later.rest⟩
                      have typeSeen : wide.value.toTree.viewed like.view =
                          narrow.value.toTree.viewed like.view := type.value
                      have stands := through_eq same further.counts type.rest.counts
                        (wide.suffix.trans colon.suffix) (narrow.suffix.trans colonOther.suffix)
                      simp only [Sees, StateField.toTree, Tree.viewed, Tree.viewedFields, typeSeen,
                        like.value same, stands]
        · rw [if_neg name, if_neg name]
          exact .some (parallel_nothing .nil (.cons same further))
      · intro first trivia rest
        rw [stateFields, if_pos trivia]

/-! ### Specifications -/

theorem renders_eq {rows lines : List (List Token)}
    (same : List.Forall₂ (List.Forall₂ like.token) rows lines) :
    rows.map render = lines.map render := by
  induction same with
  | nil => rfl
  | cons here _ ih => rw [List.map_cons, List.map_cons, render_eq here, ih]

theorem continuesInvariant_of_isTrivia {token : Token} (trivia : token.isTrivia = true) :
    continuesInvariant token = false := by
  rw [continuesInvariant, endsLine_of_isTrivia trivia]
  simp only [Bool.or_true, Bool.true_or, Bool.not_true]

theorem continuesInvariant_eq (same : like.token first other) :
    continuesInvariant first = continuesInvariant other := by
  rw [continuesInvariant, continuesInvariant, endsLine_eq same, like.kind same]

theorem invariant_parallel (mirrors : like.Mirrors left right) :
    Parallel (like.Makes (like.Sees Invariant.toTree)) like.Mirrors
      (invariant left) (invariant right) := by
  have others := followingLines_parallel (fun _ trivia => continuesInvariant_of_isTrivia trivia)
    continuesInvariant_eq mirrors.line.2
  refine ⟨?_, others.rest⟩
  simp only [invariant, List.map_cons, render_eq mirrors.line.1, renders_eq others.value]
  exact makes_node (fun _ => rfl) fun _ _ => rfl

inductive SpecClauseSeen (like : Likeness) : SpecClause → SpecClause → Prop where
  | property {node other : Property} (seen : like.Sees Property.toTree node other) :
      SpecClauseSeen like (.property node) (.property other)
  | state {fields others : List StateField}
      (seen : List.Forall₂ (like.Sees StateField.toTree) fields others) :
      SpecClauseSeen like (.state fields) (.state others)
  | invariant {node other : Invariant} (seen : like.Sees Invariant.toTree node other) :
      SpecClauseSeen like (.invariant node) (.invariant other)

namespace SpecClauseSeen

variable {clause another : SpecClause} (seen : like.SpecClauseSeen clause another)

include seen

theorem property? : Option.Rel (like.Sees Property.toTree) clause.property? another.property? := by
  cases seen with
  | property seen => exact .some seen
  | state => exact .none
  | invariant => exact .none

theorem stateFields :
    List.Forall₂ (like.Sees StateField.toTree) clause.stateFields another.stateFields := by
  cases seen with
  | property => exact .nil
  | state seen => exact seen
  | invariant => exact .nil

theorem invariant? : Option.Rel (like.Sees Invariant.toTree) clause.invariant? another.invariant? := by
  cases seen with
  | property => exact .none
  | state => exact .none
  | invariant seen => exact .some seen

end SpecClauseSeen

theorem specClause_parallel {earlier before : List SpecClause} (same : like.token first other)
    (mirrors : like.Mirrors left right) :
    Attempt.Parallel (Parallel (like.Makes like.SpecClauseSeen) like.Mirrors)
      (specClause earlier first left) (specClause before other right) := by
  unfold specClause
  rw [← like.kind same]
  split
  · refine .read ((stringOrLine_parallel mirrors).map ?_)
    rintro text _ rfl span place stands
    refine .property ?_
    simp only [Sees, Property.toTree, Tree.viewed, stands]
  · refine Attempt.parallel_ofOption (parallel_option_map (stateFields_parallel mirrors) ?_)
    intro wide narrow parallel
    exact parallel.map fun seen _ _ _ => .state seen
  · exact .read ((invariant_parallel mirrors).map fun made span place stands =>
      .invariant (made span place stands))
  · exact .unknown

theorem specDecl_parallel (mirrors : like.Mirrors left right) :
    Option.Rel (Parallel (fun here there => like.Makes (like.Sees Declaration.toTree) here.1 there.1)
        like.Mirrors)
      (specDecl left) (specDecl right) := by
  have named := mirrors.expect .identifier rfl
  unfold specDecl
  generalize expect .identifier left = wide at named ⊢
  generalize expect .identifier right = narrow at named ⊢
  cases named with
  | none => exact .none
  | @some name nameOther named =>
      have text := description_parallel named.2
      have parts := clauses_parallel specClause
        (fun _ same further => specClause_parallel same further) .nil text.rest
      refine .some ⟨?_, parts.rest⟩
      intro span place stands
      have properties := sees_filterMap SpecClause.property? Property.toTree
        parts.value fun seen => seen.property?
      have state := sees_flatMap SpecClause.stateFields StateField.toTree
        parts.value fun seen => seen.stateFields
      have invariants := sees_filterMap SpecClause.invariant? Invariant.toTree
        parts.value fun seen => seen.invariant?
      simp only [Sees, Declaration.toTree, Tree.viewed, Tree.viewedFields, properties, state,
        invariants, like.value named.1, text.value, stands]

/-! ### Implementations -/

theorem split_while_forall₂ (keep : Token → Bool) (same : List.Forall₂ like.token left right)
    (alike : ∀ {first other}, like.token first other → keep first = keep other) :
    List.Forall₂ like.token (left.takeWhile keep) (right.takeWhile keep) ∧
      List.Forall₂ like.token (left.dropWhile keep) (right.dropWhile keep) := by
  induction same with
  | nil => exact ⟨.nil, .nil⟩
  | @cons first other _ _ here others ih =>
      rw [List.takeWhile_cons, List.takeWhile_cons, List.dropWhile_cons, List.dropWhile_cons,
        alike here]
      split
      · exact ⟨.cons here ih.1, ih.2⟩
      · exact ⟨.nil, .cons here others⟩

theorem splitOnP_forall₂ (stops : Token → Bool) (same : List.Forall₂ like.token left right)
    (alike : ∀ {first other}, like.token first other → stops first = stops other) :
    List.Forall₂ (List.Forall₂ like.token) (left.splitOnP stops) (right.splitOnP stops) := by
  induction same with
  | nil => exact .cons .nil .nil
  | @cons first other rest row here _ ih =>
      rw [List.splitOnP_cons_eq_if_modifyHead, List.splitOnP_cons_eq_if_modifyHead, alike here]
      split
      · exact .cons .nil ih
      · generalize rest.splitOnP stops = rows at ih ⊢
        generalize row.splitOnP stops = lines at ih ⊢
        cases ih with
        | nil => exact .nil
        | cons head others => exact .cons (.cons here head) others

theorem dropOne_forall₂ (kind : Kind) (same : List.Forall₂ like.token left right) :
    List.Forall₂ like.token (dropOne kind left) (dropOne kind right) := by
  cases same with
  | nil => exact .nil
  | cons here others =>
      rw [dropOne, dropOne, like.kind here]
      split
      · exact others
      · exact .cons here others

theorem implementation_parallel (same : List.Forall₂ like.token left right) :
    Parallel (like.Makes (like.Sees Declaration.toTree)) (List.Forall₂ like.token)
      (implementation left) (implementation right) := by
  have target : (expect .identifier left).map (·.token.value) =
      (expect .identifier right).map (·.token.value) := by
    have named := (Mirrors.of_forall₂ same).expect .identifier rfl
    generalize expect .identifier left = wide at named ⊢
    generalize expect .identifier right = narrow at named ⊢
    cases named with
    | none => rfl
    | some taken => exact congrArg some (like.value taken.1)
  have start := (split_while_forall₂ isTrivia (dropOne_forall₂ .identifier same) isTrivia_eq).2
  have text := split_while_forall₂
    (fun token => !(endsBody token.kind || token.kind == .comment)) start (by
      intro first other alike
      rw [like.kind alike])
  have rows := splitOnP_forall₂ (·.kind == .newline) text.1 (by
    intro first other alike
    rw [like.kind alike])
  refine ⟨?_, text.2⟩
  have texts := renders_eq rows
  unfold implementation skipBlank
  simp only [target, texts]
  exact makes_node (fun _ => rfl) fun _ _ => rfl

end Likeness

end SageNotation.Grammar
