import SageNotation.Proofs.Likeness.Declarations

/-!
Refinements read side by side.

Where a mapping ends depends on the column of the next line, so runs that are
alike agree in `continuesMapping`; no other routine looks at a column.  What a
bare string means depends on the clauses before it, and is settled in the same
way in both runs because these are related.
-/

namespace SageNotation.Grammar

open Token
open Reading (Parallel parallel_nothing parallel_option_map parallel_of_follows_total
  stringOrLine_parallel)

namespace Likeness

variable {like : Likeness} {left right : List Token} {first other : Token}

/-! ### Headers -/

theorem tagName_parallel (mirrors : like.Mirrors left right) :
    Option.Rel (Parallel Eq like.Mirrors) (tagName left) (tagName right) := by
  have opened := mirrors.expect .lbracket rfl
  unfold tagName
  generalize expect .lbracket left = wide at opened ⊢
  generalize expect .lbracket right = narrow at opened ⊢
  cases opened with
  | none => exact .some (parallel_nothing rfl mirrors)
  | @some opening openingOther opened =>
      have named := opened.2.expect .identifier rfl
      simp only []
      generalize expect .identifier opening.rest = wide at named ⊢
      generalize expect .identifier openingOther.rest = narrow at named ⊢
      cases named with
      | none => exact .none
      | @some tag tagOther named =>
          have closed := named.2.expect .rbracket rfl
          simp only []
          generalize expect .rbracket tag.rest = wide at closed ⊢
          generalize expect .rbracket tagOther.rest = narrow at closed ⊢
          cases closed with
          | none => exact .none
          | some closed => exact .some ⟨congrArg some (like.value named.1), closed.2⟩

theorem refinementName_parallel (mirrors : like.Mirrors left right) :
    Option.Rel (Parallel Eq like.Mirrors) (refinementName left) (refinementName right) := by
  have worded := mirrors.expect (.plain .asWord) rfl
  unfold refinementName
  generalize expect (.plain .asWord) left = wide at worded ⊢
  generalize expect (.plain .asWord) right = narrow at worded ⊢
  cases worded with
  | none => exact .some (parallel_nothing rfl mirrors)
  | @some word wordOther worded =>
      have named := worded.2.expect .identifier rfl
      simp only []
      generalize expect .identifier word.rest = wide at named ⊢
      generalize expect .identifier wordOther.rest = narrow at named ⊢
      cases named with
      | none => exact .none
      | @some child childOther named =>
          have tagged := tagName_parallel named.2
          simp only []
          generalize tagName child.rest = wide at tagged ⊢
          generalize tagName childOther.rest = narrow at tagged ⊢
          cases tagged with
          | none => exact .none
          | some tagged =>
              refine .some ⟨?_, tagged.rest⟩
              simp only [like.value named.1, tagged.value]

/-! ### Clauses -/

theorem decisionClause_parallel (mirrors : like.Mirrors left right) :
    Parallel (like.Makes (like.Sees Decision.toTree)) like.Mirrors
      (decisionClause left) (decisionClause right) := by
  have text := stringOrLine_parallel mirrors
  refine ⟨?_, text.rest.dropOne .bang2 rfl⟩
  simp only [decisionClause, text.value]
  exact makes_node (fun _ => rfl) fun _ _ => rfl

theorem checkedProperties_parallel (mirrors : like.Mirrors left right) :
    Parallel (List.Forall₂ (like.Sees Preserved.toTree)) like.Mirrors
      (checkedProperties left) (checkedProperties right) := by
  induction size : left.length using Nat.strongRecOn generalizing left right with
  | ind length ih =>
      apply parallel_of_follows_total checkedProperties _ mirrors.follows
      · rw [checkedProperties]
        exact parallel_nothing .nil .nil
      · intro first rest other row shorter plain same further
        rw [checkedProperties, checkedProperties, ← isTrivia_eq same, ← like.kind same,
          if_neg (ne_true_of_eq_false plain), if_neg (ne_true_of_eq_false plain)]
        split
        · have text := stringOrLine_parallel further
          have within := (Reading.stringOrLine rest).length_le
          have later := ih _ (by omega) text.rest rfl
          refine ⟨.cons ?_ later.value, later.rest⟩
          have stands := through_eq same further.counts text.rest.counts
            (Reading.stringOrLine rest).suffix (Reading.stringOrLine row).suffix
          simp only [Sees, Preserved.toTree, Tree.viewed, text.value, stands]
        · exact parallel_nothing .nil (.cons same further)
      · intro first trivia rest
        rw [checkedProperties, if_pos trivia]

theorem preserved_parallel (mirrors : like.Mirrors left right) :
    Parallel (List.Forall₂ (like.Sees Preserved.toTree)) like.Mirrors
      (preserved left) (preserved right) := by
  have quoted := mirrors.skipBlank.expect .string rfl
  unfold preserved
  generalize expect .string (skipBlank left) = wide at quoted ⊢
  generalize expect .string (skipBlank right) = narrow at quoted ⊢
  cases quoted with
  | none => exact checkedProperties_parallel mirrors
  | some bare =>
      have others := checkedProperties_parallel bare.2
      refine ⟨.cons ?_ others.value, others.rest⟩
      simp only [Sees, Preserved.toTree, Tree.viewed, like.value bare.1, span_eq bare.1]

theorem continuesMapping_of_isTrivia {token : Token} (trivia : token.isTrivia = true) :
    continuesMapping token = false := by
  rw [continuesMapping, continuesInvariant_of_isTrivia trivia]
  rfl

theorem mapping_parallel (mirrors : like.Mirrors left right) :
    Parallel (like.Makes (like.Sees Mapping.toTree)) like.Mirrors
      (mapping left) (mapping right) := by
  have text := stringOrLine_parallel mirrors
  have others := followingLines_parallel (fun _ trivia => continuesMapping_of_isTrivia trivia)
    like.continues text.rest
  refine ⟨?_, others.rest⟩
  simp only [mapping, text.value, renders_eq others.value]
  exact makes_node (fun _ => rfl) fun _ _ => rfl

theorem comparisonEntries_parallel (mirrors : like.Mirrors left right) :
    Parallel Eq like.Mirrors (comparisonEntries left) (comparisonEntries right) := by
  induction size : left.length using Nat.strongRecOn generalizing left right with
  | ind length ih =>
      apply parallel_of_follows_total comparisonEntries _ mirrors.follows
      · rw [comparisonEntries]
        exact parallel_nothing rfl .nil
      · intro first rest other row shorter plain same further
        rw [comparisonEntries, comparisonEntries, ← isTrivia_eq same, ← like.kind same,
          ← like.value same, if_neg (ne_true_of_eq_false plain), if_neg (ne_true_of_eq_false plain)]
        by_cases key : first.kind = .identifier ∧ isComparisonKey first.value = true
        · rw [if_pos key, if_pos key]
          have divided := further.expect .colon rfl
          generalize expect .colon rest = wide at divided ⊢
          generalize expect .colon row = narrow at divided ⊢
          cases divided with
          | none => exact parallel_nothing rfl (.cons same further)
          | @some colon colonOther divided =>
              have text := stringOrLine_parallel divided.2
              have within := (Reading.stringOrLine colon.rest).length_le
              have before := colon.length_lt
              have later := ih _ (by omega) text.rest rfl
              refine ⟨?_, later.rest⟩
              simp only [text.value, later.value]
        · rw [if_neg key, if_neg key]
          exact parallel_nothing rfl (.cons same further)
      · intro first trivia rest
        rw [comparisonEntries, if_pos trivia]

theorem comparison_parallel (mirrors : like.Mirrors left right) :
    Option.Rel (Parallel (like.Makes (like.Sees Comparison.toTree)) like.Mirrors)
      (comparison left) (comparison right) := by
  have named := mirrors.expect .identifier rfl
  unfold comparison
  generalize expect .identifier left = wide at named ⊢
  generalize expect .identifier right = narrow at named ⊢
  cases named with
  | none => exact .none
  | some target =>
      have entries := comparisonEntries_parallel target.2
      refine .some ⟨?_, entries.rest⟩
      simp only [like.value target.1, entries.value]
      exact makes_node (fun _ => rfl) fun _ _ => rfl

inductive RefinementClauseSeen (like : Likeness) : RefinementClause → RefinementClause → Prop where
  | description (text : String) : RefinementClauseSeen like (.description text) (.description text)
  | decision {node other : Decision} (seen : like.Sees Decision.toTree node other) :
      RefinementClauseSeen like (.decision node) (.decision other)
  | state {fields others : List StateField}
      (seen : List.Forall₂ (like.Sees StateField.toTree) fields others) :
      RefinementClauseSeen like (.state fields) (.state others)
  | preserves {properties others : List Preserved}
      (seen : List.Forall₂ (like.Sees Preserved.toTree) properties others) :
      RefinementClauseSeen like (.preserves properties) (.preserves others)
  | maps {node other : Mapping} (seen : like.Sees Mapping.toTree node other) :
      RefinementClauseSeen like (.maps node) (.maps other)
  | comparison {node other : Comparison} (seen : like.Sees Comparison.toTree node other) :
      RefinementClauseSeen like (.comparison node) (.comparison other)

namespace RefinementClauseSeen

variable {clause another : RefinementClause} (seen : like.RefinementClauseSeen clause another)

include seen

theorem description? : clause.description? = another.description? := by
  cases seen with
  | _ => rfl

theorem decision? : Option.Rel (like.Sees Decision.toTree) clause.decision? another.decision? := by
  cases seen with
  | decision seen => exact .some seen
  | _ => exact .none

theorem stateFields :
    List.Forall₂ (like.Sees StateField.toTree) clause.stateFields another.stateFields := by
  cases seen with
  | state seen => exact seen
  | _ => exact .nil

theorem preserved :
    List.Forall₂ (like.Sees Preserved.toTree) clause.preserved another.preserved := by
  cases seen with
  | preserves seen => exact seen
  | _ => exact .nil

theorem mapping? : Option.Rel (like.Sees Mapping.toTree) clause.mapping? another.mapping? := by
  cases seen with
  | maps seen => exact .some seen
  | _ => exact .none

theorem comparison? :
    Option.Rel (like.Sees Comparison.toTree) clause.comparison? another.comparison? := by
  cases seen with
  | comparison seen => exact .some seen
  | _ => exact .none

end RefinementClauseSeen

variable {parts others : List RefinementClause}

theorem descriptions_eq (same : List.Forall₂ like.RefinementClauseSeen parts others) :
    parts.findSome? RefinementClause.description? =
      others.findSome? RefinementClause.description? := by
  induction same with
  | nil => rfl
  | cons seen _ ih => rw [List.findSome?_cons, List.findSome?_cons, seen.description?, ih]

theorem described_eq (same : List.Forall₂ like.RefinementClauseSeen parts others) :
    parts.any (·.description?.isSome) = others.any (·.description?.isSome) := by
  induction same with
  | nil => rfl
  | cons seen _ ih => rw [List.any_cons, List.any_cons, seen.description?, ih]

theorem lastComparison_seen (same : List.Forall₂ like.RefinementClauseSeen parts others) :
    Option.Rel (like.Sees Comparison.toTree)
      (parts.filterMap RefinementClause.comparison?).getLast?
      (others.filterMap RefinementClause.comparison?).getLast? := by
  have backwards := List.rel_reverse
    (List.rel_filterMap (fun _ _ seen => RefinementClauseSeen.comparison? seen) same)
  rw [List.getLast?_eq_head?_reverse, List.getLast?_eq_head?_reverse]
  generalize (parts.filterMap RefinementClause.comparison?).reverse = nodes at backwards ⊢
  generalize (others.filterMap RefinementClause.comparison?).reverse = others at backwards ⊢
  cases backwards with
  | nil => exact .none
  | cons seen => exact .some seen

theorem stringClause_parallel (same : List.Forall₂ like.RefinementClauseSeen parts others)
    (text : String) (mirrors : like.Mirrors left right) :
    Attempt.Parallel (Parallel (like.Makes like.RefinementClauseSeen) like.Mirrors)
      (stringClause parts text left) (stringClause others text right) := by
  have mark := mirrors.expect .bang2 rfl
  unfold stringClause
  generalize expect .bang2 left = wide at mark ⊢
  generalize expect .bang2 right = narrow at mark ⊢
  cases mark with
  | some taken =>
      refine .read ⟨?_, taken.2⟩
      intro span place stands
      refine .decision ?_
      simp only [Sees, Decision.toTree, Tree.viewed, stands]
  | none =>
      simp only [described_eq same]
      split
      · exact .unknown
      · exact .read ⟨fun _ _ _ => .description text, mirrors⟩

theorem refinementClause_parallel (history : List.Forall₂ like.RefinementClauseSeen parts others)
    (same : like.token first other) (mirrors : like.Mirrors left right) :
    Attempt.Parallel (Parallel (like.Makes like.RefinementClauseSeen) like.Mirrors)
      (refinementClause parts first left) (refinementClause others other right) := by
  unfold refinementClause
  rw [← like.kind same, ← like.value same]
  split
  · exact .read ((decisionClause_parallel mirrors).map fun made span place stands =>
      .decision (made span place stands))
  · exact stringClause_parallel history _ mirrors
  · exact .read ((decisionMark_parallel mirrors).map fun made span place stands =>
      .decision (made span place stands))
  · refine Attempt.parallel_ofOption (parallel_option_map (stateFields_parallel mirrors) ?_)
    intro wide narrow parallel
    exact parallel.map fun seen _ _ _ => .state seen
  · exact .read ((preserved_parallel mirrors).map fun seen _ _ _ => .preserves seen)
  · exact .read ((mapping_parallel mirrors).map fun made span place stands =>
      .maps (made span place stands))
  · refine Attempt.parallel_ofOption (parallel_option_map (comparison_parallel mirrors) ?_)
    intro wide narrow parallel
    exact parallel.map fun made span place stands => .comparison (made span place stands)
  · exact .unknown

theorem refinement_parallel (mirrors : like.Mirrors left right) :
    Option.Rel (Parallel (fun here there => like.Makes (like.Sees Declaration.toTree) here.1 there.1)
        like.Mirrors)
      (refinement left) (refinement right) := by
  have named := mirrors.expect .identifier rfl
  unfold refinement
  generalize expect .identifier left = wide at named ⊢
  generalize expect .identifier right = narrow at named ⊢
  cases named with
  | none => exact .none
  | @some parent parentOther named =>
      have called := refinementName_parallel named.2
      simp only []
      generalize refinementName parent.rest = wide at called ⊢
      generalize refinementName parentOther.rest = narrow at called ⊢
      cases called with
      | none => exact .none
      | @some name nameOther called =>
          have parts := clauses_parallel refinementClause
            (fun history same further => refinementClause_parallel history same further) .nil
            called.rest
          refine .some ⟨?_, parts.rest⟩
          intro span place stands
          have decisions := sees_filterMap RefinementClause.decision? Decision.toTree parts.value
            fun seen => seen.decision?
          have state := sees_flatMap RefinementClause.stateFields StateField.toTree parts.value
            fun seen => seen.stateFields
          have properties := sees_flatMap RefinementClause.preserved Preserved.toTree parts.value
            fun seen => seen.preserved
          have maps := sees_filterMap RefinementClause.mapping? Mapping.toTree parts.value
            fun seen => seen.mapping?
          have compared := sees_optional (lastComparison_seen parts.value)
          simp only [Sees, Declaration.toTree, Tree.viewed, Tree.viewedFields, decisions, state,
            properties, maps, compared, descriptions_eq parts.value, like.value named.1,
            called.value, stands]

end Likeness

end SageNotation.Grammar
