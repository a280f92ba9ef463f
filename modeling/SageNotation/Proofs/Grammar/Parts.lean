import SageNotation.Grammar.Documents
import SageNotation.Proofs.Grammar.Types
import Mathlib.Data.List.Basic

/-!
Parts of declarations and the runs of tokens they are read from.

Every loop reads its parts one after another, and each part is stamped from its
first token to the last one read for it.  So wherever the run that a loop has
read is laid, the trees of its parts fit in order.
-/

namespace SageNotation

open Token

namespace Tree

theorem optionalText_fits (file : String) (low high : Int) (value : Option String) :
    (optionalText value).Fits file low high := by
  cases value <;> trivial

theorem texts_fit {file : String} {low high : Int} (le : low ≤ high) (lines : List String) :
    ItemsFit file low high (lines.map text) := by
  induction lines with
  | nil => exact le
  | cons line others ih => exact ⟨low, Int.le_refl _, trivial, ih⟩

end Tree

namespace Statement

theorem span?_toTree (statement : Statement) : statement.toTree.span? = some statement.span := by
  cases statement <;> rfl

theorem fits_of_between {file : String} {low high : Int} {statement : Statement}
    (here : statement.span.Between file low high) : statement.toTree.Fits file low high := by
  cases statement with
  | conditional node =>
      refine ⟨here, ?_⟩
      simp only [Tree.FieldsFit, Tree.Fits, Tree.optionalText_fits, and_self]
  | prose | decision | binding | ret | raw =>
      refine ⟨here, ?_⟩
      simp only [Tree.FieldsFit, Tree.Fits, and_self]

end Statement

namespace Attempt

variable {α β : Type} {tokens : List Token}

theorem eq_some_of_ofOption {result : Option (Reading α tokens)} {reading : Reading α tokens}
    (read : ofOption result = .read reading) : result = some reading := by
  cases result with
  | none => cases read
  | some found =>
      cases read
      rfl

theorem exists_of_map {change : α → β} {attempt : Attempt α tokens} {reading : Reading β tokens}
    (read : attempt.map change = .read reading) :
    ∃ inner, attempt = .read inner ∧ inner.map change = reading := by
  cases attempt with
  | unknown => cases read
  | refused => cases read
  | read inner =>
      cases read
      exact ⟨inner, rfl, rfl⟩

end Attempt

namespace Grammar

/-! ### Statements -/

section Statements

variable {first : Token} {tokens : List Token}

theorem binding_span {isDecision : Bool} {reading : Reading (Span → Statement) tokens}
    (read : binding isDecision tokens = some reading) (span : Span) :
    (reading.value span).span = span := by
  unfold binding at read
  split at read
  · cases read
  · split at read
    · cases read
    · cases read
      rfl

theorem marked_span {reading : Reading (Span → Statement) tokens}
    (read : marked tokens = some reading) (span : Span) : (reading.value span).span = span := by
  unfold marked at read
  split at read
  · obtain ⟨inner, found, same⟩ := Option.map_eq_some_iff.mp read
    have stamped := binding_span found span
    rw [← same]
    exact stamped
  · split at read
    · cases read
      rfl
    · cases read
      rfl

theorem statementForm_span {reading : Reading (Span → Statement) tokens}
    (read : statementForm first tokens = .read reading) (span : Span) :
    (reading.value span).span = span := by
  unfold statementForm at read
  split at read
  · cases read
    unfold proseOrDecision
    split <;> rfl
  · exact marked_span (Attempt.eq_some_of_ofOption read) span
  · exact binding_span (Attempt.eq_some_of_ofOption read) span
  · cases read
    rfl
  · cases read
    rfl
  · cases read

/-- A statement reaches from its first token to the last one read for it. -/
theorem statement_span (first : Token) (tokens : List Token) :
    (statement first tokens).value.1.span = first.through tokens (statement first tokens).rest := by
  unfold statement
  split
  · rename_i reading read
    exact statementForm_span read _
  · rfl
  · rfl

theorem body_fits (tokens : List Token) {file : String} {low high : Int}
    (laid : Laid file low high (between tokens (body tokens).rest)) :
    Tree.ItemsFit file low high ((body tokens).value.1.map Statement.toTree) := by
  induction tokens using body.induct generalizing low with
  | case1 =>
      rw [body] at laid ⊢
      exact laid.le
  | case2 first rest trivia ih =>
      rw [body, if_pos trivia] at laid ⊢
      exact ih (laid.after (List.suffix_cons _ _) (body rest).suffix)
  | case3 first rest plain ending =>
      rw [body, if_neg plain, if_pos ending] at laid ⊢
      exact laid.le
  | case4 first rest plain going one ih =>
      rw [body, if_neg plain, if_neg going] at laid ⊢
      have next := (body one.rest).suffix
      obtain ⟨place, front, back⟩ := laid.split_at (suffix_cons_of_suffix first one.suffix) next
      obtain ⟨here, _⟩ := through_of_laid (eq_false_of_ne_true plain) one.suffix front
      rw [← statement_span first rest] at here
      exact ⟨place, front.le, Statement.fits_of_between here, ih back⟩

end Statements
/-! ### Parts of declarations -/

section Parts

variable {tokens : List Token} {file : String} {low high : Int}

theorem typeExpr_fits {reading : Reading TypeExpr tokens} (read : typeExpr tokens = some reading)
    (laid : Laid file low high (between tokens reading.rest)) :
    reading.value.toTree.Fits file low high :=
  (readsTypes.1 tokens reading read).fits laid

theorem typeAfter_fits {reading : Reading (Option TypeExpr) tokens} {mark : Kind}
    (read : typeAfter mark tokens = some reading)
    (laid : Laid file low high (between tokens reading.rest)) :
    (reading.value.elim Tree.absent TypeExpr.toTree).Fits file low high := by
  unfold typeAfter at read
  split at read
  · cases read
    trivial
  · rename_i taken found
    split at read
    · cases read
    · rename_i type typeFound
      cases read
      exact typeExpr_fits typeFound (laid.after taken.suffix type.suffix)

theorem params_fits {reading : Reading (List Param) tokens} (read : params tokens = some reading)
    (laid : Laid file low high (between tokens reading.rest)) :
    Tree.ItemsFit file low high (reading.value.map Param.toTree) := by
  induction tokens using params.induct generalizing low with
  | case1 =>
      rw [params] at read
      cases read
  | case2 first rest trivia ih =>
      rw [params, if_pos trivia] at read
      obtain ⟨inner, found, same⟩ := Option.map_eq_some_iff.mp read
      subst same
      exact ih found (laid.after (List.suffix_cons _ _) inner.suffix)
  | case3 first rest plain closing =>
      rw [params, if_neg plain, if_pos closing] at read
      cases read
      exact laid.le
  | case4 first rest plain open_ name missing =>
      rw [params, if_neg plain, if_neg open_, if_pos name, missing] at read
      cases read
  | case5 first rest plain open_ name type found missing ih =>
      rw [params, if_neg plain, if_neg open_, if_pos name, found] at read
      simp only [missing, reduceCtorEq] at read
  | case6 first rest plain open_ name type found others othersFound ih =>
      rw [params, if_neg plain, if_neg open_, if_pos name, found] at read
      simp only [othersFound] at read
      cases read
      have next := others.suffix.trans (divider_suffix type.rest)
      obtain ⟨place, front, back⟩ := laid.split_at (suffix_cons_of_suffix first type.suffix) next
      obtain ⟨here, within⟩ := through_of_laid (eq_false_of_ne_true plain) type.suffix front
      refine ⟨place, front.le, ⟨here, trivial, typeAfter_fits found within, trivial⟩, ?_⟩
      exact ih othersFound (back.after (divider_suffix _) others.suffix)
  | case7 first rest plain open_ other =>
      rw [params, if_neg plain, if_neg open_, if_neg other] at read
      cases read

theorem paramList_fits {reading : Reading (List Param) tokens}
    (read : paramList tokens = some reading)
    (laid : Laid file low high (between tokens reading.rest)) :
    Tree.ItemsFit file low high (reading.value.map Param.toTree) := by
  unfold paramList at read
  split at read
  · cases read
    exact laid.le
  · rename_i opening _
    obtain ⟨inner, found, same⟩ := Option.map_eq_some_iff.mp read
    subst same
    have fits : Tree.ItemsFit file low high (inner.value.map Param.toTree) :=
      params_fits found (laid.after opening.suffix inner.suffix)
    exact fits

theorem contracts_fits (tokens : List Token)
    (laid : Laid file low high (between tokens (contracts tokens).rest)) :
    Tree.ItemsFit file low high ((contracts tokens).value.map Contract.toTree) := by
  induction tokens using contracts.induct generalizing low with
  | case1 =>
      rw [contracts] at laid ⊢
      exact laid.le
  | case2 first rest trivia ih =>
      rw [contracts, if_pos trivia] at laid ⊢
      exact ih (laid.after (List.suffix_cons _ _) (contracts rest).suffix)
  | case3 first rest plain other =>
      rw [contracts, if_neg plain, other] at laid ⊢
      exact laid.le
  | case4 first rest plain kind known ih =>
      rw [contracts, if_neg plain, known] at laid ⊢
      have next := (contracts (afterLine rest)).suffix
      have row := afterLine_suffix rest
      obtain ⟨place, front, back⟩ := laid.split_at (suffix_cons_of_suffix first row) next
      obtain ⟨here, _⟩ := through_of_laid (eq_false_of_ne_true plain) row front
      exact ⟨place, front.le, ⟨here, trivial, trivial⟩, ih back⟩

theorem stateFields_fits {reading : Reading (List StateField) tokens}
    (read : stateFields tokens = some reading)
    (laid : Laid file low high (between tokens reading.rest)) :
    Tree.ItemsFit file low high (reading.value.map StateField.toTree) := by
  induction tokens using stateFields.induct generalizing low with
  | case1 =>
      rw [stateFields] at read
      cases read
      exact laid.le
  | case2 first rest trivia ih =>
      rw [stateFields, if_pos trivia] at read
      obtain ⟨inner, found, same⟩ := Option.map_eq_some_iff.mp read
      subst same
      exact ih found (laid.after (List.suffix_cons _ _) inner.suffix)
  | case3 first rest plain name missing =>
      rw [stateFields, if_neg plain, if_pos name, missing] at read
      cases read
      exact laid.le
  | case4 first rest plain name colon found missing =>
      rw [stateFields, if_neg plain, if_pos name, found] at read
      simp only [missing, reduceCtorEq] at read
  | case5 first rest plain name colon found type typeFound missing ih =>
      rw [stateFields, if_neg plain, if_pos name, found] at read
      simp only [typeFound, missing, reduceCtorEq] at read
  | case6 first rest plain name colon found type typeFound others othersFound ih =>
      rw [stateFields, if_neg plain, if_pos name, found] at read
      simp only [typeFound, othersFound] at read
      cases read
      have typed := type.suffix.trans colon.suffix
      obtain ⟨place, front, back⟩ :=
        laid.split_at (suffix_cons_of_suffix first typed) others.suffix
      obtain ⟨here, within⟩ := through_of_laid (eq_false_of_ne_true plain) typed front
      have inner := typeExpr_fits typeFound (within.after colon.suffix type.suffix)
      exact ⟨place, front.le, ⟨here, trivial, inner, trivial⟩, ih othersFound back⟩
  | case7 first rest plain other =>
      rw [stateFields, if_neg plain, if_neg other] at read
      cases read
      exact laid.le

theorem checkedProperties_fits (tokens : List Token)
    (laid : Laid file low high (between tokens (checkedProperties tokens).rest)) :
    Tree.ItemsFit file low high ((checkedProperties tokens).value.map Preserved.toTree) := by
  induction tokens using checkedProperties.induct generalizing low with
  | case1 =>
      rw [checkedProperties] at laid ⊢
      exact laid.le
  | case2 first rest trivia ih =>
      rw [checkedProperties, if_pos trivia] at laid ⊢
      exact ih (laid.after (List.suffix_cons _ _) (checkedProperties rest).suffix)
  | case3 first rest plain ticked text ih =>
      rw [checkedProperties, if_neg plain, if_pos ticked] at laid ⊢
      have next := (checkedProperties text.rest).suffix
      obtain ⟨place, front, back⟩ := laid.split_at (suffix_cons_of_suffix first text.suffix) next
      obtain ⟨here, _⟩ := through_of_laid (eq_false_of_ne_true plain) text.suffix front
      exact ⟨place, front.le, ⟨here, trivial, trivial, trivial⟩, ih back⟩
  | case4 first rest plain other =>
      rw [checkedProperties, if_neg plain, if_neg other] at laid ⊢
      exact laid.le

theorem preserved_fits (tokens : List Token)
    (laid : Laid file low high (between tokens (preserved tokens).rest)) :
    Tree.ItemsFit file low high ((preserved tokens).value.map Preserved.toTree) := by
  unfold preserved at laid ⊢
  split at laid
  · exact checkedProperties_fits tokens laid
  · rename_i bare found
    have next := (checkedProperties bare.rest).suffix
    have start := laid.after (skipBlank_suffix tokens) (next.trans bare.suffix)
    obtain ⟨place, front, back⟩ := start.split_at bare.suffix next
    have here := between_of_taken (isTrivia_of_kind (kind_of_expect found) rfl) front
    exact ⟨place, front.le, ⟨here, trivial, trivial, trivial⟩,
      checkedProperties_fits bare.rest back⟩

end Parts

/-! ### Clauses -/

section Clauses

variable {γ β : Type} {file : String} {low high : Int}

def ClausesFit (trees : γ → List Tree) (file : String) (low high : Int) (clauses : List γ) :
    Prop :=
  InOrder (fun low high clause => Tree.ItemsFit file low high (trees clause)) low high clauses

/-- The clauses of a declaration follow each other when each of them fits into
the span of its own tokens. -/
theorem clauses_fit
    {form : List γ → Token → (tokens : List Token) → Attempt (Span → γ) tokens}
    {trees : γ → List Tree}
    (each : ∀ {earlier : List γ} {first : Token} {tokens : List Token}
      {reading : Reading (Span → γ) tokens} {low high : Int} {span : Span},
      form earlier first tokens = .read reading → span.Between file low high →
      Laid file span.start.offset span.stop.offset (between tokens reading.rest) →
      Tree.ItemsFit file low high (trees (reading.value span)))
    (earlier : List γ) (tokens : List Token)
    (laid : Laid file low high (between tokens (clauses form earlier tokens).rest)) :
    ∃ newer, (clauses form earlier tokens).value.1 = earlier.reverse ++ newer ∧
      ClausesFit trees file low high newer := by
  induction earlier, tokens using clauses.induct form generalizing low with
  | case1 earlier =>
      rw [clauses] at laid ⊢
      exact ⟨[], (List.append_nil _).symm, laid.le⟩
  | case2 earlier first rest trivia ih =>
      rw [clauses, if_pos trivia] at laid ⊢
      exact ih (laid.after (List.suffix_cons _ _) (clauses form earlier rest).suffix)
  | case3 earlier first rest plain unknown =>
      rw [clauses, if_neg plain, unknown] at laid ⊢
      exact ⟨[], (List.append_nil _).symm, laid.le⟩
  | case4 earlier first rest plain refused =>
      rw [clauses, if_neg plain, refused] at laid ⊢
      exact ⟨[], (List.append_nil _).symm, laid.le⟩
  | case5 earlier first rest plain reading read ih =>
      rw [clauses, if_neg plain, read] at laid ⊢
      have next := (clauses form ((reading.stamp first).value :: earlier) reading.rest).suffix
      obtain ⟨place, front, back⟩ :=
        laid.split_at (suffix_cons_of_suffix first reading.suffix) next
      obtain ⟨here, within⟩ := through_of_laid (eq_false_of_ne_true plain) reading.suffix front
      obtain ⟨newer, same, ordered⟩ := ih back
      refine ⟨(reading.stamp first).value :: newer, ?_, ?_⟩
      · rw [List.reverse_cons, List.append_assoc] at same
        exact same
      · exact ⟨place, front.le, each read here within, ordered⟩

/-- The parts of one sort that clauses hold, where the trees of a clause are those
of its parts. -/
theorem itemsFit_parts {clauses : List γ} {trees : γ → List Tree} {parts : γ → List β}
    {toTree : β → Tree}
    (ordered : ClausesFit trees file low high clauses)
    (own : ∀ clause, parts clause = [] ∨ trees clause = (parts clause).map toTree) :
    Tree.ItemsFit file low high ((clauses.flatMap parts).map toTree) := by
  rw [List.map_flatMap, Tree.itemsFit_iff]
  apply ordered.flatMap (Tree.widens_fits file)
  intro clause _ lower upper le fits
  rcases own clause with none | same
  · rw [none]
    exact le
  · rw [← same]
    exact Tree.itemsFit_iff.mp fits

theorem itemsFit_part? {clauses : List γ} {trees : γ → List Tree} {part? : γ → Option β}
    {toTree : β → Tree}
    (ordered : ClausesFit trees file low high clauses)
    (own : ∀ clause part, part? clause = some part → trees clause = [toTree part]) :
    Tree.ItemsFit file low high ((clauses.filterMap part?).map toTree) := by
  rw [List.filterMap_eq_flatMap_toList]
  apply itemsFit_parts ordered
  intro clause
  cases found : part? clause with
  | none => exact Or.inl rfl
  | some part => exact Or.inr (own clause part found)

end Clauses

end Grammar

end SageNotation
