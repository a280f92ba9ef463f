import SageNotation.Proofs.Cut.Types
import SageNotation.Proofs.Likeness.Reading

/-!
Types read side by side.

From runs that are alike the routines for types, arguments and fields read types
that look the same, or nothing from either run, and they leave runs that are
alike.
-/

namespace SageNotation.Grammar

open Token
open Reading (Parallel parallel_option_map parallel_of_follows)

namespace Likeness

variable {like : Likeness} {left right : List Token} {first other : Token}

/-! ### Nodes -/

theorem sees_trees {α : Type} {tree : α → Tree} {nodes others : List α}
    (same : List.Forall₂ (like.Sees tree) nodes others) :
    Tree.viewedItems like.view (nodes.map tree) = Tree.viewedItems like.view (others.map tree) := by
  induction same with
  | nil => rfl
  | cons here _ ih =>
      rw [List.map_cons, List.map_cons, Tree.viewedItems, Tree.viewedItems, ih]
      exact congrArg (· :: _) here

theorem sees_named {name label : String} {span place : Span} (named : name = label)
    (stands : like.view span = like.view place) :
    like.Sees TypeExpr.toTree (.named name span) (.named label place) := by
  simp only [Sees, TypeExpr.toTree, Tree.viewed, named, stands]

theorem sees_generic {name label : String} {args others : List TypeExpr} {span place : Span}
    (named : name = label) (inner : List.Forall₂ (like.Sees TypeExpr.toTree) args others)
    (stands : like.view span = like.view place) :
    like.Sees TypeExpr.toTree (.generic name args span) (.generic label others place) := by
  simp only [Sees, TypeExpr.toTree, Tree.viewed, Tree.viewedFields, typesToTrees_eq_map,
    sees_trees inner, named, stands]

theorem sees_record {fields others : List Field} {span place : Span}
    (inner : List.Forall₂ (like.Sees Field.toTree) fields others)
    (stands : like.view span = like.view place) :
    like.Sees TypeExpr.toTree (.record fields span) (.record others place) := by
  simp only [Sees, TypeExpr.toTree, Tree.viewed, Tree.viewedFields, fieldsToTrees_eq_map,
    sees_trees inner, stands]

theorem sees_field {name label : String} {type another : TypeExpr} {span place : Span}
    (named : name = label) (inner : like.Sees TypeExpr.toTree type another)
    (stands : like.view span = like.view place) :
    like.Sees Field.toTree (.mk name type span) (.mk label another place) := by
  have typed : type.toTree.viewed like.view = another.toTree.viewed like.view := inner
  simp only [Sees, Field.toTree, Tree.viewed, Tree.viewedFields, typed, named, stands]

/-! ### Routines -/

/-- From this run and any other that is alike a routine reads in the same way. -/
def InStep (like : Likeness) {α : Type} (agree : α → α → Prop)
    (routine : (tokens : List Token) → Option (Reading α tokens)) (left : List Token) : Prop :=
  ∀ right, like.Mirrors left right →
    Option.Rel (Parallel agree like.Mirrors) (routine left) (routine right)

theorem divider_mirrors (mirrors : like.Mirrors left right) :
    like.Mirrors (divider left) (divider right) :=
  mirrors.skipBlank.dropOne .comma rfl

theorem typeExpr_of_head (blank : ∀ token ∈ left.head?, token.isTrivia = true) :
    typeExpr left = none := by
  cases left with
  | nil => rw [typeExpr]
  | cons first rest =>
      exact typeExpr_other (ne_of_head blank rfl first rfl) (ne_of_head blank rfl first rfl)
        (ne_of_head blank rfl first rfl)

theorem recordType_inStep {rest row : List Token} (same : like.token first other)
    (mirrors : like.Mirrors rest row) (brace : first.kind = .lbrace)
    (fields : like.InStep (List.Forall₂ (like.Sees Field.toTree)) recordFields rest) :
    Option.Rel (Parallel (like.Sees TypeExpr.toTree) like.Mirrors)
      (typeExpr (first :: rest)) (typeExpr (other :: row)) := by
  have otherBrace := (like.kind same).symm.trans brace
  have inner := fields row mirrors
  simp only [typeExpr, brace, otherBrace]
  generalize recordFields rest = wide at inner ⊢
  generalize recordFields row = narrow at inner ⊢
  cases inner with
  | none => exact .none
  | @some wide narrow parallel =>
      refine .some ⟨sees_record parallel.value ?_, parallel.rest⟩
      exact through_eq same mirrors.counts parallel.rest.counts wide.suffix narrow.suffix

theorem unitType_inStep {rest row : List Token} (same : like.token first other)
    (mirrors : like.Mirrors rest row) (parenthesis : first.kind = .lparen) :
    Option.Rel (Parallel (like.Sees TypeExpr.toTree) like.Mirrors)
      (typeExpr (first :: rest)) (typeExpr (other :: row)) := by
  have otherParenthesis := (like.kind same).symm.trans parenthesis
  have closing := mirrors.expect .rparen rfl
  simp only [typeExpr, parenthesis, otherParenthesis]
  generalize expect .rparen rest = wide at closing ⊢
  generalize expect .rparen row = narrow at closing ⊢
  cases closing with
  | none => exact .none
  | @some wide narrow parallel =>
      refine .some ⟨sees_named rfl ?_, parallel.2⟩
      exact through_eq same mirrors.counts parallel.2.counts wide.suffix narrow.suffix

theorem namedType_inStep {rest row : List Token} (same : like.token first other)
    (mirrors : like.Mirrors rest row) (name : first.kind = .identifier)
    (args : ∀ inner, inner.length < rest.length →
      like.InStep (List.Forall₂ (like.Sees TypeExpr.toTree)) typeArgs inner) :
    Option.Rel (Parallel (like.Sees TypeExpr.toTree) like.Mirrors)
      (typeExpr (first :: rest)) (typeExpr (other :: row)) := by
  have otherName := (like.kind same).symm.trans name
  have opening := mirrors.expect .less rfl
  simp only [typeExpr, name, otherName]
  generalize expect .less rest = wide at opening ⊢
  generalize expect .less row = narrow at opening ⊢
  cases opening with
  | none => exact .some ⟨sees_named (like.value same) (span_eq same), mirrors⟩
  | @some opening openingOther opened =>
      have inner := args opening.rest opening.length_lt openingOther.rest opened.2
      simp only []
      generalize typeArgs opening.rest = wide at inner ⊢
      generalize typeArgs openingOther.rest = narrow at inner ⊢
      cases inner with
      | none => exact .none
      | @some wide narrow listed =>
          have closing := listed.rest.expect .greater rfl
          simp only []
          generalize expect .greater wide.rest = closed at closing ⊢
          generalize expect .greater narrow.rest = closedOther at closing ⊢
          cases closing with
          | none => exact .none
          | @some closed closedOther parallel =>
              refine .some ⟨sees_generic (like.value same) listed.value ?_, parallel.2⟩
              exact through_eq same mirrors.counts parallel.2.counts
                (closed.suffix.trans (wide.suffix.trans opening.suffix))
                (closedOther.suffix.trans (narrow.suffix.trans openingOther.suffix))

theorem typeExpr_inStep (left : List Token)
    (fields : ∀ inner, inner.length < left.length →
      like.InStep (List.Forall₂ (like.Sees Field.toTree)) recordFields inner)
    (args : ∀ inner, inner.length < left.length →
      like.InStep (List.Forall₂ (like.Sees TypeExpr.toTree)) typeArgs inner) :
    like.InStep (like.Sees TypeExpr.toTree) typeExpr left := by
  intro right mirrors
  rcases mirrors.front with
    ⟨first, rest, other, row, rfl, rfl, same, others⟩ | ⟨leftBlank, rightBlank⟩
  · by_cases brace : first.kind = .lbrace
    · exact recordType_inStep same others brace (fields rest (Nat.lt_succ_self _))
    · by_cases parenthesis : first.kind = .lparen
      · exact unitType_inStep same others parenthesis
      · by_cases name : first.kind = .identifier
        · exact namedType_inStep same others name fun inner shorter =>
            args inner (Nat.lt_succ_of_lt shorter)
        · rw [typeExpr_other brace parenthesis name]
          rw [like.kind same] at brace parenthesis name
          rw [typeExpr_other brace parenthesis name]
          exact .none
  · rw [typeExpr_of_head leftBlank, typeExpr_of_head rightBlank]
    exact .none

theorem typeArgs_inStep (left : List Token)
    (type : like.InStep (like.Sees TypeExpr.toTree) typeExpr left)
    (args : ∀ inner, inner.length < left.length →
      like.InStep (List.Forall₂ (like.Sees TypeExpr.toTree)) typeArgs inner) :
    like.InStep (List.Forall₂ (like.Sees TypeExpr.toTree)) typeArgs left := by
  intro right mirrors
  have head := type right mirrors
  rw [typeArgs, typeArgs]
  generalize typeExpr left = wide at head ⊢
  generalize typeExpr right = narrow at head ⊢
  cases head with
  | none => exact .none
  | @some wide narrow parallel =>
      have comma := parallel.rest.expect .comma rfl
      simp only []
      generalize expect .comma wide.rest = divided at comma ⊢
      generalize expect .comma narrow.rest = dividedOther at comma ⊢
      cases comma with
      | none => exact .some ⟨.cons parallel.value .nil, parallel.rest⟩
      | @some divided dividedOther further =>
          have shorter : divided.rest.length < left.length :=
            Nat.lt_of_lt_of_le divided.length_lt wide.length_le
          have others := args divided.rest shorter dividedOther.rest further.2
          simp only []
          generalize typeArgs divided.rest = wideArgs at others ⊢
          generalize typeArgs dividedOther.rest = narrowArgs at others ⊢
          cases others with
          | none => exact .none
          | some later => exact .some ⟨.cons parallel.value later.value, later.rest⟩

theorem recordEnd_parallel (mirrors : like.Mirrors left right) :
    Option.Rel (Parallel Eq like.Mirrors) (recordEnd (skipBlank left))
      (recordEnd (skipBlank right)) := by
  rcases mirrors.follows.front with
    ⟨leftDone, rightDone⟩ | ⟨first, rest, other, row, leftSplit, rightSplit, _, same, others⟩
  · rw [leftDone, rightDone]
    exact .some ⟨rfl, .nil⟩
  · rw [leftSplit, rightSplit, recordEnd, recordEnd, like.kind same]
    split
    · exact .some ⟨rfl, others⟩
    · split
      · exact .some ⟨rfl, .cons same others⟩
      · exact .none

theorem recordField_inStep {rest row : List Token} (same : like.token first other)
    (mirrors : like.Mirrors rest row) (name : first.kind = .identifier)
    (types : ∀ inner, inner.length < rest.length →
      like.InStep (like.Sees TypeExpr.toTree) typeExpr inner)
    (fields : ∀ inner, inner.length < rest.length →
      like.InStep (List.Forall₂ (like.Sees Field.toTree)) recordFields inner) :
    Option.Rel (Parallel (List.Forall₂ (like.Sees Field.toTree)) like.Mirrors)
      (recordFields (first :: rest)) (recordFields (other :: row)) := by
  have plain : first.isTrivia = false := isTrivia_of_kind name rfl
  have otherPlain := (isTrivia_eq same).symm.trans plain
  have otherName := (like.kind same).symm.trans name
  have typed := mirrors.expect .colon rfl
  simp only [recordFields, plain, otherPlain, Bool.false_eq_true, if_false, name, otherName]
  generalize expect .colon rest = wide at typed ⊢
  generalize expect .colon row = narrow at typed ⊢
  cases typed with
  | none => exact .none
  | @some colon colonOther typed =>
      have inner := types colon.rest colon.length_lt colonOther.rest typed.2
      simp only []
      generalize typeExpr colon.rest = wide at inner ⊢
      generalize typeExpr colonOther.rest = narrow at inner ⊢
      cases inner with
      | none => exact .none
      | @some wide narrow parallel =>
          have shorter : (divider wide.rest).length < rest.length :=
            Nat.lt_of_le_of_lt (length_divider_le _)
              (Nat.lt_of_le_of_lt wide.length_le colon.length_lt)
          have others := fields _ shorter _ (divider_mirrors parallel.rest)
          simp only []
          generalize recordFields (divider wide.rest) = wideFields at others ⊢
          generalize recordFields (divider narrow.rest) = narrowFields at others ⊢
          cases others with
          | none => exact .none
          | some later =>
              have stands := through_eq same mirrors.counts parallel.rest.counts
                (wide.suffix.trans colon.suffix) (narrow.suffix.trans colonOther.suffix)
              exact .some ⟨.cons (sees_field (like.value same) parallel.value stands) later.value,
                later.rest⟩

theorem recordFields_trivia (trivia : first.isTrivia = true) (rest : List Token) :
    recordFields (first :: rest) = (recordFields rest).map (·.widen (List.suffix_cons _ _)) := by
  rw [recordFields, if_pos trivia]

theorem recordFields_inStep (left : List Token)
    (types : ∀ inner, inner.length < left.length →
      like.InStep (like.Sees TypeExpr.toTree) typeExpr inner)
    (fields : ∀ inner, inner.length < left.length →
      like.InStep (List.Forall₂ (like.Sees Field.toTree)) recordFields inner) :
    like.InStep (List.Forall₂ (like.Sees Field.toTree)) recordFields left := by
  intro right mirrors
  apply parallel_of_follows recordFields recordFields_trivia mirrors.follows
  · rw [recordFields]
    exact .some ⟨.nil, .nil⟩
  · intro first rest other row shorter plain same others
    have otherPlain := (isTrivia_eq same).symm.trans plain
    by_cases brace : first.kind = .rbrace
    · have otherBrace := (like.kind same).symm.trans brace
      simp only [recordFields, plain, otherPlain, Bool.false_eq_true, if_false, brace, otherBrace]
      exact .some ⟨.nil, others⟩
    · by_cases dots : first.kind = .ellipsis
      · have otherDots := (like.kind same).symm.trans dots
        simp only [recordFields, plain, otherPlain, Bool.false_eq_true, if_false, dots, otherDots]
        exact parallel_option_map (recordEnd_parallel others) fun parallel =>
          ⟨.nil, parallel.rest⟩
      · by_cases name : first.kind = .identifier
        · exact recordField_inStep same others name
            (fun inner less => types inner (Nat.lt_trans less shorter))
            fun inner less => fields inner (Nat.lt_trans less shorter)
        · by_cases mark : first.kind = .eof
          · rw [recordFields_atEnd (atEnd_cons mark rest),
              recordFields_atEnd (atEnd_cons ((like.kind same).symm.trans mark) row)]
            exact .some ⟨.nil, .cons same others⟩
          · rw [recordFields_other (ne_true_of_eq_false plain) brace mark dots name]
            rw [like.kind same] at brace mark dots name
            rw [recordFields_other (ne_true_of_eq_false otherPlain) brace mark dots name]
            exact .none

/-- Types, arguments and fields are read in step.  By induction on the length of the
first run: each of the three calls the others on shorter runs. -/
theorem types_inStep (left : List Token) :
    like.InStep (like.Sees TypeExpr.toTree) typeExpr left ∧
      like.InStep (List.Forall₂ (like.Sees TypeExpr.toTree)) typeArgs left ∧
      like.InStep (List.Forall₂ (like.Sees Field.toTree)) recordFields left := by
  induction size : left.length using Nat.strongRecOn generalizing left with
  | ind length ih =>
      subst size
      have type := typeExpr_inStep left (fun inner less => (ih _ less inner rfl).2.2)
        fun inner less => (ih _ less inner rfl).2.1
      have args := typeArgs_inStep left type fun inner less => (ih _ less inner rfl).2.1
      have fields := recordFields_inStep left (fun inner less => (ih _ less inner rfl).1)
        fun inner less => (ih _ less inner rfl).2.2
      exact ⟨type, args, fields⟩

theorem typeExpr_parallel (mirrors : like.Mirrors left right) :
    Option.Rel (Parallel (like.Sees TypeExpr.toTree) like.Mirrors)
      (typeExpr left) (typeExpr right) :=
  (types_inStep left).1 right mirrors

theorem recordFields_parallel (mirrors : like.Mirrors left right) :
    Option.Rel (Parallel (List.Forall₂ (like.Sees Field.toTree)) like.Mirrors)
      (recordFields left) (recordFields right) :=
  (types_inStep left).2.2 right mirrors

end Likeness

end SageNotation.Grammar
