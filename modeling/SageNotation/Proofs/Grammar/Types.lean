import SageNotation.Grammar.Types
import SageNotation.Proofs.Document.Nesting
import SageNotation.Proofs.Grammar.Extent
import SageNotation.Proofs.Grammar.Marks

/-!
Type expressions as derivations.

`ReadsType`, `ReadsArgs` and `ReadsFields` say which tokens make up a type, its
arguments and the fields of a record, and what is left after them.  Everything
that the routines read is derived in this way (`readsTypes`), so that what holds
of a type is proved on its derivation, one case for each form.
-/

namespace SageNotation

namespace Grammar

open Token

mutual

/-- The tokens start with a type; the last list is what follows it. -/
inductive ReadsType : List Token → TypeExpr → List Token → Prop where
  | record {first : Token} {rest left : List Token} {fields : List Field}
      (brace : first.kind = .lbrace) (inner : ReadsFields rest fields left) :
      ReadsType (first :: rest) (.record fields (first.through rest left)) left
  | unit {first closing : Token} {left : List Token} (parenthesis : first.kind = .lparen)
      (closed : closing.kind = .rparen) :
      ReadsType (first :: closing :: left) (.named "()" (first.through (closing :: left) left)) left
  | named {first : Token} {left : List Token} (name : first.kind = .identifier)
      (alone : isNext .less left = false) :
      ReadsType (first :: left) (.named first.value first.span) left
  | generic {first opening closing : Token} {rest left : List Token} {args : List TypeExpr}
      (name : first.kind = .identifier) (opened : opening.kind = .less)
      (inner : ReadsArgs rest args (closing :: left)) (closed : closing.kind = .greater) :
      ReadsType (first :: opening :: rest)
        (.generic first.value args (first.through (opening :: rest) left)) left

inductive ReadsArgs : List Token → List TypeExpr → List Token → Prop where
  | one {tokens left : List Token} {arg : TypeExpr} (type : ReadsType tokens arg left)
      (alone : isNext .comma left = false) : ReadsArgs tokens [arg] left
  | more {comma : Token} {tokens rest left : List Token} {arg : TypeExpr} {args : List TypeExpr}
      (type : ReadsType tokens arg (comma :: rest)) (divided : comma.kind = .comma)
      (others : ReadsArgs rest args left) : ReadsArgs tokens (arg :: args) left

inductive ReadsFields : List Token → List Field → List Token → Prop where
  | ended {left : List Token} (atEnd : AtEnd left) : ReadsFields left [] left
  | blank {first : Token} {rest left : List Token} {fields : List Field}
      (trivia : first.isTrivia = true) (others : ReadsFields rest fields left) :
      ReadsFields (first :: rest) fields left
  | closed {first : Token} {left : List Token} (brace : first.kind = .rbrace) :
      ReadsFields (first :: left) [] left
  | elided {first : Token} (rest : List Token) {left : List Token} (dots : first.kind = .ellipsis)
      (stop : (AtEnd left ∧ skipBlank rest = left) ∨
        ∃ brace, brace.kind = .rbrace ∧ skipBlank rest = brace :: left) :
      ReadsFields (first :: rest) [] left
  | field {first : Token} (colon : Token) {rest after left : List Token} {type : TypeExpr}
      {fields : List Field} (name : first.kind = .identifier) (typed : colon.kind = .colon)
      (inner : ReadsType rest type after) (others : ReadsFields (divider after) fields left) :
      ReadsFields (first :: colon :: rest)
        (.mk first.value type (first.through (colon :: rest) after) :: fields) left

end

theorem recordEnd_cases {tokens : List Token} {reading : Reading Unit tokens}
    (read : recordEnd tokens = some reading) :
    (AtEnd reading.rest ∧ tokens = reading.rest) ∨
      ∃ brace, brace.kind = .rbrace ∧ tokens = brace :: reading.rest := by
  cases tokens with
  | nil =>
      cases read
      exact Or.inl ⟨Or.inl rfl, rfl⟩
  | cons token rest =>
      rw [recordEnd] at read
      split at read
      · rename_i brace
        cases read
        exact Or.inr ⟨token, brace, rfl⟩
      · split at read
        · rename_i ends
          cases read
          exact Or.inl ⟨atEnd_cons ends rest, rfl⟩
        · cases read

theorem readsTypes : (∀ tokens reading, typeExpr tokens = some reading →
      ReadsType tokens reading.value reading.rest) ∧
    (∀ tokens reading, typeArgs tokens = some reading →
      ReadsArgs tokens reading.value reading.rest) ∧
    (∀ tokens reading, recordFields tokens = some reading →
      ReadsFields tokens reading.value reading.rest) := by
  apply typeExpr.mutual_induct
  case case1 =>
    intro reading read
    simp only [typeExpr, reduceCtorEq] at read
  case case2 =>
    intro first rest kind missing _ reading read
    simp only [typeExpr, kind, missing, reduceCtorEq] at read
  case case3 =>
    intro first rest kind fields found ih reading read
    simp only [typeExpr, kind, found] at read
    cases read
    exact .record kind (ih fields found)
  case case4 =>
    intro first rest kind missing reading read
    simp only [typeExpr, kind, missing, reduceCtorEq] at read
  case case5 =>
    intro first rest kind closing found reading read
    simp only [typeExpr, kind, found] at read
    cases read
    have closed := kind_of_expect found
    obtain ⟨token, left, split⟩ := closing
    subst split
    exact .unit kind closed
  case case6 =>
    intro first rest kind missing reading read
    simp only [typeExpr, kind, missing] at read
    cases read
    exact .named kind (isNext_of_expect missing)
  case case7 =>
    intro first rest kind opening found missing _ reading read
    simp only [typeExpr, kind, found, missing, reduceCtorEq] at read
  case case8 =>
    intro first rest kind opening found args argsFound missing _ reading read
    simp only [typeExpr, kind, found, argsFound, missing, reduceCtorEq] at read
  case case9 =>
    intro first rest kind opening found args argsFound closing closingFound ih reading read
    simp only [typeExpr, kind, found, argsFound, closingFound] at read
    cases read
    have opened := kind_of_expect found
    have closed := kind_of_expect closingFound
    have inner := ih args argsFound
    rw [closing.split] at inner
    obtain ⟨token, left, split⟩ := opening
    subst split
    exact .generic kind opened inner closed
  case case10 =>
    intro first rest notBrace notParenthesis notName reading read
    simp only [typeExpr] at read
    cases read
  case case11 =>
    intro tokens missing _ reading read
    rw [typeArgs, missing] at read
    cases read
  case case12 =>
    intro tokens arg found missing ih reading read
    rw [typeArgs, found] at read
    simp only [missing] at read
    cases read
    exact .one (ih arg found) (isNext_of_expect missing)
  case case13 =>
    intro tokens arg found comma commaFound missing _ _ reading read
    rw [typeArgs, found] at read
    simp only [commaFound, missing, reduceCtorEq] at read
  case case14 =>
    intro tokens arg found comma commaFound others othersFound ihType ihArgs reading read
    rw [typeArgs, found] at read
    simp only [commaFound, othersFound] at read
    cases read
    have type := ihType arg found
    rw [comma.split] at type
    exact .more type (kind_of_expect commaFound) (ihArgs others othersFound)
  case case15 =>
    intro reading read
    simp only [recordFields] at read
    cases read
    exact .ended (Or.inl rfl)
  case case16 =>
    intro first rest trivia ih reading read
    rw [recordFields, if_pos trivia] at read
    obtain ⟨inner, found, same⟩ := Option.map_eq_some_iff.mp read
    rw [← same]
    exact .blank trivia (ih inner found)
  case case17 =>
    intro first rest plain brace reading read
    rw [recordFields, if_neg plain] at read
    simp only [brace] at read
    cases read
    exact .closed brace
  case case18 =>
    intro first rest plain ends reading read
    rw [recordFields, if_neg plain] at read
    simp only [ends] at read
    cases read
    exact .ended (atEnd_cons ends rest)
  case case19 =>
    intro first rest plain dots reading read
    rw [recordFields, if_neg plain] at read
    simp only [dots] at read
    obtain ⟨inner, found, same⟩ := Option.map_eq_some_iff.mp read
    rw [← same]
    exact .elided rest dots (recordEnd_cases found)
  case case20 =>
    intro first rest plain name missing reading read
    rw [recordFields, if_neg plain] at read
    simp only [name, missing, reduceCtorEq] at read
  case case21 =>
    intro first rest plain name colon found missing _ reading read
    rw [recordFields, if_neg plain] at read
    simp only [name, found, missing, reduceCtorEq] at read
  case case22 =>
    intro first rest plain name colon found type typeFound missing _ _ reading read
    rw [recordFields, if_neg plain] at read
    simp only [name, found, typeFound, missing, reduceCtorEq] at read
  case case23 =>
    intro first rest plain name colon found type typeFound others othersFound ihType ihFields
      reading read
    rw [recordFields, if_neg plain] at read
    simp only [name, found, typeFound, othersFound] at read
    cases read
    have typed := kind_of_expect found
    have inner := ihType type typeFound
    have after := ihFields others othersFound
    obtain ⟨token, left, split⟩ := colon
    subst split
    exact .field token name typed inner after
  case case24 =>
    intro first rest plain notBrace notMark notDots notName reading read
    rw [recordFields, if_neg plain] at read
    simp only [] at read
    cases read

/-! ### What is left is an end part of what was read from -/

mutual

theorem ReadsType.suffix : ∀ {tokens : List Token} {type : TypeExpr} {left : List Token},
    ReadsType tokens type left → left <:+ tokens
  | _, _, _, .record _ inner => suffix_cons_of_suffix _ inner.suffix
  | _, _, _, .unit _ _ => suffix_cons_of_suffix _ (List.suffix_cons _ _)
  | _, _, _, .named _ _ => List.suffix_cons _ _
  | _, _, _, .generic _ _ inner _ =>
      suffix_cons_of_suffix _ (suffix_cons_of_suffix _ ((List.suffix_cons _ _).trans inner.suffix))

theorem ReadsArgs.suffix : ∀ {tokens : List Token} {args : List TypeExpr} {left : List Token},
    ReadsArgs tokens args left → left <:+ tokens
  | _, _, _, .one type _ => type.suffix
  | _, _, _, .more type _ others => others.suffix.trans ((List.suffix_cons _ _).trans type.suffix)

theorem ReadsFields.suffix : ∀ {tokens : List Token} {fields : List Field} {left : List Token},
    ReadsFields tokens fields left → left <:+ tokens
  | _, _, _, .ended _ => List.suffix_rfl
  | _, _, _, .blank _ others => suffix_cons_of_suffix _ others.suffix
  | _, _, _, .closed _ => List.suffix_cons _ _
  | _, _, _, .elided rest _ stop => by
      refine suffix_cons_of_suffix _ (List.IsSuffix.trans ?_ (skipBlank_suffix rest))
      rcases stop with ⟨_, same⟩ | ⟨brace, _, closed⟩
      · exact same ▸ List.suffix_rfl
      · rw [closed]
        exact List.suffix_cons _ _
  | _, _, _, .field _ _ _ inner others =>
      suffix_cons_of_suffix _ (suffix_cons_of_suffix _
        (others.suffix.trans ((divider_suffix _).trans inner.suffix)))

end

/-! ### Spans of types -/

mutual

theorem ReadsType.fits : ∀ {tokens : List Token} {type : TypeExpr} {left : List Token},
    ReadsType tokens type left → ∀ {file : String} {low high : Int},
      Laid file low high (between tokens left) → type.toTree.Fits file low high
  | _, _, _, .record brace inner, _, _, _, laid => by
      obtain ⟨here, within⟩ := through_of_laid (isTrivia_of_kind brace rfl) inner.suffix laid
      simp only [TypeExpr.toTree, Tree.Fits, Tree.FieldsFit]
      exact ⟨here, inner.fits within, trivial⟩
  | _, _, _, .unit parenthesis _, _, _, _, laid => by
      obtain ⟨here, _⟩ :=
        through_of_laid (isTrivia_of_kind parenthesis rfl) (List.suffix_cons _ _) laid
      simp only [TypeExpr.toTree, Tree.Fits, Tree.FieldsFit]
      exact ⟨here, trivial, trivial⟩
  | _, _, _, .named name _, _, _, _, laid => by
      obtain ⟨here, _⟩ := through_of_laid (isTrivia_of_kind name rfl) List.suffix_rfl laid
      rw [through_eq_extent, between_self, extent_nil] at here
      simp only [TypeExpr.toTree, Tree.Fits, Tree.FieldsFit]
      exact ⟨here, trivial, trivial⟩
  | _, _, _, .generic name _ inner _, _, _, _, laid => by
      have closing := (List.suffix_cons _ _).trans inner.suffix
      obtain ⟨here, within⟩ :=
        through_of_laid (isTrivia_of_kind name rfl) (suffix_cons_of_suffix _ closing) laid
      have arguments := within.inside (List.suffix_cons _ _) inner.suffix (List.suffix_cons _ _)
      simp only [TypeExpr.toTree, Tree.Fits, Tree.FieldsFit]
      exact ⟨here, trivial, inner.fits arguments, trivial⟩

theorem ReadsArgs.fits : ∀ {tokens : List Token} {args : List TypeExpr} {left : List Token},
    ReadsArgs tokens args left → ∀ {file : String} {low high : Int},
      Laid file low high (between tokens left) → Tree.ItemsFit file low high (typesToTrees args)
  | _, _, _, .one type _, _, _, _, laid => by
      simp only [typesToTrees, Tree.ItemsFit]
      exact ⟨_, laid.le, type.fits laid, Int.le_refl _⟩
  | _, _, _, .more type _ others, _, _, _, laid => by
      have next := others.suffix
      obtain ⟨place, front, back⟩ := laid.split_at type.suffix (suffix_cons_of_suffix _ next)
      simp only [typesToTrees, Tree.ItemsFit]
      exact ⟨place, front.le, type.fits front, others.fits (back.after (List.suffix_cons _ _) next)⟩

theorem ReadsFields.fits : ∀ {tokens : List Token} {fields : List Field} {left : List Token},
    ReadsFields tokens fields left → ∀ {file : String} {low high : Int},
      Laid file low high (between tokens left) → Tree.ItemsFit file low high (fieldsToTrees fields)
  | _, _, _, .ended _, _, _, _, laid => by
      simp only [fieldsToTrees, Tree.ItemsFit]
      exact laid.le
  | _, _, _, .blank _ others, _, _, _, laid =>
      others.fits (laid.after (List.suffix_cons _ _) others.suffix)
  | _, _, _, .closed _, _, _, _, laid => by
      simp only [fieldsToTrees, Tree.ItemsFit]
      exact laid.le
  | _, _, _, .elided _ _ _, _, _, _, laid => by
      simp only [fieldsToTrees, Tree.ItemsFit]
      exact laid.le
  | _, _, _, .field colon name _ inner others, _, _, _, laid => by
      have next := others.suffix.trans (divider_suffix _)
      have typed := suffix_cons_of_suffix colon inner.suffix
      obtain ⟨place, front, back⟩ := laid.split_at (suffix_cons_of_suffix _ typed) next
      obtain ⟨here, within⟩ := through_of_laid (isTrivia_of_kind name rfl) typed front
      have type := within.after (List.suffix_cons _ _) inner.suffix
      simp only [fieldsToTrees, Field.toTree, Tree.ItemsFit, Tree.Fits, Tree.FieldsFit]
      exact ⟨place, front.le, ⟨here, trivial, inner.fits type, trivial⟩,
        others.fits (back.after (divider_suffix _) others.suffix)⟩

end

end Grammar

end SageNotation
