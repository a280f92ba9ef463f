import SageNotation.Grammar.Refinements
import SageNotation.Proofs.Cut.Statements
import SageNotation.Proofs.Cut.Types

/-!
Declarations before a border.

Headers, contracts, clauses and their parts stop before a border.  A declaration
whose header holds a record that is still open at a cut is refused.  A clause with
such a record ends the clauses of its declaration before it, so that the
declaration is shorter than it would be before the end of the input, and the
tokens from the cut on are still left.
-/

namespace SageNotation.Grammar

open Token
open Reading (Extends Resumes extends_nothing extends_option_map resumes_of_rel)

variable {front back : List Token}

/-! ### Headers -/

theorem moduleDecl_append (border : StartsBorder back) (front : List Token) :
    Option.Rel (Extends back) (moduleDecl (front ++ back)) (moduleDecl front) := by
  unfold moduleDecl
  rcases expect_cases border .identifier rfl front with ⟨wide, narrow⟩ | ⟨name, rest, rfl, named⟩
  · rw [wide, narrow]
    exact .none
  · simp only [List.cons_append, expect_of_kind named]
    have text := Reading.description_append border rest
    refine .some ⟨?_, text.rest⟩
    simp only [text.value]

theorem typeDecl_append (border : StartsBorder back) (lines : LinesBefore back front) :
    Resumes (Extends back) (Severs back front) (typeDecl (front ++ back)) (typeDecl front) := by
  unfold typeDecl
  rcases expect_cases border .identifier rfl front with ⟨wide, narrow⟩ | ⟨name, rest, rfl, named⟩
  · rw [wide, narrow]
    exact .neither
  · simp only [List.cons_append, expect_of_kind named]
    rcases expect_cases border .assign rfl rest with ⟨wide, narrow⟩ | ⟨assign, rest, rfl, assigned⟩
    · rw [wide, narrow]
      exact .neither
    · simp only [List.cons_append, expect_of_kind assigned]
      rcases expect_cases border .lbrace rfl rest with ⟨wide, narrow⟩ | ⟨brace, rest, rfl, opened⟩
      · rw [wide, narrow]
        exact .neither
      · simp only [List.cons_append, expect_of_kind opened]
        have opening := suffix_cons_of_suffix name (List.suffix_cons assign (brace :: rest))
        have fields := recordFields_append border
          (lines.of_suffix ((List.suffix_cons brace rest).trans opening))
        generalize recordFields (rest ++ back) = wide at fields ⊢
        generalize recordFields rest = narrow at fields ⊢
        cases fields with
        | neither => exact .neither
        | both same =>
            refine .both ⟨?_, same.rest⟩
            simp only [same.value]
        | fails cause =>
            refine .fails ?_ _
            obtain ⟨cuts, unclosed | within⟩ := cause
            · exact ⟨cuts, brace, rest, opening, opened, unclosed⟩
            · exact ⟨cuts, within.of_suffix ((List.suffix_cons brace rest).trans opening)⟩

theorem typeAfter_append (border : StartsBorder back) (mark : Kind) (going : endsBody mark = false)
    (lines : LinesBefore back front) :
    Resumes (Extends back) (Severs back front) (typeAfter mark (front ++ back))
      (typeAfter mark front) := by
  unfold typeAfter
  rcases expect_cases border mark going front with ⟨wide, narrow⟩ | ⟨token, rest, rfl, wanted⟩
  · rw [wide, narrow]
    exact .both (extends_nothing none)
  · simp only [List.cons_append, expect_of_kind wanted]
    have ahead := List.suffix_cons token rest
    have type := typeExpr_append border (lines.of_suffix ahead)
    generalize typeExpr (rest ++ back) = wide at type ⊢
    generalize typeExpr rest = narrow at type ⊢
    cases type with
    | neither => exact .neither
    | both same => exact .both ((same.map some).widen _ _)
    | fails within => exact .fails (within.of_suffix ahead) _

theorem param_step (border : StartsBorder back) {first : Token} {rest : List Token}
    (plain : ¬ first.isTrivia = true) (name : first.kind = .identifier) (lines : LinesBefore back rest)
    (others : ∀ inner, inner <:+ rest →
      Resumes (Extends back) (Severs back inner) (params (inner ++ back)) (params inner)) :
    Resumes (Extends back) (Severs back (first :: rest)) (params (first :: rest ++ back))
      (params (first :: rest)) := by
  have notClosing : ¬ first.kind = .rparen := by
    rw [name]
    decide
  have ahead := List.suffix_cons first rest
  rw [List.cons_append, params, params, if_neg plain, if_neg plain, if_neg notClosing,
    if_neg notClosing, if_pos name, if_pos name]
  have type := typeAfter_append border .colon rfl lines
  generalize typeAfter .colon (rest ++ back) = wide at type ⊢
  generalize typeAfter .colon rest = narrow at type ⊢
  cases type with
  | neither => exact .neither
  | @both wide narrow same =>
      have within := (divider_suffix narrow.rest).trans narrow.suffix
      have further := others (divider narrow.rest) within
      rw [← divider_append border, ← same.rest] at further
      simp only []
      generalize params (divider wide.rest) = wideOthers at further ⊢
      generalize params (divider narrow.rest) = narrowOthers at further ⊢
      cases further with
      | neither => exact .neither
      | both later =>
          refine .both ⟨?_, later.rest⟩
          have span := through_append first rest narrow.rest back
          rw [← same.rest] at span
          simp only [same.value, later.value, span]
      | fails unclosed => exact .fails (unclosed.of_suffix (within.trans ahead)) _
  | fails unclosed => exact .fails (unclosed.of_suffix ahead) _

theorem params_append (border : StartsBorder back) (lines : LinesBefore back front) :
    Resumes (Extends back) (Severs back front) (params (front ++ back)) (params front) := by
  induction size : front.length using Nat.strongRecOn generalizing front with
  | ind length ih =>
      cases front with
      | nil =>
          obtain ⟨next, later, rfl, ends, plain⟩ := border.split
          rw [List.nil_append, params, params, if_neg plain, if_neg (ne_of_endsBody ends rfl),
            if_neg (ne_of_endsBody ends rfl)]
          exact .neither
      | cons first rest =>
          have ahead := List.suffix_cons first rest
          have further : ∀ inner, inner <:+ rest → Resumes (Extends back) (Severs back inner)
              (params (inner ++ back)) (params inner) := by
            intro inner within
            have shorter := within.length_le
            rw [List.length_cons] at size
            exact ih inner.length (by omega) (lines.of_suffix (within.trans ahead)) rfl
          by_cases trivia : first.isTrivia = true
          · rw [List.cons_append, params, params, if_pos trivia, if_pos trivia]
            have others := (further rest List.suffix_rfl).imp fun unclosed =>
              unclosed.of_suffix ahead
            exact others.map fun same => same.widen _ _
          · by_cases name : first.kind = .identifier
            · exact param_step border trivia name (lines.of_suffix ahead) further
            · by_cases closing : first.kind = .rparen
              · rw [List.cons_append, params, params, if_neg trivia, if_neg trivia,
                  if_pos closing, if_pos closing]
                exact .both ⟨rfl, rfl⟩
              · rw [List.cons_append, params, params, if_neg trivia, if_neg trivia,
                  if_neg closing, if_neg closing, if_neg name, if_neg name]
                exact .neither

theorem paramList_append (border : StartsBorder back) (lines : LinesBefore back front) :
    Resumes (Extends back) (Severs back front) (paramList (front ++ back)) (paramList front) := by
  unfold paramList
  rcases expect_cases border .lparen rfl front with ⟨wide, narrow⟩ | ⟨opening, rest, rfl, opened⟩
  · rw [wide, narrow]
    exact .both (extends_nothing [])
  · simp only [List.cons_append, expect_of_kind opened]
    have ahead := List.suffix_cons opening rest
    have inner := (params_append border (lines.of_suffix ahead)).imp fun unclosed =>
      unclosed.of_suffix ahead
    exact inner.map fun same => same.widen _ _

theorem contractKind?_border {kind : Kind} (ends : endsBody kind = true) :
    contractKind? kind = none := by
  rcases endsBody_cases ends with ⟨word, rfl⟩ | ⟨inference, rfl⟩ | rfl | rfl <;> rfl

theorem contracts_append (border : StartsBorder back) (lines : LinesBefore back front) :
    Extends back (contracts (front ++ back)) (contracts front) := by
  fun_induction contracts front with
  | case1 =>
      obtain ⟨next, later, rfl, ends, plain⟩ := border.split
      rw [List.nil_append, contracts, if_neg plain]
      simp only [contractKind?_border ends]
      exact extends_nothing []
  | case2 first rest trivia ih =>
      rw [List.cons_append, contracts, if_pos trivia]
      exact (ih (lines.of_suffix (List.suffix_cons first rest))).widen _ _
  | case3 first rest plain other =>
      rw [List.cons_append, contracts, if_neg plain]
      simp only [other]
      exact extends_nothing []
  | case4 first rest plain kind known others ih =>
      rw [List.cons_append, contracts, if_neg plain]
      simp only [known]
      have ended := lines.row_of_plain plain
      obtain ⟨row, left⟩ := line_append border ended
      have later := ih (ended.lines.of_suffix (afterLine_suffix rest))
      rw [← left] at later
      refine ⟨?_, later.rest⟩
      simp only [row, left, later.value, through_append]
      rfl

theorem callable_append (border : StartsBorder back) (lines : LinesBefore back front) :
    Resumes (Extends back) (Severs back front) (callable (front ++ back)) (callable front) := by
  unfold callable
  rcases expect_cases border .identifier rfl front with ⟨wide, narrow⟩ | ⟨name, rest, rfl, named⟩
  · rw [wide, narrow]
    exact .neither
  · simp only [List.cons_append, expect_of_kind named]
    have ahead := List.suffix_cons name rest
    have header := paramList_append border (lines.of_suffix ahead)
    generalize paramList (rest ++ back) = wide at header ⊢
    generalize paramList rest = narrow at header ⊢
    cases header with
    | neither => exact .neither
    | fails unclosed => exact .fails (unclosed.of_suffix ahead) _
    | @both wide narrow same =>
        have within := narrow.suffix.trans ahead
        have result := typeAfter_append border .arrow rfl (lines.of_suffix within)
        rw [← same.rest] at result
        simp only []
        generalize typeAfter .arrow wide.rest = wideType at result ⊢
        generalize typeAfter .arrow narrow.rest = narrowType at result ⊢
        cases result with
        | neither => exact .neither
        | fails unclosed => exact .fails (unclosed.of_suffix within) _
        | @both wideType narrowType typed =>
            have inner := lines.of_suffix (narrowType.suffix.trans within)
            have text := Reading.description_append border narrowType.rest
            rw [← typed.rest] at text
            have afterText := inner.of_suffix (Reading.description narrowType.rest).suffix
            have terms := contracts_append border afterText
            rw [← text.rest] at terms
            have statements := body_append border (afterText.of_suffix (contracts _).suffix)
            rw [← terms.rest] at statements
            refine .both ⟨?_, statements.rest⟩
            simp only [same.value, typed.value, text.value, terms.value, statements.value]

/-! ### Clauses -/

/-- The same reading in front of more tokens, or for the stated cause a different
one that leaves these tokens. -/
def Keeps (back : List Token) (lost : Prop) {α : Type} {long short : List Token}
    (wide : Reading α long) (narrow : Reading α short) : Prop :=
  Extends back wide narrow ∨ (lost ∧ back <:+ wide.rest)

theorem clauses_append {γ : Type}
    {form : List γ → Token → (tokens : List Token) → Attempt (Span → γ) tokens}
    (border : StartsBorder back)
    (stops : ∀ earlier first tokens, endsBody first.kind = true →
      form earlier first tokens = .unknown)
    (each : ∀ earlier first rest, RowBefore back rest →
      Attempt.Resumes (Extends back) (Severs back rest) (form earlier first (rest ++ back))
        (form earlier first rest))
    (earlier : List γ) (lines : LinesBefore back front) :
    Keeps back (Severs back front) (clauses form earlier (front ++ back))
      (clauses form earlier front) := by
  fun_induction clauses form earlier front with
  | case1 earlier =>
      obtain ⟨next, later, rfl, ends, plain⟩ := border.split
      rw [List.nil_append, clauses, if_neg plain]
      simp only [stops earlier next later ends]
      exact Or.inl (extends_nothing _)
  | case2 earlier first rest trivia ih =>
      have ahead := List.suffix_cons first rest
      rw [List.cons_append, clauses, if_pos trivia]
      rcases ih (lines.of_suffix ahead) with same | ⟨unclosed, kept⟩
      · exact Or.inl (same.widen _ _)
      · exact Or.inr ⟨unclosed.of_suffix ahead, kept⟩
  | case3 earlier first rest plain found =>
      have one := each earlier first rest (lines.row_of_plain plain)
      rw [found] at one
      rw [List.cons_append, clauses, if_neg plain]
      generalize form earlier first (rest ++ back) = wide at one ⊢
      cases one with
      | unknown => exact Or.inl (extends_nothing _)
      -- A clause that is refused before the cut only ends the clauses here.
      | fails unclosed => exact Or.inr ⟨unclosed.of_suffix (List.suffix_cons first rest),
          suffix_cons_of_suffix first (List.suffix_append rest back)⟩
  | case4 earlier first rest plain found =>
      have one := each earlier first rest (lines.row_of_plain plain)
      rw [found] at one
      rw [List.cons_append, clauses, if_neg plain]
      generalize form earlier first (rest ++ back) = wide at one ⊢
      cases one with
      | refused => exact Or.inl ⟨rfl, rfl⟩
      | fails => exact Or.inl ⟨rfl, rfl⟩
  | case5 earlier first rest plain reading found ih =>
      have ahead := List.suffix_cons first rest
      have one := each earlier first rest (lines.row_of_plain plain)
      rw [found] at one
      rw [List.cons_append, clauses, if_neg plain]
      generalize form earlier first (rest ++ back) = wide at one ⊢
      cases one with
      | fails unclosed => exact Or.inr ⟨unclosed.of_suffix ahead,
          suffix_cons_of_suffix first (List.suffix_append rest back)⟩
      | @read wide _ same =>
          have within := reading.suffix.trans ahead
          have later := ih (lines.of_suffix within)
          rw [← same.rest] at later
          simp only [(same.stamp first).value]
          rcases later with further | ⟨unclosed, kept⟩
          · exact Or.inl (further.widen _ _)
          · exact Or.inr ⟨unclosed.of_suffix within, kept⟩

/-! ### Specifications -/

theorem stateField_step (border : StartsBorder back) {first colon : Token} {inner : List Token}
    (name : first.kind = .identifier) (typed : colon.kind = .colon) (lines : LinesBefore back inner)
    (others : ∀ rest, rest <:+ inner → Resumes (Extends back) (Severs back rest)
      (stateFields (rest ++ back)) (stateFields rest)) :
    Resumes (Extends back) (Severs back (first :: colon :: inner))
      (stateFields (first :: colon :: inner ++ back)) (stateFields (first :: colon :: inner)) := by
  have plain : first.isTrivia = false := isTrivia_of_kind name rfl
  have ahead := suffix_cons_of_suffix first (List.suffix_cons colon inner)
  simp only [List.cons_append, stateFields, plain, name, expect_of_kind typed]
  have type := typeExpr_append border lines
  generalize typeExpr (inner ++ back) = wide at type ⊢
  generalize typeExpr inner = narrow at type ⊢
  cases type with
  | neither => exact .neither
  | fails unclosed => exact .fails (unclosed.of_suffix ahead) _
  | @both wide narrow same =>
      have further := others narrow.rest narrow.suffix
      rw [← same.rest] at further
      simp only []
      generalize stateFields wide.rest = wideOthers at further ⊢
      generalize stateFields narrow.rest = narrowOthers at further ⊢
      cases further with
      | neither => exact .neither
      | fails unclosed => exact .fails (unclosed.of_suffix (narrow.suffix.trans ahead)) _
      | both later =>
          refine .both ⟨?_, later.rest⟩
          have span := through_append first (colon :: inner) narrow.rest back
          rw [List.cons_append, ← same.rest] at span
          simp only [same.value, later.value, span]

theorem stateFields_append (border : StartsBorder back) (lines : LinesBefore back front) :
    Resumes (Extends back) (Severs back front) (stateFields (front ++ back)) (stateFields front) := by
  induction size : front.length using Nat.strongRecOn generalizing front with
  | ind length ih =>
      cases front with
      | nil =>
          obtain ⟨next, later, rfl, ends, plain⟩ := border.split
          rw [List.nil_append, stateFields, stateFields, if_neg plain,
            if_neg (ne_of_endsBody ends rfl)]
          exact .both (extends_nothing [])
      | cons first rest =>
          have ahead := List.suffix_cons first rest
          have further : ∀ inner, inner <:+ rest → Resumes (Extends back) (Severs back inner)
              (stateFields (inner ++ back)) (stateFields inner) := by
            intro inner within
            have shorter := within.length_le
            rw [List.length_cons] at size
            exact ih inner.length (by omega) (lines.of_suffix (within.trans ahead)) rfl
          by_cases trivia : first.isTrivia = true
          · rw [List.cons_append, stateFields, stateFields, if_pos trivia, if_pos trivia]
            have others := (further rest List.suffix_rfl).imp fun unclosed =>
              unclosed.of_suffix ahead
            exact others.map fun same => same.widen _ _
          · by_cases name : first.kind = .identifier
            · rcases expect_cases border .colon rfl rest with
                ⟨wide, narrow⟩ | ⟨colon, inner, rfl, typed⟩
              · simp only [List.cons_append, stateFields, trivia, name, wide, narrow]
                exact .both (extends_nothing [])
              · have within := List.suffix_cons colon inner
                exact stateField_step border name typed (lines.of_suffix (within.trans ahead))
                  fun left before => further left (before.trans within)
            · rw [List.cons_append, stateFields, stateFields, if_neg trivia, if_neg trivia,
                if_neg name, if_neg name]
              exact .both (extends_nothing [])

theorem continuesInvariant_border {token : Token} (ends : endsBody token.kind = true) :
    continuesInvariant token = false := by
  unfold continuesInvariant endsLine isTrivia
  rcases endsBody_cases ends with ⟨word, kind⟩ | ⟨inference, kind⟩ | kind | kind <;> rw [kind] <;> rfl

theorem invariant_append (border : StartsBorder back) (ended : RowBefore back front) :
    Extends back (invariant (front ++ back)) (invariant front) := by
  obtain ⟨row, left⟩ := line_append border ended
  have others := followingLines_append border (fun _ => continuesInvariant_border)
    (ended.lines.of_suffix (afterLine_suffix front))
  rw [← left] at others
  refine ⟨?_, others.rest⟩
  simp only [invariant, row, others.value]

theorem specClause_append (border : StartsBorder back) (earlier : List SpecClause) (first : Token)
    (ended : RowBefore back front) :
    Attempt.Resumes (Extends back) (Severs back front) (specClause earlier first (front ++ back))
      (specClause earlier first front) := by
  unfold specClause
  split
  · exact .read ((Reading.stringOrLine_append border ended).map _)
  · have fields := stateFields_append border ended.lines
    exact Attempt.resumes_ofOption (fields.map fun same => same.map _)
  · exact .read ((invariant_append border ended).map _)
  · exact .unknown

theorem specClause_border (earlier : List SpecClause) {first : Token} (tokens : List Token)
    (ends : endsBody first.kind = true) : specClause earlier first tokens = .unknown := by
  unfold specClause
  rcases endsBody_cases ends with ⟨word, kind⟩ | ⟨inference, kind⟩ | kind | kind <;> rw [kind]

theorem specClauses_append (border : StartsBorder back) (earlier : List SpecClause)
    (lines : LinesBefore back front) :
    Keeps back (Severs back front) (clauses specClause earlier (front ++ back))
      (clauses specClause earlier front) :=
  clauses_append border (fun earlier _ tokens => specClause_border earlier tokens)
    (fun earlier first _ => specClause_append border earlier first) earlier lines

theorem specDecl_append (border : StartsBorder back) (lines : LinesBefore back front) :
    Option.Rel (Keeps back (Severs back front)) (specDecl (front ++ back)) (specDecl front) := by
  unfold specDecl
  rcases expect_cases border .identifier rfl front with ⟨wide, narrow⟩ | ⟨name, rest, rfl, named⟩
  · rw [wide, narrow]
    exact .none
  · simp only [List.cons_append, expect_of_kind named]
    have ahead := List.suffix_cons name rest
    have text := Reading.description_append border rest
    have within := (Reading.description rest).suffix.trans ahead
    have parts := specClauses_append border [] (lines.of_suffix within)
    rw [← text.rest] at parts
    rcases parts with same | ⟨unclosed, kept⟩
    · refine .some (Or.inl ⟨?_, same.rest⟩)
      simp only [text.value, same.value]
    · exact .some (Or.inr ⟨unclosed.of_suffix within, kept⟩)

/-! ### Implementations -/

theorem implementation_append (border : StartsBorder back) (front : List Token) :
    Extends back (implementation (front ++ back)) (implementation front) := by
  have target : (expect .identifier (front ++ back)).map (·.token.value) =
      (expect .identifier front).map (·.token.value) := by
    rcases expect_cases border .identifier rfl front with ⟨wide, narrow⟩ | ⟨name, rest, rfl, named⟩
    · rw [wide, narrow]
      rfl
    · simp only [List.cons_append, expect_of_kind named, Option.map_some]
  have start : skipBlank (dropOne .identifier (front ++ back)) =
      skipBlank (dropOne .identifier front) ++ back := by
    rw [dropOne_append border .identifier rfl, skipBlank_append border]
  obtain ⟨rows, left⟩ := whileAppend_border border
    (fun token => !(endsBody token.kind || token.kind == .comment))
    (fun token ends => by rw [ends]; rfl) (skipBlank (dropOne .identifier front))
  refine ⟨?_, ?_⟩
  · simp only [implementation, target, start, rows]
  · simp only [implementation, start, left]

end SageNotation.Grammar
