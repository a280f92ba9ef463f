import SageNotation.Proofs.Cut.Reading
import SageNotation.Proofs.Grammar.Types

/-!
Types before a border.

A record that is still open at an end mark or at the end of the list is complete,
but one that is still open at a cut is not.  This is the only difference between
them: where it shows, the tokens before the cut hold a brace that is not closed
among them.
-/

namespace SageNotation

namespace Token

/-! ### Braces -/

/-- Is the brace that was opened before the tokens closed among them, with `depth`
further braces opened and not yet closed? -/
def closes : Nat → List Token → Bool
  | _, [] => false
  | depth, first :: rest =>
      if first.kind = .lbrace then closes (depth + 1) rest
      else if first.kind = .rbrace then depth == 0 || closes (depth - 1) rest
      else closes depth rest

/-- Is every opening brace closed among the tokens after it? -/
def bracesClose : List Token → Bool
  | [] => true
  | first :: rest => (first.kind != .lbrace || closes 0 rest) && bracesClose rest

def LeavesOpen (tokens : List Token) : Prop :=
  ∃ brace rest, brace :: rest <:+ tokens ∧ brace.kind = .lbrace ∧ closes 0 rest = false

theorem not_leavesOpen {tokens : List Token} (closed : bracesClose tokens = true) :
    ¬ LeavesOpen tokens := by
  rintro ⟨brace, rest, within, opening, unclosed⟩
  induction tokens with
  | nil => cases List.suffix_nil.mp within
  | cons first others ih =>
      rw [bracesClose, Bool.and_eq_true] at closed
      rcases List.suffix_cons_iff.mp within with same | later
      · obtain ⟨rfl, rfl⟩ := List.cons.inj same
        simp only [opening, bne_self_eq_false, unclosed, Bool.or_self, Bool.false_eq_true,
          false_and] at closed
      · exact ih closed.2 later

theorem LeavesOpen.of_suffix {tokens rest : List Token} (left : LeavesOpen rest)
    (ahead : rest <:+ tokens) : LeavesOpen tokens := by
  obtain ⟨brace, others, within, opening, unclosed⟩ := left
  exact ⟨brace, others, within.trans ahead, opening, unclosed⟩

/-- A cut stands behind tokens that leave a brace open. -/
def Severs (back tokens : List Token) : Prop :=
  StartsCut back ∧ LeavesOpen tokens

theorem Severs.of_suffix {back tokens rest : List Token} (severs : Severs back rest)
    (ahead : rest <:+ tokens) : Severs back tokens :=
  ⟨severs.1, severs.2.of_suffix ahead⟩

variable {depth : Nat} {first : Token} {rest : List Token}

theorem closes_open (brace : first.kind = .lbrace) :
    closes depth (first :: rest) = closes (depth + 1) rest := by
  rw [closes, if_pos brace]

theorem closes_close (brace : first.kind = .rbrace) :
    closes (depth + 1) (first :: rest) = closes depth rest := by
  have notOpening : first.kind ≠ .lbrace := by
    rw [brace]
    decide
  rw [closes, if_neg notOpening, if_pos brace]
  rfl

theorem closes_kind {kind : Kind} (same : first.kind = kind)
    (plain : (kind == .lbrace || kind == .rbrace) = false) :
    closes depth (first :: rest) = closes depth rest := by
  simp only [Bool.or_eq_false_iff, beq_eq_false_iff_ne, ← same] at plain
  rw [closes, if_neg plain.1, if_neg plain.2]

theorem closes_trivia (trivia : first.isTrivia = true) :
    closes depth (first :: rest) = closes depth rest := by
  apply closes_kind rfl
  unfold isTrivia at trivia
  cases kind : first.kind with
  | newline | comment => rfl
  | _ => rw [kind] at trivia; cases trivia

theorem closes_skipBlank (depth : Nat) (tokens : List Token) :
    closes depth (skipBlank tokens) = closes depth tokens := by
  unfold skipBlank
  induction tokens with
  | nil => rfl
  | cons first rest ih =>
      by_cases trivia : first.isTrivia = true
      · rw [List.dropWhile_cons_of_pos trivia, ih, closes_trivia trivia]
      · rw [List.dropWhile_cons_of_neg trivia]

theorem closes_dropOne {kind : Kind} (plain : (kind == .lbrace || kind == .rbrace) = false)
    (depth : Nat) (tokens : List Token) :
    closes depth (dropOne kind tokens) = closes depth tokens := by
  cases tokens with
  | nil => rfl
  | cons first rest =>
      by_cases wanted : first.kind = kind
      · rw [dropOne, if_pos wanted, closes_kind wanted plain]
      · rw [dropOne, if_neg wanted]

end Token

namespace Grammar

open Token
open Reading (Extends Resumes)

theorem closes_divider (depth : Nat) (tokens : List Token) :
    closes depth (divider tokens) = closes depth tokens := by
  rw [divider, closes_dropOne rfl, closes_skipBlank]

/-! ### Types that have been read -/

theorem startsMark_cons {first : Token} {rest : List Token} (marked : StartsMark (first :: rest)) :
    first.kind = .eof :=
  AtEnd.kind_eq (Or.inr marked)

theorem divider_atEnd {tokens : List Token} (atEnd : AtEnd tokens) : divider tokens = tokens := by
  rw [divider, atEnd.skipBlank, atEnd.dropOne (by decide)]

/-- At the end of the input a record is complete without further fields. -/
theorem ReadsFields.left_of_atEnd {tokens left : List Token} {fields : List Field}
    (read : ReadsFields tokens fields left) (atEnd : AtEnd tokens) : left = tokens := by
  cases read with
  | ended => rfl
  | blank trivia =>
      rw [isTrivia, atEnd.kind_eq] at trivia
      cases trivia
  | closed brace => cases brace.symm.trans atEnd.kind_eq
  | elided _ dots => cases dots.symm.trans atEnd.kind_eq
  | field _ name => cases name.symm.trans atEnd.kind_eq

mutual

/-- A type that was read ends on a line with more tokens, and its braces are
closed, unless it goes on to an end mark or holds a brace that is left open. -/
theorem ReadsType.closes : ∀ {tokens : List Token} {type : TypeExpr} {left : List Token},
    ReadsType tokens type left → EndsLine tokens →
      (EndsLine left ∧ ∀ depth, Token.closes depth tokens = Token.closes depth left) ∨
        StartsMark left ∨ LeavesOpen tokens
  | _, _, _, .record brace inner, ends => by
      have line := ends.wholeLines.endsLine_of_kind brace (by decide)
      rcases inner.closes line.wholeLines with ⟨further, same⟩ | marked | unclosed | within
      · left
        refine ⟨further, fun depth => ?_⟩
        rw [closes_open brace, same]
      · exact Or.inr (Or.inl marked)
      · exact Or.inr (Or.inr ⟨_, _, List.suffix_rfl, brace, unclosed⟩)
      · exact Or.inr (Or.inr (within.of_suffix (List.suffix_cons _ _)))
  | _, _, _, .unit parenthesis closed, ends => by
      have line := ends.wholeLines.endsLine_of_kind parenthesis (by decide)
      left
      refine ⟨line.wholeLines.endsLine_of_kind closed (by decide), fun depth => ?_⟩
      rw [closes_kind parenthesis rfl, closes_kind closed rfl]
  | _, _, _, .named name _, ends => by
      left
      refine ⟨ends.wholeLines.endsLine_of_kind name (by decide), fun depth => ?_⟩
      rw [closes_kind name rfl]
  | _, _, _, .generic name opened inner closed, ends => by
      have line := ends.wholeLines.endsLine_of_kind name (by decide)
      have arguments := line.wholeLines.endsLine_of_kind opened (by decide)
      rcases inner.closes arguments with ⟨further, same⟩ | marked | within
      · left
        refine ⟨further.wholeLines.endsLine_of_kind closed (by decide), fun depth => ?_⟩
        rw [closes_kind name rfl, closes_kind opened rfl, same, closes_kind closed rfl]
      · cases closed.symm.trans (startsMark_cons marked)
      · exact Or.inr (Or.inr
          (within.of_suffix (suffix_cons_of_suffix _ (List.suffix_cons _ _))))

theorem ReadsArgs.closes : ∀ {tokens : List Token} {args : List TypeExpr} {left : List Token},
    ReadsArgs tokens args left → EndsLine tokens →
      (EndsLine left ∧ ∀ depth, Token.closes depth tokens = Token.closes depth left) ∨
        StartsMark left ∨ LeavesOpen tokens
  | _, _, _, .one type _, ends => type.closes ends
  | _, _, _, .more type divided others, ends => by
      rcases type.closes ends with ⟨line, same⟩ | marked | within
      · have further := line.wholeLines.endsLine_of_kind divided (by decide)
        rcases others.closes further with ⟨ending, rest⟩ | marked | within
        · left
          refine ⟨ending, fun depth => ?_⟩
          rw [same, closes_kind divided rfl, rest]
        · exact Or.inr (Or.inl marked)
        · exact Or.inr (Or.inr (within.of_suffix ((List.suffix_cons _ _).trans type.suffix)))
      · cases divided.symm.trans (startsMark_cons marked)
      · exact Or.inr (Or.inr within)

theorem ReadsFields.closes : ∀ {tokens : List Token} {fields : List Field} {left : List Token},
    ReadsFields tokens fields left → WholeLines tokens →
      (EndsLine left ∧ ∀ depth, Token.closes (depth + 1) tokens = Token.closes depth left) ∨
        StartsMark left ∨ Token.closes 0 tokens = false ∨ LeavesOpen tokens
  | _, _, _, .ended atEnd, _ => by
      rcases atEnd with rfl | marked
      · exact Or.inr (Or.inr (Or.inl rfl))
      · exact Or.inr (Or.inl marked)
  | _, _, _, .blank trivia others, whole => by
      rw [closes_trivia trivia]
      rcases others.closes (whole.of_suffix (List.suffix_cons _ _)) with
        ⟨line, same⟩ | marked | unclosed | within
      · left
        refine ⟨line, fun depth => ?_⟩
        rw [closes_trivia trivia, same]
      · exact Or.inr (Or.inl marked)
      · exact Or.inr (Or.inr (Or.inl unclosed))
      · exact Or.inr (Or.inr (Or.inr (within.of_suffix (List.suffix_cons _ _))))
  | _, _, _, .closed brace, whole => by
      left
      refine ⟨whole.endsLine_of_kind brace (by decide), fun depth => ?_⟩
      rw [closes_close brace]
  | _, _, _, .elided rest dots stop, whole => by
      have inner := whole.of_suffix (suffix_cons_of_suffix _ (skipBlank_suffix rest))
      rw [closes_kind dots rfl, ← closes_skipBlank]
      rcases stop with ⟨empty | marked, same⟩ | ⟨brace, closing, split⟩
      · rw [same, empty]
        exact Or.inr (Or.inr (Or.inl rfl))
      · exact Or.inr (Or.inl marked)
      · left
        rw [split] at inner
        refine ⟨inner.endsLine_of_kind closing (by decide), fun depth => ?_⟩
        rw [closes_kind dots rfl, ← closes_skipBlank, split, closes_close closing]
  | _, _, _, .field colon name typed inner others, whole => by
      have line := whole.endsLine_of_kind name (by decide)
      rw [closes_kind name rfl, closes_kind typed rfl]
      rcases inner.closes (line.wholeLines.endsLine_of_kind typed (by decide)) with
        ⟨further, same⟩ | marked | within
      · have divided := further.wholeLines.of_suffix (divider_suffix _)
        rcases others.closes divided with ⟨ending, left⟩ | marked | unclosed | within
        · left
          refine ⟨ending, fun depth => ?_⟩
          rw [closes_kind name rfl, closes_kind typed rfl, same, ← closes_divider, left]
        · exact Or.inr (Or.inl marked)
        · rw [same, ← closes_divider]
          exact Or.inr (Or.inr (Or.inl unclosed))
        · exact Or.inr (Or.inr (Or.inr (within.of_suffix ((divider_suffix _).trans
            (inner.suffix.trans (suffix_cons_of_suffix _ (List.suffix_cons _ _)))))))
      -- The type went on to an end mark, and so does the record around it.
      · have atEnd : AtEnd _ := Or.inr marked
        rw [divider_atEnd atEnd] at others
        rw [others.left_of_atEnd atEnd]
        exact Or.inr (Or.inl marked)
      · exact Or.inr (Or.inr (Or.inr
          (within.of_suffix (suffix_cons_of_suffix _ (List.suffix_cons _ _)))))

end

/-! ### Types before a border -/

def RunsOut (back : List Token) {α : Type} {tokens : List Token}
    (result : Option (Reading α tokens)) : Prop :=
  StartsCut back ∧ ∃ reading, result = some reading ∧ reading.rest = []

/-- Before a border the routine reads the same as before the end of the list, unless
it runs on into a cut. -/
def Runs (back : List Token) {α : Type}
    (routine : (tokens : List Token) → Option (Reading α tokens)) (front : List Token) : Prop :=
  Resumes (Extends back) (RunsOut back (routine front)) (routine (front ++ back)) (routine front)

variable {back : List Token}

theorem typeExpr_other {first : Token} {rest : List Token} (notBrace : first.kind ≠ .lbrace)
    (notParenthesis : first.kind ≠ .lparen) (notName : first.kind ≠ .identifier) :
    typeExpr (first :: rest) = none := by
  rw [typeExpr]
  split
  · contradiction
  · contradiction
  · contradiction
  · rfl

theorem typeExpr_border (border : StartsBorder back) : typeExpr back = none := by
  obtain ⟨next, later, rfl, ends⟩ := border
  exact typeExpr_other (ne_of_endsBody ends rfl) (ne_of_endsBody ends rfl) (ne_of_endsBody ends rfl)

theorem recordFields_other {first : Token} {rest : List Token} (plain : ¬ first.isTrivia = true)
    (notBrace : first.kind ≠ .rbrace) (notMark : first.kind ≠ .eof)
    (notDots : first.kind ≠ .ellipsis) (notName : first.kind ≠ .identifier) :
    recordFields (first :: rest) = none := by
  rw [recordFields, if_neg plain]
  split
  · contradiction
  · contradiction
  · contradiction
  · contradiction
  · rfl

theorem runs_nil {α : Type} {routine : (tokens : List Token) → Option (Reading α tokens)}
    {value : α} (atEnd : ∀ tokens, AtEnd tokens → routine tokens = some (.nothing value))
    (atCut : ∀ first later, endsBody first.kind = true → first.kind ≠ .eof →
      routine (first :: later) = none)
    (border : StartsBorder back) : Runs back routine [] := by
  unfold Runs
  rw [List.nil_append, atEnd [] (Or.inl rfl)]
  rcases border.mark_or_cut with marked | cuts
  · rw [atEnd back (Or.inr marked)]
    exact .both ⟨rfl, rfl⟩
  · obtain ⟨first, later, rfl, ends⟩ := border
    have unmarked : first.kind ≠ .eof := fun mark =>
      (StartsMark.not_cut ⟨first, later, rfl, mark⟩) cuts
    rw [atCut first later ends unmarked]
    exact .fails ⟨cuts, _, rfl, rfl⟩ _

theorem recordFields_atEnd {tokens : List Token} (atEnd : AtEnd tokens) :
    recordFields tokens = some (.nothing []) := by
  cases tokens with
  | nil => rw [recordFields]
  | cons first rest =>
      have plain := isTrivia_of_kind atEnd.kind_eq rfl
      simp only [recordFields, plain, atEnd.kind_eq]
      rfl

theorem recordEnd_atEnd {tokens : List Token} (atEnd : AtEnd tokens) :
    recordEnd tokens = some (.nothing ()) := by
  cases tokens with
  | nil => rfl
  | cons first rest =>
      have opened : first.kind ≠ .rbrace := by
        rw [atEnd.kind_eq]
        decide
      rw [recordEnd, if_neg opened, if_pos atEnd.kind_eq]

theorem recordFields_nil (border : StartsBorder back) : Runs back recordFields [] :=
  runs_nil (fun _ => recordFields_atEnd)
    (fun _ _ ends unmarked => recordFields_other (ne_true_of_eq_false (isTrivia_of_endsBody ends))
      (ne_of_endsBody ends rfl) unmarked (ne_of_endsBody ends rfl) (ne_of_endsBody ends rfl))
    border

theorem expect_nil {kind : Kind} {tokens : List Token} (empty : tokens = []) :
    expect kind tokens = none := by
  subst empty
  rfl

theorem recordType_step {first : Token} {rest : List Token} (brace : first.kind = .lbrace)
    (fields : Runs back recordFields rest) : Runs back typeExpr (first :: rest) := by
  unfold Runs at fields ⊢
  simp only [List.cons_append, typeExpr, brace]
  generalize recordFields (rest ++ back) = wide at fields ⊢
  generalize recordFields rest = narrow at fields ⊢
  cases fields with
  | neither => exact .neither
  | both same => exact .both (((same.map _).stamp first).widen _ _)
  | fails runsOut =>
      obtain ⟨cuts, reading, rfl, left⟩ := runsOut
      exact .fails ⟨cuts, _, rfl, left⟩ _

theorem genericType_step (border : StartsBorder back) {first opening : Token} {inner : List Token}
    (name : first.kind = .identifier) (opened : opening.kind = .less)
    (args : Runs back typeArgs inner) : Runs back typeExpr (first :: opening :: inner) := by
  unfold Runs at args ⊢
  simp only [List.cons_append, typeExpr, name, expect_of_kind opened]
  generalize typeArgs (inner ++ back) = wide at args ⊢
  generalize typeArgs inner = narrow at args ⊢
  cases args with
  | neither => exact .neither
  | @both wide narrow same =>
      rcases expect_cases border .greater rfl narrow.rest with
        ⟨wideMissing, missing⟩ | ⟨closing, left, split, closed⟩
      · rw [← same.rest] at wideMissing
        simp only [wideMissing, missing]
        exact .neither
      · have wideSplit := same.rest
        rw [split, List.cons_append] at wideSplit
        simp only [expect_of_split wideSplit closed, expect_of_split split closed]
        refine .both ⟨?_, rfl⟩
        rw [same.value]
        exact congrArg (TypeExpr.generic first.value narrow.value)
          (through_append first (opening :: inner) left back)
  | fails runsOut =>
      -- At the end of the input the closing bracket is missing as well.
      obtain ⟨cuts, reading, rfl, left⟩ := runsOut
      simp only [expect_nil left]
      exact .neither

theorem typeExpr_step (border : StartsBorder back) (front : List Token)
    (fields : ∀ inner, inner.length < front.length → Runs back recordFields inner)
    (args : ∀ inner, inner.length < front.length → Runs back typeArgs inner) :
    Runs back typeExpr front := by
  cases front with
  | nil =>
      unfold Runs
      rw [List.nil_append, typeExpr_border border, typeExpr]
      exact .neither
  | cons first rest =>
      by_cases brace : first.kind = .lbrace
      · exact recordType_step brace (fields rest (Nat.lt_succ_self _))
      · by_cases parenthesis : first.kind = .lparen
        · unfold Runs
          simp only [List.cons_append, typeExpr, parenthesis]
          rcases expect_cases border .rparen rfl rest with
            ⟨wide, narrow⟩ | ⟨closing, left, rfl, closed⟩
          · rw [wide, narrow]
            exact .neither
          · simp only [List.cons_append, expect_of_kind closed]
            refine .both ⟨?_, rfl⟩
            exact congrArg (TypeExpr.named "()") (through_append first (closing :: left) left back)
        · by_cases name : first.kind = .identifier
          · rcases expect_cases border .less rfl rest with
              ⟨wide, narrow⟩ | ⟨opening, inner, rfl, opened⟩
            · unfold Runs
              simp only [List.cons_append, typeExpr, name, wide, narrow]
              exact .both ⟨rfl, rfl⟩
            · have inside := args inner (Nat.lt_succ_of_lt (Nat.lt_succ_self _))
              exact genericType_step border name opened inside
          · unfold Runs
            rw [List.cons_append, typeExpr_other brace parenthesis name,
              typeExpr_other brace parenthesis name]
            exact .neither

theorem typeArgs_step (border : StartsBorder back) (front : List Token)
    (type : Runs back typeExpr front)
    (args : ∀ inner, inner.length < front.length → Runs back typeArgs inner) :
    Runs back typeArgs front := by
  unfold Runs at type ⊢
  rw [typeArgs, typeArgs]
  generalize typeExpr (front ++ back) = wide at type ⊢
  generalize typeExpr front = narrow at type ⊢
  cases type with
  | neither => exact .neither
  | @both wide narrow same =>
      rcases expect_cases border .comma rfl narrow.rest with
        ⟨wideMissing, missing⟩ | ⟨comma, left, split, divided⟩
      · rw [← same.rest] at wideMissing
        simp only [wideMissing, missing]
        exact .both (same.map _)
      · have wideSplit := same.rest
        rw [split, List.cons_append] at wideSplit
        simp only [expect_of_split wideSplit divided, expect_of_split split divided]
        have shorter : left.length < front.length := by
          have within := narrow.length_le
          rw [split, List.length_cons] at within
          omega
        have others := args left shorter
        unfold Runs at others
        generalize typeArgs (left ++ back) = wideArgs at others ⊢
        generalize typeArgs left = narrowArgs at others ⊢
        cases others with
        | neither => exact .neither
        | both further =>
            refine .both ⟨?_, further.rest⟩
            rw [same.value, further.value]
        | fails runsOut =>
            obtain ⟨cuts, reading, rfl, left⟩ := runsOut
            exact .fails ⟨cuts, _, rfl, left⟩ _
  | fails runsOut =>
      obtain ⟨cuts, reading, rfl, left⟩ := runsOut
      simp only [expect_nil left]
      exact .fails ⟨cuts, _, rfl, left⟩ _

theorem divider_append (border : StartsBorder back) (front : List Token) :
    divider (front ++ back) = divider front ++ back := by
  rw [divider, divider, skipBlank_append border, dropOne_append border .comma rfl]

theorem recordEnd_runs (border : StartsBorder back) (front : List Token) :
    Runs back recordEnd front := by
  cases front with
  | nil =>
      refine runs_nil (fun _ => recordEnd_atEnd) (fun first later ends unmarked => ?_) border
      rw [recordEnd, if_neg (ne_of_endsBody ends rfl), if_neg unmarked]
  | cons first rest =>
      unfold Runs
      by_cases brace : first.kind = .rbrace
      · simp only [List.cons_append, recordEnd, brace, if_true]
        exact .both ⟨rfl, rfl⟩
      · by_cases mark : first.kind = .eof
        · rw [List.cons_append, recordEnd_atEnd (atEnd_cons mark _),
            recordEnd_atEnd (atEnd_cons mark _)]
          exact .both ⟨rfl, rfl⟩
        · simp only [List.cons_append, recordEnd, brace, mark, if_false]
          exact .neither

theorem recordField_step (border : StartsBorder back) {first colon : Token} {inner : List Token}
    (name : first.kind = .identifier) (typed : colon.kind = .colon)
    (type : Runs back typeExpr inner)
    (fields : ∀ left, left.length ≤ inner.length → Runs back recordFields left) :
    Runs back recordFields (first :: colon :: inner) := by
  have plain : first.isTrivia = false := isTrivia_of_kind name rfl
  unfold Runs at type ⊢
  simp only [List.cons_append, recordFields, plain, name, expect_of_kind typed]
  generalize typeExpr (inner ++ back) = wide at type ⊢
  generalize typeExpr inner = narrow at type ⊢
  cases type with
  | neither => exact .neither
  | @both wide narrow same =>
      have within := Nat.le_trans (length_divider_le narrow.rest) narrow.length_le
      have others := fields (divider narrow.rest) within
      unfold Runs at others
      rw [← divider_append border, ← same.rest] at others
      simp only []
      generalize recordFields (divider wide.rest) = wideOthers at others ⊢
      generalize recordFields (divider narrow.rest) = narrowOthers at others ⊢
      cases others with
      | neither => exact .neither
      | both further =>
          refine .both ⟨?_, further.rest⟩
          have span := through_append first (colon :: inner) narrow.rest back
          rw [List.cons_append, ← same.rest] at span
          simp only [same.value, further.value, span]
      | fails runsOut =>
          obtain ⟨cuts, reading, rfl, left⟩ := runsOut
          exact .fails ⟨cuts, _, rfl, left⟩ _
  | fails runsOut =>
      -- The type of the field ran out, and with it the record around the field.
      obtain ⟨cuts, reading, rfl, left⟩ := runsOut
      have nothing : divider reading.rest = [] := by
        rw [left]
        rfl
      simp only [recordFields_atEnd (Or.inl nothing)]
      exact .fails ⟨cuts, _, rfl, nothing⟩ _

theorem recordFields_step (border : StartsBorder back) (front : List Token)
    (types : ∀ inner, inner.length < front.length → Runs back typeExpr inner)
    (fields : ∀ inner, inner.length < front.length → Runs back recordFields inner) :
    Runs back recordFields front := by
  cases front with
  | nil => exact recordFields_nil border
  | cons first rest =>
      unfold Runs
      by_cases trivia : first.isTrivia = true
      · have others := fields rest (Nat.lt_succ_self _)
        unfold Runs at others
        rw [List.cons_append, recordFields, if_pos trivia, recordFields, if_pos trivia]
        generalize recordFields (rest ++ back) = wide at others ⊢
        generalize recordFields rest = narrow at others ⊢
        cases others with
        | neither => exact .neither
        | both same => exact .both (same.widen _ _)
        | fails runsOut =>
            obtain ⟨cuts, reading, rfl, left⟩ := runsOut
            exact .fails ⟨cuts, _, rfl, left⟩ _
      · by_cases brace : first.kind = .rbrace
        · simp only [List.cons_append, recordFields, trivia, brace]
          exact .both ⟨rfl, rfl⟩
        · by_cases dots : first.kind = .ellipsis
          · have ending := recordEnd_runs border (skipBlank rest)
            unfold Runs at ending
            rw [← skipBlank_append border] at ending
            simp only [List.cons_append, recordFields, trivia, dots]
            generalize recordEnd (skipBlank (rest ++ back)) = wide at ending ⊢
            generalize recordEnd (skipBlank rest) = narrow at ending ⊢
            cases ending with
            | neither => exact .neither
            | both same => exact .both ⟨rfl, same.rest⟩
            | fails runsOut =>
                obtain ⟨cuts, reading, rfl, left⟩ := runsOut
                exact .fails ⟨cuts, _, rfl, left⟩ _
          · by_cases name : first.kind = .identifier
            · rcases expect_cases border .colon rfl rest with
                ⟨wide, narrow⟩ | ⟨colon, inner, rfl, typed⟩
              · simp only [List.cons_append, recordFields, trivia, name, wide, narrow]
                exact .neither
              · refine recordField_step border name typed (types inner ?_) fun left within =>
                  fields left ?_
                · simp only [List.length_cons]
                  omega
                · simp only [List.length_cons]
                  omega
            · by_cases mark : first.kind = .eof
              · rw [List.cons_append, recordFields_atEnd (atEnd_cons mark _),
                  recordFields_atEnd (atEnd_cons mark _)]
                exact .both ⟨rfl, rfl⟩
              · rw [List.cons_append, recordFields_other trivia brace mark dots name,
                  recordFields_other trivia brace mark dots name]
                exact .neither

theorem types_run (border : StartsBorder back) (front : List Token) :
    Runs back typeExpr front ∧ Runs back typeArgs front ∧ Runs back recordFields front := by
  induction size : front.length using Nat.strongRecOn generalizing front with
  | ind length ih =>
      have shorter : ∀ inner : List Token, inner.length < front.length →
          Runs back typeExpr inner ∧ Runs back typeArgs inner ∧ Runs back recordFields inner := by
        intro inner less
        rw [size] at less
        exact ih inner.length less inner rfl
      have type := typeExpr_step border front (fun inner less => (shorter inner less).2.2)
        fun inner less => (shorter inner less).2.1
      have args := typeArgs_step border front type fun inner less => (shorter inner less).2.1
      have fields := recordFields_step border front (fun inner less => (shorter inner less).1)
        fun inner less => (shorter inner less).2.2
      exact ⟨type, args, fields⟩

/-- Before a border a type is read as it is before the end of the list, unless a cut
stands behind a brace that is left open. -/
theorem typeExpr_append (border : StartsBorder back) {front : List Token}
    (lines : LinesBefore back front) :
    Resumes (Extends back) (Severs back front) (typeExpr (front ++ back)) (typeExpr front) := by
  apply (types_run border front).1.imp
  rintro ⟨cuts, reading, read, left⟩
  have derived := readsTypes.1 front reading read
  have nonempty : front ≠ [] := by
    rintro rfl
    simp only [typeExpr, reduceCtorEq] at read
  refine ⟨cuts, ?_⟩
  -- Only an open record reads past the newline at the end of its line.
  rcases derived.closes ((lines cuts).endsLine nonempty) with
    ⟨⟨last, found, _⟩, _⟩ | ⟨mark, later, same, _⟩ | within
  · rw [left] at found
    cases found
  · cases left.symm.trans same
  · exact within

theorem recordFields_append (border : StartsBorder back) {front : List Token}
    (lines : LinesBefore back front) :
    Resumes (Extends back) (StartsCut back ∧ (closes 0 front = false ∨ LeavesOpen front))
      (recordFields (front ++ back)) (recordFields front) := by
  apply (types_run border front).2.2.imp
  rintro ⟨cuts, reading, read, left⟩
  have derived := readsTypes.2.2 front reading read
  refine ⟨cuts, ?_⟩
  rcases derived.closes (lines cuts) with
    ⟨⟨last, found, _⟩, _⟩ | ⟨mark, later, same, _⟩ | within
  · rw [left] at found
    cases found
  · cases left.symm.trans same
  · exact within

end Grammar

end SageNotation
