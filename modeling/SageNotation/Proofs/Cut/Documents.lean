import SageNotation.Grammar.Documents
import SageNotation.Proofs.Cut.Refinements

/-!
Documents end at the first end mark and are cut at every at-keyword that starts a
line.

The items of a list are those of the tokens before its first end mark, and the
reader comes to stand at the mark.  Whatever stands on the lines before a cut, the
items from the cut on are those of the document that starts there.  When the lines
before it leave no brace open, the items before it are those of these lines alone.
-/

namespace SageNotation

namespace Grammar

open Token
open Reading (Extends Resumes resumes_of_rel)

variable {front back : List Token} {lost : Prop}

/-! ### Items -/

theorem Keeps.map {α β : Type} {long short : List Token} {wide : Reading α long}
    {narrow : Reading α short} (same : Keeps back lost wide narrow) (change : α → β) :
    Keeps back lost (wide.map change) (narrow.map change) := by
  rcases same with further | ⟨cause, kept⟩
  · exact Or.inl (further.map change)
  · exact Or.inr ⟨cause, kept⟩

theorem inferredFact_append (inference : Inference) (border : StartsBorder back)
    (ended : RowBefore back front) :
    Extends back (inferredFact inference (front ++ back)) (inferredFact inference front) :=
  (Reading.lineText_append border ended).map _

theorem asDeclaration_append {long short : List Token}
    {wide : Option (Reading ((Span → Declaration) × List Recovery) long)}
    {narrow : Option (Reading ((Span → Declaration) × List Recovery) short)}
    (same : Resumes (Keeps back lost) lost wide narrow) :
    Attempt.Resumes (Keeps back lost) lost (asDeclaration wide) (asDeclaration narrow) :=
  (Attempt.resumes_ofOption same).map fun further => further.map _

theorem declarationForm_append (border : StartsBorder back) (word : DeclareWord)
    (lines : LinesBefore back front) :
    Attempt.Resumes (Keeps back (Severs back front)) (Severs back front)
      (declarationForm word (front ++ back)) (declarationForm word front) := by
  cases word with
  | mod =>
      apply asDeclaration_append
      exact (resumes_of_rel (moduleDecl_append border front)).map fun same => Or.inl (same.map _)
  | type =>
      apply asDeclaration_append
      exact (typeDecl_append border lines).map fun same => Or.inl (same.map _)
  | fn =>
      apply asDeclaration_append
      exact (callable_append border lines).map fun same => Or.inl (same.map _)
  | spec =>
      apply asDeclaration_append
      exact resumes_of_rel (specDecl_append border lines)
  | op =>
      apply asDeclaration_append
      exact (callable_append border lines).map fun same => Or.inl (same.map _)
  | refine =>
      apply asDeclaration_append
      exact resumes_of_rel (refinement_append border lines)
  | impl =>
      apply asDeclaration_append
      exact .both (Or.inl ((implementation_append border front).map _))

theorem itemForm_append (border : StartsBorder back) (first : Token) (ended : RowBefore back front) :
    Attempt.Resumes (Keeps back (Severs back front)) (Severs back front)
      (itemForm first (front ++ back)) (itemForm first front) := by
  unfold itemForm
  split
  · rename_i word _
    exact declarationForm_append border word ended.lines
  · rename_i inference _
    exact .read (Or.inl (((inferredFact_append inference border ended).map _).map _))
  · exact .read (Or.inl ⟨rfl, rfl⟩)
  · have form := statementForm_append border first ended
    generalize statementForm first (front ++ back) = wide at form ⊢
    generalize statementForm first front = narrow at form ⊢
    cases form with
    | unknown => exact .unknown
    | refused => exact .refused
    | read same => exact .read (Or.inl (same.map _))
    | fails never => exact False.elim never

theorem item_append (border : StartsBorder back) (first : Token) (ended : RowBefore back front) :
    Keeps back (Severs back front) (item first (front ++ back)) (item first front) := by
  unfold item
  have form := itemForm_append border first ended
  have raw := (rawLine_append border first ended).stamp first
  generalize itemForm first (front ++ back) = wide at form ⊢
  generalize itemForm first front = narrow at form ⊢
  cases form with
  | unknown => exact Or.inl (raw.map _)
  | refused => exact Or.inl (raw.map _)
  | @read wide narrow same =>
      rcases same with further | ⟨cause, kept⟩
      · left
        refine ⟨?_, further.rest⟩
        have span := through_append first front narrow.rest back
        rw [← further.rest] at span
        simp only [Reading.value_map, further.value, span]
      · exact Or.inr ⟨cause, kept⟩
  | fails cause =>
      refine Or.inr ⟨cause, ?_⟩
      exact ⟨_, raw.rest.symm⟩

/-- An item leaves the border and the tokens behind it, after some of those before it. -/
theorem item_leaves (border : StartsBorder back) (first : Token) (ended : RowBefore back front) :
    ∃ left, (item first (front ++ back)).rest = left ++ back ∧ left <:+ front := by
  have kept : back <:+ (item first (front ++ back)).rest := by
    rcases item_append border first ended with same | ⟨_, kept⟩
    · rw [same.rest]
      exact List.suffix_append _ back
    · exact kept
  obtain ⟨left, same⟩ := kept
  obtain ⟨before, split⟩ := (item first (front ++ back)).suffix
  rw [← same, ← List.append_assoc] at split
  exact ⟨left, same.symm, before, List.append_cancel_right split⟩

/-! ### The loop over items -/

theorem items_trivia {first : Token} (trivia : first.isTrivia = true) (rest : List Token) :
    items (first :: rest) = (items rest).widen (List.suffix_cons _ _) := by
  rw [items, if_pos trivia]

theorem items_atMark {first : Token} (ends : first.kind = .eof) (rest : List Token) :
    items (first :: rest) = .nothing ([], []) := by
  have plain : ¬ first.isTrivia = true := by
    rw [isTrivia, ends]
    decide
  rw [items, if_neg plain, if_pos ends]

theorem items_plain {first : Token} (plain : ¬ first.isTrivia = true)
    (unmarked : first.kind ≠ .eof) (rest : List Token) :
    (items (first :: rest)).value = ((item first rest).value.1 ::
        (items (item first rest).rest).value.1,
      (item first rest).value.2 ++ (items (item first rest).rest).value.2) ∧
      (items (first :: rest)).rest = (items (item first rest).rest).rest := by
  rw [items, if_neg plain, if_neg unmarked]
  exact ⟨rfl, rfl⟩

/-- The loop goes on until the reader stands at an end mark or the list is used up. -/
theorem items_atEnd (tokens : List Token) : AtEnd (items tokens).rest := by
  induction tokens using items.induct with
  | case1 =>
      rw [items]
      exact Or.inl rfl
  | case2 first rest trivia ih =>
      rw [items_trivia trivia]
      exact ih
  | case3 first rest plain ends =>
      rw [items_atMark ends]
      exact atEnd_cons ends rest
  | case4 first rest plain unmarked one ih =>
      rw [(items_plain plain unmarked rest).2]
      exact ih

/-! ### Up to an end mark -/

theorem Keeps.extends (marked : StartsMark back) {α : Type} {long short tokens : List Token}
    {wide : Reading α long} {narrow : Reading α short}
    (same : Keeps back (Severs back tokens) wide narrow) : Extends back wide narrow := by
  rcases same with further | ⟨⟨cuts, _⟩, _⟩
  · exact further
  · exact False.elim (marked.not_cut cuts)

theorem item_mark (marked : StartsMark back) (first : Token) (front : List Token) :
    Extends back (item first (front ++ back)) (item first front) :=
  (item_append marked.border first (marked.row front)).extends marked

/-- The items in front of an end mark do not depend on it, and the reader stops
there. -/
theorem items_mark (marked : StartsMark back) (front : List Token) :
    Extends back (items (front ++ back)) (items front) := by
  -- The induction is on the length: an item may leave any later part of the tokens.
  induction size : front.length using Nat.strongRecOn generalizing front with
  | ind length ih =>
      cases front with
      | nil =>
          obtain ⟨mark, later, rfl, ends⟩ := marked
          rw [List.nil_append, items_atMark ends, items]
          exact ⟨rfl, rfl⟩
      | cons first rest =>
          rw [List.length_cons] at size
          by_cases trivia : first.isTrivia = true
          · rw [List.cons_append, items_trivia trivia, items_trivia trivia]
            exact (ih rest.length (by omega) rest rfl).widen _ _
          · by_cases ends : first.kind = .eof
            · rw [List.cons_append, items_atMark ends, items_atMark ends]
              exact ⟨rfl, rfl⟩
            · have here := item_mark marked first rest
              have shorter := (item first rest).length_le
              have later := ih (item first rest).rest.length (by omega) _ rfl
              rw [← here.rest] at later
              obtain ⟨wideValue, wideRest⟩ := items_plain trivia ends (rest ++ back)
              obtain ⟨value, left⟩ := items_plain trivia ends rest
              rw [List.cons_append]
              refine ⟨?_, ?_⟩
              · rw [wideValue, value, here.value, later.value]
              · rw [wideRest, left, later.rest]

/-! ### Up to a cut -/

theorem items_cut (cuts : StartsCut back) (lines : LinesBefore back front)
    (unmarked : ∀ token ∈ front, token.kind ≠ .eof) :
    ∃ before, (items (front ++ back)).value.1 = before ++ (items back).value.1 := by
  induction size : front.length using Nat.strongRecOn generalizing front with
  | ind length ih =>
      cases front with
      | nil => exact ⟨[], rfl⟩
      | cons first rest =>
          have ahead := List.suffix_cons first rest
          rw [List.length_cons] at size
          by_cases trivia : first.isTrivia = true
          · rw [List.cons_append, items_trivia trivia]
            exact ih rest.length (by omega) (lines.of_suffix ahead)
              (fun token member => unmarked token (ahead.subset member)) rfl
          · obtain ⟨left, same, within⟩ :=
              item_leaves cuts.border first (lines.row_of_plain trivia)
            have shorter := within.length_le
            obtain ⟨before, found⟩ := ih left.length (by omega)
              (lines.of_suffix (within.trans ahead))
              (fun token member => unmarked token ((within.trans ahead).subset member)) rfl
            have plain := items_plain trivia (unmarked first List.mem_cons_self) (rest ++ back)
            rw [List.cons_append, plain.1, same, found]
            exact ⟨_ :: before, rfl⟩

theorem items_append (cuts : StartsCut back) (lines : LinesBefore back front)
    (unmarked : ∀ token ∈ front, token.kind ≠ .eof) (closed : ¬ LeavesOpen front) :
    (items (front ++ back)).value.1 = (items front).value.1 ++ (items back).value.1 := by
  induction size : front.length using Nat.strongRecOn generalizing front with
  | ind length ih =>
      cases front with
      | nil =>
          rw [items]
          rfl
      | cons first rest =>
          have ahead := List.suffix_cons first rest
          have inner : ¬ LeavesOpen rest := fun unclosed => closed (unclosed.of_suffix ahead)
          rw [List.length_cons] at size
          by_cases trivia : first.isTrivia = true
          · rw [List.cons_append, items_trivia trivia, items_trivia trivia]
            exact ih rest.length (by omega) (lines.of_suffix ahead)
              (fun token member => unmarked token (ahead.subset member)) inner rfl
          · rcases item_append cuts.border first (lines.row_of_plain trivia) with
              same | ⟨⟨_, unclosed⟩, _⟩
            · have within := (item first rest).suffix
              have shorter := within.length_le
              have later := ih (item first rest).rest.length (by omega)
                (lines.of_suffix (within.trans ahead))
                (fun token member => unmarked token ((within.trans ahead).subset member))
                (fun unclosed => inner (unclosed.of_suffix within)) rfl
              have plain := items_plain trivia (unmarked first List.mem_cons_self)
              rw [List.cons_append, (plain (rest ++ back)).1, (plain rest).1, same.value, same.rest,
                later]
              rfl
            · exact False.elim (inner unclosed)

/-! ### Documents -/

/-- A document is read from the tokens in front of the first end mark, and ends with
the mark. -/
theorem ofTokens_eq {tokens before later : List Token} {file : Option String} {mark : Token}
    (split : closed file tokens = before ++ mark :: later) (ends : mark.kind = .eof)
    (unmarked : ∀ token ∈ before, token.kind ≠ .eof) :
    Document.ofTokens tokens file =
      { body := (items before).value.1
        span := ⟨nameOf file (closed file tokens), .first, mark.span.stop⟩ } := by
  have same := items_mark ⟨mark, later, rfl, ends⟩ before
  have left : (items before).rest = [] := by
    rcases items_atEnd before with empty | ⟨other, behind, found, marked⟩
    · exact empty
    · have member : other ∈ before := (items before).suffix.subset (by rw [found]; simp)
      exact False.elim (unmarked other member marked)
  have value := same.value
  have rest := same.rest
  rw [← split] at value rest
  simp only [Document.ofTokens, value, rest, left]
  rfl

theorem body_ofTokens (tokens : List Token) (file : Option String) :
    (Document.ofTokens tokens file).body = (items (beforeEnd tokens)).value.1 := by
  obtain ⟨mark, later, split, ends⟩ := closed_split file tokens
  rw [ofTokens_eq split ends fun _ => kind_ne_eof_of_mem_beforeEnd]

theorem recoveries_eq (tokens : List Token) :
    Document.recoveries tokens = (items (beforeEnd tokens)).value.2 := by
  obtain ⟨mark, later, split, ends⟩ := closed_split none tokens
  rw [Document.recoveries, split, (items_mark ⟨mark, later, rfl, ends⟩ _).value]

theorem startsCut_beforeEnd (cuts : StartsCut back) : StartsCut (beforeEnd back) := by
  obtain ⟨cut, later, rfl, opens⟩ := cuts
  have unmarked : cut.kind ≠ .eof := by
    intro mark
    rw [mark] at opens
    cases opens
  have going : (cut.kind != .eof) = true := bne_iff_ne.mpr unmarked
  refine ⟨cut, beforeEnd later, ?_, opens⟩
  simp only [beforeEnd, List.takeWhile_cons, going, if_true]

/-- A cut at the start of a line divides the document, and where no brace is left
open before it, the lines before it are read as a document of their own. -/
theorem ofTokens_cut (front back : List Token) (file : Option String)
    (unmarked : ∀ token ∈ front, token.kind ≠ .eof) (whole : WholeLines front)
    (cuts : StartsCut back) :
    (∃ before, (Document.ofTokens (front ++ back) file).body =
        before ++ (Document.ofTokens back file).body) ∧
      (bracesClose front = true → (Document.ofTokens (front ++ back) file).body =
        (Document.ofTokens front file).body ++ (Document.ofTokens back file).body) := by
  have behind := startsCut_beforeEnd cuts
  rw [body_ofTokens, body_ofTokens, body_ofTokens, beforeEnd_append unmarked,
    beforeEnd_unmarked unmarked]
  constructor
  · exact items_cut behind (fun _ => whole) unmarked
  · intro closed
    exact items_append behind (fun _ => whole) unmarked (not_leavesOpen closed)

def emptyTypeLine : List Token :=
  [(Kind.declare .type, "@type"), (.identifier, "T"), (.assign, "="), (.lbrace, "\x7b"),
    (.rbrace, "\x7d"), (.newline, "\n")].map fun (kind, value) =>
      ⟨kind, value, ⟨"<input>", .first, .first⟩⟩

def moduleLine : List Token :=
  [(Kind.declare .mod, "@mod"), (.identifier, "M"), (.eof, "")].map fun (kind, value) =>
    ⟨kind, value, ⟨"<input>", .first, .first⟩⟩

theorem ofTokens_cut_after_type :
    (Document.ofTokens (emptyTypeLine ++ moduleLine) none).body =
      (Document.ofTokens emptyTypeLine none).body ++ (Document.ofTokens moduleLine none).body :=
  (ofTokens_cut emptyTypeLine moduleLine none (by decide) (Or.inr ⟨_, rfl, rfl⟩)
    ⟨_, _, rfl, rfl⟩).2 rfl

end Grammar

end SageNotation
