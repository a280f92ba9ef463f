import SageNotation.Proofs.Prose.Statements

/-!
Declarations, and the strings that are read for them.

The texts of a module, a function, an operation, a specification and an
implementation tell every string among their tokens.  `ComesTo` is the way of the
loop over clauses: each string that the loop reads belongs to a clause it comes
to, and each such clause is among those it gives.
-/

namespace SageNotation

open Token

namespace Grammar

section Parts

variable {tokens : List Token}

theorem typeAfter_tells (texts : List String) {mark : Kind} (other : mark ≠ .string)
    {reading : Reading (Option TypeExpr) tokens} (read : typeAfter mark tokens = some reading) :
    Tells texts (between tokens reading.rest) := by
  unfold typeAfter at read
  split at read
  · cases read
    exact .nothing texts tokens
  · rename_i taken found
    split at read
    · cases read
    · rename_i type typeFound
      cases read
      exact (typeExpr_tells texts typeFound).past_taken found other type.suffix

theorem params_tells (texts : List String) {reading : Reading (List Param) tokens}
    (read : params tokens = some reading) : Tells texts (between tokens reading.rest) := by
  induction tokens using params.induct with
  | case1 =>
      rw [params] at read
      cases read
  | case2 first rest trivia ih =>
      rw [params, if_pos trivia] at read
      obtain ⟨inner, found, same⟩ := Option.map_eq_some_iff.mp read
      subst same
      exact (ih found).past_cons (kind_ne_string_of_isTrivia trivia) inner.suffix
  | case3 first rest plain closing =>
      rw [params, if_neg plain, if_pos closing] at read
      cases read
      exact (Tells.nothing texts rest).past_cons (by rw [closing]; decide) List.suffix_rfl
  | case4 first rest plain open_ name missing =>
      rw [params, if_neg plain, if_neg open_, if_pos name, missing] at read
      cases read
  | case5 first rest plain open_ name type found missing ih =>
      rw [params, if_neg plain, if_neg open_, if_pos name, found] at read
      simp only [missing, reduceCtorEq] at read
  | case6 first rest plain open_ name type found others othersFound ih =>
      rw [params, if_neg plain, if_neg open_, if_pos name, found] at read
      simp only [othersFound] at read
      cases read
      have next := others.suffix.trans (divider_suffix type.rest)
      have whole := (typeAfter_tells texts (by decide) found).trans
        (past_divider (ih othersFound) others.suffix) type.suffix next
      exact whole.past_cons (by rw [name]; decide) (next.trans type.suffix)
  | case7 first rest plain open_ other =>
      rw [params, if_neg plain, if_neg open_, if_neg other] at read
      cases read

theorem paramList_tells (texts : List String) {reading : Reading (List Param) tokens}
    (read : paramList tokens = some reading) : Tells texts (between tokens reading.rest) := by
  unfold paramList at read
  split at read
  · cases read
    exact .nothing texts tokens
  · rename_i opening found
    obtain ⟨inner, innerFound, same⟩ := Option.map_eq_some_iff.mp read
    subst same
    exact (params_tells texts innerFound).past_taken found (by decide) inner.suffix

theorem contracts_tells (tokens : List Token) :
    Tells ((contracts tokens).value.map (·.condition))
      (between tokens (contracts tokens).rest) := by
  induction tokens using contracts.induct with
  | case1 =>
      rw [contracts]
      exact .nothing _ []
  | case2 first rest trivia ih =>
      rw [contracts, if_pos trivia]
      exact ih.past_cons (kind_ne_string_of_isTrivia trivia) (contracts rest).suffix
  | case3 first rest plain other =>
      rw [contracts, if_neg plain, other]
      exact .nothing _ _
  | case4 first rest plain kind known ih =>
      rw [contracts, if_neg plain, known]
      have next := (contracts (afterLine rest)).suffix
      have clause : first.kind ≠ .string := by
        intro string
        rw [string] at known
        cases known
      exact (tells_line ih next).past_cons clause (next.trans (afterLine_suffix rest))

theorem stateFields_tells (texts : List String) {reading : Reading (List StateField) tokens}
    (read : stateFields tokens = some reading) : Tells texts (between tokens reading.rest) := by
  induction tokens using stateFields.induct with
  | case1 =>
      rw [stateFields] at read
      cases read
      exact .nothing texts []
  | case2 first rest trivia ih =>
      rw [stateFields, if_pos trivia] at read
      obtain ⟨inner, found, same⟩ := Option.map_eq_some_iff.mp read
      subst same
      exact (ih found).past_cons (kind_ne_string_of_isTrivia trivia) inner.suffix
  | case3 first rest plain name missing =>
      rw [stateFields, if_neg plain, if_pos name, missing] at read
      cases read
      exact .nothing texts _
  | case4 first rest plain name colon found missing =>
      rw [stateFields, if_neg plain, if_pos name, found] at read
      simp only [missing, reduceCtorEq] at read
  | case5 first rest plain name colon found type typeFound missing ih =>
      rw [stateFields, if_neg plain, if_pos name, found] at read
      simp only [typeFound, missing, reduceCtorEq] at read
  | case6 first rest plain name colon found type typeFound others othersFound ih =>
      rw [stateFields, if_neg plain, if_pos name, found] at read
      simp only [typeFound, othersFound] at read
      cases read
      have behind := others.suffix.trans type.suffix
      have whole := (typeExpr_tells texts typeFound).trans (ih othersFound) type.suffix
        others.suffix
      exact (whole.past_taken found (by decide) behind).past_cons (by rw [name]; decide)
        (behind.trans colon.suffix)
  | case7 first rest plain other =>
      rw [stateFields, if_neg plain, if_neg other] at read
      cases read
      exact .nothing texts _

theorem callable_voices {reading : Reading ((Span → Callable) × List Recovery) tokens}
    (read : callable tokens = some reading) :
    Voices Callable.texts reading.value.1 (between tokens reading.rest) := by
  unfold callable at read
  split at read
  · cases read
  · rename_i name nameFound
    split at read
    · cases read
    · rename_i params paramsFound
      split at read
      · cases read
      · rename_i result resultFound
        cases read
        intro span
        let text := Reading.description result.rest
        let terms := contracts text.rest
        let statements := body terms.rest
        have later := statements.suffix.trans terms.suffix
        have behind := later.trans text.suffix
        have told : Tells (text.value.toList ++ terms.value.map (·.condition) ++
            statements.value.1.flatMap Statement.texts) (between result.rest statements.rest) :=
          ((description_tells result.rest).seq (contracts_tells text.rest) text.suffix
            terms.suffix).seq (body_tells terms.rest) (terms.suffix.trans text.suffix)
            statements.suffix
        -- The header holds no strings.
        have typed := (typeAfter_tells _ (by decide) resultFound).trans told result.suffix behind
        have listed := (paramList_tells _ paramsFound).trans typed params.suffix
          (behind.trans result.suffix)
        exact listed.past_taken nameFound (by decide)
          ((behind.trans result.suffix).trans params.suffix)

theorem moduleDecl_voices {reading : Reading (Span → Declaration) tokens}
    (read : moduleDecl tokens = some reading) :
    Voices Declaration.texts reading.value (between tokens reading.rest) := by
  unfold moduleDecl at read
  split at read
  · cases read
  · rename_i name found
    cases read
    intro span
    exact (description_tells name.rest).past_taken found (by decide)
      (Reading.description name.rest).suffix

theorem typeDecl_voices {reading : Reading (Span → Declaration) tokens}
    (read : typeDecl tokens = some reading) :
    Voices Declaration.texts reading.value (between tokens reading.rest) := by
  unfold typeDecl at read
  split at read
  · cases read
  · rename_i name nameFound
    split at read
    · cases read
    · rename_i assign assignFound
      split at read
      · cases read
      · rename_i opening openingFound
        split at read
        · cases read
        · rename_i fields found
          cases read
          intro span
          have inner : Tells [] (between opening.rest fields.rest) :=
            (readsTypes.2.2 _ fields found).tells []
          have opened := inner.past_taken openingFound (by decide) fields.suffix
          have assigned := opened.past_taken assignFound (by decide)
            (fields.suffix.trans opening.suffix)
          exact assigned.past_taken nameFound (by decide)
            ((fields.suffix.trans opening.suffix).trans assign.suffix)

end Parts

/-! ### Implementations -/

theorem mem_splitOnP {α : Type} {stops : α → Bool} {item : α} {items : List α}
    (member : item ∈ items) (kept : stops item = false) :
    ∃ row ∈ items.splitOnP stops, item ∈ row := by
  induction items with
  | nil => cases member
  | cons first others ih =>
      rw [List.splitOnP_cons_eq_if_modifyHead]
      rcases List.mem_cons.mp member with rfl | later
      · rw [kept]
        cases rows : others.splitOnP stops with
        | nil => exact False.elim (List.splitOnP_ne_nil stops others rows)
        | cons row more => exact ⟨item :: row, List.mem_cons_self, List.mem_cons_self⟩
      · obtain ⟨row, within, here⟩ := ih later
        split
        · exact ⟨row, List.mem_cons_of_mem _ within, here⟩
        · cases rows : others.splitOnP stops with
          | nil => exact False.elim (List.splitOnP_ne_nil stops others rows)
          | cons head more =>
              rw [rows] at within
              rw [List.modifyHead_cons]
              rcases List.mem_cons.mp within with rfl | further
              · exact ⟨first :: row, List.mem_cons_self, List.mem_cons_of_mem _ here⟩
              · exact ⟨row, List.mem_cons_of_mem _ further, here⟩

theorem tells_splitOnP (run : List Token) :
    Tells ((run.splitOnP (·.kind == .newline)).map render) run := by
  intro token member string
  have kept : (token.kind == .newline) = false := by
    rw [string]
    rfl
  obtain ⟨row, within, here⟩ :
      ∃ row ∈ run.splitOnP (fun token : Token => token.kind == .newline), token ∈ row :=
    mem_splitOnP member kept
  obtain ⟨text, same, told⟩ := Tells.of_render row token here string
  rw [List.mem_singleton.mp same] at told
  exact ⟨_, List.mem_map_of_mem within, told⟩

theorem tells_block (belongs : Token → Bool) (tokens : List Token) :
    Tells [Text.trim (String.intercalate "\n"
        (((tokens.takeWhile belongs).splitOnP (·.kind == .newline)).map render))]
      (between tokens (tokens.dropWhile belongs)) := by
  have divided := between_append (tokens.takeWhile belongs) (tokens.dropWhile belongs)
  rw [List.takeWhile_append_dropWhile] at divided
  rw [divided]
  exact ((tells_splitOnP (tokens.takeWhile belongs)).join "\n").trim

theorem implementation_voices (tokens : List Token) :
    Voices Declaration.texts (implementation tokens).value
      (between tokens (implementation tokens).rest) := by
  intro span
  have block := tells_block (fun token => !(endsBody token.kind || token.kind == .comment))
    (skipBlank (dropOne .identifier tokens))
  have behind := List.dropWhile_suffix
    (fun token : Token => !(endsBody token.kind || token.kind == .comment))
    (l := skipBlank (dropOne .identifier tokens))
  exact (block.past_skipBlank behind).past_dropOne (by decide) (behind.trans (skipBlank_suffix _))

/-! ### Clauses -/

section Clauses

variable {γ : Type} {form : List γ → Token → (tokens : List Token) → Attempt (Span → γ) tokens}

/-- The loop over clauses comes to a clause that starts with `first`: these clauses
have been read before it, and these tokens stand behind `first`. -/
inductive ComesTo (form : List γ → Token → (tokens : List Token) → Attempt (Span → γ) tokens) :
    List γ → List Token → List γ → Token → List Token → Prop where
  | here {earlier : List γ} {first : Token} {rest : List Token} (plain : first.isTrivia = false) :
      ComesTo form earlier (first :: rest) earlier first rest
  | blank {earlier before : List γ} {skipped first : Token} {tokens rest : List Token}
      (trivia : skipped.isTrivia = true) (further : ComesTo form earlier tokens before first rest) :
      ComesTo form earlier (skipped :: tokens) before first rest
  | next {earlier before : List γ} {opening first : Token} {tokens rest : List Token}
      {reading : Reading (Span → γ) tokens} (plain : opening.isTrivia = false)
      (read : form earlier opening tokens = .read reading)
      (further : ComesTo form ((reading.stamp opening).value :: earlier) reading.rest before first
        rest) : ComesTo form earlier (opening :: tokens) before first rest

variable {earlier before : List γ} {first : Token} {tokens rest : List Token}

theorem ComesTo.suffix (comes : ComesTo form earlier tokens before first rest) :
    first :: rest <:+ tokens := by
  induction comes with
  | here => exact List.suffix_rfl
  | blank _ _ ih => exact suffix_cons_of_suffix _ ih
  | next _ _ _ ih => exact suffix_cons_of_suffix _ (ih.trans (Reading.suffix _))

/-- Behind a clause that it reads, the loop goes on as it would from there. -/
theorem ComesTo.trans {later : List γ} {other : Token} {left : List Token}
    {reading : Reading (Span → γ) rest} (comes : ComesTo form earlier tokens before first rest)
    (read : form before first rest = .read reading)
    (further : ComesTo form ((reading.stamp first).value :: before) reading.rest later other left) :
    ComesTo form earlier tokens later other left := by
  induction comes with
  | here plain => exact .next plain read further
  | blank trivia _ ih => exact .blank trivia (ih read further)
  | next plain found _ ih => exact .next plain found (ih read further)

theorem clauses_of_comesTo {reading : Reading (Span → γ) rest}
    (comes : ComesTo form earlier tokens before first rest)
    (read : form before first rest = .read reading) :
    (clauses form earlier tokens).value =
      (clauses form ((reading.stamp first).value :: before) reading.rest).value := by
  induction comes with
  | here plain => rw [clauses, if_neg (ne_true_of_eq_false plain), read, Reading.value_widen]
  | blank trivia _ ih => rw [clauses, if_pos trivia, Reading.value_widen, ih read]
  | next plain found _ ih =>
      rw [clauses, if_neg (ne_true_of_eq_false plain), found, Reading.value_widen, ih read]

theorem exists_clause_of_mem (earlier : List γ) (tokens : List Token) {token : Token}
    (member : token ∈ between tokens (clauses form earlier tokens).rest)
    (string : token.kind = .string) :
    ∃ before first rest, ∃ reading : Reading (Span → γ) rest,
      ComesTo form earlier tokens before first rest ∧ form before first rest = .read reading ∧
        token ∈ first :: between rest reading.rest := by
  induction earlier, tokens using clauses.induct form with
  | case1 earlier =>
      rw [clauses] at member
      cases member
  | case2 earlier first rest trivia ih =>
      rw [clauses, if_pos trivia] at member
      have later := mem_past_cons member string (kind_ne_string_of_isTrivia trivia)
        (clauses form earlier rest).suffix
      obtain ⟨before, opening, behind, reading, comes, found, within⟩ := ih later
      exact ⟨before, opening, behind, reading, .blank trivia comes, found, within⟩
  | case3 earlier first rest plain unknown =>
      rw [clauses, if_neg plain, unknown] at member
      exact False.elim (List.not_mem_nil (between_self _ ▸ member))
  | case4 earlier first rest plain refused =>
      rw [clauses, if_neg plain, refused] at member
      exact False.elim (List.not_mem_nil (between_self _ ▸ member))
  | case5 earlier first rest plain reading read ih =>
      have shown := eq_false_of_ne_true plain
      have next := (clauses form ((reading.stamp first).value :: earlier) reading.rest).suffix
      rw [clauses, if_neg plain, read, Reading.rest_widen,
        between_trans (suffix_cons_of_suffix first reading.suffix) next,
        between_cons reading.suffix] at member
      -- The string belongs to the clause that is read here or to one behind it.
      rcases List.mem_append.mp member with here | later
      · exact ⟨earlier, first, rest, reading, .here shown, read, here⟩
      · obtain ⟨before, opening, behind, inner, comes, found, within⟩ := ih later
        exact ⟨before, opening, behind, inner, .next shown read comes, found, within⟩

/-- The clauses of the loop are those it had and those it comes to and reads. -/
theorem clauses_newer (form : List γ → Token → (tokens : List Token) → Attempt (Span → γ) tokens)
    (earlier : List γ) (tokens : List Token) :
    ∃ newer, (clauses form earlier tokens).value.1 = earlier.reverse ++ newer ∧
      ∀ clause ∈ newer, ∃ before first rest, ∃ reading : Reading (Span → γ) rest,
        ComesTo form earlier tokens before first rest ∧ form before first rest = .read reading ∧
          clause = (reading.stamp first).value := by
  induction earlier, tokens using clauses.induct form with
  | case1 earlier =>
      rw [clauses]
      exact ⟨[], (List.append_nil _).symm, fun _ member => by cases member⟩
  | case2 earlier first rest trivia ih =>
      rw [clauses, if_pos trivia]
      obtain ⟨newer, same, each⟩ := ih
      refine ⟨newer, same, ?_⟩
      intro clause member
      obtain ⟨before, opening, behind, reading, comes, found, value⟩ := each clause member
      exact ⟨before, opening, behind, reading, .blank trivia comes, found, value⟩
  | case3 earlier first rest plain unknown =>
      rw [clauses, if_neg plain, unknown]
      exact ⟨[], (List.append_nil _).symm, fun _ member => by cases member⟩
  | case4 earlier first rest plain refused =>
      rw [clauses, if_neg plain, refused]
      exact ⟨[], (List.append_nil _).symm, fun _ member => by cases member⟩
  | case5 earlier first rest plain reading read ih =>
      have shown := eq_false_of_ne_true plain
      rw [clauses, if_neg plain, read]
      obtain ⟨newer, same, each⟩ := ih
      refine ⟨(reading.stamp first).value :: newer, ?_, ?_⟩
      · rw [Reading.value_widen, same, List.reverse_cons, List.append_assoc]
        rfl
      · intro clause member
        rcases List.mem_cons.mp member with rfl | later
        · exact ⟨earlier, first, rest, reading, .here shown, read, rfl⟩
        · obtain ⟨before, opening, behind, inner, comes, found, value⟩ := each clause later
          exact ⟨before, opening, behind, inner, .next shown read comes, found, value⟩

/-- Around a clause that the loop comes to and reads stand the clauses before it and
those that the loop comes to further on. -/
theorem clauses_around {reading : Reading (Span → γ) rest}
    (comes : ComesTo form earlier tokens before first rest)
    (read : form before first rest = .read reading) :
    ∃ newer, (clauses form earlier tokens).value.1 =
        before.reverse ++ (reading.stamp first).value :: newer ∧
      ∀ clause ∈ newer, ∃ later other left, ∃ further : Reading (Span → γ) left,
        ComesTo form earlier tokens later other left ∧ other :: left <:+ reading.rest ∧
          form later other left = .read further ∧ clause = (further.stamp other).value := by
  obtain ⟨newer, same, each⟩ :=
    clauses_newer form ((reading.stamp first).value :: before) reading.rest
  refine ⟨newer, ?_, ?_⟩
  · rw [clauses_of_comesTo comes read, same, List.reverse_cons, List.append_assoc]
    rfl
  · intro clause member
    obtain ⟨later, other, left, further, reached, found, value⟩ := each clause member
    exact ⟨later, other, left, further, comes.trans read reached, reached.suffix, found, value⟩

end Clauses

/-! ### Specifications -/

def SpecClause.texts : SpecClause → List String
  | .property node => [node.description]
  | .state _ => []
  | .invariant node => [node.expression]

theorem invariant_voices (tokens : List Token) :
    Voices (fun node : Invariant => [node.expression]) (invariant tokens).value
      (between tokens (invariant tokens).rest) := by
  intro span
  have next := (followingLines continuesInvariant (afterLine tokens)).suffix
  have rows := tells_line (followingLines_tells continuesInvariant (afterLine tokens)) next
  exact (tells_joinNonempty rows " ").trim

theorem specClause_voices {earlier : List SpecClause} {first : Token} {tokens : List Token}
    {reading : Reading (Span → SpecClause) tokens}
    (read : specClause earlier first tokens = .read reading) :
    Voices SpecClause.texts reading.value (first :: between tokens reading.rest) := by
  intro span
  unfold specClause at read
  split at read
  · rename_i kind
    cases read
    exact (stringOrLine_tells tokens).cons (by rw [kind]; decide)
  · rename_i kind
    obtain ⟨inner, found, same⟩ := Option.map_eq_some_iff.mp (Attempt.eq_some_of_ofOption read)
    subst same
    exact (stateFields_tells [] found).cons (by rw [kind]; decide)
  · rename_i kind
    cases read
    exact (invariant_voices tokens span).cons (by rw [kind]; decide)
  · cases read

theorem specClauses_tell (tokens : List Token) :
    Tells ((clauses specClause [] tokens).value.1.flatMap SpecClause.texts)
      (between tokens (clauses specClause [] tokens).rest) := by
  intro token member string
  obtain ⟨before, first, rest, reading, comes, read, within⟩ :=
    exists_clause_of_mem [] tokens member string
  obtain ⟨text, listed, told⟩ :=
    specClause_voices read (first.through rest reading.rest) token within string
  obtain ⟨newer, around, _⟩ := clauses_around comes read
  refine ⟨text, List.mem_flatMap.mpr ⟨_, ?_, listed⟩, told⟩
  rw [around]
  exact List.mem_append_right _ List.mem_cons_self

theorem mem_specTexts {parts : List SpecClause} {content : String}
    (member : content ∈ parts.flatMap SpecClause.texts) :
    content ∈ (parts.filterMap SpecClause.property?).map (·.description) ++
      (parts.filterMap SpecClause.invariant?).map (·.expression) := by
  obtain ⟨clause, listed, own⟩ := List.mem_flatMap.mp member
  cases clause with
  | property node =>
      rw [List.mem_singleton.mp own]
      exact List.mem_append_left _
        (List.mem_map_of_mem (List.mem_filterMap.mpr ⟨_, listed, rfl⟩))
  | state fields => cases own
  | invariant node =>
      rw [List.mem_singleton.mp own]
      exact List.mem_append_right _
        (List.mem_map_of_mem (List.mem_filterMap.mpr ⟨_, listed, rfl⟩))

theorem specDecl_voices {tokens : List Token}
    {reading : Reading ((Span → Declaration) × List Recovery) tokens}
    (read : specDecl tokens = some reading) :
    Voices Declaration.texts reading.value.1 (between tokens reading.rest) := by
  unfold specDecl at read
  split at read
  · cases read
  · rename_i name found
    cases read
    intro span
    have later := (clauses specClause [] (Reading.description name.rest).rest).suffix
    have behind := later.trans (Reading.description name.rest).suffix
    have told := (description_tells name.rest).seq
      (specClauses_tell (Reading.description name.rest).rest) (Reading.description name.rest).suffix
      later
    refine Tells.past_taken (told.mono ?_) found (by decide) behind
    intro content member
    simp only [Declaration.texts, List.append_assoc]
    rcases List.mem_append.mp member with described | listed
    · exact List.mem_append_left _ described
    · exact List.mem_append_right _ (mem_specTexts listed)

end Grammar

end SageNotation
