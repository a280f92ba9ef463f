import SageNotation.Diagnostic.Finding
import SageNotation.Proofs.Grammar.Progress

/-!
Where declarations and their parts come from.

A declaration is read by one routine right behind its keyword (`declared_of_item`).
A part stems from a run of tokens when it was read at one of them.  Each loop of
the reader is taken apart once, so that `stemming_of_mem_parse` names, for every
part of a declaration, the token at which it starts and what was read there.
-/

namespace SageNotation

open Token

structure Entry where
  part : NamedPart
  name : String
  span : Span

def Field.entry (field : Field) : Entry :=
  ⟨.field, field.name, field.span⟩

def Param.entry (param : Param) : Entry :=
  ⟨.parameter, param.name, param.span⟩

def StateField.entry (field : StateField) : Entry :=
  ⟨.stateField, field.name, field.span⟩

namespace Declaration

def entries : Declaration → List Entry
  | type decl => decl.fields.map Field.entry
  | function decl | operation decl => decl.params.map Param.entry
  | spec decl => decl.state.map StateField.entry
  | refinement decl => decl.state.map StateField.entry
  | module _ | implementation _ => []

def contracts : Declaration → List Contract
  | function decl | operation decl => decl.contracts
  | _ => []

def statements : Declaration → List Statement
  | function decl | operation decl => decl.body
  | _ => []

def invariants : Declaration → List Invariant
  | spec decl => decl.invariants
  | _ => []

def word : Declaration → DeclareWord
  | module _ => .mod
  | type _ => .type
  | function _ => .fn
  | spec _ => .spec
  | operation _ => .op
  | refinement _ => .refine
  | implementation _ => .impl

end Declaration

namespace Grammar

/-! ### Behind the keyword of a declaration -/

def declared (word : DeclareWord) (tokens : List Token) :
    Option (Reading ((Span → Declaration) × List Recovery) tokens) :=
  match word with
  | .mod => (moduleDecl tokens).map plainly
  | .type => (typeDecl tokens).map plainly
  | .fn => (callable tokens).map (·.map fun result =>
      (fun span => .function (result.1 span), result.2))
  | .spec => specDecl tokens
  | .op => (callable tokens).map (·.map fun result =>
      (fun span => .operation (result.1 span), result.2))
  | .refine => refinement tokens
  | .impl => some (plainly (implementation tokens))

theorem declarationForm_eq (word : DeclareWord) (tokens : List Token) :
    declarationForm word tokens = asDeclaration (declared word tokens) := by
  cases word <;> rfl

/-- An item that is a declaration starts with a declaring word, and is what this word
opens, from the word to the last token read for it. -/
theorem declared_of_item {first : Token} {rest : List Token} {decl : Declaration}
    (same : (item first rest).value.1 = .declaration decl) :
    ∃ word reading, first.kind = .declare word ∧ declared word rest = some reading ∧
      decl = reading.value.1 (first.through rest reading.rest) := by
  unfold item at same
  split at same
  · rename_i reading read
    unfold itemForm at read
    split at read
    · rename_i word kind
      rw [declarationForm_eq] at read
      obtain ⟨inner, found, changed⟩ := Attempt.exists_of_map read
      rw [← changed] at same
      exact ⟨word, inner, kind, Attempt.eq_some_of_ofOption found, (Item.declaration.inj same).symm⟩
    · cases read
      cases same
    · cases read
      cases same
    · obtain ⟨inner, _, changed⟩ := Attempt.exists_of_map read
      rw [← changed] at same
      cases same
  · cases same
  · cases same

theorem word_of_declared {word : DeclareWord} {tokens : List Token}
    {reading : Reading ((Span → Declaration) × List Recovery) tokens}
    (read : declared word tokens = some reading) (span : Span) :
    (reading.value.1 span).word = word := by
  cases word with
  | mod =>
      obtain ⟨inner, found, rfl⟩ := Option.map_eq_some_iff.mp read
      unfold moduleDecl at found
      split at found <;> cases found
      rfl
  | type =>
      obtain ⟨inner, found, rfl⟩ := Option.map_eq_some_iff.mp read
      unfold typeDecl at found
      repeat' split at found
      all_goals cases found
      rfl
  | fn | op =>
      obtain ⟨inner, found, rfl⟩ := Option.map_eq_some_iff.mp read
      rfl
  | spec =>
      change specDecl tokens = some reading at read
      unfold specDecl at read
      split at read <;> cases read
      rfl
  | refine =>
      change refinement tokens = some reading at read
      unfold refinement at read
      repeat' split at read
      all_goals cases read
      rfl
  | impl =>
      cases read
      rfl

/-! ### Stemming from a run -/

/-- A part that was read at a token of the run. -/
def Stems {α : Type} (origin : Token → List Token → α → Prop) (tokens : List Token) (part : α) :
    Prop :=
  ∃ first rest, first :: rest <:+ tokens ∧ origin first rest part

theorem Stems.widen {α : Type} {origin : Token → List Token → α → Prop}
    {tokens larger : List Token} {part : α} (stems : Stems origin tokens part)
    (ahead : tokens <:+ larger) : Stems origin larger part := by
  obtain ⟨first, rest, inner, here⟩ := stems
  exact ⟨first, rest, inner.trans ahead, here⟩

/-- A span from a token that is neither newline nor comment through a run after it. -/
def Spanned (first : Token) (rest : List Token) (span : Span) : Prop :=
  first.isTrivia = false ∧ ∃ left, left <:+ rest ∧ span = first.through rest left

def NamedAt (first : Token) (rest : List Token) (entry : Entry) : Prop :=
  first.kind = .identifier ∧ entry.name = first.value ∧
    ∃ left, left <:+ rest ∧ entry.span = first.through rest left

def ContractAt (first : Token) (rest : List Token) (contract : Contract) : Prop :=
  contractKind? first.kind = some contract.kind ∧ contract.condition = render (line rest) ∧
    contract.span = first.through rest (afterLine rest)

def StatementAt (first : Token) (rest : List Token) (node : Statement) : Prop :=
  first.isTrivia = false ∧ (statement first rest).value.1 = node

def InvariantAt (first : Token) (rest : List Token) (node : Invariant) : Prop :=
  first.kind = .clause .invariant ∧
    node = (invariant rest).value (first.through rest (invariant rest).rest)

theorem NamedAt.spanned {first : Token} {rest : List Token} {entry : Entry}
    (named : NamedAt first rest entry) : Spanned first rest entry.span :=
  ⟨isTrivia_of_kind named.1 rfl, named.2.2⟩

theorem isTrivia_of_contractKind? {token : Token} {kind : ContractKind}
    (known : contractKind? token.kind = some kind) : token.isTrivia = false := by
  unfold contractKind? at known
  split at known
  · rename_i word
    exact isTrivia_of_kind word rfl
  · rename_i word
    exact isTrivia_of_kind word rfl
  · cases known

theorem ContractAt.spanned {first : Token} {rest : List Token} {contract : Contract}
    (here : ContractAt first rest contract) : Spanned first rest contract.span :=
  ⟨isTrivia_of_contractKind? here.1, afterLine rest, afterLine_suffix rest, here.2.2⟩

theorem StatementAt.spanned {first : Token} {rest : List Token} {node : Statement}
    (here : StatementAt first rest node) : Spanned first rest node.span := by
  refine ⟨here.1, (statement first rest).rest, (statement first rest).suffix, ?_⟩
  rw [← here.2, statement_span]

theorem spanned_item {first : Token} (plain : first.isTrivia = false) (rest : List Token)
    {span : Span} (stamped : (item first rest).value.1.span? = some span) :
    Spanned first rest span := by
  rw [item_stamped] at stamped
  exact ⟨plain, (item first rest).rest, (item first rest).suffix, (Option.some.inj stamped).symm⟩

/-! ### Loops -/

section Loops

variable {tokens : List Token}

theorem ReadsFields.stem : ∀ {tokens : List Token} {fields : List Field} {left : List Token},
    ReadsFields tokens fields left → ∀ field ∈ fields, Stems NamedAt tokens field.entry
  | _, _, _, .ended _, _, member => by cases member
  | _, _, _, .blank _ others, part, member =>
      (others.stem part member).widen (List.suffix_cons _ _)
  | _, _, _, .closed _, _, member => by cases member
  | _, _, _, .elided _ _ _, _, member => by cases member
  | _, _, _, .field colon name _ inner others, part, member => by
      have typed := suffix_cons_of_suffix colon inner.suffix
      rcases List.mem_cons.mp member with rfl | later
      · exact ⟨_, _, List.suffix_rfl, name, rfl, _, typed, rfl⟩
      · refine (others.stem part later).widen ?_
        exact suffix_cons_of_suffix _ ((divider_suffix _).trans typed)

theorem params_stem {reading : Reading (List Param) tokens} (read : params tokens = some reading) :
    ∀ param ∈ reading.value, Stems NamedAt tokens param.entry := by
  induction tokens using params.induct with
  | case1 =>
      rw [params] at read
      cases read
  | case2 first rest trivia ih =>
      rw [params, if_pos trivia] at read
      obtain ⟨inner, found, same⟩ := Option.map_eq_some_iff.mp read
      subst same
      exact fun param member => (ih found param member).widen (List.suffix_cons _ _)
  | case3 first rest plain closing =>
      rw [params, if_neg plain, if_pos closing] at read
      cases read
      exact fun param member => by cases member
  | case4 first rest plain open_ name missing =>
      rw [params, if_neg plain, if_neg open_, if_pos name, missing] at read
      cases read
  | case5 first rest plain open_ name type found missing ih =>
      rw [params, if_neg plain, if_neg open_, if_pos name, found] at read
      simp only [missing, reduceCtorEq] at read
  | case6 first rest plain open_ name type found others othersFound ih =>
      rw [params, if_neg plain, if_neg open_, if_pos name, found] at read
      simp only [othersFound] at read
      cases read
      intro param member
      rcases List.mem_cons.mp member with rfl | later
      · exact ⟨first, rest, List.suffix_rfl, name, rfl, type.rest, type.suffix, rfl⟩
      · refine (ih othersFound param later).widen ?_
        exact suffix_cons_of_suffix first ((divider_suffix _).trans type.suffix)
  | case7 first rest plain open_ other =>
      rw [params, if_neg plain, if_neg open_, if_neg other] at read
      cases read

theorem paramList_stem {reading : Reading (List Param) tokens}
    (read : paramList tokens = some reading) :
    ∀ param ∈ reading.value, Stems NamedAt tokens param.entry := by
  unfold paramList at read
  split at read
  · cases read
    exact fun param member => by cases member
  · rename_i opening _
    obtain ⟨inner, found, same⟩ := Option.map_eq_some_iff.mp read
    subst same
    exact fun param member => (params_stem found param member).widen opening.suffix

theorem stateFields_stem {reading : Reading (List StateField) tokens}
    (read : stateFields tokens = some reading) :
    ∀ field ∈ reading.value, Stems NamedAt tokens field.entry := by
  induction tokens using stateFields.induct with
  | case1 =>
      rw [stateFields] at read
      cases read
      exact fun field member => by cases member
  | case2 first rest trivia ih =>
      rw [stateFields, if_pos trivia] at read
      obtain ⟨inner, found, same⟩ := Option.map_eq_some_iff.mp read
      subst same
      exact fun field member => (ih found field member).widen (List.suffix_cons _ _)
  | case3 first rest plain name missing =>
      rw [stateFields, if_neg plain, if_pos name, missing] at read
      cases read
      exact fun field member => by cases member
  | case4 first rest plain name colon found missing =>
      rw [stateFields, if_neg plain, if_pos name, found] at read
      simp only [missing, reduceCtorEq] at read
  | case5 first rest plain name colon found type typeFound missing ih =>
      rw [stateFields, if_neg plain, if_pos name, found] at read
      simp only [typeFound, missing, reduceCtorEq] at read
  | case6 first rest plain name colon found type typeFound others othersFound ih =>
      rw [stateFields, if_neg plain, if_pos name, found] at read
      simp only [typeFound, othersFound] at read
      cases read
      have typed := type.suffix.trans colon.suffix
      intro field member
      rcases List.mem_cons.mp member with rfl | later
      · exact ⟨first, rest, List.suffix_rfl, name, rfl, type.rest, typed, rfl⟩
      · exact (ih othersFound field later).widen (suffix_cons_of_suffix first typed)
  | case7 first rest plain other =>
      rw [stateFields, if_neg plain, if_neg other] at read
      cases read
      exact fun field member => by cases member

theorem contracts_stem (tokens : List Token) :
    ∀ contract ∈ (contracts tokens).value, Stems ContractAt tokens contract := by
  induction tokens using contracts.induct with
  | case1 =>
      rw [contracts]
      exact fun contract member => by cases member
  | case2 first rest trivia ih =>
      rw [contracts, if_pos trivia]
      exact fun contract member => (ih contract member).widen (List.suffix_cons _ _)
  | case3 first rest plain other =>
      rw [contracts, if_neg plain, other]
      exact fun contract member => by cases member
  | case4 first rest plain kind known ih =>
      rw [contracts, if_neg plain, known]
      intro contract member
      rcases List.mem_cons.mp member with rfl | later
      · exact ⟨first, rest, List.suffix_rfl, known, rfl, rfl⟩
      · exact (ih contract later).widen (suffix_cons_of_suffix first (afterLine_suffix rest))

theorem body_stem (tokens : List Token) :
    ∀ node ∈ (body tokens).value.1, Stems StatementAt tokens node := by
  induction tokens using body.induct with
  | case1 =>
      rw [body]
      exact fun node member => by cases member
  | case2 first rest trivia ih =>
      rw [body, if_pos trivia]
      exact fun node member => (ih node member).widen (List.suffix_cons _ _)
  | case3 first rest plain ending =>
      rw [body, if_neg plain, if_pos ending]
      exact fun node member => by cases member
  | case4 first rest plain going one ih =>
      rw [body, if_neg plain, if_neg going]
      intro node member
      rcases List.mem_cons.mp member with rfl | later
      · exact ⟨first, rest, List.suffix_rfl, eq_false_of_ne_true plain, rfl⟩
      · exact (ih node later).widen (suffix_cons_of_suffix first one.suffix)

def ClauseAt {γ : Type} (form : List γ → Token → (tokens : List Token) → Attempt (Span → γ) tokens)
    (first : Token) (rest : List Token) (clause : γ) : Prop :=
  ∃ earlier reading, form earlier first rest = .read reading ∧
    clause = reading.value (first.through rest reading.rest)

theorem clauses_stem {γ : Type}
    {form : List γ → Token → (tokens : List Token) → Attempt (Span → γ) tokens}
    (earlier : List γ) (tokens : List Token) :
    ∀ clause ∈ (clauses form earlier tokens).value.1,
      clause ∈ earlier ∨ Stems (ClauseAt form) tokens clause := by
  induction earlier, tokens using clauses.induct form with
  | case1 earlier =>
      rw [clauses]
      exact fun clause member => Or.inl (List.mem_reverse.mp member)
  | case2 earlier first rest trivia ih =>
      rw [clauses, if_pos trivia]
      exact fun clause member => (ih clause member).imp id fun stems =>
        stems.widen (List.suffix_cons _ _)
  | case3 earlier first rest plain unknown =>
      rw [clauses, if_neg plain, unknown]
      exact fun clause member => Or.inl (List.mem_reverse.mp member)
  | case4 earlier first rest plain refused =>
      rw [clauses, if_neg plain, refused]
      exact fun clause member => Or.inl (List.mem_reverse.mp member)
  | case5 earlier first rest plain reading read ih =>
      rw [clauses, if_neg plain, read]
      intro clause member
      rcases ih clause member with before | stems
      · rcases List.mem_cons.mp before with rfl | before
        · exact Or.inr ⟨first, rest, List.suffix_rfl, earlier, reading, read, rfl⟩
        · exact Or.inl before
      · exact Or.inr (stems.widen (suffix_cons_of_suffix first reading.suffix))

/-- Clauses that start with none before them all stem from the run. -/
theorem stems_of_mem_clauses {γ : Type} {clause : γ}
    {form : List γ → Token → (tokens : List Token) → Attempt (Span → γ) tokens}
    (member : clause ∈ (clauses form [] tokens).value.1) : Stems (ClauseAt form) tokens clause := by
  rcases clauses_stem [] tokens clause member with none | stems
  · cases none
  · exact stems

end Loops

/-! ### Clauses -/

section Clauses

variable {first : Token} {rest tokens : List Token}

theorem specClause_stateFields {clause : SpecClause} (here : ClauseAt specClause first rest clause) :
    ∀ field ∈ clause.stateFields, Stems NamedAt rest field.entry := by
  obtain ⟨earlier, reading, read, rfl⟩ := here
  unfold specClause at read
  split at read
  · cases read
    exact fun field member => by cases member
  · obtain ⟨inner, found, same⟩ :=
      Option.map_eq_some_iff.mp (Attempt.eq_some_of_ofOption read)
    subst same
    exact stateFields_stem found
  · cases read
    exact fun field member => by cases member
  · cases read

theorem specClause_invariant {clause : SpecClause} {node : Invariant}
    (here : ClauseAt specClause first rest clause) (found : clause.invariant? = some node) :
    InvariantAt first rest node := by
  obtain ⟨earlier, reading, read, rfl⟩ := here
  unfold specClause at read
  split at read
  · cases read
    change none = some node at found
    cases found
  · obtain ⟨inner, _, same⟩ :=
      Option.map_eq_some_iff.mp (Attempt.eq_some_of_ofOption read)
    subst same
    change none = some node at found
    cases found
  · rename_i kind
    cases read
    exact ⟨kind, (Option.some.inj found).symm⟩
  · cases read

theorem refinementClause_stateFields {clause : RefinementClause}
    (here : ClauseAt refinementClause first rest clause) :
    ∀ field ∈ clause.stateFields, Stems NamedAt rest field.entry := by
  obtain ⟨earlier, reading, read, rfl⟩ := here
  unfold refinementClause at read
  split at read
  · cases read
    exact fun field member => by cases member
  · unfold stringClause at read
    split at read
    · cases read
      exact fun field member => by cases member
    · split at read
      · cases read
      · cases read
        exact fun field member => by cases member
  · cases read
    exact fun field member => by cases member
  · obtain ⟨inner, found, same⟩ :=
      Option.map_eq_some_iff.mp (Attempt.eq_some_of_ofOption read)
    subst same
    exact stateFields_stem found
  · cases read
    exact fun field member => by cases member
  · cases read
    exact fun field member => by cases member
  · obtain ⟨inner, _, same⟩ :=
      Option.map_eq_some_iff.mp (Attempt.eq_some_of_ofOption read)
    subst same
    exact fun field member => by cases member
  · cases read

theorem stems_of_flatMap {γ : Type}
    {form : List γ → Token → (tokens : List Token) → Attempt (Span → γ) tokens}
    {fields : γ → List StateField}
    (each : ∀ {first rest clause}, ClauseAt form first rest clause →
      ∀ field ∈ fields clause, Stems NamedAt rest field.entry) :
    ∀ field ∈ (clauses form [] tokens).value.1.flatMap fields, Stems NamedAt tokens field.entry := by
  intro field member
  obtain ⟨clause, within, inside⟩ := List.mem_flatMap.mp member
  obtain ⟨first, rest, ahead, here⟩ := stems_of_mem_clauses within
  exact (each here field inside).widen ((List.suffix_cons _ _).trans ahead)

end Clauses

/-! ### Declarations -/

/-- All parts of a declaration stem from the run. -/
structure Stemming (tokens : List Token) (decl : Declaration) : Prop where
  entries : ∀ entry ∈ decl.entries, Stems NamedAt tokens entry
  contracts : ∀ contract ∈ decl.contracts, Stems ContractAt tokens contract
  statements : ∀ node ∈ decl.statements, Stems StatementAt tokens node
  invariants : ∀ node ∈ decl.invariants, Stems InvariantAt tokens node

theorem Stemming.widen {tokens larger : List Token} {decl : Declaration}
    (stemming : Stemming tokens decl) (ahead : tokens <:+ larger) : Stemming larger decl where
  entries entry member := (stemming.entries entry member).widen ahead
  contracts contract member := (stemming.contracts contract member).widen ahead
  statements node member := (stemming.statements node member).widen ahead
  invariants node member := (stemming.invariants node member).widen ahead

section Declarations

variable {tokens : List Token}

theorem typeDecl_stemming {reading : Reading (Span → Declaration) tokens}
    (read : typeDecl tokens = some reading) (span : Span) :
    Stemming tokens (reading.value span) := by
  unfold typeDecl at read
  split at read
  · cases read
  · rename_i name _
    split at read
    · cases read
    · rename_i assign _
      split at read
      · cases read
      · rename_i opening _
        split at read
        · cases read
        · rename_i fields found
          cases read
          have behind := opening.suffix.trans (assign.suffix.trans name.suffix)
          refine ⟨?_, List.forall_mem_nil _, List.forall_mem_nil _, List.forall_mem_nil _⟩
          intro entry member
          obtain ⟨field, within, rfl⟩ := List.mem_map.mp member
          exact ((readsTypes.2.2 _ fields found).stem field within).widen behind

theorem callable_stems {reading : Reading ((Span → Callable) × List Recovery) tokens}
    (read : callable tokens = some reading) (span : Span) :
    (∀ entry ∈ (reading.value.1 span).params.map Param.entry, Stems NamedAt tokens entry) ∧
      (∀ contract ∈ (reading.value.1 span).contracts, Stems ContractAt tokens contract) ∧
      ∀ node ∈ (reading.value.1 span).body, Stems StatementAt tokens node := by
  unfold callable at read
  split at read
  · cases read
  · rename_i name _
    split at read
    · cases read
    · rename_i params paramsFound
      split at read
      · cases read
      · rename_i result _
        cases read
        have toText := result.suffix.trans (params.suffix.trans name.suffix)
        have toTerms := (Reading.description result.rest).suffix.trans toText
        have toBody := (contracts (Reading.description result.rest).rest).suffix.trans toTerms
        refine ⟨?_, ?_, ?_⟩
        · intro entry member
          obtain ⟨param, within, rfl⟩ := List.mem_map.mp member
          exact (paramList_stem paramsFound param within).widen name.suffix
        · exact fun contract member => (contracts_stem _ contract member).widen toTerms
        · exact fun node member => (body_stem _ node member).widen toBody

theorem specDecl_stemming {reading : Reading ((Span → Declaration) × List Recovery) tokens}
    (read : specDecl tokens = some reading) (span : Span) :
    Stemming tokens (reading.value.1 span) := by
  unfold specDecl at read
  split at read
  · cases read
  · rename_i name _
    cases read
    have behind := (Reading.description name.rest).suffix.trans name.suffix
    refine ⟨?_, List.forall_mem_nil _, List.forall_mem_nil _, ?_⟩
    · intro entry member
      obtain ⟨field, within, rfl⟩ := List.mem_map.mp member
      exact (stems_of_flatMap specClause_stateFields field within).widen behind
    · intro node member
      obtain ⟨clause, within, found⟩ := List.mem_filterMap.mp member
      have stems := (stems_of_mem_clauses within).widen behind
      obtain ⟨first, rest, ahead, here⟩ := stems
      exact ⟨first, rest, ahead, specClause_invariant here found⟩

theorem refinement_stemming {reading : Reading ((Span → Declaration) × List Recovery) tokens}
    (read : refinement tokens = some reading) (span : Span) :
    Stemming tokens (reading.value.1 span) := by
  unfold refinement at read
  split at read
  · cases read
  · rename_i parent _
    split at read
    · cases read
    · rename_i name _
      cases read
      refine ⟨?_, List.forall_mem_nil _, List.forall_mem_nil _, List.forall_mem_nil _⟩
      intro entry member
      obtain ⟨field, within, rfl⟩ := List.mem_map.mp member
      exact (stems_of_flatMap refinementClause_stateFields field within).widen
        (name.suffix.trans parent.suffix)

theorem declared_stemming {word : DeclareWord}
    {reading : Reading ((Span → Declaration) × List Recovery) tokens}
    (read : declared word tokens = some reading) (span : Span) :
    Stemming tokens (reading.value.1 span) := by
  cases word with
  | mod =>
      obtain ⟨inner, found, rfl⟩ := Option.map_eq_some_iff.mp read
      unfold moduleDecl at found
      split at found
      · cases found
      · cases found
        exact ⟨List.forall_mem_nil _, List.forall_mem_nil _, List.forall_mem_nil _,
          List.forall_mem_nil _⟩
  | type =>
      obtain ⟨inner, found, rfl⟩ := Option.map_eq_some_iff.mp read
      exact typeDecl_stemming found span
  | fn | op =>
      obtain ⟨inner, found, rfl⟩ := Option.map_eq_some_iff.mp read
      obtain ⟨params, terms, statements⟩ := callable_stems found span
      exact ⟨params, terms, statements, List.forall_mem_nil _⟩
  | spec => exact specDecl_stemming read span
  | refine => exact refinement_stemming read span
  | impl =>
      cases read
      exact ⟨List.forall_mem_nil _, List.forall_mem_nil _, List.forall_mem_nil _,
        List.forall_mem_nil _⟩

/-- Every part of a declaration was read at a token of its own. -/
theorem stemming_of_mem_parse {source file : String} {decl : Declaration}
    (member : .declaration decl ∈ (Document.parse source file).body) :
    Stemming (beforeEnd (tokenize source file)) decl := by
  obtain ⟨first, rest, ahead, _, read⟩ := exists_of_mem_parse member
  obtain ⟨word, reading, _, found, rfl⟩ := declared_of_item read
  exact (declared_stemming found _).widen ((List.suffix_cons _ _).trans ahead)

end Declarations

/-! ### Statements -/

section Statements

variable {first : Token} {rest tokens : List Token} {node : Statement}

/-- A token that ends no body opens the same statement in a document as in a body. -/
theorem item_of_statement (inside : endsBody first.kind = false) (rest : List Token) :
    (item first rest).value.1 = .statement (statement first rest).value.1 ∧
      (item first rest).rest = (statement first rest).rest := by
  have form : itemForm first rest = (statementForm first rest).map fun node =>
      (fun span => .statement (node span), []) := by
    unfold itemForm
    split
    · rename_i kind
      rw [kind] at inside
      cases inside
    · rename_i kind
      rw [kind] at inside
      cases inside
    · rename_i kind
      rw [kind] at inside
      cases inside
    · rfl
  rw [item, form, statement]
  cases statementForm first rest with
  | unknown | refused | read => exact ⟨rfl, rfl⟩

theorem statement_of_item (same : (item first rest).value.1 = .statement node) :
    (statement first rest).value.1 = node := by
  cases inside : endsBody first.kind with
  | false =>
      rw [(item_of_statement inside rest).1] at same
      exact Item.statement.inj same
  | true =>
      -- No statement starts with such a token; it is one only as a raw line.
      have unknown : statementForm first rest = .unknown := by
        cases kind : first.kind with
        | declare | inferred | dash3 | eof => rw [statementForm, kind]
        | _ => rw [kind] at inside; cases inside
      rw [statement, unknown]
      unfold item at same
      split at same
      · rename_i reading read
        unfold itemForm at read
        split at read
        · rw [declarationForm_eq] at read
          obtain ⟨inner, _, changed⟩ := Attempt.exists_of_map read
          rw [← changed] at same
          cases same
        · cases read
          cases same
        · cases read
          cases same
        · rw [unknown] at read
          cases read
      · exact Item.statement.inj same
      · exact Item.statement.inj same

end Statements

end Grammar

/-- The statements that an item is or holds in its body. -/
def Item.statements : Item → List Statement
  | statement node => [node]
  | declaration decl => decl.statements
  | inferred _ | separator _ | part _ => []

namespace Grammar

/-- Every statement of a document was read at a token of its own. -/
theorem stems_of_mem_statements {source file : String} {node : Statement}
    (member : node ∈ (Document.parse source file).body.flatMap Item.statements) :
    Stems StatementAt (beforeEnd (tokenize source file)) node := by
  obtain ⟨one, listed, within⟩ := List.mem_flatMap.mp member
  cases one with
  | declaration decl => exact (stemming_of_mem_parse listed).statements node within
  | statement =>
      obtain ⟨first, rest, ahead, plain, read⟩ := exists_of_mem_parse listed
      rw [List.mem_singleton.mp within]
      exact ⟨first, rest, ahead, plain, statement_of_item read⟩
  | inferred | separator | part => cases within

end Grammar

end SageNotation
