import SageNotation.Proofs.Grammar.Parts

/-!
Nodes and the runs of tokens they are read from.

A routine that reads a construct makes a node which takes the span it is given
and whose parts have room wherever the run that was read is laid; `Frames` says
so.  `item_framed` says it of every item of a document.
-/

namespace SageNotation

open Token

/-- Making a node: it takes the span it is given, and its parts fit into a span
in which the run is laid. -/
structure Frames (run : List Token) (make : Span → Tree) : Prop where
  stamped : ∀ span, (make span).span? = some span
  fits : ∀ {file : String} {low high : Int} {span : Span}, span.Between file low high →
    Laid file span.start.offset span.stop.offset run → (make span).Fits file low high

namespace Grammar

/-! ### Clauses -/

def SpecClause.trees : SpecClause → List Tree
  | property node => [node.toTree]
  | state fields => fields.map StateField.toTree
  | invariant node => [node.toTree]

def RefinementClause.trees : RefinementClause → List Tree
  | description _ => []
  | decision node => [node.toTree]
  | state fields => fields.map StateField.toTree
  | preserves properties => properties.map Preserved.toTree
  | maps node => [node.toTree]
  | comparison node => [node.toTree]

section ClauseForms

variable {first : Token} {tokens : List Token} {file : String} {low high : Int} {span : Span}

theorem itemsFit_single {tree : Tree} (le : low ≤ high) (fits : tree.Fits file low high) :
    Tree.ItemsFit file low high [tree] :=
  ⟨high, le, fits, Int.le_refl _⟩

theorem le_of_between (here : span.Between file low high) : low ≤ high := by
  have after := here.after
  have nonempty := here.nonempty
  have before := here.before
  omega

theorem specClause_fits {earlier : List SpecClause} {reading : Reading (Span → SpecClause) tokens}
    (read : specClause earlier first tokens = .read reading) (here : span.Between file low high)
    (within : Laid file span.start.offset span.stop.offset (between tokens reading.rest)) :
    Tree.ItemsFit file low high (reading.value span).trees := by
  have le := le_of_between here
  unfold specClause at read
  split at read
  · cases read
    exact itemsFit_single le ⟨here, trivial, trivial⟩
  · obtain ⟨inner, found, same⟩ :=
      Option.map_eq_some_iff.mp (Attempt.eq_some_of_ofOption read)
    subst same
    exact Tree.itemsFit_widen file _ (stateFields_fits found within) here.after here.before
  · cases read
    exact itemsFit_single le ⟨here, trivial, trivial⟩
  · cases read

theorem stringClause_fits {earlier : List RefinementClause} {text : String}
    {reading : Reading (Span → RefinementClause) tokens}
    (read : stringClause earlier text tokens = .read reading)
    (here : span.Between file low high) :
    Tree.ItemsFit file low high (reading.value span).trees := by
  have le := le_of_between here
  unfold stringClause at read
  split at read
  · cases read
    exact itemsFit_single le ⟨here, trivial, trivial⟩
  · split at read
    · cases read
    · cases read
      exact le

theorem comparison_fits {reading : Reading (Span → Comparison) tokens}
    (read : comparison tokens = some reading) (here : span.Between file low high) :
    (reading.value span).toTree.Fits file low high := by
  unfold comparison at read
  split at read
  · cases read
  · cases read
    refine ⟨here, trivial, ?_, ?_, trivial⟩
    · exact Tree.optionalText_fits _ _ _ _
    · exact Tree.optionalText_fits _ _ _ _

theorem refinementClause_fits {earlier : List RefinementClause}
    {reading : Reading (Span → RefinementClause) tokens}
    (read : refinementClause earlier first tokens = .read reading)
    (here : span.Between file low high)
    (within : Laid file span.start.offset span.stop.offset (between tokens reading.rest)) :
    Tree.ItemsFit file low high (reading.value span).trees := by
  have le := le_of_between here
  unfold refinementClause at read
  split at read
  · cases read
    exact itemsFit_single le ⟨here, trivial, trivial⟩
  · exact stringClause_fits read here
  · cases read
    exact itemsFit_single le ⟨here, trivial, trivial⟩
  · obtain ⟨inner, found, same⟩ :=
      Option.map_eq_some_iff.mp (Attempt.eq_some_of_ofOption read)
    subst same
    exact Tree.itemsFit_widen file _ (stateFields_fits found within) here.after here.before
  · cases read
    exact Tree.itemsFit_widen file _ (preserved_fits tokens within) here.after here.before
  · cases read
    exact itemsFit_single le
      ⟨here, trivial, Tree.texts_fit (Int.le_of_lt here.nonempty) _, trivial⟩
  · obtain ⟨inner, found, same⟩ :=
      Option.map_eq_some_iff.mp (Attempt.eq_some_of_ofOption read)
    subst same
    exact itemsFit_single le (comparison_fits found here)
  · cases read

end ClauseForms

theorem lastComparison_fits {file : String} {low high : Int} {clauses : List RefinementClause}
    (ordered : ClausesFit RefinementClause.trees file low high clauses) :
    ((clauses.filterMap RefinementClause.comparison?).getLast?.elim Tree.absent
      Comparison.toTree).Fits file low high := by
  have all : Tree.ItemsFit file low high
      ((clauses.filterMap RefinementClause.comparison?).map Comparison.toTree) := by
    apply itemsFit_part? ordered
    intro clause part found
    cases clause with
    | comparison node =>
        cases found
        rfl
    | description | decision | state | preserves | maps => cases found
  cases last : (clauses.filterMap RefinementClause.comparison?).getLast? with
  | none => trivial
  | some node =>
      have member := List.mem_map_of_mem (f := Comparison.toTree) (List.mem_of_getLast? last)
      exact (Tree.itemsFit_iff.mp all).stands_of_mem (Tree.widens_fits file) member

/-! ### Declarations -/

section Declarations

variable {tokens : List Token}

theorem moduleDecl_frames {reading : Reading (Span → Declaration) tokens}
    (read : moduleDecl tokens = some reading) :
    Frames (between tokens reading.rest) fun span => (reading.value span).toTree := by
  unfold moduleDecl at read
  split at read
  · cases read
  · cases read
    refine ⟨fun span => rfl, ?_⟩
    intro file low high span here within
    exact ⟨here, trivial, Tree.optionalText_fits _ _ _ _, trivial⟩

theorem typeDecl_frames {reading : Reading (Span → Declaration) tokens}
    (read : typeDecl tokens = some reading) :
    Frames (between tokens reading.rest) fun span => (reading.value span).toTree := by
  unfold typeDecl at read
  split at read
  · cases read
  · rename_i name _
    split at read
    · cases read
    · rename_i assign _
      split at read
      · cases read
      · rename_i opening _
        split at read
        · cases read
        · rename_i fields found
          cases read
          refine ⟨fun span => rfl, ?_⟩
          intro file low high span here within
          have inner := within.after
            (opening.suffix.trans (assign.suffix.trans name.suffix)) fields.suffix
          exact ⟨here, trivial, (readsTypes.2.2 _ fields found).fits inner, trivial⟩

/-- The parts of a function or operation, under either name. -/
theorem callable_frames {reading : Reading ((Span → Callable) × List Recovery) tokens}
    (read : callable tokens = some reading) (label : String) :
    Frames (between tokens reading.rest) fun span => (reading.value.1 span).toTree label := by
  unfold callable at read
  split at read
  · cases read
  · rename_i name _
    split at read
    · cases read
    · rename_i params paramsFound
      split at read
      · cases read
      · rename_i result resultFound
        cases read
        refine ⟨fun span => rfl, ?_⟩
        intro file low high span here within
        -- the places on the way, from the end of the body back to the name
        have textStop := (Reading.description result.rest).suffix
        have termsStop := (contracts (Reading.description result.rest).rest).suffix
        have bodyStop :=
          (body (contracts (Reading.description result.rest).rest).rest).suffix
        have afterText := bodyStop.trans termsStop
        have afterResult := afterText.trans textStop
        have toResult := params.suffix.trans name.suffix
        have toText := result.suffix.trans toResult
        have toTerms := textStop.trans toText
        have paramsFit := paramList_fits paramsFound
          (within.inside name.suffix params.suffix (afterResult.trans result.suffix))
        have resultFits := typeAfter_fits resultFound
          (within.inside toResult result.suffix afterResult)
        have termsFit := contracts_fits _ (within.inside toTerms termsStop bodyStop)
        have bodyFits := body_fits _ (within.after (termsStop.trans toTerms) bodyStop)
        exact ⟨here, trivial, paramsFit, resultFits, Tree.optionalText_fits _ _ _ _, termsFit,
          bodyFits, trivial⟩

theorem specDecl_frames {reading : Reading ((Span → Declaration) × List Recovery) tokens}
    (read : specDecl tokens = some reading) :
    Frames (between tokens reading.rest) fun span => (reading.value.1 span).toTree := by
  unfold specDecl at read
  split at read
  · cases read
  · rename_i name _
    cases read
    refine ⟨fun span => rfl, ?_⟩
    intro file low high span here within
    have textStop := (Reading.description name.rest).suffix.trans name.suffix
    have inner := within.after textStop
      (clauses specClause [] (Reading.description name.rest).rest).suffix
    obtain ⟨parts, same, ordered⟩ := clauses_fit specClause_fits [] _ inner
    rw [List.reverse_nil, List.nil_append] at same
    refine ⟨here, trivial, Tree.optionalText_fits _ _ _ _, ?_, ?_, ?_, trivial⟩
    · rw [same]
      apply itemsFit_part? ordered
      intro clause part found
      cases clause with
      | property node =>
          cases found
          rfl
      | state | invariant => cases found
    · rw [same]
      apply itemsFit_parts ordered
      intro clause
      cases clause with
      | state fields => exact Or.inr rfl
      | property | invariant => exact Or.inl rfl
    · rw [same]
      apply itemsFit_part? ordered
      intro clause part found
      cases clause with
      | invariant node =>
          cases found
          rfl
      | property | state => cases found

theorem refinement_frames {reading : Reading ((Span → Declaration) × List Recovery) tokens}
    (read : refinement tokens = some reading) :
    Frames (between tokens reading.rest) fun span => (reading.value.1 span).toTree := by
  unfold refinement at read
  split at read
  · cases read
  · rename_i parent _
    split at read
    · cases read
    · rename_i name _
      cases read
      refine ⟨fun span => rfl, ?_⟩
      intro file low high span here within
      have inner := within.after (name.suffix.trans parent.suffix)
        (clauses refinementClause [] name.rest).suffix
      obtain ⟨parts, same, ordered⟩ := clauses_fit refinementClause_fits [] _ inner
      rw [List.reverse_nil, List.nil_append] at same
      refine ⟨here, trivial, Tree.optionalText_fits _ _ _ _, Tree.optionalText_fits _ _ _ _,
        Tree.optionalText_fits _ _ _ _, ?_, ?_, ?_, ?_, ?_, trivial⟩
      · rw [same]
        apply itemsFit_part? ordered
        intro clause part found
        cases clause with
        | decision node =>
            cases found
            rfl
        | description | state | preserves | maps | comparison => cases found
      · rw [same]
        apply itemsFit_parts ordered
        intro clause
        cases clause with
        | state fields => exact Or.inr rfl
        | description | decision | preserves | maps | comparison => exact Or.inl rfl
      · rw [same]
        apply itemsFit_parts ordered
        intro clause
        cases clause with
        | preserves properties => exact Or.inr rfl
        | description | decision | state | maps | comparison => exact Or.inl rfl
      · rw [same]
        apply itemsFit_part? ordered
        intro clause part found
        cases clause with
        | maps node =>
            cases found
            rfl
        | description | decision | state | preserves | comparison => cases found
      · rw [same]
        exact lastComparison_fits ordered

theorem implementation_frames (tokens : List Token) :
    Frames (between tokens (implementation tokens).rest) fun span =>
      ((implementation tokens).value span).toTree := by
  refine ⟨fun span => rfl, ?_⟩
  intro file low high span here within
  exact ⟨here, Tree.optionalText_fits _ _ _ _, trivial, trivial⟩

end Declarations

/-! ### Items -/

section Items

variable {first : Token} {tokens : List Token}
  {reading : Reading ((Span → Item) × List Recovery) tokens}

theorem asDeclaration_frames
    {result : Option (Reading ((Span → Declaration) × List Recovery) tokens)}
    (read : asDeclaration result = .read reading)
    (frames : ∀ inner, result = some inner →
      Frames (between tokens inner.rest) fun span => (inner.value.1 span).toTree) :
    Frames (between tokens reading.rest) fun span => (reading.value.1 span).toTree := by
  obtain ⟨inner, found, same⟩ := Attempt.exists_of_map read
  subst same
  exact frames inner (Attempt.eq_some_of_ofOption found)

theorem declarationForm_frames {word : DeclareWord}
    (read : declarationForm word tokens = .read reading) :
    Frames (between tokens reading.rest) fun span => (reading.value.1 span).toTree := by
  cases word with
  | mod =>
      apply asDeclaration_frames read
      intro inner found
      obtain ⟨plain, known, same⟩ := Option.map_eq_some_iff.mp found
      subst same
      exact moduleDecl_frames known
  | type =>
      apply asDeclaration_frames read
      intro inner found
      obtain ⟨plain, known, same⟩ := Option.map_eq_some_iff.mp found
      subst same
      exact typeDecl_frames known
  | fn =>
      apply asDeclaration_frames read
      intro inner found
      obtain ⟨plain, known, same⟩ := Option.map_eq_some_iff.mp found
      subst same
      exact callable_frames known "FunctionDecl"
  | spec =>
      apply asDeclaration_frames read
      intro inner found
      exact specDecl_frames found
  | op =>
      apply asDeclaration_frames read
      intro inner found
      obtain ⟨plain, known, same⟩ := Option.map_eq_some_iff.mp found
      subst same
      exact callable_frames known "OperationDecl"
  | refine =>
      apply asDeclaration_frames read
      intro inner found
      exact refinement_frames found
  | impl =>
      apply asDeclaration_frames read
      intro inner found
      cases found
      exact implementation_frames tokens

theorem frames_of_statement {run : List Token} {make : Span → Statement}
    (stamped : ∀ span, (make span).span = span) :
    Frames run fun span => (make span).toTree := by
  refine ⟨?_, ?_⟩
  · intro span
    rw [Statement.span?_toTree, stamped]
  · intro file low high span here _
    apply Statement.fits_of_between
    rw [stamped]
    exact here

theorem itemForm_frames (read : itemForm first tokens = .read reading) :
    Frames (between tokens reading.rest) fun span => (reading.value.1 span).toTree := by
  unfold itemForm at read
  split at read
  · exact declarationForm_frames read
  · cases read
    refine ⟨fun span => rfl, ?_⟩
    intro file low high span here within
    exact ⟨here, trivial, trivial, Tree.optionalText_fits _ _ _ _, trivial⟩
  · cases read
    refine ⟨fun span => rfl, ?_⟩
    intro file low high span here within
    exact ⟨here, trivial⟩
  · obtain ⟨inner, found, same⟩ := Attempt.exists_of_map read
    subst same
    exact frames_of_statement (statementForm_span found)

/-- An item is a node over the tokens from its first to the last one read for it. -/
theorem item_framed (first : Token) (tokens : List Token) :
    ∃ make, Frames (between tokens (item first tokens).rest) make ∧
      (item first tokens).value.1.toTree =
        make (first.through tokens (item first tokens).rest) := by
  unfold item
  split
  · rename_i reading read
    exact ⟨_, itemForm_frames read, rfl⟩
  · exact ⟨fun span => ((rawLine first tokens).value span).toTree,
      frames_of_statement fun _ => rfl, rfl⟩
  · exact ⟨fun span => ((rawLine first tokens).value span).toTree,
      frames_of_statement fun _ => rfl, rfl⟩

end Items

end Grammar

end SageNotation
