import SageNotation.Proofs.Prose.Declarations

/-!
Refinements, and the strings that are read for them.

A refinement has room for one comparison, and a comparison for one text under
each key; the last that is given counts.  `Superseded` says that a token belongs
to a text that is given again.  All other strings of a refinement are told by its
texts.
-/

namespace SageNotation

open Token

namespace Grammar

section Clauses

variable {tokens : List Token}

theorem decisionClause_voices (tokens : List Token) :
    Voices (fun node : Decision => [node.text]) (decisionClause tokens).value
      (between tokens (decisionClause tokens).rest) := by
  intro span
  have text := stringOrLine_tells tokens
  have mark := (Tells.nothing [(Reading.stringOrLine tokens).value]
    (dropOne .bang2 (Reading.stringOrLine tokens).rest)).past_dropOne (by decide) List.suffix_rfl
  exact text.trans mark (Reading.stringOrLine tokens).suffix (dropOne_suffix _ _)

theorem checkedProperties_tells (tokens : List Token) :
    Tells ((checkedProperties tokens).value.map (·.description))
      (between tokens (checkedProperties tokens).rest) := by
  induction tokens using checkedProperties.induct with
  | case1 =>
      rw [checkedProperties]
      exact .nothing _ []
  | case2 first rest trivia ih =>
      rw [checkedProperties, if_pos trivia]
      exact ih.past_cons (kind_ne_string_of_isTrivia trivia) (checkedProperties rest).suffix
  | case3 first rest plain ticked text ih =>
      rw [checkedProperties, if_neg plain, if_pos ticked]
      have next := (checkedProperties text.rest).suffix
      exact ((stringOrLine_tells rest).seq ih text.suffix next).past_cons (by rw [ticked]; decide)
        (next.trans text.suffix)
  | case4 first rest plain other =>
      rw [checkedProperties, if_neg plain, if_neg other]
      exact .nothing _ _

theorem tells_takenValue (taken : Taken tokens) :
    Tells [taken.token.value] (between tokens taken.rest) := by
  obtain ⟨token, rest, split⟩ := taken
  subst split
  exact tells_value token rest

theorem preserved_tells (tokens : List Token) :
    Tells ((preserved tokens).value.map (·.description))
      (between tokens (preserved tokens).rest) := by
  unfold preserved
  split
  · exact checkedProperties_tells tokens
  · rename_i bare found
    have next := (checkedProperties bare.rest).suffix
    exact ((tells_takenValue bare).seq (checkedProperties_tells bare.rest) bare.suffix
      next).past_skipBlank (next.trans bare.suffix)

theorem mapping_voices (tokens : List Token) :
    Voices Mapping.texts (mapping tokens).value (between tokens (mapping tokens).rest) := by
  intro span
  exact (stringOrLine_tells tokens).seq (followingLines_tells continuesMapping _)
    (Reading.stringOrLine tokens).suffix
    (followingLines continuesMapping (Reading.stringOrLine tokens).rest).suffix

end Clauses

/-! ### Comparisons -/

/-- The token belongs to the text of an entry whose key is given again further on. -/
inductive Replaced (token : Token) : List Token → Prop where
  | blank {first : Token} {rest : List Token} (trivia : first.isTrivia = true)
      (further : Replaced token rest) : Replaced token (first :: rest)
  | here {first colon : Token} {rest : List Token} (key : isComparisonKey first.value = true)
      (marked : colon.kind = .colon)
      (within : token ∈ between rest (Reading.stringOrLine rest).rest)
      (again : first.value ∈
        (comparisonEntries (Reading.stringOrLine rest).rest).value.map Prod.fst) :
      Replaced token (first :: colon :: rest)
  | later {first colon : Token} {rest : List Token} (key : isComparisonKey first.value = true)
      (marked : colon.kind = .colon) (further : Replaced token (Reading.stringOrLine rest).rest) :
      Replaced token (first :: colon :: rest)

theorem lastEntry?_cons (key first text : String) (others : List (String × String)) :
    lastEntry? key ((first, text) :: others) =
      match lastEntry? key others with
      | some later => some later
      | none => if key = first then some text else none := by
  unfold lastEntry?
  rw [List.reverse_cons, List.lookup_append, List.lookup_cons]
  cases others.reverse.lookup key with
  | some later => rfl
  | none =>
      by_cases same : key = first
      · rw [beq_iff_eq.mpr same, if_pos same]
        rfl
      · rw [beq_eq_false_iff_ne.mpr same, if_neg same]
        rfl

theorem lastEntry?_eq_none {key : String} {entries : List (String × String)}
    (absent : key ∉ entries.map Prod.fst) : lastEntry? key entries = none := by
  induction entries with
  | nil => rfl
  | cons entry others ih =>
      rw [List.map_cons, List.mem_cons, not_or] at absent
      rw [lastEntry?_cons, ih absent.2]
      exact if_neg absent.1

def keptTexts (entries : List (String × String)) : List String :=
  let advantages := lastEntry? "advantages" entries
  let disadvantages := lastEntry? "disadvantages" entries
  advantages.toList ++ disadvantages.toList

theorem mem_keptTexts (key : String) {text : String} {entries : List (String × String)}
    (known : isComparisonKey key = true) (kept : lastEntry? key entries = some text) :
    text ∈ keptTexts entries := by
  simp only [isComparisonKey, Bool.or_eq_true, beq_iff_eq] at known
  rcases known with rfl | rfl
  · exact List.mem_append_left _ (Option.mem_toList.mpr kept)
  · exact List.mem_append_right _ (Option.mem_toList.mpr kept)

theorem keptTexts_cons {text : String} {others : List (String × String)} (entry : String × String)
    (kept : text ∈ keptTexts others) : text ∈ keptTexts (entry :: others) := by
  obtain ⟨first, own⟩ := entry
  rcases List.mem_append.mp kept with front | back
  · apply mem_keptTexts "advantages" rfl
    rw [lastEntry?_cons, Option.mem_toList.mp front]
  · apply mem_keptTexts "disadvantages" rfl
    rw [lastEntry?_cons, Option.mem_toList.mp back]

/-- A string of the entries is told by what is kept of them, unless its entry is
given again. -/
theorem comparisonEntries_tell (tokens : List Token) {token : Token}
    (member : token ∈ between tokens (comparisonEntries tokens).rest)
    (string : token.kind = .string) :
    (∃ text ∈ keptTexts (comparisonEntries tokens).value, token.content <:+: text.toList) ∨
      Replaced token tokens := by
  induction tokens using comparisonEntries.induct with
  | case1 =>
      rw [comparisonEntries] at member
      cases member
  | case2 first rest trivia ih =>
      rw [comparisonEntries, if_pos trivia] at member ⊢
      have later := mem_past_cons member string (kind_ne_string_of_isTrivia trivia)
        (comparisonEntries rest).suffix
      rcases ih later with kept | replaced
      · exact Or.inl kept
      · exact Or.inr (.blank trivia replaced)
  | case3 first rest plain key missing =>
      rw [comparisonEntries, if_neg plain, if_pos key, missing] at member
      exact False.elim (List.not_mem_nil (between_self _ ▸ member))
  | case4 first rest plain key colon found text ih =>
      obtain ⟨name, known⟩ := key
      have marked := kind_of_expect found
      rw [comparisonEntries, if_neg plain, if_pos ⟨name, known⟩, found] at member ⊢
      obtain ⟨mark, left, split⟩ := colon
      subst split
      have next := (comparisonEntries text.rest).suffix
      have behind := next.trans text.suffix
      -- The key and the colon are no strings, so the token is in this text or behind it.
      have inner := mem_past_cons (mem_past_cons member string (by rw [name]; decide)
        (suffix_cons_of_suffix mark behind)) string (by rw [marked]; decide) behind
      rw [between_trans text.suffix next] at inner
      rcases List.mem_append.mp inner with here | later
      · by_cases again : first.value ∈ (comparisonEntries text.rest).value.map Prod.fst
        · exact Or.inr (.here known marked here again)
        · obtain ⟨own, same, told⟩ := stringOrLine_tells left token here string
          refine Or.inl ⟨own, mem_keptTexts first.value known ?_, told⟩
          rw [lastEntry?_cons, lastEntry?_eq_none again, List.mem_singleton.mp same]
          exact if_pos rfl
      · rcases ih later with ⟨own, kept, told⟩ | replaced
        · exact Or.inl ⟨own, keptTexts_cons _ kept, told⟩
        · exact Or.inr (.later known marked replaced)
  | case5 first rest plain other =>
      rw [comparisonEntries, if_neg plain, if_neg other] at member
      exact False.elim (List.not_mem_nil (between_self _ ▸ member))

theorem comparison_cases {tokens : List Token} {reading : Reading (Span → Comparison) tokens}
    (read : comparison tokens = some reading) :
    ∃ target rest, tokens = target :: rest ∧ target.kind = .identifier ∧
      reading.rest = (comparisonEntries rest).rest ∧
      ∀ span, (reading.value span).texts = keptTexts (comparisonEntries rest).value := by
  unfold comparison at read
  split at read
  · cases read
  · rename_i target found
    cases read
    exact ⟨target.token, target.rest, target.split, kind_of_expect found, rfl, fun _ => rfl⟩

/-! ### Refinements -/

def RefinementClause.texts : RefinementClause → List String
  | .description text => [text]
  | .decision node => [node.text]
  | .state _ => []
  | .preserves properties => properties.map (·.description)
  | .maps node => node.texts
  | .comparison node => node.texts

section Refinements

variable {earlier before : List RefinementClause} {first token : Token} {tokens : List Token}

theorem stringClause_voices {reading : Reading (Span → RefinementClause) tokens}
    (read : stringClause earlier first.value tokens = .read reading) :
    Voices RefinementClause.texts reading.value (first :: between tokens reading.rest) := by
  intro span
  unfold stringClause at read
  split at read
  · rename_i mark found
    cases read
    exact tells_first (List.mem_singleton_self _)
      ((Tells.nothing [first.value] mark.rest).past_taken found (by decide) List.suffix_rfl)
  · split at read
    · cases read
    · cases read
      exact tells_first (List.mem_singleton_self _) (.nothing [first.value] tokens)

theorem refinementClause_tells {reading : Reading (Span → RefinementClause) tokens}
    (read : refinementClause earlier first tokens = .read reading) (span : Span)
    (member : token ∈ first :: between tokens reading.rest) (string : token.kind = .string) :
    (∃ text ∈ (reading.value span).texts, token.content <:+: text.toList) ∨
      ∃ target rest, first.kind = .clause .compareWith ∧ tokens = target :: rest ∧
        target.kind = .identifier ∧ Replaced token rest := by
  unfold refinementClause at read
  split at read
  · rename_i kind
    cases read
    left
    exact (decisionClause_voices tokens span).cons (by rw [kind]; decide) token member string
  · left
    exact stringClause_voices read span token member string
  · rename_i kind
    cases read
    left
    exact (decisionMark_voices tokens span).cons (by rw [kind]; decide) token member string
  · rename_i kind
    obtain ⟨inner, found, same⟩ := Option.map_eq_some_iff.mp (Attempt.eq_some_of_ofOption read)
    subst same
    left
    exact (stateFields_tells [] found).cons (by rw [kind]; decide) token member string
  · rename_i kind
    cases read
    left
    exact (preserved_tells tokens).cons (by rw [kind]; decide) token member string
  · rename_i kind
    cases read
    left
    exact (mapping_voices tokens span).cons (by rw [kind]; decide) token member string
  · rename_i kind
    obtain ⟨inner, found, same⟩ := Option.map_eq_some_iff.mp (Attempt.eq_some_of_ofOption read)
    subst same
    obtain ⟨target, rest, split, name, left, texts⟩ := comparison_cases found
    have within : token ∈ between (first :: tokens) (comparisonEntries rest).rest := by
      rw [← left, between_cons inner.suffix]
      exact member
    subst split
    have entries := (comparisonEntries rest).suffix
    have listed := mem_past_cons (mem_past_cons within string (by rw [kind]; decide)
      (suffix_cons_of_suffix target entries)) string (by rw [name]; decide) entries
    rcases comparisonEntries_tell rest listed string with kept | replaced
    · rw [← texts span] at kept
      exact Or.inl kept
    · exact Or.inr ⟨target, rest, kind, rfl, name, replaced⟩
  · cases read

/-- The loop over the clauses of a refinement comes to a comparison, and these tokens
stand behind its target. -/
def ComparisonAt (tokens rest : List Token) : Prop :=
  ∃ before first target, ComesTo refinementClause [] tokens before first (target :: rest) ∧
    first.kind = .clause .compareWith ∧ target.kind = .identifier

/-- The token belongs to a comparison that is followed by another one of the same
refinement, or to an entry whose key is given again in the same comparison. -/
def Superseded (tokens : List Token) (token : Token) : Prop :=
  ∃ rest, ComparisonAt tokens rest ∧
    ((token ∈ between rest (comparisonEntries rest).rest ∧
        ∃ later, ComparisonAt tokens later ∧ later.length < rest.length) ∨
      Replaced token rest)

/-- What has to stand around a clause: a description is read only where there is none
before, and a comparison only behind its keyword. -/
def RefinementClause.Follows (earlier : List RefinementClause) (first : Token)
    (tokens rest : List Token) : RefinementClause → Prop
  | .description _ => ∀ clause ∈ earlier, clause.description? = none
  | .comparison _ => ∃ target behind, first.kind = .clause .compareWith ∧
      tokens = target :: behind ∧ target.kind = .identifier ∧
      rest = (comparisonEntries behind).rest
  | _ => True

theorem refinementClause_follows {reading : Reading (Span → RefinementClause) tokens}
    (read : refinementClause earlier first tokens = .read reading) :
    (reading.stamp first).value.Follows earlier first tokens reading.rest := by
  unfold refinementClause at read
  split at read
  · cases read
    trivial
  · unfold stringClause at read
    split at read
    · cases read
      trivial
    · split at read
      · cases read
      · rename_i missing
        cases read
        intro clause member
        cases known : clause.description? with
        | none => rfl
        | some other =>
            refine False.elim (missing (List.any_eq_true.mpr ⟨clause, member, ?_⟩))
            rw [known]
            rfl
  · cases read
    trivial
  · obtain ⟨inner, _, rfl⟩ := Option.map_eq_some_iff.mp (Attempt.eq_some_of_ofOption read)
    trivial
  · cases read
    trivial
  · cases read
    trivial
  · rename_i kind
    obtain ⟨inner, found, rfl⟩ := Option.map_eq_some_iff.mp (Attempt.eq_some_of_ofOption read)
    obtain ⟨target, behind, split, name, stop, _⟩ := comparison_cases found
    exact ⟨target, behind, kind, split, name, stop⟩
  · cases read

def clauseTexts (parts : List RefinementClause) : List String :=
  (parts.findSome? RefinementClause.description?).toList ++
    (parts.filterMap RefinementClause.decision?).map (·.text) ++
    (parts.flatMap RefinementClause.preserved).map (·.description) ++
    (parts.filterMap RefinementClause.mapping?).flatMap Mapping.texts ++
    (parts.filterMap RefinementClause.comparison?).getLast?.toList.flatMap Comparison.texts

theorem mem_clauseTexts {parts : List RefinementClause} {clause : RefinementClause}
    {content : String} (listed : clause ∈ parts) (own : content ∈ clause.texts)
    (described : ∀ text, clause = .description text →
      parts.findSome? RefinementClause.description? = some text)
    (compared : ∀ node, clause = .comparison node →
      (parts.filterMap RefinementClause.comparison?).getLast? = some node) :
    content ∈ clauseTexts parts := by
  rw [clauseTexts, List.mem_append, List.mem_append, List.mem_append, List.mem_append]
  cases clause with
  | description text =>
      rw [described text rfl]
      exact Or.inl (Or.inl (Or.inl (Or.inl own)))
  | decision node =>
      rw [List.mem_singleton.mp own]
      exact Or.inl (Or.inl (Or.inl (Or.inr
        (List.mem_map_of_mem (List.mem_filterMap.mpr ⟨_, listed, rfl⟩)))))
  | state fields => cases own
  | preserves properties =>
      obtain ⟨property, member, rfl⟩ := List.mem_map.mp own
      exact Or.inl (Or.inl (Or.inr
        (List.mem_map_of_mem (List.mem_flatMap.mpr ⟨_, listed, member⟩))))
  | maps node =>
      exact Or.inl (Or.inr
        (List.mem_flatMap.mpr ⟨node, List.mem_filterMap.mpr ⟨_, listed, rfl⟩, own⟩))
  | comparison node =>
      rw [compared node rfl]
      exact Or.inr (List.mem_flatMap.mpr ⟨node, List.mem_singleton_self _, own⟩)

theorem findSome?_description {before newer : List RefinementClause} {text : String}
    (missing : ∀ clause ∈ before, clause.description? = none) :
    (before.reverse ++ .description text :: newer).findSome? RefinementClause.description? =
      some text := by
  have none : before.reverse.findSome? RefinementClause.description? = none :=
    List.findSome?_eq_none_iff.mpr fun clause member => missing clause (List.mem_reverse.mp member)
  rw [List.findSome?_append, none]
  rfl

theorem getLast?_comparison {before newer : List RefinementClause} {node : Comparison}
    (missing : ∀ clause ∈ newer, clause.comparison? = none) :
    ((before.reverse ++ .comparison node :: newer).filterMap
      RefinementClause.comparison?).getLast? = some node := by
  have none : newer.filterMap RefinementClause.comparison? = [] :=
    List.filterMap_eq_nil_iff.mpr missing
  rw [List.filterMap_append, List.filterMap_cons, none]
  exact List.getLast?_concat

theorem superseded_of_later {rest left : List Token} {later : List RefinementClause} {other : Token}
    {reading : Reading (Span → RefinementClause) rest} {node : Comparison}
    {further : Reading (Span → RefinementClause) left}
    (comes : ComesTo refinementClause [] tokens before first rest)
    (read : refinementClause before first rest = .read reading)
    (same : (reading.stamp first).value = .comparison node)
    (within : token ∈ first :: between rest reading.rest) (string : token.kind = .string)
    (reached : ComesTo refinementClause [] tokens later other left)
    (ahead : other :: left <:+ reading.rest)
    (found : refinementClause later other left = .read further)
    (compares : (further.stamp other).value.comparison? ≠ none) : Superseded tokens token := by
  have follows := refinementClause_follows read
  rw [same] at follows
  obtain ⟨target, behind, kind, rfl, name, stop⟩ := follows
  cases known : (further.stamp other).value with
  | description | decision | state | preserves | maps =>
      rw [known] at compares
      exact False.elim (compares rfl)
  | comparison second =>
      have followsAgain := refinementClause_follows found
      rw [known] at followsAgain
      obtain ⟨targetAgain, behindAgain, kindAgain, rfl, nameAgain, _⟩ := followsAgain
      have entries := (comparisonEntries behind).suffix
      rw [stop] at within ahead
      rw [← between_cons (suffix_cons_of_suffix target entries)] at within
      have here := mem_past_cons (mem_past_cons within string (by rw [kind]; decide)
        (suffix_cons_of_suffix target entries)) string (by rw [name]; decide) entries
      have shorter := (ahead.trans entries).length_le
      rw [List.length_cons, List.length_cons] at shorter
      refine ⟨behind, ⟨before, first, target, comes, kind, name⟩,
        Or.inl ⟨here, behindAgain, ?_, ?_⟩⟩
      · exact ⟨later, other, targetAgain, reached, kindAgain, nameAgain⟩
      · omega

/-- A string of the clauses is told by the texts of the refinement, unless its text
is given again. -/
theorem refinementClauses_tell
    (member : token ∈ between tokens (clauses refinementClause [] tokens).rest)
    (string : token.kind = .string) :
    (∃ text ∈ clauseTexts (clauses refinementClause [] tokens).value.1,
      token.content <:+: text.toList) ∨ Superseded tokens token := by
  obtain ⟨before, first, rest, reading, comes, read, within⟩ :=
    exists_clause_of_mem [] tokens member string
  rcases refinementClause_tells read (first.through rest reading.rest) within string with
    ⟨text, spoken, told⟩ | ⟨target, left, kind, rfl, name, replaced⟩
  · have own : text ∈ (reading.stamp first).value.texts := spoken
    have follows := refinementClause_follows read
    obtain ⟨newer, around, each⟩ := clauses_around comes read
    -- A comparison counts only where no clause behind it is a comparison, too.
    by_cases followed : (∃ node, (reading.stamp first).value = .comparison node) ∧
        ∃ clause ∈ newer, clause.comparison? ≠ none
    · obtain ⟨⟨node, same⟩, clause, listed, compares⟩ := followed
      obtain ⟨later, other, left, further, reached, ahead, found, rfl⟩ := each clause listed
      exact Or.inr (superseded_of_later comes read same within string reached ahead found compares)
    · left
      refine ⟨text, ?_, told⟩
      rw [around]
      apply mem_clauseTexts (List.mem_append_right _ List.mem_cons_self) own
      · intro content same
        rw [same] at follows ⊢
        exact findSome?_description follows
      · intro node same
        rw [same]
        apply getLast?_comparison
        intro clause listed
        cases compares : clause.comparison? with
        | none => rfl
        | some other =>
            refine False.elim (followed ⟨⟨node, same⟩, clause, listed, ?_⟩)
            rw [compares]
            exact Option.some_ne_none other
  · exact Or.inr ⟨left, ⟨before, first, target, comes, kind, name⟩, Or.inr replaced⟩

/-! ### Headers -/

theorem tagName_tells (texts : List String) {reading : Reading (Option String) tokens}
    (read : tagName tokens = some reading) : Tells texts (between tokens reading.rest) := by
  unfold tagName at read
  split at read
  · cases read
    exact .nothing texts tokens
  · rename_i opening opened
    split at read
    · cases read
    · rename_i tag found
      split at read
      · cases read
      · rename_i closing closed
        cases read
        have stop := (Tells.nothing texts closing.rest).past_taken closed (by decide)
          List.suffix_rfl
        exact (stop.past_taken found (by decide) closing.suffix).past_taken opened (by decide)
          (closing.suffix.trans tag.suffix)

theorem refinementName_tells (texts : List String) {reading : Reading RefinementName tokens}
    (read : refinementName tokens = some reading) : Tells texts (between tokens reading.rest) := by
  unfold refinementName at read
  split at read
  · cases read
    exact .nothing texts tokens
  · rename_i word wordFound
    split at read
    · cases read
    · rename_i child childFound
      split at read
      · cases read
      · rename_i tag tagFound
        cases read
        exact ((tagName_tells texts tagFound).past_taken childFound (by decide)
          tag.suffix).past_taken wordFound (by decide) (tag.suffix.trans child.suffix)

/-- The string was read for a text of the refinement that is given again. -/
def RefinementDrops (tokens : List Token) (token : Token) : Prop :=
  ∃ parent name, expect .identifier tokens = some parent ∧
    refinementName parent.rest = some name ∧ Superseded name.rest token

theorem refinement_tells {reading : Reading ((Span → Declaration) × List Recovery) tokens}
    (read : refinement tokens = some reading) (span : Span)
    (member : token ∈ between tokens reading.rest) (string : token.kind = .string) :
    ∃ decl, reading.value.1 span = .refinement decl ∧
      ((∃ text ∈ decl.texts, token.content <:+: text.toList) ∨ RefinementDrops tokens token) := by
  unfold refinement at read
  split at read
  · cases read
  · rename_i parent found
    split at read
    · cases read
    · rename_i name named
      cases read
      refine ⟨_, rfl, ?_⟩
      have behind := (clauses refinementClause [] name.rest).suffix
      have header : Tells [] (between tokens name.rest) :=
        (refinementName_tells [] named).past_taken found (by decide) name.suffix
      rw [between_trans (name.suffix.trans parent.suffix) behind] at member
      rcases List.mem_append.mp member with early | late
      · obtain ⟨text, listed, _⟩ := header token early string
        cases listed
      · rcases refinementClauses_tell late string with told | superseded
        · exact Or.inl told
        · exact Or.inr ⟨parent, name, found, named, superseded⟩

end Refinements

end Grammar

end SageNotation
