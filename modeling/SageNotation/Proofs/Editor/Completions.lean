import SageNotation.Editor.Session
import SageNotation.Proofs.Diagnostic.Registry
import SageNotation.Proofs.Signature.Documents

/-!
Keywords and declared names in the editor.

Completions and hover texts both look at the keywords first, so a declared name that is a
keyword would be dropped from the one and hidden in the other.  But declarations are named
by identifiers, and no identifier is spelled like a keyword.  Every name of a document is
therefore completed once, after the keywords, and shown with its first declaration
(`analyze_offers`).
-/

namespace SageNotation.Editor

/-! ### Keywords -/

theorem atKeywords_perm : (keywordHelp.map Prod.fst).Perm (Kind.atWords.map Prod.fst) := by
  decide +kernel

theorem plainKeywords_perm : plainKeywords.Perm (Kind.plainWords.map Prod.fst) := by
  decide +kernel

def keywords : List String :=
  keywordHelp.map Prod.fst ++ plainKeywords

theorem nodup_keywords : keywords.Nodup := by
  decide +kernel

theorem not_mem_keywords {name : String} (named : Token.IsName name) : name ∉ keywords := by
  intro member
  rcases List.mem_append.mp member with atKeyword | plain
  · exact named.not_keyword.1 (atKeywords_perm.mem_iff.mp atKeyword)
  · exact named.not_keyword.2 (plainKeywords_perm.mem_iff.mp plain)

/-! ### Completions -/

theorem Completion.distinct_eq_self {items : List Completion}
    (different : (items.map (·.label)).Nodup) : Completion.distinct items = items := by
  induction items with
  | nil => rfl
  | cons first others ih =>
      rw [List.map_cons, List.nodup_cons] at different
      obtain ⟨fresh, later⟩ := different
      rw [Completion.distinct, ih later, List.filter_eq_self.mpr]
      intro other member
      apply bne_iff_ne.mpr
      intro same
      exact fresh (same ▸ List.mem_map_of_mem member)

/-- The completions before those with a label that has been used are left out. -/
def candidates (declarations : Registry) : List Completion :=
  keywords.map Completion.ofKeyword ++
    declarations.map fun entry => Completion.ofDeclaration entry.1 entry.2

theorem labels_candidates (declarations : Registry) :
    (candidates declarations).map (·.label) = keywords ++ declarations.map Prod.fst := by
  rw [candidates, List.map_append, List.map_map, List.map_map]
  exact congrArg (· ++ _) (List.map_id keywords)

section Declared

variable {declarations : Registry}

theorem nodup_labels (different : (declarations.map Prod.fst).Nodup)
    (apart : ∀ entry ∈ declarations, entry.1 ∉ keywords) :
    ((candidates declarations).map (·.label)).Nodup := by
  rw [labels_candidates, List.nodup_append]
  refine ⟨nodup_keywords, different, ?_⟩
  rintro keyword known name declared rfl
  obtain ⟨entry, member, rfl⟩ := List.mem_map.mp declared
  exact apart entry member known

theorem completions_eq (different : (declarations.map Prod.fst).Nodup)
    (apart : ∀ entry ∈ declarations, entry.1 ∉ keywords) :
    completions declarations = candidates declarations :=
  Completion.distinct_eq_self (nodup_labels different apart)

/-! ### Hover texts -/

/-- A signature as a block of code, and below it a description that is not empty. -/
def card (signature description : String) : String :=
  "```sage\n" ++ signature ++ "\n```" ++
    if description.isEmpty then "" else "\n\n" ++ description

theorem hoverText_eq {name signature : String} {decl : Declaration} (apart : name ∉ keywords)
    (found : declarations.find? name = some decl) (signed : decl.signature? = some signature) :
    hoverText declarations name = some (card signature (decl.description?.getD "")) := by
  have plain : keywordHelp.lookup name = none := by
    rw [List.lookup_eq_none_iff]
    intro entry member
    apply bne_iff_ne.mpr
    rintro rfl
    exact apart (List.mem_append_left _ (List.mem_map_of_mem member))
  rw [hoverText, plain]
  dsimp only
  rw [found, Option.map_some, signed, Option.getD_some, card]
  cases decl.description? with
  | none => exact congrArg some String.append_empty.symm
  | some text =>
      rw [Option.getD_some]
      dsimp only
      split
      · rw [String.append_empty]
      · rw [String.append_assoc]

end Declared

/-! ### Documents -/

theorem nodup_declarationsByName (items : List Item) :
    ((declarationsByName items).map Prod.fst).Nodup := by
  induction items with
  | nil => exact List.nodup_nil
  | cons item others ih =>
      rw [declarationsByName_cons]
      cases item.entry? with
      | none => exact ih
      | some entry =>
          rw [Option.elim_some, List.map_cons, List.nodup_cons]
          refine ⟨?_, ih.sublist (List.filter_sublist.map Prod.fst)⟩
          intro member
          obtain ⟨other, kept, same⟩ := List.mem_map.mp member
          have different := List.of_mem_filter kept
          rw [same, bne_self_eq_false] at different
          cases different

structure CompletesWord (word : String) (item : Completion) : Prop where
  label : item.label = word
  kind : item.kind = .keyword
  detail : item.detail = none
  documentation : item.documentation = keywordHelp.lookup word

/-- The completion of a declared name, with the signature of its declaration. -/
structure CompletesName (entry : String × Declaration) (item : Completion) : Prop where
  label : item.label = entry.1
  kind : item.kind =
    match entry.2 with
    | .type _ => .type
    | .function _ => .function
    | .operation _ => .operation
    | .module _ => .module
    | .spec _ | .refinement _ | .implementation _ => .contract
  detail : ∃ signature, entry.2.signature? = some signature ∧ item.detail = some signature
  documentation : item.documentation = none

/-- What a hover text shows of a declaration: its signature, and the description that it
holds, if there is one. -/
structure Shows (decl : Declaration) (signature : String) (description : Option String) :
    Prop where
  signature : decl.signature? = some signature
  description : description =
    match decl with
    | .module node => node.description
    | .function node | .operation node => node.description
    | .spec node => node.description
    | .refinement node => node.description
    | .type _ | .implementation _ => none

/-- What the editor offers for the declarations of a document: every keyword of the notation,
those with an at sign first, then every name that is introduced, once each and in the order
in which they are introduced.  Each name stands for the declaration that introduced it
first, whose signature and description are shown. -/
structure Offers (body : List Item) (declared : Registry) : Prop where
  completed : ∃ (atWords plainWords : List String) (known named : List Completion),
    atWords.Perm (Kind.atWords.map Prod.fst) ∧ plainWords.Perm (Kind.plainWords.map Prod.fst) ∧
    completions declared = known ++ named ∧
    List.Forall₂ CompletesWord (atWords ++ plainWords) known ∧
    List.Forall₂ CompletesName declared named
  different : ((completions declared).map (·.label)).Nodup
  names : declared.map Prod.fst =
    (body.filterMap fun item => item.entry?.map Prod.fst).eraseDups
  first : ∀ name decl, (name, decl) ∈ declared ↔ Item.firstNamed? name body = some decl
  shown : ∀ name decl, (name, decl) ∈ declared → ∃ signature description,
    Shows decl signature description ∧
    hoverText declared name = some (card signature (description.getD ""))

theorem forall₂_completesWord (words : List String) :
    List.Forall₂ CompletesWord words (words.map Completion.ofKeyword) := by
  rw [List.forall₂_map_right_iff, List.forall₂_same]
  exact fun word _ => ⟨rfl, rfl, rfl, rfl⟩

theorem forall₂_completesName {declared : Registry}
    (signed : ∀ entry ∈ declared, ∃ signature, entry.2.signature? = some signature) :
    List.Forall₂ CompletesName declared
      (declared.map fun entry => Completion.ofDeclaration entry.1 entry.2) := by
  rw [List.forall₂_map_right_iff, List.forall₂_same]
  intro entry member
  obtain ⟨signature, shown⟩ := signed entry member
  refine ⟨rfl, ?_, ⟨signature, shown, shown⟩, rfl⟩
  cases entry.2 <;> rfl

theorem introduced_of_firstNamed? {source file name : String} {decl : Declaration}
    (found : Item.firstNamed? name (Document.parse source file).body = some decl) :
    Token.IsName name ∧ ∃ signature, decl.signature? = some signature := by
  obtain ⟨member, introduces⟩ := Item.mem_of_firstNamed? found
  exact (Grammar.legible_of_mem_parse member).introduced introduces

/-- No keyword stands before a name that a document declares. -/
theorem analyze_offers (uri text : String) :
    Offers (Document.parse text uri).body (Checker.standard.analyze uri (some text)).declarations := by
  change Offers (Document.parse text uri).body (declarationsByName (Document.parse text uri).body)
  generalize body : (Document.parse text uri).body = items
  have introduced : ∀ {name decl}, Item.firstNamed? name items = some decl →
      Token.IsName name ∧ ∃ signature, decl.signature? = some signature := by
    intro name decl found
    rw [← body] at found
    exact introduced_of_firstNamed? found
  have apart : ∀ entry ∈ declarationsByName items, entry.1 ∉ keywords := by
    intro entry member
    exact not_mem_keywords (introduced (mem_declarationsByName.mp member).2).1
  have signed : ∀ entry ∈ declarationsByName items,
      ∃ signature, entry.2.signature? = some signature := by
    intro entry member
    exact (introduced (mem_declarationsByName.mp member).2).2
  have different := nodup_declarationsByName items
  have whole := completions_eq different apart
  refine
    { completed := ⟨_, _, _, _, atKeywords_perm, plainKeywords_perm, whole,
        forall₂_completesWord keywords, forall₂_completesName signed⟩
      different := ?_
      names := names_declarationsByName items
      first := ?_
      shown := ?_ }
  · rw [whole]
    exact nodup_labels different apart
  · intro name decl
    rw [mem_declarationsByName]
    constructor
    · exact And.right
    · intro found
      refine ⟨?_, found⟩
      rintro rfl
      cases (introduced found).1.not_isEmpty
  · intro name decl member
    obtain ⟨named, found⟩ := mem_declarationsByName.mp member
    obtain ⟨spelled, signature, signed⟩ := introduced found
    have listed : (declarationsByName items).find? name = some decl :=
      (find?_declarationsByName items named).trans found
    refine ⟨signature, decl.description?, ⟨signed, ?_⟩,
      hoverText_eq (not_mem_keywords spelled) listed signed⟩
    cases decl <;> rfl

end SageNotation.Editor
