import SageNotation.Grammar.Documents
import SageNotation.Proofs.Diagnostic.Registry

/-!
Names that are declared twice.

The first pass keeps one declaration for each name, whatever its kind: the one that
introduced the name first (`find?_registerAll`).  A later declaration is compared with
that one only.  So a repetition of the same kind is reported unless a declaration of
another kind had introduced the name before both (`reported_iff_unshadowed`).
-/

namespace SageNotation

/-! ### The first pass -/

section Registering

variable {name : String}

theorem registerAll_append (registry : Registry) (front back : List Item) :
    Item.registerAll registry (front ++ back) =
      ((Item.registerAll (Item.registerAll registry front).1 back).1,
        (Item.registerAll registry front).2 ++
          (Item.registerAll (Item.registerAll registry front).1 back).2) := by
  induction front generalizing registry with
  | nil => rfl
  | cons item others ih =>
      cases item with
      | declaration decl =>
          rw [List.cons_append, Item.registerAll, Item.registerAll, ih, List.append_assoc]
      | inferred | separator | statement | part => exact ih registry

theorem register_findings {front : List Item} {decl : Declaration}
    (introduced : decl.introduces? = some name) (named : name ≠ "") :
    (decl.register (Item.registerAll [] front).1).2 =
      match Item.firstNamed? name front with
      | none => []
      | some first =>
          if first.kind = decl.kind then [⟨.duplicate decl.kind name first.span, decl.span⟩]
          else [] := by
  have full : name.isEmpty = false := by
    rw [← Bool.not_eq_true, String.isEmpty_iff]
    exact named
  have known := find?_registerAll [] front named
  unfold Declaration.register
  rw [introduced]
  dsimp only
  rw [full, if_neg Bool.false_ne_true, known]
  cases Item.firstNamed? name front with
  | none => rfl
  | some first =>
      dsimp only [Registry.find?, List.lookup_nil, Option.none_or]
      split <;> rfl

end Registering

/-! ### Reports at a declaration -/

/-- Some declaration in front is of the same kind and introduces the name. -/
def Repeats (front : List Item) (decl : Declaration) (name : String) : Prop :=
  ∃ earlier, .declaration earlier ∈ front ∧ earlier.kind = decl.kind ∧
    earlier.introduces? = some name

/-- The first declaration in front that introduces the name is of another kind. -/
def Shadowed (front : List Item) (decl : Declaration) (name : String) : Prop :=
  ∃ first, Item.firstNamed? name front = some first ∧ first.kind ≠ decl.kind

/-- The diagnostics of a document with the code of a duplicate, in their order: those of
the items in front, those at the declaration (`here`), and those of the items behind it. -/
structure ReportedAt (document : Document) (warnRawLines : Bool) (front : List Item)
    (decl : Declaration) (back : List Item) (here : List Located) : Prop where
  added : (Item.registerAll [] (front ++ [.declaration decl])).2 =
    (Item.registerAll [] front).2 ++ here
  parted : ∃ after, (document.diagnostics warnRawLines).filter (·.code == "W200") =
      ((Item.registerAll [] front).2 ++ here ++ after).map Located.toDiagnostic ∧
    ∀ located ∈ after, ∃ later name first, .declaration later ∈ back ∧
      located = ⟨.duplicate later.kind name first, later.span⟩
  single : here = [] ∨ ∃ name first, decl.introduces? = some name ∧
    here = [⟨.duplicate decl.kind name first, decl.span⟩]

theorem reportedAt_register {document : Document} {front back : List Item} {decl : Declaration}
    (warnRawLines : Bool) (split : document.body = front ++ .declaration decl :: back) :
    ReportedAt document warnRawLines front decl back
      (decl.register (Item.registerAll [] front).1).2 := by
  refine ⟨?_, ⟨(Item.registerAll (decl.register (Item.registerAll [] front).1).1 back).2, ?_, ?_⟩,
    ?_⟩
  · rw [registerAll_append, Item.registerAll, Item.registerAll, List.append_nil]
  · have whole := congrArg (List.map Located.toDiagnostic) (duplicates_eq warnRawLines document)
    rw [split, registerAll_append, Item.registerAll] at whole
    rw [Document.diagnostics, List.filter_map, List.append_assoc]
    exact whole
  · intro located member
    obtain ⟨later, name, first, listed, _, same⟩ := duplicate_of_registerAll member
    exact ⟨later, name, first, listed, same⟩
  · cases introduced : decl.introduces? with
    | none =>
        left
        rw [Declaration.register, introduced]
    | some name =>
        by_cases named : name = ""
        · left
          rw [Declaration.register, introduced, named]
          rfl
        · rw [register_findings introduced named]
          cases Item.firstNamed? name front with
          | none => exact Or.inl rfl
          | some first =>
              dsimp only
              split
              · exact Or.inr ⟨name, first.span, rfl, rfl⟩
              · exact Or.inl rfl

/-- A declaration is reported exactly if it repeats one of its kind in front of it and no
declaration of another kind is the first to introduce the name. -/
theorem reported_iff_unshadowed {document : Document} {front back : List Item}
    {decl : Declaration} {name : String} (warnRawLines : Bool)
    (split : document.body = front ++ .declaration decl :: back)
    (introduced : decl.introduces? = some name) (named : name ≠ "") :
    ∃ here, ReportedAt document warnRawLines front decl back here ∧
      (here ≠ [] ↔ Repeats front decl name ∧ ¬ Shadowed front decl name) := by
  refine ⟨_, reportedAt_register warnRawLines split, ?_⟩
  rw [register_findings introduced named]
  cases found : Item.firstNamed? name front with
  | none =>
      refine iff_of_false (fun some => some rfl) ?_
      rintro ⟨⟨earlier, member, _, same⟩, _⟩
      obtain ⟨first, known⟩ := Item.exists_firstNamed? member same
      cases found.symm.trans known
  | some first =>
      obtain ⟨member, same⟩ := Item.mem_of_firstNamed? found
      by_cases kind : first.kind = decl.kind
      · refine iff_of_true ?_ ⟨⟨first, member, kind, same⟩, ?_⟩
        · dsimp only
          rw [if_pos kind]
          exact List.cons_ne_nil _ _
        · rintro ⟨other, known, different⟩
          cases found.symm.trans known
          exact different kind
      · refine iff_of_false ?_ fun both => both.2 ⟨first, found, kind⟩
        dsimp only
        rw [if_neg kind]
        exact fun some => some rfl

/-- Two specifications of one name, behind a function of that name. -/
def hiddenSource : String := "@fn a\n@spec a\n@spec a"

def Item.introduction? : Item → Option (DeclKind × String)
  | declaration decl => decl.introduces?.map (decl.kind, ·)
  | inferred _ | separator _ | statement _ | part _ => none

theorem Item.introduction?_eq_some {item : Item} {kind : DeclKind} {name : String}
    (known : item.introduction? = some (kind, name)) :
    ∃ decl, item = .declaration decl ∧ decl.kind = kind ∧ decl.introduces? = some name := by
  cases item with
  | declaration decl =>
      obtain ⟨own, introduced, same⟩ := Option.map_eq_some_iff.mp known
      cases same
      exact ⟨decl, rfl, rfl, introduced⟩
  | inferred | separator | statement | part => cases known

theorem hiddenSource_body :
    ∃ front decl, (Document.parse hiddenSource "<input>").body = front ++ [.declaration decl] ∧
      decl.introduces? = some "a" ∧ Repeats front decl "a" ∧ Shadowed front decl "a" := by
  have listed : (Document.parse hiddenSource "<input>").body.map Item.introduction? =
      [some (.function, "a"), some (.specification, "a"), some (.specification, "a")] := by
    decide +kernel
  obtain ⟨first, others, whole, known, rest⟩ := List.map_eq_cons_iff.mp listed
  obtain ⟨second, last, rfl, earlier, rest⟩ := List.map_eq_cons_iff.mp rest
  obtain ⟨third, rfl, later⟩ := List.map_eq_singleton_iff.mp rest
  obtain ⟨callable, rfl, function, named⟩ := Item.introduction?_eq_some known
  obtain ⟨spec, rfl, specification, same⟩ := Item.introduction?_eq_some earlier
  obtain ⟨again, rfl, kind, introduced⟩ := Item.introduction?_eq_some later
  refine ⟨[.declaration callable, .declaration spec], again, whole, introduced,
    ⟨spec, ?_, specification.trans kind.symm, same⟩, ⟨callable, ?_, ?_⟩⟩
  · exact List.mem_cons_of_mem _ (List.mem_singleton_self _)
  · rw [Item.firstNamed?, List.findSome?_cons, Item.introducing?_eq_some.mpr ⟨rfl, named⟩]
  · rw [function, kind]
    decide

theorem reported_iff_unshadowed_of_hidden :
    ∃ front decl, (Document.parse hiddenSource "<input>").body = front ++ [.declaration decl] ∧
      decl.introduces? = some "a" ∧ Shadowed front decl "a" ∧
      ∃ here, ReportedAt (Document.parse hiddenSource "<input>") true front decl [] here ∧
        here = [] := by
  obtain ⟨front, decl, whole, introduced, _, shadowed⟩ := hiddenSource_body
  obtain ⟨here, reported, only⟩ :=
    reported_iff_unshadowed true whole introduced (by decide)
  refine ⟨front, decl, whole, introduced, shadowed, here, reported, ?_⟩
  by_contra some
  exact (only.mp some).2 shadowed

/-- A repetition of the same kind about which nothing is reported at all. -/
theorem hidden_repetition_unreported :
    ∃ front decl, (Document.parse hiddenSource "<input>").body = front ++ [.declaration decl] ∧
      decl.introduces? = some "a" ∧ Repeats front decl "a" ∧
      (Document.parse hiddenSource "<input>").diagnostics true = [] := by
  obtain ⟨front, decl, whole, introduced, repeats, _⟩ := hiddenSource_body
  have silent : ((Document.parse hiddenSource "<input>").diagnostics true).length = 0 := by
    decide +kernel
  exact ⟨front, decl, whole, introduced, repeats, List.eq_nil_of_length_eq_zero silent⟩

end SageNotation
