import SageNotation.Editor.Help
import SageNotation.Grammar.Documents
import SageNotation.Proofs.Diagnostic.Passes

/-!
The names that a document declares.

Checking fills a registry item by item; the editor lists the first declaration of each
name.  An item adds at most one entry to either, and both are one table
(`registry_eq_declarationsByName`).  The checks of the single items ask the registry for
nothing but whether a name is in it, which does not depend on the order of the items
(`besides_duplicates_perm`).
-/

namespace SageNotation

open Editor

namespace Item

def introducing? (name : String) : Item → Option Declaration
  | declaration decl => if decl.introduces? = some name then some decl else none
  | inferred _ | separator _ | statement _ | part _ => none

/-- The first declaration that introduces the name. -/
def firstNamed? (name : String) (items : List Item) : Option Declaration :=
  items.findSome? (introducing? name)

section FirstNamed

variable {name : String} {items : List Item} {decl : Declaration}

theorem introducing?_eq_some {item : Item} :
    introducing? name item = some decl ↔
      item = .declaration decl ∧ decl.introduces? = some name := by
  cases item with
  | declaration other =>
      rw [introducing?, Option.ite_none_right_eq_some, Item.declaration.injEq,
        Option.some.injEq]
      constructor
      · rintro ⟨introduced, rfl⟩
        exact ⟨rfl, introduced⟩
      · rintro ⟨rfl, introduced⟩
        exact ⟨introduced, rfl⟩
  | inferred | separator | statement | part =>
      exact iff_of_false (fun found => by cases found) (fun same => by cases same.1)

theorem mem_of_firstNamed? (found : firstNamed? name items = some decl) :
    .declaration decl ∈ items ∧ decl.introduces? = some name := by
  obtain ⟨item, member, here⟩ := List.exists_of_findSome?_eq_some found
  obtain ⟨rfl, introduced⟩ := introducing?_eq_some.mp here
  exact ⟨member, introduced⟩

theorem exists_firstNamed? (member : .declaration decl ∈ items)
    (introduced : decl.introduces? = some name) :
    ∃ first, firstNamed? name items = some first := by
  rw [← Option.isSome_iff_exists, firstNamed?, List.findSome?_isSome_iff]
  refine ⟨_, member, ?_⟩
  rw [introducing?_eq_some.mpr ⟨rfl, introduced⟩]
  rfl

end FirstNamed

end Item

/-! ### One step of either table -/

/-- The entry that a declaration adds to a table in which its name is not taken. -/
def Declaration.entry? (decl : Declaration) : Option (String × Declaration) :=
  match decl.introduces? with
  | none => none
  | some name => if name.isEmpty then none else some (name, decl)

def Item.entry? : Item → Option (String × Declaration)
  | declaration decl => decl.entry?
  | inferred _ | separator _ | statement _ | part _ => none

/-- The registry with an entry, if its name is not taken. -/
def Registry.enter (registry : Registry) (entry : String × Declaration) : Registry :=
  if (registry.find? entry.1).isNone then registry ++ [entry] else registry

section Steps

variable {name : String} {decl : Declaration} {entry : String × Declaration}

theorem entry?_eq_some :
    decl.entry? = some entry ↔ entry.2 = decl ∧ decl.introduces? = some entry.1 ∧ entry.1 ≠ "" := by
  unfold Declaration.entry?
  cases decl.introduces? with
  | none => exact iff_of_false (fun some => by cases some) (fun all => by cases all.2.1)
  | some own =>
      dsimp only
      split
      · rename_i empty
        refine iff_of_false (fun some => by cases some) ?_
        rintro ⟨_, same, full⟩
        exact full ((Option.some.inj same) ▸ String.isEmpty_iff.mp empty)
      · rename_i full
        constructor
        · intro known
          cases known
          exact ⟨rfl, rfl, fun empty => full (String.isEmpty_iff.mpr empty)⟩
        · rintro ⟨rfl, same, _⟩
          rw [Option.some.inj same]

theorem name_ne_of_entry? {item : Item} (known : item.entry? = some entry) : entry.1 ≠ "" := by
  cases item with
  | declaration decl => exact (entry?_eq_some.mp known).2.2
  | inferred | separator | statement | part => cases known

theorem introducing?_eq (named : name ≠ "") (item : Item) :
    item.introducing? name = item.entry?.bind fun entry =>
      if entry.1 = name then some entry.2 else none := by
  cases item with
  | declaration decl =>
      rw [Item.introducing?, Item.entry?]
      by_cases introduced : decl.introduces? = some name
      · have known : decl.entry? = some (name, decl) := entry?_eq_some.mpr ⟨rfl, introduced, named⟩
        rw [if_pos introduced, known, Option.bind_some, if_pos rfl]
      · rw [if_neg introduced]
        cases known : decl.entry? with
        | none => rfl
        | some entry =>
            have own := (entry?_eq_some.mp known).2.1
            rw [Option.bind_some, if_neg fun same : entry.1 = name => introduced (same ▸ own)]
  | inferred | separator | statement | part => rfl

theorem declarationsByName_cons (item : Item) (others : List Item) :
    declarationsByName (item :: others) = item.entry?.elim (declarationsByName others) fun entry =>
      entry :: (declarationsByName others).filter (·.1 != entry.1) := by
  cases item with
  | declaration decl =>
      rw [declarationsByName, Item.entry?, Declaration.entry?]
      cases decl.introduces? with
      | none => rfl
      | some name =>
          dsimp only
          split <;> rfl
  | inferred | separator | statement | part => rfl

theorem register_eq (registry : Registry) (decl : Declaration) :
    (decl.register registry).1 = decl.entry?.elim registry registry.enter := by
  rw [Declaration.register, Declaration.entry?]
  cases decl.introduces? with
  | none => rfl
  | some name =>
      dsimp only
      split
      · rfl
      · rw [Option.elim_some, Registry.enter]
        cases registry.find? name with
        | none => rfl
        | some first =>
            dsimp only
            split <;> rfl

theorem registerAll_cons (registry : Registry) (item : Item) (others : List Item) :
    (Item.registerAll registry (item :: others)).1 =
      (Item.registerAll (item.entry?.elim registry registry.enter) others).1 := by
  cases item with
  | declaration decl =>
      rw [Item.registerAll, register_eq]
      rfl
  | inferred | separator | statement | part => rfl

end Steps

/-! ### One table -/

section Table

variable {name : String} {decl : Declaration}

theorem find?_enter (registry : Registry) (entry : String × Declaration) (name : String) :
    (registry.enter entry).find? name =
      (registry.find? name).or (if entry.1 = name then some entry.2 else none) := by
  have single : List.lookup name [entry] = if entry.1 = name then some entry.2 else none := by
    by_cases same : entry.1 = name
    · rw [if_pos same, ← same]
      exact List.lookup_cons_self
    · rw [if_neg same, List.lookup_cons, beq_false_of_ne (Ne.symm same)]
      rfl
  rw [Registry.enter]
  cases taken : registry.find? entry.1 with
  | none =>
      rw [Option.isNone_none, if_pos rfl, ← single]
      exact List.lookup_append
  | some first =>
      rw [Option.isNone_some, if_neg Bool.false_ne_true]
      by_cases same : entry.1 = name
      · rw [← same, taken]
        rfl
      · rw [if_neg same, Option.or_none]

theorem isNone_find?_enter (registry : Registry) (entry : String × Declaration) (name : String) :
    ((registry.enter entry).find? name).isNone =
      ((registry.find? name).isNone && name != entry.1) := by
  rw [find?_enter, Option.isNone_or]
  by_cases same : entry.1 = name
  · rw [if_pos same, same, bne_self_eq_false]
    rfl
  · rw [if_neg same, bne_iff_ne.mpr (Ne.symm same)]
    rfl

theorem enter_eq (registry : Registry) (entry : String × Declaration) :
    registry.enter entry =
      registry ++ [entry].filter fun entry => (registry.find? entry.1).isNone := by
  rw [Registry.enter, List.filter_cons]
  split
  · rfl
  · exact (List.append_nil registry).symm

theorem firstNamed?_cons (named : name ≠ "") (item : Item) (others : List Item) :
    Item.firstNamed? name (item :: others) =
      (item.entry?.bind fun entry => if entry.1 = name then some entry.2 else none).or
        (Item.firstNamed? name others) := by
  rw [Item.firstNamed?, List.findSome?_cons, introducing?_eq named]
  split
  · rename_i here
    rw [here]
    rfl
  · rename_i missing
    rw [missing]
    rfl

/-- For each name, the registry holds the declaration that introduced it first. -/
theorem find?_registerAll (registry : Registry) (items : List Item) (named : name ≠ "") :
    (Item.registerAll registry items).1.find? name =
      (registry.find? name).or (Item.firstNamed? name items) := by
  induction items generalizing registry with
  | nil => exact (Option.or_none).symm
  | cons item others ih =>
      rw [registerAll_cons, ih, firstNamed?_cons named]
      cases item.entry? with
      | none => rfl
      | some entry =>
          rw [Option.elim_some, Option.bind_some, find?_enter, Option.or_assoc]

/-- Registering items adds the first declarations of those names that were not taken. -/
theorem registerAll_eq (registry : Registry) (items : List Item) :
    (Item.registerAll registry items).1 =
      registry ++ (declarationsByName items).filter fun entry => (registry.find? entry.1).isNone := by
  induction items generalizing registry with
  | nil => exact (List.append_nil registry).symm
  | cons item others ih =>
      rw [registerAll_cons, declarationsByName_cons, ih]
      cases item.entry? with
      | none => rfl
      | some entry =>
          rw [Option.elim_some, Option.elim_some,
            List.filter_congr fun other _ => isNone_find?_enter registry entry other.1,
            ← List.filter_filter, enter_eq, List.append_assoc, ← List.filter_append,
            List.singleton_append]

theorem registerAll_nil (items : List Item) :
    (Item.registerAll [] items).1 = declarationsByName items := by
  rw [registerAll_eq, List.nil_append, List.filter_eq_self]
  exact fun entry _ => rfl

theorem registry_eq (document : Document) :
    document.registry = declarationsByName document.body :=
  registerAll_nil document.body

theorem find?_declarationsByName (items : List Item) (named : name ≠ "") :
    (declarationsByName items).find? name = Item.firstNamed? name items := by
  rw [← registerAll_nil, find?_registerAll [] items named]
  rfl

theorem mem_declarationsByName {items : List Item} :
    (name, decl) ∈ declarationsByName items ↔
      name ≠ "" ∧ Item.firstNamed? name items = some decl := by
  induction items with
  | nil =>
      refine iff_of_false (fun member => by cases member) ?_
      rintro ⟨_, found⟩
      cases found
  | cons item others ih =>
      rw [declarationsByName_cons]
      cases known : item.entry? with
      | none =>
          rw [Option.elim_none, ih]
          apply and_congr_right
          intro named
          rw [firstNamed?_cons named, known]
          rfl
      | some entry =>
          obtain ⟨own, first⟩ := entry
          rw [Option.elim_some, List.mem_cons, List.mem_filter, ih]
          by_cases same : own = name
          · subst same
            have full : own ≠ "" := name_ne_of_entry? known
            have found : Item.firstNamed? own (item :: others) = some first := by
              rw [firstNamed?_cons full, known, Option.bind_some, if_pos rfl]
              rfl
            rw [found, Option.some.injEq]
            constructor
            · rintro (here | ⟨_, other⟩)
              · exact ⟨full, (congrArg Prod.snd here).symm⟩
              · exact absurd rfl (bne_iff_ne.mp other)
            · rintro ⟨_, rfl⟩
              exact Or.inl rfl
          · have passed : name ≠ "" →
                Item.firstNamed? name (item :: others) = Item.firstNamed? name others := by
              intro named
              rw [firstNamed?_cons named, known, Option.bind_some, if_neg same]
              rfl
            constructor
            · rintro (here | ⟨⟨named, found⟩, _⟩)
              · exact absurd (congrArg Prod.fst here).symm same
              · exact ⟨named, (passed named).trans found⟩
            · rintro ⟨named, found⟩
              exact Or.inr ⟨⟨named, (passed named).symm.trans found⟩, bne_iff_ne.mpr (Ne.symm same)⟩

theorem names_filter (keeps : String → Bool) (items : List Item) :
    ((declarationsByName items).filter fun entry => keeps entry.1).map Prod.fst =
      ((items.filterMap fun item => item.entry?.map Prod.fst).filter keeps).eraseDups := by
  induction items generalizing keeps with
  | nil => rfl
  | cons item others ih =>
      rw [declarationsByName_cons, List.filterMap_cons]
      cases item.entry? with
      | none => exact ih keeps
      | some entry =>
          rw [Option.elim_some, Option.map_some]
          dsimp only
          by_cases kept : keeps entry.1 = true
          · rw [List.filter_cons_of_pos (p := keeps) kept,
              List.filter_cons_of_pos (p := fun entry : String × Declaration => keeps entry.1) kept, List.map_cons,
              List.eraseDups_cons, List.filter_filter, List.filter_filter, ← ih]
            apply congrArg (fun later => entry.1 :: List.map Prod.fst later)
            exact List.filter_congr fun other _ => Bool.and_comm _ _
          · have passed : ∀ other : String × Declaration,
                (keeps other.1 && other.1 != entry.1) = keeps other.1 := by
              intro other
              by_cases same : other.1 = entry.1
              · rw [same, eq_false_of_ne_true kept]
                rfl
              · rw [bne_iff_ne.mpr same, Bool.and_true]
            rw [List.filter_cons_of_neg (p := keeps) kept,
              List.filter_cons_of_neg (p := fun entry : String × Declaration => keeps entry.1) kept, List.filter_filter,
              ← ih, List.filter_congr fun other _ => passed other]

theorem names_declarationsByName (items : List Item) :
    (declarationsByName items).map Prod.fst =
      (items.filterMap fun item => item.entry?.map Prod.fst).eraseDups := by
  have all := names_filter (fun _ => true) items
  rwa [List.filter_true, List.filter_true] at all

end Table

/-- Checking and the editor have one table of a document: the names that it introduces, once
each and in the order in which they are introduced, with the first declaration of each. -/
theorem registry_eq_declarationsByName (document : Document) :
    document.registry = declarationsByName document.body ∧
      document.registry.map Prod.fst =
        (document.body.filterMap fun item => item.entry?.map Prod.fst).eraseDups ∧
      ∀ name decl, (name, decl) ∈ document.registry ↔
        name ≠ "" ∧ Item.firstNamed? name document.body = some decl := by
  rw [registry_eq]
  exact ⟨rfl, names_declarationsByName document.body, fun name decl => mem_declarationsByName⟩

/-! ### Order of the items -/

section Order

variable {registry other : Registry}

theorem findings_congr
    (known : ∀ name ≠ "", (registry.find? name).isNone = (other.find? name).isNone)
    (item : Item) (warnRawLines : Bool) :
    item.findings registry warnRawLines = item.findings other warnRawLines := by
  cases item with
  | declaration decl =>
      cases decl with
      | refinement decl =>
          rw [Item.findings, Item.findings, Refinement.findings, Refinement.findings]
          split
          · rfl
          · rename_i full
            have named : decl.parent ≠ "" := by
              intro empty
              rw [empty] at full
              exact full rfl
            rw [known decl.parent named]
      | module | type | function | spec | operation | implementation => rfl
  | inferred | separator | statement | part => rfl

theorem isNone_registry_perm {document shuffled : Document}
    (perm : document.body.Perm shuffled.body) (name : String) (named : name ≠ "") :
    (document.registry.find? name).isNone = (shuffled.registry.find? name).isNone := by
  have found : ∀ document : Document,
      document.registry.find? name = Item.firstNamed? name document.body := by
    intro document
    exact find?_registerAll [] document.body named
  rw [found, found, Bool.eq_iff_iff, Option.isNone_iff_eq_none, Option.isNone_iff_eq_none,
    Item.firstNamed?, Item.firstNamed?, List.findSome?_eq_none_iff, List.findSome?_eq_none_iff]
  exact forall_congr' fun item => imp_congr_left perm.mem_iff

end Order

/-- Besides duplicates the same is reported about a document whatever the order of its items,
each as often. -/
theorem besides_duplicates_perm {document shuffled : Document}
    (perm : document.body.Perm shuffled.body) (warnRawLines : Bool) :
    ((document.diagnostics warnRawLines).filter (·.code != "W200")).Perm
      ((shuffled.diagnostics warnRawLines).filter (·.code != "W200")) := by
  have parted : ∀ document : Document,
      (document.diagnostics warnRawLines).filter (·.code != "W200") =
        (document.body.flatMap (Item.findings document.registry warnRawLines)).map
          Located.toDiagnostic := by
    intro document
    rw [Document.diagnostics, List.filter_map, ← besides_duplicates_eq]
    rfl
  rw [parted, parted]
  apply List.Perm.map
  rw [List.flatMap_congr fun item _ =>
    findings_congr (isNone_registry_perm perm) item warnRawLines]
  exact perm.flatMap_right _

def Document.reversed (document : Document) : Document :=
  { document with body := document.body.reverse }

def mixedSource : String := "@refine a\n@refine b\n@fn a\n@spec a\n@spec a\nx y"

theorem besides_duplicates_perm_of_reversed :
    (Document.parse mixedSource "a.sage").body.Perm
        (Document.parse mixedSource "a.sage").reversed.body ∧
      ((Document.parse mixedSource "a.sage").diagnostics true).map (·.code) = ["W210", "W100"] ∧
      ((Document.parse mixedSource "a.sage").reversed.diagnostics true).map (·.code) =
        ["W200", "W100", "W210"] ∧
      (((Document.parse mixedSource "a.sage").diagnostics true).filter (·.code != "W200")).Perm
        (((Document.parse mixedSource "a.sage").reversed.diagnostics true).filter
          (·.code != "W200")) := by
  have perm : (Document.parse mixedSource "a.sage").body.Perm
      (Document.parse mixedSource "a.sage").reversed.body := (List.reverse_perm _).symm
  refine ⟨perm, ?_, ?_, besides_duplicates_perm perm true⟩
  · decide +kernel
  · decide +kernel

end SageNotation
