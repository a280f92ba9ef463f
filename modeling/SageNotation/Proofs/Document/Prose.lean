import SageNotation.Document.Tree

/-!
The prose of a document.

The prose of a tree are the texts of its nodes, at any depth, in the fields that
hold text for a reader.  Names, tags and targets are no prose.  `Item.texts` lists
the texts of an item without its tree; all of them are prose of the tree.
-/

namespace SageNotation

namespace Tree

def proseFields : List String :=
  ["description", "text", "condition", "value", "then", "otherwise", "reason", "expression", "body",
    "mappings", "advantages", "disadvantages"]

def text? : Tree → Option String
  | text value => some value
  | _ => none

/-- The texts that stand directly in a field. -/
def ownTexts : Tree → List String
  | text value => [value]
  | list items => items.filterMap text?
  | _ => []

mutual

def prose : Tree → List String
  | node _ fields _ => fieldsProse fields
  | list items => itemsProse items
  | text _ => []
  | choice _ => []
  | flag _ => []
  | absent => []

def fieldsProse : List (String × Tree) → List String
  | [] => []
  | (name, value) :: others =>
      (if name ∈ proseFields then value.ownTexts else []) ++ value.prose ++ fieldsProse others

def itemsProse : List Tree → List String
  | [] => []
  | item :: others => item.prose ++ itemsProse others

end

/-- The word occurs in the prose of the tree. -/
def Mentions (tree : Tree) (word : List Char) : Prop :=
  ∃ text ∈ tree.prose, word <:+: text.toList

instance (tree : Tree) (word : List Char) : Decidable (tree.Mentions word) :=
  inferInstanceAs (Decidable (∃ text ∈ tree.prose, word <:+: text.toList))

variable {label name content : String} {fields : List (String × Tree)} {span : Span} {value : Tree}

theorem mem_prose_of_own (member : (name, value) ∈ fields) (kept : name ∈ proseFields)
    (own : content ∈ value.ownTexts) : content ∈ (node label fields span).prose := by
  rw [prose]
  induction fields with
  | nil => cases member
  | cons field others ih =>
      obtain ⟨first, inner⟩ := field
      rw [fieldsProse]
      rcases List.mem_cons.mp member with same | later
      · obtain ⟨rfl, rfl⟩ := Prod.mk.inj same
        rw [if_pos kept]
        exact List.mem_append_left _ (List.mem_append_left _ own)
      · exact List.mem_append_right _ (ih later)

theorem mem_prose_of_part (member : (name, value) ∈ fields) (inner : content ∈ value.prose) :
    content ∈ (node label fields span).prose := by
  rw [prose]
  induction fields with
  | nil => cases member
  | cons field others ih =>
      obtain ⟨first, part⟩ := field
      rw [fieldsProse]
      rcases List.mem_cons.mp member with same | later
      · obtain ⟨rfl, rfl⟩ := Prod.mk.inj same
        exact List.mem_append_left _ (List.mem_append_right _ inner)
      · exact List.mem_append_right _ (ih later)

theorem prose_list (items : List Tree) : (list items).prose = items.flatMap prose := by
  rw [prose]
  induction items with
  | nil => rw [itemsProse, List.flatMap_nil]
  | cons item others ih => rw [itemsProse, List.flatMap_cons, ih]

theorem mem_prose_of_list {items : List Tree} {item : Tree} (member : (name, list items) ∈ fields)
    (within : item ∈ items) (inner : content ∈ item.prose) :
    content ∈ (node label fields span).prose := by
  apply mem_prose_of_part member
  rw [prose_list]
  exact List.mem_flatMap.mpr ⟨item, within, inner⟩

theorem mem_prose_of_optional {value : Option String}
    (member : (name, optionalText value) ∈ fields) (kept : name ∈ proseFields)
    (own : content ∈ value.toList) : content ∈ (node label fields span).prose := by
  apply mem_prose_of_own member kept
  rw [Option.mem_toList.mp own]
  exact List.mem_singleton_self content

theorem ownTexts_lines (lines : List String) : (list (lines.map text)).ownTexts = lines := by
  rw [ownTexts, List.filterMap_map]
  exact List.filterMap_some

end Tree

/-! ### Texts of items -/

namespace Statement

def texts : Statement → List String
  | prose node => [node.text]
  | decision node => [node.text]
  | binding node => [node.value]
  | conditional node => node.condition :: node.consequent :: node.alternative.toList
  | ret node => [node.value]
  | raw node => [node.text]

theorem prose_toTree (statement : Statement) : statement.toTree.prose = statement.texts := by
  cases statement with
  | conditional node =>
      obtain ⟨condition, consequent, alternative, isDecision, span⟩ := node
      cases alternative <;> rfl
  | prose | decision | binding | ret | raw => rfl

end Statement

namespace Mapping

def texts (mapping : Mapping) : List String :=
  mapping.description :: mapping.lines

end Mapping

namespace Comparison

def texts (comparison : Comparison) : List String :=
  comparison.advantages.toList ++ comparison.disadvantages.toList

end Comparison

namespace Callable

def texts (callable : Callable) : List String :=
  callable.description.toList ++ callable.contracts.map (·.condition) ++
    callable.body.flatMap Statement.texts

end Callable

namespace Refinement

def texts (decl : Refinement) : List String :=
  decl.description.toList ++ decl.decisions.map (·.text) ++ decl.preserves.map (·.description) ++
    decl.maps.flatMap Mapping.texts ++ decl.comparison.toList.flatMap Comparison.texts

end Refinement

namespace Declaration

def texts : Declaration → List String
  | module decl => decl.description.toList
  | type _ => []
  | function decl => decl.texts
  | spec decl =>
      decl.description.toList ++ decl.properties.map (·.description) ++
        decl.invariants.map (·.expression)
  | operation decl => decl.texts
  | refinement decl => decl.texts
  | implementation decl => [decl.body]

end Declaration

namespace Item

def texts : Item → List String
  | declaration decl => decl.texts
  | inferred fact => fact.condition :: fact.reason.toList
  | separator _ => []
  | statement line => line.texts
  | part piece => piece.toTree.prose

end Item

open SageNotation.Tree

theorem Callable.mem_prose {callable : Callable} {content : String}
    (member : content ∈ callable.texts) (label : String) :
    content ∈ (callable.toTree label).prose := by
  rw [texts, List.mem_append, List.mem_append] at member
  rcases member with (described | contracted) | stated
  · exact mem_prose_of_optional (List.mem_of_getElem? (i := 3) rfl) (by decide) described
  · obtain ⟨contract, within, rfl⟩ := List.mem_map.mp contracted
    apply mem_prose_of_list (List.mem_of_getElem? (i := 4) rfl) (List.mem_map_of_mem within)
    exact List.mem_singleton_self _
  · obtain ⟨statement, within, told⟩ := List.mem_flatMap.mp stated
    apply mem_prose_of_list (List.mem_of_getElem? (i := 5) rfl) (List.mem_map_of_mem within)
    rw [Statement.prose_toTree]
    exact told

theorem Mapping.mem_prose {mapping : Mapping} {content : String}
    (member : content ∈ mapping.texts) : content ∈ mapping.toTree.prose := by
  rcases List.mem_cons.mp member with rfl | listed
  · exact mem_prose_of_own (List.mem_of_getElem? (i := 0) rfl) (by decide)
      (List.mem_singleton_self _)
  · apply mem_prose_of_own (List.mem_of_getElem? (i := 1) rfl) (by decide)
    rw [ownTexts_lines]
    exact listed

theorem Comparison.mem_prose {comparison : Comparison} {content : String}
    (member : content ∈ comparison.texts) : content ∈ comparison.toTree.prose := by
  rcases List.mem_append.mp member with front | back
  · exact mem_prose_of_optional (List.mem_of_getElem? (i := 1) rfl) (by decide) front
  · exact mem_prose_of_optional (List.mem_of_getElem? (i := 2) rfl) (by decide) back

theorem Refinement.mem_prose {decl : Refinement} {content : String}
    (member : content ∈ decl.texts) :
    content ∈ (Declaration.refinement decl).toTree.prose := by
  rw [texts, List.mem_append, List.mem_append, List.mem_append, List.mem_append] at member
  rcases member with (((described | decided) | preserved) | mapped) | compared
  · exact mem_prose_of_optional (List.mem_of_getElem? (i := 3) rfl) (by decide) described
  · obtain ⟨decision, within, rfl⟩ := List.mem_map.mp decided
    apply mem_prose_of_list (List.mem_of_getElem? (i := 4) rfl) (List.mem_map_of_mem within)
    exact List.mem_singleton_self _
  · obtain ⟨property, within, rfl⟩ := List.mem_map.mp preserved
    apply mem_prose_of_list (List.mem_of_getElem? (i := 6) rfl) (List.mem_map_of_mem within)
    exact List.mem_singleton_self _
  · obtain ⟨mapping, within, told⟩ := List.mem_flatMap.mp mapped
    exact mem_prose_of_list (List.mem_of_getElem? (i := 7) rfl) (List.mem_map_of_mem within)
      (Mapping.mem_prose told)
  · obtain ⟨comparison, within, told⟩ := List.mem_flatMap.mp compared
    have kept : decl.comparison = some comparison := Option.mem_toList.mp within
    apply mem_prose_of_part (List.mem_of_getElem? (i := 8) rfl)
    rw [kept]
    exact Comparison.mem_prose told

theorem Declaration.mem_prose {decl : Declaration} {content : String}
    (member : content ∈ decl.texts) : content ∈ decl.toTree.prose := by
  cases decl with
  | module decl =>
      exact mem_prose_of_optional (List.mem_of_getElem? (i := 1) rfl) (by decide) member
  | type decl => cases member
  | function decl => exact Callable.mem_prose member _
  | spec decl =>
      rw [texts, List.mem_append, List.mem_append] at member
      rcases member with (described | stated) | kept
      · exact mem_prose_of_optional (List.mem_of_getElem? (i := 1) rfl) (by decide) described
      · obtain ⟨property, within, rfl⟩ := List.mem_map.mp stated
        apply mem_prose_of_list (List.mem_of_getElem? (i := 2) rfl) (List.mem_map_of_mem within)
        exact List.mem_singleton_self _
      · obtain ⟨invariant, within, rfl⟩ := List.mem_map.mp kept
        apply mem_prose_of_list (List.mem_of_getElem? (i := 4) rfl) (List.mem_map_of_mem within)
        exact List.mem_singleton_self _
  | operation decl => exact Callable.mem_prose member _
  | refinement decl => exact Refinement.mem_prose member
  | implementation decl =>
      apply mem_prose_of_own (List.mem_of_getElem? (i := 1) rfl) (by decide)
      exact member

theorem Item.mem_prose {item : Item} {content : String} (member : content ∈ item.texts) :
    content ∈ item.toTree.prose := by
  cases item with
  | declaration decl => exact Declaration.mem_prose member
  | inferred fact =>
      rcases List.mem_cons.mp member with rfl | given
      · exact mem_prose_of_own (List.mem_of_getElem? (i := 1) rfl) (by decide)
          (List.mem_singleton_self _)
      · exact mem_prose_of_optional (List.mem_of_getElem? (i := 2) rfl) (by decide) given
  | separator span => cases member
  | statement line =>
      rw [Item.toTree, Statement.prose_toTree]
      exact member
  | part piece => exact member

end SageNotation
