import SageNotation.Document.Tree

/-!
A node can be told from its tree.

The label of a tree tells which class its node has, so nodes of different classes
have different trees, and the fields hold all that a node of that class holds.
-/

namespace SageNotation

namespace Tree

theorem optionalText_inj {left right : Option String} :
    optionalText left = optionalText right ↔ left = right := by
  cases left with
  | none => cases right <;> simp [optionalText]
  | some text => cases right <;> simp [optionalText]

theorem map_inj {α : Type} {tree : α → Tree} {left right : List α}
    (inj : ∀ {left right}, tree left = tree right ↔ left = right) :
    left.map tree = right.map tree ↔ left = right :=
  List.map_inj_right fun _ _ => inj.mp

theorem optional_inj {α : Type} {tree : α → Tree} {left right : Option α}
    (inj : ∀ {left right}, tree left = tree right ↔ left = right)
    (present : ∀ node, tree node ≠ .absent) :
    left.elim .absent tree = right.elim .absent tree ↔ left = right := by
  cases left with
  | none =>
      cases right with
      | none => simp
      | some other => simp [(present other).symm]
  | some node =>
      cases right with
      | none => simp [present node]
      | some other => simp [inj]

def label : Tree → String
  | node label _ _ => label
  | _ => ""

end Tree

/-! ### Types -/

mutual

theorem TypeExpr.eq_of_toTree : ∀ {left right : TypeExpr},
    left.toTree = right.toTree → left = right
  | .named _ _, right, same => by
      cases right <;> simp [TypeExpr.toTree] at same ⊢
      exact same
  | .generic _ _ _, right, same => by
      cases right <;> simp [TypeExpr.toTree] at same ⊢
      exact ⟨same.1.1, eq_of_typesToTrees same.1.2, same.2⟩
  | .record _ _, right, same => by
      cases right <;> simp [TypeExpr.toTree] at same ⊢
      exact ⟨eq_of_fieldsToTrees same.1, same.2⟩
  | .verbatim _, right, same => by
      cases right <;> simp [TypeExpr.toTree] at same ⊢
      exact same

theorem eq_of_typesToTrees : ∀ {left right : List TypeExpr},
    typesToTrees left = typesToTrees right → left = right
  | [], [], _ => rfl
  | [], _ :: _, same => by simp [typesToTrees] at same
  | _ :: _, [], same => by simp [typesToTrees] at same
  | _ :: _, _ :: _, same => by
      simp only [typesToTrees, List.cons.injEq] at same
      rw [TypeExpr.eq_of_toTree same.1, eq_of_typesToTrees same.2]

theorem Field.eq_of_toTree : ∀ {left right : Field}, left.toTree = right.toTree → left = right
  | .mk _ _ _, .mk _ _ _, same => by
      simp [Field.toTree] at same ⊢
      exact ⟨same.1.1, TypeExpr.eq_of_toTree same.1.2, same.2⟩

theorem eq_of_fieldsToTrees : ∀ {left right : List Field},
    fieldsToTrees left = fieldsToTrees right → left = right
  | [], [], _ => rfl
  | [], _ :: _, same => by simp [fieldsToTrees] at same
  | _ :: _, [], same => by simp [fieldsToTrees] at same
  | _ :: _, _ :: _, same => by
      simp only [fieldsToTrees, List.cons.injEq] at same
      rw [Field.eq_of_toTree same.1, eq_of_fieldsToTrees same.2]

end

namespace TypeExpr

theorem toTree_inj {left right : TypeExpr} : left.toTree = right.toTree ↔ left = right :=
  ⟨eq_of_toTree, congrArg toTree⟩

theorem toTree_ne_absent (type : TypeExpr) : type.toTree ≠ .absent := by
  cases type <;> simp [toTree]

end TypeExpr

theorem fieldsToTrees_inj {left right : List Field} :
    fieldsToTrees left = fieldsToTrees right ↔ left = right :=
  ⟨eq_of_fieldsToTrees, congrArg fieldsToTrees⟩

theorem Field.toTree_inj {left right : Field} : left.toTree = right.toTree ↔ left = right :=
  ⟨eq_of_toTree, congrArg toTree⟩

/-! ### Pieces of declarations -/

theorem Contract.toTree_inj {left right : Contract} :
    left.toTree = right.toTree ↔ left = right := by
  obtain ⟨kind, _, _⟩ := left
  obtain ⟨other, _, _⟩ := right
  cases kind <;> cases other <;> simp [toTree]

theorem Param.toTree_inj {left right : Param} : left.toTree = right.toTree ↔ left = right := by
  obtain ⟨_, _, _⟩ := left
  obtain ⟨_, _, _⟩ := right
  simp [toTree, Tree.optional_inj TypeExpr.toTree_inj TypeExpr.toTree_ne_absent, and_assoc]

theorem Property.toTree_inj {left right : Property} :
    left.toTree = right.toTree ↔ left = right := by
  obtain ⟨_, _⟩ := left
  obtain ⟨_, _⟩ := right
  simp [toTree]

theorem StateField.toTree_inj {left right : StateField} :
    left.toTree = right.toTree ↔ left = right := by
  obtain ⟨_, _, _⟩ := left
  obtain ⟨_, _, _⟩ := right
  simp [toTree, TypeExpr.toTree_inj, and_assoc]

theorem Invariant.toTree_inj {left right : Invariant} :
    left.toTree = right.toTree ↔ left = right := by
  obtain ⟨_, _⟩ := left
  obtain ⟨_, _⟩ := right
  simp [toTree]

theorem Preserved.toTree_inj {left right : Preserved} :
    left.toTree = right.toTree ↔ left = right := by
  obtain ⟨_, _, _⟩ := left
  obtain ⟨_, _, _⟩ := right
  simp [toTree, and_assoc]

theorem Mapping.toTree_inj {left right : Mapping} : left.toTree = right.toTree ↔ left = right := by
  have texts : ∀ {text other : String}, Tree.text text = .text other ↔ text = other :=
    fun {_ _} => ⟨Tree.text.inj, congrArg Tree.text⟩
  obtain ⟨_, _, _⟩ := left
  obtain ⟨_, _, _⟩ := right
  simp [toTree, Tree.map_inj texts, and_assoc]

theorem Comparison.toTree_inj {left right : Comparison} :
    left.toTree = right.toTree ↔ left = right := by
  obtain ⟨_, _, _, _⟩ := left
  obtain ⟨_, _, _, _⟩ := right
  simp [toTree, Tree.optionalText_inj, and_assoc]

/-! ### Items -/

theorem Decision.toTree_inj {left right : Decision} :
    left.toTree = right.toTree ↔ left = right := by
  obtain ⟨_, _⟩ := left
  obtain ⟨_, _⟩ := right
  simp [toTree]

theorem Statement.toTree_inj {left right : Statement} :
    left.toTree = right.toTree ↔ left = right := by
  constructor
  · intro same
    cases left <;> cases right <;> simp [toTree, Decision.toTree] at same ⊢
    all_goals
      rename_i left right
      cases left
      cases right
      simpa [Tree.optionalText_inj, and_assoc] using same
  · rintro rfl
    rfl

theorem Callable.toTree_inj (label : String) {left right : Callable} :
    left.toTree label = right.toTree label ↔ left = right := by
  obtain ⟨_, _, _, _, _, _, _⟩ := left
  obtain ⟨_, _, _, _, _, _, _⟩ := right
  simp [toTree, Tree.map_inj Param.toTree_inj, Tree.map_inj Contract.toTree_inj,
    Tree.map_inj Statement.toTree_inj, Tree.optionalText_inj,
    Tree.optional_inj TypeExpr.toTree_inj TypeExpr.toTree_ne_absent, and_assoc]

theorem Declaration.toTree_inj {left right : Declaration} :
    left.toTree = right.toTree ↔ left = right := by
  constructor
  · intro same
    cases left <;> cases right <;> simp [toTree, Callable.toTree] at same ⊢
    case function.function | operation.operation =>
      exact (Callable.toTree_inj "").mp (by simp [Callable.toTree, same])
    all_goals
      rename_i left right
      cases left
      cases right
      simpa [Tree.optionalText_inj, fieldsToTrees_inj, Tree.map_inj Property.toTree_inj,
        Tree.map_inj StateField.toTree_inj, Tree.map_inj Invariant.toTree_inj,
        Tree.map_inj Decision.toTree_inj, Tree.map_inj Preserved.toTree_inj,
        Tree.map_inj Mapping.toTree_inj,
        Tree.optional_inj Comparison.toTree_inj fun _ => Tree.noConfusion, and_assoc] using same
  · rintro rfl
    rfl

theorem Inference.name_inj {left right : Inference} : left.name = right.name ↔ left = right := by
  cases left <;> cases right <;> simp [name]

theorem InferredFact.toTree_inj {left right : InferredFact} :
    left.toTree = right.toTree ↔ left = right := by
  obtain ⟨_, _, _, _⟩ := left
  obtain ⟨_, _, _, _⟩ := right
  simp [toTree, Inference.name_inj, Tree.optionalText_inj, and_assoc]

namespace Part

/-- The class of a piece, numbered as in `Part`, by the label of its tree. -/
def classOf (label : String) : Nat :=
  if label = "FieldDef" then 1
  else if label = "Requirement" ∨ label = "Ensures" then 2
  else if label = "Param" then 3
  else if label = "Property" then 4
  else if label = "StateField" then 5
  else if label = "Invariant" then 6
  else if label = "Preserves" then 7
  else if label = "MapsClause" then 8
  else if label = "CompareWith" then 9
  else 0

theorem classOf_toTree (part : Part) : classOf part.toTree.label = part.ctorIdx := by
  cases part with
  | type piece => cases piece <;> simp [toTree, TypeExpr.toTree, Tree.label, classOf, Part.ctorIdx]
  | field piece =>
      cases piece
      simp [toTree, Field.toTree, Tree.label, classOf, Part.ctorIdx]
  | contract piece =>
      obtain ⟨kind, _, _⟩ := piece
      cases kind <;> simp [toTree, Contract.toTree, Tree.label, classOf, Part.ctorIdx]
  | param => simp [toTree, Param.toTree, Tree.label, classOf, Part.ctorIdx]
  | property => simp [toTree, Property.toTree, Tree.label, classOf, Part.ctorIdx]
  | stateField => simp [toTree, StateField.toTree, Tree.label, classOf, Part.ctorIdx]
  | invariant => simp [toTree, Invariant.toTree, Tree.label, classOf, Part.ctorIdx]
  | preserved => simp [toTree, Preserved.toTree, Tree.label, classOf, Part.ctorIdx]
  | mapping => simp [toTree, Mapping.toTree, Tree.label, classOf, Part.ctorIdx]
  | comparison => simp [toTree, Comparison.toTree, Tree.label, classOf, Part.ctorIdx]

theorem toTree_inj {left right : Part} : left.toTree = right.toTree ↔ left = right := by
  constructor
  · intro same
    have alike : left.ctorIdx = right.ctorIdx := by
      rw [← classOf_toTree, same, classOf_toTree]
    cases left <;> cases right <;> cases alike
    case mp.type.type.refl => exact congrArg type (TypeExpr.toTree_inj.mp same)
    case mp.field.field.refl => exact congrArg field (Field.toTree_inj.mp same)
    case mp.contract.contract.refl => exact congrArg contract (Contract.toTree_inj.mp same)
    case mp.param.param.refl => exact congrArg param (Param.toTree_inj.mp same)
    case mp.property.property.refl => exact congrArg property (Property.toTree_inj.mp same)
    case mp.stateField.stateField.refl => exact congrArg stateField (StateField.toTree_inj.mp same)
    case mp.invariant.invariant.refl => exact congrArg invariant (Invariant.toTree_inj.mp same)
    case mp.preserved.preserved.refl => exact congrArg preserved (Preserved.toTree_inj.mp same)
    case mp.mapping.mapping.refl => exact congrArg mapping (Mapping.toTree_inj.mp same)
    case mp.comparison.comparison.refl => exact congrArg comparison (Comparison.toTree_inj.mp same)
  · rintro rfl
    rfl

end Part

namespace Item

/-- The class of an item, numbered as in `Item`, by the label of its tree. -/
def classOf (label : String) : Nat :=
  if label ∈ ["ModuleDecl", "TypeDecl", "FunctionDecl", "SpecDecl", "OperationDecl", "RefineDecl",
    "ImplDecl"] then 0
  else if label = "InferredAnnotation" then 1
  else if label = "SectionSeparator" then 2
  else if label ∈ ["NaturalText", "DecisionMarker", "LetBinding", "Conditional", "ReturnStmt",
    "RawLine"] then 3
  else 4

theorem classOf_toTree (item : Item) : classOf item.toTree.label = item.ctorIdx := by
  cases item with
  | declaration decl =>
      cases decl <;>
        simp [toTree, Declaration.toTree, Callable.toTree, Tree.label, classOf, Item.ctorIdx]
  | inferred fact => simp [toTree, InferredFact.toTree, Tree.label, classOf, Item.ctorIdx]
  | separator span => simp [toTree, Tree.label, classOf, Item.ctorIdx]
  | statement line =>
      cases line <;>
        simp [toTree, Statement.toTree, Decision.toTree, Tree.label, classOf, Item.ctorIdx]
  | part piece =>
      cases piece with
      | type piece =>
          cases piece <;>
            simp [toTree, Part.toTree, TypeExpr.toTree, Tree.label, classOf, Item.ctorIdx]
      | field piece =>
          cases piece
          simp [toTree, Part.toTree, Field.toTree, Tree.label, classOf, Item.ctorIdx]
      | contract piece =>
          obtain ⟨kind, _, _⟩ := piece
          cases kind <;>
            simp [toTree, Part.toTree, Contract.toTree, Tree.label, classOf, Item.ctorIdx]
      | _ =>
          simp [toTree, Part.toTree, Param.toTree, Property.toTree, StateField.toTree,
            Invariant.toTree, Preserved.toTree, Mapping.toTree, Comparison.toTree, Tree.label,
            classOf, Item.ctorIdx]

theorem toTree_inj {left right : Item} : left.toTree = right.toTree ↔ left = right := by
  constructor
  · intro same
    have alike : left.ctorIdx = right.ctorIdx := by
      rw [← classOf_toTree, same, classOf_toTree]
    cases left <;> cases right <;> cases alike
    case mp.declaration.declaration.refl =>
      exact congrArg declaration (Declaration.toTree_inj.mp same)
    case mp.inferred.inferred.refl => exact congrArg inferred (InferredFact.toTree_inj.mp same)
    case mp.separator.separator.refl => exact congrArg separator (Tree.node.inj same).2.2
    case mp.statement.statement.refl => exact congrArg statement (Statement.toTree_inj.mp same)
    case mp.part.part.refl => exact congrArg part (Part.toTree_inj.mp same)
  · rintro rfl
    rfl

end Item

end SageNotation
