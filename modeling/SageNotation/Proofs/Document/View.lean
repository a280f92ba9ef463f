import SageNotation.Document.Tree
import SageNotation.Proofs.Document.Unplaced

/-!
Trees under a view of their spans.

`Tree.viewed` puts what a view makes of a span in the place of the span, at every
node.  Under the view that sees nothing two trees agree if they have the same
plain data without spans, and under the view that sees everything only if they
are the same tree.  The view that sees nothing makes of a tree what `unplaced`
makes of its node.
-/

namespace SageNotation

namespace Tree

mutual

def viewed (view : Span → Span) : Tree → Tree
  | node label fields span => node label (viewedFields view fields) (view span)
  | list items => list (viewedItems view items)
  | text value => text value
  | choice name => choice name
  | flag value => flag value
  | absent => absent

def viewedItems (view : Span → Span) : List Tree → List Tree
  | [] => []
  | item :: others => viewed view item :: viewedItems view others

def viewedFields (view : Span → Span) : List (String × Tree) → List (String × Tree)
  | [] => []
  | (name, value) :: others => (name, viewed view value) :: viewedFields view others

end

theorem viewedItems_eq_map (view : Span → Span) (items : List Tree) :
    viewedItems view items = items.map (viewed view) := by
  induction items with
  | nil => rfl
  | cons item others ih => rw [viewedItems, ih, List.map_cons]

mutual

theorem viewed_id : ∀ tree : Tree, tree.viewed id = tree
  | node _ fields _ => by rw [viewed, viewedFields_id fields, id]
  | list items => by rw [viewed, viewedItems_id items]
  | text _ => by rw [viewed]
  | choice _ => by rw [viewed]
  | flag _ => by rw [viewed]
  | absent => by rw [viewed]

theorem viewedItems_id : ∀ items : List Tree, viewedItems id items = items
  | [] => by rw [viewedItems]
  | item :: others => by rw [viewedItems, viewed_id item, viewedItems_id others]

theorem viewedFields_id : ∀ fields : List (String × Tree), viewedFields id fields = fields
  | [] => by rw [viewedFields]
  | (_, value) :: others => by rw [viewedFields, viewed_id value, viewedFields_id others]

end

mutual

/-- Without its spans the data of a tree is the same under every view. -/
theorem toData_viewed (view : Span → Span) : ∀ tree : Tree,
    (tree.viewed view).toData false = tree.toData false
  | node _ fields _ => by
      simp only [viewed, toData, fieldsToData_viewed view fields, Bool.false_eq_true, if_false]
  | list items => by rw [viewed, toData, itemsToData_viewed view items, toData]
  | text _ => by rw [viewed]
  | choice _ => by rw [viewed]
  | flag _ => by rw [viewed]
  | absent => by rw [viewed]

theorem itemsToData_viewed (view : Span → Span) : ∀ items : List Tree,
    itemsToData false (viewedItems view items) = itemsToData false items
  | [] => by rw [viewedItems]
  | item :: others => by
      rw [viewedItems, itemsToData, toData_viewed view item, itemsToData_viewed view others,
        itemsToData]

theorem fieldsToData_viewed (view : Span → Span) : ∀ fields : List (String × Tree),
    fieldsToData false (viewedFields view fields) = fieldsToData false fields
  | [] => by rw [viewedFields]
  | (_, value) :: others => by
      rw [viewedFields, fieldsToData, toData_viewed view value, fieldsToData_viewed view others,
        fieldsToData]

end

end Tree

theorem typesToTrees_eq_map (types : List TypeExpr) :
    typesToTrees types = types.map TypeExpr.toTree := by
  induction types with
  | nil => rfl
  | cons type others ih => rw [typesToTrees, ih, List.map_cons]

theorem fieldsToTrees_eq_map (fields : List Field) :
    fieldsToTrees fields = fields.map Field.toTree := by
  induction fields with
  | nil => rfl
  | cons field others ih => rw [fieldsToTrees, ih, List.map_cons]

/-! ### Nodes without their places -/

/-- The view that sees no span. -/
def Span.unseen (_ : Span) : Span :=
  .nowhere

mutual

theorem TypeExpr.toTree_unplaced : ∀ type : TypeExpr,
    type.unplaced.toTree = type.toTree.viewed Span.unseen
  | .named _ _ => rfl
  | .generic _ args _ => by
      simp only [TypeExpr.unplaced, TypeExpr.toTree, Tree.viewed, Tree.viewedFields,
        typesToTrees_unplaced args, Span.unseen]
  | .record fields _ => by
      simp only [TypeExpr.unplaced, TypeExpr.toTree, Tree.viewed, Tree.viewedFields,
        fieldsToTrees_unplaced fields, Span.unseen]
  | .verbatim _ => rfl

theorem typesToTrees_unplaced : ∀ types : List TypeExpr,
    typesToTrees (unplacedTypes types) = Tree.viewedItems Span.unseen (typesToTrees types)
  | [] => rfl
  | type :: others => by
      simp only [unplacedTypes, typesToTrees, Tree.viewedItems, TypeExpr.toTree_unplaced type,
        typesToTrees_unplaced others]

theorem fieldsToTrees_unplaced : ∀ fields : List Field,
    fieldsToTrees (unplacedFields fields) = Tree.viewedItems Span.unseen (fieldsToTrees fields)
  | [] => rfl
  | .mk _ type _ :: others => by
      simp only [unplacedFields, fieldsToTrees, Field.toTree, Tree.viewedItems, Tree.viewed,
        Tree.viewedFields, TypeExpr.toTree_unplaced type, fieldsToTrees_unplaced others, Span.unseen]

end

theorem Field.toTree_unplaced : ∀ field : Field,
    field.unplaced.toTree = field.toTree.viewed Span.unseen
  | .mk _ type _ => by
      simp only [unplaced, toTree, Tree.viewed, Tree.viewedFields, TypeExpr.toTree_unplaced type,
        Span.unseen]

namespace Tree

theorem map_unplaced {α : Type} {tree : α → Tree} {change : α → α}
    (each : ∀ node, tree (change node) = (tree node).viewed Span.unseen) (nodes : List α) :
    (nodes.map change).map tree = viewedItems Span.unseen (nodes.map tree) := by
  rw [viewedItems_eq_map, List.map_map, List.map_map]
  exact List.map_congr_left fun node _ => each node

theorem optional_unplaced {α : Type} {tree : α → Tree} {change : α → α}
    (each : ∀ node, tree (change node) = (tree node).viewed Span.unseen) (node : Option α) :
    (node.map change).elim .absent tree = (node.elim .absent tree).viewed Span.unseen := by
  cases node with
  | none => rfl
  | some node => exact each node

theorem viewed_optionalText (view : Span → Span) (text : Option String) :
    (optionalText text).viewed view = optionalText text := by
  cases text <;> rfl

end Tree

theorem Contract.toTree_unplaced (contract : Contract) :
    { contract with span := .nowhere }.toTree = contract.toTree.viewed Span.unseen := rfl

theorem Property.toTree_unplaced (property : Property) :
    { property with span := .nowhere }.toTree = property.toTree.viewed Span.unseen := rfl

theorem Invariant.toTree_unplaced (invariant : Invariant) :
    { invariant with span := .nowhere }.toTree = invariant.toTree.viewed Span.unseen := rfl

theorem Decision.toTree_unplaced (decision : Decision) :
    { decision with span := .nowhere }.toTree = decision.toTree.viewed Span.unseen := rfl

theorem Preserved.toTree_unplaced (preserved : Preserved) :
    { preserved with span := .nowhere }.toTree = preserved.toTree.viewed Span.unseen := rfl

theorem Mapping.toTree_unplaced (mapping : Mapping) :
    { mapping with span := .nowhere }.toTree = mapping.toTree.viewed Span.unseen := by
  have texts : Tree.viewedItems Span.unseen (mapping.lines.map .text) = mapping.lines.map .text := by
    rw [Tree.viewedItems_eq_map, List.map_map]
    rfl
  simp only [toTree, Tree.viewed, Tree.viewedFields, Span.unseen, texts]

theorem Comparison.toTree_unplaced (comparison : Comparison) :
    { comparison with span := .nowhere }.toTree = comparison.toTree.viewed Span.unseen := by
  simp only [toTree, Tree.viewed, Tree.viewedFields, Span.unseen, Tree.viewed_optionalText]

theorem Statement.toTree_unplaced (statement : Statement) :
    statement.unplaced.toTree = statement.toTree.viewed Span.unseen := by
  cases statement <;>
    simp only [unplaced, toTree, Decision.toTree, Tree.viewed, Tree.viewedFields, Span.unseen,
      Tree.viewed_optionalText]

theorem Param.toTree_unplaced (param : Param) :
    param.unplaced.toTree = param.toTree.viewed Span.unseen := by
  simp only [unplaced, toTree, Tree.viewed, Tree.viewedFields, Span.unseen,
    Tree.optional_unplaced TypeExpr.toTree_unplaced]

theorem StateField.toTree_unplaced (field : StateField) :
    field.unplaced.toTree = field.toTree.viewed Span.unseen := by
  simp only [unplaced, toTree, Tree.viewed, Tree.viewedFields, Span.unseen,
    TypeExpr.toTree_unplaced]

theorem Callable.toTree_unplaced (label : String) (callable : Callable) :
    callable.unplaced.toTree label = (callable.toTree label).viewed Span.unseen := by
  simp only [unplaced, toTree, Tree.viewed, Tree.viewedFields, Tree.viewed_optionalText, Span.unseen,
    Tree.map_unplaced Param.toTree_unplaced, Tree.map_unplaced Statement.toTree_unplaced,
    Tree.map_unplaced Contract.toTree_unplaced, Tree.optional_unplaced TypeExpr.toTree_unplaced]

theorem Declaration.toTree_unplaced (decl : Declaration) :
    decl.unplaced.toTree = decl.toTree.viewed Span.unseen := by
  cases decl with
  | module decl =>
      simp only [unplaced, toTree, Tree.viewed, Tree.viewedFields, Tree.viewed_optionalText,
        Span.unseen]
  | type decl =>
      simp only [unplaced, toTree, Tree.viewed, Tree.viewedFields, Span.unseen,
        fieldsToTrees_unplaced]
  | function decl => exact decl.toTree_unplaced "FunctionDecl"
  | spec decl =>
      simp only [unplaced, toTree, Tree.viewed, Tree.viewedFields, Tree.viewed_optionalText,
        Span.unseen, Tree.map_unplaced StateField.toTree_unplaced,
        Tree.map_unplaced Property.toTree_unplaced, Tree.map_unplaced Invariant.toTree_unplaced]
  | operation decl => exact decl.toTree_unplaced "OperationDecl"
  | refinement decl =>
      simp only [unplaced, toTree, Tree.viewed, Tree.viewedFields, Tree.viewed_optionalText,
        Span.unseen, Tree.map_unplaced StateField.toTree_unplaced,
        Tree.map_unplaced Decision.toTree_unplaced, Tree.map_unplaced Preserved.toTree_unplaced,
        Tree.map_unplaced Mapping.toTree_unplaced,
        Tree.optional_unplaced Comparison.toTree_unplaced]
  | implementation decl =>
      simp only [unplaced, toTree, Tree.viewed, Tree.viewedFields, Tree.viewed_optionalText,
        Span.unseen]

theorem Part.toTree_unplaced (part : Part) :
    part.unplaced.toTree = part.toTree.viewed Span.unseen := by
  cases part with
  | type piece => exact piece.toTree_unplaced
  | field piece => exact piece.toTree_unplaced
  | param piece => exact piece.toTree_unplaced
  | stateField piece => exact piece.toTree_unplaced
  | mapping piece => exact piece.toTree_unplaced
  | comparison piece => exact piece.toTree_unplaced
  | contract | property | invariant | preserved => rfl

theorem Item.toTree_unplaced (item : Item) :
    item.unplaced.toTree = item.toTree.viewed Span.unseen := by
  cases item with
  | declaration decl => exact decl.toTree_unplaced
  | inferred fact =>
      simp only [unplaced, toTree, InferredFact.toTree, Tree.viewed, Tree.viewedFields,
        Tree.viewed_optionalText, Span.unseen]
  | separator => rfl
  | statement line => exact line.toTree_unplaced
  | part piece => exact piece.toTree_unplaced

theorem Document.toTree_unplaced (document : Document) :
    document.unplaced.toTree = document.toTree.viewed Span.unseen := by
  simp only [unplaced, toTree, Tree.viewed, Tree.viewedFields, Span.unseen,
    Tree.map_unplaced Item.toTree_unplaced]

/-- The plain data without spans is that of the document without its places. -/
theorem Document.toData_unplaced (document : Document) :
    document.unplaced.toData false = document.toData false := by
  rw [toData, toData, toTree_unplaced, Tree.toData_viewed]

end SageNotation
