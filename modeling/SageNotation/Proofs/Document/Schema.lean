import SageNotation.Proofs.Document.View
import SageNotation.Proofs.Token.Lexeme

/-!
The classes of nodes and their fields.

A table says which fields a node of each class has.  A tree is regular when all its nodes
keep to the table, and when the names that are fixed by the notation stand in the one
field they belong to and nowhere else.  Every tree of a document is regular
(`Document.regular_toTree`).
-/

namespace SageNotation

namespace Tree

/-- The fields of every class of node, in order. -/
def schema : List (String × List String) :=
  [("NamedType", ["name"]), ("GenericType", ["name", "args"]), ("RecordType", ["fields"]),
    ("FieldDef", ["name", "type_expr"]), ("Requirement", ["condition"]),
    ("Ensures", ["condition"]), ("NaturalText", ["text"]), ("DecisionMarker", ["text"]),
    ("LetBinding", ["name", "value", "decision"]),
    ("Conditional", ["condition", "then", "otherwise", "decision"]), ("ReturnStmt", ["value"]),
    ("RawLine", ["text"]), ("Param", ["name", "type_expr"]), ("Property", ["description"]),
    ("StateField", ["name", "type_expr"]), ("Invariant", ["expression"]),
    ("Preserves", ["description", "checked"]), ("MapsClause", ["description", "mappings"]),
    ("CompareWith", ["target", "advantages", "disadvantages"]),
    ("ModuleDecl", ["name", "description"]), ("TypeDecl", ["name", "fields"]),
    ("FunctionDecl", ["name", "params", "return_type", "description", "contracts", "body"]),
    ("OperationDecl", ["name", "params", "return_type", "description", "contracts", "body"]),
    ("SpecDecl", ["name", "description", "properties", "state", "invariants"]),
    ("RefineDecl", ["parent", "child", "tag", "description", "decisions", "state", "preserves",
      "maps", "compare_with"]),
    ("ImplDecl", ["target", "body"]), ("InferredAnnotation", ["annotation", "condition", "reason"]),
    ("SectionSeparator", []), ("Document", ["body"])]

def fieldNames (label : String) : List String :=
  (schema.lookup label).getD []

/-- The field that holds a name fixed by the notation. -/
def holdsChoice (field : String) : Bool :=
  field == "annotation"

mutual

/-- All nodes have the fields of their class; the tree itself is a fixed name if and only if
one is expected. -/
def Regular (chosen : Bool) : Tree → Prop
  | node label fields _ => fields.map Prod.fst = fieldNames label ∧ FieldsRegular fields
  | list items => ItemsRegular items
  | text _ => chosen = false
  | choice _ => chosen = true
  | flag _ => True
  | absent => True

def ItemsRegular : List Tree → Prop
  | [] => True
  | item :: others => Regular false item ∧ ItemsRegular others

def FieldsRegular : List (String × Tree) → Prop
  | [] => True
  | (name, value) :: others => Regular (holdsChoice name) value ∧ FieldsRegular others

end

theorem itemsRegular_iff {items : List Tree} :
    ItemsRegular items ↔ ∀ item ∈ items, Regular false item := by
  induction items with
  | nil => exact iff_of_true trivial (List.forall_mem_nil _)
  | cons item others ih => rw [ItemsRegular, ih, List.forall_mem_cons]

theorem regular_map {α : Type} {tree : α → Tree} (each : ∀ node, Regular false (tree node))
    (nodes : List α) : ItemsRegular (nodes.map tree) := by
  rw [itemsRegular_iff]
  intro item member
  obtain ⟨node, _, rfl⟩ := List.mem_map.mp member
  exact each node

theorem regular_optionalText (text : Option String) : Regular false (optionalText text) := by
  cases text
  · trivial
  · rfl

theorem regular_optional {α : Type} {tree : α → Tree} (each : ∀ node, Regular false (tree node))
    (node : Option α) : Regular false (node.elim .absent tree) := by
  cases node with
  | none => trivial
  | some node => exact each node

/-- No field is named like the label of a node or its span, and no two are named alike. -/
theorem fieldNames_sound (label : String) :
    (fieldNames label).Nodup ∧ "kind" ∉ fieldNames label ∧ "span" ∉ fieldNames label := by
  have each : ∀ entry ∈ schema, entry.2.Nodup ∧ "kind" ∉ entry.2 ∧ "span" ∉ entry.2 := by decide
  unfold fieldNames
  cases found : schema.lookup label with
  | none => exact ⟨List.nodup_nil, List.not_mem_nil, List.not_mem_nil⟩
  | some names => exact each _ (mem_of_lookup found)

end Tree

open SageNotation.Tree

/-! ### Types -/

mutual

theorem TypeExpr.regular_toTree : ∀ type : TypeExpr, Regular false type.toTree
  | .named _ _ => ⟨rfl, rfl, trivial⟩
  | .generic _ args _ => ⟨rfl, rfl, itemsRegular_types args, trivial⟩
  | .record fields _ => ⟨rfl, itemsRegular_fields fields, trivial⟩
  | .verbatim _ => rfl

theorem itemsRegular_types : ∀ types : List TypeExpr, ItemsRegular (typesToTrees types)
  | [] => trivial
  | type :: others => ⟨TypeExpr.regular_toTree type, itemsRegular_types others⟩

theorem Field.regular_toTree : ∀ field : Field, Regular false field.toTree
  | .mk _ type _ => ⟨rfl, rfl, TypeExpr.regular_toTree type, trivial⟩

theorem itemsRegular_fields : ∀ fields : List Field, ItemsRegular (fieldsToTrees fields)
  | [] => trivial
  | field :: others => ⟨Field.regular_toTree field, itemsRegular_fields others⟩

end

/-! ### Pieces of declarations -/

theorem Contract.regular_toTree (contract : Contract) : Regular false contract.toTree := by
  obtain ⟨kind, _, _⟩ := contract
  cases kind <;> exact ⟨rfl, rfl, trivial⟩

theorem Param.regular_toTree (param : Param) : Regular false param.toTree :=
  ⟨rfl, rfl, regular_optional TypeExpr.regular_toTree param.type, trivial⟩

theorem Property.regular_toTree (property : Property) : Regular false property.toTree :=
  ⟨rfl, rfl, trivial⟩

theorem StateField.regular_toTree (field : StateField) : Regular false field.toTree :=
  ⟨rfl, rfl, field.type.regular_toTree, trivial⟩

theorem Invariant.regular_toTree (invariant : Invariant) : Regular false invariant.toTree :=
  ⟨rfl, rfl, trivial⟩

theorem Preserved.regular_toTree (preserved : Preserved) : Regular false preserved.toTree :=
  ⟨rfl, rfl, trivial, trivial⟩

theorem Mapping.regular_toTree (mapping : Mapping) : Regular false mapping.toTree := by
  have texts : ∀ line, Regular false (.text line) := fun _ => rfl
  exact ⟨rfl, rfl, regular_map texts mapping.lines, trivial⟩

theorem Comparison.regular_toTree (comparison : Comparison) : Regular false comparison.toTree :=
  ⟨rfl, rfl, regular_optionalText comparison.advantages,
    regular_optionalText comparison.disadvantages, trivial⟩

/-! ### Items -/

theorem Decision.regular_toTree (decision : Decision) : Regular false decision.toTree :=
  ⟨rfl, rfl, trivial⟩

theorem Statement.regular_toTree (statement : Statement) : Regular false statement.toTree := by
  cases statement with
  | prose | ret | raw => exact ⟨rfl, rfl, trivial⟩
  | decision node => exact node.regular_toTree
  | binding => exact ⟨rfl, rfl, rfl, trivial, trivial⟩
  | conditional node =>
      exact ⟨rfl, rfl, rfl, regular_optionalText node.alternative, trivial, trivial⟩

theorem Callable.regular_toTree (callable : Callable) {label : String}
    (fields : fieldNames label = fieldNames "FunctionDecl") :
    Regular false (callable.toTree label) := by
  constructor
  · exact fields.symm
  · exact ⟨rfl, regular_map Param.regular_toTree callable.params,
      regular_optional TypeExpr.regular_toTree callable.returnType,
      regular_optionalText callable.description,
      regular_map Contract.regular_toTree callable.contracts,
      regular_map Statement.regular_toTree callable.body, trivial⟩

theorem Declaration.regular_toTree (decl : Declaration) : Regular false decl.toTree := by
  cases decl with
  | module decl => exact ⟨rfl, rfl, regular_optionalText decl.description, trivial⟩
  | type decl => exact ⟨rfl, rfl, itemsRegular_fields decl.fields, trivial⟩
  | function decl | operation decl => exact decl.regular_toTree rfl
  | spec decl =>
      exact ⟨rfl, rfl, regular_optionalText decl.description,
        regular_map Property.regular_toTree decl.properties,
        regular_map StateField.regular_toTree decl.state,
        regular_map Invariant.regular_toTree decl.invariants, trivial⟩
  | refinement decl =>
      exact ⟨rfl, rfl, regular_optionalText decl.child, regular_optionalText decl.tag,
        regular_optionalText decl.description, regular_map Decision.regular_toTree decl.decisions,
        regular_map StateField.regular_toTree decl.state,
        regular_map Preserved.regular_toTree decl.preserves,
        regular_map Mapping.regular_toTree decl.maps,
        regular_optional Comparison.regular_toTree decl.comparison, trivial⟩
  | implementation decl => exact ⟨rfl, regular_optionalText decl.target, rfl, trivial⟩

theorem InferredFact.regular_toTree (fact : InferredFact) : Regular false fact.toTree :=
  ⟨rfl, rfl, rfl, regular_optionalText fact.reason, trivial⟩

theorem Part.regular_toTree (part : Part) : Regular false part.toTree := by
  cases part with
  | type piece => exact piece.regular_toTree
  | field piece => exact piece.regular_toTree
  | contract piece => exact piece.regular_toTree
  | param piece => exact piece.regular_toTree
  | property piece => exact piece.regular_toTree
  | stateField piece => exact piece.regular_toTree
  | invariant piece => exact piece.regular_toTree
  | preserved piece => exact piece.regular_toTree
  | mapping piece => exact piece.regular_toTree
  | comparison piece => exact piece.regular_toTree

theorem Item.regular_toTree (item : Item) : Regular false item.toTree := by
  cases item with
  | declaration decl => exact decl.regular_toTree
  | inferred fact => exact fact.regular_toTree
  | separator span => exact ⟨rfl, trivial⟩
  | statement line => exact line.regular_toTree
  | part piece => exact piece.regular_toTree

theorem Document.regular_toTree (document : Document) : Regular false document.toTree :=
  ⟨rfl, regular_map Item.regular_toTree document.body, trivial⟩

end SageNotation
