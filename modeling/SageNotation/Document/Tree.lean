import SageNotation.Document.Basic
import SageNotation.Document.Data
import SageNotation.Text.Quoted

/-!
Documents as trees of labelled nodes.

`Document.toTree` gives every node the name of its class and its fields in
declaration order; the span stands apart from the fields.  Three views are read
off the tree: `Tree.toData` is plain data, with or without spans,
`Tree.outline` a listing with one field per line that leaves out spans, absent
values, false flags and empty lists, and `Tree.inline` a one-line form.
-/

namespace SageNotation

inductive Tree where
  | node (label : String) (fields : List (String × Tree)) (span : Span)
  | list (items : List Tree)
  | text (value : String)
  | choice (name : String)
  | flag (value : Bool)
  | absent

namespace Position

def toData (position : Position) : Data :=
  .object [("line", .int position.line), ("col", .int position.col),
    ("offset", .int position.offset)]

def inline (position : Position) : String :=
  "Position(offset=" ++ toString position.offset ++ ", line=" ++ toString position.line ++
    ", col=" ++ toString position.col ++ ")"

end Position

namespace Span

def toData (span : Span) : Data :=
  .object [("file", .text span.file), ("start", span.start.toData), ("end", span.stop.toData)]

def inline (span : Span) : String :=
  "Span(file=" ++ Text.quoted span.file ++ ", start=" ++ span.start.inline ++
    ", end=" ++ span.stop.inline ++ ")"

end Span

namespace Tree

def optionalText (value : Option String) : Tree :=
  value.elim absent text

mutual

def toData (spans : Bool) : Tree → Data
  | node label fields span =>
      .object (("kind", .text label) :: fieldsToData spans fields ++
        if spans then [("span", span.toData)] else [])
  | list items => .list (itemsToData spans items)
  | text value => .text value
  | choice name => .text name
  | flag value => .bool value
  | absent => .null

def itemsToData (spans : Bool) : List Tree → List Data
  | [] => []
  | item :: others => toData spans item :: itemsToData spans others

def fieldsToData (spans : Bool) : List (String × Tree) → List (String × Data)
  | [] => []
  | (name, value) :: others => (name, toData spans value) :: fieldsToData spans others

end

mutual

def inline : Tree → String
  | node label fields span =>
      label ++ "(" ++ String.intercalate ", " (inlineFields fields ++ ["span=" ++ span.inline]) ++ ")"
  | list items => Text.bracketed (inlineItems items)
  | text value => Text.quoted value
  | choice name => Text.quoted name
  | flag value => if value then "True" else "False"
  | absent => "None"

def inlineItems : List Tree → List String
  | [] => []
  | item :: others => inline item :: inlineItems others

def inlineFields : List (String × Tree) → List String
  | [] => []
  | (name, value) :: others => (name ++ "=" ++ inline value) :: inlineFields others

end

def startsWithNode : List Tree → Bool
  | node _ _ _ :: _ => true
  | _ => false

mutual

def outlineAt (depth : Nat) : Tree → List String
  | node label fields _ => (Data.indentation depth ++ label) :: outlineFields depth fields
  | text value => [Data.indentation depth ++ "str: " ++ Text.quoted value]
  | choice name => [Data.indentation depth ++ "str: " ++ Text.quoted name]
  | list _ => []
  | flag _ => []
  | absent => []

def outlineField (depth : Nat) (name : String) : Tree → List String
  | node label fields _ =>
      (Data.indentation (depth + 1) ++ name ++ ":") ::
        (Data.indentation (depth + 2) ++ label) :: outlineFields (depth + 2) fields
  | list items =>
      let heading := Data.indentation (depth + 1) ++ name ++ ":"
      if items.isEmpty then []
      else if startsWithNode items then heading :: outlineItems (depth + 2) items
      else [heading ++ " " ++ Text.bracketed (inlineItems items)]
  | text content => [Data.indentation (depth + 1) ++ name ++ ": " ++ Text.quoted content]
  | choice content => [Data.indentation (depth + 1) ++ name ++ ": " ++ content]
  | flag value => if value then [Data.indentation (depth + 1) ++ name ++ ": True"] else []
  | absent => []

def outlineFields (depth : Nat) : List (String × Tree) → List String
  | [] => []
  | (name, value) :: others => outlineField depth name value ++ outlineFields depth others

def outlineItems (depth : Nat) : List Tree → List String
  | [] => []
  | item :: others => outlineAt depth item ++ outlineItems depth others

end

/-- The listing of a tree, every line ended by a newline. -/
def outline (tree : Tree) : String :=
  String.join ((outlineAt 0 tree).map (· ++ "\n"))

end Tree

mutual

def TypeExpr.toTree : TypeExpr → Tree
  | .named name span => .node "NamedType" [("name", .text name)] span
  | .generic name args span =>
      .node "GenericType" [("name", .text name), ("args", .list (typesToTrees args))] span
  | .record fields span => .node "RecordType" [("fields", .list (fieldsToTrees fields))] span
  | .verbatim text => .text text

def typesToTrees : List TypeExpr → List Tree
  | [] => []
  | type :: others => type.toTree :: typesToTrees others

def Field.toTree : Field → Tree
  | .mk name type span =>
      .node "FieldDef" [("name", .text name), ("type_expr", type.toTree)] span

def fieldsToTrees : List Field → List Tree
  | [] => []
  | field :: others => field.toTree :: fieldsToTrees others

end

namespace Contract

def toTree (contract : Contract) : Tree :=
  let label :=
    match contract.kind with
    | .requires => "Requirement"
    | .ensures => "Ensures"
  .node label [("condition", .text contract.condition)] contract.span

end Contract

namespace Decision

def toTree (decision : Decision) : Tree :=
  .node "DecisionMarker" [("text", .text decision.text)] decision.span

end Decision

namespace Statement

def toTree : Statement → Tree
  | prose node => .node "NaturalText" [("text", .text node.text)] node.span
  | decision node => node.toTree
  | binding node =>
      .node "LetBinding"
        [("name", .text node.name), ("value", .text node.value),
          ("decision", .flag node.isDecision)] node.span
  | conditional node =>
      .node "Conditional"
        [("condition", .text node.condition), ("then", .text node.consequent),
          ("otherwise", .optionalText node.alternative), ("decision", .flag node.isDecision)]
        node.span
  | ret node => .node "ReturnStmt" [("value", .text node.value)] node.span
  | raw node => .node "RawLine" [("text", .text node.text)] node.span

end Statement

namespace Param

def toTree (param : Param) : Tree :=
  .node "Param"
    [("name", .text param.name), ("type_expr", param.type.elim .absent TypeExpr.toTree)] param.span

end Param

namespace Property

def toTree (property : Property) : Tree :=
  .node "Property" [("description", .text property.description)] property.span

end Property

namespace StateField

def toTree (field : StateField) : Tree :=
  .node "StateField" [("name", .text field.name), ("type_expr", field.type.toTree)] field.span

end StateField

namespace Invariant

def toTree (invariant : Invariant) : Tree :=
  .node "Invariant" [("expression", .text invariant.expression)] invariant.span

end Invariant

namespace Preserved

def toTree (preserved : Preserved) : Tree :=
  .node "Preserves"
    [("description", .text preserved.description), ("checked", .flag preserved.checked)]
    preserved.span

end Preserved

namespace Mapping

def toTree (mapping : Mapping) : Tree :=
  .node "MapsClause"
    [("description", .text mapping.description), ("mappings", .list (mapping.lines.map .text))]
    mapping.span

end Mapping

namespace Comparison

def toTree (comparison : Comparison) : Tree :=
  .node "CompareWith"
    [("target", .text comparison.target),
      ("advantages", .optionalText comparison.advantages),
      ("disadvantages", .optionalText comparison.disadvantages)] comparison.span

end Comparison

namespace Callable

def toTree (label : String) (callable : Callable) : Tree :=
  .node label
    [("name", .text callable.name),
      ("params", .list (callable.params.map Param.toTree)),
      ("return_type", callable.returnType.elim .absent TypeExpr.toTree),
      ("description", .optionalText callable.description),
      ("contracts", .list (callable.contracts.map Contract.toTree)),
      ("body", .list (callable.body.map Statement.toTree))] callable.span

end Callable

namespace Declaration

def toTree : Declaration → Tree
  | module decl =>
      .node "ModuleDecl"
        [("name", .text decl.name), ("description", .optionalText decl.description)] decl.span
  | type decl =>
      .node "TypeDecl"
        [("name", .text decl.name), ("fields", .list (fieldsToTrees decl.fields))] decl.span
  | function decl => decl.toTree "FunctionDecl"
  | spec decl =>
      .node "SpecDecl"
        [("name", .text decl.name), ("description", .optionalText decl.description),
          ("properties", .list (decl.properties.map Property.toTree)),
          ("state", .list (decl.state.map StateField.toTree)),
          ("invariants", .list (decl.invariants.map Invariant.toTree))] decl.span
  | operation decl => decl.toTree "OperationDecl"
  | refinement decl =>
      .node "RefineDecl"
        [("parent", .text decl.parent), ("child", .optionalText decl.child),
          ("tag", .optionalText decl.tag), ("description", .optionalText decl.description),
          ("decisions", .list (decl.decisions.map Decision.toTree)),
          ("state", .list (decl.state.map StateField.toTree)),
          ("preserves", .list (decl.preserves.map Preserved.toTree)),
          ("maps", .list (decl.maps.map Mapping.toTree)),
          ("compare_with", decl.comparison.elim .absent Comparison.toTree)] decl.span
  | implementation decl =>
      .node "ImplDecl"
        [("target", .optionalText decl.target), ("body", .text decl.body)] decl.span

end Declaration

namespace InferredFact

def toTree (fact : InferredFact) : Tree :=
  .node "InferredAnnotation"
    [("annotation", .choice fact.inference.name), ("condition", .text fact.condition),
      ("reason", .optionalText fact.reason)] fact.span

end InferredFact

namespace Part

def toTree : Part → Tree
  | type piece => piece.toTree
  | field piece => piece.toTree
  | contract piece => piece.toTree
  | param piece => piece.toTree
  | property piece => piece.toTree
  | stateField piece => piece.toTree
  | invariant piece => piece.toTree
  | preserved piece => piece.toTree
  | mapping piece => piece.toTree
  | comparison piece => piece.toTree

end Part

namespace Item

def toTree : Item → Tree
  | declaration decl => decl.toTree
  | inferred fact => fact.toTree
  | separator span => .node "SectionSeparator" [] span
  | statement line => line.toTree
  | part piece => piece.toTree

end Item

namespace Document

def toTree (document : Document) : Tree :=
  .node "Document" [("body", .list (document.body.map Item.toTree))] document.span

def toData (spans : Bool) (document : Document) : Data :=
  document.toTree.toData spans

end Document

end SageNotation
