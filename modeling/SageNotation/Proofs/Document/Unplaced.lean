import SageNotation.Document.Basic

/-!
Nodes apart from their places: `unplaced` puts one fixed span in place of every
span of a node, at any depth.  Two nodes that agree so differ in spans only.
-/

namespace SageNotation

namespace Span

def nowhere : Span :=
  ⟨"", .first, .first⟩

end Span

mutual

def TypeExpr.unplaced : TypeExpr → TypeExpr
  | .named name _ => .named name .nowhere
  | .generic name args _ => .generic name (unplacedTypes args) .nowhere
  | .record fields _ => .record (unplacedFields fields) .nowhere
  | .verbatim text => .verbatim text

def unplacedTypes : List TypeExpr → List TypeExpr
  | [] => []
  | type :: others => type.unplaced :: unplacedTypes others

def unplacedFields : List Field → List Field
  | [] => []
  | .mk name type _ :: others => .mk name type.unplaced .nowhere :: unplacedFields others

end

namespace Field

def unplaced : Field → Field
  | mk name type _ => mk name type.unplaced .nowhere

end Field

namespace Statement

def unplaced : Statement → Statement
  | prose node => prose { node with span := .nowhere }
  | decision node => decision { node with span := .nowhere }
  | binding node => binding { node with span := .nowhere }
  | conditional node => conditional { node with span := .nowhere }
  | ret node => ret { node with span := .nowhere }
  | raw node => raw { node with span := .nowhere }

end Statement

namespace Param

def unplaced (param : Param) : Param :=
  { param with type := param.type.map TypeExpr.unplaced, span := .nowhere }

end Param

namespace StateField

def unplaced (field : StateField) : StateField :=
  { field with type := field.type.unplaced, span := .nowhere }

end StateField

namespace Callable

def unplaced (callable : Callable) : Callable :=
  { callable with
    params := callable.params.map Param.unplaced
    returnType := callable.returnType.map TypeExpr.unplaced
    contracts := callable.contracts.map ({ · with span := .nowhere })
    body := callable.body.map Statement.unplaced
    span := .nowhere }

end Callable

namespace Declaration

def unplaced : Declaration → Declaration
  | module decl => module { decl with span := .nowhere }
  | type decl => type { decl with fields := unplacedFields decl.fields, span := .nowhere }
  | function decl => function decl.unplaced
  | spec decl =>
      spec
        { decl with
          properties := decl.properties.map ({ · with span := .nowhere })
          state := decl.state.map StateField.unplaced
          invariants := decl.invariants.map ({ · with span := .nowhere })
          span := .nowhere }
  | operation decl => operation decl.unplaced
  | refinement decl =>
      refinement
        { decl with
          decisions := decl.decisions.map ({ · with span := .nowhere })
          state := decl.state.map StateField.unplaced
          preserves := decl.preserves.map ({ · with span := .nowhere })
          maps := decl.maps.map ({ · with span := .nowhere })
          comparison := decl.comparison.map ({ · with span := .nowhere })
          span := .nowhere }
  | implementation decl => implementation { decl with span := .nowhere }

end Declaration

namespace Part

def unplaced : Part → Part
  | type piece => type piece.unplaced
  | field piece => field piece.unplaced
  | contract piece => contract { piece with span := .nowhere }
  | param piece => param piece.unplaced
  | property piece => property { piece with span := .nowhere }
  | stateField piece => stateField piece.unplaced
  | invariant piece => invariant { piece with span := .nowhere }
  | preserved piece => preserved { piece with span := .nowhere }
  | mapping piece => mapping { piece with span := .nowhere }
  | comparison piece => comparison { piece with span := .nowhere }

end Part

namespace Item

def unplaced : Item → Item
  | declaration decl => declaration decl.unplaced
  | inferred fact => inferred { fact with span := .nowhere }
  | separator _ => separator .nowhere
  | statement line => statement line.unplaced
  | part piece => part piece.unplaced

end Item

namespace Document

def unplaced (document : Document) : Document :=
  { body := document.body.map Item.unplaced, span := .nowhere }

end Document

end SageNotation
