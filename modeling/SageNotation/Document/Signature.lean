import SageNotation.Document.Basic

/-!
Types and declaration headers as one line of text, the way they are written in a
source.
-/

namespace SageNotation

mutual

def TypeExpr.format : TypeExpr → String
  | .named name _ => name
  | .generic name args _ =>
      name ++ "<" ++ String.intercalate ", " (formatTypes args) ++ ">"
  | .record fields _ =>
      match formatFields fields with
      | [] => "\x7b\x7d"
      | entries => "\x7b " ++ String.intercalate ", " entries ++ " \x7d"
  | .verbatim text => text

def formatTypes : List TypeExpr → List String
  | [] => []
  | type :: others => type.format :: formatTypes others

def formatFields : List Field → List String
  | [] => []
  | .mk name type _ :: others => (name ++ ": " ++ type.format) :: formatFields others

end

/-- The empty text for no type. -/
def formatType? (type : Option TypeExpr) : String :=
  type.elim "" TypeExpr.format

/-- A type that shows up in a header: one that is not the empty text. -/
def TypeExpr.isShown : TypeExpr → Bool
  | .verbatim text => !text.isEmpty
  | _ => true

namespace Param

def format (param : Param) : String :=
  match param.type with
  | some type => if type.isShown then param.name ++ ": " ++ type.format else param.name
  | none => param.name

end Param

namespace Callable

def signature (word : String) (callable : Callable) : String :=
  let result :=
    match callable.returnType with
    | some type => if type.isShown then " -> " ++ type.format else ""
    | none => ""
  word ++ " " ++ callable.name ++ "(" ++
    String.intercalate ", " (callable.params.map Param.format) ++ ")" ++ result

end Callable

namespace Refinement

def signature (decl : Refinement) : String :=
  let child := decl.child.getD ""
  let tag := decl.tag.getD ""
  "@refine " ++ decl.parent ++
    (if child.isEmpty then "" else " as " ++ child) ++
    (if tag.isEmpty then "" else " [" ++ tag ++ "]")

end Refinement

namespace Declaration

/-- The header of a declaration; an implementation has none. -/
def signature? : Declaration → Option String
  | module decl => some ("@mod " ++ decl.name)
  | type decl =>
      some ("@type " ++ decl.name ++ " = \x7b " ++
        String.intercalate ", " (formatFields decl.fields) ++ " \x7d")
  | function decl => some (decl.signature "@fn")
  | spec decl => some ("@spec " ++ decl.name)
  | operation decl => some (decl.signature "@op")
  | refinement decl => some decl.signature
  | implementation _ => none

end Declaration

namespace Item

def signature? : Item → Option String
  | declaration decl => decl.signature?
  | _ => none

end Item

end SageNotation
