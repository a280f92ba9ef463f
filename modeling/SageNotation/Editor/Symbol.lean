import SageNotation.Document.Signature
import SageNotation.Editor.Range

/-!
The symbols of a document: one for each declaration that has a name, with its
fields or parameters below it.
-/

namespace SageNotation.Editor

inductive SymbolKind where
  | module | record | field | function | operation | parameter | specification | refinement
  deriving DecidableEq

structure Member where
  name : String
  kind : SymbolKind
  range : Range
  detail : Option String
  deriving DecidableEq

structure Symbol where
  name : String
  kind : SymbolKind
  range : Range
  detail : Option String
  members : List Member
  deriving DecidableEq

/-- A name for display; there is always one. -/
def shownName (name : String) : String :=
  if name.isEmpty then "<unnamed>" else name

def member (name : String) (kind : SymbolKind) (span : Span) (detail : Option String) : Member :=
  { name := shownName name, kind := kind, range := .ofSpan span, detail := detail }

def fieldMember (field : Field) : Member :=
  member field.name .field field.span (some field.type.format)

def stateMember (field : StateField) : Member :=
  member field.name .field field.span (some field.type.format)

/-- A parameter shows its type, unless that is the empty text. -/
def paramMember (param : Param) : Member :=
  let type := formatType? param.type
  member param.name .parameter param.span (if type.isEmpty then none else some type)

/-- The first text unless it is empty, else the second. -/
def firstNonempty (first : Option String) (second : String) : String :=
  match first with
  | some text => if text.isEmpty then second else text
  | none => second

namespace Symbol

def ofDeclaration? : Declaration → Option Symbol
  | .module decl =>
      some
        { name := shownName decl.name
          kind := .module
          range := .ofSpan decl.span
          detail := decl.description
          members := [] }
  | .type decl =>
      some
        { name := shownName decl.name
          kind := .record
          range := .ofSpan decl.span
          detail := none
          members := decl.fields.map fieldMember }
  | .function decl =>
      some
        { name := shownName decl.name
          kind := .function
          range := .ofSpan decl.span
          detail := some (decl.signature "@fn")
          members := decl.params.map paramMember }
  | .operation decl =>
      some
        { name := shownName decl.name
          kind := .operation
          range := .ofSpan decl.span
          detail := some (decl.signature "@op")
          members := decl.params.map paramMember }
  | .spec decl =>
      some
        { name := shownName decl.name
          kind := .specification
          range := .ofSpan decl.span
          detail := decl.description
          members := decl.state.map stateMember }
  | .refinement decl =>
      some
        { name := shownName (firstNonempty decl.child decl.parent)
          kind := .refinement
          range := .ofSpan decl.span
          detail := some decl.signature
          members := decl.state.map stateMember }
  | .implementation _ => none

def ofItem? : Item → Option Symbol
  | .declaration decl => ofDeclaration? decl
  | _ => none

def isValid (symbol : Symbol) : Bool :=
  symbol.range.isValid && symbol.members.all (·.range.isValid)

end Symbol

end SageNotation.Editor
