import SageNotation.Source.Position
import SageNotation.Token.Kind

/-!
Documents of the notation.

A document is a flat list of items in source order.  Declarations do not own
each other; a refinement names its parent and an implementation its target.
Conditions, values and bodies are kept as text.  Every node carries the span of
the source it was read from.
-/

namespace SageNotation

mutual

/-- A type as written: a name, a name applied to arguments, or a record.  A
`verbatim` type is text that no reader has taken apart. -/
inductive TypeExpr where
  | named (name : String) (span : Span)
  | generic (name : String) (args : List TypeExpr) (span : Span)
  | record (fields : List Field) (span : Span)
  | verbatim (text : String)

inductive Field where
  | mk (name : String) (type : TypeExpr) (span : Span)

end

namespace Field

def name : Field → String
  | mk name _ _ => name

def type : Field → TypeExpr
  | mk _ type _ => type

def span : Field → Span
  | mk _ _ span => span

end Field

inductive ContractKind where
  | requires | ensures
  deriving DecidableEq

structure Contract where
  kind : ContractKind
  condition : String
  span : Span
  deriving DecidableEq

structure Prose where
  text : String
  span : Span
  deriving DecidableEq

structure Decision where
  text : String
  span : Span
  deriving DecidableEq

structure Binding where
  name : String
  value : String
  isDecision : Bool
  span : Span
  deriving DecidableEq

structure Conditional where
  condition : String
  consequent : String
  alternative : Option String
  isDecision : Bool
  span : Span
  deriving DecidableEq

structure Return where
  value : String
  span : Span
  deriving DecidableEq

/-- A line that no construct of the notation accounts for. -/
structure RawLine where
  text : String
  span : Span
  deriving DecidableEq

inductive Statement where
  | prose (prose : Prose)
  | decision (decision : Decision)
  | binding (binding : Binding)
  | conditional (conditional : Conditional)
  | ret (ret : Return)
  | raw (line : RawLine)
  deriving DecidableEq

structure Param where
  name : String
  type : Option TypeExpr
  span : Span

structure Property where
  description : String
  span : Span
  deriving DecidableEq

structure StateField where
  name : String
  type : TypeExpr
  span : Span

structure Invariant where
  expression : String
  span : Span
  deriving DecidableEq

/-- A property of the parent that a refinement keeps; `checked` when it has been
ticked off. -/
structure Preserved where
  description : String
  checked : Bool
  span : Span
  deriving DecidableEq

structure Mapping where
  description : String
  lines : List String
  span : Span
  deriving DecidableEq

structure Comparison where
  target : String
  advantages : Option String
  disadvantages : Option String
  span : Span
  deriving DecidableEq

structure ModuleDecl where
  name : String
  description : Option String
  span : Span
  deriving DecidableEq

structure TypeDecl where
  name : String
  fields : List Field
  span : Span

/-- Functions and operations have one shape. -/
structure Callable where
  name : String
  params : List Param
  returnType : Option TypeExpr
  description : Option String
  contracts : List Contract
  body : List Statement
  span : Span

structure SpecDecl where
  name : String
  description : Option String
  properties : List Property
  state : List StateField
  invariants : List Invariant
  span : Span

structure Refinement where
  parent : String
  child : Option String
  tag : Option String
  description : Option String
  decisions : List Decision
  state : List StateField
  preserves : List Preserved
  maps : List Mapping
  comparison : Option Comparison
  span : Span

structure Implementation where
  target : Option String
  body : String
  span : Span
  deriving DecidableEq

inductive Declaration where
  | module (decl : ModuleDecl)
  | type (decl : TypeDecl)
  | function (decl : Callable)
  | spec (decl : SpecDecl)
  | operation (decl : Callable)
  | refinement (decl : Refinement)
  | implementation (decl : Implementation)

/-- A fact that a tool has inferred, with the reason it gave. -/
structure InferredFact where
  inference : Inference
  condition : String
  reason : Option String
  span : Span
  deriving DecidableEq

/-- A piece of a declaration.  Reading a source never leaves one by itself, but a
document put together by hand may hold it as an item. -/
inductive Part where
  | type (type : TypeExpr)
  | field (field : Field)
  | contract (contract : Contract)
  | param (param : Param)
  | property (property : Property)
  | stateField (field : StateField)
  | invariant (invariant : Invariant)
  | preserved (preserved : Preserved)
  | mapping (mapping : Mapping)
  | comparison (comparison : Comparison)

inductive Item where
  | declaration (decl : Declaration)
  | inferred (fact : InferredFact)
  | separator (span : Span)
  | statement (statement : Statement)
  | part (part : Part)

structure Document where
  body : List Item
  span : Span

namespace Callable

def requires (callable : Callable) : List Contract :=
  callable.contracts.filter (·.kind == .requires)

def ensures (callable : Callable) : List Contract :=
  callable.contracts.filter (·.kind == .ensures)

end Callable

namespace Statement

def span : Statement → Span
  | prose node => node.span
  | decision node => node.span
  | binding node => node.span
  | conditional node => node.span
  | ret node => node.span
  | raw node => node.span

end Statement

inductive DeclKind where
  | module | type | function | specification | operation | refinement | implementation
  deriving DecidableEq

namespace DeclKind

def name : DeclKind → String
  | module => "module"
  | type => "type"
  | function => "function"
  | specification => "specification"
  | operation => "operation"
  | refinement => "refinement"
  | implementation => "implementation"

end DeclKind

namespace Declaration

def kind : Declaration → DeclKind
  | module _ => .module
  | type _ => .type
  | function _ => .function
  | spec _ => .specification
  | operation _ => .operation
  | refinement _ => .refinement
  | implementation _ => .implementation

def span : Declaration → Span
  | module decl => decl.span
  | type decl => decl.span
  | function decl => decl.span
  | spec decl => decl.span
  | operation decl => decl.span
  | refinement decl => decl.span
  | implementation decl => decl.span

/-- The name a declaration introduces, if it introduces one: a refinement
introduces its child and an implementation nothing. -/
def introduces? : Declaration → Option String
  | module decl => some decl.name
  | type decl => some decl.name
  | function decl => some decl.name
  | spec decl => some decl.name
  | operation decl => some decl.name
  | refinement decl => decl.child
  | implementation _ => none

def description? : Declaration → Option String
  | module decl => decl.description
  | type _ => none
  | function decl => decl.description
  | spec decl => decl.description
  | operation decl => decl.description
  | refinement decl => decl.description
  | implementation _ => none

end Declaration

end SageNotation
