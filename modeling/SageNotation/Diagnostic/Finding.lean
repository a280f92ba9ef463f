import SageNotation.Diagnostic.Basic
import SageNotation.Document.Basic
import SageNotation.Text.Blank

/-!
What can be wrong with a document.

`Finding` names the causes.  Code, severity, wording and notes of each are
functions of the cause.  `Document.findings` looks for them in two passes: the
first registers the names that declarations introduce, the second checks each
item by itself.
-/

namespace SageNotation

inductive NamedPart where
  | field | parameter | stateField
  deriving DecidableEq

namespace NamedPart

def name : NamedPart → String
  | field => "field"
  | parameter => "parameter"
  | stateField => "state field"

end NamedPart

inductive Finding where
  | emptyName (kind : DeclKind)
  | emptyParent
  | emptyPart (part : NamedPart)
  | emptyContract (kind : ContractKind)
  | emptyInference (inference : Inference)
  | rawLine (text : String)
  | duplicate (kind : DeclKind) (name : String) (first : Span)
  | undeclaredParent (name : String)
  | missingReason (inference : Inference)
  deriving DecidableEq

namespace Finding

def code : Finding → String
  | emptyName _ => "E100"
  | emptyParent => "E100"
  | emptyPart _ => "E101"
  | emptyContract _ => "E110"
  | emptyInference _ => "E110"
  | rawLine _ => "W100"
  | duplicate _ _ _ => "W200"
  | undeclaredParent _ => "W210"
  | missingReason _ => "N300"

def severity : Finding → Severity
  | emptyName _ => .error
  | emptyParent => .error
  | emptyPart _ => .error
  | emptyContract _ => .error
  | emptyInference _ => .error
  | rawLine _ => .warning
  | duplicate _ _ _ => .warning
  | undeclaredParent _ => .warning
  | missingReason _ => .note

def contractWord : ContractKind → String
  | .requires => "@req"
  | .ensures => "@ens"

def message : Finding → String
  | emptyName kind => kind.name ++ " declaration has an empty name"
  | emptyParent => "refinement has an empty parent name"
  | emptyPart part => part.name ++ " has an empty name"
  | emptyContract kind => contractWord kind ++ " clause has an empty condition"
  | emptyInference inference => "@inferred_" ++ inference.name ++ " has an empty condition"
  | rawLine text => "unrecognized line: " ++ text
  | duplicate kind name _ => "duplicate " ++ kind.name ++ " '" ++ name ++ "'"
  | undeclaredParent name => "refinement of undeclared '" ++ name ++ "'"
  | missingReason inference => "@inferred_" ++ inference.name ++ " has no '←' reason"

def notes : Finding → List String
  | duplicate _ _ first => ["first declared at " ++ first.label]
  | undeclaredParent _ => ["the parent may be declared in another file"]
  | _ => []

def toDiagnostic (finding : Finding) (span : Span) : Diagnostic :=
  { severity := finding.severity
    code := finding.code
    message := finding.message
    labels := [{ span := span, message := "", style := .primary }]
    notes := finding.notes
    suggestions := [] }

end Finding

/-- Names with the declaration that introduced each first, in order. -/
abbrev Registry := List (String × Declaration)

namespace Registry

def find? (registry : Registry) (name : String) : Option Declaration :=
  registry.lookup name

end Registry

structure Located where
  finding : Finding
  span : Span
  deriving DecidableEq

namespace Located

def toDiagnostic (located : Located) : Diagnostic :=
  located.finding.toDiagnostic located.span

end Located

namespace Declaration

/-- Enter a declaration.  A name that is taken stays with the declaration that
introduced it; a second one of the same kind is a duplicate. -/
def register (registry : Registry) (decl : Declaration) : Registry × List Located :=
  match decl.introduces? with
  | none => (registry, [])
  | some name =>
      if name.isEmpty then (registry, [])
      else
        match registry.find? name with
        | none => (registry ++ [(name, decl)], [])
        | some first =>
            if first.kind = decl.kind then
              (registry, [⟨.duplicate decl.kind name first.span, decl.span⟩])
            else (registry, [])

end Declaration

namespace Item

def registerAll (registry : Registry) : List Item → Registry × List Located
  | [] => (registry, [])
  | .declaration decl :: others =>
      let entered := decl.register registry
      let rest := registerAll entered.1 others
      (rest.1, entered.2 ++ rest.2)
  | _ :: others => registerAll registry others

end Item

def checkName (kind : DeclKind) (name : String) (span : Span) : List Located :=
  if Text.allBlank name then [⟨.emptyName kind, span⟩] else []

def checkPart (part : NamedPart) (name : String) (span : Span) : List Located :=
  if Text.allBlank name then [⟨.emptyPart part, span⟩] else []

namespace Statement

def findings (warnRawLines : Bool) : Statement → List Located
  | raw line => if warnRawLines then [⟨.rawLine line.text, line.span⟩] else []
  | _ => []

end Statement

namespace Callable

def findings (warnRawLines : Bool) (kind : DeclKind) (decl : Callable) : List Located :=
  checkName kind decl.name decl.span ++
    decl.params.flatMap (fun param => checkPart .parameter param.name param.span) ++
    decl.contracts.flatMap (fun contract =>
      if Text.allBlank contract.condition then [⟨.emptyContract contract.kind, contract.span⟩]
      else []) ++
    decl.body.flatMap (Statement.findings warnRawLines)

end Callable

def checkState (fields : List StateField) : List Located :=
  fields.flatMap fun field => checkPart .stateField field.name field.span

namespace Refinement

/-- Without a parent name nothing else is checked. -/
def findings (registry : Registry) (decl : Refinement) : List Located :=
  if Text.allBlank decl.parent then [⟨.emptyParent, decl.span⟩]
  else
    (if (registry.find? decl.parent).isNone then [⟨.undeclaredParent decl.parent, decl.span⟩]
      else []) ++
    checkState decl.state

end Refinement

namespace InferredFact

def findings (fact : InferredFact) : List Located :=
  (if fact.condition.isEmpty then [⟨.emptyInference fact.inference, fact.span⟩] else []) ++
    if fact.reason.isNone then [⟨.missingReason fact.inference, fact.span⟩] else []

end InferredFact

namespace Item

def findings (registry : Registry) (warnRawLines : Bool) : Item → List Located
  | declaration (.module decl) => checkName .module decl.name decl.span
  | declaration (.type decl) =>
      checkName .type decl.name decl.span ++
        decl.fields.flatMap fun field => checkPart .field field.name field.span
  | declaration (.function decl) => decl.findings warnRawLines .function
  | declaration (.spec decl) =>
      checkName .specification decl.name decl.span ++ checkState decl.state
  | declaration (.operation decl) => decl.findings warnRawLines .operation
  | declaration (.refinement decl) => decl.findings registry
  | declaration (.implementation _) => []
  | inferred fact => fact.findings
  | separator _ => []
  | statement line => line.findings warnRawLines
  | part _ => []

end Item

namespace Document

def registry (document : Document) : Registry :=
  (Item.registerAll [] document.body).1

def findings (warnRawLines : Bool) (document : Document) : List Located :=
  (Item.registerAll [] document.body).2 ++
    document.body.flatMap (Item.findings document.registry warnRawLines)

def diagnostics (warnRawLines : Bool) (document : Document) : List Diagnostic :=
  (document.findings warnRawLines).map Located.toDiagnostic

end Document

end SageNotation
