import SageNotation.Source.Position

/-!
Diagnostics: findings about a document, each with a severity, a code, a message
and labels that point into the source.
-/

namespace SageNotation

inductive Severity where
  | error | warning | note
  deriving DecidableEq

namespace Severity

def name : Severity → String
  | error => "error"
  | warning => "warning"
  | note => "note"

end Severity

inductive LabelStyle where
  | primary | secondary
  deriving DecidableEq

namespace LabelStyle

def name : LabelStyle → String
  | primary => "primary"
  | secondary => "secondary"

end LabelStyle

structure Label where
  span : Span
  message : String
  style : LabelStyle
  deriving DecidableEq

structure Suggestion where
  message : String
  replacement : String
  deriving DecidableEq

structure Diagnostic where
  severity : Severity
  code : String
  message : String
  labels : List Label
  notes : List String
  suggestions : List Suggestion
  deriving DecidableEq

namespace Diagnostic

/-- The span of the first primary label, else that of the first label. -/
def span? (diagnostic : Diagnostic) : Option Span :=
  match diagnostic.labels.find? (·.style == .primary) with
  | some label => some label.span
  | none => diagnostic.labels.head?.map (·.span)

def summary (diagnostics : List Diagnostic) : String :=
  toString diagnostics.length ++ " error(s): " ++
    String.intercalate "; " (diagnostics.map (·.message))

end Diagnostic

end SageNotation
