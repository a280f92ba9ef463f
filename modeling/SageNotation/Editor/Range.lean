import SageNotation.Diagnostic.Basic

/-!
Ranges as an editor counts them: lines and characters from zero.

An editor takes components from zero up to `limit` and nothing else, so not
every span has a range.  Every end character below zero is taken as zero.
-/

namespace SageNotation.Editor

structure Place where
  line : Int
  character : Int
  deriving DecidableEq

structure Range where
  start : Place
  stop : Place
  deriving DecidableEq

/-- The largest component that an editor accepts. -/
def limit : Int := 2147483647

namespace Place

def isValid (place : Place) : Bool :=
  0 ≤ place.line && place.line ≤ limit && 0 ≤ place.character && place.character ≤ limit

end Place

namespace Range

def zero : Range :=
  { start := ⟨0, 0⟩, stop := ⟨0, 0⟩ }

def ofSpan (span : Span) : Range :=
  { start := ⟨span.start.line - 1, span.start.col - 1⟩
    stop := ⟨span.stop.line - 1, max (span.stop.col - 1) 0⟩ }

def isValid (range : Range) : Bool :=
  range.start.isValid && range.stop.isValid

end Range

/-- A diagnostic as an editor shows it. -/
structure Notice where
  range : Range
  severity : Severity
  code : Option String
  message : String
  deriving DecidableEq

namespace Notice

def ofDiagnostic (diagnostic : Diagnostic) : Notice :=
  { range := diagnostic.span?.elim .zero Range.ofSpan
    severity := diagnostic.severity
    code := some diagnostic.code
    message := "[" ++ diagnostic.code ++ "] " ++ diagnostic.message }

def ofDiagnostic? (diagnostic : Diagnostic) : Option Notice :=
  let notice := ofDiagnostic diagnostic
  if notice.range.isValid then some notice else none

end Notice

end SageNotation.Editor
