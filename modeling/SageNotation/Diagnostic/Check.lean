import SageNotation.Diagnostic.Finding
import SageNotation.Grammar.Documents

/-!
Checking a source: tokens, document and diagnostics in one step.

A source passes when it has no errors and, under strict checking, no warnings.
-/

namespace SageNotation

structure CheckOptions where
  strict : Bool
  warnRawLines : Bool

structure CheckResult where
  tokens : List Token
  document : Document
  recoveries : List Recovery
  diagnostics : List Diagnostic
  ok : Bool

namespace Diagnostic

def ofSeverity (severity : Severity) (diagnostics : List Diagnostic) : List Diagnostic :=
  diagnostics.filter (·.severity == severity)

def hasErrors (diagnostics : List Diagnostic) : Bool :=
  diagnostics.any (·.severity == .error)

def hasWarnings (diagnostics : List Diagnostic) : Bool :=
  diagnostics.any (·.severity == .warning)

def pass (strict : Bool) (diagnostics : List Diagnostic) : Bool :=
  !hasErrors diagnostics && !(strict && hasWarnings diagnostics)

/-- The diagnostics that keep a source from passing. -/
def failing (strict : Bool) (diagnostics : List Diagnostic) : List Diagnostic :=
  diagnostics.filter fun diagnostic =>
    diagnostic.severity == .error || (strict && diagnostic.severity == .warning)

end Diagnostic

namespace CheckResult

def ofSource (options : CheckOptions) (source file : String) : CheckResult :=
  let tokens := Token.tokenize source file
  let document := Document.ofTokens tokens (some file)
  let diagnostics := document.diagnostics options.warnRawLines
  { tokens := tokens
    document := document
    recoveries := Document.recoveries tokens
    diagnostics := diagnostics
    ok := Diagnostic.pass options.strict diagnostics }

/-- A result that passes, or the diagnostics that keep it from passing. -/
def orFailing (strict : Bool) (result : CheckResult) : Except (List Diagnostic) CheckResult :=
  if result.ok then .ok result else .error (Diagnostic.failing strict result.diagnostics)

end CheckResult

end SageNotation
