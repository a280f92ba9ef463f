import SageNotation.Diagnostic.Check
import SageNotation.Editor.Help
import SageNotation.Editor.Symbol
import SageNotation.Editor.Word

/-!
An editing session: the texts that are open, each with its analysis.

The analysis of a text depends on the text and its name alone.  A text that cannot
be checked, such as one that is not there at all, is analysed too; its analysis has
one internal error and nothing to look up.
-/

namespace SageNotation.Editor

/-- How a text is checked, by its name; the text may be missing.  There is a result
or the message of what kept the check from one. -/
abbrev Checker := String → Option String → Except String CheckResult

structure Analysis where
  source : Option String
  tokens : List Token
  document : Option Document
  declarations : Registry
  notices : List Notice

namespace Analysis

def ofFailure (source : Option String) (message : String) : Analysis :=
  { source := source
    tokens := []
    document := none
    declarations := []
    notices :=
      [{ range := .zero
         severity := .error
         code := none
         message := "[internal] " ++ message }] }

def ofResult (source : Option String) (result : CheckResult) : Analysis :=
  { source := source
    tokens := result.tokens
    document := some result.document
    declarations := declarationsByName result.document.body
    notices := result.diagnostics.map Notice.ofDiagnostic }

def blank : Analysis :=
  { source := some "", tokens := [], document := none, declarations := [], notices := [] }

def symbols (analysis : Analysis) : List Symbol :=
  match analysis.document with
  | none => []
  | some document => document.body.filterMap Symbol.ofItem?

end Analysis

namespace Checker

def standard : Checker
  | _, none => .error "object of type 'NoneType' has no len()"
  | uri, some text =>
      .ok (CheckResult.ofSource { strict := false, warnRawLines := true } text uri)

def analyze (checker : Checker) (uri : String) (text : Option String) : Analysis :=
  match checker uri text with
  | .ok result => .ofResult text result
  | .error message => .ofFailure text message

end Checker

structure Session where
  checker : Checker
  texts : List (String × Analysis)

inductive Event where
  | opened (uri text : String)
  | changed (uri : String) (texts : List String)
  | closed (uri : String)

/-- Why a question about a place has no answer. -/
inductive LookupError where
  | invalidPlace
  | missingText
  deriving DecidableEq

namespace Session

def start (checker : Checker) : Session :=
  { checker := checker, texts := [] }

def empty : Session :=
  start .standard

def find? (session : Session) (uri : String) : Option Analysis :=
  session.texts.lookup uri

def remove (session : Session) (uri : String) : Session :=
  { session with texts := session.texts.filter (·.1 != uri) }

def put (session : Session) (uri : String) (analysis : Analysis) : Session :=
  { session with texts := (uri, analysis) :: (session.remove uri).texts }

def analyze (session : Session) (uri : String) (text : Option String) : Session × Analysis :=
  let analysis := session.checker.analyze uri text
  (session.put uri analysis, analysis)

abbrev Publication := Option (String × List Notice)

/-- Every change carries the whole text, so the last one counts. -/
def handle (session : Session) : Event → Session × Publication
  | .opened uri text =>
      let analyzed := session.analyze uri (some text)
      (analyzed.1, some (uri, analyzed.2.notices))
  | .changed uri texts =>
      let analyzed := session.analyze uri (some (texts.getLastD ""))
      (analyzed.1, some (uri, analyzed.2.notices))
  | .closed uri => (session.remove uri, none)

/-- The analysis of a text and the word at a place in it; nothing for a text that
is not open. -/
def wordAt? (session : Session) (uri : String) (place : Place) :
    Except LookupError (Option (Analysis × String)) :=
  if place.isValid then
    match session.find? uri with
    | none => .ok none
    | some analysis =>
        match analysis.source with
        | none => .error .missingText
        | some text => .ok (some (analysis, wordAt text place.line place.character))
  else .error .invalidPlace

def hover (session : Session) (uri : String) (place : Place) : Except LookupError (Option String) :=
  (session.wordAt? uri place).map fun found =>
    found.bind fun (analysis, word) =>
      if word.isEmpty then none else hoverText analysis.declarations word

def definition (session : Session) (uri : String) (place : Place) :
    Except LookupError (Option Range) :=
  (session.wordAt? uri place).map fun found =>
    found.bind fun (analysis, word) =>
      if word.isEmpty then none
      else (analysis.declarations.find? word).map fun decl => Range.ofSpan decl.span

def completion (session : Session) (uri : String) : List Completion :=
  completions ((session.find? uri).elim [] (·.declarations))

def symbols (session : Session) (uri : String) : List Symbol :=
  (session.find? uri).elim [] Analysis.symbols

def hoverWord (session : Session) (uri word : String) : Option String :=
  hoverText ((session.find? uri).getD .blank).declarations word

def openNames (session : Session) : List String :=
  (session.texts.map (·.1)).mergeSort fun left right => decide (left ≤ right)

end Session

end SageNotation.Editor
