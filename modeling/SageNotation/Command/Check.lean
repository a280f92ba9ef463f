import SageNotation.Command.Report
import SageNotation.Diagnostic.Check
import SageNotation.Diagnostic.Render

/-!
Checking many files and summing up.

Every diagnostic of every file is noted, file by file.  The last line of output
has the number of files and the totals of errors and warnings; the exit code says
whether every file passed.
-/

namespace SageNotation

structure CheckedFile where
  name : String
  source : String
  result : CheckResult

namespace CheckedFile

def ofText (options : CheckOptions) (name source : String) : CheckedFile :=
  { name := name, source := source, result := .ofSource options source name }

def count (severity : Severity) (file : CheckedFile) : Nat :=
  (Diagnostic.ofSeverity severity file.result.diagnostics).length

def rendered (file : CheckedFile) : List String :=
  let lines := Text.lines file.source
  file.result.diagnostics.map (Diagnostic.render true fun _ => lines)

def tally (file : CheckedFile) : String :=
  file.name ++ ": " ++ toString file.result.document.body.length ++ " node(s), " ++
    toString file.result.diagnostics.length ++ " diagnostic(s)"

def notes (file : CheckedFile) : List Note :=
  file.result.recoveries.map Note.ofRecovery ++
    .logged .debug .command file.tally :: file.rendered.map .shown

end CheckedFile

namespace Report

def total (severity : Severity) (files : List CheckedFile) : Nat :=
  files.foldl (fun sum file => sum + file.count severity) 0

def summary (files : List CheckedFile) : String :=
  "checked " ++ toString files.length ++ " file(s): " ++ toString (total .error files) ++
    " error(s), " ++ toString (total .warning files) ++ " warning(s)\n"

def ofChecked (files : List CheckedFile) : Report :=
  { output := summary files
    notes := files.flatMap CheckedFile.notes
    ending := .finished (if files.all (·.result.ok) then 0 else 1) }

def ofTexts (options : CheckOptions) (texts : List (String × String)) : Report :=
  ofChecked (texts.map fun text => .ofText options text.1 text.2)

end Report

namespace FileTree

def texts (tree : FileTree) : List Path → List (String × String) × Option Failure
  | [] => ([], none)
  | path :: others =>
      let name := path.toString
      match (tree.bytes? name).bind decode? with
      | some text =>
          let (later, failure) := texts tree others
          ((name, text) :: later, failure)
      | none => ([], some (.notUtf8 name))

/-- The pattern a settings value stands for. -/
def patternOf : Config.Value → Except Failure PathPattern
  | .text pattern => (PathPattern.ofString pattern).mapError .pattern
  | value => .error (.patternNotText value)

/-- The files that a check of a path is about: the file itself, or what fits the
patterns in a directory. -/
def filesToCheck (tree : FileTree) (patterns : List Config.Value) (target : Path) :
    Except Failure (List Path) := do
  if tree.isFile target.toString then return [target]
  else
    let found ← patterns.mapM fun value => do
      (tree.filesFitting (← patternOf value) target).mapError .longName
    return inOrder found.flatten

end FileTree

namespace Report

/-- Check files of a tree.  A file that is not UTF-8 breaks the run off before the
summary. -/
def ofFiles (tree : FileTree) (options : CheckOptions) (files : List Path) : Report :=
  let (texts, failure) := tree.texts files
  let report := ofTexts options texts
  match failure with
  | some failure => { report with output := "", ending := .broken failure }
  | none => report

/-- Problems with files and the wording of settings are told; others break the run
off. -/
def ofFailure : Failure → Report
  | .longName problem => refused 1 ("error: " ++ (Failure.longName problem).message)
  | .settings problem =>
      if problem.isTold then refused 1 ("error: " ++ problem.message)
      else failed (.settings problem)
  | failure => failed failure

def check (tree : FileTree) (path : String) (strict : Bool) : Report :=
  let target := Path.ofString path
  match Config.discoverFrom tree target with
  | .error problem => ofFailure (.settings problem)
  | .ok (settings, file) =>
      let origin := file.toList.map fun place =>
        Note.logged .info .command ("using " ++ FileTree.placeText place)
      withNotes origin
        (match tree.filesToCheck settings.patterns target with
        | .error failure => ofFailure failure
        | .ok [] => refused 0 "warning: no .sage files found"
        | .ok files =>
            ofFiles tree
              { strict := strict || settings.strict.isTruthy
                warnRawLines := settings.warnRawLines.isTruthy } files)

end Report

end SageNotation
