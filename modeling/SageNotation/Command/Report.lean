import SageNotation.Config.Settings
import SageNotation.Files.Pattern
import SageNotation.Grammar.Statements
import SageNotation.Text.Escapes

/-!
What a command leaves behind: its output, its notes and how it ended.

Notes are either for everyone or part of the log, which is kept only when asked
for.  A run ends with an exit code, or breaks off because of a failure; what was
written before a failure stays.
-/

namespace SageNotation

inductive LogLevel where
  | debug | info
  deriving DecidableEq

inductive LogSource where
  | command | reader
  deriving DecidableEq

inductive Note where
  | shown (text : String)
  | logged (level : LogLevel) (source : LogSource) (text : String)
  deriving DecidableEq

inductive Failure where
  | notUtf8 (name : String)
  | settings (problem : Config.SettingsError)
  | pattern (problem : PatternProblem)
  | patternNotText (value : Config.Value)
  | longName (problem : FileTree.LongName)
  /-- A name with a zero character stands for no file. -/
  | unusableName (name : String)

inductive Ending where
  | finished (exitCode : Nat)
  | broken (failure : Failure)

structure Report where
  output : String
  notes : List Note
  ending : Ending

namespace LogLevel

def text : LogLevel → String
  | debug => "DEBUG"
  | info => "INFO"

end LogLevel

namespace LogSource

def text : LogSource → String
  | command => "sagelang.cli"
  | reader => "sagelang.parser"

end LogSource

namespace Note

def isLogged : Note → Bool
  | shown _ => false
  | logged .. => true

/-- A note as a line.  Without colour, notes for everyone lose their control
sequences; the log is written as it is. -/
def line (color : Bool) : Note → String
  | shown text => (if color then text else Text.plain text) ++ "\n"
  | logged level source text => level.text ++ " " ++ source.text ++ ": " ++ text ++ "\n"

def ofRecovery (recovery : Recovery) : Note :=
  .logged .debug .reader recovery.message

end Note

namespace PatternProblem

def message : PatternProblem → String
  | empty => "a pattern is empty"
  | absolute => "a pattern starts at the root"
  | noParts _ => "a pattern has no parts"
  | starsInPart => "two stars can only be a whole part of a pattern"
  | tooManyParts => "a pattern has too many parts"

end PatternProblem

namespace Failure

def message : Failure → String
  | notUtf8 name => name ++ ": expected UTF-8"
  | settings problem => problem.message
  | pattern problem => problem.message
  | patternNotText _ => "a pattern is not a text"
  | longName problem => FileTree.tooLongMessage problem.path.toString
  | unusableName name => Text.quoted name ++ ": names cannot hold a zero character"

end Failure

namespace Ending

def exitCode : Ending → Nat
  | finished code => code
  | broken _ => 1

def failure? : Ending → Option Failure
  | finished _ => none
  | broken failure => some failure

end Ending

namespace Report

def printed (output : String) : Report :=
  { output := output, notes := [], ending := .finished 0 }

def refused (exitCode : Nat) (text : String) : Report :=
  { output := "", notes := [.shown text], ending := .finished exitCode }

def failed (failure : Failure) : Report :=
  { output := "", notes := [], ending := .broken failure }

def withNotes (notes : List Note) (report : Report) : Report :=
  { report with notes := notes ++ report.notes }

def quiet (report : Report) : Report :=
  { report with notes := report.notes.filter fun note => !note.isLogged }

def outputText (color : Bool) (report : Report) : String :=
  if color then report.output else Text.plain report.output

def noteText (color : Bool) (report : Report) : String :=
  String.join (report.notes.map (Note.line color))

end Report

end SageNotation
