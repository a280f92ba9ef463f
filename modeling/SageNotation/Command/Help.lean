import SageNotation.Command.Request

/-!
Usage lines, and the pages that explain the program and its commands.
-/

namespace SageNotation.Help

/-- How the program or a command is called. -/
def commandLine (subject : Option CommandName) : String :=
  subject.elim "sage" fun name => "sage " ++ name.text

def usage (subject : Option CommandName) : String :=
  "Usage: " ++ commandLine subject ++ " [OPTIONS]" ++
    match subject with
    | none => " COMMAND [ARGS]..."
    | some name => name.operand?.elim "" fun operand => " " ++ operand.label

/-- How the program or a command is called, and where to read more. -/
def reminder (subject : Option CommandName) : String :=
  usage subject ++ "\nTry '" ++ commandLine subject ++ " --help' for help.\n\n"

def complaint (subject : Option CommandName) (problem : UsageProblem) : String :=
  (if problem.showsUsage then reminder subject else "") ++ "Error: " ++ problem.message

def width (rows : List (String × String)) : Nat :=
  rows.foldl (fun widest row => max widest row.1.length) 0

/-- Rows in two columns under a title. -/
def table (title : String) (rows : List (String × String)) : List String :=
  "" :: (title ++ ":") :: rows.map fun row =>
    "  " ++ row.1 ++ String.ofList (List.replicate (width rows + 2 - row.1.length) ' ') ++ row.2

def flagRow (flag : Flag) : String × String :=
  (flag.letter.elim flag.long fun letter => String.ofList ['-', letter] ++ ", " ++ flag.long,
    flag.summary)

def about (subject : Option CommandName) : String :=
  subject.elim "Tools for the SAGE specification notation." CommandName.summary

def page (subject : Option CommandName) : String :=
  let flags := subject.elim Request.programFlags CommandName.flags
  let commands :=
    match subject with
    | none => table "Commands" (CommandName.all.map fun name => (name.text, name.summary))
    | some _ => []
  String.intercalate "\n"
    ([usage subject, "", "  " ++ about subject] ++ table "Options" (flags.map flagRow) ++ commands)

end SageNotation.Help
