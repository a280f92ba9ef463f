import SageNotation.Command.Arguments
import SageNotation.Files.Tree

/-!
Requests: what the arguments of the program ask for.

Options of the program stand before the name of a command; the options of a
command may stand anywhere after its name.  A command works on one file or path,
which must exist.  Of several problems the first in this order counts: an option,
a missing argument, a path that does not fit, an argument too many.
-/

namespace SageNotation

inductive CommandName where
  | check | parse | tokens | highlight | lsp
  deriving DecidableEq

inductive Operand where
  | file | optionalPath
  deriving DecidableEq

inductive Command where
  | check (path : String) (strict : Bool)
  | parse (file : String) (json spans : Bool)
  | tokens (file : String)
  | highlight (file : String) (page : Bool)
  | lsp

inductive UsageProblem where
  | option (problem : OptionProblem)
  | missingCommand
  | unknownCommand (name : String) (similar : List String)
  | missingArgument (operand : Operand)
  | doesNotExist (operand : Operand) (name : String)
  | isDirectory (operand : Operand) (name : String)
  | unexpected (arguments : List String)
  deriving DecidableEq

/-- Why there is no request.  Problems of usage belong to a command or to the
program itself. -/
inductive Refusal where
  | usage (subject : Option CommandName) (problem : UsageProblem)
  | unusableName (name : String)

inductive Request where
  | version
  | help (subject : Option CommandName)
  /-- There are no arguments at all. -/
  | nothing
  | run (verbose : Bool) (command : Command)

namespace Flag

def verbose : Flag :=
  { name := "verbose", letter := some 'v', summary := "Log parser recoveries and internals." }

def version : Flag :=
  { name := "version", letter := none, summary := "Show the version and exit." }

def strict : Flag :=
  { name := "strict", letter := none, summary := "Treat warnings as failures." }

def json : Flag :=
  { name := "json", letter := none, summary := "Emit the document as JSON." }

def noSpans : Flag :=
  { name := "no-spans", letter := none, summary := "Leave source spans out of the JSON." }

def html : Flag :=
  { name := "html", letter := none,
    summary := "Emit a standalone HTML page instead of ANSI colours." }

end Flag

namespace Operand

def label : Operand → String
  | file => "FILE"
  | optionalPath => "[PATH]"

def noun : Operand → String
  | file => "File"
  | optionalPath => "Path"

def standard? : Operand → Option String
  | file => none
  | optionalPath => some "."

def takesDirectories : Operand → Bool
  | file => false
  | optionalPath => true

def problem? (tree : FileTree) (operand : Operand) (name : String) : Option UsageProblem :=
  match tree.locate? name with
  | none => some (.doesNotExist operand name)
  | some place =>
      if !operand.takesDirectories && tree.isDirectoryAt place then some (.isDirectory operand name)
      else none

end Operand

namespace CommandName

def text : CommandName → String
  | check => "check"
  | parse => "parse"
  | tokens => "tokens"
  | highlight => "highlight"
  | lsp => "lsp"

def all : List CommandName :=
  [check, highlight, lsp, parse, tokens]

def ofText? (name : String) : Option CommandName :=
  all.find? fun command => command.text == name

def similarTo (name : String) : List String :=
  Text.closeWords name (all.map text)

def summary : CommandName → String
  | check => "Validate .sage files under PATH (or a single file)."
  | parse => "Show the parsed document of a .sage file."
  | tokens => "Print the token stream of a .sage file, one token per line."
  | highlight => "Print a .sage file with syntax highlighting."
  | lsp => "Start the SAGE language server."

def operand? : CommandName → Option Operand
  | check => some .optionalPath
  | lsp => none
  | _ => some .file

def flags (command : CommandName) : List Flag :=
  (match command with
    | check => [.strict]
    | parse => [.json, .noSpans]
    | highlight => [.html]
    | tokens => []
    | lsp => []) ++ [.help]

end CommandName

namespace UsageProblem

def invalid (operand : Operand) (name fault : String) : String :=
  "Invalid value for '" ++ operand.label ++ "': " ++ operand.noun ++ " " ++ Text.quoted name ++
    " " ++ fault

/-- What to write instead, if anything is close enough. -/
def suggestion : List String → String
  | [] => ""
  | [name] => " Did you mean " ++ Text.quoted name ++ "?"
  | names =>
      " (Did you mean one of: " ++ String.intercalate ", " (names.map Text.quoted) ++ "?)"

def message : UsageProblem → String
  | option (.unknown name similar) =>
      "No such option " ++ Text.quoted name ++ "." ++ suggestion similar
  | option (.takesNoValue name) => "Option " ++ Text.quoted name ++ " does not take a value."
  | missingCommand => "Missing command."
  | unknownCommand name similar =>
      "No such command " ++ Text.quoted name ++ "." ++ suggestion similar
  | missingArgument operand => "Missing argument '" ++ operand.label ++ "'."
  | doesNotExist operand name => invalid operand name "does not exist."
  | isDirectory operand name => invalid operand name "is a directory."
  | unexpected arguments =>
      let noun := if arguments.length = 1 then "argument" else "arguments"
      "Got unexpected extra " ++ noun ++ " (" ++ String.intercalate " " arguments ++ ")"

def showsUsage : UsageProblem → Bool
  | option (.takesNoValue _) => false
  | _ => true

end UsageProblem

namespace Request

def programFlags : List Flag :=
  [.version, .verbose, .help]

def optionsOf (subject : Option CommandName) (arguments : List String) :
    Except Refusal Arguments :=
  let flags := subject.elim programFlags CommandName.flags
  (Arguments.read flags subject.isSome arguments).mapError fun problem =>
    .usage subject (.option problem)

def early? (subject : Option CommandName) (arguments : Arguments) : Option Request :=
  arguments.flags.findSome? fun flag =>
    if flag = .version then some .version
    else if flag = .help then some (.help subject)
    else none

def takeOperand (tree : FileTree) (name : CommandName) (operand : Operand)
    (arguments : List String) : Except Refusal (String × List String) := do
  let (value, others) ←
    match arguments, operand.standard? with
    | value :: others, _ => .ok (value, others)
    | [], some value => .ok (value, [])
    | [], none => .error (.usage (some name) (.missingArgument operand))
  if value.toList.contains '\x00' then .error (.unusableName value)
  else
    match operand.problem? tree value with
    | some problem => .error (.usage (some name) problem)
    | none => return (value, others)

def commandOf (name : CommandName) (arguments : Arguments) (value : String) : Command :=
  match name with
  | .check => .check value (arguments.has .strict)
  | .parse => .parse value (arguments.has .json) (!arguments.has .noSpans)
  | .tokens => .tokens value
  | .highlight => .highlight value (arguments.has .html)
  | .lsp => .lsp

def ofCommand (tree : FileTree) (verbose : Bool) (name : CommandName) (arguments : List String) :
    Except Refusal Request := do
  let given ← optionsOf (some name) arguments
  match early? (some name) given with
  | some request => return request
  | none =>
      let (value, others) ←
        match name.operand? with
        | some operand => takeOperand tree name operand given.rest
        | none => .ok ("", given.rest)
      if others.isEmpty then return .run verbose (commandOf name given value)
      else .error (.usage (some name) (.unexpected others))

/-- A word that names no command is read as options once more. -/
def ofUnknown (name : String) (arguments : List String) : Except Refusal Request := do
  let given ← optionsOf none (name :: arguments)
  match early? none given with
  | some request => return request
  | none => .error (.usage none (.unknownCommand name (CommandName.similarTo name)))

/-- The request that the arguments of the program make. -/
def ofArguments (tree : FileTree) (arguments : List String) : Except Refusal Request := do
  if arguments.isEmpty then return .nothing
  else
    let given ← optionsOf none arguments
    match early? none given, given.rest with
    | some request, _ => return request
    | none, [] => .error (.usage none .missingCommand)
    | none, word :: others =>
        match CommandName.ofText? word with
        | some name => ofCommand tree (given.has .verbose) name others
        | none => ofUnknown word others

end Request

end SageNotation
