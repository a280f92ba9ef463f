import SageNotation.Text.Quoted
import SageNotation.Text.Similar

/-!
Arguments of a command, split into flags and the rest.

An argument of two or more characters that starts with a hyphen is an option.
After two hyphens a flag is named in full; after one hyphen every character is a
flag.  Flags take no value.  Two hyphens alone end the options.
-/

namespace SageNotation

structure Flag where
  name : String
  letter : Option Char
  summary : String
  deriving DecidableEq

namespace Flag

def help : Flag :=
  { name := "help", letter := none, summary := "Show this message and exit." }

def long (flag : Flag) : String :=
  "--" ++ flag.name

end Flag

inductive OptionProblem where
  /-- There is no such option, but there are some like it. -/
  | unknown (option : String) (similar : List String)
  | takesNoValue (option : String)
  deriving DecidableEq

structure Arguments where
  flags : List Flag
  rest : List String

namespace Arguments

def isOption (argument : String) : Bool :=
  match argument.toList with
  | '-' :: _ :: _ => true
  | _ => false

def optionName (argument : String) : String :=
  String.ofList (argument.toList.takeWhile (· != '='))

def ofLetter (flags : List Flag) (letter : Char) : Except OptionProblem Flag :=
  match flags.find? fun flag => flag.letter == some letter with
  | some flag => .ok flag
  | none => .error (.unknown (String.ofList ['-', letter]) [])

def ofOption (flags : List Flag) (argument : String) : Except OptionProblem (List Flag) :=
  let name := optionName argument
  match flags.find? fun flag => flag.long == name with
  | some flag => if name = argument then .ok [flag] else .error (.takesNoValue name)
  | none =>
      match argument.toList with
      | '-' :: '-' :: _ => .error (.unknown name (Text.closeWords name (flags.map Flag.long)))
      | _ => (argument.toList.drop 1).mapM (ofLetter flags)

/-- Split arguments.  When mixed, options may stand between the rest; otherwise
they end where the rest starts. -/
def read (flags : List Flag) (mixed : Bool) : List String → Except OptionProblem Arguments
  | [] => .ok { flags := [], rest := [] }
  | argument :: others => do
      if argument = "--" then return { flags := [], rest := others }
      else if isOption argument then
        let found ← ofOption flags argument
        let later ← read flags mixed others
        return { later with flags := found ++ later.flags }
      else if mixed then
        let later ← read flags mixed others
        return { later with rest := argument :: later.rest }
      else return { flags := [], rest := argument :: others }

def has (flag : Flag) (arguments : Arguments) : Bool :=
  arguments.flags.contains flag

end Arguments

end SageNotation
