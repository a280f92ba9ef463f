import SageNotation.Config.Decimal
import SageNotation.Text.Quoted

/-!
Values of a settings file, and what can be wrong with one.

Tables keep their keys in the order of appearance.  A `Fault` is a problem and
the number of characters that were left when it was found; `Fault.message` turns
that into a line and a column.
-/

namespace SageNotation.Config

/-- Decimals, dates and times keep their spelling. -/
inductive Value where
  | text (value : String)
  | int (value : Int)
  | decimal (spelling : String)
  | moment (spelling : String)
  | bool (value : Bool)
  | list (items : List Value)
  | table (entries : List (String × Value))

abbrev Table := List (String × Value)

namespace Value

def isCollection : Value → Bool
  | list _ => true
  | table _ => true
  | _ => false

/-- Which values switch an option on: everything but false, zero and what is
empty. -/
def isTruthy : Value → Bool
  | text value => !value.isEmpty
  | int value => value != 0
  | decimal spelling => !(Decimal.ofSpelling? spelling).any Decimal.isZero
  | moment _ => true
  | bool value => value
  | list items => !items.isEmpty
  | table entries => !entries.isEmpty

end Value

/-- A dotted key. -/
abbrev Key := List String

namespace Key

def shown : Key → String
  | [part] => "(" ++ Text.quoted part ++ ",)"
  | parts => "(" ++ String.intercalate ", " (parts.map Text.quoted) ++ ")"

end Key

inductive Problem where
  | invalidStatement
  | expectedLineEnd
  | declaredTwice (key : Key)
  | overwritten
  | immutable (key : Key)
  | redefined (key : Key)
  | expectedTableEnd
  | expectedArrayEnd
  | expectedEquals
  | invalidKeyStart
  | unclosedArray
  | unclosedInlineTable
  | duplicateInlineKey (name : String)
  | unescapedBackslash
  | invalidHex
  | notACharacter
  | expected (text : String)
  | unterminatedString
  | illegalCharacter (character : Char)
  | invalidCharacter (character : Char)
  | invalidValue
  | invalidDate
  | tooManyDigits
  | nestedTooDeep
  deriving DecidableEq

namespace Problem

def message : Problem → String
  | invalidStatement => "Invalid statement"
  | expectedLineEnd => "Expected newline or end of document after a statement"
  | declaredTwice key => "Cannot declare " ++ key.shown ++ " twice"
  | overwritten => "Cannot overwrite a value"
  | immutable key => "Cannot mutate immutable namespace " ++ key.shown
  | redefined key => "Cannot redefine namespace " ++ key.shown
  | expectedTableEnd => "Expected ']' at the end of a table declaration"
  | expectedArrayEnd => "Expected ']]' at the end of an array declaration"
  | expectedEquals => "Expected '=' after a key in a key/value pair"
  | invalidKeyStart => "Invalid initial character for a key part"
  | unclosedArray => "Unclosed array"
  | unclosedInlineTable => "Unclosed inline table"
  | duplicateInlineKey name => "Duplicate inline table key " ++ Text.quoted name
  | unescapedBackslash => "Unescaped '\\' in a string"
  | invalidHex => "Invalid hex value"
  | notACharacter => "Escaped character is not a Unicode scalar value"
  | expected text => "Expected " ++ Text.quoted text
  | unterminatedString => "Unterminated string"
  | illegalCharacter character => "Illegal character " ++ Text.quoted (String.ofList [character])
  | invalidCharacter character =>
      "Found invalid character " ++ Text.quoted (String.ofList [character])
  | invalidValue => "Invalid value"
  | invalidDate => "Invalid date or datetime"
  | tooManyDigits => "Too many digits in a whole number"
  | nestedTooDeep => "Values nested too deep"

end Problem

structure Fault where
  problem : Problem
  remaining : Nat
  deriving DecidableEq

namespace Fault

/-- A place in words: line and column from one, or the end. -/
def place (text : List Char) (remaining : Nat) : String :=
  if remaining = 0 then "end of document"
  else
    let before := text.take (text.length - remaining)
    let column := (before.reverse.takeWhile (· != '\n')).length + 1
    "line " ++ toString (before.count '\n' + 1) ++ ", column " ++ toString column

def message (text : List Char) (fault : Fault) : String :=
  fault.problem.message ++ " (at " ++ place text fault.remaining ++ ")"

end Fault

end SageNotation.Config
