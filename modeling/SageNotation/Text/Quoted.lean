import SageNotation.Text.Printable

/-!
Texts in quotation marks, for listings where every text must stay on one line.

Apostrophes enclose the text, or double quotes when the text holds an
apostrophe and no double quote.  The enclosing mark and the backslash are
escaped, tab, newline and carriage return are written by name, and any other
character that does not print is written by its code in two, four or eight
lower-case hexadecimal digits, the fewest that fit.
-/

namespace SageNotation.Text

def hexDigit (value : Nat) : Char :=
  if value < 10 then Char.ofNat (48 + value) else Char.ofNat (87 + value)

def hexDigits : Nat → Nat → List Char
  | 0, _ => []
  | width + 1, value => hexDigits width (value / 16) ++ [hexDigit (value % 16)]

def escapeCode (code : Nat) : List Char :=
  if code < 0x100 then '\\' :: 'x' :: hexDigits 2 code
  else if code < 0x10000 then '\\' :: 'u' :: hexDigits 4 code
  else '\\' :: 'U' :: hexDigits 8 code

def quoteMark (text : List Char) : Char :=
  if text.contains '\x27' && !text.contains '"' then '"' else '\x27'

def quoteChar (mark character : Char) : List Char :=
  if character = mark ∨ character = '\\' then ['\\', character]
  else if character = '\t' then ['\\', 't']
  else if character = '\n' then ['\\', 'n']
  else if character = '\r' then ['\\', 'r']
  else if isPrintable character then [character]
  else escapeCode character.toNat

def quoted (text : String) : String :=
  let mark := quoteMark text.toList
  String.ofList (mark :: (text.toList.flatMap (quoteChar mark) ++ [mark]))

def bracketed (items : List String) : String :=
  "[" ++ String.intercalate ", " items ++ "]"

end SageNotation.Text
