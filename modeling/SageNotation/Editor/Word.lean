import SageNotation.Text.Alphanumeric
import SageNotation.Text.Lines

/-!
The word at a cursor: the longest run of letters, numbers, underscores and at
signs around it on its line.  A cursor right behind the last character of a line
counts as being on that character.
-/

namespace SageNotation.Editor

def isWordChar (character : Char) : Bool :=
  Text.isAlphanumeric character || character == '_' || character == '@'

def wordAround (line : List Char) (index : Nat) : String :=
  let before := (line.take index).reverse.takeWhile isWordChar
  let after := (line.drop index).takeWhile isWordChar
  String.ofList (before.reverse ++ after)

/-- The index a cursor stands on, where it stands on the line at all. -/
def cursorIndex? (length : Nat) (character : Int) : Option Nat :=
  if character < 0 then none
  else if character < length then some character.toNat
  else if character = length ∧ 0 < length then some (length - 1)
  else none

def wordAt (text : String) (line character : Int) : String :=
  if line < 0 then ""
  else
    match (Text.lineChars text.toList)[line.toNat]? with
    | none => ""
    | some row =>
        match cursorIndex? row.length character with
        | none => ""
        | some index => wordAround row index

end SageNotation.Editor
