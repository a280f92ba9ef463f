/-!
Lines of a text.

A line ends at one of ten break characters, or at a carriage return and a
newline taken together.  The break itself belongs to no line, and a text that
ends in a break has no empty line after it.  `linesWithBreaks` keeps each break
at the end of its line.  `unixBreaks` is how a stored text is read: every
carriage return, with or without a newline after it, becomes a newline.
-/

namespace SageNotation.Text

def isLineBreak (character : Char) : Bool :=
  let code := character.toNat
  (10 ≤ code && code ≤ 13) || (28 ≤ code && code ≤ 30) ||
    code == 0x85 || code == 0x2028 || code == 0x2029

def extendFirst (character : Char) : List (List Char) → List (List Char)
  | [] => [[character]]
  | line :: others => (character :: line) :: others

def lineChars : List Char → List (List Char)
  | [] => []
  | '\r' :: '\n' :: rest => [] :: lineChars rest
  | character :: rest =>
      if isLineBreak character then [] :: lineChars rest
      else extendFirst character (lineChars rest)

def lines (text : String) : List String :=
  (lineChars text.toList).map String.ofList

def linesWithBreaks : List Char → List (List Char)
  | [] => []
  | '\r' :: '\n' :: rest => ['\r', '\n'] :: linesWithBreaks rest
  | character :: rest =>
      if isLineBreak character then [character] :: linesWithBreaks rest
      else extendFirst character (linesWithBreaks rest)

def unixBreaks : List Char → List Char
  | [] => []
  | '\r' :: '\n' :: rest => '\n' :: unixBreaks rest
  | '\r' :: rest => '\n' :: unixBreaks rest
  | character :: rest => character :: unixBreaks rest

end SageNotation.Text
