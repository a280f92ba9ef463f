import SageNotation.Highlight.Scan

/-!
Pieces of a source in terminal colours.

A piece is coloured line by line, so that no colour runs over a line end.
-/

namespace SageNotation.Highlight

def sequence (codes : String) : String :=
  String.ofList [Char.ofNat 27, '['] ++ codes

namespace Category

/-- What switches a category's colour on; some categories have none. -/
def color? : Category → Option String
  | comment => some (sequence "37m")
  | declaration => some (sequence "34m")
  | clause => some (sequence "34m")
  | keyword => some (sequence "34m")
  | number => some (sequence "34m")
  | symbol => some (sequence "35m")
  | typeName => some (sequence "04m" ++ sequence "32m")
  | inferred => some (sequence "90m")
  | fieldName => some (sequence "36m")
  | string => some (sequence "33m")
  | escape => some (sequence "33m")
  | tick => some (sequence "32m")
  | heading => some (sequence "01m")
  | error => some (sequence "04m" ++ sequence "91m")
  | text => none
  | decision => none
  | operator => none
  | name => none
  | punctuation => none

end Category

def reset : String := sequence "39;49;00m"

def colorLine (color : Option String) (line : List Char) : String :=
  let newline := if line.getLast? = some '\n' then "\n" else ""
  let content := String.ofList (if line.getLast? = some '\n' then line.dropLast else line)
  match color with
  | some code => code ++ content ++ reset ++ newline
  | none => content ++ newline

def colorPiece (piece : Piece) : String :=
  String.join ((Text.linesWithBreaks piece.text).map (colorLine piece.category.color?))

def colored (source : String) : String :=
  String.join ((normalizedPieces source).map colorPiece)

end SageNotation.Highlight
