import SageNotation.Files.Path
import SageNotation.Source.Position
import SageNotation.Text.Lines

/-!
Named texts with look-up by offset and by line and column.

Positions count lines by newlines alone.  `lines` cuts at every line break, so a
text with other breaks has more lines than `positionAt` counts.
-/

namespace SageNotation

structure SourceText where
  name : String
  content : String

namespace SourceText

def ofText (content name : String) : SourceText :=
  { name := (Path.ofString name).toString, content := content }

def ofStored (content name : String) : SourceText :=
  ofText (String.ofList (Text.unixBreaks content.toList)) name

def lines (source : SourceText) : List String :=
  Text.lines source.content

def startsFrom (offset : Nat) : List Char → List Nat
  | [] => []
  | character :: rest =>
      if character = '\n' then (offset + 1) :: startsFrom (offset + 1) rest
      else startsFrom (offset + 1) rest

/-- The offset of the first character of every line, in order. -/
def lineStarts (source : SourceText) : List Nat :=
  0 :: startsFrom 0 source.content.toList

def length (source : SourceText) : Nat :=
  source.content.toList.length

/-- The nearest offset inside the text. -/
def clamp (source : SourceText) (offset : Int) : Nat :=
  min offset.toNat source.length

def positionAt (source : SourceText) (offset : Int) : Position :=
  let place := source.clamp offset
  let passed := source.lineStarts.takeWhile (· ≤ place)
  { offset := place
    line := passed.length
    col := (place : Int) - passed.getLastD 0 + 1 }

def offsetAt (source : SourceText) (line col : Int) : Nat :=
  if line < 1 then 0
  else
    match source.lineStarts[(line - 1).toNat]? with
    | some start => source.clamp (start + col - 1)
    | none => source.length

/-- The line with this number, empty when there is none. -/
def lineAt (source : SourceText) (number : Int) : String :=
  if number < 1 then "" else source.lines.getD (number - 1).toNat ""

def slice (source : SourceText) (start stop : Int) : String :=
  String.ofList
    ((source.content.toList.take stop.toNat).drop start.toNat)

def spanText (source : SourceText) (span : Span) : String :=
  source.slice span.start.offset span.stop.offset

def spanAt (source : SourceText) (start stop : Int) : Span :=
  { file := source.name, start := source.positionAt start, stop := source.positionAt stop }

end SourceText

end SageNotation
