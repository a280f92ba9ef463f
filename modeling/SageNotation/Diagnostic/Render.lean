import SageNotation.Diagnostic.Basic

/-!
Diagnostics as text: a header, and for each label its place, the line of source
it points at and carets under the part that is meant.

A span over several lines is underlined to the end of its first line.  There is
always at least one caret.  Source lines come from a function, so that the
rendering does not depend on where sources are kept.
-/

namespace SageNotation.Diagnostic

structure Palette where
  severity : Severity → String
  bold : String
  blue : String
  reset : String

namespace Palette

def escape : String := String.ofList [Char.ofNat 27]

def colored : Palette where
  severity
    | .error => escape ++ "[1;31m"
    | .warning => escape ++ "[1;33m"
    | .note => escape ++ "[1;36m"
  bold := escape ++ "[1m"
  blue := escape ++ "[1;34m"
  reset := escape ++ "[0m"

def plain : Palette where
  severity _ := ""
  bold := ""
  blue := ""
  reset := ""

def choose (color : Bool) : Palette :=
  if color then colored else plain

end Palette

def repeated (character : Char) (count : Int) : String :=
  String.ofList (List.replicate count.toNat character)

/-- A line number, right-aligned in four columns. -/
def gutter (number : Int) : String :=
  let digits := toString number
  repeated ' ' (4 - digits.length) ++ digits

/-- How many carets go under a label on its first line. -/
def caretCount (span : Span) (line : String) : Int :=
  let width :=
    if span.start.line = span.stop.line then span.stop.col - span.start.col
    else (line.toList.length : Int) - span.start.col + 1
  max 1 width

def sourceLine? (linesOf : String → List String) (span : Span) : Option String :=
  if span.start.line < 1 then none
  else (linesOf span.file)[(span.start.line - 1).toNat]?

def bar (palette : Palette) : String :=
  "  " ++ palette.blue ++ "   |" ++ palette.reset

def excerptRows (palette : Palette) (severity : Severity) (span : Span) (line : String) :
    List String :=
  ["  " ++ palette.blue ++ gutter span.start.line ++ " |" ++ palette.reset ++ " " ++ line,
    bar palette ++ " " ++ repeated ' ' (span.start.col - 1) ++ palette.severity severity ++
      repeated '^' (caretCount span line) ++ palette.reset]

def labelRows (palette : Palette) (linesOf : String → List String) (severity : Severity)
    (label : Label) : List String :=
  ("  " ++ palette.blue ++ "-->" ++ palette.reset ++ " " ++ label.span.label) ::
    bar palette ::
    ((sourceLine? linesOf label.span).elim [] (excerptRows palette severity label.span) ++
      if label.message.isEmpty then []
      else
        [bar palette ++ "   " ++ palette.severity severity ++ label.message ++ palette.reset])

def headerRow (palette : Palette) (diagnostic : Diagnostic) : String :=
  palette.severity diagnostic.severity ++ diagnostic.severity.name ++ "[" ++ diagnostic.code ++
    "]" ++ palette.reset ++ palette.bold ++ ": " ++ diagnostic.message ++ palette.reset

def rows (palette : Palette) (linesOf : String → List String) (diagnostic : Diagnostic) :
    List String :=
  headerRow palette diagnostic ::
    (diagnostic.labels.flatMap (labelRows palette linesOf diagnostic.severity) ++
      diagnostic.notes.map (fun note =>
        "  " ++ palette.blue ++ "=" ++ palette.reset ++ " note: " ++ note) ++
      diagnostic.suggestions.map (fun suggestion =>
        "  " ++ palette.blue ++ "try:" ++ palette.reset ++ " " ++ suggestion.replacement))

def render (color : Bool) (linesOf : String → List String) (diagnostic : Diagnostic) : String :=
  String.intercalate "\n" (rows (Palette.choose color) linesOf diagnostic)

end SageNotation.Diagnostic
