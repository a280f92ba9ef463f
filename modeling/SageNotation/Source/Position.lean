/-!
Places in a text, and the stretches between two of them.

Lines and columns count from one and offsets from zero, all in characters.  The
components are integers because a span may come from outside and need not lie
in any text.  Positions are compared by offset, then line, then column.
-/

namespace SageNotation

structure Position where
  offset : Int
  line : Int
  col : Int
  deriving DecidableEq

namespace Position

def first : Position :=
  { offset := 0, line := 1, col := 1 }

def isBefore (left right : Position) : Bool :=
  left.offset < right.offset ||
    (left.offset == right.offset &&
      (left.line < right.line || (left.line == right.line && left.col < right.col)))

def later (left right : Position) : Position :=
  if left.isBefore right then right else left

/-- Where the next character stands after one character has been read. -/
def next (position : Position) (character : Char) : Position :=
  if character = '\n' then
    { offset := position.offset + 1, line := position.line + 1, col := 1 }
  else
    { offset := position.offset + 1, line := position.line, col := position.col + 1 }

def after (position : Position) (text : List Char) : Position :=
  text.foldl next position

/-- One column further on the same line, whatever the character is. -/
def beside (position : Position) : Position :=
  { offset := position.offset + 1, line := position.line, col := position.col + 1 }

@[simp] theorem after_nil (position : Position) : position.after [] = position := rfl

@[simp] theorem after_append (position : Position) (left right : List Char) :
    position.after (left ++ right) = (position.after left).after right := by
  simp [after]

theorem offset_after (position : Position) (text : List Char) :
    (position.after text).offset = position.offset + text.length := by
  induction text generalizing position with
  | nil => simp
  | cons character rest step =>
      have moved : (position.next character).offset = position.offset + 1 := by
        unfold next
        split <;> rfl
      have unfolded :
          position.after (character :: rest) = (position.next character).after rest := rfl
      rw [unfolded, step, moved, List.length_cons]
      omega

end Position

/-- A stretch of a named text; `stop` is the position after its last character. -/
structure Span where
  file : String
  start : Position
  stop : Position
  deriving DecidableEq

namespace Span

/-- File, line and column of the start, divided by colons. -/
def label (span : Span) : String :=
  span.file ++ ":" ++ toString span.start.line ++ ":" ++ toString span.start.col

end Span

end SageNotation
