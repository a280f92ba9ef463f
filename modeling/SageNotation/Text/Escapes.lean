/-!
Text without terminal control sequences.

A control sequence is the escape character, an opening bracket, any number of
parameter characters, then any number of intermediate characters, and one final
character.  The three kinds have no character in common, so there is one way to
read a sequence.  An escape character that starts none stays.
-/

namespace SageNotation.Text

def isParameter (character : Char) : Bool :=
  '0' ≤ character && character ≤ '?'

def isIntermediate (character : Char) : Bool :=
  ' ' ≤ character && character ≤ '/'

def isFinal (character : Char) : Bool :=
  '@' ≤ character && character ≤ '~'

/-- What follows the control sequence whose opening bracket was just read. -/
def afterSequence? (text : List Char) : Option (List Char) :=
  match (text.dropWhile isParameter).dropWhile isIntermediate with
  | final :: rest => if isFinal final then some rest else none
  | [] => none

theorem length_afterSequence {text rest : List Char} (found : afterSequence? text = some rest) :
    rest.length < text.length := by
  have shorter := ((List.dropWhile_suffix (l := text.dropWhile isParameter) isIntermediate).trans
    (List.dropWhile_suffix (l := text) isParameter)).length_le
  unfold afterSequence? at found
  split at found
  · rename_i final later remaining
    split at found
    · rw [remaining] at shorter
      simp only [Option.some.injEq] at found
      subst found
      exact shorter
    · contradiction
  · contradiction

/-- The characters of a text without its control sequences. -/
def plainChars (text : List Char) : List Char :=
  match text with
  | [] => []
  | '\x1b' :: '[' :: rest =>
      match found : afterSequence? rest with
      | some after =>
          have := length_afterSequence found
          plainChars after
      | none => '\x1b' :: plainChars ('[' :: rest)
  | character :: rest => character :: plainChars rest
termination_by text.length
decreasing_by
  all_goals
    simp only [List.length_cons]
    omega

def plain (text : String) : String :=
  String.ofList (plainChars text.toList)

end SageNotation.Text
