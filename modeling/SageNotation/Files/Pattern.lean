import SageNotation.Files.Tree

/-!
Patterns for paths, and the paths in a tree that fit one.

A pattern is a path whose parts may stand for many names.  Two stars as a whole
part stand for the directory itself and every directory below.  In any other part
a star stands for any text, a question mark for any character, and a set in
brackets for one of its characters.  Names that start with a dot are names like
any other, and letters fit only themselves.
-/

namespace SageNotation

inductive SetItem where
  | one (character : Char)
  | range (low high : Char)
  deriving DecidableEq

namespace SetItem

def holds (character : Char) : SetItem → Bool
  | one only => character == only
  | range low high => low ≤ character && character ≤ high

def isReversed : SetItem → Bool
  | one _ => false
  | range low high => high < low

def itemsOf : List Char → List SetItem
  | low :: '-' :: high :: others => .range low high :: itemsOf others
  | character :: others => .one character :: itemsOf others
  | [] => []

/-- The items in the brackets of a set; an exclamation mark in front is an item
of its own. -/
def ofChars : List Char → List SetItem
  | '!' :: others => .one '!' :: itemsOf others
  | characters => itemsOf characters

end SetItem

inductive NamePiece where
  | exactly (character : Char)
  | anyOne
  | anyText
  | oneOf (items : List SetItem)
  | noneOf (items : List SetItem)
  deriving DecidableEq

namespace NamePiece

/-- An exclamation mark in front excludes the rest.  What stands in front is seen
once reversed ranges are gone. -/
def ofItems : List SetItem → NamePiece
  | .one '!' :: others => .noneOf others
  | .range '!' high :: others => .noneOf (.one '-' :: .one high :: others)
  | items => .oneOf items

def ofSet (characters : List Char) : NamePiece :=
  ofItems ((SetItem.ofChars characters).filter fun item => !item.isReversed)

/-- The bracket that closes a set cannot be its first character. -/
def leading : List Char → Nat
  | '!' :: ']' :: _ => 2
  | ']' :: _ => 1
  | _ => 0

def setChars (text : List Char) : List Char :=
  text.take (leading text) ++ (text.drop (leading text)).takeWhile (· != ']')

def fromClosing (text : List Char) : List Char :=
  (text.drop (leading text)).dropWhile (· != ']')

theorem length_fromClosing {text after : List Char} {closing : Char}
    (closed : fromClosing text = closing :: after) : after.length < text.length := by
  have kept := (List.dropWhile_suffix (l := text.drop (leading text)) (· != ']')).length_le
  unfold fromClosing at closed
  rw [closed] at kept
  simp only [List.length_cons, List.length_drop] at kept
  omega

/-- The pieces of a part; a bracket that is never closed is a plain character. -/
def ofChars (text : List Char) : List NamePiece :=
  match text with
  | [] => []
  | '*' :: rest => .anyText :: ofChars rest
  | '?' :: rest => .anyOne :: ofChars rest
  | '[' :: rest =>
      match closed : fromClosing rest with
      | _ :: after =>
          have := length_fromClosing closed
          ofSet (setChars rest) :: ofChars after
      | [] => .exactly '[' :: ofChars rest
  | character :: rest => .exactly character :: ofChars rest
termination_by text.length
decreasing_by
  all_goals
    simp only [List.length_cons]
    omega

def covers (character : Char) : NamePiece → Bool
  | exactly only => character == only
  | anyOne => true
  | anyText => false
  | oneOf items => items.any (·.holds character)
  | noneOf items => !items.any (·.holds character)

/-- From each place on, whether the mark is set there or further on. -/
def anyFrom : List Bool → List Bool
  | [] => []
  | here :: rest =>
      let later := anyFrom rest
      (here || later.headD false) :: later

/-- Whether the pieces fit what is left of a name, for the whole name first and for
nothing last.  Each row follows from the one for the later pieces. -/
def fitRow (name : List Char) : List NamePiece → List Bool
  | [] => name.map (fun _ => false) ++ [true]
  | .anyText :: later => anyFrom (fitRow name later)
  | piece :: later =>
      List.zipWith (fun character fits => piece.covers character && fits) name
        (fitRow name later).tail ++ [false]

def fit (pieces : List NamePiece) (name : List Char) : Bool :=
  (fitRow name pieces).headD false

end NamePiece

inductive PatternPart where
  /-- The directory itself and every directory below. -/
  | below
  | named (name : String)
  | fitting (pieces : List NamePiece)

structure PathPattern where
  parts : List PatternPart
  /-- A slash at the end asks for directories. -/
  directoriesOnly : Bool

inductive PatternProblem where
  | empty
  | absolute
  /-- The pattern has no parts, with or without a slash at the end. -/
  | noParts (slash : Bool)
  /-- Two stars are only part of a part. -/
  | starsInPart
  | tooManyParts
  deriving DecidableEq

namespace PatternPart

def hasTwoStars : List Char → Bool
  | '*' :: '*' :: _ => true
  | _ :: rest => hasTwoStars rest
  | [] => false

def ofString (part : String) : Except PatternProblem PatternPart :=
  let characters := part.toList
  if part = "**" then .ok .below
  else if hasTwoStars characters then .error .starsInPart
  else if characters.any fun character => character == '*' || character == '?' || character == '['
  then .ok (.fitting (NamePiece.ofChars characters))
  else .ok (.named part)

end PatternPart

namespace PathPattern

def maxParts : Nat := 195

def ofString (text : String) : Except PatternProblem PathPattern := do
  let path := Path.ofString text
  let slash := text.toList.getLast? = some '/'
  if text.isEmpty then .error .empty
  else if path.anchor ≠ .relative then .error .absolute
  else if path.parts.isEmpty then .error (.noParts slash)
  else
    let parts ← (path.parts.take maxParts).mapM PatternPart.ofString
    if maxParts < path.parts.length then .error .tooManyParts
    else return { parts := parts, directoriesOnly := slash }

end PathPattern

namespace FileTree

def beginnings : List String → List (List String)
  | [] => [[]]
  | name :: others => [] :: (beginnings others).map (name :: ·)

def directoriesBelow (tree : FileTree) (place : List String) : List (List String) :=
  let within := tree.entries.filterMap fun entry =>
    if place.isPrefixOf entry.1 then some (entry.1.drop place.length) else none
  ((([] :: within).flatMap beginnings).eraseDups).filter fun names =>
    tree.isDirectoryAt (place ++ names)

structure LongName where
  path : Path

/-- The paths a part leads to from a path, only directories if more is to come. -/
def step (tree : FileTree) (directories : Bool) (part : PatternPart) (path : Path) :
    Except LongName (List Path) :=
  match part with
  | .below =>
      match tree.locate? path.toString with
      | some place =>
          .ok ((tree.directoriesBelow place).map fun names =>
            { path with parts := path.parts ++ names })
      | none => .ok []
  | .named name =>
      let next := path.child name
      match tree.locate next.toString with
      | .ok place => .ok (if !directories || tree.isDirectoryAt place then [next] else [])
      | .error .tooLong => .error { path := next }
      | .error _ => .ok []
  | .fitting pieces =>
      match tree.locate? path.toString with
      | some place =>
          .ok (((tree.childrenAt place).filter fun name =>
            NamePiece.fit pieces name.toList &&
              (!directories || tree.isDirectoryAt (place ++ [name]))).map path.child)
      | none => .ok []

def follows (tree : FileTree) (directories : Bool) :
    List PatternPart → List Path → Except LongName (List Path)
  | [], paths => .ok paths
  | part :: later, paths => do
      let reached ← paths.mapM (tree.step (directories || !later.isEmpty) part)
      follows tree directories later reached.flatten.eraseDups

def filesFitting (tree : FileTree) (pattern : PathPattern) (directory : Path) :
    Except LongName (List Path) := do
  let found ← tree.follows pattern.directoriesOnly pattern.parts [directory]
  return found.filter fun path => tree.isFile path.toString

def inOrder (paths : List Path) : List Path :=
  paths.eraseDups.mergeSort Path.precedes

end FileTree

end SageNotation
