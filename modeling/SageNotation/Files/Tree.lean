import SageNotation.Files.Path
import SageNotation.Text.Lines
import SageNotation.Text.Quoted

/-!
A tree of files, and where names in it lead.

A place is the list of names from the root down.  The tree lists files with
their bytes and directories that may be empty; every directory on the way to an
entry is there too.  Names are looked up from the working directory, one piece at
a time: a piece can only be looked up in a directory.  The length of a name is
limited as a whole and piece by piece.
-/

namespace SageNotation

inductive FileNode where
  | file (bytes : ByteArray)
  | directory

structure FileTree where
  entries : List (List String × FileNode)
  workingDirectory : List String

namespace FileTree

def fileAt? (tree : FileTree) (place : List String) : Option ByteArray :=
  tree.entries.findSome? fun entry =>
    match entry.2 with
    | .file bytes => if entry.1 = place then some bytes else none
    | .directory => none

def isFileAt (tree : FileTree) (place : List String) : Bool :=
  (tree.fileAt? place).isSome

/-- A directory is listed, or lies on the way to an entry. -/
def isDirectoryAt (tree : FileTree) (place : List String) : Bool :=
  place.isEmpty || place.isPrefixOf tree.workingDirectory ||
    tree.entries.any fun entry =>
      place.isPrefixOf entry.1 &&
        match entry.2 with
        | .file _ => place.length < entry.1.length
        | .directory => true

def existsAt (tree : FileTree) (place : List String) : Bool :=
  tree.isFileAt place || tree.isDirectoryAt place

def childrenAt (tree : FileTree) (place : List String) : List String :=
  (tree.entries.filterMap fun entry =>
    if place.isPrefixOf entry.1 then entry.1[place.length]? else none).eraseDups

/-- Why a name leads nowhere. -/
inductive LookupProblem where
  | missing
  | notADirectory
  | tooLong
  /-- There is a zero character in the name. -/
  | unusable
  deriving DecidableEq

/-- How many bytes a name may have from slash to slash. -/
def maxPieceSize : Nat := 255

/-- How many bytes a name may have as a whole. -/
def maxNameSize : Nat := 4095

def tooLongMessage (name : String) : String :=
  "[Errno 36] File name too long: " ++ Text.quoted name

/-- Follow the pieces of a name from a place. -/
def follow (tree : FileTree) (place : List String) :
    List String → Except LookupProblem (List String)
  | [] => if tree.existsAt place then .ok place else .error .missing
  | piece :: others =>
      if tree.isDirectoryAt place then
        if piece = "" ∨ piece = "." then follow tree place others
        else if piece = ".." then follow tree place.dropLast others
        else if maxPieceSize < piece.utf8ByteSize then .error .tooLong
        else follow tree (place ++ [piece]) others
      else if tree.isFileAt place then .error .notADirectory
      else .error .missing

/-- Where a name leads; the empty name leads nowhere. -/
def locate (tree : FileTree) (name : String) : Except LookupProblem (List String) :=
  if name.isEmpty then .error .missing
  else if name.toList.contains '\x00' then .error .unusable
  else if maxNameSize < name.utf8ByteSize then .error .tooLong
  else
    let start :=
      match Path.anchorOf name.toList with
      | .relative => tree.workingDirectory
      | _ => []
    tree.follow start (Path.pieces name)

def locate? (tree : FileTree) (name : String) : Option (List String) :=
  (tree.locate name).toOption

def isFile (tree : FileTree) (name : String) : Bool :=
  (tree.locate? name).any tree.isFileAt

def isDirectory (tree : FileTree) (name : String) : Bool :=
  (tree.locate? name).any tree.isDirectoryAt

def bytes? (tree : FileTree) (name : String) : Option ByteArray :=
  (tree.locate? name).bind tree.fileAt?

/-- A file as text: UTF-8 with every line break read as a newline.  Nothing when
the bytes are not UTF-8. -/
def decode? (bytes : ByteArray) : Option String :=
  (String.fromUTF8? bytes).map fun text => String.ofList (Text.unixBreaks text.toList)

def linesOf (tree : FileTree) (name : String) : List String :=
  match (tree.bytes? (Path.ofString name).toString).bind decode? with
  | some text => Text.lines text
  | none => []

/-- The place a name stands for, whether or not there is anything: double dots
lead one level up. -/
def resolve (tree : FileTree) (path : Path) : List String :=
  let start :=
    match path.anchor with
    | .relative => tree.workingDirectory
    | _ => []
  path.parts.foldl (fun place part => if part = ".." then place.dropLast else place ++ [part]) start

/-- An absolute place as text. -/
def placeText (place : List String) : String :=
  "/" ++ String.intercalate "/" place

end FileTree

end SageNotation
