import SageNotation.Config.Reader
import SageNotation.Files.Tree

/-!
Settings of a package, and the file they come from.

The settings file of a place is the nearest one in its directory or in a
directory above.  Values are taken as they stand; only the shape of the two known
tables is checked.
-/

namespace SageNotation.Config

def fileName : String := "sage.toml"

structure Settings where
  packageName : Value
  packageVersion : Value
  strict : Value
  warnRawLines : Value
  patterns : List Value

namespace Settings

def standard : Settings :=
  { packageName := .text "untitled"
    packageVersion := .text "0.0.0"
    strict := .bool false
    warnRawLines := .bool true
    patterns := [.text "**/*.sage"] }

end Settings

inductive SettingsError where
  /-- A known table is something else. -/
  | notATable
  /-- The patterns are no list. -/
  | notAList
  | malformed (message : String)
  /-- A whole number is too long to be read. -/
  | tooManyDigits
  | nestedTooDeep
  | notUtf8
  | isDirectory (name : String)
  | missing (name : String)
  | notADirectory (name : String)
  | nameTooLong (name : String)
  /-- A name with a zero character stands for no file. -/
  | unusableName (name : String)
  /-- No settings file at a place or above it. -/
  | notFound
  deriving DecidableEq

namespace SettingsError

def message : SettingsError → String
  | notATable => "expected a table"
  | notAList => "expected a list"
  | malformed text => text
  | tooManyDigits => Problem.tooManyDigits.message
  | nestedTooDeep => Problem.nestedTooDeep.message
  | notUtf8 => "expected UTF-8"
  | isDirectory name => "[Errno 21] Is a directory: " ++ Text.quoted name
  | missing name => "[Errno 2] No such file or directory: " ++ Text.quoted name
  | notADirectory name => "[Errno 20] Not a directory: " ++ Text.quoted name
  | nameTooLong name => FileTree.tooLongMessage name
  | unusableName name => Text.quoted name ++ ": names cannot hold a zero character"
  | notFound => "No sage.toml found in any parent directory"

/-- Whether a problem is about a file or the wording of one, so that its message
helps; the others are about what the settings hold. -/
def isTold : SettingsError → Bool
  | notATable => false
  | notAList => false
  | tooManyDigits => false
  | nestedTooDeep => false
  | notUtf8 => false
  | unusableName _ => false
  | _ => true

def ofLookup (name : String) : FileTree.LookupProblem → SettingsError
  | .missing => missing name
  | .notADirectory => notADirectory name
  | .tooLong => nameTooLong name
  | .unusable => unusableName name

/-- What a fault in the text of a settings file means for its reader. -/
def ofFault (text : List Char) (fault : Fault) : SettingsError :=
  match fault.problem with
  | .tooManyDigits => tooManyDigits
  | .nestedTooDeep => nestedTooDeep
  | _ => malformed (fault.message text)

end SettingsError

/-- The items of a list, the characters of a text or the keys of a table. -/
def listOf : Value → Except SettingsError (List Value)
  | .list items => .ok items
  | .text value => .ok (value.toList.map fun character => .text (String.ofList [character]))
  | .table entries => .ok (entries.map fun entry => .text entry.1)
  | _ => .error .notAList

def tableOf : Value → Except SettingsError Table
  | .table entries => .ok entries
  | _ => .error .notATable

namespace Settings

def withPackage (settings : Settings) (package : Table) : Settings :=
  { settings with
    packageName := (package.lookup "name").getD settings.packageName
    packageVersion := (package.lookup "version").getD settings.packageVersion }

def withCheck (settings : Settings) (check : Table) : Except SettingsError Settings := do
  let patterns ← listOf ((check.lookup "include").getD (.list settings.patterns))
  return { settings with
    strict := (check.lookup "strict").getD settings.strict
    warnRawLines := (check.lookup "warn_raw_lines").getD settings.warnRawLines
    patterns := patterns }

def ofTable (table : Table) : Except SettingsError Settings := do
  let named ←
    match table.lookup "package" with
    | some package => (tableOf package).map standard.withPackage
    | none => .ok standard
  match table.lookup "check" with
  | some check => (tableOf check).bind named.withCheck
  | none => .ok named

def ofText (text : String) : Except SettingsError Settings :=
  let content := dropReturns text.toList
  match read content with
  | .ok table => ofTable table
  | .error fault => .error (.ofFault content fault)

def ofBytes (bytes : ByteArray) : Except SettingsError Settings :=
  match String.fromUTF8? bytes with
  | some text => ofText text
  | none => .error .notUtf8

def load (tree : FileTree) (name : String) : Except SettingsError Settings :=
  match tree.locate name with
  | .error problem => .error (.ofLookup name problem)
  | .ok place =>
      match tree.fileAt? place with
      | some bytes => ofBytes bytes
      | none => .error (.isDirectory name)

end Settings

/-- The nearest settings file in a place or above it.  Only the root has no place
above it; a name too long to be looked up breaks the search off. -/
def nearest (tree : FileTree) (place : List String) : Except SettingsError (List String) :=
  let candidate := place ++ [fileName]
  let name := FileTree.placeText candidate
  if FileTree.maxNameSize < name.utf8ByteSize then .error (.nameTooLong name)
  else if tree.existsAt candidate then .ok candidate
  else if place.dropLast = place then .error .notFound
  else nearest tree place.dropLast
termination_by place.length
decreasing_by
  rename_i inside
  cases place with
  | nil => exact absurd rfl inside
  | cons first others =>
      rw [List.length_dropLast]
      exact Nat.lt_succ_self _

/-- The directory a search starts in: that of a file, else the place itself. -/
def searchStart (tree : FileTree) (place : List String) : List String :=
  if tree.isFileAt place then place.dropLast else place

/-- The place where a search for the settings of a path starts.  There need not be
anything, but it must be possible to look. -/
def placeToSearch (tree : FileTree) (path : Path) : Except SettingsError (List String) :=
  let place := tree.resolve path
  let name := FileTree.placeText place
  if path.toString.toList.contains '\x00' then .error (.unusableName path.toString)
  else
    match tree.locate name with
    | .error .tooLong => .error (.nameTooLong name)
    | _ => .ok place

def findFrom (tree : FileTree) (path : Path) : Except SettingsError (List String) :=
  (placeToSearch tree path).bind fun place => nearest tree (searchStart tree place)

/-- The settings that hold for a path, and the file they come from; the standard
settings where there is none. -/
def discoverFrom (tree : FileTree) (path : Path) :
    Except SettingsError (Settings × Option (List String)) :=
  match findFrom tree path with
  | .ok file =>
      (Settings.load tree (FileTree.placeText file)).map fun settings => (settings, some file)
  | .error .notFound => .ok (.standard, none)
  | .error problem => .error problem

end SageNotation.Config
