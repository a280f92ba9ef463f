import SageNotation.Command.Run

/-!
The program: files from the disk, arguments in, text and exit code out.

Only what the arguments name is loaded, with the settings files above it.  Links
to directories are not followed, so that loading ends.
-/

namespace SageNotation.Disk

def isDirectory (place : List String) : IO Bool := do
  let name := FileTree.placeText place
  match ← (IO.FS.realPath name).toBaseIO with
  | .ok path => return path.toString == name && (← path.isDir)
  | .error _ => return false

def entryAt (place : List String) : IO (List (List String × FileNode)) := do
  if ← isDirectory place then return [(place, .directory)]
  else
    match ← (IO.FS.readBinFile (FileTree.placeText place)).toBaseIO with
    | .ok bytes => return [(place, .file bytes)]
    | .error _ => return []

/-- What stands at a place and below it. -/
partial def entriesFrom (place : List String) : IO (List (List String × FileNode)) := do
  let mut found ← entryAt place
  if ← isDirectory place then
    for entry in ← (← IO.FS.realPath (FileTree.placeText place)).readDir do
      found := found ++ (← entriesFrom (place ++ [entry.fileName]))
  return found

/-- The names that arguments may mean as paths. -/
def namesIn (arguments : List String) : List String :=
  match arguments.filter fun argument => !Arguments.isOption argument with
  | ["check"] => ["."]
  | words => words.drop 1

def load (arguments : List String) : IO FileTree := do
  let workingDirectory := (Path.ofString (← IO.currentDir).toString).parts
  let bare : FileTree := { entries := [], workingDirectory := workingDirectory }
  let mut entries := []
  for name in namesIn arguments do
    let path := Path.ofString name
    for parts in FileTree.beginnings path.parts do
      let place := bare.resolve { path with parts := parts }
      entries := entries ++ (← entryAt place)
    let place := bare.resolve path
    for above in FileTree.beginnings place do
      entries := entries ++ (← entryAt (above ++ [Config.fileName]))
    entries := entries ++ (← entriesFrom place)
  return { bare with entries := entries }

end SageNotation.Disk

def main (arguments : List String) : IO UInt32 := do
  let report := SageNotation.run (← SageNotation.Disk.load arguments) arguments
  let output ← IO.getStdout
  let errors ← IO.getStderr
  output.putStr (report.outputText (← output.isTty))
  errors.putStr (report.noteText (← errors.isTty))
  if let some failure := report.ending.failure? then
    errors.putStrLn ("error: " ++ failure.message)
  return report.ending.exitCode.toUInt32
