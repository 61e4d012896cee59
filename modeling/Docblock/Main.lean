import Docblock.CommandLine.Usage
import Docblock.Run
import Docblock.Yaml.Document

/-!
# The program

Reads what the command line names into a file tree, runs, and writes the files that
the run made or changed. Links inside a named folder are not followed by a run, so
their targets are not read.
-/

namespace Docblock.Program

/-- The text of a native string. -/
def textOf (s : String) : Text := s.toList

/-- The native string of a text. -/
def stringOf (s : Text) : String := String.ofList s

/-- Reads a file or a folder with everything in it. -/
partial def readEntry (entry : IO.FS.DirEntry) (throughLink : Bool) : IO Entry := do
  let metadata ← if throughLink then entry.path.metadata else entry.path.symlinkMetadata
  match metadata.type with
  | .dir =>
    let mut entries : List (Text × Entry) := []
    for inner in ← entry.path.readDir do
      entries := (textOf inner.fileName, ← readEntry inner false) :: entries
    pure (.folder entries)
  | .file => pure (.file (← IO.FS.readBinFile entry.path).toList)
  | _ => pure (.link [])

/-- Drops each name before two dots together with them. -/
def plainPlace (names : List Text) : List Text :=
  names.foldl (fun place name => if name = ['.', '.'] then place.dropLast else place ++ [name]) []

/-- The place of a path in the file tree. -/
def placeOf (current : List Text) (path : Path) : List Text :=
  plainPlace ((if path.root = [] then current else []) ++ path.names)

/-- The native name of a place. -/
def nativeName (place : List Text) : String := stringOf ('/' :: Text.join ['/'] place)

/-- Reads what a path names into a file tree, if there is anything. -/
def readPath (disk : Disk) (path : Path) : IO Disk := do
  let place := placeOf disk.current path
  let entry : IO.FS.DirEntry := { root := "/", fileName := stringOf (Text.join ['/'] place) }
  if ← entry.path.pathExists then
    let found ← readEntry entry true
    pure { disk with tree := Entry.putAt found place disk.tree }
  else pure disk

/-- The paths that a command line names. -/
def namedPaths (arguments : CommandLine.Arguments) : List Path :=
  let configuration := (arguments.configuration.filter (· ≠ [])).toList
  (arguments.target :: arguments.sources ++ configuration).map Path.ofText

/-- Reads what a command line names. -/
def readDisk (words : List Text) : IO Disk := do
  let current := (Path.ofText (textOf (← IO.currentDir).toString)).names
  let disk : Disk := { tree := Entry.putAt (.folder []) current (.folder []), current }
  match CommandLine.read words with
  | .error _ => pure disk
  | .ok arguments => (namedPaths arguments).foldlM readPath disk

/-- Writes the files that are new or other than before. -/
def writeChanged (before after : Entry) : IO Unit := do
  for (place, bytes) in after.files do
    if (before.files.find? (·.1 == place)).map (·.2) != some bytes then
      IO.FS.createDirAll (nativeName place.dropLast)
      IO.FS.writeBinFile (nativeName place) (ByteArray.mk bytes.toArray)

/-- Shows how a run ended and gives its status. -/
def report (disk : Disk) (result : Except Failure Run.Outcome) (words : List Text) :
    IO UInt32 := do
  let complain := fun (failure : Failure) =>
    IO.eprintln ("Error: " ++ stringOf failure.message)
  match result with
  | .error failure =>
    complain failure
    pure 1
  | .ok outcome =>
    for line in outcome.log do
      IO.eprintln (stringOf line)
    match outcome.failure with
    | some failure => complain failure
    | none => pure ()
    match CommandLine.read words with
    | .error .help => IO.print (stringOf CommandLine.help)
    | .error .rejected => IO.eprintln (stringOf CommandLine.usageLine)
    | .ok _ => IO.print (stringOf outcome.shown)
    writeChanged disk.tree outcome.disk.tree
    pure (UInt32.ofNat outcome.status)

end Docblock.Program

open Docblock in
/-- Follows the words of the command line. -/
def main (arguments : List String) : IO UInt32 := do
  let words := arguments.map Program.textOf
  let disk ← Program.readDisk words
  Program.report disk (run Yaml.reader disk words) words
