import Docblock.Files.Sources
import Docblock.Registry
import Docblock.Source.Reader

/-!
# Loading declarations

Declarations are loaded from a file, or from all sources of a folder. A source
that cannot be read is passed over with a notice. A file either adds all of its
declarations or none.
-/

namespace Docblock

open Source

/-- The declarations loaded so far and the notices in order. -/
structure Loading where
  registry : Registry := {}
  notices : List Notice := []

namespace Loading

/-- Adds a notice. -/
def note (state : Loading) (notice : Notice) : Loading :=
  { state with notices := state.notices ++ [notice] }

/-- The declarations that a file holds: those of a manifest if its name is that
of a document, else those of source code. -/
def declarationsIn (reader : DocumentReader) (disk : Disk) (path : Path) :
    Except Failure (List Declaration) :=
  if Files.isDocumentName (path.names.getLast?.getD []) then
    (disk.text path).bind (Manifest.ofText reader path.toText)
  else
    (disk.bytes path).map fun bytes =>
      declarations (Disk.lenientText bytes) (some path.toText)

/-- Adds the declarations of a file. -/
def addAll (state : Loading) (path : Path) (found : List Declaration) : Loading :=
  let added := state.registry.addAll found
  { registry := added.1
    notices := state.notices ++ added.2 ++ [.loaded found.length path.toText] }

/-- Loads a file. -/
def loadFile (reader : DocumentReader) (disk : Disk) (path : Path) (state : Loading) :
    Except Failure (List Declaration) × Loading :=
  match declarationsIn reader disk path with
  | .ok found => (.ok found, state.addAll path found)
  | .error failure =>
    if failure.isAboutReading then (.ok [], state.note (.unreadable path.toText))
    else (.error failure, state)

/-- Loads files in order, up to the first failure. -/
def loadFiles (reader : DocumentReader) (disk : Disk) :
    List Path → Loading → Except Failure (List Declaration) × Loading
  | [], state => (.ok [], state)
  | path :: rest, state =>
    match loadFile reader disk path state with
    | (.error failure, after) => (.error failure, after)
    | (.ok found, after) =>
      let following := loadFiles reader disk rest after
      (following.1.map (found ++ ·), following.2)

/-- Loads a file, or all sources of a folder. -/
def loadPath (reader : DocumentReader) (disk : Disk) (ignored : List Text) (path : Path)
    (state : Loading) : Except Failure (List Declaration) × Loading :=
  if disk.hasFolder path then
    match Files.sources disk ignored path with
    | .ok paths => loadFiles reader disk paths state
    | .error failure => (.error failure, state)
  else loadFile reader disk path state

end Loading
end Docblock
