import Docblock.Files.Tree
import Docblock.Manifest

/-!
# Source files of a folder

The sources of a folder are the files of source code and the signature manifests
in it and in its folders. Links are passed over, and so are hidden folders and
folders that the run is told to ignore. Everything in a folder is visited in the
order of its names.
-/

namespace Docblock.Files

/-- Whether a folder with a name is ignored: the name ends with one of the
patterns, which count without the white space around them. -/
def isIgnored (patterns : List Text) (name : Text) : Bool :=
  patterns.any fun pattern => Text.trim pattern != [] && (Text.trim pattern).isSuffixOf name

/-- Whether the sources of a folder with a name are visited. -/
def isVisited (patterns : List Text) (name : Text) : Bool :=
  name.head? != some '.' && !isIgnored patterns name

/-- Whether a name is that of a document that could be a manifest. -/
def isDocumentName (name : Text) : Bool :=
  ([".yml", ".yaml"].map String.toList).contains (Text.lower (Path.suffixOf name))

/-- Whether the bytes of a document start like a manifest. -/
def startsManifest (bytes : List UInt8) : Bool :=
  Manifest.header.isPrefixOf (Disk.lenientText bytes)

/-- Whether a file is a source. -/
def isSource (name : Text) (bytes : List UInt8) : Bool :=
  Text.lower (Path.suffixOf name) = ".php".toList ||
    (isDocumentName name && startsManifest bytes)

/-- Puts the sources of entries into the order of their names. -/
def inOrder (found : List (Text × List (List Text))) : List (List Text) :=
  (found.mergeSort fun a b => Text.precedesOrEquals a.1 b.1).flatMap fun group =>
    group.2.map (group.1 :: ·)

mutual

/-- The sources that an entry of a folder leads to, by the names that lead to
them from that entry on. -/
def sourcesOf (patterns : List Text) (name : Text) : Entry → List (List Text)
  | .file bytes => if isSource name bytes then [[]] else []
  | .link _ => []
  | .folder entries =>
    if isVisited patterns name then inOrder (sourcesAmong patterns entries) else []

/-- The sources of each of some entries, with the name of the entry. -/
def sourcesAmong (patterns : List Text) :
    List (Text × Entry) → List (Text × List (List Text))
  | [] => []
  | (name, entry) :: rest =>
    (name, sourcesOf patterns name entry) :: sourcesAmong patterns rest

end

/-- The paths of the sources of a folder. -/
def sources (disk : Disk) (patterns : List Text) (path : Path) : Except Failure (List Path) :=
  match disk.entry path with
  | .ok (.folder entries) =>
    .ok ((inOrder (sourcesAmong patterns entries)).map path.below)
  | .ok _ => .error (.file .notDirectory)
  | .error fault => .error (.file fault)

/-- Whether a file is a signature manifest. Only documents are opened to see. -/
def isManifest (disk : Disk) (path : Path) : Except Failure Bool :=
  if isDocumentName (path.names.getLast?.getD []) then (disk.bytes path).map startsManifest
  else .ok false

end Docblock.Files
