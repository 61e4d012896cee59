import Docblock.Failure
import Docblock.Files.Path
import Docblock.Keyed
import Docblock.Text.Blank
import Docblock.Text.Utf8

/-!
# File trees

A file tree is a value: a file with its bytes, a folder with named entries, or a
link with the text it points to. A path is followed from the current folder or
from the root. Links on the way are followed in turn, up to a fixed number of
them, and two dots lead to the folder that holds the place reached so far.

Permissions and anything that is neither file, folder nor link are not covered.
-/

namespace Docblock

/-- A file, a folder or a link. -/
inductive Entry
  | file (bytes : List UInt8)
  | folder (entries : List (Text × Entry))
  | link (target : Text)

namespace Entry

/-- The entry of a name in a folder. -/
def child? (name : Text) : Entry → Option Entry
  | .folder entries => Keyed.find? name entries
  | _ => none

/-- The entry at a place, which is given by the names that lead to it. Links do
not lead anywhere here. -/
def at? : (place : List Text) → Entry → Option Entry
  | [], entry => some entry
  | name :: rest, entry => (entry.child? name).bind (at? rest)

/-- Puts an entry at a place, with the folders that lead to it. -/
def putAt (new : Entry) : (place : List Text) → Entry → Entry
  | [], _ => new
  | name :: rest, .folder entries =>
    .folder (Keyed.put name
      (putAt new rest ((Keyed.find? name entries).getD (.folder []))) entries)
  | _ :: _, other => other

/-- Whether an entry is a folder. -/
def isFolder : Entry → Bool
  | .folder _ => true
  | _ => false

mutual

/-- The files of a tree, each with the place where it stands. -/
def files : Entry → List (List Text × List UInt8)
  | .file bytes => [([], bytes)]
  | .folder entries => filesAmong entries
  | .link _ => []

/-- The files below some named entries. -/
def filesAmong : List (Text × Entry) → List (List Text × List UInt8)
  | [] => []
  | (name, entry) :: rest =>
    (files entry).map (fun found => (name :: found.1, found.2)) ++ filesAmong rest

end

end Entry

/-- A file tree and the place of the current folder in it. -/
structure Disk where
  tree : Entry := .folder []
  current : List Text := []

namespace Disk

/-- Where a path leads: to an entry, or to a name that is free in a folder. -/
inductive Found
  | entry (place : List Text)
  | vacant (place : List Text)

/-- The names in the target of a link. A name of one dot stays put but asks for a
folder, and so does a slash at the end. -/
def stepsOf (target : Text) : List Text :=
  (Text.splitOn '/' target).filter (· ≠ []) ++
    (if target.getLast? = some '/' then [['.']] else [])

/-- The number of links that are followed on the way of one path. -/
def linkLimit : Nat := 40

/-- Follows steps from a place. The last step is not followed when it is a link
and only the link itself is asked for. -/
def follow (tree : Entry) (throughLast : Bool) :
    (links : Nat) → (place steps : List Text) → Except FileFault Found
  | _, place, [] => .ok (.entry place)
  | links, place, name :: rest =>
    match tree.at? place with
    | some (.folder entries) =>
      if name = ['.'] then follow tree throughLast links place rest
      else if name = ['.', '.'] then follow tree throughLast links place.dropLast rest
      else
        match Keyed.find? name entries with
        | none => if rest = [] then .ok (.vacant (place ++ [name])) else .error .missing
        | some (.link target) =>
          if rest = [] ∧ throughLast = false then .ok (.entry (place ++ [name]))
          else
            match links with
            | 0 => .error .endlessLinks
            | fewer + 1 =>
              follow tree throughLast fewer (if target.head? = some '/' then [] else place)
                (stepsOf target ++ rest)
        | some _ => follow tree throughLast links (place ++ [name]) rest
    | _ => .error .notDirectory
termination_by links _ steps => (links, steps.length)

/-- Without further steps the place is reached. -/
theorem follow_nil (tree : Entry) (throughLast : Bool) (links : Nat) (place : List Text) :
    follow tree throughLast links place [] = .ok (.entry place) := by
  rw [follow]

/-- A step to a file or a folder is taken by its name. -/
theorem follow_into {tree : Entry} {throughLast : Bool} {links : Nat} {place rest : List Text}
    {name : Text} {entries : List (Text × Entry)} {entry : Entry}
    (here : tree.at? place = some (.folder entries)) (proper : name ≠ ['.'] ∧ name ≠ ['.', '.'])
    (found : Keyed.find? name entries = some entry) (solid : ∀ target, entry ≠ .link target) :
    follow tree throughLast links place (name :: rest) =
      follow tree throughLast links (place ++ [name]) rest := by
  rw [follow, here]
  cases entry with
  | link target => exact absurd rfl (solid target)
  | file bytes => simp only [if_neg proper.1, if_neg proper.2, found]
  | folder inner => simp only [if_neg proper.1, if_neg proper.2, found]

/-- Where a path leads. -/
def locate (disk : Disk) (path : Path) (throughLast : Bool := true) : Except FileFault Found :=
  follow disk.tree throughLast linkLimit (if path.root = [] then disk.current else []) path.names

/-- The entry that a path leads to. -/
def entry (disk : Disk) (path : Path) : Except FileFault Entry :=
  match disk.locate path with
  | .ok (.entry place) =>
    match disk.tree.at? place with
    | some found => .ok found
    | none => .error .missing
  | .ok (.vacant _) => .error .missing
  | .error fault => .error fault

/-- Whether a path leads to anything. -/
def has (disk : Disk) (path : Path) : Bool := (disk.entry path).isOk

/-- Whether a path leads to a folder. -/
def hasFolder (disk : Disk) (path : Path) : Bool :=
  match disk.entry path with
  | .ok found => found.isFolder
  | .error _ => false

/-- The bytes of the file that a path leads to. -/
def bytes (disk : Disk) (path : Path) : Except Failure (List UInt8) :=
  match disk.entry path with
  | .ok (.file bytes) => .ok bytes
  | .ok _ => .error (.file .isDirectory)
  | .error fault => .error (.file fault)

/-- The text of a file, which has to be well formed. -/
def text (disk : Disk) (path : Path) : Except Failure Text :=
  (disk.bytes path).bind fun bytes =>
    match Text.Utf8.decode? bytes with
    | some s => .ok (Text.unifyNewlines s)
    | none => .error .badEncoding

/-- The text of some bytes as source code is read: whatever is not well formed is
replaced. -/
def lenientText (bytes : List UInt8) : Text :=
  Text.unifyNewlines (Text.Utf8.decodeLeniently bytes)

/-- Makes a folder. What is there already may be a folder, and the folder that is
to hold the new one has to be there. -/
def makeFolder (disk : Disk) (path : Path) : Except FileFault Disk :=
  let taken := if disk.hasFolder path then .ok disk else .error .alreadyExists
  match disk.locate path false with
  | .ok (.entry _) => taken
  | .ok (.vacant place) => .ok { disk with tree := Entry.putAt (.folder []) place disk.tree }
  | .error fault => .error fault

/-- Makes the folders that a path names, given its names from the last one on. -/
def makeFolders (root : Text) : (reversed : List Text) → Disk → Except FileFault Disk
  | [], disk => disk.makeFolder { root }
  | name :: outer, disk =>
    let path : Path := { root, names := (name :: outer).reverse }
    match disk.makeFolder path with
    | .error .missing => (makeFolders root outer disk).bind fun made => made.makeFolder path
    | result => result

/-- Makes the folders that lead to a path. -/
def makeFoldersTo (disk : Disk) (path : Path) : Except FileFault Disk :=
  makeFolders path.root path.names.dropLast.reverse disk

/-- Writes bytes to a file, in place of what it held. -/
def write (disk : Disk) (path : Path) (bytes : List UInt8) : Except FileFault Disk :=
  match disk.locate path with
  | .ok (.vacant place) => .ok { disk with tree := Entry.putAt (.file bytes) place disk.tree }
  | .ok (.entry place) =>
    if ((disk.tree.at? place).map Entry.isFolder).getD true then .error .isDirectory
    else .ok { disk with tree := Entry.putAt (.file bytes) place disk.tree }
  | .error fault => .error fault

/-- Makes a link at a free path. -/
def link (disk : Disk) (path : Path) (target : Text) : Except FileFault Disk :=
  match disk.locate path false with
  | .ok (.vacant place) => .ok { disk with tree := Entry.putAt (.link target) place disk.tree }
  | .ok (.entry _) => .error .alreadyExists
  | .error fault => .error fault

/-- The files in the current folder and below it, by path. -/
def files (disk : Disk) : List (Path × List UInt8) :=
  match disk.tree.at? disk.current with
  | some entry => entry.files.map fun found => ({ names := found.1 }, found.2)
  | none => []

end Disk
end Docblock
