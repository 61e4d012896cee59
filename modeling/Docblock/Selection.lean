import Docblock.Loading
import Docblock.Settings.Options

/-!
# What is documented

The target of a run says which types are documented: some names with commas
between them, one name, or a path whose declarations are loaded and grouped by
namespace. A name counts before a path.
-/

namespace Docblock

/-- Names of types in groups, and whether exactly one type was asked for. -/
structure Selection where
  groups : Keyed (List Text)
  isSingle : Bool
deriving Repr

namespace Selection

/-- The names of all groups in order. -/
def names (selection : Selection) : List Text := (Keyed.values selection.groups).flatten

/-- Enters a name into the group of its namespace unless it is there. -/
def enter (groups : Keyed (List Text)) (declaration : Source.Declaration) :
    Keyed (List Text) :=
  let names := (Keyed.find? declaration.scope.space groups).getD []
  Keyed.put declaration.scope.space
    (if names.contains declaration.name then names else names ++ [declaration.name]) groups

/-- The names of declarations by namespace. The groups stand in the order of
their namespaces, the names in a group in the order of their declarations. -/
def grouped (declarations : List Source.Declaration) : Keyed (List Text) :=
  (declarations.foldl enter []).mergeSort fun a b => Text.precedesOrEquals a.1 b.1

/-- Loads a path and groups the names found there. -/
def ofPath (reader : DocumentReader) (disk : Disk) (ignored : List Text) (path : Path)
    (state : Loading) : Except Failure (Keyed (List Text)) × Loading :=
  let loaded := Loading.loadPath reader disk ignored path state
  (loaded.1.map grouped, loaded.2)

/-- Keeps the names of loaded types, with a notice for each other name. -/
def known (registry : Registry) (names : List Text) : List Text × List Notice :=
  (names.filter registry.has, (names.filter (!registry.has ·)).map .unknownSkipped)

/-- What a target selects. -/
def ofTarget (reader : DocumentReader) (disk : Disk) (ignored : List Text) (target : Text)
    (state : Loading) : Except Failure Selection × Loading :=
  if target.contains ',' then
    let found := known state.registry (Options.splitText target)
    (.ok { groups := [([], found.1)], isSingle := false },
      { state with notices := state.notices ++ found.2 })
  else if state.registry.has target then
    (.ok { groups := [([], [target])], isSingle := true }, state)
  else if disk.has (Path.ofText target) then
    let found := ofPath reader disk ignored (Path.ofText target) state
    (found.1.map fun groups => { groups, isSingle := false }, found.2)
  else (.error (.unknownType target), state)

end Selection
end Docblock
