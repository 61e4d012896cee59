import Docblock.Failure
import Docblock.Notice
import Docblock.Source.Declaration

/-!
# The registry of declarations

All declarations that have been loaded, under their names without regard to
case and in the order of loading. The first declaration of a name stays; a
later one from another file is worth a notice.
-/

namespace Docblock

open Source

/-- The loaded declarations under their lower-case names. -/
structure Registry where
  entries : Keyed Declaration := []
deriving Repr

namespace Registry

/-- The notice about a declaration whose name is taken, if there is one. -/
def duplicateNotice (kept declaration : Declaration) : List Notice :=
  if kept.file = declaration.file then []
  else [.duplicate declaration.name declaration.file kept.file]

/-- Adds a declaration unless its name is taken. -/
def add (registry : Registry) (declaration : Declaration) : Registry × List Notice :=
  match Keyed.find? (Text.lower declaration.name) registry.entries with
  | some kept => (registry, duplicateNotice kept declaration)
  | none =>
    ({ entries := registry.entries ++ [(Text.lower declaration.name, declaration)] }, [])

/-- Adds declarations in order. -/
def addAll (registry : Registry) (declarations : List Declaration) : Registry × List Notice :=
  declarations.foldl
    (fun (state : Registry × List Notice) declaration =>
      let next := state.1.add declaration
      (next.1, state.2 ++ next.2))
    (registry, [])

/-- The declaration that a name stands for. -/
def find? (registry : Registry) (name : Text) : Option Declaration :=
  Keyed.find? (ClassName.key name) registry.entries

/-- Whether a name stands for a loaded declaration. -/
def has (registry : Registry) (name : Text) : Bool := (registry.find? name).isSome

/-- The declaration that a name stands for, or the failure that names it. -/
def get (registry : Registry) (name : Text) : Except Failure Declaration :=
  match registry.find? name with
  | some declaration => .ok declaration
  | none => .error (.unknownType (ClassName.clean name))

/-- The loaded names in load order. -/
def names (registry : Registry) : List Text := (Keyed.values registry.entries).map (·.name)

end Registry
end Docblock
