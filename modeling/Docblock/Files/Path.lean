import Docblock.Text.LetterCase

/-!
# Paths

A path is a root and the names behind it. Empty names and names of one dot mean
nothing and are dropped; two dots stay, because what they mean depends on the
links before them. A path without root and names is the current folder.
-/

namespace Docblock

/-- A path. The root is empty for a path that starts at the current folder. -/
structure Path where
  root : Text := []
  names : List Text := []
deriving DecidableEq, Repr

namespace Path

/-- The root that a number of leading slashes makes. Exactly two are a root of
their own. -/
def rootOf (slashes : Nat) : Text :=
  if slashes = 0 then [] else if slashes = 2 then ['/', '/'] else ['/']

/-- Whether a name takes part in a path. -/
def counts (name : Text) : Bool := name != [] && name != ['.']

/-- The path that a text spells. -/
def ofText (s : Text) : Path :=
  { root := rootOf (s.takeWhile (· == '/')).length
    names := (Text.splitOn '/' s).filter counts }

/-- The shortest spelling of a path. -/
def toText (path : Path) : Text :=
  if path.root = [] ∧ path.names = [] then ['.']
  else path.root ++ Text.join ['/'] path.names

/-- The path of something in a folder. -/
def child (path : Path) (name : Text) : Path := { path with names := path.names ++ [name] }

/-- The path of something below a folder. -/
def below (path : Path) (names : List Text) : Path := { path with names := path.names ++ names }

/-- The path of the folder that holds something. -/
def parent (path : Path) : Path := { path with names := path.names.dropLast }

/-- The ending of a name, from its last dot on. A dot at either end of the name
starts no ending. -/
def suffixOf (name : Text) : Text :=
  let tail := (name.reverse.takeWhile (· != '.')).reverse
  if tail.length + 1 < name.length ∧ tail ≠ [] then '.' :: tail else []

/-- The ending of the last name of a path. -/
def suffix (path : Path) : Text := suffixOf (path.names.getLast?.getD [])

end Path
end Docblock
