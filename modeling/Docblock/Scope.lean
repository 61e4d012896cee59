import Docblock.ClassName
import Docblock.Keyed

/-!
# Scopes

The names in a piece of source are read in a scope: the namespace it stands in
and the imports in force there, each an alias with the full name it stands for.
-/

namespace Docblock

/-- The namespace in force and the full names that aliases stand for. -/
structure Scope where
  space : Text := []
  imports : Keyed Text := []
deriving DecidableEq, Repr

namespace Scope

/-- Replaces the first segment of a name by the full name that was imported
under it, if there is one. -/
def expandAlias? (scope : Scope) (name : Text) : Option Text :=
  (Keyed.find? (Text.before ClassName.separator name) scope.imports).map fun full =>
    let rest := Text.after ClassName.separator name
    if rest = [] then full else full ++ ClassName.separator :: rest

/-- The full name that a class name stands for in a declaration header: a name
that starts with a separator is full already, then imports count, then the
namespace. -/
def qualify (scope : Scope) (name : Text) : Text :=
  if name.head? = some ClassName.separator then name.dropWhile (· == ClassName.separator)
  else
    match scope.expandAlias? name with
    | some full => full
    | none => ClassName.below scope.space name

end Scope
end Docblock
