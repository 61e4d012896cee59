import Docblock.Registry
import Docblock.Resolve.Rules

/-!
# Resolving types

A name is resolved to the documentation of the type it stands for. Each type is
documented once and kept. Documenting a method that asks for inherited words
looks for the overridden method in the ancestors of its type, which resolves
these in turn; a type that is being documented is not entered again, so cycles
in the hierarchy end the search.

Two numbers bound the recursion. The depth of nested resolutions is bounded by
the number of loaded types, because all types being documented are different;
the walk from parent to parent is bounded by the same number and two steps more,
because a name is visited once.
-/

namespace Docblock

open Resolve

/-- What resolving has produced so far: the finished types by key, the keys of
the types being documented, and the notices in order. -/
structure Resolution where
  finished : Keyed Documented.Entity := []
  building : List Text := []
  notices : List Notice := []

namespace Resolution

/-- Adds a notice. -/
def note (state : Resolution) (notice : Notice) : Resolution :=
  { state with notices := state.notices ++ [notice] }

/-- Whether the type that a name stands for is being documented. -/
def isBuilding (state : Resolution) (name : Text) : Bool :=
  state.building.contains (ClassName.key name)

/-- Marks a type as being documented. -/
def enter (state : Resolution) (key : Text) : Resolution :=
  { state with building := key :: state.building }

/-- Keeps the documentation of a type that was being documented. -/
def finish (state : Resolution) (key : Text) (entity : Documented.Entity) : Resolution :=
  { finished := Keyed.put key entity state.finished
    building := state.building.filter (· ≠ key)
    notices := state.notices ++ [.resolved entity.name entity.methods.length] }

end Resolution

namespace Resolve

/-- A way to resolve a name, with what resolving it adds to a resolution. -/
abbrev Resolving := Text → Resolution → Option Documented.Entity × Resolution

/-- Looks for a method in a type and then from parent to parent. The search ends
at a type that is being documented, at a name already visited and at a name that
stands for no type. -/
def findAlong (resolve : Resolving) (method : Text) :
    (hops : Nat) → (visited : List Text) → (name : Text) → Resolution →
      Option Documented.Method × Resolution
  | 0, _, _, state => (none, state)
  | hops + 1, visited, name, state =>
    if name = [] ∨ visited.contains name ∨ state.isBuilding name then (none, state)
    else
      match resolve name state with
      | (none, after) => (none, after.note (.lookupStopped method name))
      | (some entity, after) =>
        match entity.methods.find? (·.name == method) with
        | some found => (some found, after)
        | none =>
          match entity.parent with
          | none => (none, after)
          | some parent => findAlong resolve method hops (name :: visited) parent after

/-- Looks for a method in each of some types in turn, parents included. -/
def findAmong (resolve : Resolving) (hops : Nat) (method : Text) :
    (names : List Text) → Resolution → Option Documented.Method × Resolution
  | [], state => (none, state)
  | name :: rest, state =>
    match findAlong resolve method hops [] name state with
    | (some found, after) => (some found, after)
    | (none, after) => findAmong resolve hops method rest after

/-- The method that a method takes inherited words from, if it asks for them and
there is one. -/
def inheritedFor (resolve : Resolving) (hops : Nat) (raw : Source.Declaration)
    (member : Source.Method) (tags : Comment.Tags) (state : Resolution) :
    Option Documented.Method × Resolution :=
  if Comment.inheritsWords tags then
    match findAmong resolve hops member.name (ancestors raw) state with
    | (some found, after) => (some found, after)
    | (none, after) => (none, after.note (.nothingInherited raw.name member.name))
  else (none, state)

/-- Documents the methods of a type that are kept, in order. -/
def documentMethods (rules : Rules) (resolve : Resolving) (hops : Nat)
    (raw : Source.Declaration) :
    List Source.Method → Resolution → List Documented.Method × Resolution
  | [], state => ([], state)
  | member :: rest, state =>
    match keptTags? rules raw member with
    | none => documentMethods rules resolve hops raw rest state
    | some tags =>
      let inherited := inheritedFor resolve hops raw member tags state
      let following := documentMethods rules resolve hops raw rest inherited.2
      (documentMethod rules raw member tags inherited.1 :: following.1, following.2)

/-- The number of steps that suffices for a walk from parent to parent. -/
def hopBound (registry : Registry) : Nat := registry.entries.length + 2

/-- Resolves a name with a bound on nested resolutions: a finished type is taken
as it is, a loaded one is documented, and any other name has no answer. -/
def resolveWithin (rules : Rules) (registry : Registry) : (depth : Nat) → Resolving
  | 0, name, state => (Keyed.find? (ClassName.key name) state.finished, state)
  | depth + 1, name, state =>
    match Keyed.find? (ClassName.key name) state.finished with
    | some entity => (some entity, state)
    | none =>
      match registry.find? name with
      | none => (none, state)
      | some raw =>
        let documented := documentMethods rules (resolveWithin rules registry depth)
          (hopBound registry) raw raw.methods (state.enter (ClassName.key name))
        let entity := documentType rules raw documented.1
        (some entity, documented.2.finish (ClassName.key name) entity)

end Resolve

/-- Settings and declarations to resolve names with. -/
structure Resolver where
  rules : Rules := {}
  registry : Registry := {}

namespace Resolver

/-- The way a resolver resolves names that may have no answer. -/
def resolving (resolver : Resolver) : Resolving :=
  resolveWithin resolver.rules resolver.registry resolver.registry.entries.length

/-- The documentation of the type that a name stands for. -/
def resolve (resolver : Resolver) (name : Text) (state : Resolution) :
    Except Failure Documented.Entity × Resolution :=
  match resolver.resolving name state with
  | (some entity, after) => (.ok entity, after)
  | (none, after) => (.error (.unknownType (ClassName.clean name)), after)

/-- A name is resolved to a type exactly if it has that type as its answer. -/
theorem resolve_eq_ok {resolver : Resolver} {name : Text} {state : Resolution}
    {entity : Documented.Entity} :
    (resolver.resolve name state).1 = .ok entity ↔
      (resolver.resolving name state).1 = some entity := by
  simp only [resolve]
  split <;> simp [*]

/-- The first method of a name in a type or one of its parents. -/
def find (resolver : Resolver) (method : Text) (name : Text) (state : Resolution) :
    Option Documented.Method × Resolution :=
  findAlong resolver.resolving method (hopBound resolver.registry) [] name state

/-- The first method of a name in some types or their parents. -/
def findIn (resolver : Resolver) (method : Text) (names : List Text) (state : Resolution) :
    Option Documented.Method × Resolution :=
  findAmong resolver.resolving (hopBound resolver.registry) method names state

/-- The first built-in class that a type declaration names. -/
def builtInOf (resolver : Resolver) (declared : Text) : Option Text :=
  TypeName.firstBuiltIn? resolver.rules.builtIns declared

end Resolver
end Docblock
