import Docblock.Proofs.Resolution.Filters

/-!
# The search for a method climbs from parent to parent

In a hierarchy without cycles the types from one upwards form a finite list, which ends
at the first type without a parent or with a parent that is not loaded. The search for a
method answers with the first method of the name along this list, and with none if no type
of the list has one. Interfaces are no part of the list. A search in several types is the
search in each of them until one answers.

None of this depends on what the resolver was asked before: which types are finished by
then, and under which spellings they were asked for, decides no answer.
-/

namespace Docblock

open Resolve

/-- A resolver documents the type that a name stands for, whatever it was asked before. -/
def Resolver.Documents (resolver : Resolver) (name : Text) (entity : Documented.Entity) : Prop :=
  ∀ queries, (resolver.resolve name (resolver.askAll queries {})).1 = .ok entity

/-- The documented types from one upwards, each the parent of the one before. The empty text
stands for no type. -/
inductive Resolver.Ascends (resolver : Resolver) :
    Option Text → List Documented.Entity → Prop
  | parentless : Ascends resolver none []
  | outside {name : Text} (absent : name = [] ∨ resolver.registry.has name = false) :
      Ascends resolver (some name) []
  | climbs {name : Text} {entity : Documented.Entity} {above : List Documented.Entity}
      (named : name ≠ []) (documents : resolver.Documents name entity)
      (further : Ascends resolver entity.parent above) :
      Ascends resolver (some name) (entity :: above)

/-- The first method of a name among documented types. -/
def Documented.firstNamed? (method : Text) (types : List Documented.Entity) :
    Option Documented.Method :=
  types.findSome? fun entity => entity.methods.find? (·.name == method)

section Search

variable {resolver : Resolver}

/-- What a resolver documents is plain documentation. -/
theorem Resolver.documents_iff (acyclic : resolver.registry.Acyclic) {name : Text}
    {entity : Documented.Entity} :
    resolver.Documents name entity ↔
      plainEntity resolver.rules resolver.registry acyclic.wellFounded (ClassName.key name) =
        some entity := by
  have answered (queries : List Query) :
      (resolver.resolve name (resolver.askAll queries {})).1 = .ok entity ↔
        plainEntity resolver.rules resolver.registry acyclic.wellFounded (ClassName.key name) =
          some entity := by
    rw [Resolver.resolve_eq_ok]
    exact (resolver.ask_eq_plain acyclic (.resolve name) queries).congr_left
  exact ⟨fun documents => (answered []).mp (documents []),
    fun plain queries => (answered queries).mpr plain⟩

/-- A loaded type is documented. -/
theorem Resolver.exists_documents (acyclic : resolver.registry.Acyclic) {name : Text}
    (loaded : resolver.registry.has name = true) : ∃ entity, resolver.Documents name entity := by
  obtain ⟨raw, found⟩ := Option.isSome_iff_exists.mp loaded
  exact ⟨_, fun queries => resolver.resolve_plain acyclic found queries⟩

/-- Only a loaded type is documented. -/
theorem Resolver.Documents.loaded (acyclic : resolver.registry.Acyclic) {name : Text}
    {entity : Documented.Entity} (documents : resolver.Documents name entity) :
    Keyed.has (ClassName.key name) resolver.registry.entries = true := by
  have plain := (Resolver.documents_iff acyclic).mp documents
  rw [plainEntity_eq] at plain
  obtain ⟨raw, found, -⟩ := Option.map_eq_some_iff.mp plain
  exact Option.isSome_of_eq_some found

/-- A name is documented in one way. -/
theorem Resolver.Documents.unique {name : Text} {entity other : Documented.Entity}
    (first : resolver.Documents name entity) (second : resolver.Documents name other) :
    entity = other :=
  Except.ok.inj ((first []).symm.trans (second []))

/-- The methods of a documented type belong to it. -/
theorem Resolver.Documents.owner (acyclic : resolver.registry.Acyclic) {name : Text}
    {entity : Documented.Entity} (documents : resolver.Documents name entity)
    {method : Documented.Method} (member : method ∈ entity.methods) :
    method.owner = entity.name := by
  have plain := (Resolver.documents_iff acyclic).mp documents
  rw [plainEntity_eq] at plain
  obtain ⟨raw, -, rfl⟩ := Option.map_eq_some_iff.mp plain
  obtain ⟨declared, -, shown⟩ := List.mem_filterMap.mp member
  obtain ⟨tags, -, rfl⟩ := Option.map_eq_some_iff.mp shown
  rfl

/-- Every name has documented types from its type upwards: the hierarchy has no endless way
upwards. -/
theorem Resolver.exists_ascends (acyclic : resolver.registry.Acyclic) (name : Text) :
    ∃ types, resolver.Ascends (some name) types := by
  induction same : ClassName.key name using acyclic.wellFounded.induction generalizing name with
  | _ key inductionHypothesis =>
  by_cases missing : name = []
  · exact ⟨[], .outside (.inl missing)⟩
  cases loaded : resolver.registry.has name with
  | false => exact ⟨[], .outside (.inr loaded)⟩
  | true =>
    obtain ⟨entity, documents⟩ := Resolver.exists_documents acyclic loaded
    have plain := (Resolver.documents_iff acyclic).mp documents
    obtain ⟨above, further⟩ : ∃ above, resolver.Ascends entity.parent above := by
      cases parent : entity.parent with
      | none => exact ⟨[], .parentless⟩
      | some parentName =>
        by_cases absent : parentName = [] ∨ resolver.registry.has parentName = false
        · exact ⟨[], .outside absent⟩
        · obtain ⟨named, present⟩ := not_or.mp absent
          have needs := (needs_parent plain parent named (Bool.not_eq_false _ ▸ present)).2
          exact inductionHypothesis _ (same ▸ needs) parentName rfl
    exact ⟨entity :: above, .climbs missing documents further⟩

/-- The documented types from a type upwards are fixed. -/
theorem Resolver.Ascends.unique (acyclic : resolver.registry.Acyclic) {start : Option Text}
    {types others : List Documented.Entity} (first : resolver.Ascends start types)
    (second : resolver.Ascends start others) : types = others := by
  induction first generalizing others with
  | parentless => cases second; rfl
  | outside absent =>
    cases second with
    | outside => rfl
    | climbs named documents =>
      have loaded := documents.loaded acyclic
      rcases absent with missing | unloaded
      · exact absurd missing named
      · exact absurd (loaded.symm.trans unloaded) (by decide)
  | climbs named documents further inductionHypothesis =>
    cases second with
    | outside absent =>
      have loaded := documents.loaded acyclic
      rcases absent with missing | unloaded
      · exact absurd missing named
      · exact absurd (loaded.symm.trans unloaded) (by decide)
    | climbs named other onward =>
      obtain rfl := documents.unique other
      rw [inductionHypothesis onward]

/-- The types from one upwards are documented, each under some name. -/
theorem Resolver.Ascends.exists_documents {start : Option Text}
    {types : List Documented.Entity} (ascends : resolver.Ascends start types)
    {entity : Documented.Entity} (member : entity ∈ types) :
    ∃ name, resolver.Documents name entity := by
  induction ascends with
  | parentless => cases member
  | outside => cases member
  | @climbs name first above named documents further inductionHypothesis =>
    rcases List.mem_cons.mp member with rfl | later
    · exact ⟨name, documents⟩
    · exact inductionHypothesis later

/-- The plain search from a type upwards finds the first method of the name along its
documented types. -/
theorem Resolver.Ascends.plainAlong_eq (acyclic : resolver.registry.Acyclic)
    {start : Option Text} {types : List Documented.Entity}
    (ascends : resolver.Ascends start types) (method : Text) :
    start.bind (plainAlong resolver.rules resolver.registry acyclic.wellFounded method) =
      Documented.firstNamed? method types := by
  induction ascends with
  | parentless => rfl
  | @outside name absent =>
    rw [Option.bind_some]
    rcases absent with missing | unloaded
    · simp [plainAlong, missing, Documented.firstNamed?]
    · have absent : Keyed.find? (ClassName.key name) resolver.registry.entries = none :=
        Option.not_isSome_iff_eq_none.mp (Bool.not_eq_true _ ▸ unloaded)
      rw [plainAlong, plainMethod_of_absent _ absent]
      simp [Documented.firstNamed?]
  | @climbs name entity above named documents further inductionHypothesis =>
    rw [Option.bind_some, Resolve.plainAlong_eq _ _ named,
      (Resolver.documents_iff acyclic).mp documents, Option.bind_some, inductionHypothesis]
    rw [Documented.firstNamed?, Documented.firstNamed?, List.findSome?_cons]
    cases entity.methods.find? (·.name == method) <;> rfl

end Search

/-- **The search for a method.** In a hierarchy without cycles, whatever was asked before, the
documented types from a name upwards form exactly one list, and a search from the name

* answers with the first method of the given name along this list, which belongs to the type
  of the list that it stands in;
* answers with none if and only if no type of the list has a method of that name.

A search in several types answers with the first answer of a search from one of them. -/
theorem Resolver.find_ascends (resolver : Resolver) (acyclic : resolver.registry.Acyclic)
    (method name : Text) (queries : List Query) :
    let state := resolver.askAll queries {}
    ∃ types, resolver.Ascends (some name) types ∧
      (∀ others, resolver.Ascends (some name) others → others = types) ∧
      (resolver.find method name state).1 = Documented.firstNamed? method types ∧
      ((resolver.find method name state).1 = none ↔
        ∀ entity ∈ types, ∀ documented ∈ entity.methods, documented.name ≠ method) ∧
      (∀ documented ∈ (resolver.find method name state).1, ∃ below entity above,
        types = below ++ entity :: above ∧ documented ∈ entity.methods ∧
        documented.name = method ∧ documented.owner = entity.name ∧
        ∀ other ∈ below, ∀ passed ∈ other.methods, passed.name ≠ method) ∧
      ∀ names, (resolver.findIn method names state).1 =
        names.findSome? fun other => (resolver.find method other state).1 := by
  intro state
  obtain ⟨types, ascends⟩ := Resolver.exists_ascends acyclic name
  have searched (other : Text) : (resolver.find method other state).1 =
      plainAlong resolver.rules resolver.registry acyclic.wellFounded method other :=
    resolver.ask_eq_plain acyclic (.find method other) queries
  have found : (resolver.find method name state).1 = Documented.firstNamed? method types :=
    (searched name).trans (ascends.plainAlong_eq acyclic method)
  have lacks (entity : Documented.Entity) : entity.methods.find? (·.name == method) = none ↔
      ∀ documented ∈ entity.methods, documented.name ≠ method := by
    simp [List.find?_eq_none]
  refine ⟨types, ascends, fun others other => other.unique acyclic ascends, found, ?_, ?_, ?_⟩
  · rw [found, Documented.firstNamed?, List.findSome?_eq_none_iff]
    simp only [lacks]
  · intro documented answer
    rw [found] at answer
    obtain ⟨below, entity, above, split, inside, passed⟩ :=
      List.findSome?_eq_some_iff.mp answer
    have member := List.mem_of_find?_eq_some inside
    have named : documented.name = method := by simpa using List.find?_some inside
    obtain ⟨spelling, documents⟩ := ascends.exists_documents (split ▸ by simp : entity ∈ types)
    exact ⟨below, entity, above, split, member, named, documents.owner acyclic member,
      fun other listed => (lacks other).mp (passed other listed)⟩
  · intro names
    have several : (resolver.findIn method names state).1 =
        names.findSome? (plainAlong resolver.rules resolver.registry acyclic.wellFounded method) :=
      resolver.ask_eq_plain acyclic (.findIn method names) queries
    rw [several]
    exact congrArg (List.findSome? · names) (funext fun other => (searched other).symm)

/-- A type with a method, an heir of it that is spelt with a separator and a capital, and an
heir of that with an interface. The grandparent of all is not loaded. -/
def landing : Resolver where
  registry := {
    entries := [
      ("hull".toList, {
        name := "Hull".toList
        parent := some "Timber".toList
        methods := [{ name := "float".toList }] }),
      ("boat".toList, { name := "Boat".toList, parent := some "Hull".toList }),
      ("ferry".toList, {
        name := "Ferry".toList
        parent := some "\\BOAT".toList
        interfaces := ["Bell".toList] }),
      ("bell".toList, {
        name := "Bell".toList
        kind := "interface".toList
        methods := [{ name := "ring".toList }] })] }

/-- Parents and interfaces have smaller ranks, so there is no cycle. -/
theorem landing_acyclic : landing.registry.Acyclic :=
  Registry.acyclic_of_rank
    (fun key => if key = "ferry".toList then 2 else if key = "boat".toList then 1 else 0)
    (by decide)

/-- The ferry floats as its grandparent does, and the method of its interface is not found
from it. -/
theorem landing_ferry_ascends :
    landing.registry.Acyclic ∧
    (∃ types, landing.Ascends (some "Ferry".toList) types ∧
      (Documented.firstNamed? "float".toList types).map (·.owner) = some "Hull".toList) ∧
    ∃ types, landing.Ascends (some "Ferry".toList) types ∧
      ∀ entity ∈ types, ∀ documented ∈ entity.methods, documented.name ≠ "ring".toList := by
  refine ⟨landing_acyclic, ?_, ?_⟩
  · obtain ⟨types, ascends, -, found, -⟩ :=
      landing.find_ascends landing_acyclic "float".toList "Ferry".toList [.resolve "Boat".toList]
    refine ⟨types, ascends, ?_⟩
    rw [← found]
    decide +kernel
  · obtain ⟨types, ascends, -, -, nothing, -⟩ :=
      landing.find_ascends landing_acyclic "ring".toList "Ferry".toList []
    exact ⟨types, ascends, nothing.mp (by decide +kernel)⟩

end Docblock
