import Docblock.Proofs.Document.Outcome
import Docblock.Proofs.Loading.Registered
import Docblock.Selection
import Docblock.Yaml.Document

/-!
# Whether selected names can be resolved

A selection made of names keeps those that are loaded. A selection made of a path has
the names of the declarations that were found there. All of them are registered, but
a declaration is registered under its own name and looked up under the clean form of a
name, so a name with white space or a separator at an end leads to its declaration
only if the clean form is the name of one.
-/

namespace Docblock

open Documented Resolve Source

namespace Selection

/-- A name that enters the groups is that of the declaration or was in them. -/
theorem mem_of_mem_enter {groups : Keyed (List Text)} {declaration : Declaration}
    {group : Text × List Text} {name : Text} (member : group ∈ enter groups declaration)
    (inside : name ∈ group.2) :
    declaration.name = name ∨ ∃ earlier ∈ groups, name ∈ earlier.2 := by
  rcases Keyed.mem_of_mem_put member with rfl | earlier
  · have known : name ∈ (Keyed.find? declaration.scope.space groups).getD [] →
        ∃ earlier ∈ groups, name ∈ earlier.2 := by
      intro listed
      cases found : Keyed.find? declaration.scope.space groups with
      | none =>
        rw [found] at listed
        cases listed
      | some names =>
        rw [found] at listed
        exact ⟨_, Keyed.mem_of_find? found, listed⟩
    simp only at inside
    split at inside
    · exact .inr (known inside)
    · rcases List.mem_append.mp inside with listed | new
      · exact .inr (known listed)
      · exact .inl (List.mem_singleton.mp new).symm
  · exact .inr ⟨group, earlier, inside⟩

/-- A name that enters the groups with some declarations is that of one of them or was in
them. -/
theorem mem_of_mem_entered {declarations : List Declaration} {groups : Keyed (List Text)}
    {group : Text × List Text} {name : Text} (member : group ∈ declarations.foldl enter groups)
    (inside : name ∈ group.2) :
    (∃ declaration ∈ declarations, declaration.name = name) ∨
      ∃ earlier ∈ groups, name ∈ earlier.2 := by
  induction declarations generalizing groups with
  | nil => exact .inr ⟨group, member, inside⟩
  | cons declaration rest inductionHypothesis =>
    rcases inductionHypothesis member with ⟨later, listed, named⟩ | ⟨between, entered, held⟩
    · exact .inl ⟨later, List.mem_cons_of_mem declaration listed, named⟩
    · rcases mem_of_mem_enter entered held with named | earlier
      · exact .inl ⟨declaration, List.mem_cons_self, named⟩
      · exact .inr earlier

/-- The names in groups are those of the declarations that were grouped. -/
theorem exists_declaration {declarations : List Declaration} {name : Text}
    (member : name ∈ (Keyed.values (grouped declarations)).flatten) :
    ∃ declaration ∈ declarations, declaration.name = name := by
  obtain ⟨names, listed, inside⟩ := List.mem_flatten.mp member
  obtain ⟨group, sorted, rfl⟩ := List.mem_map.mp listed
  rcases mem_of_mem_entered (List.mem_mergeSort.mp sorted) inside with found | ⟨earlier, empty, -⟩
  · exact found
  · cases empty

/-- Every name of a selection leads to a type: it is found, resolving it succeeds in
whatever state, and no document for the names fails because of an unknown type. -/
structure IsResolvable (selection : Selection) (registry : Registry) : Prop where
  found : ∀ name ∈ selection.names, registry.has name = true
  resolved : ∀ rules state, Session.Settled rules ⟨registry, state⟩ →
    ∀ name ∈ selection.names, ∃ entity,
      (Resolver.resolve ⟨rules, registry⟩ name state).1 = .ok entity
  assembled : ∀ rules state, Session.Settled rules ⟨registry, state⟩ →
    ∀ settings table failing,
      (Document.assemble settings ⟨rules, registry⟩ selection.isSingle selection.names table
        state).1 ≠ .error (.unknownType failing)

/-- Names that are found lead to types. -/
theorem isResolvable_iff {selection : Selection} {registry : Registry}
    (keyed : registry.IsKeyed) :
    selection.IsResolvable registry ↔ ∀ name ∈ selection.names, registry.has name = true := by
  refine ⟨IsResolvable.found, fun found => ?_⟩
  exact {
    found
    resolved := by
      intro rules state settled name member
      obtain ⟨raw, methods, after, -, resolved, -⟩ :=
        @Document.resolve_loaded ⟨rules, registry⟩ state settled name (found name member)
      exact ⟨_, congrArg Prod.fst resolved⟩
    assembled := by
      intro rules state settled settings table failing
      exact Document.assemble_ne_unknownType selection.isSingle table keyed settled found failing }

/-- What the names of a selection are, and what has become of the registry. -/
theorem ofTarget_cases {reader : DocumentReader} {disk : Disk} {ignored : List Text}
    {target : Text} {state after : Loading} {selection : Selection}
    (selected : ofTarget reader disk ignored target state = (.ok selection, after)) :
    (after.registry = state.registry ∧
      ∀ name ∈ selection.names, state.registry.has name = true) ∨
    (target.contains ',' = false ∧ state.registry.has target = false ∧
      ∃ found, Registry.Gains state.registry found after.registry ∧
        ∀ name ∈ selection.names, ∃ declaration ∈ found, declaration.name = name) := by
  unfold ofTarget at selected
  split at selected
  · cases selected
    refine .inl ⟨rfl, fun name member => ?_⟩
    exact (List.mem_filter.mp (by simpa [names, Keyed.values, known] using member)).2
  rename_i listless
  split at selected
  · rename_i present
    cases selected
    refine .inl ⟨rfl, fun name member => ?_⟩
    have same : name = target := by simpa [names, Keyed.values] using member
    rw [same, present]
  rename_i absent
  split at selected
  · rw [ofPath] at selected
    rcases loaded : Loading.loadPath reader disk ignored (Path.ofText target) state with
      ⟨failure | found, last⟩
    · rw [loaded] at selected
      cases selected
    · rw [loaded] at selected
      cases selected
      refine .inr ⟨Bool.eq_false_iff.mpr listless, Bool.eq_false_iff.mpr absent, found,
        Loading.loadPath_gains loaded, fun name member => exists_declaration member⟩
  · cases selected

/-- The names that a target selects all lead to types exactly when those of them that are
not tidy have the names of loaded types for clean forms. This is always so for names that
are listed and for a name that is loaded. -/
theorem ofTarget_isResolvable_iff {reader : DocumentReader} {disk : Disk}
    {ignored : List Text} {target : Text} {state after : Loading} {selection : Selection}
    (keyed : state.registry.IsKeyed)
    (selected : ofTarget reader disk ignored target state = (.ok selection, after)) :
    (selection.IsResolvable after.registry ↔
      ∀ name ∈ selection.names, ClassName.isTidy name = true ∨
        ∃ loaded ∈ after.registry.names, Text.lower loaded = ClassName.key name) ∧
    (target.contains ',' = true ∨ state.registry.has target = true →
      selection.IsResolvable after.registry) := by
  rcases ofTarget_cases selected with ⟨same, found⟩ | ⟨listless, absent, found, gains, named⟩
  · rw [← same] at found
    have resolvable : selection.IsResolvable after.registry :=
      (isResolvable_iff (same ▸ keyed)).mpr found
    refine ⟨iff_of_true resolvable fun name member => .inr ?_, fun _ => resolvable⟩
    exact (Registry.has_iff (same ▸ keyed)).mp (found name member)
  · rw [isResolvable_iff (gains.keyed keyed)]
    refine ⟨⟨fun present name member => .inr ?_, fun tidied name member => ?_⟩, ?_⟩
    · exact (Registry.has_iff (gains.keyed keyed)).mp (present name member)
    · rcases tidied name member with tidy | loaded
      · obtain ⟨declaration, listed, rfl⟩ := named name member
        exact Registry.has_of_registers tidy (gains.registered declaration listed)
      · exact (Registry.has_iff (gains.keyed keyed)).mpr loaded
    · rintro (comma | present)
      · rw [listless] at comma
        cases comma
      · rw [absent] at present
        cases present

/-- The name of a source. -/
def sourceName : Text := "a.php".toList

/-- What a run on the current folder selects when it holds one source. -/
theorem ofTarget_holding (reader : DocumentReader) {content : Text}
    (plain : Disk.lenientText (Text.Utf8.encode content) = content) :
    let found := declarations content (some sourceName)
    ofTarget reader (Disk.holding sourceName content) [] ['.'] {} =
      (.ok { groups := grouped found, isSingle := false },
        Loading.addAll {} { names := [sourceName] } found) := by
  have current := Disk.entry_current sourceName content
  have there : (Disk.holding sourceName content).has {} = true := by
    rw [Disk.has, current]
    rfl
  have folder : (Disk.holding sourceName content).hasFolder {} = true := by
    rw [Disk.hasFolder, current]
    rfl
  have sources : Files.sources (Disk.holding sourceName content) [] {} =
      .ok [{ names := [sourceName] }] := by
    have isSource : Files.isSource sourceName (Text.Utf8.encode content) = true := by
      have ending : (Text.lower (Path.suffixOf sourceName) = ".php".toList) = True := by
        decide +kernel
      simp only [Files.isSource, ending, decide_true, Bool.true_or]
    rw [Files.sources, current]
    simp [Files.sourcesAmong, Files.sourcesOf, isSource, Files.inOrder, Path.below]
  have inside : Loading.declarationsIn reader (Disk.holding sourceName content)
      { names := [sourceName] } = .ok (declarations content (some sourceName)) := by
    rw [Loading.declarationsIn, if_neg (by decide +kernel), Disk.bytes_holding content (by decide)]
    simp only [Except.map, plain]
    rfl
  have place : Path.ofText ['.'] = {} := by decide +kernel
  have absent : Registry.has {} ['.'] = false := by decide +kernel
  intro found
  rw [ofTarget, if_neg (by decide), absent, if_neg (by decide), place, if_pos there, ofPath,
    Loading.loadPath, if_pos folder, sources]
  simp only [Loading.loadFiles, Loading.loadFile, inside, Except.map, List.append_nil]
  rfl

/-- A source with an ignored type whose name starts with a separator. -/
def rootedSource : Text := "<?php /** @ignore */ class \\Foo {} class Bar {}".toList

/-- The name of a declaration that starts with a separator is selected and leads to no
type. -/
theorem rootedSource_not_resolvable :
    ∃ selection after,
      ofTarget Yaml.reader (Disk.holding sourceName rootedSource) [] ['.'] {} =
        (.ok selection, after) ∧
      selection.names = ["\\Foo".toList, "Bar".toList] ∧
      after.registry.has "\\Foo".toList = false ∧ ¬selection.IsResolvable after.registry := by
  have selected := ofTarget_holding Yaml.reader
    (show Disk.lenientText (Text.Utf8.encode rootedSource) = rootedSource by decide +kernel)
  refine ⟨_, _, selected, by decide +kernel, by decide +kernel, fun resolvable => ?_⟩
  have found := resolvable.found "\\Foo".toList (by decide +kernel)
  exact absurd found (by decide +kernel)

/-- A source with two types. -/
def plainSource : Text := "<?php namespace Acme; class Foo {} class Bar {}".toList

/-- The names of the types in a source with tidy names lead to types. -/
theorem plainSource_resolvable :
    ∃ selection after,
      ofTarget Yaml.reader (Disk.holding sourceName plainSource) [] ['.'] {} =
        (.ok selection, after) ∧
      selection.names = ["Acme\\Foo".toList, "Acme\\Bar".toList] ∧
      selection.IsResolvable after.registry := by
  have selected := ofTarget_holding Yaml.reader
    (show Disk.lenientText (Text.Utf8.encode plainSource) = plainSource by decide +kernel)
  refine ⟨_, _, selected, by decide +kernel, ?_⟩
  refine (ofTarget_isResolvable_iff Registry.isKeyed_empty selected).1.mpr ?_
  have tidy : ∀ name ∈ (Keyed.values (grouped (declarations plainSource
      (some sourceName)))).flatten, ClassName.isTidy name = true := by decide +kernel
  exact fun name member => .inl (tidy name member)

end Selection
end Docblock
