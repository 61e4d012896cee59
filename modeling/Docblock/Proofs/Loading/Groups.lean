import Docblock.Proofs.Files.Listing
import Docblock.Selection
import Docblock.Yaml.Document
import Mathlib.Data.List.Forall2
import Mathlib.Data.List.Induction

/-!
# The groups of a folder

The names of the declarations that are loaded from a folder stand in groups, one for each
namespace that has declarations. The groups are in the strict order of their namespaces. A group
holds each name that some declaration has in its namespace once, and the names stand where they
are declared first: in the order of the sources and, within a source, of its declarations. It
does not matter over how many sources a namespace is spread, or how often a name is declared.

Names count as they are written here. Two spellings of one name are two names of a group.
-/

namespace Docblock

open Source

namespace Loading

/-- What is found in a source: its declarations, or none when it cannot be read. -/
def IsFoundIn (reader : DocumentReader) (disk : Disk) (path : Path)
    (found : List Declaration) : Prop :=
  declarationsIn reader disk path = .ok found ∨
    (found = [] ∧ ∃ failure, declarationsIn reader disk path = .error failure ∧
      failure.isAboutReading = true)

/-- What loading a source returns is found in it. -/
theorem loadFile_isFoundIn {reader : DocumentReader} {disk : Disk} {path : Path}
    {state after : Loading} {found : List Declaration}
    (loaded : loadFile reader disk path state = (.ok found, after)) :
    IsFoundIn reader disk path found := by
  unfold loadFile at loaded
  split at loaded
  · rename_i inside
    cases loaded
    exact .inl inside
  · rename_i failure inside
    split at loaded
    · rename_i reading
      cases loaded
      exact .inr ⟨rfl, failure, inside, reading⟩
    · cases loaded

/-- What loading sources returns is what is found in them, one after the other. The induction is
on the sources. -/
theorem loadFiles_isFoundIn {reader : DocumentReader} {disk : Disk} {paths : List Path}
    {state after : Loading} {found : List Declaration}
    (loaded : loadFiles reader disk paths state = (.ok found, after)) :
    ∃ parts, List.Forall₂ (IsFoundIn reader disk) paths parts ∧ found = parts.flatten := by
  induction paths generalizing state found with
  | nil =>
    cases loaded
    exact ⟨[], .nil, rfl⟩
  | cons path rest inductionHypothesis =>
    rw [loadFiles] at loaded
    rcases first : loadFile reader disk path state with ⟨failure | early, next⟩
    · rw [first] at loaded
      cases loaded
    · rw [first] at loaded
      simp only at loaded
      rcases others : loadFiles reader disk rest next with ⟨failure | late, last⟩
      · rw [others] at loaded
        cases loaded
      · rw [others] at loaded
        cases loaded
        obtain ⟨parts, inside, rfl⟩ := inductionHypothesis others
        exact ⟨early :: parts, .cons (loadFile_isFoundIn first) inside, rfl⟩

end Loading

namespace Selection

/-- Whether a declaration has a name in a namespace. -/
def declares (space name : Text) (declaration : Declaration) : Bool :=
  declaration.scope.space == space && declaration.name == name

/-- The place of the first declaration of a name in a namespace. -/
def firstPlace (found : List Declaration) (space name : Text) : Nat :=
  found.findIdx (declares space name)

section Place

variable {found : List Declaration} {declaration : Declaration} {space name : Text}

/-- A name that is declared keeps its place when more is declared. -/
theorem firstPlace_concat_of_declared (declaration : Declaration)
    (known : ∃ other ∈ found, declares space name other = true) :
    firstPlace (found ++ [declaration]) space name = firstPlace found space name ∧
      firstPlace found space name < found.length := by
  have inside : firstPlace found space name < found.length := List.findIdx_lt_length.mpr known
  refine ⟨?_, inside⟩
  rw [firstPlace, List.findIdx_append]
  exact if_pos inside

/-- A name that was not declared before has the last place. -/
theorem firstPlace_concat_of_new (new : ¬∃ other ∈ found, declares space name other = true)
    (declared : declares space name declaration = true) :
    firstPlace (found ++ [declaration]) space name = found.length := by
  rw [firstPlace, List.findIdx_append, if_neg (mt List.findIdx_lt_length.mp new),
    List.findIdx_cons, declared]
  simp

end Place

/-- What the groups of some declarations hold, in whatever order they stand. -/
structure IsGrouping (found : List Declaration) (groups : Keyed (List Text)) : Prop where
  distinct : (Keyed.keys groups).Nodup
  declared : ∀ space name, name ∈ (Keyed.find? space groups).getD [] ↔
    ∃ declaration ∈ found, declares space name declaration = true
  filled : ∀ space, Keyed.find? space groups ≠ some []
  ordered : ∀ space, ((Keyed.find? space groups).getD []).Pairwise fun a b =>
    firstPlace found space a < firstPlace found space b

namespace IsGrouping

variable {found : List Declaration} {groups : Keyed (List Text)}

/-- Nothing makes no groups. -/
theorem nil : IsGrouping [] [] where
  distinct := .nil
  declared := by simp [Keyed.find?]
  filled := by simp [Keyed.find?]
  ordered := by simp [Keyed.find?]

/-- Entering a declaration leaves the groups of all other namespaces alone. -/
theorem find?_enter_other {declaration : Declaration} {space : Text}
    (other : space ≠ declaration.scope.space) (groups : Keyed (List Text)) :
    Keyed.find? space (Selection.enter groups declaration) = Keyed.find? space groups :=
  Keyed.find?_put_other _ _ _ _ other

/-- The group of its namespace has the name of a declaration that was entered. -/
theorem find?_enter_same (declaration : Declaration) (groups : Keyed (List Text)) :
    Keyed.find? declaration.scope.space (Selection.enter groups declaration) =
      let names := (Keyed.find? declaration.scope.space groups).getD []
      some (if declaration.name ∈ names then names else names ++ [declaration.name]) := by
  rw [Selection.enter, Keyed.find?_put_same]
  simp only [List.contains_iff_mem]

/-- The groups hold what is declared, and the new name beside it. -/
theorem declared_enter (grouping : IsGrouping found groups) (declaration : Declaration)
    (space name : Text) :
    name ∈ (Keyed.find? space (Selection.enter groups declaration)).getD [] ↔
      ∃ other ∈ found ++ [declaration], declares space name other = true := by
  have extended : (∃ other ∈ found ++ [declaration], declares space name other = true) ↔
      name ∈ (Keyed.find? space groups).getD [] ∨ declares space name declaration = true := by
    rw [grouping.declared]
    simp [or_and_right, exists_or]
  rw [extended]
  by_cases same : space = declaration.scope.space
  · subst same
    rw [find?_enter_same]
    by_cases listed : declaration.name ∈ (Keyed.find? declaration.scope.space groups).getD []
    · have old : declares declaration.scope.space name declaration = true →
          name ∈ (Keyed.find? declaration.scope.space groups).getD [] := by
        intro declared
        have equal : declaration.name = name := by simpa [declares] using declared
        rwa [← equal]
      simpa [listed] using old
    · simp [listed, declares, @eq_comm _ name]
  · rw [find?_enter_other same]
    simp [declares, Ne.symm same]

/-- A group that a name was entered into is not empty. -/
theorem filled_enter (grouping : IsGrouping found groups) (declaration : Declaration)
    (space : Text) : Keyed.find? space (Selection.enter groups declaration) ≠ some [] := by
  by_cases same : space = declaration.scope.space
  · subst same
    rw [find?_enter_same]
    intro empty
    have nothing := Option.some.inj empty
    split at nothing
    · rename_i listed
      rw [nothing] at listed
      cases listed
    · exact List.append_ne_nil_of_right_ne_nil _ (List.cons_ne_nil _ _) nothing
  · rw [find?_enter_other same]
    exact grouping.filled space

/-- Names that were declared keep their places, and a new name has the last one. -/
theorem ordered_enter (grouping : IsGrouping found groups) (declaration : Declaration)
    (space : Text) :
    ((Keyed.find? space (Selection.enter groups declaration)).getD []).Pairwise fun a b =>
      firstPlace (found ++ [declaration]) space a <
        firstPlace (found ++ [declaration]) space b := by
  have kept : ((Keyed.find? space groups).getD []).Pairwise fun a b =>
      firstPlace (found ++ [declaration]) space a <
        firstPlace (found ++ [declaration]) space b := by
    refine (grouping.ordered space).imp_of_mem fun {a b} first second smaller => ?_
    rwa [(firstPlace_concat_of_declared declaration ((grouping.declared space a).mp first)).1,
      (firstPlace_concat_of_declared declaration ((grouping.declared space b).mp second)).1]
  by_cases same : space = declaration.scope.space
  · subst same
    rw [find?_enter_same, Option.getD_some]
    split
    · exact kept
    · rename_i new
      refine List.pairwise_append.mpr ⟨kept, List.pairwise_singleton _ _, ?_⟩
      intro a listed b last
      rw [List.mem_singleton.mp last]
      have known := (grouping.declared _ a).mp listed
      have absent := mt (grouping.declared declaration.scope.space declaration.name).mpr new
      obtain ⟨place, inside⟩ := firstPlace_concat_of_declared declaration known
      rw [place, firstPlace_concat_of_new absent (by simp [declares])]
      exact inside
  · rw [find?_enter_other same]
    exact kept

/-- The groups go on to be those of the declarations when one more is entered. -/
theorem enter (grouping : IsGrouping found groups) (declaration : Declaration) :
    IsGrouping (found ++ [declaration]) (Selection.enter groups declaration) where
  distinct := Keyed.nodup_keys_put _ _ grouping.distinct
  declared := grouping.declared_enter declaration
  filled := grouping.filled_enter declaration
  ordered := grouping.ordered_enter declaration

/-- The groups that declarations are entered into are theirs. The induction is on the
declarations from the last one on. -/
theorem entered (found : List Declaration) :
    IsGrouping found (found.foldl Selection.enter []) := by
  induction found using List.reverseRecOn with
  | nil => exact nil
  | append_singleton front last inductionHypothesis =>
    rw [List.foldl_append]
    exact inductionHypothesis.enter last

/-- What groups hold does not depend on their order. -/
theorem of_perm (grouping : IsGrouping found groups) {others : Keyed (List Text)}
    (same : others.Perm groups) : IsGrouping found others := by
  have equal : ∀ space, Keyed.find? space others = Keyed.find? space groups :=
    Keyed.find?_of_perm grouping.distinct same
  exact {
    distinct := ((same.map Prod.fst).nodup_iff).mpr grouping.distinct
    declared := fun space name => by rw [equal, grouping.declared]
    filled := fun space => by rw [equal]; exact grouping.filled space
    ordered := fun space => by rw [equal]; exact grouping.ordered space }

end IsGrouping

/-- The groups of declarations are theirs. -/
theorem grouped_isGrouping (found : List Declaration) : IsGrouping found (grouped found) :=
  (IsGrouping.entered found).of_perm (List.mergeSort_perm _ _)

/-- The groups of declarations stand in the strict order of their namespaces. -/
theorem pairwise_keys_grouped (found : List Declaration) :
    (Keyed.keys (grouped found)).Pairwise (· < ·) :=
  List.pairwise_map.mpr (Keyed.pairwise_mergeSort (IsGrouping.entered found).distinct)

section Folder

variable {reader : DocumentReader} {disk : Disk} {ignored : List Text} {path : Path}
  {state after : Loading} {found : List Declaration}

/-- What loading a folder returns is what is found in its sources, one after the other, and the
groups of the folder are made of it: they stand in the strict order of their namespaces, hold
exactly the names that are declared in each, and have every name once, in the order of the first
declarations. No group is empty. -/
theorem ofPath_grouped (folder : disk.hasFolder path = true)
    (loaded : Loading.loadPath reader disk ignored path state = (.ok found, after)) :
    (∃ paths parts, Files.sources disk ignored path = .ok paths ∧
      List.Forall₂ (Loading.IsFoundIn reader disk) paths parts ∧ found = parts.flatten) ∧
    ∃ groups, ofPath reader disk ignored path state = (.ok groups, after) ∧
      (Keyed.keys groups).Pairwise (· < ·) ∧
      (∀ space name, (∃ names, (space, names) ∈ groups ∧ name ∈ names) ↔
        ∃ declaration ∈ found, declaration.scope.space = space ∧ declaration.name = name) ∧
      ∀ space names, (space, names) ∈ groups → names ≠ [] ∧ names.Nodup ∧
        names.Pairwise fun a b => firstPlace found space a < firstPlace found space b := by
  constructor
  · rw [Loading.loadPath, if_pos folder] at loaded
    split at loaded
    · rename_i paths listed
      obtain ⟨parts, inside, whole⟩ := Loading.loadFiles_isFoundIn loaded
      exact ⟨paths, parts, listed, inside, whole⟩
    · cases loaded
  have grouping := grouped_isGrouping found
  have held {space : Text} {names : List Text} (listed : (space, names) ∈ grouped found) :
      Keyed.find? space (grouped found) = some names :=
    Keyed.find?_of_mem grouping.distinct listed
  refine ⟨grouped found, by rw [ofPath, loaded]; rfl, pairwise_keys_grouped found,
    fun space name => ?_, fun space names listed => ?_⟩
  · have declared := grouping.declared space name
    simp only [declares, Bool.and_eq_true, beq_iff_eq] at declared
    rw [← declared]
    constructor
    · rintro ⟨names, listed, inside⟩
      rwa [held listed]
    · intro inside
      cases present : Keyed.find? space (grouped found) with
      | none =>
        rw [present] at inside
        cases inside
      | some names =>
        rw [present] at inside
        exact ⟨names, Keyed.mem_of_find? present, inside⟩
  · have ordered := grouping.ordered space
    have filled := grouping.filled space
    rw [held listed] at ordered filled
    refine ⟨fun empty => filled (congrArg some empty), ?_, ordered⟩
    exact ordered.imp fun smaller equal => (equal ▸ smaller).false

end Folder

/-- The text of a source with two namespaces. -/
def spreadSource : Text := "<?php namespace Z; class One {} namespace A; class Two {}".toList

/-- The text of a source that goes on with the first of them and declares a name again. -/
def repeatedSource : Text := "<?php namespace Z; class Three {} class One {}".toList

/-- A folder with both sources. -/
def spreadEntries : List (Text × Entry) :=
  [("a.php".toList, .file (Text.Utf8.encode spreadSource)),
    ("b.php".toList, .file (Text.Utf8.encode repeatedSource))]

/-- What is loaded from the folder with both sources, and its groups. -/
theorem spreadEntries_grouped :
    let reader := Yaml.reader
    let disk : Disk := { tree := .folder spreadEntries }
    ∃ found after, disk.hasFolder {} = true ∧
      Loading.loadPath reader disk [] {} {} = (.ok found, after) ∧
      found.map (·.name) = ["Z\\One", "A\\Two", "Z\\Three", "Z\\One"].map String.toList ∧
      (∃ paths parts, Files.sources disk [] {} = .ok paths ∧
        List.Forall₂ (Loading.IsFoundIn reader disk) paths parts ∧ found = parts.flatten) ∧
      ∃ groups, ofPath reader disk [] {} {} = (.ok groups, after) ∧
        (Keyed.keys groups).Pairwise (· < ·) ∧
        (∀ space name, (∃ names, (space, names) ∈ groups ∧ name ∈ names) ↔
          ∃ declaration ∈ found, declaration.scope.space = space ∧ declaration.name = name) ∧
        ∀ space names, (space, names) ∈ groups → names ≠ [] ∧ names.Nodup ∧
          names.Pairwise fun a b => firstPlace found space a < firstPlace found space b := by
  intro reader disk
  have there : disk.entry {} = .ok (.folder spreadEntries) := Disk.entry_root _
  have folder : disk.hasFolder {} = true := by rw [Disk.hasFolder, there]; rfl
  have proper : (Entry.folder spreadEntries).IsProper := by
    refine .folder (by decide) (by decide) fun name entry member => ?_
    simp only [spreadEntries, List.mem_cons, List.not_mem_nil, or_false, Prod.mk.injEq] at member
    rcases member with ⟨-, rfl⟩ | ⟨-, rfl⟩
    · exact .file _
    · exact .file _
  have listed : Files.sources disk [] {} =
      .ok [{ names := ["a.php".toList] }, { names := ["b.php".toList] }] := by
    have ordered : Files.sourcesOf [] [] (.folder spreadEntries) =
        [["a.php".toList], ["b.php".toList]] := by
      have found : Files.sourcesAmong [] spreadEntries =
          [("a.php".toList, [[]]), ("b.php".toList, [[]])] := by decide +kernel
      rw [Files.sourcesOf, if_pos (by decide), found, Files.inOrder,
        List.mergeSort_of_pairwise (by decide)]
      rfl
    rw [Files.sources_eq there, ordered]
    rfl
  have inside {name : String} {content : Text}
      (isCode : Files.isDocumentName name.toList = false)
      (plain : Disk.lenientText (Text.Utf8.encode content) = content)
      (reached : (Entry.folder spreadEntries).at? [name.toList] =
        some (.file (Text.Utf8.encode content))) :
      Loading.declarationsIn reader disk { names := [name.toList] } =
        .ok (declarations content (some name.toList)) := by
    have holds := Files.bytes_below there proper reached
    have code : ¬Files.isDocumentName name.toList = true := by simp [isCode]
    rw [Path.below, List.nil_append] at holds
    rw [Loading.declarationsIn, List.getLast?_singleton, Option.getD_some, if_neg code, holds]
    simp only [Except.map, plain]
    rfl
  have first := @inside "a.php" spreadSource (by decide +kernel) (by decide +kernel) rfl
  have second := @inside "b.php" repeatedSource (by decide +kernel) (by decide +kernel) rfl
  have loaded : (Loading.loadPath reader disk [] {} {}).1 =
      .ok (declarations spreadSource (some "a.php".toList) ++
        declarations repeatedSource (some "b.php".toList)) := by
    rw [Loading.loadPath, if_pos folder, listed]
    simp only [Loading.loadFiles, Loading.loadFile, first, second, Except.map, List.append_nil]
  have whole : Loading.loadPath reader disk [] {} {} =
      (_, (Loading.loadPath reader disk [] {} {}).2) :=
    Prod.ext loaded rfl
  exact ⟨_, _, folder, whole, by decide +kernel, ofPath_grouped folder whole⟩

end Selection
end Docblock
