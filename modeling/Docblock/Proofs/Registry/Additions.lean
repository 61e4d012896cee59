import Docblock.Registry
import Mathlib.Data.List.Basic
import Mathlib.Data.List.Induction

/-!
# A registry as the history of its additions

What a registry answers is a function of the declarations that were added to it, in
their order: a name leads to the first one with that name, the names are those of the
first declaration of each, and a notice stands for each declaration that came too late
and from another file. Names count as the same when they are in lower case.

The induction is on the history, from its end: one more declaration either is the first
with its name and goes to the end of the entries, or leaves the entries alone. A registry
that held something before keeps it in front and counts as the earlier part of the history.
-/

namespace Docblock.Registry

open Source

/-- The first of some declarations whose name in lower case is a key. -/
def firstNamed (key : Text) (added : List Declaration) : Option Declaration :=
  added.find? fun declaration => Text.lower declaration.name == key

/-- Whether the name of a declaration was given to an earlier one. -/
def isTaken (earlier : List Declaration) (declaration : Declaration) : Bool :=
  (firstNamed (Text.lower declaration.name) earlier).isSome

/-- The first declaration of each name, in the order of the first ones. -/
def firstOfEach : List Declaration → List Declaration
  | [] => []
  | declaration :: rest =>
    declaration ::
      (firstOfEach rest).filter (Text.lower ·.name != Text.lower declaration.name)

/-- The notice that a declaration is worth behind earlier ones: the first one with its
name comes from another file. -/
def noticeBehind (earlier : List Declaration) (declaration : Declaration) : Option Notice :=
  match firstNamed (Text.lower declaration.name) earlier with
  | some kept =>
    if kept.file = declaration.file then none
    else some (.duplicate declaration.name declaration.file kept.file)
  | none => none

/-- The notices that some declarations are worth, each behind those before it. -/
def duplicateNotices (added : List Declaration) : List Notice :=
  added.zipIdx.filterMap fun (declaration, place) =>
    noticeBehind (added.take place) declaration

section History

variable (added : List Declaration) (declaration : Declaration)

/-- One more declaration is added to what the others left. -/
theorem addAll_concat (registry : Registry) :
    addAll registry (added ++ [declaration]) =
      (((addAll registry added).1.add declaration).1,
        (addAll registry added).2 ++ ((addAll registry added).1.add declaration).2) := by
  simp [addAll]

/-- One more declaration is the first with its name or is not the first with any. -/
theorem firstNamed_concat (key : Text) :
    firstNamed key (added ++ [declaration]) =
      (firstNamed key added).or
        (if Text.lower declaration.name = key then some declaration else none) := by
  by_cases named : Text.lower declaration.name = key <;>
    simp [firstNamed, List.find?_append, named]

/-- A name that is taken stays taken, and one more declaration takes its own name. -/
theorem isTaken_cons (first : Declaration) :
    isTaken (first :: added) declaration =
      (Text.lower first.name == Text.lower declaration.name || isTaken added declaration) := by
  by_cases same : Text.lower first.name = Text.lower declaration.name <;>
    simp [isTaken, firstNamed, same]

/-- One more declaration is a first one unless its name is taken. -/
theorem firstOfEach_concat :
    firstOfEach (added ++ [declaration]) =
      firstOfEach added ++ if isTaken added declaration then [] else [declaration] := by
  induction added with
  | nil => rfl
  | cons first rest inductionHypothesis =>
    rw [List.cons_append, firstOfEach, inductionHypothesis, List.filter_append, firstOfEach,
      isTaken_cons, List.cons_append]
    by_cases same : Text.lower first.name = Text.lower declaration.name
    · cases isTaken rest declaration <;> simp [same]
    · cases isTaken rest declaration <;> simp [same, Ne.symm same]

/-- One more declaration is worth its notice behind all others. -/
theorem duplicateNotices_concat :
    duplicateNotices (added ++ [declaration]) =
      duplicateNotices added ++ (noticeBehind added declaration).toList := by
  -- the places of the others lie inside, so the declarations before them stay the same
  have others : added.zipIdx.filterMap (fun (other, place) =>
        noticeBehind ((added ++ [declaration]).take place) other) = duplicateNotices added := by
    refine List.filterMap_congr fun ⟨other, place⟩ member => ?_
    obtain ⟨-, inside, -⟩ := List.mem_zipIdx member
    have bounded : place ≤ added.length := by omega
    simp only [List.take_append_of_le_length bounded]
  have last : [(declaration, added.length)].filterMap (fun (other, place) =>
        noticeBehind ((added ++ [declaration]).take place) other) =
      (noticeBehind added declaration).toList := by
    cases worth : noticeBehind added declaration <;> simp [worth]
  rw [duplicateNotices, List.zipIdx_append, List.filterMap_append, others]
  simpa using last

end History

section Onto

variable (registry : Registry) (added : List Declaration) (declaration : Declaration)

/-- Adding declarations is adding one after the other. -/
theorem fst_addAll :
    (addAll registry added).1 = added.foldl (fun state next => (state.add next).1) registry := by
  induction added using List.reverseRecOn with
  | nil => rfl
  | append_singleton added declaration inductionHypothesis =>
    rw [addAll_concat, inductionHypothesis, List.foldl_append, List.foldl_cons, List.foldl_nil]

/-- A declaration goes to the end of the entries unless its name is taken. -/
theorem entries_add :
    (registry.add declaration).1.entries = registry.entries ++
      if Keyed.has (Text.lower declaration.name) registry.entries then []
      else [(Text.lower declaration.name, declaration)] := by
  rw [add, Keyed.has]
  cases Keyed.find? (Text.lower declaration.name) registry.entries <;> simp

/-- Under every key stands what stood there before, or else the new declaration if its name
has it. -/
theorem find?_entries_add (key : Text) :
    Keyed.find? key (registry.add declaration).1.entries =
      (Keyed.find? key registry.entries).or
        (if Text.lower declaration.name = key then some declaration else none) := by
  rw [entries_add]
  cases known : Keyed.find? key registry.entries with
  | some kept => rw [Keyed.find?_append_of_found known, Option.some_or]
  | none =>
    rw [Keyed.find?_append_of_absent known, Option.none_or]
    by_cases named : Text.lower declaration.name = key
    · simp [Keyed.has, Keyed.find?, named, known]
    · split <;> simp [Keyed.find?, named]

/-- Under every key stands what stood there before, or else the first new declaration whose
name has it. -/
theorem find?_addAll_onto (key : Text) :
    Keyed.find? key (addAll registry added).1.entries =
      (Keyed.find? key registry.entries).or (firstNamed key added) := by
  induction added using List.reverseRecOn with
  | nil => exact (Option.or_none).symm
  | append_singleton added declaration inductionHypothesis =>
    rw [addAll_concat, find?_entries_add, inductionHypothesis, firstNamed_concat, Option.or_assoc]

/-- Behind the earlier entries stand the first new declarations of each name that was not
taken, in order. -/
theorem entries_addAll_onto :
    (addAll registry added).1.entries = registry.entries ++
      ((firstOfEach added).filter fun declaration =>
        !Keyed.has (Text.lower declaration.name) registry.entries).map
          fun declaration => (Text.lower declaration.name, declaration) := by
  induction added using List.reverseRecOn with
  | nil => exact (List.append_nil _).symm
  | append_singleton added declaration inductionHypothesis =>
    have taken : Keyed.has (Text.lower declaration.name) (addAll registry added).1.entries =
        (Keyed.has (Text.lower declaration.name) registry.entries ||
          isTaken added declaration) := by
      rw [Keyed.has, find?_addAll_onto, Option.isSome_or]
      rfl
    rw [addAll_concat, entries_add, taken, inductionHypothesis, firstOfEach_concat,
      List.filter_append, List.map_append, List.append_assoc]
    congr 2
    cases before : Keyed.has (Text.lower declaration.name) registry.entries with
    | true => cases isTaken added declaration <;> simp [before]
    | false => cases isTaken added declaration <;> simp [before]

end Onto

/-- Under every key stands the first declaration whose name has it. -/
theorem find?_addAll (added : List Declaration) (key : Text) :
    Keyed.find? key (addAll {} added).1.entries = firstNamed key added :=
  (find?_addAll_onto {} added key).trans Option.none_or

/-- The entries are the first declarations of each name, in order. -/
theorem entries_addAll (added : List Declaration) :
    (addAll {} added).1.entries =
      (firstOfEach added).map fun declaration => (Text.lower declaration.name, declaration) := by
  rw [entries_addAll_onto, List.nil_append]
  exact congrArg (List.map _) (List.filter_eq_self.mpr fun _ _ => rfl)

/-- A declaration whose name is taken changes nothing but the notices, and one whose name
is free is entered at the end without a notice. -/
theorem add_addAll (added : List Declaration) (declaration : Declaration) :
    (addAll {} added).1.add declaration =
      if isTaken added declaration then
        ((addAll {} added).1, (noticeBehind added declaration).toList)
      else
        (⟨(addAll {} added).1.entries ++ [(Text.lower declaration.name, declaration)]⟩, []) := by
  rw [add, find?_addAll, isTaken, noticeBehind]
  cases known : firstNamed (Text.lower declaration.name) added with
  | none => simp
  | some kept =>
    by_cases sameFile : kept.file = declaration.file <;> simp [duplicateNotice, sameFile]

/-- The notices are those about the declarations that came too late. -/
theorem notices_addAll (added : List Declaration) :
    (addAll {} added).2 = duplicateNotices added := by
  induction added using List.reverseRecOn with
  | nil => rfl
  | append_singleton added declaration inductionHypothesis =>
    rw [addAll_concat, add_addAll, duplicateNotices_concat, inductionHypothesis]
    cases taken : isTaken added declaration with
    | true => simp
    | false =>
      have free : firstNamed (Text.lower declaration.name) added = none := by
        simpa [isTaken] using taken
      simp [noticeBehind, free]

/-- Declarations can be added in two portions. -/
theorem fst_addAll_append (registry : Registry) (first second : List Declaration) :
    (addAll registry (first ++ second)).1 = (addAll (addAll registry first).1 second).1 := by
  induction second using List.reverseRecOn with
  | nil => simp [addAll]
  | append_singleton second declaration inductionHypothesis =>
    rw [← List.append_assoc, addAll_concat, addAll_concat, inductionHypothesis]

/-- A declaration whose name is taken can be left out of the history. -/
theorem addAll_without_duplicate {earlier : List Declaration} {duplicate : Declaration}
    (taken : isTaken earlier duplicate = true) (later : List Declaration) :
    (addAll {} (earlier ++ duplicate :: later)).1 = (addAll {} (earlier ++ later)).1 := by
  have unchanged : (addAll {} (earlier ++ [duplicate])).1 = (addAll {} earlier).1 := by
    rw [addAll_concat, add_addAll, if_pos taken]
  rw [List.append_cons, fst_addAll_append, unchanged, ← fst_addAll_append]

/-- Whatever declarations were added to an empty registry, in whatever order:

* a name leads to the first declaration whose name in lower case is the key of the name,
  and without one the failure tells the clean form of the name;
* a name is present exactly when it leads to a declaration;
* the names are those of the first declaration of each name, in order;
* a declaration whose name was taken makes no difference to the registry, whatever is
  added later;
* there is a notice, with both files, for each declaration whose name was taken by one
  from another file, and no other notice. -/
theorem addAll_history (added : List Declaration) :
    (∀ name, (addAll {} added).1.get name =
      match firstNamed (ClassName.key name) added with
      | some declaration => .ok declaration
      | none => .error (.unknownType (ClassName.clean name))) ∧
    (∀ name, (addAll {} added).1.has name = true ↔
      ∃ declaration, (addAll {} added).1.get name = .ok declaration) ∧
    (addAll {} added).1.names = (firstOfEach added).map (·.name) ∧
    (∀ earlier duplicate later, added = earlier ++ duplicate :: later →
      isTaken earlier duplicate = true →
        (addAll {} added).1 = (addAll {} (earlier ++ later)).1) ∧
    (addAll {} added).2 = duplicateNotices added := by
  refine ⟨?_, ?_, ?_, ?_, notices_addAll added⟩
  · intro name
    cases found : firstNamed (ClassName.key name) added with
    | none => simp only [get, find?, find?_addAll, found]
    | some declaration => simp only [get, find?, find?_addAll, found]
  · intro name
    rw [has, get]
    constructor
    · intro present
      obtain ⟨declaration, found⟩ := Option.isSome_iff_exists.mp present
      exact ⟨declaration, by rw [found]⟩
    · rintro ⟨declaration, answered⟩
      cases found : (addAll {} added).1.find? name with
      | none =>
        rw [found] at answered
        cases answered
      | some raw => rfl
  · rw [names, entries_addAll, Keyed.values, List.map_map, List.map_map]
    rfl
  · rintro earlier duplicate later rfl taken
    exact addAll_without_duplicate taken later

/-- A class in one file. -/
def upperCaseClass : Declaration := { name := "Shop\\Cart".toList, file := some "a.php".toList }

/-- The same class in another file and another case. -/
def lowerCaseClass : Declaration := { name := "shop\\cart".toList, file := some "b.php".toList }

/-- The second spelling of a class makes no difference, and a notice tells both files. -/
theorem secondSpelling_history :
    isTaken [upperCaseClass] lowerCaseClass = true ∧
    (addAll {} [upperCaseClass, lowerCaseClass]).1 = (addAll {} [upperCaseClass]).1 ∧
    (addAll {} [upperCaseClass, lowerCaseClass]).2 =
      [.duplicate "shop\\cart".toList (some "b.php".toList) (some "a.php".toList)] := by
  have taken : isTaken [upperCaseClass] lowerCaseClass = true := by decide +kernel
  obtain ⟨-, -, -, unchanged, notices⟩ := addAll_history [upperCaseClass, lowerCaseClass]
  refine ⟨taken, unchanged [upperCaseClass] lowerCaseClass [] rfl taken, ?_⟩
  rw [notices]
  decide +kernel

end Docblock.Registry
