import Docblock.Proofs.Resolution.Session
import Docblock.Proofs.Source.Spacing

/-!
# Keys of a registry

A declaration is kept under its name in lower case, so a declaration that is found
under a key has a name that becomes this key in lower case. This holds of every
registry that was filled by adding declarations to an empty one.

A name is looked up in its clean form. A tidy name, with neither white space nor a
separator at an end, is its own clean form and leads to the declaration kept under it.
Any other name leads to a declaration of its clean form, if there is one.
-/

namespace Docblock

open Source

namespace ClassName

/-- Whether a name has neither white space nor a separator at an end. -/
def isTidy (name : Text) : Bool :=
  let canEnd := fun c => !Text.isBlank c && c != separator
  name.head?.all canEnd && name.getLast?.all canEnd

/-- A tidy name is its own clean form. -/
theorem clean_of_isTidy {name : Text} (tidy : isTidy name = true) : clean name = name := by
  rcases List.eq_nil_or_concat name with rfl | ⟨init, last, back⟩
  · rfl
  rw [List.concat_eq_append] at back
  obtain ⟨first, rest, front⟩ : ∃ first rest, name = first :: rest :=
    List.exists_cons_of_ne_nil (by simp [back])
  have start : name.head? = some first := by rw [front]; rfl
  have ending : name.getLast? = some last := by simp [back]
  simp only [isTidy, start, ending, Option.all_some, Bool.and_eq_true, Bool.not_eq_true',
    bne_iff_ne] at tidy
  obtain ⟨⟨visibleFirst, innerFirst⟩, visibleLast, innerLast⟩ := tidy
  have trimmed : Text.trim name = name :=
    trimWhile_eq ⟨first, rest, front, visibleFirst⟩ ⟨last, init, back, visibleLast⟩
  rw [clean, trimmed]
  exact trimWhile_eq ⟨first, rest, front, beq_eq_false_iff_ne.mpr innerFirst⟩
    ⟨last, init, back, beq_eq_false_iff_ne.mpr innerLast⟩

end ClassName

namespace Registry

/-- Whether every declaration is kept under its name in lower case. -/
def IsKeyed (registry : Registry) : Prop :=
  ∀ entry ∈ registry.entries, Text.lower entry.2.name = entry.1

/-- What is found under a key has the key for its name in lower case. -/
theorem IsKeyed.lower_name {registry : Registry} (keyed : registry.IsKeyed) {key : Text}
    {raw : Declaration} (found : Keyed.find? key registry.entries = some raw) :
    Text.lower raw.name = key :=
  keyed (key, raw) (Keyed.mem_of_find? found)

/-- An empty registry is keyed. -/
theorem isKeyed_empty : IsKeyed {} := by
  intro entry member
  cases member

/-- A registry stays keyed when a declaration is added. -/
theorem IsKeyed.add {registry : Registry} (keyed : registry.IsKeyed) (declaration : Declaration) :
    (registry.add declaration).1.IsKeyed := by
  unfold Registry.add
  split
  · exact keyed
  · intro entry member
    rcases List.mem_append.mp member with known | new
    · exact keyed entry known
    · rw [List.mem_singleton.mp new]

/-- A name is registered when its lower-case form is the key of a declaration. -/
def registers (registry : Registry) (name : Text) : Bool :=
  Keyed.has (Text.lower name) registry.entries

/-- A tidy name that is registered is found. -/
theorem has_of_registers {registry : Registry} {name : Text} (tidy : ClassName.isTidy name = true)
    (registered : registry.registers name = true) : registry.has name = true := by
  rwa [has, find?, ClassName.key, ClassName.clean_of_isTidy tidy]

/-- A name is found when its key is the lower-case form of a loaded name. -/
theorem has_iff {registry : Registry} (keyed : registry.IsKeyed) {name : Text} :
    registry.has name = true ↔
      ∃ loaded ∈ registry.names, Text.lower loaded = ClassName.key name := by
  constructor
  · intro present
    obtain ⟨raw, found⟩ := Option.isSome_iff_exists.mp present
    have listed := Keyed.mem_of_find? found
    refine ⟨raw.name, ?_, keyed.lower_name found⟩
    exact List.mem_map.mpr ⟨raw, List.mem_map.mpr ⟨_, listed, rfl⟩, rfl⟩
  · rintro ⟨loaded, member, same⟩
    obtain ⟨raw, listed, rfl⟩ := List.mem_map.mp member
    obtain ⟨entry, inside, rfl⟩ := List.mem_map.mp listed
    refine Keyed.has_of_mem_keys (List.mem_map.mpr ⟨entry, inside, ?_⟩)
    rw [← same, keyed entry inside]

end Registry

namespace Session

variable {rules : Resolve.Rules}

/-- The registry of a session stays keyed. -/
theorem afterAll_isKeyed {session : Session} (keyed : session.registry.IsKeyed)
    (calls : List Call) : (session.afterAll rules calls).registry.IsKeyed := by
  induction calls generalizing session with
  | nil => exact keyed
  | cons call rest inductionHypothesis =>
    have next : (session.after rules call).registry.IsKeyed := by
      cases call with
      | add declaration => exact keyed.add declaration
      | ask query => exact keyed
      | isBuilding name => exact keyed
    exact inductionHypothesis next

end Session
end Docblock
