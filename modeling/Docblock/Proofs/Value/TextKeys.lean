import Docblock.Proofs.Value.Json
import Docblock.Value.Equality

/-!
# Text keys

What stands in a map under a text key. Only the text itself equals a text, so a text key is
found where it stands, whatever other keys the map has.
-/

namespace Docblock.Value

variable {name : Text} {value : Value} {entries : Entries}

/-- The value of a text key in a map with a first entry. -/
theorem find?_cons (key value : Value) (entries : Entries) :
    find? (.text name) ((key, value) :: entries) =
      if key = .text name then some value else find? (.text name) entries := by
  rw [find?, List.find?_cons]
  by_cases same : key = .text name
  · rw [if_pos same, same_text_iff.mpr same]
    rfl
  · rw [if_neg same, Bool.eq_false_iff.mpr (mt same_text_iff.mp same)]
    rfl

/-- A value entered under a text key in a map with a first entry. -/
theorem put_cons (key old value : Value) (entries : Entries) :
    put (.text name) value ((key, old) :: entries) =
      if key = .text name then (key, value) :: entries
      else (key, old) :: put (.text name) value entries := by
  rw [put]
  by_cases same : key = .text name
  · rw [if_pos same, if_pos (same_text_iff.mpr same)]
  · rw [if_neg same, if_neg (mt same_text_iff.mp same)]

/-- The value of a key after one was entered. -/
theorem find?_put (name other : Text) (value : Value) (entries : Entries) :
    find? (.text other) (put (.text name) value entries) =
      if other = name then some value else find? (.text other) entries := by
  induction entries with
  | nil =>
    rw [put, find?_cons]
    simp [eq_comm]
  | cons entry rest inductionHypothesis =>
    obtain ⟨key, old⟩ := entry
    rw [put_cons, find?_cons]
    by_cases same : key = .text name
    · rw [if_pos same, find?_cons, same]
      by_cases equal : other = name
      · simp [equal]
      · simp [equal, Ne.symm equal]
    · rw [if_neg same, find?_cons, inductionHypothesis]
      by_cases equal : other = name
      · simp [equal, same]
      · simp [equal]

/-- A value entered under a key that is no text is not found under a text. -/
theorem find?_put_of_ne_text {key : Value} (other : ∀ name, key ≠ .text name) (value : Value)
    (entries : Entries) :
    find? (.text name) (put key value entries) = find? (.text name) entries := by
  induction entries with
  | nil => rw [put, find?_cons, if_neg (other name)]
  | cons entry rest inductionHypothesis =>
    obtain ⟨first, old⟩ := entry
    rw [put]
    split
    · rename_i equal
      have different : first ≠ .text name := by
        rintro rfl
        cases key <;> simp_all [same, sameScalar, asInt?]
      rw [find?_cons, find?_cons, if_neg different, if_neg different]
    · rw [find?_cons, find?_cons, inductionHypothesis]

/-- The values that stand under a text, in their order. In a map that has no key twice there is at
most one. -/
def under (name : Text) (entries : Entries) : List Value :=
  (entries.filter (·.1 = .text name)).map (·.2)

/-- The values under a text in a map with a first entry. -/
theorem under_cons (name : Text) (key value : Value) (entries : Entries) :
    under name ((key, value) :: entries) =
      if key = .text name then value :: under name entries else under name entries := by
  by_cases same : key = .text name <;> simp [under, same]

/-- The keys after a value was entered: a known key keeps its place, a new one is the last. -/
theorem keys_put (name : Text) (value : Value) (entries : Entries) :
    keys (put (.text name) value entries) =
      if .text name ∈ keys entries then keys entries else keys entries ++ [.text name] := by
  induction entries with
  | nil => rfl
  | cons entry rest inductionHypothesis =>
    obtain ⟨key, old⟩ := entry
    rw [put_cons]
    by_cases same : key = .text name
    · simp [keys, same]
    · rw [if_neg same]
      have later : keys ((key, old) :: put (.text name) value rest) =
          key :: keys (put (.text name) value rest) := rfl
      rw [later, inductionHypothesis]
      by_cases listed : Value.text name ∈ keys rest <;> simp_all [keys, eq_comm]

/-- Entering the value that a key has already changes nothing. -/
theorem put_of_find? (found : find? (.text name) entries = some value) :
    put (.text name) value entries = entries := by
  induction entries with
  | nil => cases found
  | cons entry rest inductionHypothesis =>
    obtain ⟨key, old⟩ := entry
    rw [find?_cons] at found
    rw [put_cons]
    split
    · rename_i same
      rw [if_pos same] at found
      rw [Option.some.inj found]
    · rename_i different
      rw [if_neg different] at found
      rw [inductionHypothesis found]

/-- In a map with distinct keys every value is found under its key. -/
theorem find?_of_mem (distinct : (keys entries).Nodup) (member : (.text name, value) ∈ entries) :
    find? (.text name) entries = some value := by
  induction entries with
  | nil => cases member
  | cons entry rest inductionHypothesis =>
    obtain ⟨key, old⟩ := entry
    obtain ⟨outside, others⟩ := List.nodup_cons.mp distinct
    rw [find?_cons]
    rcases List.mem_cons.mp member with same | later
    · cases same
      rw [if_pos rfl]
    · have different : key ≠ .text name := by
        rintro rfl
        exact outside (List.mem_map.mpr ⟨_, later, rfl⟩)
      rw [if_neg different, inductionHypothesis others later]

/-- A value that is found stands under its key. -/
theorem mem_of_find? (found : find? (.text name) entries = some value) :
    (.text name, value) ∈ entries := by
  induction entries with
  | nil => cases found
  | cons entry rest inductionHypothesis =>
    obtain ⟨key, old⟩ := entry
    rw [find?_cons] at found
    split at found
    · rename_i same
      rw [same, Option.some.inj found]
      exact List.mem_cons_self
    · exact List.mem_cons_of_mem _ (inductionHypothesis found)

/-- A key that is not one of the keys has no value. -/
theorem find?_eq_none (absent : .text name ∉ keys entries) :
    find? (.text name) entries = none := by
  induction entries with
  | nil => rfl
  | cons entry rest inductionHypothesis =>
    obtain ⟨key, old⟩ := entry
    obtain ⟨different, others⟩ := List.ne_and_not_mem_of_not_mem_cons absent
    rw [find?_cons, if_neg (Ne.symm different), inductionHypothesis others]

/-- In a map with distinct keys the value that is found under a text is the only one there. -/
theorem under_eq (distinct : (keys entries).Nodup) :
    under name entries = (find? (.text name) entries).toList := by
  induction entries with
  | nil => rfl
  | cons entry rest inductionHypothesis =>
    obtain ⟨key, value⟩ := entry
    obtain ⟨outside, others⟩ := List.nodup_cons.mp distinct
    rw [under_cons, find?_cons, inductionHypothesis others]
    split
    · rename_i same
      subst same
      rw [find?_eq_none outside]
      rfl
    · rfl

end Docblock.Value
