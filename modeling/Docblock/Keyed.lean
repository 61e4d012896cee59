import Docblock.Text.Basic

/-!
# Keyed lists

A map from texts to values that remembers in which order its keys were first
entered. A new value for a known key takes the place of the old one.
-/

namespace Docblock

/-- Values under text keys, in the order in which the keys were entered. -/
abbrev Keyed (α : Type) := List (Text × α)

namespace Keyed

variable {α : Type}

/-- The value of a key. -/
def find? (key : Text) : Keyed α → Option α
  | [] => none
  | (k, value) :: rest => if k = key then some value else find? key rest

/-- Whether a key is present. -/
def has (key : Text) (entries : Keyed α) : Bool := (find? key entries).isSome

/-- Enters a value, in the place of an earlier value of the same key. -/
def put (key : Text) (value : α) : Keyed α → Keyed α
  | [] => [(key, value)]
  | (k, old) :: rest =>
    if k = key then (k, value) :: rest else (k, old) :: put key value rest

/-- Enters a value unless the key is present. -/
def putNew (key : Text) (value : α) (entries : Keyed α) : Keyed α :=
  if has key entries then entries else entries ++ [(key, value)]

/-- The values in order. -/
def values (entries : Keyed α) : List α := entries.map (·.2)

/-- The keys in order. -/
def keys (entries : Keyed α) : List Text := entries.map (·.1)

/-- Looking up the key that was just entered gives the value entered. -/
theorem find?_put_same (key : Text) (value : α) (entries : Keyed α) :
    find? key (put key value entries) = some value := by
  induction entries with
  | nil => simp [put, find?]
  | cons entry rest inductionHypothesis =>
    obtain ⟨k, old⟩ := entry
    by_cases same : k = key <;> simp [put, find?, same, inductionHypothesis]

/-- Entering a value leaves the values of all other keys alone. -/
theorem find?_put_other (key other : Text) (value : α) (entries : Keyed α)
    (distinct : other ≠ key) :
    find? other (put key value entries) = find? other entries := by
  induction entries with
  | nil => simp [put, find?, Ne.symm distinct]
  | cons entry rest inductionHypothesis =>
    obtain ⟨k, old⟩ := entry
    by_cases same : k = key
    · subst same
      simp [put, find?, Ne.symm distinct]
    · simp [put, find?, same, inductionHypothesis]

/-- A key that is found keeps its value when entries are added at the end. -/
theorem find?_append_of_found {key : Text} {value : α} {entries : Keyed α}
    (found : find? key entries = some value) (more : Keyed α) :
    find? key (entries ++ more) = some value := by
  induction entries with
  | nil => simp [find?] at found
  | cons entry rest inductionHypothesis =>
    obtain ⟨k, old⟩ := entry
    by_cases same : k = key
    · simpa [find?, same] using found
    · have later : find? key rest = some value := by simpa [find?, same] using found
      simpa [find?, same] using inductionHypothesis later

/-- A key that is not found has the value that added entries give it. -/
theorem find?_append_of_absent {key : Text} {entries : Keyed α}
    (absent : find? key entries = none) (more : Keyed α) :
    find? key (entries ++ more) = find? key more := by
  induction entries with
  | nil => rfl
  | cons entry rest inductionHypothesis =>
    obtain ⟨k, old⟩ := entry
    by_cases same : k = key
    · simp [find?, same] at absent
    · have later : find? key rest = none := by simpa [find?, same] using absent
      simpa [find?, same] using inductionHypothesis later

/-- A new key goes to the end. -/
theorem put_of_absent {key : Text} {entries : Keyed α} (absent : find? key entries = none)
    (value : α) : put key value entries = entries ++ [(key, value)] := by
  induction entries with
  | nil => rfl
  | cons entry rest inductionHypothesis =>
    obtain ⟨k, old⟩ := entry
    by_cases same : k = key
    · simp [find?, same] at absent
    · have later : find? key rest = none := by simpa [find?, same] using absent
      simp [put, same, inductionHypothesis later]

/-- A key that is found is one of the keys. -/
theorem mem_keys_of_has {key : Text} {entries : Keyed α} (present : has key entries = true) :
    key ∈ keys entries := by
  induction entries with
  | nil => simp [has, find?] at present
  | cons entry rest inductionHypothesis =>
    obtain ⟨k, old⟩ := entry
    by_cases same : k = key
    · simp [keys, same]
    · have later : has key rest = true := by simpa [has, find?, same] using present
      exact List.mem_cons_of_mem k (inductionHypothesis later)

/-- A key is found when it is one of the keys. -/
theorem has_of_mem_keys {key : Text} {entries : Keyed α} (member : key ∈ keys entries) :
    has key entries = true := by
  induction entries with
  | nil => cases member
  | cons entry rest inductionHypothesis =>
    obtain ⟨k, value⟩ := entry
    by_cases same : k = key
    · simp [has, find?, same]
    · have later : key ∈ keys rest := (List.mem_cons.mp member).resolve_left (Ne.symm same)
      simpa [has, find?, same] using inductionHypothesis later

/-- A value that is found is stored under its key. -/
theorem mem_of_find? {key : Text} {value : α} {entries : Keyed α}
    (found : find? key entries = some value) : (key, value) ∈ entries := by
  induction entries with
  | nil => simp [find?] at found
  | cons entry rest inductionHypothesis =>
    obtain ⟨k, old⟩ := entry
    by_cases same : k = key
    · have equal : old = value := by simpa [find?, same] using found
      simp [same, equal]
    · have later : find? key rest = some value := by simpa [find?, same] using found
      exact List.mem_cons_of_mem (k, old) (inductionHypothesis later)

/-- In a map with distinct keys every value is found under its key. -/
theorem find?_of_mem {key : Text} {value : α} {entries : Keyed α}
    (distinct : (keys entries).Nodup) (member : (key, value) ∈ entries) :
    find? key entries = some value := by
  induction entries with
  | nil => cases member
  | cons entry rest inductionHypothesis =>
    obtain ⟨k, old⟩ := entry
    obtain ⟨outside, others⟩ := List.nodup_cons.mp distinct
    rcases List.mem_cons.mp member with same | later
    · cases same
      simp [find?]
    · have other : k ≠ key := by
        rintro rfl
        exact outside (List.mem_map.mpr ⟨(k, value), later, rfl⟩)
      simpa [find?, other] using inductionHypothesis others later

/-- Maps that hold the same entries under distinct keys have the same values. -/
theorem find?_of_perm {entries others : Keyed α} (distinct : (keys entries).Nodup)
    (same : others.Perm entries) (key : Text) : find? key others = find? key entries := by
  have sameKeys : (keys others).Perm (keys entries) := same.map Prod.fst
  have otherDistinct : (keys others).Nodup := sameKeys.nodup_iff.mpr distinct
  refine Option.ext fun value => ⟨fun found => ?_, fun found => ?_⟩
  · exact find?_of_mem distinct (same.mem_iff.mp (mem_of_find? found))
  · exact find?_of_mem otherDistinct (same.mem_iff.mpr (mem_of_find? found))

/-- The values after one was entered are that value and values that were there. -/
theorem mem_of_mem_put {key : Text} {value : α} {entries : Keyed α}
    {entry : Text × α} (member : entry ∈ put key value entries) :
    entry = (key, value) ∨ entry ∈ entries := by
  induction entries with
  | nil => exact .inl (List.mem_singleton.mp member)
  | cons first rest inductionHypothesis =>
    obtain ⟨known, old⟩ := first
    rw [put] at member
    split at member
    · rename_i same
      rcases List.mem_cons.mp member with new | later
      · rw [same] at new
        exact .inl new
      · exact .inr (List.mem_cons_of_mem _ later)
    · rcases List.mem_cons.mp member with kept | later
      · exact .inr (kept ▸ List.mem_cons_self)
      · rcases inductionHypothesis later with new | inside
        · exact .inl new
        · exact .inr (List.mem_cons_of_mem _ inside)

/-- Entering a value keeps keys distinct. -/
theorem nodup_keys_put (key : Text) (value : α) {entries : Keyed α}
    (distinct : (keys entries).Nodup) : (keys (put key value entries)).Nodup := by
  induction entries with
  | nil => simp [put, keys]
  | cons entry rest inductionHypothesis =>
    obtain ⟨known, old⟩ := entry
    obtain ⟨outside, others⟩ := List.nodup_cons.mp distinct
    rw [put]
    split
    · exact List.nodup_cons.mpr ⟨outside, others⟩
    · rename_i different
      refine List.nodup_cons.mpr ⟨fun inside => ?_, inductionHypothesis others⟩
      obtain ⟨⟨later, found⟩, member, same⟩ := List.mem_map.mp inside
      obtain rfl : later = known := same
      rcases mem_of_mem_put member with new | there
      · exact different (congrArg Prod.fst new)
      · exact outside (List.mem_map.mpr ⟨_, there, rfl⟩)

/-- The values of a keyed list whose values are changed are the changed values. -/
theorem find?_mapValues {β : Type} (change : α → β) (key : Text)
    (entries : Keyed α) :
    find? key (entries.map fun (name, value) => (name, change value)) =
      (find? key entries).map change := by
  induction entries with
  | nil => rfl
  | cons entry rest inductionHypothesis =>
    obtain ⟨name, value⟩ := entry
    by_cases same : name = key <;> simp [find?, same, inductionHypothesis]

/-- Changing the values leaves the keys alone. -/
theorem keys_mapValues {β : Type} (change : α → β) (entries : Keyed α) :
    keys (entries.map fun (name, value) => (name, change value)) = keys entries := by
  rw [keys, List.map_map]
  rfl

/-- The entries after one was entered are that entry and entries that were there. -/
theorem mem_of_mem_putNew {key : Text} {value : α} {entries : Keyed α}
    {entry : Text × α} (member : entry ∈ putNew key value entries) :
    entry = (key, value) ∨ entry ∈ entries := by
  rw [putNew] at member
  split at member
  · exact .inr member
  · rcases List.mem_append.mp member with inside | new
    · exact .inr inside
    · exact .inl (List.mem_singleton.mp new)

/-- Looking up a key after entering a value unless its key is present. -/
theorem find?_putNew (key other : Text) (value : α) (entries : Keyed α) :
    find? other (putNew key value entries) =
      (find? other entries).or (if other = key then some value else none) := by
  rw [putNew]
  cases found : find? other entries with
  | some known =>
    split
    · exact found
    · exact find?_append_of_found found _
  | none =>
    rw [Option.none_or]
    split
    · rename_i present
      have different : other ≠ key := by
        rintro rfl
        rw [has, found] at present
        cases present
      rw [if_neg different, found]
    · rw [find?_append_of_absent found]
      by_cases same : other = key
      · simp [find?, same]
      · simp [find?, same, Ne.symm same]

/-- Entering a new key keeps the entries. -/
theorem mem_putNew {key : Text} {value : α} {entries : Keyed α} {entry : Text × α}
    (member : entry ∈ entries) : entry ∈ putNew key value entries := by
  rw [putNew]
  split
  · exact member
  · exact List.mem_append_left _ member

/-- A map that was given an entry is not empty. -/
theorem put_ne_nil (key : Text) (value : α) (entries : Keyed α) : put key value entries ≠ [] := by
  intro empty
  have found := find?_put_same key value entries
  rw [empty] at found
  cases found

/-- The keys after a value was entered: a known key keeps its place, a new one is the last. -/
theorem keys_put (key : Text) (value : α) (entries : Keyed α) :
    keys (put key value entries) =
      if key ∈ keys entries then keys entries else keys entries ++ [key] := by
  induction entries with
  | nil => rfl
  | cons entry rest inductionHypothesis =>
    obtain ⟨known, old⟩ := entry
    by_cases same : known = key
    · simp [put, keys, same]
    · have later : keys (put key value ((known, old) :: rest)) =
          known :: keys (put key value rest) := by simp [put, keys, same]
      rw [later, inductionHypothesis]
      by_cases listed : key ∈ keys rest <;> simp_all [keys, eq_comm]

section Filter

variable {keep : Text → Bool} {key : Text}

/-- A key that is kept is found as before when others are left out. -/
theorem find?_filter (kept : keep key = true) (entries : Keyed α) :
    find? key (entries.filter (keep ·.1)) = find? key entries := by
  induction entries with
  | nil => rfl
  | cons entry rest inductionHypothesis =>
    obtain ⟨known, value⟩ := entry
    by_cases same : known = key
    · simp [find?, same, kept]
    · by_cases keeps : keep known <;> simp [find?, same, keeps, inductionHypothesis]

/-- Entering a value under a key that is kept, when others are left out. -/
theorem filter_put_kept (kept : keep key = true) (value : α) (entries : Keyed α) :
    (put key value entries).filter (keep ·.1) = put key value (entries.filter (keep ·.1)) := by
  induction entries with
  | nil => simp [put, kept]
  | cons entry rest inductionHypothesis =>
    obtain ⟨known, old⟩ := entry
    by_cases same : known = key
    · simp [put, same, kept]
    · by_cases keeps : keep known <;> simp [put, same, keeps, inductionHypothesis]

/-- Entering a value under a key that is left out. -/
theorem filter_put_dropped (dropped : keep key = false) (value : α) (entries : Keyed α) :
    (put key value entries).filter (keep ·.1) = entries.filter (keep ·.1) := by
  induction entries with
  | nil => simp [put, dropped]
  | cons entry rest inductionHypothesis =>
    obtain ⟨known, old⟩ := entry
    by_cases same : known = key
    · simp [put, same, dropped]
    · by_cases keeps : keep known <;> simp [put, same, keeps, inductionHypothesis]

end Filter

end Keyed
end Docblock
