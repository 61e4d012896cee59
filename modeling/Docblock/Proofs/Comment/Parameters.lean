import Docblock.Comment.Tags
import Docblock.Proofs.Text.Ends

/-!
# The documented parameters of a comment

A comment documents each parameter once: a second line for a parameter takes the place of
the first one. The name of a documented parameter is the one under which it is kept. It is
what stands in a word of its line before an equals sign, without the marks in front, and the
default is what stands behind the sign.

Nothing is said about types and descriptions.
-/

namespace Docblock.Comment

variable {builtIns : List Text} {scope : Scope}

/-- Name and default of a documented parameter are parts of one word: neither is empty nor holds
white space, and the name has no marks in front and no equals sign. -/
structure ParameterTag.IsSound (entry : ParameterTag) : Prop where
  nonempty : entry.name ≠ []
  visible : ∀ c ∈ entry.name, Text.isBlank c = false
  undivided : '=' ∉ entry.name
  unmarked : ∀ c, entry.name.head? = some c → isParameterMark c = false
  default : ∀ text, entry.default = some text →
    text ≠ [] ∧ ∀ c ∈ text, Text.isBlank c = false

/-- A documented parameter with all its texts trimmed. -/
def ParameterTag.trimmed (entry : ParameterTag) : ParameterTag where
  name := Text.trim entry.name
  type := Text.trim entry.type
  description := Text.trim entry.description
  default := entry.default.map Text.trim

/-- Documented parameters with all their texts trimmed, under the same keys. -/
def trimmedEntries (entries : Keyed ParameterTag) : Keyed ParameterTag :=
  entries.map fun (key, entry) => (key, entry.trimmed)

/-- Documented parameters are kept under their names, which are different. -/
structure AreDocumented (entries : Keyed ParameterTag) : Prop where
  distinct : (Keyed.keys entries).Nodup
  named : ∀ entry ∈ entries, entry.2.name = entry.1
  sound : ∀ entry ∈ entries, entry.2.IsSound

/-- The name and the default of a parameter are the two sides of the equals sign in a word of
its line, behind the marks in front. -/
theorem parameterOf?_eq_some {words : List Text} {entry : ParameterTag}
    (read : parameterOf? builtIns scope words = some entry) :
    ∃ word ∈ words, Text.before '=' (word.dropWhile isParameterMark) ≠ [] ∧
      entry.name = Text.before '=' (word.dropWhile isParameterMark) ∧
      (entry.default = none ∨ Text.after '=' (word.dropWhile isParameterMark) ≠ [] ∧
        entry.default = some (Text.after '=' (word.dropWhile isParameterMark))) := by
  have defaults (written : Text) : (if written = [] then none else some written) = none ∨
      written ≠ [] ∧ (if written = [] then none else some written) = some written := by
    split
    · exact .inl rfl
    · rename_i filled
      exact .inr ⟨filled, rfl⟩
  unfold parameterOf? at read
  split at read
  · rename_i tag first rest
    split at read
    · simp only [Option.ite_none_left_eq_some, Option.some.injEq] at read
      obtain ⟨filled, rfl⟩ := read
      exact ⟨first, by simp, filled, rfl, defaults _⟩
    · split at read
      · rename_i name description
        simp only [Option.ite_none_left_eq_some, Option.some.injEq] at read
        obtain ⟨filled, rfl⟩ := read
        exact ⟨name, by simp, filled, rfl, defaults _⟩
      · cases read
  · cases read

/-- A parameter that a line documents is sound. -/
theorem isSound_of_parameterOf? {line : Text} {entry : ParameterTag}
    (read : parameterOf? builtIns scope (Text.words line) = some entry) : entry.IsSound := by
  obtain ⟨word, listed, filled, name, written⟩ := parameterOf?_eq_some read
  have visible : ∀ c ∈ word.dropWhile isParameterMark, Text.isBlank c = false := fun c inside =>
    Text.visible_of_mem_words listed c ((List.dropWhile_sublist _).subset inside)
  constructor
  · rwa [name]
  · rw [name]
    exact fun c inside => visible c ((List.takeWhile_sublist _).subset inside)
  · rw [name, Text.before]
    intro inside
    simpa using List.mem_takeWhile_imp inside
  · intro c front
    rw [name, Text.before, List.head?_takeWhile, Option.filter_eq_some_iff] at front
    exact Text.head?_dropWhile front.1
  · intro text given
    rcases written with absent | ⟨filled, written⟩
    · rw [absent] at given
      cases given
    · obtain rfl := Option.some.inj (written.symm.trans given)
      refine ⟨filled, fun c inside => visible c ?_⟩
      exact (List.dropWhile_sublist _).subset (List.mem_of_mem_drop inside)

/-- Trimming leaves name and default of a sound parameter alone. -/
theorem ParameterTag.IsSound.trimmed {entry : ParameterTag} (sound : entry.IsSound) :
    entry.trimmed.name = entry.name ∧ entry.trimmed.IsSound := by
  have name : entry.trimmed.name = entry.name := Text.trim_eq_self sound.visible
  refine ⟨name, ?_⟩
  constructor
  · rw [name]
    exact sound.nonempty
  · rw [name]
    exact sound.visible
  · rw [name]
    exact sound.undivided
  · rw [name]
    exact sound.unmarked
  · intro text given
    obtain ⟨written, there, rfl⟩ := Option.map_eq_some_iff.mp given
    obtain ⟨filled, visible⟩ := sound.default written there
    rw [Text.trim_eq_self visible]
    exact ⟨filled, visible⟩

/-- No parameters are documented. -/
theorem areDocumented_nil : AreDocumented [] :=
  ⟨List.nodup_nil, by simp, by simp⟩

/-- One more sound parameter may be kept under its name. -/
theorem AreDocumented.put {entries : Keyed ParameterTag} (documented : AreDocumented entries)
    {entry : ParameterTag} (sound : entry.IsSound) :
    AreDocumented (Keyed.put entry.name entry entries) where
  distinct := Keyed.nodup_keys_put _ _ documented.distinct
  named := by
    intro other member
    rcases Keyed.mem_of_mem_put member with rfl | there
    · rfl
    · exact documented.named other there
  sound := by
    intro other member
    rcases Keyed.mem_of_mem_put member with rfl | there
    · exact sound
    · exact documented.sound other there

/-- Documented parameters may all be trimmed. -/
theorem AreDocumented.trimmed {entries : Keyed ParameterTag} (documented : AreDocumented entries) :
    AreDocumented (trimmedEntries entries) where
  distinct := by
    rw [trimmedEntries, Keyed.keys_mapValues]
    exact documented.distinct
  named := by
    intro other member
    obtain ⟨entry, there, rfl⟩ := List.mem_map.mp member
    exact (documented.sound entry there).trimmed.1.trans (documented.named entry there)
  sound := by
    intro other member
    obtain ⟨entry, there, rfl⟩ := List.mem_map.mp member
    exact (documented.sound entry there).trimmed.2

/-- The names of documented parameters are their keys. -/
theorem AreDocumented.names_eq {entries : Keyed ParameterTag}
    (documented : AreDocumented entries) :
    (Keyed.values entries).map (·.name) = Keyed.keys entries := by
  rw [Keyed.values, List.map_map]
  exact List.map_congr_left documented.named

end Docblock.Comment
