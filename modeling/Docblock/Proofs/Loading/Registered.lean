import Docblock.Proofs.Files.Paths
import Docblock.Loading
import Docblock.Proofs.Registry.Additions
import Docblock.Proofs.Registry.Keyed

/-!
# What loading registers

Whatever is loaded, the entries of the registry stay in their places, and every
declaration that was found is registered under its name: either it was added, or the
name was taken before. Files that are passed over and duplicate declarations make no
exception. Whether a name leads to its declaration is another matter, because names
are looked up in their clean form.
-/

namespace Docblock

open Source

namespace Registry

/-- What loading does to a registry when it finds some declarations. -/
structure Gains (before : Registry) (found : List Declaration) (after : Registry) : Prop where
  kept : before.entries <+: after.entries
  keyed : before.IsKeyed → after.IsKeyed
  registered : ∀ declaration ∈ found, after.registers declaration.name = true

/-- A registered name stays registered. -/
theorem registers_of_prefix {before after : Registry} (kept : before.entries <+: after.entries)
    {name : Text} (present : before.registers name = true) : after.registers name = true := by
  obtain ⟨more, extended⟩ := kept
  obtain ⟨raw, found⟩ := Option.isSome_iff_exists.mp present
  rw [registers, Keyed.has, ← extended, Keyed.find?_append_of_found found]
  rfl

namespace Gains

/-- Nothing is found and nothing changes. -/
theorem refl (registry : Registry) : Gains registry [] registry where
  kept := List.prefix_refl _
  keyed := id
  registered := by simp

/-- What is found first stays registered when more is found. -/
theorem trans {before between after : Registry} {found more : List Declaration}
    (first : Gains before found between) (second : Gains between more after) :
    Gains before (found ++ more) after where
  kept := first.kept.trans second.kept
  keyed := second.keyed ∘ first.keyed
  registered := by
    intro declaration member
    rcases List.mem_append.mp member with early | late
    · exact registers_of_prefix second.kept (first.registered declaration early)
    · exact second.registered declaration late

/-- An added declaration is registered. -/
theorem add (registry : Registry) (declaration : Declaration) :
    Gains registry [declaration] (registry.add declaration).1 where
  kept := by
    rw [entries_add]
    exact List.prefix_append _ _
  keyed := fun keyed => keyed.add declaration
  registered := by
    intro other member
    rw [List.mem_singleton.mp member, registers, Keyed.has, find?_entries_add, if_pos rfl,
      Option.isSome_or, Option.isSome_some, Bool.or_true]

/-- All added declarations are registered. -/
theorem addAll (registry : Registry) (declarations : List Declaration) :
    Gains registry declarations (registry.addAll declarations).1 := by
  rw [fst_addAll]
  induction declarations generalizing registry with
  | nil => exact refl registry
  | cons declaration rest inductionHypothesis =>
    exact (add registry declaration).trans (inductionHypothesis (registry.add declaration).1)

end Gains
end Registry

namespace Loading

open Registry

/-- A file that is loaded has all its declarations registered. -/
theorem loadFile_gains {reader : DocumentReader} {disk : Disk} {path : Path}
    {state after : Loading} {found : List Declaration}
    (loaded : loadFile reader disk path state = (.ok found, after)) :
    Gains state.registry found after.registry := by
  unfold loadFile at loaded
  split at loaded
  · cases loaded
    exact Gains.addAll state.registry found
  · split at loaded
    · cases loaded
      exact Gains.refl state.registry
    · cases loaded

/-- Files that are loaded have all their declarations registered. The induction is on
the files; what the first of them holds stays registered while the others are loaded. -/
theorem loadFiles_gains {reader : DocumentReader} {disk : Disk} {paths : List Path}
    {state after : Loading} {found : List Declaration}
    (loaded : loadFiles reader disk paths state = (.ok found, after)) :
    Gains state.registry found after.registry := by
  induction paths generalizing state found with
  | nil =>
    cases loaded
    exact Gains.refl _
  | cons path rest inductionHypothesis =>
    rw [loadFiles] at loaded
    rcases first : loadFile reader disk path state with ⟨failure | early, next⟩
    · rw [first] at loaded
      cases loaded
    · rw [first] at loaded
      simp only at loaded
      rcases others : loadFiles reader disk rest next with ⟨failure | late, last⟩
      · rw [others] at loaded
        cases loaded
      · rw [others] at loaded
        cases loaded
        exact (loadFile_gains first).trans (inductionHypothesis others)

/-- A path that is loaded has all its declarations registered. -/
theorem loadPath_gains {reader : DocumentReader} {disk : Disk} {ignored : List Text}
    {path : Path} {state after : Loading} {found : List Declaration}
    (loaded : loadPath reader disk ignored path state = (.ok found, after)) :
    Gains state.registry found after.registry := by
  unfold loadPath at loaded
  split at loaded
  · split at loaded
    · exact loadFiles_gains loaded
    · cases loaded
  · exact loadFile_gains loaded

end Loading

/-- A disk with one file in the current folder. -/
def Disk.holding (name content : Text) : Disk :=
  { tree := .folder [(name, .file (Text.Utf8.encode content))] }

namespace Disk

variable (name content : Text)

/-- The current folder of a disk with one file. -/
theorem entry_current :
    (holding name content).entry {} = .ok (.folder [(name, .file (Text.Utf8.encode content))]) :=
  entry_root _

/-- The file of a disk with one file. -/
theorem bytes_holding {name : Text} (proper : name ≠ ['.'] ∧ name ≠ ['.', '.']) :
    (holding name content).bytes { names := [name] } = .ok (Text.Utf8.encode content) := by
  have found : Keyed.find? name [(name, Entry.file (Text.Utf8.encode content))] =
      some (.file (Text.Utf8.encode content)) := by simp [Keyed.find?]
  have reached : (holding name content).locate { names := [name] } = .ok (.entry [name]) :=
    (follow_into rfl proper found (by simp)).trans (follow_nil _ _ _ _)
  have there : (holding name content).entry { names := [name] } =
      .ok (.file (Text.Utf8.encode content)) := by
    rw [entry, reached]
    simp [holding, Entry.at?, Entry.child?, found]
  rw [bytes, there]

/-- The text of a disk with one file, if it reads as it was written. -/
theorem text_holding {name content : Text} (proper : name ≠ ['.'] ∧ name ≠ ['.', '.'])
    (plain : (Text.Utf8.decode? (Text.Utf8.encode content)).map Text.unifyNewlines =
      some content) :
    (holding name content).text { names := [name] } = .ok content := by
  obtain ⟨decoded, read, unified⟩ := Option.map_eq_some_iff.mp plain
  rw [text, bytes_holding content proper]
  simp only [Except.bind, read, unified]

end Disk
end Docblock
