import Docblock.Files.Tree

/-!
# Paths into a folder

A path to a folder can be made longer by the names that lead on from that folder, as long as
they lead through folders alone. What it leads to then is what the names lead to from the
folder, whatever links were followed to get to it. The names have to be those of a proper tree:
no folder holds two entries of one name or gives an entry a name that means a place already.
-/

namespace Docblock

namespace Entry

/-- Whether no folder of a tree holds a name twice, or one that means itself or the folder that
holds it. -/
inductive IsProper : Entry → Prop
  | file (bytes : List UInt8) : IsProper (.file bytes)
  | link (target : Text) : IsProper (.link target)
  | folder {entries : List (Text × Entry)} (distinct : (Keyed.keys entries).Nodup)
      (named : ∀ name ∈ Keyed.keys entries, name ≠ ['.'] ∧ name ≠ ['.', '.'])
      (inner : ∀ name entry, (name, entry) ∈ entries → IsProper entry) :
      IsProper (.folder entries)

variable {entries : List (Text × Entry)} {entry target : Entry} {name : Text}
  {names : List Text}

/-- What stands in a folder of a proper tree under a name that is no place already. -/
theorem IsProper.child (proper : IsProper (.folder entries))
    (found : Keyed.find? name entries = some entry) :
    (name ≠ ['.'] ∧ name ≠ ['.', '.']) ∧ entry.IsProper := by
  cases proper with
  | folder distinct named inner =>
    have member := Keyed.mem_of_find? found
    exact ⟨named name (List.mem_map.mpr ⟨_, member, rfl⟩), inner name entry member⟩

/-- Names lead on from where other names led to. -/
theorem at?_append (place names : List Text) (tree : Entry) :
    tree.at? (place ++ names) = (tree.at? place).bind (at? names) := by
  induction place generalizing tree with
  | nil => rfl
  | cons name rest inductionHypothesis =>
    rw [List.cons_append, at?, at?, Option.bind_assoc]
    exact Option.bind_congr fun inner _ => inductionHypothesis inner

/-- Only a folder has something under names. -/
theorem exists_child_of_at?_cons (reached : entry.at? (name :: names) = some target) :
    ∃ entries inner, entry = .folder entries ∧ Keyed.find? name entries = some inner ∧
      inner.at? names = some target := by
  obtain ⟨inner, child, later⟩ := Option.bind_eq_some_iff.mp reached
  cases entry with
  | file bytes => cases child
  | link text => cases child
  | folder entries => exact ⟨entries, inner, rfl, child, later⟩

end Entry

namespace Disk

variable {tree root target : Entry} {place reached names : List Text} {links : Nat}

/-- Further steps are followed from the place that was reached, though fewer links may be
left. The induction is on the steps as they are followed. -/
theorem follow_append {steps : List Text}
    (followed : follow tree true links place steps = .ok (.entry reached)) :
    ∃ left, ∀ more, follow tree true links place (steps ++ more) =
      follow tree true left reached more := by
  fun_induction follow tree true links place steps with
  | case1 links place =>
    cases followed
    exact ⟨links, fun more => rfl⟩
  | case2 links place rest entries here inductionHypothesis =>
    obtain ⟨left, onward⟩ := inductionHypothesis followed
    refine ⟨left, fun more => ?_⟩
    rw [List.cons_append, follow, here]
    exact onward more
  | case3 links place rest entries here other inductionHypothesis =>
    obtain ⟨left, onward⟩ := inductionHypothesis followed
    refine ⟨left, fun more => ?_⟩
    rw [List.cons_append, follow, here]
    exact onward more
  | case4 | case5 | case7 | case10 => cases followed
  | case6 links place name rest entries here notHere notAbove target found ended =>
    exact absurd ended.2 (by decide)
  | case8 place name rest entries here notHere notAbove target found goesOn fewer
      inductionHypothesis =>
    obtain ⟨left, onward⟩ := inductionHypothesis followed
    refine ⟨left, fun more => ?_⟩
    rw [List.cons_append, follow, here]
    simp only [if_neg notHere, if_neg notAbove, found, reduceCtorEq, and_false, if_false]
    rw [← List.append_assoc]
    exact onward more
  | case9 links place name rest entries here notHere notAbove entry solid found
      inductionHypothesis =>
    obtain ⟨left, onward⟩ := inductionHypothesis followed
    refine ⟨left, fun more => ?_⟩
    rw [List.cons_append, follow_into here ⟨notHere, notAbove⟩ found solid]
    exact onward more

/-- Names that lead from a folder of a proper tree to something other than a link are followed
without any link. -/
theorem follow_names (here : tree.at? place = some root) (proper : root.IsProper)
    (found : root.at? names = some target) (solid : ∀ text, target ≠ .link text) :
    follow tree true links place names = .ok (.entry (place ++ names)) := by
  induction names generalizing place root with
  | nil => rw [follow_nil, List.append_nil]
  | cons name rest inductionHypothesis =>
    obtain ⟨entries, inner, rfl, child, later⟩ := Entry.exists_child_of_at?_cons found
    obtain ⟨named, properInner⟩ := proper.child child
    have solidInner : ∀ text, inner ≠ .link text := by
      rintro text rfl
      cases rest with
      | nil => exact solid text (Option.some.inj later).symm
      | cons next more => cases later
    have there : tree.at? (place ++ [name]) = some inner := by
      rw [Entry.at?_append, here]
      simp [Entry.at?, Entry.child?, child]
    rw [follow_into here named child solidInner, inductionHypothesis there properInner later,
      List.append_assoc, List.singleton_append]

/-- What a path with further names behind it leads to is what the names lead to from there. -/
theorem entry_below {disk : Disk} {path : Path} (there : disk.entry path = .ok root)
    (proper : root.IsProper) (found : root.at? names = some target)
    (solid : ∀ text, target ≠ .link text) : disk.entry (path.below names) = .ok target := by
  rw [entry] at there
  split at there
  · rename_i place located
    split at there
    · rename_i known here
      cases there
      obtain ⟨left, onward⟩ := follow_append located
      have further : disk.locate (path.below names) = .ok (.entry (place ++ names)) :=
        (onward names).trans (follow_names here proper found solid)
      rw [entry, further]
      simp only [Entry.at?_append, here, Option.bind_some, found]
    · cases there
  · cases there
  · cases there

/-- The path without names leads to the folder that a tree is, where that is the current one. -/
theorem entry_root (entries : List (Text × Entry)) :
    ({ tree := .folder entries } : Disk).entry {} = .ok (.folder entries) := by
  have reached : ({ tree := .folder entries } : Disk).locate {} = .ok (.entry []) :=
    follow_nil _ _ _ _
  rw [entry, reached]
  rfl

end Disk
end Docblock
