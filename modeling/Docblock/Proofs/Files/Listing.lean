import Docblock.Files.Sources
import Docblock.Proofs.Files.Paths
import Docblock.Proofs.Text.Order

/-!
# The sources of a folder

The listing of a folder holds exactly the files below it that are source code or manifests and
stand in open folders: neither hidden nor ignored, and not behind a link. Each of them is listed
once, and the listing is in the order of the names that lead to them from that folder, name by
name, a name by its code points. So a folder comes before a file whose name goes on where the
name of the folder ends, whatever stands in it.

The file tree has to be proper. How the folder itself was reached does not matter: links may
lead to it, and it may be hidden or have an ignored name.
-/

namespace Docblock.Files

variable {patterns : List Text} {name : Text}

/-- A folder with a name is open: the name starts with no dot and ends with none of the
patterns, without the white space around them. A pattern of white space says nothing. -/
structure IsOpen (patterns : List Text) (name : Text) : Prop where
  shown : name.head? ≠ some '.'
  kept : ∀ pattern ∈ patterns, Text.trim pattern ≠ [] → ¬Text.trim pattern <:+ name

/-- The folders that are visited are the open ones. -/
theorem isVisited_iff : isVisited patterns name = true ↔ IsOpen patterns name := by
  have ignored : isIgnored patterns name = false ↔
      ∀ pattern ∈ patterns, Text.trim pattern ≠ [] → ¬Text.trim pattern <:+ name := by
    simp [isIgnored]
  rw [isVisited, Bool.and_eq_true, bne_iff_ne, Bool.not_eq_true', ignored]
  exact ⟨fun both => ⟨both.1, both.2⟩, fun both => ⟨both.shown, both.kept⟩⟩

/-- A folder without a name would be open. -/
theorem isOpen_nil : IsOpen patterns [] where
  shown := by simp
  kept := fun _ _ given ends => given (List.suffix_nil.mp ends)

/-- Whether names lead from a folder, which stands at a path, to a source: through folders, all
of them open, to a file that is source code by its ending or a manifest. -/
structure IsSourceBelow (disk : Disk) (patterns : List Text) (path : Path) (root : Entry)
    (names : List Text) : Prop where
  reached : ∃ bytes, root.at? names = some (.file bytes)
  inOpen : ∀ folder ∈ names.dropLast, IsOpen patterns folder
  kind : Text.lower (path.below names).suffix = ".php".toList ∨
    isManifest disk (path.below names) = .ok true

section Membership

variable {entries : List (Text × Entry)} {names rest : List Text}

/-- The names in an ordered listing start with the name of an entry and go on with names that
lead on from it. -/
theorem mem_inOrder {found : List (Text × List (List Text))} :
    names ∈ inOrder found ↔
      ∃ name group rest, (name, group) ∈ found ∧ rest ∈ group ∧ names = name :: rest := by
  simp only [inOrder, List.mem_flatMap, List.mem_mergeSort, List.mem_map, Prod.exists]
  constructor
  · rintro ⟨name, group, listed, rest, member, rfl⟩
    exact ⟨name, group, rest, listed, member, rfl⟩
  · rintro ⟨name, group, rest, listed, member, rfl⟩
    exact ⟨name, group, listed, rest, member, rfl⟩

/-- The sources among entries are those of each of them. -/
theorem sourcesAmong_eq (patterns : List Text) (entries : List (Text × Entry)) :
    sourcesAmong patterns entries =
      entries.map fun (name, entry) => (name, sourcesOf patterns name entry) := by
  induction entries with
  | nil => rfl
  | cons entry rest inductionHypothesis =>
    rw [sourcesAmong, inductionHypothesis, List.map_cons]

/-- The names of entries stay with their sources. -/
theorem keys_sourcesAmong (patterns : List Text) (entries : List (Text × Entry)) :
    Keyed.keys (sourcesAmong patterns entries) = Keyed.keys entries := by
  rw [sourcesAmong_eq, Keyed.keys, List.map_map]
  rfl

/-- What is listed of entries leads to one of them by its name and on to one of its sources. -/
theorem mem_inOrder_sourcesAmong (distinct : (Keyed.keys entries).Nodup) :
    names ∈ inOrder (sourcesAmong patterns entries) ↔
      ∃ name rest entry, names = name :: rest ∧ Keyed.find? name entries = some entry ∧
        rest ∈ sourcesOf patterns name entry := by
  rw [mem_inOrder, sourcesAmong_eq]
  constructor
  · rintro ⟨name, group, rest, listed, member, rfl⟩
    obtain ⟨⟨known, entry⟩, inside, same⟩ := List.mem_map.mp listed
    cases same
    exact ⟨name, rest, entry, rfl, Keyed.find?_of_mem distinct inside, member⟩
  · rintro ⟨name, rest, entry, rfl, found, member⟩
    exact ⟨name, _, rest, List.mem_map.mpr ⟨_, Keyed.mem_of_find? found, rfl⟩, member, rfl⟩

/-- What is listed of an entry with a name leads to a file. The folders on the way are open,
the entry itself among them if it is one, and the file is a source. The induction is on the
proper tree. -/
theorem mem_sourcesOf {entry : Entry} (proper : entry.IsProper) (name : Text) :
    rest ∈ sourcesOf patterns name entry ↔
      ∃ bytes, entry.at? rest = some (.file bytes) ∧
        (∀ folder ∈ (name :: rest).dropLast, IsOpen patterns folder) ∧
        isSource ((name :: rest).getLast (List.cons_ne_nil name rest)) bytes = true := by
  induction proper generalizing name rest with
  | file bytes =>
    cases rest with
    | nil => simp [sourcesOf, Entry.at?]
    | cons next more => simp [sourcesOf, Entry.at?, Entry.child?]
  | link target =>
    cases rest with
    | nil => simp [sourcesOf, Entry.at?]
    | cons next more => simp [sourcesOf, Entry.at?, Entry.child?]
  | @folder entries distinct named inner inductionHypothesis =>
    have listed : rest ∈ sourcesOf patterns name (.folder entries) ↔
        IsOpen patterns name ∧ rest ∈ inOrder (sourcesAmong patterns entries) := by
      rw [sourcesOf]
      by_cases visited : isVisited patterns name
      · rw [if_pos visited, and_iff_right (isVisited_iff.mp visited)]
      · rw [if_neg visited]
        exact iff_of_false (List.not_mem_nil) fun both => visited (isVisited_iff.mpr both.1)
    rw [listed, mem_inOrder_sourcesAmong distinct]
    cases rest with
    | nil => simp [Entry.at?]
    | cons next more =>
      constructor
      · rintro ⟨isOpen, _, _, entry, same, found, member⟩
        cases same
        have within := inner next entry (Keyed.mem_of_find? found)
        obtain ⟨bytes, reached, openInside, isSource⟩ :=
          (inductionHypothesis next entry (Keyed.mem_of_find? found) next).mp member
        refine ⟨bytes, ?_, List.forall_mem_cons.mpr ⟨isOpen, openInside⟩, isSource⟩
        rw [Entry.at?, Entry.child?, found, Option.bind_some, reached]
      · rintro ⟨bytes, reached, openAll, isSource⟩
        obtain ⟨_, entry, same, found, later⟩ := Entry.exists_child_of_at?_cons reached
        cases same
        obtain ⟨isOpen, openInside⟩ := List.forall_mem_cons.mp openAll
        refine ⟨isOpen, next, more, entry, rfl, found, ?_⟩
        exact (inductionHypothesis next entry (Keyed.mem_of_find? found) next).mpr
          ⟨bytes, later, openInside, isSource⟩

end Membership

section Order

/-- Listings are put into the order of the names that lead to their sources when no two of them
have the same name. -/
theorem pairwise_inOrder {found : List (Text × List (List Text))}
    (distinct : (Keyed.keys found).Nodup)
    (ordered : ∀ name group, (name, group) ∈ found → group.Pairwise (· < ·)) :
    (inOrder found).Pairwise (· < ·) := by
  rw [inOrder, List.pairwise_flatMap]
  constructor
  · rintro ⟨name, group⟩ listed
    have inside := ordered name group (List.mem_mergeSort.mp listed)
    exact List.pairwise_map.mpr
      (inside.imp fun smaller => List.cons_lt_cons_iff.mpr (.inr ⟨rfl, smaller⟩))
  · refine (Keyed.pairwise_mergeSort distinct).imp fun {a b} smaller => ?_
    intro names first others second
    obtain ⟨rest, -, rfl⟩ := List.mem_map.mp first
    obtain ⟨more, -, rfl⟩ := List.mem_map.mp second
    exact List.cons_lt_cons_iff.mpr (.inl smaller)

/-- The sources that an entry of a proper tree leads to are listed in their order. -/
theorem pairwise_sourcesOf {entry : Entry} (proper : entry.IsProper) (name : Text) :
    (sourcesOf patterns name entry).Pairwise (· < ·) := by
  induction proper generalizing name with
  | file bytes =>
    rw [sourcesOf]
    split
    · exact List.pairwise_singleton _ _
    · exact .nil
  | link target => exact .nil
  | @folder entries distinct named inner inductionHypothesis =>
    rw [sourcesOf]
    split
    · refine pairwise_inOrder (by rwa [keys_sourcesAmong]) fun next group listed => ?_
      rw [sourcesAmong_eq] at listed
      obtain ⟨⟨known, entry⟩, inside, same⟩ := List.mem_map.mp listed
      cases same
      exact inductionHypothesis next entry inside next
    · exact .nil

end Order

section Folder

variable {disk : Disk} {path : Path} {entries : List (Text × Entry)}

/-- A file with its bytes at a path is a source by the ending of the path or as a manifest. -/
theorem isSource_iff {names : List Text} (nonempty : names ≠ []) {bytes : List UInt8}
    (holds : disk.bytes (path.below names) = .ok bytes) :
    isSource (names.getLast nonempty) bytes = true ↔
      Text.lower (path.below names).suffix = ".php".toList ∨
        isManifest disk (path.below names) = .ok true := by
  have last : (path.below names).names.getLast?.getD [] = names.getLast nonempty := by
    rw [Path.below, List.getLast?_append_of_ne_nil _ nonempty,
      List.getLast?_eq_some_getLast nonempty,
      Option.getD_some]
  have manifest : isManifest disk (path.below names) = .ok true ↔
      isDocumentName (names.getLast nonempty) = true ∧ startsManifest bytes = true := by
    rw [isManifest, last, holds]
    cases isDocumentName (names.getLast nonempty) <;> simp [Except.map]
  rw [manifest, Path.suffix, last, isSource, Bool.or_eq_true, Bool.and_eq_true, decide_eq_true_eq]

/-- The bytes of a file below a folder are those at the path with its names behind it. -/
theorem bytes_below {names : List Text} {bytes : List UInt8}
    (there : disk.entry path = .ok (.folder entries)) (proper : (Entry.folder entries).IsProper)
    (below : (Entry.folder entries).at? names = some (.file bytes)) :
    disk.bytes (path.below names) = .ok bytes := by
  rw [Disk.bytes, Disk.entry_below there proper below (by simp)]

/-- The folder itself is listed like an entry without a name, which is open. -/
theorem sources_eq (there : disk.entry path = .ok (.folder entries)) :
    sources disk patterns path =
      .ok ((sourcesOf patterns [] (.folder entries)).map path.below) := by
  rw [sources, there, sourcesOf, if_pos (isVisited_iff.mpr isOpen_nil)]

/-- The sources of a folder on a disk are exactly the files below it that are source code or
manifests and stand in open folders, each listed once, in the order of the names that lead to
them from that folder. -/
theorem sources_listed (there : disk.entry path = .ok (.folder entries))
    (proper : (Entry.folder entries).IsProper) :
    ∃ found : List (List Text), sources disk patterns path = .ok (found.map path.below) ∧
      (∀ names, names ∈ found ↔ IsSourceBelow disk patterns path (.folder entries) names) ∧
      found.Nodup ∧ found.Pairwise (· < ·) := by
  have ordered : (sourcesOf patterns [] (.folder entries)).Pairwise (· < ·) :=
    pairwise_sourcesOf proper []
  refine ⟨_, sources_eq there, fun names => ?_, ordered.imp fun smaller => smaller.ne, ordered⟩
  rw [mem_sourcesOf proper]
  cases names with
  | nil =>
    refine iff_of_false ?_ fun source => ?_
    · rintro ⟨bytes, reached, -⟩
      cases reached
    · obtain ⟨bytes, reached⟩ := source.reached
      cases reached
  | cons name rest =>
    have openAll : (∀ folder ∈ ([] :: name :: rest).dropLast, IsOpen patterns folder) ↔
        ∀ folder ∈ (name :: rest).dropLast, IsOpen patterns folder := by
      rw [List.dropLast_cons_cons, List.forall_mem_cons, and_iff_right isOpen_nil]
    rw [openAll]
    constructor
    · rintro ⟨bytes, reached, inOpen, isSource⟩
      have holds := bytes_below there proper reached
      have source := (isSource_iff (List.cons_ne_nil name rest) holds).mp isSource
      exact ⟨⟨bytes, reached⟩, inOpen, source⟩
    · rintro ⟨⟨bytes, reached⟩, inOpen, kind⟩
      have holds := bytes_below there proper reached
      exact ⟨bytes, reached, inOpen, (isSource_iff (List.cons_ne_nil name rest) holds).mpr kind⟩

end Folder

/-- The entry of a file with a text. -/
def fileOf (name content : String) : Text × Entry :=
  (name.toList, .file (Text.Utf8.encode content.toList))

/-- A folder with sources and whatever is passed over: a link, a hidden folder, a folder whose
name ends with the word for ignored ones, a document that is no manifest and a text. The name
of a source goes on where that of a folder ends. -/
def mixedEntries : List (Text × Entry) :=
  [fileOf "lib.PHP" "<?php",
    ("lib".toList, .folder [fileOf "b.php" "<?php", fileOf "B.php" "<?php", fileOf "b.md" "b"]),
    fileOf "sigs.yaml" "### PHPDocsMD:Signatures\ntypes: []\n",
    fileOf "config.yml" "visibility: [public]\n",
    ("link".toList, .link "lib".toList),
    (".git".toList, .folder [fileOf "hook.php" "<?php"]),
    ("old-vendor".toList, .folder [fileOf "a.php" "<?php"])]

/-- The listing of that folder, as the current folder. A source of the open folder is in it,
and one of the folder that is ignored is not. -/
theorem mixedEntries_listed :
    let disk : Disk := { tree := .folder mixedEntries }
    let patterns := [[' '], " vendor ".toList]
    disk.entry {} = .ok (.folder mixedEntries) ∧ (Entry.folder mixedEntries).IsProper ∧
    ∃ found : List (List Text), sources disk patterns {} = .ok (found.map (Path.below {})) ∧
      (∀ names, names ∈ found ↔ IsSourceBelow disk patterns {} (.folder mixedEntries) names) ∧
      found.Nodup ∧ found.Pairwise (· < ·) ∧
      ["lib".toList, "B.php".toList] ∈ found ∧ ["old-vendor".toList, "a.php".toList] ∉ found := by
  intro disk patterns
  have there : disk.entry {} = .ok (.folder mixedEntries) := Disk.entry_root _
  have filled {files : List (String × String)}
      (distinct : (Keyed.keys (files.map fun file => fileOf file.1 file.2)).Nodup)
      (named : ∀ name ∈ Keyed.keys (files.map fun file => fileOf file.1 file.2),
        name ≠ ['.'] ∧ name ≠ ['.', '.']) :
      (Entry.folder (files.map fun file => fileOf file.1 file.2)).IsProper := by
    refine .folder distinct named fun name entry member => ?_
    obtain ⟨file, -, same⟩ := List.mem_map.mp member
    cases same
    exact .file _
  have proper : (Entry.folder mixedEntries).IsProper := by
    refine .folder (by decide) (by decide) fun name entry member => ?_
    simp only [mixedEntries, List.mem_cons, List.not_mem_nil, or_false, Prod.mk.injEq] at member
    rcases member with file | ⟨-, rfl⟩ | file | file | ⟨-, rfl⟩ | ⟨-, rfl⟩ | ⟨-, rfl⟩
    · cases file
      exact .file _
    · exact @filled [("b.php", "<?php"), ("B.php", "<?php"), ("b.md", "b")] (by decide) (by decide)
    · cases file
      exact .file _
    · cases file
      exact .file _
    · exact .link _
    · exact @filled [("hook.php", "<?php")] (by decide) (by decide)
    · exact @filled [("a.php", "<?php")] (by decide) (by decide)
  obtain ⟨found, listed, exactly, once, ordered⟩ := sources_listed there proper
  refine ⟨there, proper, found, listed, exactly, once, ordered, (exactly _).mpr ?_,
    fun member => ?_⟩
  · exact ⟨⟨_, rfl⟩, by simpa using isVisited_iff.mp (by decide), .inl (by decide +kernel)⟩
  · have isOpen := ((exactly _).mp member).inOpen "old-vendor".toList (by decide)
    exact absurd (isVisited_iff.mpr isOpen) (by decide)

end Docblock.Files
