import Docblock.Proofs.Links.Anchors
import Mathlib.Data.List.Induction
import Mathlib.Data.List.Nodup
import Mathlib.Data.List.Perm.Subperm

/-!
# Numbered anchors

A slug keeps neither case nor separators nor punctuation, so any number of types may share
one, and the numbered form of one slug may be the slug of another type. The search for an
anchor is told here round by round, without a bound on the rounds. It ends for every type of
a document, since only so many anchors are in use and numbers make different forms, and it
ends with the first form that no earlier type has. So no two types share an anchor.

Names that differ are assumed, as those of the types in a document do.
-/

namespace Docblock.Document

open Documented

/-- The form of a slug with a number behind it. -/
def numberedAnchor (slug : Text) (n : Nat) : Text := slug ++ '-' :: Text.ofNat n

/-- The search for an anchor, from one that is tried and the number that comes next. An anchor
that is taken is given up for the form with that number; one that is not is the answer. -/
inductive Settles (taken : Text → Prop) (slug : Text) : Text → Nat → Text → Prop
  | new {anchor : Text} {next : Nat} (free : ¬taken anchor) : Settles taken slug anchor next anchor
  | onward {anchor answer : Text} {next : Nat} (held : taken anchor)
      (later : Settles taken slug (numberedAnchor slug next) (next + 1) answer) :
      Settles taken slug anchor next answer

/-- The first new anchor for a slug: the slug itself unless it is taken, and else its form with
the least number from two on that is not taken. -/
structure IsFirstNew (taken : Text → Prop) (slug anchor : Text) : Prop where
  plain : ¬taken slug → anchor = slug
  numbered : taken slug → ∃ n, 2 ≤ n ∧ anchor = numberedAnchor slug n ∧ ¬taken anchor ∧
    ∀ m, 2 ≤ m → m < n → taken (numberedAnchor slug m)

/-- A text is the anchor in a document of one of some types. -/
def IsAnchorAmong (entities earlier : List Entity) (text : Text) : Prop :=
  ∃ entity ∈ earlier, Keyed.find? entity.name (anchorsOf entities) = some text

section Search

variable {taken : Text → Prop} {slug anchor : Text}

/-- Different numbers make different forms. -/
theorem numberedAnchor_injective (slug : Text) : Function.Injective (numberedAnchor slug) := by
  intro m n same
  have digits : Nat.toDigits 10 m = Nat.toDigits 10 n :=
    (List.cons.inj (List.append_cancel_left same)).2
  rw [← Nat.ofDigitChars_ten_toDigits (n := m), digits, Nat.ofDigitChars_ten_toDigits]

/-- Among one form more than there are anchors in use, one is new. -/
theorem exists_new_number (used : List Text) (slug : Text) :
    ∃ n < used.length + 1, numberedAnchor slug (n + 2) ∉ used := by
  by_contra! allUsed
  have distinct : (numberedAnchors slug (used.length + 1)).Nodup :=
    List.nodup_range.map fun m n same => Nat.add_right_cancel (numberedAnchor_injective slug same)
  have inside : numberedAnchors slug (used.length + 1) ⊆ used := by
    intro form listed
    obtain ⟨n, below, rfl⟩ := List.mem_map.mp listed
    exact allUsed n (List.mem_range.mp below)
  have bound := (distinct.subperm inside).length_le
  simp only [numberedAnchors, List.length_map, List.length_range] at bound
  omega

/-- The bounded search finds the first new anchor. -/
theorem freeAnchor_isFirstNew (used : List Text) (slug : Text) :
    IsFirstNew (· ∈ used) slug (freeAnchor used slug) := by
  constructor
  · intro free
    rw [freeAnchor, if_neg (by simpa using free)]
  · intro held
    obtain ⟨number, below, isNew⟩ := exists_new_number used slug
    cases found : (List.range (used.length + 1)).find?
        (fun n => !used.contains (numberedAnchor slug (n + 2))) with
    | none =>
      have unused := List.find?_eq_none.mp found number (List.mem_range.mpr below)
      exact absurd (by simpa using unused) isNew
    | some n =>
      obtain ⟨free, -, before⟩ := List.find?_range_eq_some.mp found
      have answer : freeAnchor used slug = numberedAnchor slug (n + 2) := by
        rw [freeAnchor, if_pos (by simpa using held), numberedAnchors, List.find?_map]
        exact congrArg (fun place => (Option.map _ place).getD slug) found
      rw [answer]
      refine ⟨n + 2, by omega, rfl, by simpa using free, fun m atLeast less => ?_⟩
      have earlier := before (m - 2) (by omega)
      rw [Nat.sub_add_cancel atLeast] at earlier
      simpa using earlier

/-- The first new anchor is new. -/
theorem IsFirstNew.free (first : IsFirstNew taken slug anchor) : ¬taken anchor := by
  by_cases held : taken slug
  · obtain ⟨n, -, -, free, -⟩ := first.numbered held
    exact free
  · rwa [first.plain held]

/-- A search that tries numbered forms passes those that are taken. The induction is on how
many of them there are. -/
theorem settles_numbered {n : Nat} (free : ¬taken (numberedAnchor slug n)) (rounds first : Nat)
    (reaches : first + rounds = n)
    (held : ∀ m, first ≤ m → m < n → taken (numberedAnchor slug m)) :
    Settles taken slug (numberedAnchor slug first) (first + 1) (numberedAnchor slug n) := by
  induction rounds generalizing first with
  | zero =>
    obtain rfl : first = n := reaches
    exact .new free
  | succ rounds inductionHypothesis =>
    refine .onward (held first le_rfl (by omega)) ?_
    exact inductionHypothesis (first + 1) (by omega) fun m atLeast => held m (by omega)

/-- The search ends with the first new anchor. -/
theorem IsFirstNew.settles (first : IsFirstNew taken slug anchor) :
    Settles taken slug slug 2 anchor := by
  by_cases held : taken slug
  · obtain ⟨n, atLeast, rfl, free, before⟩ := first.numbered held
    exact .onward held (settles_numbered free (n - 2) 2 (by omega) before)
  · rw [first.plain held]
    exact .new held

/-- A search has one answer. -/
theorem Settles.unique {next : Nat} {tried answer other : Text}
    (settles : Settles taken slug tried next answer)
    (again : Settles taken slug tried next other) : other = answer := by
  induction settles with
  | new free =>
    cases again with
    | new => rfl
    | onward held => exact absurd held free
  | onward held later inductionHypothesis =>
    cases again with
    | new free => exact absurd held free
    | onward _ elsewhere => exact inductionHypothesis elsewhere

end Search

section Assignment

variable {entities earlier later : List Entity} {entity : Entity}

/-- The first types of a document have different names when all its types do. -/
theorem distinct_earlier (distinct : ((earlier ++ later).map (·.name)).Nodup) :
    (earlier.map (·.name)).Nodup :=
  distinct.sublist ((List.sublist_append_left earlier later).map _)

/-- One more type of another name adds its anchor at the end. -/
theorem anchorsOf_concat (distinct : ((entities ++ [entity]).map (·.name)).Nodup) :
    anchorsOf (entities ++ [entity]) = anchorsOf entities ++
      [(entity.name, freeAnchor (Keyed.values (anchorsOf entities)) entity.anchor)] := by
  rw [List.map_append, List.map_singleton, List.nodup_append] at distinct
  obtain ⟨others, -, apart⟩ := distinct
  have absent : Keyed.find? entity.name (anchorsOf entities) = none := by
    rw [← Option.not_isSome_iff_eq_none]
    intro present
    have listed := Keyed.mem_keys_of_has present
    rw [keys_anchorsOf others] at listed
    exact apart _ listed _ List.mem_cons_self rfl
  rw [anchorsOf, List.foldl_append]
  exact Keyed.put_of_absent absent _

/-- The first types of a document keep their anchors when more types follow. -/
theorem anchorsOf_earlier (distinct : ((earlier ++ later).map (·.name)).Nodup) :
    anchorsOf earlier <+: anchorsOf (earlier ++ later) := by
  induction later using List.reverseRecOn with
  | nil => simp
  | append_singleton more entity inductionHypothesis =>
    rw [← List.append_assoc] at distinct ⊢
    rw [anchorsOf_concat distinct]
    exact (inductionHypothesis (distinct_earlier distinct)).trans (List.prefix_append _ _)

/-- Types of different names have different anchors. -/
theorem nodup_anchors (distinct : (entities.map (·.name)).Nodup) :
    (Keyed.values (anchorsOf entities)).Nodup := by
  induction entities using List.reverseRecOn with
  | nil => exact List.nodup_nil
  | append_singleton more entity inductionHypothesis =>
    have isNew := (freeAnchor_isFirstNew (Keyed.values (anchorsOf more)) entity.anchor).free
    rw [anchorsOf_concat distinct, Keyed.values, List.map_append]
    refine List.nodup_append.mpr ⟨inductionHypothesis (distinct_earlier distinct),
      List.nodup_singleton _, ?_⟩
    rintro anchor listed other single rfl
    obtain rfl : anchor = _ := List.mem_singleton.mp single
    exact isNew listed

/-- The anchors of the first types of a document are those that these types have when only they
are in the document. -/
theorem isAnchorAmong_iff (distinct : ((earlier ++ later).map (·.name)).Nodup) (text : Text) :
    IsAnchorAmong (earlier ++ later) earlier text ↔
      text ∈ Keyed.values (anchorsOf earlier) := by
  have keys : (Keyed.keys (anchorsOf (earlier ++ later))).Nodup := by
    rwa [keys_anchorsOf distinct]
  obtain ⟨added, whole⟩ := anchorsOf_earlier distinct
  constructor
  · rintro ⟨entity, member, found⟩
    obtain ⟨anchor, known⟩ := exists_anchor entity member
    rw [← whole, Keyed.find?_append_of_found known] at found
    exact List.mem_map.mpr ⟨_, Keyed.mem_of_find? known, Option.some.inj found⟩
  · intro listed
    obtain ⟨⟨name, anchor⟩, member, rfl⟩ := List.mem_map.mp listed
    obtain ⟨entity, inside, rfl⟩ := exists_name _ member
    refine ⟨entity, inside, Keyed.find?_of_mem keys ?_⟩
    rw [← whole]
    exact List.mem_append_left added member

/-- **Which anchor each type gets.** In a document of types with different names every type has
an anchor, in the order of the types, and no two have the same. The search for each ends, with
one answer, and the answer is the first new anchor for its slug: the slug itself unless an
earlier type has it, and else the form with the least number from two on that no earlier type
has. -/
theorem anchorsOf_firstNew (distinct : (entities.map (·.name)).Nodup) :
    Keyed.keys (anchorsOf entities) = entities.map (·.name) ∧
    (Keyed.values (anchorsOf entities)).Nodup ∧
    ∀ earlier entity later, entities = earlier ++ entity :: later →
      ∃ anchor, Keyed.find? entity.name (anchorsOf entities) = some anchor ∧
        (∀ answer, Settles (IsAnchorAmong entities earlier) entity.anchor entity.anchor 2 answer ↔
          answer = anchor) ∧
        IsFirstNew (IsAnchorAmong entities earlier) entity.anchor anchor := by
  refine ⟨keys_anchorsOf distinct, nodup_anchors distinct, ?_⟩
  rintro earlier entity later rfl
  have split : earlier ++ entity :: later = earlier ++ [entity] ++ later := by simp
  have keys : (Keyed.keys (anchorsOf (earlier ++ entity :: later))).Nodup := by
    rwa [keys_anchorsOf distinct]
  have inUse : IsAnchorAmong (earlier ++ entity :: later) earlier =
      (· ∈ Keyed.values (anchorsOf earlier)) :=
    funext fun text => propext (isAnchorAmong_iff distinct text)
  have first := freeAnchor_isFirstNew (Keyed.values (anchorsOf earlier)) entity.anchor
  rw [inUse]
  refine ⟨_, Keyed.find?_of_mem keys ?_, fun answer => ⟨first.settles.unique, ?_⟩, first⟩
  · rw [split] at distinct ⊢
    have start := (anchorsOf_earlier distinct).subset
    rw [anchorsOf_concat (distinct_earlier distinct)] at start
    exact start (List.mem_append_right _ List.mem_cons_self)
  · rintro rfl
    exact first.settles

end Assignment

/-- Four types, of which the first three share a slug, and the slug of the last one is the form
that the second one gets. -/
def crowdedTypes : List Entity :=
  ["Foo\\Bar", "Foo_Bar", "foo bar", "Foo\\Bar\\2"].map fun name => { name := name.toList }

/-- The second type takes the slug of the last one, which has to be numbered in turn. -/
theorem crowdedTypes_firstNew :
    (crowdedTypes.map (·.name)).Nodup ∧
    Keyed.find? "Foo\\Bar\\2".toList (anchorsOf crowdedTypes) =
      some "class-foo-bar-2-2".toList ∧
    IsFirstNew (IsAnchorAmong crowdedTypes (crowdedTypes.take 3)) "class-foo-bar-2".toList
      "class-foo-bar-2-2".toList := by
  have distinct : (crowdedTypes.map (·.name)).Nodup := by decide
  have found : Keyed.find? "Foo\\Bar\\2".toList (anchorsOf crowdedTypes) =
      some "class-foo-bar-2-2".toList := by decide +kernel
  obtain ⟨-, -, each⟩ := anchorsOf_firstNew distinct
  obtain ⟨anchor, known, -, first⟩ := each (crowdedTypes.take 3) _ [] rfl
  have same : anchor = "class-foo-bar-2-2".toList := Option.some.inj (known.symm.trans found)
  have slug : (Entity.anchor { name := "Foo\\Bar\\2".toList }) = "class-foo-bar-2".toList := by
    decide +kernel
  rw [same] at first
  exact ⟨distinct, found, slug ▸ first⟩

end Docblock.Document
