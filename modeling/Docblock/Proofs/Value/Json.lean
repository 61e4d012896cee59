import Docblock.Proofs.Number.Rounding
import Docblock.Value.Basic
import Mathlib.Data.List.Forall2

/-!
# Values of JSON

A value is one of JSON when its maps have text keys, no key twice, and its numbers are numbers.
Among such values equality is reflexive and transitive, although it looks through the kinds of
scalars and does not regard the order of a map: a truth value equals an integer, an integer a
number with a point, and maps are compared by looking for each entry of the one in the other.
-/

namespace Docblock.Value

/-- The keys of a map in the order in which they were entered. -/
def keys (entries : Entries) : List Value := entries.map (·.1)

/-- A value that JSON can write: its maps have text keys, each once, and its numbers are in the
form of their format. -/
inductive IsJson : Value → Prop
  | null : IsJson .null
  | flag (holds : Bool) : IsJson (.flag holds)
  | int (number : Int) : IsJson (.int number)
  | float {number : Binary64} (canonical : number.IsCanonical) : IsJson (.float number)
  | text (content : Text) : IsJson (.text content)
  | list {items : List Value} (inner : ∀ item ∈ items, IsJson item) : IsJson (.list items)
  | map {entries : Entries} (distinct : (keys entries).Nodup)
      (named : ∀ key ∈ keys entries, ∃ name, key = .text name)
      (inner : ∀ entry ∈ entries, IsJson entry.2) : IsJson (.map entries)

/-- Every number that is read from decimal digits is one of JSON. -/
theorem IsJson.decimal (negative : Bool) (digits : Nat) (exponent : Int) :
    IsJson (.float (Binary64.ofDecimal negative digits exponent)) :=
  .float (Binary64.ofDecimal_isCanonical negative digits exponent)

/-- What makes two scalars equal. -/
inductive Alike : Value → Value → Prop
  | null : Alike .null .null
  | text (content : Text) : Alike (.text content) (.text content)
  | ints {a b : Value} {i : Int} (first : a.asInt? = some i) (second : b.asInt? = some i) :
      Alike a b
  | intFloat {a : Value} {y : Binary64} {i : Int} (first : a.asInt? = some i)
      (second : y.equalsInt i = true) : Alike a (.float y)
  | floatInt {x : Binary64} {b : Value} {i : Int} (first : x.equalsInt i = true)
      (second : b.asInt? = some i) : Alike (.float x) b
  | floats {x y : Binary64} (same : x.equals y = true) : Alike (.float x) (.float y)
  | foreign {s t : Traits} (same : s.identity = t.identity) (items others : List Value) :
      Alike (.foreign s items) (.foreign t others)

/-- Scalars are equal for one of these reasons. -/
theorem sameScalar_iff (first second : Value) :
    sameScalar first second = true ↔ Alike first second := by
  constructor
  · intro same
    unfold sameScalar at same
    split at same
    · exact .null
    · rw [beq_iff_eq.mp same]
      exact .text _
    · exact .foreign (beq_iff_eq.mp same) _ _
    · exact .floats same
    · cases number : second.asInt? with
      | none => simp [number] at same
      | some i => exact .floatInt (by simpa [number] using same) number
    · cases number : first.asInt? with
      | none => simp [number] at same
      | some i => exact .intFloat number (by simpa [number] using same)
    · split at same
      · rename_i i j left right
        exact .ints left (beq_iff_eq.mp same ▸ right)
      · cases same
  · intro alike
    cases alike with
    | null => rfl
    | text content => simp [sameScalar]
    | floats same => exact same
    | foreign same => simpa [sameScalar] using same
    | ints left right => cases first <;> cases second <;> simp_all [sameScalar, asInt?]
    | intFloat left right => cases first <;> simp_all [sameScalar, asInt?]
    | floatInt left right => cases second <;> simp_all [sameScalar, asInt?]

/-- Equality of scalars of JSON is transitive. An integer between two numbers with a point makes
them equal because both are in the form of their format. -/
theorem Alike.trans {a b c : Value} (jsonA : IsJson a) (jsonC : IsJson c) (first : Alike a b)
    (second : Alike b c) : Alike a c := by
  cases first with
  | null => exact second
  | text content => exact second
  | ints here there =>
    cases second with
    | ints again last => exact .ints here (Option.some.inj (there.symm.trans again) ▸ last)
    | intFloat again last => exact .intFloat here (Option.some.inj (there.symm.trans again) ▸ last)
    | _ => cases there
  | intFloat here there =>
    cases second with
    | floatInt again last => exact .ints here (Binary64.equalsInt_unique there again ▸ last)
    | floats same =>
      exact .intFloat here (Binary64.equalsInt_of_equals (Binary64.equals_symm same) there)
    | ints again last => cases again
    | intFloat again last => cases again
  | floatInt here there =>
    cases second with
    | ints again last => exact .floatInt here (Option.some.inj (there.symm.trans again) ▸ last)
    | intFloat again last =>
      obtain rfl := Option.some.inj (there.symm.trans again)
      cases jsonA with
      | float canonicalA =>
        cases jsonC with
        | float canonicalC =>
          exact .floats (Binary64.equals_of_equalsInt canonicalA canonicalC here last)
    | _ => cases there
  | floats same =>
    cases second with
    | floats again => exact .floats (Binary64.equals_trans same again)
    | floatInt again last => exact .floatInt (Binary64.equalsInt_of_equals same again) last
    | ints again last => cases again
    | intFloat again last => cases again
  | foreign same => cases jsonA

/-- Neither a list nor a map. -/
structure IsScalar (value : Value) : Prop where
  noList : ∀ items, value ≠ .list items
  noMap : ∀ entries, value ≠ .map entries

variable {a b c : Value}

/-- What is alike is scalar. -/
theorem Alike.isScalar (alike : Alike a b) : IsScalar a ∧ IsScalar b := by
  have number {value : Value} {i : Int} (here : value.asInt? = some i) : IsScalar value := by
    constructor <;> rintro _ rfl <;> cases here
  cases alike with
  | null | text _ | floats _ | foreign _ => exact ⟨⟨nofun, nofun⟩, ⟨nofun, nofun⟩⟩
  | ints left right => exact ⟨number left, number right⟩
  | intFloat left right => exact ⟨number left, ⟨nofun, nofun⟩⟩
  | floatInt left right => exact ⟨⟨nofun, nofun⟩, number right⟩

/-- A scalar equals what is alike. -/
theorem same_iff_of_left (scalar : IsScalar a) : same a b = true ↔ Alike a b := by
  rw [← sameScalar_iff]
  cases a with
  | list items => exact absurd rfl (scalar.noList items)
  | map entries => exact absurd rfl (scalar.noMap entries)
  | _ => rw [same] <;> nofun

/-- What is alike is equal. -/
theorem Alike.same_eq (alike : Alike a b) : same a b = true :=
  (same_iff_of_left alike.isScalar.1).mpr alike

/-- Only a text itself equals a text. -/
theorem same_text_iff {content : Text} : same a (.text content) = true ↔ a = .text content := by
  cases a <;> simp [same, sameScalar, asInt?]

/-- A list equals lists with equal items only. -/
theorem same_list_iff {items : List Value} : same (.list items) b = true ↔
    ∃ others, b = .list others ∧ List.Forall₂ (fun x y => same x y = true) items others := by
  have itemwise (xs ys : List Value) :
      sameItems xs ys = true ↔ List.Forall₂ (fun x y => same x y = true) xs ys := by
    induction xs generalizing ys with
    | nil => cases ys <;> simp [sameItems]
    | cons x rest inductionHypothesis => cases ys <;> simp [sameItems, inductionHypothesis]
  cases b with
  | list others => simp [same, itemwise]
  | _ => simp [same, sameScalar, asInt?]

/-- A map equals maps of its size that hold an equal entry for each entry of it. -/
theorem same_map_iff {entries : Entries} : same (.map entries) b = true ↔
    ∃ others : Entries, b = .map others ∧ entries.length = others.length ∧
      ∀ entry ∈ entries, ∃ other ∈ others,
        same entry.1 other.1 = true ∧ same entry.2 other.2 = true := by
  have entrywise (xs ys : Entries) : sameEntries xs ys = true ↔
      ∀ entry ∈ xs, ∃ other ∈ ys, same entry.1 other.1 = true ∧ same entry.2 other.2 = true := by
    induction xs with
    | nil => simp [sameEntries]
    | cons x rest inductionHypothesis => simp [sameEntries, inductionHypothesis]
  cases b with
  | map others => simp [same, entrywise]
  | _ => simp [same, sameScalar, asInt?]

/-- Equality of values of JSON is transitive when the first of them is a scalar. -/
theorem same_trans_of_scalar (scalar : IsScalar a) (jsonA : IsJson a) (jsonC : IsJson c)
    (first : same a b = true) (second : same b c = true) : same a c = true := by
  have here := (same_iff_of_left scalar).mp first
  have there := (same_iff_of_left here.isScalar.2).mp second
  exact (here.trans jsonA jsonC there).same_eq

/-- A value of JSON equals itself. -/
theorem IsJson.same_self (json : IsJson a) : same a a = true := by
  induction json with
  | null => exact Alike.null.same_eq
  | flag holds => exact (Alike.ints rfl rfl).same_eq
  | int number => exact (Alike.ints rfl rfl).same_eq
  | float canonical => exact (Alike.floats canonical.equals_self).same_eq
  | text content => exact (Alike.text content).same_eq
  | list inner inductionHypothesis =>
    exact same_list_iff.mpr ⟨_, rfl, List.forall₂_same.mpr inductionHypothesis⟩
  | map distinct named inner inductionHypothesis =>
    refine same_map_iff.mpr ⟨_, rfl, rfl, fun entry member => ⟨entry, member, ?_, ?_⟩⟩
    · obtain ⟨name, isName⟩ := named entry.1 (List.mem_map.mpr ⟨entry, member, rfl⟩)
      rw [isName]
      exact same_text_iff.mpr rfl
    · exact inductionHypothesis entry member

/-- A relation that is transitive between the items of two lists is so between the lists. -/
theorem forall₂_trans {α : Type} {related : α → α → Prop} {xs ys zs : List α}
    (transitive : ∀ x ∈ xs, ∀ y, ∀ z ∈ zs, related x y → related y z → related x z)
    (first : List.Forall₂ related xs ys) (second : List.Forall₂ related ys zs) :
    List.Forall₂ related xs zs := by
  induction first generalizing zs with
  | nil =>
    cases second
    exact .nil
  | @cons x y xs ys here later inductionHypothesis =>
    cases second with
    | @cons _ z _ zs there more =>
      refine .cons (transitive x List.mem_cons_self y z List.mem_cons_self here there) ?_
      exact inductionHypothesis (fun x insideX y z insideZ =>
        transitive x (List.mem_cons_of_mem _ insideX) y z (List.mem_cons_of_mem _ insideZ)) more

/-- Equality of values of JSON is transitive. The induction is on the first of them. -/
theorem IsJson.same_trans (jsonA : IsJson a) (jsonC : IsJson c) (first : same a b = true)
    (second : same b c = true) : same a c = true := by
  have whole := jsonA
  induction jsonA generalizing b c with
  | null | flag | int | float | text =>
    exact same_trans_of_scalar ⟨nofun, nofun⟩ whole jsonC first second
  | list inner inductionHypothesis =>
    obtain ⟨others, rfl, items⟩ := same_list_iff.mp first
    obtain ⟨last, rfl, more⟩ := same_list_iff.mp second
    cases jsonC with
    | list innerC =>
      refine same_list_iff.mpr ⟨last, rfl, forall₂_trans ?_ items more⟩
      intro x insideX y z insideZ here there
      exact inductionHypothesis x insideX (innerC z insideZ) here there (inner x insideX)
  | map distinct named inner inductionHypothesis =>
    obtain ⟨others, rfl, size, entries⟩ := same_map_iff.mp first
    obtain ⟨last, rfl, nextSize, more⟩ := same_map_iff.mp second
    cases jsonC with
    | map distinctC namedC innerC =>
      refine same_map_iff.mpr ⟨last, rfl, size.trans nextSize, fun entry member => ?_⟩
      obtain ⟨other, inside, sameKey, sameValue⟩ := entries entry member
      obtain ⟨final, listed, sameNext, sameLast⟩ := more other inside
      obtain ⟨name, isName⟩ := named entry.1 (List.mem_map.mpr ⟨entry, member, rfl⟩)
      obtain ⟨lastName, isLast⟩ := namedC final.1 (List.mem_map.mpr ⟨final, listed, rfl⟩)
      refine ⟨final, listed, ?_, inductionHypothesis entry member (innerC final listed) sameValue
        sameLast (inner entry member)⟩
      exact same_trans_of_scalar (isName ▸ ⟨nofun, nofun⟩) (isName ▸ .text name)
        (isLast ▸ .text lastName) sameKey sameNext

end Docblock.Value
