import Docblock.Keyed
import Mathlib.Data.List.Lex
import Mathlib.Data.Char

/-!
# The order of texts

Texts are compared as lists of characters, a character by its code point. Entries that are put
into the order of their keys stand in it strictly when no key occurs twice.
-/

namespace Docblock

namespace Text

/-- A text precedes or equals another one unless the other one is smaller. -/
theorem precedesOrEquals_iff (s t : Text) : precedesOrEquals s t = true ↔ ¬t < s := by
  induction s generalizing t with
  | nil => exact iff_of_true rfl (List.not_lt_nil t)
  | cons c rest inductionHypothesis =>
    cases t with
    | nil => exact iff_of_false Bool.false_ne_true (not_not_intro (List.nil_lt_cons c rest))
    | cons d more =>
      have smaller : c.toNat < d.toNat ↔ c < d := UInt32.lt_iff_toNat_lt.symm
      rw [precedesOrEquals, Bool.or_eq_true, Bool.and_eq_true, decide_eq_true_eq, beq_iff_eq,
        inductionHypothesis, smaller, List.cons_lt_cons_iff]
      rcases lt_trichotomy c d with before | rfl | behind
      · simp [before, before.ne', before.asymm]
      · simp
      · simp [behind, behind.ne', behind.asymm]

end Text

namespace Keyed

variable {α : Type}

/-- Entries in the order of their keys stand in it strictly when no key occurs twice. -/
theorem pairwise_mergeSort {entries : Keyed α} (distinct : (keys entries).Nodup) :
    (entries.mergeSort fun a b => Text.precedesOrEquals a.1 b.1).Pairwise
      fun a b => a.1 < b.1 := by
  let goesFirst : Text × α → Text × α → Bool := fun a b => Text.precedesOrEquals a.1 b.1
  have ordered : (entries.mergeSort goesFirst).Pairwise fun a b => goesFirst a b = true := by
    apply List.pairwise_mergeSort
    · intro a b c first second
      simp only [goesFirst, Text.precedesOrEquals_iff, not_lt] at first second ⊢
      exact le_trans first second
    · intro a b
      simp only [goesFirst, Bool.or_eq_true, Text.precedesOrEquals_iff, not_lt]
      exact le_total a.1 b.1
  have apart : (entries.mergeSort goesFirst).Pairwise fun a b => a.1 ≠ b.1 := by
    have sorted : (keys (entries.mergeSort goesFirst)).Nodup :=
      ((List.mergeSort_perm entries goesFirst).map Prod.fst).nodup_iff.mpr distinct
    exact List.pairwise_map.mp sorted
  refine (ordered.and apart).imp fun {a b} both => ?_
  exact lt_of_le_of_ne (not_lt.mp ((Text.precedesOrEquals_iff a.1 b.1).mp both.1)) both.2

end Keyed
end Docblock
