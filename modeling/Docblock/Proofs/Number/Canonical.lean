import Docblock.Number.Binary64
import Mathlib.Tactic.Linarith
import Mathlib.Tactic.Ring
import Mathlib.Algebra.Order.Ring.Int

/-!
# Canonical binary values

A number has one form in the binary format: its mantissa is full, or its exponent is the least
one. So two values in that form that equal the same integer are equal, and a value equals at
most one integer. Only zero has two forms, one for each sign, and they are equal.

The value that is no number is not canonical, since it does not even equal itself.
-/

namespace Docblock.Binary64

/-- A value is a number in the form that the format has for it. -/
def IsCanonical : Binary64 → Prop
  | .finite _ mantissa exponent =>
    mantissa < 2 ^ mantissaBits ∧ leastExponent ≤ exponent ∧
      (2 ^ (mantissaBits - 1) ≤ mantissa ∨ exponent = leastExponent)
  | .infinite _ => True
  | .undefined => False

instance : DecidablePred IsCanonical
  | .finite _ mantissa exponent =>
    inferInstanceAs (Decidable (mantissa < 2 ^ mantissaBits ∧ leastExponent ≤ exponent ∧
      (2 ^ (mantissaBits - 1) ≤ mantissa ∨ exponent = leastExponent)))
  | .infinite _ => isTrue trivial
  | .undefined => isFalse id

variable {x y z : Binary64} {i j : Int}

/-- A number equals itself. -/
theorem IsCanonical.equals_self (canonical : x.IsCanonical) : x.equals x = true := by
  cases x with
  | finite negative mantissa exponent => simp [equals]
  | infinite negative => simp [equals]
  | undefined => exact canonical.elim

/-- Values are equal when they are zeros, or the same number. -/
theorem equals_iff : x.equals y = true ↔
    (x.isZero = true ∧ y.isZero = true) ∨ (x = y ∧ x ≠ .undefined) := by
  cases x <;> cases y <;> simp [equals, isZero]

/-- Equality of numbers is symmetric. -/
theorem equals_symm (same : x.equals y = true) : y.equals x = true := by
  rw [equals_iff] at same ⊢
  rcases same with ⟨zero, other⟩ | ⟨rfl, number⟩
  · exact .inl ⟨other, zero⟩
  · exact .inr ⟨rfl, number⟩

/-- A zero equals zero and no other integer. -/
theorem equalsInt_of_isZero (zero : x.isZero = true) : x.equalsInt i = true ↔ i = 0 := by
  cases x with
  | finite negative mantissa exponent =>
    obtain rfl : mantissa = 0 := by
      cases mantissa with
      | zero => rfl
      | succ n => cases zero
    simp [equalsInt, Nat.pow_eq, @eq_comm _ (0 : Int)]
  | infinite negative => cases zero
  | undefined => cases zero

/-- Equality of numbers is transitive. -/
theorem equals_trans (first : x.equals y = true) (second : y.equals z = true) :
    x.equals z = true := by
  rw [equals_iff] at first second ⊢
  rcases first with ⟨zero, middle⟩ | ⟨rfl, number⟩
  · rcases second with ⟨-, last⟩ | ⟨rfl, -⟩
    · exact .inl ⟨zero, last⟩
    · exact .inl ⟨zero, middle⟩
  · exact second

/-- Equal numbers equal the same integers. -/
theorem equalsInt_of_equals (equal : x.equals y = true) (holds : y.equalsInt i = true) :
    x.equalsInt i = true := by
  rcases equals_iff.mp equal with ⟨zero, other⟩ | ⟨rfl, -⟩
  · exact (equalsInt_of_isZero zero).mpr ((equalsInt_of_isZero other).mp holds)
  · exact holds

/-- A number equals at most one integer. -/
theorem equalsInt_unique (first : x.equalsInt i = true) (second : x.equalsInt j = true) :
    i = j := by
  cases x with
  | finite negative mantissa exponent =>
    have scaled : i * (2 : Int) ^ (-exponent).toNat = j * (2 : Int) ^ (-exponent).toNat := by
      simp only [equalsInt, Nat.pow_eq, beq_iff_eq] at first second
      exact_mod_cast first.symm.trans second
    exact mul_right_cancel₀ (by positivity) scaled
  | infinite negative => cases first
  | undefined => cases first

/-- A mantissa with an exponent above the least one is full, so it is no smaller number with a
smaller exponent. -/
theorem not_lt_of_scaled {negative other : Bool} {m n : Nat} {e f : Int} {a b : Nat}
    (canonicalM : IsCanonical (.finite negative m e))
    (canonicalN : IsCanonical (.finite other n f)) (same : m * 2 ^ a = n * 2 ^ b)
    (shift : (a : Int) - b = e - f) : ¬e < f := by
  intro smaller
  obtain ⟨fits, least, -⟩ := canonicalM
  have full : 2 ^ (mantissaBits - 1) ≤ n := canonicalN.2.2.resolve_right (by omega)
  obtain ⟨k, rfl⟩ : ∃ k, b = a + (k + 1) := ⟨b - a - 1, by omega⟩
  have larger : m = n * 2 ^ (k + 1) := by
    refine Nat.eq_of_mul_eq_mul_right (Nat.two_pow_pos a) ?_
    rw [same, pow_add]
    ring
  have doubled : n * 2 ≤ m := by
    rw [larger, pow_succ]
    nlinarith [Nat.one_le_two_pow (n := k)]
  simp only [mantissaBits] at fits full
  omega

section Finite

variable {negative other : Bool} {m n : Nat} {e f : Int}

/-- A value equals an integer when its mantissa with the sign does, both scaled to integers. -/
theorem equalsInt_finite_iff : (finite negative m e).equalsInt i = true ↔
    (if negative then -((m * 2 ^ e.toNat : Nat) : Int) else (m * 2 ^ e.toNat : Nat)) =
      i * (2 : Int) ^ (-e).toNat := by
  simp only [equalsInt, Nat.pow_eq, beq_iff_eq, Nat.cast_pow, Nat.cast_ofNat]

/-- The mantissa of a value that equals an integer, without signs. -/
theorem scaled_of_equalsInt (holds : (finite negative m e).equalsInt i = true) :
    m * 2 ^ e.toNat = i.natAbs * 2 ^ (-e).toNat := by
  have same := equalsInt_finite_iff.mp holds
  have sizes := congrArg Int.natAbs same
  rw [Int.natAbs_mul, Int.natAbs_pow, show (2 : Int).natAbs = 2 from rfl] at sizes
  rw [← sizes]
  cases negative with
  | false => rw [if_neg Bool.false_ne_true, Int.natAbs_natCast]
  | true => rw [if_pos rfl, Int.natAbs_neg, Int.natAbs_natCast]

/-- A value other than zero has the sign of the integer that it equals. -/
theorem negative_iff_of_equalsInt (nonzero : m ≠ 0)
    (holds : (finite negative m e).equalsInt i = true) : negative = true ↔ i < 0 := by
  have same := equalsInt_finite_iff.mp holds
  have size : 0 < ((m * 2 ^ e.toNat : Nat) : Int) := by positivity
  have scale : 0 < (2 : Int) ^ (-e).toNat := by positivity
  cases negative with
  | false =>
    rw [if_neg Bool.false_ne_true] at same
    exact iff_of_false Bool.false_ne_true (by nlinarith)
  | true =>
    rw [if_pos rfl] at same
    exact iff_of_true rfl (by nlinarith)

/-- Mantissas that are equal when they are scaled belong to equal exponents. -/
theorem eq_of_scaled (canonicalM : IsCanonical (.finite negative m e))
    (canonicalN : IsCanonical (.finite other n f)) {size : Nat}
    (first : m * 2 ^ e.toNat = size * 2 ^ (-e).toNat)
    (second : n * 2 ^ f.toNat = size * 2 ^ (-f).toNat) : m = n ∧ e = f := by
  have same : m * 2 ^ (e.toNat + (-f).toNat) = n * 2 ^ (f.toNat + (-e).toNat) := by
    rw [pow_add, pow_add, ← mul_assoc, ← mul_assoc, first, second]
    ring
  have exponents : e = f := by
    have notBelow := not_lt_of_scaled canonicalM canonicalN same (by omega)
    have notAbove := not_lt_of_scaled canonicalN canonicalM same.symm (by omega)
    omega
  subst exponents
  exact ⟨Nat.eq_of_mul_eq_mul_right (by positivity) same, rfl⟩

end Finite

/-- Numbers in canonical form that equal the same integer are equal. -/
theorem equals_of_equalsInt (canonicalX : x.IsCanonical) (canonicalY : y.IsCanonical)
    (first : x.equalsInt i = true) (second : y.equalsInt i = true) : x.equals y = true := by
  cases x with
  | finite negative m e =>
    cases y with
    | finite other n f =>
      obtain ⟨rfl, rfl⟩ := eq_of_scaled canonicalX canonicalY (scaled_of_equalsInt first)
        (scaled_of_equalsInt second)
      rw [equals_iff]
      by_cases zero : m = 0
      · subst zero
        exact .inl ⟨rfl, rfl⟩
      · have signs : negative = other := Bool.eq_iff_iff.mpr
          ((negative_iff_of_equalsInt zero first).trans
            (negative_iff_of_equalsInt zero second).symm)
        exact .inr ⟨by rw [signs], nofun⟩
    | infinite other => cases second
    | undefined => cases second
  | infinite negative => cases first
  | undefined => cases first

end Docblock.Binary64
