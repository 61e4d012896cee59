import Docblock.Proofs.Number.Canonical

/-!
# Numbers read from decimals

Rounding a fraction to the binary format gives a number in its canonical form, or an infinity. So
every number with a point that is read from decimal digits is in that form. The exponent is
found from the lengths of the numerator and the denominator: the scaled fraction lies between
two powers of two, and rounding can at most reach the upper one.
-/

namespace Docblock.Binary64

section Below

variable {n d : Nat} {x y : Int}

/-- A fraction is smaller than a power of two. -/
def IsBelow (n d : Nat) (x : Int) : Prop := n * 2 ^ (-x).toNat < d * 2 ^ x.toNat

instance (n d : Nat) (x : Int) : Decidable (IsBelow n d x) := inferInstanceAs (Decidable (_ < _))

/-- The power of two may be split between the numerator and the denominator in any way. -/
theorem isBelow_iff {a b : Nat} (shift : (a : Int) - b = x) :
    IsBelow n d x ↔ n * 2 ^ b < d * 2 ^ a := by
  rcases Int.le_total 0 x with positive | negative
  · obtain ⟨k, rfl⟩ : ∃ k, a = k + b := ⟨a - b, by omega⟩
    have power : x.toNat = k ∧ (-x).toNat = 0 := by omega
    rw [IsBelow, power.1, power.2, pow_zero, mul_one, pow_add, ← mul_assoc]
    exact (Nat.mul_lt_mul_right (by positivity)).symm
  · obtain ⟨k, rfl⟩ : ∃ k, b = k + a := ⟨b - a, by omega⟩
    have power : x.toNat = 0 ∧ (-x).toNat = k := by omega
    rw [IsBelow, power.1, power.2, pow_zero, mul_one, pow_add, ← mul_assoc]
    exact (Nat.mul_lt_mul_right (by positivity)).symm

/-- A fraction is smaller than larger powers of two, too. -/
theorem IsBelow.mono (below : IsBelow n d x) (larger : x ≤ y) : IsBelow n d y := by
  rw [isBelow_iff (a := x.toNat + (y - x).toNat) (b := (-x).toNat) (by omega)]
  have powers : 2 ^ x.toNat ≤ 2 ^ (x.toNat + (y - x).toNat) :=
    Nat.pow_le_pow_right (by decide) (by omega)
  exact lt_of_lt_of_le below (Nat.mul_le_mul_left d powers)

/-- The bits of the numerator and the denominator bound a fraction from above. -/
theorem isBelow_of_log2 (n : Nat) (positive : 0 < d) :
    IsBelow n d ((Nat.log2 n : Int) - Nat.log2 d + 1) := by
  rw [isBelow_iff (a := Nat.log2 n + 1) (b := Nat.log2 d) (by push_cast; ring)]
  calc n * 2 ^ Nat.log2 d < 2 ^ (Nat.log2 n + 1) * 2 ^ Nat.log2 d :=
        Nat.mul_lt_mul_of_pos_right Nat.lt_log2_self (by positivity)
    _ = 2 ^ Nat.log2 d * 2 ^ (Nat.log2 n + 1) := Nat.mul_comm _ _
    _ ≤ d * 2 ^ (Nat.log2 n + 1) := Nat.mul_le_mul_right _ (Nat.log2_self_le positive.ne')

/-- The bits of the numerator and the denominator bound a fraction from below. -/
theorem not_isBelow_of_log2 (positive : 0 < n) (d : Nat) :
    ¬IsBelow n d ((Nat.log2 n : Int) - Nat.log2 d - 1) := by
  rw [isBelow_iff (a := Nat.log2 n) (b := Nat.log2 d + 1) (by push_cast; ring), Nat.not_lt]
  calc d * 2 ^ Nat.log2 n ≤ 2 ^ (Nat.log2 d + 1) * 2 ^ Nat.log2 n :=
        Nat.mul_le_mul_right _ Nat.lt_log2_self.le
    _ = 2 ^ Nat.log2 n * 2 ^ (Nat.log2 d + 1) := Nat.mul_comm _ _
    _ ≤ n * 2 ^ (Nat.log2 d + 1) := Nat.mul_le_mul_right _ (Nat.log2_self_le positive.ne')

end Below

section Rounded

variable {numerator denominator bound : Nat} {exponent : Int}

/-- Rounding does not go beyond a natural above a fraction. -/
theorem roundedQuotient_le (below : numerator < denominator * bound) :
    roundedQuotient numerator denominator ≤ bound := by
  have quotient : numerator / denominator < bound := Nat.div_lt_of_lt_mul below
  rw [roundedQuotient]
  split
  · omega
  · split <;> omega

/-- Rounding does not go below a natural that a fraction reaches. -/
theorem le_roundedQuotient (positive : 0 < denominator)
    (reached : denominator * bound ≤ numerator) :
    bound ≤ roundedQuotient numerator denominator := by
  have quotient : bound ≤ numerator / denominator :=
    (Nat.le_div_iff_mul_le positive).mpr (Nat.mul_comm bound denominator ▸ reached)
  rw [roundedQuotient]
  split
  · omega
  · split <;> omega

/-- The mantissa for an exponent has at most the bits that the fraction has. -/
theorem scaledRound_le (below : IsBelow numerator denominator (exponent + mantissaBits)) :
    scaledRound numerator denominator exponent ≤ 2 ^ mantissaBits := by
  refine roundedQuotient_le ?_
  rw [Nat.pow_eq, Nat.pow_eq, Nat.mul_assoc, ← pow_add]
  exact (isBelow_iff (by push_cast; omega)).mp below

/-- The mantissa for an exponent is full when the fraction has enough bits. -/
theorem le_scaledRound (positive : 0 < denominator)
    (reached : ¬IsBelow numerator denominator (exponent + (mantissaBits - 1 : Nat))) :
    2 ^ (mantissaBits - 1) ≤ scaledRound numerator denominator exponent := by
  refine le_roundedQuotient (Nat.mul_pos positive (Nat.two_pow_pos _)) ?_
  rw [Nat.pow_eq, Nat.pow_eq, Nat.mul_assoc, ← pow_add, ← Nat.not_lt]
  exact mt (isBelow_iff (by push_cast; omega)).mpr reached

/-- A mantissa for an exponent makes a canonical number, when it is full or the exponent is the
least one. If rounding has filled it beyond its bits, the next exponent takes it. -/
theorem ofMantissa_isCanonical {mantissa : Nat} (negative : Bool)
    (fits : mantissa ≤ 2 ^ mantissaBits) (least : leastExponent ≤ exponent)
    (full : 2 ^ (mantissaBits - 1) ≤ mantissa ∨ exponent = leastExponent) :
    (ofMantissa negative mantissa exponent).IsCanonical := by
  rw [ofMantissa]
  by_cases filled : mantissa = Nat.pow 2 mantissaBits
  · rw [if_pos filled]
    simp only
    split
    · trivial
    · exact ⟨Nat.pow_lt_pow_right (by decide) (by decide), by omega, .inl (Nat.le_refl _)⟩
  · rw [if_neg filled]
    simp only
    split
    · trivial
    · exact ⟨lt_of_le_of_ne fits filled, least, full⟩

end Rounded

section Exponent

variable {numerator denominator : Nat}

/-- The full exponent is the difference of the lengths less the bits, or one less: this is decided
by whether the fraction is below that power of two. -/
theorem fullExponent_eq (numerator denominator : Nat) :
    let estimate : Int := (Nat.log2 numerator : Int) - Nat.log2 denominator - (mantissaBits - 1)
    fullExponent numerator denominator =
      if IsBelow numerator denominator (estimate + (mantissaBits - 1 : Nat)) then estimate - 1
      else estimate := by
  intro estimate
  rw [fullExponent]
  refine if_congr ?_ rfl rfl
  rw [isBelow_iff (a := estimate.toNat + (mantissaBits - 1)) (b := (-estimate).toNat)
    (by push_cast; omega), pow_add, ← Nat.mul_assoc]
  rfl

/-- A fraction fills the mantissa at its full exponent, without a bit more. -/
theorem fullExponent_spec (positive : 0 < numerator) (proper : 0 < denominator) :
    IsBelow numerator denominator (fullExponent numerator denominator + mantissaBits) ∧
      ¬IsBelow numerator denominator
        (fullExponent numerator denominator + (mantissaBits - 1 : Nat)) := by
  have above := isBelow_of_log2 numerator proper
  have below := not_isBelow_of_log2 positive denominator
  have bits : (mantissaBits : Int) = 53 ∧ ((mantissaBits - 1 : Nat) : Int) = 52 := ⟨rfl, rfl⟩
  rw [fullExponent_eq]
  split
  · rename_i small
    exact ⟨small.mono (by omega), fun smaller => below (smaller.mono (by omega))⟩
  · rename_i large
    exact ⟨above.mono (by omega), large⟩

end Exponent

/-- Rounding a positive fraction gives a canonical number. -/
theorem ofFraction_isCanonical (negative : Bool) {numerator denominator : Nat}
    (positive : 0 < numerator) (proper : 0 < denominator) :
    (ofFraction negative numerator denominator).IsCanonical := by
  obtain ⟨above, below⟩ := fullExponent_spec positive proper
  rw [ofFraction]
  refine ofMantissa_isCanonical negative
    (scaledRound_le (above.mono (by omega))) (le_max_right _ _) ?_
  rcases le_total leastExponent (fullExponent numerator denominator) with large | small
  · rw [max_eq_left large]
    exact .inl (le_scaledRound proper below)
  · exact .inr (max_eq_right small)

/-- A number that is read from decimal digits is canonical. -/
theorem ofDecimal_isCanonical (negative : Bool) (digits : Nat) (exponent : Int) :
    (ofDecimal negative digits exponent).IsCanonical := by
  rw [ofDecimal]
  have zero : (finite negative 0 leastExponent).IsCanonical := ⟨by decide, le_refl _, .inr rfl⟩
  split
  · exact zero
  · rename_i nonzero
    simp only
    split
    · trivial
    · split
      · exact zero
      · exact ofFraction_isCanonical negative
          (Nat.mul_pos (Nat.pos_of_ne_zero nonzero) (Nat.pow_pos (by decide)))
          (Nat.pow_pos (by decide))

end Docblock.Binary64
