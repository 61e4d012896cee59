/-!
# Binary floating-point values

A number with a point is held as the nearest value of the 64-bit binary format,
kept exactly as a sign, a natural mantissa and a power of two. This module
reads decimals into that form, correctly rounded, and compares such values with
integers without loss.
-/

namespace Docblock

/-- A value of the 64-bit binary format: `mantissa * 2 ^ exponent` with a sign,
an infinity, or no number at all. The mantissa has 53 bits unless the exponent
is the least one. -/
inductive Binary64
  | finite (negative : Bool) (mantissa : Nat) (exponent : Int)
  | infinite (negative : Bool)
  | undefined
deriving DecidableEq, Repr

namespace Binary64

/-- The least exponent of the format. -/
def leastExponent : Int := -1074

/-- The number of bits of a full mantissa. -/
def mantissaBits : Nat := 53

/-- The quotient of two naturals, rounded to the nearest natural; a half goes to
the even one. -/
def roundedQuotient (numerator denominator : Nat) : Nat :=
  let quotient := numerator / denominator
  let twice := 2 * (numerator % denominator)
  if twice < denominator then quotient
  else if twice = denominator then quotient + quotient % 2
  else quotient + 1

/-- A fraction scaled by a power of two, rounded to a natural. -/
def scaledRound (numerator denominator : Nat) (exponent : Int) : Nat :=
  roundedQuotient (numerator * Nat.pow 2 (-exponent).toNat)
    (denominator * Nat.pow 2 exponent.toNat)

/-- The exponent with which a positive fraction fills the mantissa, found from the lengths of
its two parts. -/
def fullExponent (numerator denominator : Nat) : Int :=
  let estimate : Int := (Nat.log2 numerator : Int) - Nat.log2 denominator - (mantissaBits - 1)
  if numerator * Nat.pow 2 (-estimate).toNat <
      denominator * Nat.pow 2 estimate.toNat * Nat.pow 2 (mantissaBits - 1) then
    estimate - 1
  else estimate

/-- The value of a mantissa that rounding may have filled beyond its bits. -/
def ofMantissa (negative : Bool) (mantissa : Nat) (exponent : Int) : Binary64 :=
  let (mantissa, exponent) :=
    if mantissa = Nat.pow 2 mantissaBits then (Nat.pow 2 (mantissaBits - 1), exponent + 1)
    else (mantissa, exponent)
  if exponent > 971 then .infinite negative else .finite negative mantissa exponent

/-- The nearest value to a positive fraction. -/
def ofFraction (negative : Bool) (numerator denominator : Nat) : Binary64 :=
  let exponent := max (fullExponent numerator denominator) leastExponent
  ofMantissa negative (scaledRound numerator denominator exponent) exponent

/-- The nearest value to `digits * 10 ^ exponent`. Exponents far outside of the
format are settled without computing the power. -/
def ofDecimal (negative : Bool) (digits : Nat) (exponent : Int) : Binary64 :=
  if digits = 0 then .finite negative 0 leastExponent
  else
    let scale := exponent + (Nat.toDigits 10 digits).length
    if scale > 400 then .infinite negative
    else if scale < -400 then .finite negative 0 leastExponent
    else ofFraction negative (digits * Nat.pow 10 exponent.toNat) (Nat.pow 10 (-exponent).toNat)

/-- The nearest value to a natural times a power of two. -/
def ofDyadic (mantissa : Nat) (exponent : Int) : Binary64 :=
  if mantissa = 0 then .finite false 0 leastExponent
  else ofFraction false (mantissa * Nat.pow 2 exponent.toNat) (Nat.pow 2 (-exponent).toNat)

/-- A value and a multiple of another one added, for values that are not negative;
the product and the sum are rounded. -/
def plusScaled (total part : Binary64) (scale : Nat) : Binary64 :=
  match part with
  | .finite _ mantissa exponent =>
    match total, ofDyadic (mantissa * scale) exponent with
    | .finite _ m e, .finite _ n f =>
      let least := min e f
      ofDyadic (m * Nat.pow 2 (e - least).toNat + n * Nat.pow 2 (f - least).toNat) least
    | _, other => other
  | other => other

/-- A value with a sign. -/
def signed (negative : Bool) : Binary64 → Binary64
  | .finite sign mantissa exponent => .finite (sign != negative) mantissa exponent
  | .infinite sign => .infinite (sign != negative)
  | .undefined => .undefined

/-- Whether a value is zero of either sign. -/
def isZero : Binary64 → Bool
  | .finite _ 0 _ => true
  | _ => false

/-- Whether a value equals an integer exactly. -/
def equalsInt (x : Binary64) (i : Int) : Bool :=
  match x with
  | .finite negative mantissa exponent =>
    let scaled : Int := (mantissa * Nat.pow 2 exponent.toNat : Nat)
    (if negative then -scaled else scaled) == i * Nat.pow 2 (-exponent).toNat
  | _ => false

/-- Equality of numbers: the two zeros are equal, and what is no number equals
nothing. -/
def equals : Binary64 → Binary64 → Bool
  | .undefined, _ => false
  | _, .undefined => false
  | x, y => (x.isZero && y.isZero) || x == y

end Binary64
end Docblock
