import Docblock.Number.Binary64
import Docblock.Text.Basic

/-!
# Shortest decimals

A value is written with the fewest decimal digits that read back to it, the
nearest such decimal if there are several. Digits stand positionally from one
ten-thousandth up to below ten to the sixteenth, otherwise with a signed
exponent of at least two digits; a value without a fraction ends in a zero
behind the point.
-/

namespace Docblock.Binary64

/-- The least power of ten above a positive fraction. -/
def decimalScale (numerator denominator : Nat) : Int :=
  let estimate : Int :=
    (Nat.toDigits 10 numerator).length - ((Nat.toDigits 10 denominator).length : Int)
  if numerator * Nat.pow 10 (-estimate).toNat < denominator * Nat.pow 10 estimate.toNat then
    estimate
  else estimate + 1

/-- The decimal with a given last place that reads back to a value and is
nearest to it, given the value as a fraction. -/
def nearestReadingBack? (value : Binary64) (numerator denominator : Nat) (place : Int) :
    Option Nat :=
  let scaled := numerator * Nat.pow 10 (-place).toNat
  let unit := denominator * Nat.pow 10 place.toNat
  let lower := scaled / unit
  let reads := fun digits => ofDecimal false digits place == value
  let lowerIsNearer := 2 * (scaled % unit) < unit || (2 * (scaled % unit) == unit && lower % 2 == 0)
  let candidates := if lowerIsNearer then [lower, lower + 1] else [lower + 1, lower]
  candidates.find? reads

/-- Moves the zeros at the end of some digits into the exponent. -/
def withoutTrailingZeros : Nat → Nat → Int → Nat × Int
  | 0, digits, exponent => (digits, exponent)
  | fuel + 1, digits, exponent =>
    if digits ≠ 0 ∧ digits % 10 = 0 then withoutTrailingZeros fuel (digits / 10) (exponent + 1)
    else (digits, exponent)

/-- The digits and the exponent of the shortest decimal that reads back to a
positive value. -/
def shortest (mantissa : Nat) (exponent : Int) : Nat × Int :=
  let value := Binary64.finite false mantissa exponent
  let numerator := mantissa * Nat.pow 2 exponent.toNat
  let denominator := Nat.pow 2 (-exponent).toNat
  let scale := decimalScale numerator denominator
  let found := (List.range 17).findSome? fun n =>
    let place := scale - ((n + 1 : Nat) : Int)
    (nearestReadingBack? value numerator denominator place).map fun digits => (digits, place)
  match found with
  | some (digits, place) => withoutTrailingZeros 20 digits place
  | none => (numerator * Nat.pow 10 (-exponent).toNat / denominator, exponent)

/-- The written form of digits with an exponent. -/
def layout (digits : Nat) (exponent : Int) : Text :=
  let figures := Text.ofNat digits
  let point : Int := figures.length + exponent
  if -4 < point ∧ point ≤ 16 then
    if point ≤ 0 then '0' :: '.' :: List.replicate (-point).toNat '0' ++ figures
    else if exponent ≥ 0 then figures ++ List.replicate exponent.toNat '0' ++ ['.', '0']
    else figures.take point.toNat ++ '.' :: figures.drop point.toNat
  else
    let power := point - 1
    let magnitude := Text.ofNat power.natAbs
    let padded := if magnitude.length < 2 then '0' :: magnitude else magnitude
    let fraction := if figures.length > 1 then '.' :: figures.drop 1 else []
    figures.take 1 ++ fraction ++ 'e' :: (if power < 0 then '-' else '+') :: padded

/-- The written form of a value. -/
def toText : Binary64 → Text
  | .undefined => "nan".toList
  | .infinite negative => (if negative then "-inf" else "inf").toList
  | .finite negative mantissa exponent =>
    let unsigned :=
      if mantissa = 0 then "0.0".toList
      else
        let (digits, place) := shortest mantissa exponent
        layout digits place
    if negative then '-' :: unsigned else unsigned

end Docblock.Binary64
