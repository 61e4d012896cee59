import Docblock.Value.Basic

/-!
# Identical values

Whether two document values are the same value, constructor by constructor and entry by
entry. That is finer than the equality of the document language: the order of a map
counts, and a truth value, an integer and a number with a point are never identical.
-/

namespace Docblock.Value

mutual

/-- Whether two values are identical. -/
def isIdentical : Value → Value → Bool
  | .null, .null => true
  | .flag a, .flag b => a == b
  | .int a, .int b => a == b
  | .float a, .float b => a == b
  | .text a, .text b => a == b
  | .list a, .list b => areIdentical a b
  | .map a, .map b => haveIdentical a b
  | .foreign a items, .foreign b others => a == b && areIdentical items others
  | _, _ => false

/-- Whether two lists hold identical values. -/
def areIdentical : List Value → List Value → Bool
  | [], [] => true
  | a :: as, b :: bs => isIdentical a b && areIdentical as bs
  | _, _ => false

/-- Whether two maps have identical entries in the same order. -/
def haveIdentical : List (Value × Value) → List (Value × Value) → Bool
  | [], [] => true
  | (k, a) :: as, (l, b) :: bs => isIdentical k l && isIdentical a b && haveIdentical as bs
  | _, _ => false

end

mutual

/-- Identical values are equal. -/
theorem isIdentical_iff (a b : Value) : isIdentical a b = true ↔ a = b := by
  cases a <;> cases b <;> simp [isIdentical, areIdentical_iff, haveIdentical_iff]

/-- Lists of identical values are equal. -/
theorem areIdentical_iff (a b : List Value) : areIdentical a b = true ↔ a = b := by
  cases a <;> cases b <;> simp [areIdentical, isIdentical_iff, areIdentical_iff]

/-- Maps of identical entries are equal. -/
theorem haveIdentical_iff (a b : List (Value × Value)) : haveIdentical a b = true ↔ a = b := by
  cases a <;> cases b <;>
    simp [haveIdentical, isIdentical_iff, haveIdentical_iff, Prod.ext_iff]

end

instance : DecidableEq Value := fun a b => decidable_of_iff _ (isIdentical_iff a b)

end Docblock.Value
