import Docblock.Number.Binary64
import Docblock.Text.Basic

/-!
# Document values

The values that configuration files and signature manifests hold: scalars,
lists and maps whose keys are values themselves. Maps keep the order in which
their keys were entered. A document may hold values of further kinds, such as
dates, bytes, sets and tuples. What such a value is made of is not known here, only
what can be seen of it from outside.

Equality is that of the document language and not that of the representation:
the truth values count as one and zero, an integer equals the same number with
a point, and the order of a map does not matter.
-/

namespace Docblock

/-- What can be seen of a value of a further kind, apart from its items. -/
structure Traits where
  /-- What values that equal each other have in common, and no others. -/
  identity : Text
  /-- The text that it stands for. -/
  text : Text
  /-- Its notation inside of lists and maps. -/
  notated : Text
  /-- Whether it counts as given. -/
  isGiven : Bool
  /-- Whether it can be gone through. -/
  hasItems : Bool
deriving DecidableEq, Repr

/-- A document value. -/
inductive Value
  | null
  | flag (holds : Bool)
  | int (number : Int)
  | float (number : Binary64)
  | text (content : Text)
  | list (items : List Value)
  | map (entries : List (Value × Value))
  | foreign (traits : Traits) (items : List Value)
deriving Repr

instance : Inhabited Value := ⟨.null⟩

/-- The entries of a map in the order in which their keys were entered. -/
abbrev Entries := List (Value × Value)

namespace Value

/-- The number that a scalar counts as in a comparison, if it counts as one. -/
def asInt? : Value → Option Int
  | .flag holds => some (if holds then 1 else 0)
  | .int number => some number
  | _ => none

/-- Equality of scalars of any two kinds. -/
def sameScalar (a b : Value) : Bool :=
  match a, b with
  | .null, .null => true
  | .text s, .text t => s == t
  | .foreign s _, .foreign t _ => s.identity == t.identity
  | .float x, .float y => x.equals y
  | .float x, b => (b.asInt?.map x.equalsInt).getD false
  | a, .float y => (a.asInt?.map y.equalsInt).getD false
  | a, b =>
    match a.asInt?, b.asInt? with
    | some i, some j => i == j
    | _, _ => false

mutual

/-- Equality of values. -/
def same : Value → Value → Bool
  | .list xs, .list ys => sameItems xs ys
  | .map xs, .map ys => xs.length == ys.length && sameEntries xs ys
  | a, b => sameScalar a b

/-- Equality of lists, item by item. -/
def sameItems : List Value → List Value → Bool
  | [], [] => true
  | x :: xs, y :: ys => same x y && sameItems xs ys
  | _, _ => false

/-- Whether each entry has an equal one among others. -/
def sameEntries : List (Value × Value) → List (Value × Value) → Bool
  | [], _ => true
  | (key, value) :: rest, others =>
    others.any (fun other => same key other.1 && same value other.2) && sameEntries rest others

end

/-- The value under a key. -/
def find? (key : Value) (entries : Entries) : Option Value :=
  (entries.find? fun entry => entry.1.same key).map (·.2)

/-- Enters a value in the place of an earlier one under an equal key, or at the
end. -/
def put (key value : Value) : Entries → Entries
  | [] => [(key, value)]
  | (k, old) :: rest => if k.same key then (k, value) :: rest else (k, old) :: put key value rest

/-- The value under a text key; null if there is none. -/
def field (name : String) (entries : Entries) : Value :=
  (find? (.text name.toList) entries).getD .null

/-- Whether a value counts as given: null, false, zero and everything empty do
not. -/
def isGiven : Value → Bool
  | .null => false
  | .flag holds => holds
  | .int number => number != 0
  | .float number => !number.isZero
  | .text content => !content.isEmpty
  | .list items => !items.isEmpty
  | .map entries => !entries.isEmpty
  | .foreign traits _ => traits.isGiven

/-- The items of a value that is gone through: those of a list, the keys of a
map, the characters of a text. A value that is not given has no items. A truth
value or a number that is given cannot be gone through, and of the further kinds
only some can. -/
def items? (value : Value) : Option (List Value) :=
  if !value.isGiven then some []
  else
    match value with
    | .list items => some items
    | .map entries => some (entries.map (·.1))
    | .text content => some (content.map fun c => .text [c])
    | .foreign traits items => if traits.hasItems then some items else none
    | _ => none

end Value
end Docblock
