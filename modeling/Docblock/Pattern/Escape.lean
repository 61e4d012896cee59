import Docblock.Pattern.Reader

/-!
# Escapes in patterns

A backslash takes the meaning off a character, or it starts a code point in digits,
a class of characters, a condition on a place, or a reference to a group. Letters
without a meaning are refused.
-/

namespace Docblock.Pattern

/-- What an item is for a repetition behind it: a condition on a place has nothing
to repeat, and a repetition is not repeated again. -/
inductive ItemSort
  | plain | place | repetition
deriving DecidableEq, Repr

/-- A part of a sequence. -/
structure Item where
  pattern : Pattern
  width : Width := ⟨1, some 1⟩
  sort : ItemSort := .plain

namespace Item

/-- A set of characters as an item. -/
def ofSet (switches : Switches) (items : List CharItem) (negated : Bool := false) : Item :=
  { pattern := .one { items, negated, reading := readingOf switches } }

/-- A code point as an item. -/
def ofCode (switches : Switches) (n : Nat) : Item := ofSet switches [.range n n]

/-- A condition on a place as an item. -/
def ofSpot (spot : Spot) : Item := { pattern := .atSpot spot, width := .zero, sort := .place }

end Item

/-- The code points of the escapes for control characters. -/
def controlEscapes : List (Char × Nat) :=
  [('a', 7), ('b', 8), ('f', 12), ('n', 10), ('r', 13), ('t', 9), ('v', 11), ('\\', 92)]

/-- The classes of the escapes for classes. -/
def classEscape? : Char → Option CharItem
  | 'd' => some (.ofKind .digit true)
  | 'D' => some (.ofKind .digit false)
  | 's' => some (.ofKind .blank true)
  | 'S' => some (.ofKind .blank false)
  | 'w' => some (.ofKind .word true)
  | 'W' => some (.ofKind .word false)
  | _ => none

/-- The conditions of the escapes for places. -/
def spotEscape? (asciiOnly : Bool) : Char → Option Spot
  | 'A' => some .textStart
  | 'Z' => some .textEnd
  | 'b' => some (.wordEdge asciiOnly)
  | 'B' => some (.noWordEdge asciiOnly)
  | _ => none

/-- An ASCII letter. -/
def isLetter (c : Char) : Bool := ('a' ≤ c && c ≤ 'z') || ('A' ≤ c && c ≤ 'Z')

/-- An octal digit. -/
def isOctal (c : Char) : Bool := '0' ≤ c && c ≤ '7'

namespace Reader

/-- Reads the hexadecimal digits of a code point, of which there have to be exactly
as many as given. -/
def hexCode (count : Nat) : ReadM Nat := do
  let digits ← takeUpTo count fun c => (Text.hexDigit? c).isSome
  let n := Text.digitsValue 16 digits
  if digits.length = count ∧ n ≤ 0x10FFFF then pure n else refuse

/-- Reads the digits of a code point behind one of the letters that announce them;
nothing for other characters. -/
def announcedCode (c : Char) : ReadM (Option Nat) :=
  match c with
  | 'x' => some <$> hexCode 2
  | 'u' => some <$> hexCode 4
  | 'U' => some <$> hexCode 8
  | _ => pure none

/-- The code point of a character without its meaning. Letters and digits are
refused. -/
def plainCode (c : Char) : ReadM Nat :=
  if isLetter c || Text.isDecimal c then refuse else pure c.toNat

/-- Reads the rest of a code point in octal digits. -/
def octalCode (digits : Text) : ReadM Nat :=
  let n := Text.digitsValue 8 digits
  if n ≤ 0o377 then pure n else refuse

/-- Reads the rest of an escape in a set of characters. -/
def escapeInSet (c : Char) : ReadM (Nat ⊕ CharItem) := do
  match (controlEscapes.find? (·.1 == c)).map (·.2), classEscape? c with
  | some n, _ => pure (.inl n)
  | none, some item => pure (.inr item)
  | none, none =>
    if isOctal c then
      let more ← takeUpTo 2 isOctal
      .inl <$> octalCode (c :: more)
    else
      match ← announcedCode c with
      | some n => pure (.inl n)
      | none => .inl <$> plainCode c

/-- The item of a reference to a group. -/
def reference (switches : Switches) (index : Nat) : ReadM Item := do
  let width ← closedWidth index
  checkBehind index
  pure { pattern := .same index (readingOf switches), width }

/-- Reads the rest of an escape that starts with a digit: a code point in octal
digits if it starts with a zero or has three of them, else the number of a group in
one or two digits. -/
def numberEscape (switches : Switches) (c : Char) : ReadM Item := do
  if c = '0' then
    let more ← takeUpTo 2 isOctal
    .ofCode switches <$> octalCode (c :: more)
  else
    let second ← takeUpTo 1 Text.isDecimal
    let octal := isOctal c && second.any isOctal
    let third ← if octal then takeUpTo 1 isOctal else pure []
    if third ≠ [] then .ofCode switches <$> octalCode (c :: second ++ third)
    else reference switches (Text.digitsValue 10 (c :: second))

/-- Reads the rest of an escape outside of sets. -/
def escape (switches : Switches) (c : Char) : ReadM Item := do
  match spotEscape? (switches.contains 'a') c, classEscape? c,
      (controlEscapes.find? (·.1 == c)).map (·.2) with
  | some spot, _, _ => pure (.ofSpot spot)
  | none, some item, _ => pure (.ofSet switches [item])
  | none, none, some n => pure (.ofCode switches n)
  | none, none, none =>
    if Text.isDecimal c then numberEscape switches c
    else
      match ← announcedCode c with
      | some n => pure (.ofCode switches n)
      | none => .ofCode switches <$> plainCode c

end Reader
end Docblock.Pattern
