import Docblock.Text.Blank
import Docblock.Text.CaseFold

/-!
# Patterns

A pattern describes texts. Beside characters, sequences, choices and repetitions
it has groups that remember what they matched, references back to a group, and
conditions on the place between two characters or on what stands before or
after it.
-/

namespace Docblock

namespace Pattern

/-- How characters are compared: with or without regard to case, and with the
classes and letters of Unicode or of ASCII only. -/
structure Reading where
  foldsCase : Bool := false
  asciiOnly : Bool := false
deriving DecidableEq, Repr

/-- A named class of characters. -/
inductive CharKind
  | digit | blank | word
deriving DecidableEq, Repr

/-- Part of a set of characters: those between two code points, or those that are
or are not of a class. -/
inductive CharItem
  | range (low high : Nat)
  | ofKind (kind : CharKind) (inside : Bool)
deriving DecidableEq, Repr

/-- A set of characters, or all characters but those of a set. -/
structure CharSet where
  items : List CharItem
  negated : Bool := false
  reading : Reading := {}
deriving DecidableEq, Repr

/-- A condition on a place in a text. -/
inductive Spot
  | textStart | lineStart | textEnd | lineEnd | lastLineEnd
  | wordEdge (asciiOnly : Bool)
  | noWordEdge (asciiOnly : Bool)
deriving DecidableEq, Repr

/-- How often a repetition matches when several numbers are possible: as often as
it can or as rarely as it can, or as often as it can without trying less. -/
inductive Appetite
  | greedy | reluctant | possessive
deriving DecidableEq, Repr

end Pattern

/-- A pattern. -/
inductive Pattern
  | empty
  | never
  | one (set : Pattern.CharSet)
  | atSpot (spot : Pattern.Spot)
  | sequence (first second : Pattern)
  | choice (first second : Pattern)
  | repeated (least : Nat) (most : Option Nat) (appetite : Pattern.Appetite) (body : Pattern)
  | group (index : Nat) (body : Pattern)
  | same (index : Nat) (reading : Pattern.Reading)
  | whenMatched (index : Nat) (yes no : Pattern)
  | atomic (body : Pattern)
  | ahead (wanted : Bool) (body : Pattern)
  | behind (wanted : Bool) (width : Nat) (body : Pattern)
deriving Repr

namespace Pattern

/-- Whether a character is of a class. -/
def CharKind.holds (asciiOnly : Bool) (c : Char) : CharKind → Bool
  | .digit => if asciiOnly then '0' ≤ c && c ≤ '9' else Text.isDigit c
  | .blank =>
    if asciiOnly then c.toNat = 32 || (9 ≤ c.toNat && c.toNat ≤ 13) else Text.isBlank c
  | .word => Text.isWordChar c && (!asciiOnly || c.toNat < 128)

/-- The code points that count as a character. -/
def Reading.variants (reading : Reading) (c : Char) : List Nat :=
  if !reading.foldsCase then [c.toNat]
  else if !reading.asciiOnly then Text.letterVariants c
  else if 'a' ≤ c && c ≤ 'z' then [c.toNat, c.toNat - 32]
  else if 'A' ≤ c && c ≤ 'Z' then [c.toNat, c.toNat + 32]
  else [c.toNat]

/-- Whether two characters count as the same one. -/
def Reading.equates (reading : Reading) (a b : Char) : Bool :=
  (reading.variants a).contains b.toNat

/-- Whether a character belongs to a part of a set. -/
def CharItem.holds (reading : Reading) (c : Char) : CharItem → Bool
  | .range low high => (reading.variants c).any fun n => low ≤ n && n ≤ high
  | .ofKind kind inside => kind.holds reading.asciiOnly c == inside

/-- Whether a character belongs to a set. -/
def CharSet.holds (set : CharSet) (c : Char) : Bool :=
  set.items.any (·.holds set.reading c) != set.negated

end Pattern
end Docblock
