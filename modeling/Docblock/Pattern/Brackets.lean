import Docblock.Pattern.Escape

/-!
# Sets of characters in brackets

A set lists characters, ranges and classes. A hyphen makes a range unless it is
the first or the last character of the set; a closing bracket at the front is a
member. Classes cannot end a range, and a range does not run backwards.
-/

namespace Docblock.Pattern.Reader

/-- Reads one member of a set, given its first character. -/
def setMember : Text → ReadM (Nat ⊕ CharItem)
  | ['\\', c] => escapeInSet c
  | [c] => pure (.inl c.toNat)
  | _ => refuse

/-- The part of a set that consists of one member. -/
def partOf : Nat ⊕ CharItem → CharItem
  | .inl n => .range n n
  | .inr item => item

/-- Reads the parts of a set up to its closing bracket. Each part takes a character
at least, which bounds their number. -/
def setParts : (fuel : Nat) → (parts : List CharItem) → ReadM (List CharItem)
  | 0, _ => refuse
  | fuel + 1, parts => do
    let token ← next
    if token = [']'] ∧ parts ≠ [] then pure parts.reverse
    else
      let first ← setMember token
      if ← accept '-' then
        let after ← next
        if after = [']'] then pure (.range 45 45 :: partOf first :: parts).reverse
        else
          match first, ← setMember after with
          | .inl low, .inl high =>
            if high < low then refuse else setParts fuel (.range low high :: parts)
          | _, _ => refuse
      else setParts fuel (partOf first :: parts)

/-- Reads a set behind its opening bracket. -/
def bracketSet (switches : Switches) : ReadM Item := do
  let negated ← accept '^'
  let items ← setParts ((← get).rest.length + 1) []
  pure (.ofSet switches items negated)

end Docblock.Pattern.Reader
