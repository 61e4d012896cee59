import Docblock.Text.LetterCase

/-!
# Comparing letters without regard to case

Two characters are the same letter when their small letters are equal, or when
both small letters are listed as forms of one letter, such as the dotted and
the dotless i or the two small sigmas.
-/

namespace Docblock.Text

/-- Small letters that are forms of one letter, each with the others. -/
def letterForms : List (Nat × List Nat) :=
  [(0x69, [0x131]), (0x73, [0x17F]), (0xB5, [0x3BC]), (0x131, [0x69]), (0x17F, [0x73]),
    (0x345, [0x3B9, 0x1FBE]), (0x390, [0x1FD3]), (0x3B0, [0x1FE3]), (0x3B2, [0x3D0]),
    (0x3B5, [0x3F5]), (0x3B8, [0x3D1]), (0x3B9, [0x345, 0x1FBE]), (0x3BA, [0x3F0]),
    (0x3BC, [0xB5]), (0x3C0, [0x3D6]), (0x3C1, [0x3F1]), (0x3C2, [0x3C3]), (0x3C3, [0x3C2]),
    (0x3C6, [0x3D5]), (0x3D0, [0x3B2]), (0x3D1, [0x3B8]), (0x3D5, [0x3C6]), (0x3D6, [0x3C0]),
    (0x3F0, [0x3BA]), (0x3F1, [0x3C1]), (0x3F5, [0x3B5]), (0x432, [0x1C80]), (0x434, [0x1C81]),
    (0x43E, [0x1C82]), (0x441, [0x1C83]), (0x442, [0x1C84, 0x1C85]), (0x44A, [0x1C86]),
    (0x463, [0x1C87]), (0x1C80, [0x432]), (0x1C81, [0x434]), (0x1C82, [0x43E]), (0x1C83, [0x441]),
    (0x1C84, [0x442, 0x1C85]), (0x1C85, [0x442, 0x1C84]), (0x1C86, [0x44A]), (0x1C87, [0x463]),
    (0x1C88, [0xA64B]), (0x1E61, [0x1E9B]), (0x1E9B, [0x1E61]), (0x1FBE, [0x345, 0x3B9]),
    (0x1FD3, [0x390]), (0x1FE3, [0x3B0]), (0xA64B, [0x1C88]), (0xFB05, [0xFB06]),
    (0xFB06, [0xFB05])]

/-- The small letter of a character, as one character. -/
def smallLetter (c : Char) : Char :=
  if c.toNat < 128 then (if 'A' ≤ c && c ≤ 'Z' then Char.ofNat (c.toNat + 32) else c)
  else if c.toNat = 0x130 then 'i'
  else Char.ofNat (smallOf c.toNat)

/-- Whether two characters are the same letter. -/
def sameLetter (a b : Char) : Bool :=
  let x := smallLetter a
  let y := smallLetter b
  x == y || letterForms.any fun form => form.1 == x.toNat && form.2.contains y.toNat

/-- The capitals of a small letter, by code point. -/
def capitalsOf (small : Nat) : List Nat :=
  let ascii := if 97 ≤ small ∧ small ≤ 122 then [small - 32] else []
  let dotted := if small = 0x69 then [0x130] else []
  let listed := caseRuns.filterMap fun run =>
    let capital := (Int.ofNat small - run.distance).toNat
    if run.first ≤ capital ∧ capital ≤ run.last ∧ smallOf capital = small then some capital
    else none
  ascii ++ dotted ++ listed

/-- All characters that are the same letter as a character, by code point. -/
def letterVariants (c : Char) : List Nat :=
  let small := (smallLetter c).toNat
  let forms := small :: (letterForms.filter (·.1 == small)).flatMap (·.2)
  forms.flatMap fun form => form :: capitalsOf form

/-- Whether a text starts with another one, letters compared without regard to
case. -/
def startsWithLetters : Text → Text → Bool
  | [], _ => true
  | _ :: _, [] => false
  | c :: wanted, d :: s => sameLetter c d && startsWithLetters wanted s

end Docblock.Text
