import Docblock.Text.Basic

/-!
# Text as UTF-8 bytes

Bytes are read one piece at a time. A piece is a well-formed sequence, which
stands for a character, or the longest start of one that its next byte does not
continue. A strict reading refuses text with a piece of the second kind; a
lenient one puts the replacement character in its place.
-/

namespace Docblock.Text.Utf8

/-- What the first byte of a sequence says: how many bytes follow, what the
first byte adds to the code point, and the bounds of the second byte. The bounds
keep out longer spellings than needed, surrogates and numbers past the last code
point. -/
structure Lead where
  following : Nat
  value : Nat
  least : Nat := 0x80
  most : Nat := 0xBF

/-- What a byte says as the first of a sequence, if it can be one. -/
def lead? (b : Nat) : Option Lead :=
  if b < 0x80 then some { following := 0, value := b }
  else if b < 0xC2 then none
  else if b < 0xE0 then some { following := 1, value := b - 0xC0 }
  else if b = 0xE0 then some { following := 2, value := 0, least := 0xA0 }
  else if b = 0xED then some { following := 2, value := 0xD, most := 0x9F }
  else if b < 0xF0 then some { following := 2, value := b - 0xE0 }
  else if b = 0xF0 then some { following := 3, value := 0, least := 0x90 }
  else if b < 0xF4 then some { following := 3, value := b - 0xF0 }
  else if b = 0xF4 then some { following := 3, value := 4, most := 0x8F }
  else none

/-- Reads the bytes that follow a first byte, up to one that is out of bounds. -/
def continued : (following value least most : Nat) → List UInt8 → Option Nat × List UInt8
  | 0, value, _, _, bytes => (some value, bytes)
  | _ + 1, _, _, _, [] => (none, [])
  | following + 1, value, least, most, b :: rest =>
    if least ≤ b.toNat ∧ b.toNat ≤ most then
      continued following (value * 64 + (b.toNat - 0x80)) 0x80 0xBF rest
    else (none, b :: rest)

/-- Reading what follows a first byte never leaves more bytes than there were. -/
theorem continued_length_le (following value least most : Nat) (bytes : List UInt8) :
    (continued following value least most bytes).2.length ≤ bytes.length := by
  induction following generalizing value least most bytes with
  | zero => simp [continued]
  | succ following inductionHypothesis =>
    cases bytes with
    | nil => simp [continued]
    | cons b rest =>
      simp only [continued]
      split
      · exact Nat.le_succ_of_le (inductionHypothesis _ _ _ _)
      · exact Nat.le_refl _

/-- The code point of the piece that starts with a byte, if it is well formed,
and the bytes behind the piece. -/
def piece (b : UInt8) (rest : List UInt8) : Option Nat × List UInt8 :=
  match lead? b.toNat with
  | none => (none, rest)
  | some lead => continued lead.following lead.value lead.least lead.most rest

/-- A piece takes at least its first byte. -/
theorem piece_length_le (b : UInt8) (rest : List UInt8) :
    (piece b rest).2.length ≤ rest.length := by
  simp only [piece]
  split
  · exact Nat.le_refl _
  · exact continued_length_le ..

/-- The characters of the pieces of some bytes. -/
def pieces : List UInt8 → List (Option Char)
  | [] => []
  | b :: rest => (piece b rest).1.map Char.ofNat :: pieces (piece b rest).2
termination_by bytes => bytes.length
decreasing_by exact Nat.lt_succ_of_le (piece_length_le b rest)

/-- The character that stands for what is not well formed. -/
def replacement : Char := Char.ofNat 0xFFFD

/-- The text of some bytes if all of it is well formed. -/
def decode? (bytes : List UInt8) : Option Text := (pieces bytes).mapM id

/-- The text of some bytes, with the replacement character for each piece that
is not well formed. -/
def decodeLeniently (bytes : List UInt8) : Text := (pieces bytes).map (·.getD replacement)

/-- The bytes of a text. -/
def encode (s : Text) : List UInt8 := s.flatMap String.utf8EncodeChar

end Docblock.Text.Utf8
