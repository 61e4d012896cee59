import Docblock.Text.Basic

/-!
# Places in a YAML text

A cursor is the rest of a text with the line, the column and the offset at which
it starts. Carriage returns do not occur: the newlines of a stored text are
unified before it is read.
-/

namespace Docblock.Yaml

/-- Characters that end a line. -/
def isBreak (c : Char) : Bool :=
  c == '\n' || c.toNat == 0x85 || c.toNat == 0x2028 || c.toNat == 0x2029

/-- The text that a line break stands for: the two separators are kept. -/
def breakText (c : Char) : Char :=
  if c.toNat == 0x2028 || c.toNat == 0x2029 then c else '\n'

/-- A blank inside of a line. -/
def isSpace (c : Char) : Bool := c == ' ' || c == '\t'

/-- A blank or a line break. -/
def isGap (c : Char) : Bool := isSpace c || isBreak c

/-- Whether a text ends or goes on with a blank or a line break. -/
def startsWithGap (s : Text) : Bool := s.head?.all isGap

/-- The mark of byte order. -/
def byteOrderMark : Char := Char.ofNat 0xFEFF

/-- Characters that may occur in a YAML text. -/
def isAllowed (c : Char) : Bool :=
  let n := c.toNat
  n == 9 || n == 10 || n == 13 || (0x20 ≤ n && n ≤ 0x7E) || n == 0x85 ||
    (0xA0 ≤ n && n ≤ 0xD7FF) || (0xE000 ≤ n && n ≤ 0xFFFD) || 0x10000 ≤ n

/-- The rest of a text and where it starts. -/
structure Cursor where
  rest : Text
  line : Nat := 0
  column : Nat := 0
  index : Nat := 0

namespace Cursor

/-- Goes on by one character. A mark of byte order takes no column. -/
def next (cursor : Cursor) : Cursor :=
  match cursor.rest with
  | [] => cursor
  | c :: rest =>
    if isBreak c then ⟨rest, cursor.line + 1, 0, cursor.index + 1⟩
    else
      ⟨rest, cursor.line, if c = byteOrderMark then cursor.column else cursor.column + 1,
        cursor.index + 1⟩

/-- Goes on by some characters. -/
def advance (cursor : Cursor) : Nat → Cursor
  | 0 => cursor
  | n + 1 => cursor.next.advance n

/-- Goes on to a later rest of the same text. -/
def advanceTo (cursor : Cursor) (rest : Text) : Cursor :=
  cursor.advance (cursor.rest.length - rest.length)

/-- Goes on over blanks up to a column. -/
def indentTo (column : Nat) (cursor : Cursor) : Cursor :=
  cursor.advance
    (min (column - cursor.column) ((cursor.rest.takeWhile (· == ' ')).length))

end Cursor

/-- Whether a document marker of three characters stands at the front. -/
def startsWithMarker (c : Char) (s : Text) : Bool :=
  [c, c, c].isPrefixOf s && startsWithGap (s.drop 3)

/-- Whether a line starts or ends a document. -/
def isDocumentLine (s : Text) : Bool := startsWithMarker '-' s || startsWithMarker '.' s

end Docblock.Yaml
