import Docblock.Text.Digits
import Docblock.Text.WordChar
import Docblock.Yaml.Cursor

/-!
# Quoted scalars

A quoted scalar ends with the quote it starts with. Line breaks inside of it are
folded: one break is a blank, further breaks stay, and the blanks around them
go. In single quotes a quote is written twice; in double quotes a backslash
starts an escape.
-/

namespace Docblock.Yaml

/-- The characters that escapes of one character stand for. -/
def escapes : List (Char × Nat) :=
  [('0', 0), ('a', 7), ('b', 8), ('t', 9), ('\t', 9), ('n', 10), ('v', 11), ('f', 12), ('r', 13),
    ('e', 0x1B), (' ', 0x20), ('"', 0x22), ('\\', 0x5C), ('/', 0x2F), ('N', 0x85), ('_', 0xA0),
    ('L', 0x2028), ('P', 0x2029)]

/-- The number of digits behind the escapes that give a code point. -/
def codeEscapes : List (Char × Nat) := [('x', 2), ('u', 4), ('U', 8)]

/-- The character with a code point. Surrogates have a stand-in; beyond the last
code point there is none. -/
def charOfCode? (n : Nat) : Option Char :=
  if 0x10FFFF < n then none
  else some (if n.isValidChar then Char.ofNat n else Char.ofNat 0xFFFD)

/-- Line breaks at the start of a line inside a quoted scalar, with the blanks
that follow each, and the rest behind them. A document marker may not stand at
the start of such a line. -/
def foldedBreaks : Text → Option (Text × Text)
  | [] => some ([], [])
  | c :: rest =>
    if isDocumentLine (c :: rest) then none
    else
      match (c :: rest).dropWhile isSpace with
      | [] => some ([], [])
      | d :: more =>
        if isBreak d then
          if more.length < (c :: rest).length then
            (foldedBreaks more).map fun (breaks, left) => (breakText d :: breaks, left)
          else none
        else some ([], d :: more)
termination_by s => s.length
decreasing_by assumption

/-- What the gap at the front of a text stands for inside of a quoted scalar, and
the rest behind it. A scalar may not end in a gap. -/
def foldedGap (s : Text) : Option (Text × Text) :=
  let blanks := s.takeWhile isSpace
  match s.drop blanks.length with
  | [] => none
  | c :: rest =>
    if isBreak c then
      (foldedBreaks rest).map fun (breaks, left) =>
        if breakText c ≠ '\n' then (breakText c :: breaks, left)
        else if breaks = [] then ([' '], left)
        else (breaks, left)
    else some (blanks, c :: rest)

/-- What the escape behind a backslash stands for, and the rest behind it. -/
def escaped : Text → Option (Text × Text)
  | [] => none
  | c :: rest =>
    match escapes.find? (·.1 == c), codeEscapes.find? (·.1 == c) with
    | some (_, code), _ => some ([Char.ofNat code], rest)
    | none, some (_, width) =>
      if rest.length < width then none
      else
        ((Text.hexNumber? (rest.take width)).bind charOfCode?).map fun c =>
          ([c], rest.drop width)
    | none, none => if isBreak c then foldedBreaks rest else none

/-- The next piece of a quoted scalar and the rest behind it, given the quote and
a rest that does not start with the closing one. -/
def quotedPiece (quote : Char) : Text → Option (Text × Text)
  | [] => none
  | c :: rest =>
    if c = quote then some ([quote], rest.drop 1)
    else if quote = '"' ∧ c = '\\' then escaped rest
    else if isGap c then foldedGap (c :: rest)
    else some ([c], rest)

/-- Whether the closing quote stands at the front; a quote written twice in
single quotes does not close. -/
def closesQuote (quote : Char) : Text → Bool
  | [] => false
  | c :: rest => c == quote && (quote == '"' || rest.head? != some quote)

/-- The content of a quoted scalar behind its opening quote, and the rest behind
the closing one. -/
def quotedContent (quote : Char) (s : Text) : Option (Text × Text) :=
  if closesQuote quote s then some ([], s.drop 1)
  else
    match quotedPiece quote s with
    | none => none
    | some (piece, rest) =>
      if rest.length < s.length then
        (quotedContent quote rest).map fun (content, left) => (piece ++ content, left)
      else none
termination_by s.length

end Docblock.Yaml
