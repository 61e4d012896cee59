import Docblock.Text.Blank
import Docblock.Text.WordChar

/-!
# Lexemes of source text

Source text is cut into lexemes from the left. Every class of lexemes has a
rule that measures how many characters at the front belong to it; the classes
are tried in a fixed order and the first that matches wins, a single character
being the last resort. So each lexeme has at least one character, and the
lexemes of a text put together are that text again, whatever the text is.
-/

namespace Docblock.Source

/-- The classes of lexemes. -/
inductive Kind
  | doc | comment | heredoc | string | tag | variable | name | number | attributeOpening
  | punctuation
  | space | other
deriving DecidableEq, Repr

/-- A piece of source text with its class. -/
structure Lexeme where
  kind : Kind
  text : Text
deriving DecidableEq, Repr

/-- The length up to the end of the first occurrence of a text. -/
def lengthThrough (needle : Text) : Text → Option Nat
  | [] => if needle.isEmpty then some 0 else none
  | c :: rest =>
    if needle.isPrefixOf (c :: rest) then some needle.length
    else (lengthThrough needle rest).map (· + 1)

/-- How many characters at the front are of a class. -/
def runLength (p : Char → Bool) (s : Text) : Nat := (s.takeWhile p).length

/-- The length of a lexeme that opens with one text and ends with the first
occurrence of another one behind it. -/
def delimited (opening closing : Text) (s : Text) : Option Nat :=
  if opening.isPrefixOf s then
    (lengthThrough closing (s.drop opening.length)).map (opening.length + ·)
  else none

/-- An identifier: a Latin letter or an underscore, then word characters. -/
def identifierLength : Text → Option Nat
  | [] => none
  | c :: rest => if Text.isNameStart c then some (1 + runLength Text.isWordChar rest) else none

/-- A documentation comment. -/
def docLength (s : Text) : Option Nat := delimited ['/', '*', '*'] ['*', '/'] s

/-- A comment to the end of the line, or a block comment. A number sign before
a square bracket opens an attribute instead. -/
def commentLength (s : Text) : Option Nat :=
  match delimited ['/', '*'] ['*', '/'] s with
  | some n => some n
  | none =>
    match s with
    | '/' :: '/' :: rest => some (2 + runLength (· != '\n') rest)
    | '#' :: rest => if rest.head? = some '[' then none else some (1 + runLength (· != '\n') rest)
    | _ => none

/-- A blank that may stand before or after a heredoc label. -/
def isIndent (c : Char) : Bool := c == ' ' || c == '\t'

/-- The length of blanks and a label at the front of a line, if no word
character goes on behind the label. -/
def labelLineLength (label line : Text) : Option Nat :=
  let indent := runLength isIndent line
  let rest := line.drop indent
  if label.isPrefixOf rest && !((rest.drop label.length).head?.any Text.isWordChar) then
    some (indent + label.length)
  else none

/-- The length through the first line break that a label line follows, the
label included. -/
def heredocBodyLength (label : Text) : Text → Option Nat
  | [] => none
  | c :: rest =>
    match if c = '\n' then labelLineLength label rest else none with
    | some n => some (1 + n)
    | none => (heredocBodyLength label rest).map (· + 1)

/-- The length of a line feed at the front, with a carriage return before it or
without. -/
def newlineLength : Text → Option Nat
  | '\n' :: _ => some 1
  | '\r' :: '\n' :: _ => some 2
  | _ => none

/-- A heredoc: three opening angles, a label that may be quoted, the end of the
line, and all that follows up to the label at the front of a later line. -/
def heredocLength (s : Text) : Option Nat := do
  guard (['<', '<', '<'].isPrefixOf s)
  let indent := runLength isIndent (s.drop 3)
  let opened := s.drop (3 + indent)
  let quote := opened.take 1 |>.filter fun c => c == '\x27' || c == '"'
  let labelled := opened.drop quote.length
  let width ← identifierLength labelled
  let closed := labelled.drop width
  guard (quote.isPrefixOf closed)
  let newline ← newlineLength (closed.drop quote.length)
  let body ← heredocBodyLength (labelled.take width) (closed.drop (quote.length + newline))
  pure (3 + indent + quote.length + width + quote.length + newline + body)

/-- The length of the rest of a quoted string through its closing quote; a
backslash takes the next character with it. -/
def stringRestLength (quote : Char) : Text → Option Nat
  | [] => none
  | [c] => if c = quote then some 1 else none
  | c :: d :: rest =>
    if c = quote then some 1
    else if c = '\\' then (stringRestLength quote rest).map (· + 2)
    else (stringRestLength quote (d :: rest)).map (· + 1)

/-- A quoted string. -/
def stringLength : Text → Option Nat
  | '\x27' :: rest => (stringRestLength '\x27' rest).map (· + 1)
  | '"' :: rest => (stringRestLength '"' rest).map (· + 1)
  | _ => none

/-- The length of the first of the listed texts that stands at the front. -/
def listedLength (listed : List Text) (s : Text) : Option Nat :=
  (listed.find? (·.isPrefixOf s)).map List.length

/-- An opening or closing tag around code. -/
def tagLength (s : Text) : Option Nat :=
  listedLength (["<?php", "<?=", "<?", "?>"].map String.toList) s

/-- A variable: a dollar sign and an identifier. -/
def variableLength : Text → Option Nat
  | '$' :: rest => (identifierLength rest).map (· + 1)
  | _ => none

/-- The length of further segments of a name, each a backslash and an
identifier. -/
def segmentsLength : Text → Nat
  | [] => 0
  | c :: rest =>
    if c = '\\' then
      match identifierLength rest with
      | none => 0
      | some width => 1 + width + segmentsLength (rest.drop width)
    else 0
termination_by s => s.length
decreasing_by simp only [List.length_drop, List.length_cons]; omega

/-- Identifiers between backslashes; one backslash may stand before them. -/
def pathLength (s : Text) : Option Nat :=
  let root := if s.head? = some '\\' then 1 else 0
  (identifierLength (s.drop root)).map fun width =>
    root + width + segmentsLength (s.drop (root + width))

/-- A name: a path, and one backslash that may stand behind it. -/
def nameLength (s : Text) : Option Nat :=
  (pathLength s).map fun width =>
    if (s.drop width).head? = some '\\' then width + 1 else width

/-- A number: a digit, then word characters and points. -/
def numberLength : Text → Option Nat
  | [] => none
  | c :: rest =>
    if Text.isDigit c then some (1 + runLength (fun d => Text.isWordChar d || d == '.') rest)
    else none

/-- The opening of an attribute group. -/
def attributeLength (s : Text) : Option Nat := listedLength [['#', '[']] s

/-- Operators and brackets that matter to declarations, longer ones first. -/
def punctuationMarks : List Text :=
  ["::", "...", "=>", "?->", "->", "??=", "??", "\x7b", "\x7d", "(", ")", "[", "]", ";", ",", "=",
    "?", "|", "&", ":"].map String.toList

/-- An operator or a bracket. -/
def punctuationLength (s : Text) : Option Nat := listedLength punctuationMarks s

/-- A run of white space. -/
def spaceLength (s : Text) : Option Nat :=
  let n := runLength Text.isBlank s
  if n = 0 then none else some n

/-- The rules in the order in which they are tried. -/
def rules : List (Kind × (Text → Option Nat)) :=
  [(.doc, docLength), (.comment, commentLength), (.heredoc, heredocLength),
    (.string, stringLength), (.tag, tagLength), (.variable, variableLength), (.name, nameLength),
    (.number, numberLength), (.attributeOpening, attributeLength),
    (.punctuation, punctuationLength),
    (.space, spaceLength)]

/-- The class and the length of the lexeme at the front: those of the first rule
that matches, or one character of no class. -/
def measure (s : Text) : Kind × Nat :=
  (rules.findSome? fun (kind, length) => (length s).map (kind, ·)).getD (.other, 1)

/-- Cuts a text into lexemes. -/
def lexemes : Text → List Lexeme
  | [] => []
  | c :: rest =>
    let (kind, length) := measure (c :: rest)
    ⟨kind, c :: rest.take (length - 1)⟩ :: lexemes (rest.drop (length - 1))
termination_by s => s.length
decreasing_by simp only [List.length_drop, List.length_cons]; omega

end Docblock.Source
