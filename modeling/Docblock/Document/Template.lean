import Docblock.Failure
import Docblock.Text.Quoted

/-!
# Address templates

A template is a text with fields in braces, where a doubled brace stands for a
brace. The only field that can be filled in is called name. Behind the name of a
field may stand an index of one of its characters, a conversion and a format;
the format has a fill, an alignment, a width and a precision, and may hold
fields itself, but those may not hold fields in turn.

Filling a template goes from left to right and ends at the first fault.
-/

namespace Docblock.Template

/-- The template that is used when none is configured. -/
def standard : Text :=
  "https://php.net/manual/en/class.".toList ++ '{' :: "name".toList ++ '}' :: ".php".toList

/-- How many characters the name of a field has, with what stands in square
brackets. A brace may not open inside a name, and the name has to end. -/
def nameLength (bracketed : Bool) : Text → Except TemplateFault Nat
  | [] => .error .malformed
  | c :: rest =>
    if bracketed then (nameLength (c != ']') rest).map (· + 1)
    else if c = '{' then .error .malformed
    else if c = '}' || c = ':' || c = '!' then .ok 0
    else (nameLength (c == '[') rest).map (· + 1)

/-- How many characters a format has up to the brace that closes its field. -/
def formatLength (depth : Nat) : Text → Except TemplateFault Nat
  | [] => .error .malformed
  | c :: rest =>
    if c = '{' then (formatLength (depth + 1) rest).map (· + 1)
    else if c = '}' then
      if depth = 0 then .ok 0 else (formatLength (depth - 1) rest).map (· + 1)
    else (formatLength depth rest).map (· + 1)

/-- A field: its name with indices, its conversion and its format. -/
structure Field where
  name : Text
  conversion : Option Char := none
  format : Text := []
deriving DecidableEq, Repr

/-- Reads a format through the closing brace, and counts the characters read. -/
def readFormat (name : Text) (conversion : Option Char) (read : Nat) (s : Text) :
    Except TemplateFault (Field × Nat) :=
  (formatLength 0 s).map fun n => ({ name, conversion, format := s.take n }, read + n + 1)

/-- Reads the field behind an opening brace through its closing brace, and
counts the characters read. -/
def readField (s : Text) : Except TemplateFault (Field × Nat) :=
  (nameLength false s).bind fun n =>
    let name := s.take n
    match s.drop n with
    | '!' :: conversion :: '}' :: _ => .ok ({ name, conversion := some conversion }, n + 3)
    | '!' :: conversion :: ':' :: rest => readFormat name (some conversion) (n + 3) rest
    | '!' :: _ => .error .malformed
    | ':' :: rest => readFormat name none (n + 1) rest
    | _ => .ok ({ name }, n + 1)

/-- A character that names a place in a row. -/
def isIndexDigit (c : Char) : Bool := Text.isDigit c

/-- The value of a decimal digit of any script. The digits of a script stand in
rows of ten. -/
def digitValue (c : Char) : Nat :=
  if c.toNat < 128 then c.toNat - '0'.toNat
  else
    match Text.digitRanges.find? fun range => range.1 ≤ c.toNat && c.toNat ≤ range.2 with
    | some range => (c.toNat - range.1) % 10
    | none => 0

/-- The greatest number that may stand in a field. -/
def greatestNumber : Nat := Nat.pow 2 63 - 1

/-- Splits the number that the decimal digits at the front stand for off a text;
without digits there is none. -/
def leadingNumber (s : Text) : Except TemplateFault (Option Nat × Text) :=
  let digits := s.takeWhile isIndexDigit
  let number := digits.foldl (fun n c => 10 * n + digitValue c) 0
  if number > greatestNumber then .error .malformed
  else .ok (if digits = [] then none else some number, s.drop digits.length)

/-- The number that a text of decimal digits stands for; none if it is empty or
holds anything else behind them. -/
def number? (s : Text) : Except TemplateFault (Option Nat) :=
  (leadingNumber s).map fun (number, rest) => if rest = [] then number else none

/-- Follows the indices behind the name of a field. A character of a text is
found by its place; a text has no other members. -/
def follow : (fuel : Nat) → (value path : Text) → Except TemplateFault Text
  | 0, value, _ => .ok value
  | fuel + 1, value, path =>
    match path with
    | [] => .ok value
    | '[' :: rest =>
      let index := rest.takeWhile (· != ']')
      match rest.drop index.length with
      | [] => .error .malformed
      | _ :: behind =>
        if index = [] then .error .malformed
        else
          match number? index with
          | .error fault => .error fault
          | .ok none => .error .notAnIndex
          | .ok (some place) =>
            match value[place]? with
            | none => .error .numberedField
            | some c => follow fuel [c] behind
    | '.' :: rest =>
      if rest.takeWhile (fun c => c != '.' && c != '[') = [] then .error .malformed
      else .error .noSuchMember
    | _ => .error .malformed

/-- The value of a field before conversion, given the text that name stands
for. -/
def fieldValue (value name : Text) : Except TemplateFault Text :=
  let first := name.takeWhile fun c => c != '.' && c != '['
  (number? first).bind fun number =>
    if first = [] || number.isSome then .error .numberedField
    else if first ≠ "name".toList then .error .unknownField
    else follow (name.length + 1) value (name.drop first.length)

/-- A quoted text in which only plain characters remain. -/
def plainQuoted (s : Text) : Text :=
  (Text.quoted s).flatMap fun c =>
    if c.toNat < 128 then [c]
    else if c.toNat < 0x100 then '\\' :: 'x' :: Text.hexDigits 2 c.toNat
    else if c.toNat < 0x10000 then '\\' :: 'u' :: Text.hexDigits 4 c.toNat
    else '\\' :: 'U' :: Text.hexDigits 8 c.toNat

/-- Applies a conversion. -/
def converted (conversion : Option Char) (value : Text) : Except TemplateFault Text :=
  match conversion with
  | none => .ok value
  | some 's' => .ok value
  | some 'r' => .ok (Text.quoted value)
  | some 'a' => .ok (plainQuoted value)
  | some _ => .error .malformed

/-- Whether a character is one of the alignments: left, right, centred, or
behind a sign. -/
def isAlignment (c : Char) : Bool := c == '<' || c == '>' || c == '^' || c == '='

/-- Puts a fill around a text up to a width. -/
def aligned (fill alignment : Char) (width : Nat) (s : Text) : Text :=
  let room := width - s.length
  if alignment = '>' then List.replicate room fill ++ s
  else if alignment = '^' then
    List.replicate (room / 2) fill ++ s ++ List.replicate (room - room / 2) fill
  else s ++ List.replicate room fill

/-- A format: how a text is filled up to a width, and how many of its characters
are kept. -/
structure Format where
  fill : Char := ' '
  alignment : Char := '<'
  width : Nat := 0
  precision : Option Nat := none
deriving DecidableEq, Repr

/-- Splits the fill and the alignment off a format. -/
def splitAlignment : Text → Option Char × Option Char × Text
  | f :: a :: rest =>
    if isAlignment a then (some f, some a, rest)
    else if isAlignment f then (none, some f, a :: rest)
    else (none, none, f :: a :: rest)
  | [a] => if isAlignment a then (none, some a, []) else (none, none, [a])
  | [] => (none, none, [])

/-- The width of a format, the precision behind it and what follows both. A point
has a precision behind it. -/
def readExtent (s : Text) : Except TemplateFault (Option Nat × Option Nat × Text) := do
  match ← leadingNumber s with
  | (width, '.' :: behind) =>
    match ← leadingNumber behind with
    | (none, _) => .error .malformed
    | (precision, rest) => pure (width, precision, rest)
  | (width, rest) => pure (width, none, rest)

/-- Reads a format. A zero before the width is the fill if no other is given. Texts
have no sign that a fill could stand behind. -/
def Format.read (format : Text) : Except TemplateFault Format := do
  let (fill, alignment, rest) := splitAlignment format
  let isZeroFilled := fill.isNone && rest.head? == some '0'
  let (width, precision, rest) ← readExtent (if isZeroFilled then rest.drop 1 else rest)
  if alignment = some '=' ∨ (rest ≠ [] ∧ rest ≠ ['s']) then .error .malformed
  else
    pure {
      fill := fill.getD (if isZeroFilled then '0' else ' ')
      alignment := alignment.getD '<'
      width := width.getD 0
      precision }

/-- Applies a format to a text. -/
def formatted (format value : Text) : Except TemplateFault Text :=
  (Format.read format).map fun f =>
    aligned f.fill f.alignment f.width
      (match f.precision with
      | some n => value.take n
      | none => value)

/-- Fills the fields of a template from the left. Formats that hold fields are
filled by the given function. -/
def fillFields (fillFormat : Text → Except TemplateFault Text) (value : Text) :
    Text → Except TemplateFault Text
  | [] => .ok []
  | c :: rest =>
    if c ≠ '{' ∧ c ≠ '}' then (fillFields fillFormat value rest).map (c :: ·)
    else if rest.head? = some c then
      (fillFields fillFormat value (rest.drop 1)).map (c :: ·)
    else if c = '}' then .error .malformed
    else do
      let (field, read) ← readField rest
      let shown ← (fieldValue value field.name).bind (converted field.conversion)
      let format ← if field.format.contains '{' then fillFormat field.format else .ok field.format
      let filled ← formatted format shown
      let others ← fillFields fillFormat value (rest.drop read)
      pure (filled ++ others)
termination_by s => s.length
decreasing_by
  all_goals simp only [List.length_drop, List.length_cons]; omega

/-- Fills a template in which name stands for a text. -/
def fill (template value : Text) : Except TemplateFault Text :=
  fillFields (fillFields (fun _ => .error .malformed) value) value template

end Docblock.Template
