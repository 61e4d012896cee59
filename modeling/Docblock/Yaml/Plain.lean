import Docblock.Yaml.Cursor

/-!
# Plain and block scalars

A plain scalar goes on over lines that are indented enough, with its line breaks
folded, up to a mark that cannot belong to it. A block scalar takes all lines
with its indentation; its header says whether breaks are folded and which breaks
are kept at the end.
-/

namespace Docblock.Yaml

/-- Marks of flow collections, which end a plain scalar inside of one. -/
def isFlowMark (c : Char) : Bool :=
  c == ',' || c == '[' || c == ']' || c == '{' || c == '}'

/-- Whether a character ends a run of a plain scalar, given what follows it. -/
def endsPlain (inFlow : Bool) (c : Char) (rest : Text) : Bool :=
  isGap c || (c == ':' && (startsWithGap rest || (inFlow && rest.head?.any isFlowMark))) ||
    (inFlow && (isFlowMark c || c == '?'))

/-- How many characters at the front form a run of a plain scalar. -/
def plainRunLength (inFlow : Bool) : Text → Nat
  | [] => 0
  | c :: rest => if endsPlain inFlow c rest then 0 else 1 + plainRunLength inFlow rest

/-- What stands between two runs of a plain scalar: the text it stands for, the
place behind it, and whether it holds a line break. -/
structure PlainGap where
  text : Text
  cursor : Cursor
  breaks : Bool

/-- Line breaks and blanks at the start of a line; none where a document marker
stands at the start of a line. -/
def plainBreaks : Text → Text × Text × Bool
  | [] => ([], [], false)
  | c :: rest =>
    if c = ' ' then plainBreaks rest
    else if isBreak c then
      if isDocumentLine rest then ([], rest, true)
      else
        let (breaks, left, stopped) := plainBreaks rest
        (breakText c :: breaks, left, stopped)
    else ([], c :: rest, false)

/-- The gap of a plain scalar at a place. At a document marker it stands for
nothing, which ends the scalar. -/
def plainGap (cursor : Cursor) : PlainGap :=
  let blanks := cursor.rest.takeWhile (· == ' ')
  match cursor.rest.drop blanks.length with
  | [] => ⟨blanks, cursor.advance blanks.length, false⟩
  | c :: rest =>
    if isBreak c then
      if isDocumentLine rest then ⟨[], cursor.advanceTo rest, true⟩
      else
        let (breaks, left, stopped) := plainBreaks rest
        let text :=
          if stopped then []
          else if breakText c ≠ '\n' then breakText c :: breaks
          else if breaks = [] then [' ']
          else breaks
        ⟨text, cursor.advanceTo left, true⟩
    else ⟨blanks, cursor.advance blanks.length, false⟩

/-- A plain scalar from a place on: its text, the place behind it, and whether
the gap behind its last run holds a line break. -/
def plainScalar (inFlow : Bool) (indent : Nat) (read gap : Text) (breaks : Bool)
    (cursor : Cursor) : Text × Cursor × Bool :=
  let length := plainRunLength inFlow cursor.rest
  if cursor.rest.head? = some '#' ∨ length = 0 then (read, cursor, breaks)
  else
    let text := read ++ gap ++ cursor.rest.take length
    let following := plainGap (cursor.advance length)
    if following.text = [] ∨ following.cursor.rest.head? = some '#' ∨
        (inFlow = false ∧ following.cursor.column < indent) then
      (text, following.cursor, following.breaks)
    else if following.cursor.rest.length < cursor.rest.length then
      plainScalar inFlow indent text following.text following.breaks following.cursor
    else (text, following.cursor, following.breaks)
termination_by cursor.rest.length

/-- Which line breaks are kept at the end of a block scalar. -/
inductive Chomping
  | clip | strip | keep
deriving DecidableEq, Repr

/-- The header of a block scalar: what is kept at the end, and the indentation of
its lines if it is given. -/
structure BlockHeader where
  chomping : Chomping := .clip
  increment : Option Nat := none

/-- The sign of a block header. -/
def chompingOf? (c : Char) : Option Chomping :=
  if c = '+' then some .keep else if c = '-' then some .strip else none

/-- The indentation in a block header; zero is none. -/
def incrementOf? (c : Char) : Option Nat :=
  if '1' ≤ c ∧ c ≤ '9' then some (c.toNat - '0'.toNat) else none

/-- Reads the header behind the mark of a block scalar, in either order, and the
rest behind it, which has to end or go on with a blank or a break. -/
def blockHeader? (s : Text) : Option (BlockHeader × Text) :=
  let header : BlockHeader × Text :=
    match s with
    | [] => ({}, [])
    | c :: rest =>
      match chompingOf? c, incrementOf? c with
      | some chomping, _ =>
        match rest.head?.bind incrementOf? with
        | some increment => ({ chomping, increment := some increment }, rest.drop 1)
        | none => ({ chomping }, rest)
      | none, some increment =>
        match rest.head?.bind chompingOf? with
        | some chomping => ({ chomping, increment := some increment }, rest.drop 1)
        | none => ({ increment := some increment }, rest)
      | none, none => ({}, s)
  if header.2.head?.all (fun c => c == ' ' || isBreak c) then some header else none

/-- The rest of the line behind a block header: blanks and a comment only. -/
def afterHeaderLine? (s : Text) : Option Text :=
  let rest := s.dropWhile (· == ' ')
  let rest := if rest.head? = some '#' then rest.dropWhile (!isBreak ·) else rest
  match rest with
  | [] => some []
  | c :: rest => if isBreak c then some rest else none

/-- The blank lines at the start of a block scalar, the greatest column reached
in them, and the place behind. -/
def leadingLines (greatest : Nat) (cursor : Cursor) : Text × Nat × Cursor :=
  match cursor.rest with
  | [] => ([], greatest, cursor)
  | c :: _ =>
    if c = ' ' ∨ isBreak c = true then
      let next := cursor.next
      if next.rest.length < cursor.rest.length then
        if c = ' ' then leadingLines (max greatest next.column) next
        else
          let (breaks, column, left) := leadingLines greatest next
          (breakText c :: breaks, column, left)
      else ([], greatest, cursor)
    else ([], greatest, cursor)
termination_by cursor.rest.length

/-- Line breaks with the indentation behind each, and the place behind them. -/
def blockBreaks (indent : Nat) (cursor : Cursor) : Text × Cursor :=
  let here := cursor.indentTo indent
  match here.rest with
  | [] => ([], here)
  | c :: _ =>
    if isBreak c then
      let next := here.next
      if next.rest.length < cursor.rest.length then
        let (breaks, left) := blockBreaks indent next
        (breakText c :: breaks, left)
      else ([], here)
    else ([], here)
termination_by cursor.rest.length

/-- The lines of a block scalar from a place on, with the breaks before them: the
text, the break behind the last line, the breaks behind it, and the place behind
all. -/
def blockLines (folded : Bool) (indent : Nat) (read breaks : Text) (lineBreak : Text)
    (cursor : Cursor) : Text × Text × Text × Cursor :=
  if cursor.column ≠ indent ∨ cursor.rest = [] then (read, lineBreak, breaks, cursor)
  else
    let line := cursor.rest.takeWhile (!isBreak ·)
    let isText := cursor.rest.head?.any (!isSpace ·)
    let text := read ++ breaks ++ line
    let ended := cursor.advance line.length
    let lineBreak : Text := (ended.rest.head?.map breakText).toList
    let (following, next) := blockBreaks indent ended.next
    if next.column = indent ∧ next.rest ≠ [] then
      let joint : Text :=
        if folded && lineBreak == ['\n'] && isText && next.rest.head?.any (!isSpace ·) then
          (if following = [] then [' '] else [])
        else lineBreak
      if next.rest.length < cursor.rest.length then
        blockLines folded indent (text ++ joint) following lineBreak next
      else (text, lineBreak, following, next)
    else (text, lineBreak, following, next)
termination_by cursor.rest.length

/-- A block scalar behind its mark, given the indentation around it: its text and
the place behind it. -/
def blockScalar (folded : Bool) (parentIndent : Int) (cursor : Cursor) : Option (Text × Cursor) :=
  (blockHeader? cursor.rest).bind fun (header, afterHeader) =>
    (afterHeaderLine? afterHeader).map fun rest =>
      let start := cursor.advanceTo rest
      let least := (max (parentIndent + 1) 1).toNat
      let (breaks, indent, first) :=
        match header.increment with
        | none =>
          let (breaks, greatest, first) := leadingLines 0 start
          (breaks, max least greatest, first)
        | some increment =>
          let indent := least + increment - 1
          let (breaks, first) := blockBreaks indent start
          (breaks, indent, first)
      let (text, lineBreak, trailing, after) := blockLines folded indent [] breaks [] first
      let ending :=
        match header.chomping with
        | .strip => []
        | .clip => lineBreak
        | .keep => lineBreak ++ trailing
      (text ++ ending, after)

end Docblock.Yaml
