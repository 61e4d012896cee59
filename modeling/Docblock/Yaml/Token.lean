import Docblock.Yaml.Plain
import Docblock.Yaml.Quoted

/-!
# Tokens of a YAML text

The text is cut into scalars and marks of structure. Indentation becomes marks
too: a line that is indented further than the block around it may open a block,
and one that is indented less closes blocks.

A scalar or a flow collection may turn out to be a key only when the colon
behind it is met. Until then its place in the list of tokens is remembered, one
place for each level of flow collections; the key mark is put in there. The
place is given up when the line ends.

Anchors, tags and directives are not read: a text with one of them cannot be
cut.
-/

namespace Docblock.Yaml

/-- A scalar or a mark of structure. Only plain scalars may stand for something
other than text. -/
inductive Token
  | scalar (text : Text) (isPlain : Bool)
  | documentStart | documentEnd
  | blockSequenceStart | blockMappingStart | blockEnd | blockEntry
  | flowSequenceStart | flowSequenceEnd | flowMappingStart | flowMappingEnd | flowEntry
  | key | value
deriving DecidableEq, Repr

/-- A place in the list of tokens where a key may start. A required one has to
turn out to be a key. -/
structure PossibleKey where
  position : Nat
  isRequired : Bool
  line : Nat
  column : Nat
  index : Nat

/-- What has been cut and where the cutting stands: the tokens in order, the
indentation of the open blocks, innermost first, and the possible key of each
level of flow collections, innermost first. -/
structure Scanner where
  cursor : Cursor
  tokens : List Token := []
  indents : List Nat := []
  outerKeys : List (Option PossibleKey) := []
  possibleKey : Option PossibleKey := none
  allowsKey : Bool := true

namespace Scanner

/-- Whether the place is inside of a flow collection. -/
def inFlow (s : Scanner) : Bool := !s.outerKeys.isEmpty

/-- The indentation of the innermost block; outside of all blocks it is less than
any column. -/
def indent (s : Scanner) : Int :=
  match s.indents with
  | [] => -1
  | n :: _ => n

/-- Adds a token. -/
def push (s : Scanner) (token : Token) : Scanner := { s with tokens := s.tokens ++ [token] }

/-- Goes on by some characters. -/
def advance (s : Scanner) (n : Nat) : Scanner := { s with cursor := s.cursor.advance n }

/-- How many characters up to the next token are blank or belong to comments,
and whether a line ends among them. -/
def ignoredLength (inComment : Bool) : Text → Nat × Bool
  | [] => (0, false)
  | c :: rest =>
    if isBreak c then ((ignoredLength false rest).1 + 1, true)
    else if inComment || c == ' ' then
      let following := ignoredLength inComment rest
      (following.1 + 1, following.2)
    else if c == '#' then
      let following := ignoredLength true rest
      (following.1 + 1, following.2)
    else (0, false)

/-- Goes on to the next token. A new line in a block may start with a key. -/
def skipIgnored (s : Scanner) : Scanner :=
  let (length, breaks) := ignoredLength false s.cursor.rest
  let s := s.advance length
  if breaks && !s.inFlow then { s with allowsKey := true } else s

/-- Whether a possible key can still become one: the line is the same and not
more than 1024 characters have passed. -/
def isFresh (s : Scanner) (key : PossibleKey) : Bool :=
  key.line == s.cursor.line && s.cursor.index - key.index ≤ 1024

/-- Gives up a possible key that is no longer fresh, which a required one may not
be. -/
def refresh (s : Scanner) (key : Option PossibleKey) : Option (Option PossibleKey) :=
  match key with
  | none => some none
  | some k => if s.isFresh k then some (some k) else if k.isRequired then none else some none

/-- Gives up all possible keys that are no longer fresh. -/
def dropStaleKeys (s : Scanner) : Option Scanner := do
  let possibleKey ← s.refresh s.possibleKey
  let outerKeys ← s.outerKeys.mapM s.refresh
  pure { s with possibleKey, outerKeys }

/-- Gives up the possible key of the innermost level. -/
def removeKey (s : Scanner) : Option Scanner :=
  if s.possibleKey.any (·.isRequired) then none else some { s with possibleKey := none }

/-- Remembers that a key may start here. -/
def saveKey (s : Scanner) : Option Scanner :=
  if s.allowsKey then
    s.removeKey.map fun s =>
      { s with possibleKey := some {
          position := s.tokens.length
          isRequired := !s.inFlow && s.indent == s.cursor.column
          line := s.cursor.line
          column := s.cursor.column
          index := s.cursor.index } }
  else some s

/-- Closes the blocks that are indented further than a column. -/
def closeBlocks (column : Int) (s : Scanner) : Scanner :=
  if s.inFlow then s
  else
    let closed := s.indents.takeWhile fun (n : Nat) => decide (column < (n : Int))
    { s with
      tokens := s.tokens ++ List.replicate closed.length Token.blockEnd
      indents := s.indents.drop closed.length }

/-- Puts tokens in at a position. -/
def insertAt (s : Scanner) (position : Nat) (tokens : List Token) : Scanner :=
  { s with tokens := s.tokens.take position ++ tokens ++ s.tokens.drop position }

/-- Opens a block at a column that is indented further than the innermost one,
its mark put in at a position. -/
def openBlock (s : Scanner) (column position : Nat) (mark : Token) : Scanner :=
  if s.indent < column then
    { s.insertAt position [mark] with indents := column :: s.indents }
  else s

/-- A document marker. -/
def documentMark (s : Scanner) (token : Token) : Option Scanner :=
  (s.closeBlocks (-1)).removeKey.map fun s =>
    let closed : Scanner := { s with allowsKey := false }
    (closed.push token).advance 3

/-- The opening mark of a flow collection. -/
def openFlow (s : Scanner) (token : Token) : Option Scanner :=
  s.saveKey.map fun s =>
    let inner : Scanner :=
      { s with outerKeys := s.possibleKey :: s.outerKeys, possibleKey := none, allowsKey := true }
    (inner.push token).advance 1

/-- The closing mark of a flow collection, which has to be inside of one. -/
def closeFlow (s : Scanner) (token : Token) : Option Scanner :=
  s.removeKey.bind fun s =>
    match s.outerKeys with
    | [] => none
    | outer :: rest =>
      let back : Scanner :=
        { s with outerKeys := rest, possibleKey := outer, allowsKey := false }
      some ((back.push token).advance 1)

/-- A comma between the items of a flow collection. -/
def flowComma (s : Scanner) : Option Scanner :=
  (removeKey { s with allowsKey := true }).map fun s => (s.push .flowEntry).advance 1

/-- The mark of an entry of a block. In a block it may open the block, where a
key could start. -/
def blockMark (s : Scanner) (opening token : Token) (allowsKey : Bool) : Option Scanner :=
  if !s.inFlow && !s.allowsKey then none
  else
    let s := if s.inFlow then s else s.openBlock s.cursor.column s.tokens.length opening
    (removeKey { s with allowsKey }).map fun s => (s.push token).advance 1

/-- The mark of a value. If a key may have started on this line, it did. -/
def valueMark (s : Scanner) : Option Scanner :=
  match s.possibleKey with
  | some key =>
    let s := insertAt { s with possibleKey := none } key.position [.key]
    let s := if s.inFlow then s else s.openBlock key.column key.position .blockMappingStart
    some ((push { s with allowsKey := false } .value).advance 1)
  | none => s.blockMark .blockMappingStart .value (!s.inFlow)

/-- A block scalar. -/
def block (s : Scanner) (folded : Bool) : Option Scanner := do
  let s ← removeKey { s with allowsKey := true }
  let (text, cursor) ← blockScalar folded s.indent s.cursor.next
  pure (push { s with cursor } (.scalar text false))

/-- A quoted scalar. -/
def quoted (s : Scanner) (quote : Char) : Option Scanner := do
  let s ← s.saveKey
  let (text, rest) ← quotedContent quote (s.cursor.rest.drop 1)
  pure (push { s with allowsKey := false, cursor := s.cursor.advanceTo rest } (.scalar text false))

/-- A plain scalar. -/
def plain (s : Scanner) : Option Scanner :=
  s.saveKey.map fun s =>
    let (text, cursor, breaks) :=
      plainScalar s.inFlow (s.indent + 1).toNat [] [] false s.cursor
    push { s with allowsKey := breaks, cursor } (.scalar text true)

/-- Characters that no plain scalar starts with, unless they are the first of a
run of other characters. -/
def startsNoPlain (c : Char) : Bool :=
  "-?:,[]#&*!|>%@".toList.contains c || c == '{' || c == '}' || c == '\x27' || c == '"' ||
    c == '\x60'

/-- Whether a plain scalar starts with a character, given what follows it. -/
def startsPlain (inFlow : Bool) (c : Char) (rest : Text) : Bool :=
  !(isGap c || startsNoPlain c) ||
    (!startsWithGap rest && (c == '-' || (!inFlow && (c == '?' || c == ':'))))

/-- Cuts the token that starts at a place with a character and the rest behind it. -/
def token (s : Scanner) (c : Char) (rest : Text) : Option Scanner :=
  let atStart := s.cursor.column = 0
  let beforeGap := startsWithGap rest
  if atStart ∧ c = '%' then none
  else if atStart ∧ startsWithMarker '-' (c :: rest) then s.documentMark .documentStart
  else if atStart ∧ startsWithMarker '.' (c :: rest) then s.documentMark .documentEnd
  else if c = '[' then s.openFlow .flowSequenceStart
  else if c = '{' then s.openFlow .flowMappingStart
  else if c = ']' then s.closeFlow .flowSequenceEnd
  else if c = '}' then s.closeFlow .flowMappingEnd
  else if c = ',' then s.flowComma
  else if c = '-' ∧ beforeGap then s.blockMark .blockSequenceStart .blockEntry true
  else if c = '?' ∧ (s.inFlow || beforeGap) then
    s.blockMark .blockMappingStart .key (!s.inFlow)
  else if c = ':' ∧ (s.inFlow || beforeGap) then s.valueMark
  else if c = '|' ∧ !s.inFlow then s.block false
  else if c = '>' ∧ !s.inFlow then s.block true
  else if c = '\x27' ∨ c = '"' then s.quoted c
  else if startsPlain s.inFlow c rest then s.plain
  else none

/-- Closes everything at the end of the text. -/
def finish (s : Scanner) : Option (List Token) :=
  (s.closeBlocks (-1)).removeKey.map (·.tokens)

/-- Cuts the rest of the text. -/
def run (s : Scanner) : Option (List Token) :=
  match s.skipIgnored.dropStaleKeys with
  | none => none
  | some fresh =>
    let ready := fresh.closeBlocks fresh.cursor.column
    match ready.cursor.rest with
    | [] => ready.finish
    | c :: rest =>
      match ready.token c rest with
      | none => none
      | some next =>
        if next.cursor.rest.length < s.cursor.rest.length then run next else none
termination_by s.cursor.rest.length

end Scanner

/-- The tokens of a text; none if it cannot be cut. A mark of byte order at the
start is passed over. -/
def tokens? (text : Text) : Option (List Token) :=
  if text.all isAllowed then
    let start : Cursor :=
      if text.head? = some byteOrderMark then { rest := text.drop 1, index := 1 }
      else { rest := text }
    Scanner.run { cursor := start }
  else none

end Docblock.Yaml
