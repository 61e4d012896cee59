import Docblock.Pattern.Brackets

/-!
# Patterns from text

A pattern is a choice of sequences. The items of a sequence are characters, sets,
escapes, conditions on places and groups, and each may be repeated. What stands
behind an opening parenthesis says what a group is for. Switches at the very start
hold for the whole pattern, those of a group inside of it.

Character names in escapes are not covered and refused.
-/

namespace Docblock.Pattern

open Reader

/-- The letters of the switches: the ASCII alphabet, letters without regard to case,
places at every line, a dot that matches everything, the Unicode alphabet, and a
pattern that may be spaced out and commented. -/
def switchLetters : List Char := ['a', 'i', 'm', 's', 'u', 'x']

/-- The switches that choose an alphabet. -/
def alphabets : Switches := ['a', 'u']

/-- The most rounds that can be counted. -/
def roundLimit : Nat := 4294967295

/-- How a pattern is repeated: the least and the greatest number of rounds. -/
structure Rounds where
  least : Nat
  most : Option Nat

/-- A number of rounds in digits, if there are any. -/
def roundNumber (digits : Text) : ReadM (Option Nat) :=
  if digits = [] then pure none
  else
    let n := Text.digitsValue 10 digits
    if roundLimit ≤ n then throw .tooManyRounds else pure (some n)

/-- Reads the numbers of rounds behind an opening brace. Nothing if what follows is
none; then the brace is a character like others. -/
def counted : ReadM (Option Rounds) := do
  let start ← get
  if (← peek) = ['}'] then pure none
  else
    let low ← Reader.takeWhile Text.isDecimal
    let ranged ← accept ','
    let high ← if ranged then Reader.takeWhile Text.isDecimal else pure low
    if ← accept '}' then
      let least ← roundNumber low
      let most ← roundNumber high
      if most.any (· < least.getD 0) then refuse else pure (some ⟨least.getD 0, most⟩)
    else
      set start
      pure none

/-- Reads how the item before a repetition sign is repeated. -/
def roundsOf (c : Char) : ReadM (Option Rounds) :=
  match c with
  | '?' => pure (some ⟨0, some 1⟩)
  | '*' => pure (some ⟨0, none⟩)
  | '+' => pure (some ⟨1, none⟩)
  | _ => counted

/-- Reads the sign behind a repetition that says which number of rounds is tried
first. -/
def appetite : ReadM Appetite := do
  if ← accept '?' then pure .reluctant
  else if ← accept '+' then pure .possessive
  else pure .greedy

/-- Repeats the last of some items, which are listed from the last one on. -/
def repeatLast (rounds : Rounds) : List Item → ReadM (List Item)
  | [] => refuse
  | item :: earlier => do
    if item.sort = .plain then
      let again : Item :=
        { pattern := .repeated rounds.least rounds.most (← appetite) item.pattern
          width := Width.times rounds.least rounds.most item.width
          sort := .repetition }
      pure (again :: earlier)
    else refuse

/-- What the switches behind an opening parenthesis are for: the whole pattern, or
a group, in which some are set and some are cleared. -/
inductive Switching
  | everywhere (added : Switches)
  | inside (added removed : Switches)

/-- Reads the letters of switches that are set, given the first one, and the
character behind them. -/
def addedSwitches : (fuel : Nat) → (first : Text) → (added : Switches) →
    ReadM (Switches × Char)
  | fuel + 1, [c], added => do
    if !switchLetters.contains c then refuse
    else
      let added := c :: added
      if added.contains 'a' ∧ added.contains 'u' then refuse
      else
        let token ← next
        if token = [')'] ∨ token = ['-'] ∨ token = [':'] then
          pure (added, (token.head?).getD ':')
        else addedSwitches fuel token added
  | _, _, _ => refuse

/-- Reads the letters of switches that are cleared, up to a colon. -/
def removedSwitches : (fuel : Nat) → (removed : Switches) → ReadM Switches
  | 0, _ => refuse
  | fuel + 1, removed => do
    match ← next with
    | [c] =>
      if c = ':' ∧ removed ≠ [] then pure removed
      else if switchLetters.contains c ∧ !alphabets.contains c then
        removedSwitches fuel (c :: removed)
      else refuse
    | _ => refuse

/-- Reads the switches behind an opening parenthesis and a question mark. -/
def switching (first : Text) : ReadM Switching := do
  let bound := (← get).rest.length + 1
  let (added, stop) ←
    if first = ['-'] then pure ([], '-') else addedSwitches bound first []
  if stop = ')' then pure (.everywhere added)
  else
    let removed ← if stop = '-' then removedSwitches bound [] else pure []
    if added.any removed.contains then refuse else pure (.inside added removed)

/-- The switches in a group that sets some and clears some. An alphabet takes the
place of the one before. -/
def switched (outer added removed : Switches) : Switches :=
  let kept := if added.any alphabets.contains then outer.filter (!alphabets.contains ·) else outer
  (kept ++ added).filter (!removed.contains ·)

/-- The item of a sequence, given its items from the last one on. -/
def sequenceOf (items : List Item) : Pattern × Width :=
  items.foldl
    (fun later item => (.sequence item.pattern later.1, item.width.plus later.2))
    (.empty, .zero)

/-- What a group is for. -/
inductive Purpose
  | captures (name : Option Text)
  | bundles (switches : Switches)
  | holdsTight
  | looksAhead (wanted : Bool)
  | looksBehind (wanted : Bool)
  | decides (index : Nat)
  | refers (index : Nat)
  | comments
  | switches (added : Switches)

/-- Reads what a group is for behind its opening parenthesis and a question mark
and the letter for named groups. -/
def namedPurpose : ReadM Purpose := do
  match ← next with
  | ['<'] => (fun name => .captures (some name)) <$> nameUntil '>'
  | ['='] => do
    let name ← nameUntil ')'
    .refers <$> indexOf name
  | _ => refuse

/-- Reads the group that a condition asks about, by number or by name. -/
def askedGroup : ReadM Nat := do
  let name ← until_ ')'
  let index ←
    if name ≠ [] ∧ name.all Text.isDecimal then pure (Text.digitsValue 10 name)
    else if isName name then indexOf name
    else refuse
  if index = 0 then refuse
  checkBehind index
  modify fun reader => { reader with asked := index :: reader.asked }
  pure index

/-- Reads what a group is for behind its opening parenthesis. -/
def purpose (switches : Switches) : ReadM Purpose := do
  if !(← accept '?') then pure (.captures none)
  else
    match ← next with
    | ['P'] => namedPurpose
    | [':'] => pure (.bundles switches)
    | ['>'] => pure .holdsTight
    | ['='] => pure (.looksAhead true)
    | ['!'] => pure (.looksAhead false)
    | ['('] => .decides <$> askedGroup
    | ['#'] => do
      let _ ← until_ ')'
      pure .comments
    | ['<'] => do
      match ← next with
      | ['='] => pure (.looksBehind true)
      | ['!'] => pure (.looksBehind false)
      | _ => refuse
    | token => do
      match ← switching token with
      | .everywhere added => pure (.switches added)
      | .inside added removed => pure (.bundles (switched switches added removed))

/-- The item of a condition on what stands before a place, which has to have one
width. -/
def behindItem (wanted : Bool) (body : Pattern × Width) : ReadM Item :=
  if body.2.most = some body.2.least then
    pure { pattern := .behind wanted body.2.least body.1, width := .zero }
  else refuse

/-- Reads with the groups opened so far as the only ones to refer to. -/
def withinBehind {α : Type} (read : ReadM α) : ReadM α := do
  let before := (← get).groupsBeforeBehind
  modify fun reader =>
    { reader with groupsBeforeBehind := before.or (some reader.groups.length) }
  let result ← read
  modify fun reader => { reader with groupsBeforeBehind := before }
  pure result

/-- The characters that a dot matches. -/
def dotItem (switches : Switches) : Item :=
  .ofSet switches (if switches.contains 's' then [] else [.range 10 10]) true

/-- The item of a character that has a meaning or none. -/
def charItem (switches : Switches) (c : Char) : Item :=
  let manyLines := switches.contains 'm'
  match c with
  | '.' => dotItem switches
  | '^' => .ofSpot (if manyLines then .lineStart else .textStart)
  | '$' => .ofSpot (if manyLines then .lineEnd else .lastLineEnd)
  | _ => .ofCode switches c.toNat

/-- White space in a pattern that is spaced out. -/
def isSpacing (c : Char) : Bool := c == ' ' || (9 ≤ c.toNat && c.toNat ≤ 13)

mutual

/-- Reads a choice of sequences. Only the outermost choice may start with switches
for the whole pattern. The fuel bounds the calls that are open at one time; two
calls in a row take a character. -/
def readChoice : (fuel : Nat) → (outermost : Bool) → (isFirst : Bool) → Switches →
    ReadM (Pattern × Width)
  | 0, _, _, _ => refuse
  | fuel + 1, outermost, isFirst, switches => do
    let first ← readItems fuel (outermost && isFirst) switches []
    if ← accept '|' then
      let everywhere := (← get).switches
      let others ←
        readChoice fuel outermost false (if outermost then everywhere else switches)
      pure (.choice first.1 others.1, first.2.join others.2)
    else pure first

/-- Reads the items of a sequence, given those read before from the last one on. -/
def readItems : (fuel : Nat) → (mayHoldEverywhere : Bool) → Switches → List Item →
    ReadM (Pattern × Width)
  | 0, _, _, _ => refuse
  | fuel + 1, mayHoldEverywhere, switches, read => do
    match ← peek with
    | [] => pure (sequenceOf read)
    | ['\\', c] => do
      let _ ← next
      let item ← escape switches c
      readItems fuel mayHoldEverywhere switches (item :: read)
    | c :: _ =>
      if c = '|' ∨ c = ')' then pure (sequenceOf read)
      else do
        let _ ← next
        if switches.contains 'x' && isSpacing c then readItems fuel mayHoldEverywhere switches read
        else if switches.contains 'x' && c == '#' then
          skipLine
          readItems fuel mayHoldEverywhere switches read
        else if c = '[' then
          let item ← bracketSet switches
          readItems fuel mayHoldEverywhere switches (item :: read)
        else if c = '(' then
          match ← purpose switches with
          | .switches added =>
            if mayHoldEverywhere && read.isEmpty then do
              modify fun reader => { reader with switches := reader.switches ++ added }
              readItems fuel mayHoldEverywhere (← get).switches read
            else refuse
          | .comments => readItems fuel mayHoldEverywhere switches read
          | purpose =>
            let item ← readGroup fuel switches purpose
            readItems fuel mayHoldEverywhere switches (item :: read)
        else if ['*', '+', '?', '{'].contains c then
          match ← roundsOf c with
          | none => readItems fuel mayHoldEverywhere switches (charItem switches c :: read)
          | some rounds => readItems fuel mayHoldEverywhere switches (← repeatLast rounds read)
        else readItems fuel mayHoldEverywhere switches (charItem switches c :: read)

/-- Reads the rest of a group, given what it is for. -/
def readGroup : (fuel : Nat) → Switches → Purpose → ReadM Item
  | 0, _, _ => refuse
  | fuel + 1, switches, purpose => do
    match purpose with
    | .captures name =>
      let index ← openGroup name
      let body ← readChoice fuel false false switches
      expect ')'
      closeGroup index body.2
      pure { pattern := .group index body.1, width := body.2 }
    | .bundles inner =>
      let body ← readChoice fuel false false inner
      expect ')'
      pure { pattern := body.1, width := body.2 }
    | .holdsTight =>
      let body ← readChoice fuel false false switches
      expect ')'
      pure { pattern := .atomic body.1, width := body.2 }
    | .looksAhead wanted =>
      let body ← readChoice fuel false false switches
      expect ')'
      pure { pattern := .ahead wanted body.1, width := .zero }
    | .looksBehind wanted =>
      let body ← withinBehind (readChoice fuel false false switches)
      expect ')'
      behindItem wanted body
    | .decides index =>
      let yes ← readItems fuel false switches []
      let no ← if ← accept '|' then readItems fuel false switches [] else pure (.empty, .zero)
      expect ')'
      pure { pattern := .whenMatched index yes.1 no.1, width := yes.2.join no.2 }
    | .refers index => reference switches index
    | .comments | .switches _ => pure { pattern := .empty, width := .zero }

end

/-- Reads a whole pattern. -/
def whole : ReadM Pattern := do
  let found ← readChoice (2 * (← get).rest.length + 4) true true []
  let reader ← get
  if reader.switches.contains 'a' ∧ reader.switches.contains 'u' then
    throw .exclusiveAlphabets
  else if reader.rest ≠ [] ∨ reader.asked.any (reader.groups.length < ·) then refuse
  else pure found.1

/-- The pattern that a text spells. -/
def ofText (s : Text) : Except PatternFault Pattern := whole.run' { rest := s }

end Docblock.Pattern
