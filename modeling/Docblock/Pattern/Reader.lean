import Docblock.Failure
import Docblock.Keyed
import Docblock.Pattern.Basic
import Docblock.Text.Digits

/-!
# Reading a pattern: what is known on the way

A pattern is read from left to right. A backslash and the character after it are
read together. The reader knows what is left, the switches that hold everywhere,
and the groups opened so far: a group that is still open has no width yet.
-/

namespace Docblock.Pattern

/-- The least and the greatest number of characters that a pattern matches. -/
structure Width where
  least : Nat
  most : Option Nat
deriving DecidableEq, Repr

namespace Width

/-- The width of nothing. -/
def zero : Width := ⟨0, some 0⟩

/-- The width of one pattern after another. -/
def plus (a b : Width) : Width :=
  ⟨a.least + b.least, a.most.bind fun m => b.most.map (m + ·)⟩

/-- The width of a choice. -/
def join (a b : Width) : Width :=
  ⟨min a.least b.least, a.most.bind fun m => b.most.map (max m)⟩

/-- The width of a repetition. -/
def times (least : Nat) (most : Option Nat) (a : Width) : Width :=
  ⟨least * a.least,
    if a.most = some 0 then some 0 else a.most.bind fun m => most.map (m * ·)⟩

end Width

/-- The switches in force, by their letters. -/
abbrev Switches := List Char

/-- How characters are compared under some switches. -/
def readingOf (switches : Switches) : Reading :=
  { foldsCase := switches.contains 'i', asciiOnly := switches.contains 'a' }

/-- What is known while a pattern is read. -/
structure Reader where
  rest : Text
  switches : Switches := []
  groups : List (Option Width) := []
  names : Keyed Nat := []
  groupsBeforeBehind : Option Nat := none
  asked : List Nat := []

/-- A step of reading. -/
abbrev ReadM := StateT Reader (Except PatternFault)

namespace Reader

/-- Refuses the pattern. -/
def refuse {α : Type} : ReadM α := throw .malformed

/-- The next character, or the next two if the first is a backslash; nothing at the
end. -/
def peek : ReadM Text := do
  match (← get).rest with
  | [] => pure []
  | ['\\'] => refuse
  | '\\' :: c :: _ => pure ['\\', c]
  | c :: _ => pure [c]

/-- Reads what comes next. -/
def next : ReadM Text := do
  let token ← peek
  modify fun reader => { reader with rest := reader.rest.drop token.length }
  pure token

/-- Reads a character if it comes next. -/
def accept (c : Char) : ReadM Bool := do
  if (← peek) = [c] then
    let _ ← next
    pure true
  else pure false

/-- Reads a character that has to come next. -/
def expect (c : Char) : ReadM Unit := do
  if !(← accept c) then refuse

/-- Reads characters of a class, up to a number of them. -/
def takeUpTo (limit : Nat) (p : Char → Bool) : ReadM Text := do
  let taken := ((← get).rest.take limit).takeWhile p
  modify fun reader => { reader with rest := reader.rest.drop taken.length }
  pure taken

/-- Reads all characters of a class that come next. -/
def takeWhile (p : Char → Bool) : ReadM Text := do takeUpTo (← get).rest.length p

/-- What stands before and after the first occurrence of a character that no
backslash precedes. -/
def splitAt? (stop : Char) : Text → Option (Text × Text)
  | [] => none
  | '\\' :: c :: rest => (splitAt? stop rest).map fun found => ('\\' :: c :: found.1, found.2)
  | c :: rest =>
    if c = stop then some ([], rest)
    else (splitAt? stop rest).map fun found => (c :: found.1, found.2)

/-- Reads up to a character and drops it. -/
def until_ (stop : Char) : ReadM Text := do
  match splitAt? stop (← get).rest with
  | none => refuse
  | some (taken, rest) =>
    modify fun reader => { reader with rest }
    pure taken

/-- What stands behind the first line break that no backslash precedes; nothing if
there is none. A backslash at the very end has no answer. -/
def behindLine? : Text → Option Text
  | [] => some []
  | ['\\'] => none
  | '\\' :: _ :: rest => behindLine? rest
  | c :: rest => if c = '\n' then some rest else behindLine? rest

/-- Drops the rest of a line. -/
def skipLine : ReadM Unit := do
  match behindLine? (← get).rest with
  | none => refuse
  | some rest => modify fun reader => { reader with rest }

/-- The width of a group that is closed. -/
def closedWidth (index : Nat) : ReadM Width := do
  match (← get).groups[index - 1]? with
  | some (some width) => if index = 0 then refuse else pure width
  | _ => refuse

/-- Refuses a group that the condition being read on what stands before cannot
refer to. -/
def checkBehind (index : Nat) : ReadM Unit := do
  match (← get).groupsBeforeBehind with
  | none => pure ()
  | some bound =>
    let _ ← closedWidth index
    if bound < index then refuse

/-- Opens a group, with a name if it has one, and gives its number. -/
def openGroup (name : Option Text) : ReadM Nat := do
  let reader ← get
  let index := reader.groups.length + 1
  let names ← match name with
    | none => pure reader.names
    | some name =>
      if Keyed.has name reader.names then refuse else pure (Keyed.put name index reader.names)
  set { reader with groups := reader.groups ++ [none], names }
  pure index

/-- Closes a group. -/
def closeGroup (index : Nat) (width : Width) : ReadM Unit :=
  modify fun reader => { reader with groups := reader.groups.set (index - 1) (some width) }

/-- Whether a text can be the name of a group. -/
def isName (name : Text) : Bool :=
  match name with
  | [] => false
  | c :: rest => Text.isWordChar c && !Text.isDigit c && rest.all Text.isWordChar

/-- Reads the name of a group up to a character. -/
def nameUntil (stop : Char) : ReadM Text := do
  let name ← until_ stop
  if isName name then pure name else refuse

/-- The number of the group with a name. -/
def indexOf (name : Text) : ReadM Nat := do
  match Keyed.find? name (← get).names with
  | some index => pure index
  | none => refuse

end Reader
end Docblock.Pattern
