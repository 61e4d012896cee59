import Docblock.Yaml.Token

/-!
# Nodes of a YAML document

The tokens of a text are read into a tree of scalars, sequences and mappings. A
place where a node may stand but none does holds an empty plain scalar. A text
holds one document at most.

Reading is bounded by a number of nested steps that grows with the number of
tokens: each step but a fixed few takes a token.
-/

namespace Docblock.Yaml

/-- A scalar, a sequence or a mapping in order. -/
inductive Node
  | scalar (text : Text) (isPlain : Bool)
  | sequence (items : List Node)
  | mapping (entries : List (Node × Node))

/-- The node in the place of a missing one. -/
def Node.empty : Node := .scalar [] true

/-- A reader of nodes: what it read and the tokens behind it. -/
abbrev Reading (α : Type) := List Token → Option (α × List Token)

/-- Whether the next token is one of some; at the end of the text none is. -/
def nextIs (tokens : List Token) (wanted : List Token) : Bool :=
  tokens.head?.any wanted.contains

/-- Reads a node unless one of some tokens is next. -/
def nodeUnless (stops : List Token) (read : Reading Node) (tokens : List Token) :
    Option (Node × List Token) :=
  if nextIs tokens stops then some (.empty, tokens) else read tokens

/-- What kinds of nodes may stand in a place: in blocks, block collections may;
behind a key or a value, so may a sequence that is not indented. -/
inductive Context
  | block | blockOrIndentless | flow
deriving DecidableEq, Repr

mutual

/-- Reads a node. -/
def readNode (fuel : Nat) (context : Context) (tokens : List Token) :
    Option (Node × List Token) :=
  match fuel, tokens with
  | 0, _ => none
  | _, [] => none
  | fuel + 1, token :: rest =>
    match token with
    | .scalar text isPlain => some (.scalar text isPlain, rest)
    | .flowSequenceStart =>
      (readFlowItems fuel true rest).map fun (items, left) => (.sequence items, left)
    | .flowMappingStart =>
      (readFlowEntries fuel true rest).map fun (entries, left) => (.mapping entries, left)
    | .blockSequenceStart =>
      if context = .flow then none
      else (readBlockItems fuel false rest).map fun (items, left) => (.sequence items, left)
    | .blockMappingStart =>
      if context = .flow then none
      else (readBlockEntries fuel rest).map fun (entries, left) => (.mapping entries, left)
    | .blockEntry =>
      if context = .blockOrIndentless then
        (readBlockItems fuel true (token :: rest)).map fun (items, left) => (.sequence items, left)
      else none
    | _ => none

/-- Reads the items of a block sequence. A sequence that is not indented ends
where no entry follows, any other one at the end of its block. -/
def readBlockItems (fuel : Nat) (indentless : Bool) (tokens : List Token) :
    Option (List Node × List Token) :=
  match fuel, tokens with
  | 0, _ => none
  | fuel + 1, .blockEntry :: rest =>
    let stops : List Token :=
      if indentless then [.blockEntry, .key, .value, .blockEnd] else [.blockEntry, .blockEnd]
    match nodeUnless stops (readNode fuel .block) rest with
    | none => none
    | some (item, left) =>
      (readBlockItems fuel indentless left).map fun (items, left) => (item :: items, left)
  | _ + 1, .blockEnd :: rest => if indentless then some ([], .blockEnd :: rest) else some ([], rest)
  | _ + 1, left => if indentless then some ([], left) else none

/-- Reads the entries of a block mapping through the end of the block. -/
def readBlockEntries (fuel : Nat) (tokens : List Token) :
    Option (List (Node × Node) × List Token) :=
  match fuel, tokens with
  | 0, _ => none
  | _ + 1, .blockEnd :: rest => some ([], rest)
  | fuel + 1, .key :: rest =>
    match nodeUnless [.key, .value, .blockEnd] (readNode fuel .blockOrIndentless) rest with
    | none => none
    | some (key, left) => readBlockValue fuel key left
  | _ + 1, _ => none

/-- Reads the value of a key in a block mapping and the entries behind it. -/
def readBlockValue (fuel : Nat) (key : Node) (tokens : List Token) :
    Option (List (Node × Node) × List Token) :=
  match fuel, tokens with
  | 0, _ => none
  | fuel + 1, .value :: rest =>
    match nodeUnless [.key, .value, .blockEnd] (readNode fuel .blockOrIndentless) rest with
    | none => none
    | some (value, left) =>
      (readBlockEntries fuel left).map fun (entries, left) => ((key, value) :: entries, left)
  | fuel + 1, left =>
    (readBlockEntries fuel left).map fun (entries, left) => ((key, .empty) :: entries, left)

/-- Reads the items of a flow sequence through its closing mark. An item with a
key is a mapping of one entry. -/
def readFlowItems (fuel : Nat) (isFirst : Bool) (tokens : List Token) :
    Option (List Node × List Token) :=
  match fuel, tokens with
  | 0, _ => none
  | _ + 1, .flowSequenceEnd :: rest => some ([], rest)
  | fuel + 1, tokens =>
    let entered :=
      match isFirst, tokens with
      | true, tokens => some tokens
      | false, .flowEntry :: rest => some rest
      | false, _ => none
    match entered with
    | none => none
    | some (.flowSequenceEnd :: rest) => some ([], rest)
    | some (.key :: rest) =>
      match nodeUnless [.value, .flowEntry, .flowSequenceEnd] (readNode fuel .flow) rest with
      | none => none
      | some (key, left) =>
        let valued :=
          match left with
          | .value :: behind =>
            nodeUnless [.flowEntry, .flowSequenceEnd] (readNode fuel .flow) behind
          | left => some (.empty, left)
        match valued with
        | none => none
        | some (value, left) =>
          (readFlowItems fuel false left).map fun (items, left) =>
            (.mapping [(key, value)] :: items, left)
    | some tokens =>
      match readNode fuel .flow tokens with
      | none => none
      | some (item, left) =>
        (readFlowItems fuel false left).map fun (items, left) => (item :: items, left)

/-- Reads the entries of a flow mapping through its closing mark. A node without
a key mark is a key without a value. -/
def readFlowEntries (fuel : Nat) (isFirst : Bool) (tokens : List Token) :
    Option (List (Node × Node) × List Token) :=
  match fuel, tokens with
  | 0, _ => none
  | _ + 1, .flowMappingEnd :: rest => some ([], rest)
  | fuel + 1, tokens =>
    let entered :=
      match isFirst, tokens with
      | true, tokens => some tokens
      | false, .flowEntry :: rest => some rest
      | false, _ => none
    match entered with
    | none => none
    | some (.flowMappingEnd :: rest) => some ([], rest)
    | some (.key :: rest) =>
      match nodeUnless [.value, .flowEntry, .flowMappingEnd] (readNode fuel .flow) rest with
      | none => none
      | some (key, left) =>
        let valued :=
          match left with
          | .value :: behind =>
            nodeUnless [.flowEntry, .flowMappingEnd] (readNode fuel .flow) behind
          | left => some (.empty, left)
        match valued with
        | none => none
        | some (value, left) =>
          (readFlowEntries fuel false left).map fun (entries, left) =>
            ((key, value) :: entries, left)
    | some tokens =>
      match readNode fuel .flow tokens with
      | none => none
      | some (key, left) =>
        (readFlowEntries fuel false left).map fun (entries, left) =>
          ((key, .empty) :: entries, left)

end

/-- The number of nested steps that suffices to read some tokens. -/
def stepBound (tokens : List Token) : Nat := 4 * tokens.length + 8

/-- Reads the document that some tokens hold: none if they hold no document at
all, and no answer if they are malformed or hold a second one. -/
def readDocument (tokens : List Token) : Option (Option Node) :=
  let marks : List Token := [.documentStart, .documentEnd]
  let document : Option (Option Node × List Token) :=
    match tokens with
    | [] => some (none, [])
    | .documentStart :: rest =>
      if rest = [] ∨ nextIs rest marks then some (some .empty, rest)
      else (readNode (stepBound rest) .block rest).map fun (node, left) => (some node, left)
    | tokens => (readNode (stepBound tokens) .block tokens).map fun (node, left) =>
      (some node, left)
  match document with
  | none => none
  | some (node, left) =>
    if left.dropWhile (· == .documentEnd) = [] then some node else none

end Docblock.Yaml
