import Docblock.Value.Reader
import Docblock.Yaml.Node
import Docblock.Yaml.Scalar

/-!
# YAML documents

A document is read into tokens, nodes and then values. Scalars and only scalars
may be keys. A later entry under an equal key takes the place of an earlier one,
and a mapping that is taken over goes before the entries of its own.

This is a reader for plain documents, and one among others: it knows no directives,
anchors, aliases or tags, and of the further kinds of values only days. A text with
anything else is no document for it.
-/

namespace Docblock.Yaml

/-- The entries that the value of a merge key takes over: those of a mapping, or
those of several, the last of them first. -/
def takenOver : Value → Except Failure Entries
  | .map entries => .ok entries
  | .list items =>
    items.foldrM
      (fun item taken =>
        match item with
        | .map entries => .ok (taken ++ entries)
        | _ => .error .badDocument)
      []
  | _ => .error .badDocument

/-- A value as a key. -/
def asKey : Value → Except Failure Value
  | .list _ | .map _ => .error .badDocument
  | key => .ok key

mutual

/-- The value of a node. -/
def Node.toValue : Node → Except Failure Value
  | .scalar text true => plainValue text
  | .scalar text false => .ok (.text text)
  | .sequence items => (itemValues items).map .list
  | .mapping entries =>
    (entryValues entries).map fun (taken, own) =>
      .map ((taken ++ own).foldl (fun map entry => Value.put entry.1 entry.2 map) [])

/-- The values of the items of a sequence. -/
def itemValues : List Node → Except Failure (List Value)
  | [] => .ok []
  | item :: rest => do
    let value ← item.toValue
    let values ← itemValues rest
    pure (value :: values)

/-- The entries that a mapping takes over and those of its own. -/
def entryValues : List (Node × Node) → Except Failure (Entries × Entries)
  | [] => .ok ([], [])
  | (.scalar text true, value) :: rest => do
    if text = mergeKey then
      let taken ← takenOver (← value.toValue)
      let following ← entryValues rest
      pure (taken ++ following.1, following.2)
    else
      let key ← if text = defaultMark then .ok (.text text) else plainValue text
      let value ← value.toValue
      let following ← entryValues rest
      pure (following.1, (key, value) :: following.2)
  | (key, value) :: rest => do
    let key ← asKey (← key.toValue)
    let value ← value.toValue
    let following ← entryValues rest
    pure (following.1, (key, value) :: following.2)

end

/-- The value of the document in a text. A text without a document stands for
nothing. -/
def load (text : Text) : Except Failure Value :=
  match tokens? text with
  | none => .error .badDocument
  | some tokens =>
    match readDocument tokens with
    | none => .error .badDocument
    | some none => .ok .null
    | some (some node) => node.toValue

/-- The reader of plain YAML documents. -/
def reader : DocumentReader := { read := load }

end Docblock.Yaml
