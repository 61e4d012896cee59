import Docblock.Value.Basic

/-!
# Merging settings

One map of settings is laid over another one. Maps under the same key are
merged in turn, and the lists of built-in classes are joined, items that are
already there left out. Anything else that the second map says replaces what
the first one said. Keys keep their places; new keys follow in their order.
-/

namespace Docblock.Value

/-- The key whose lists are joined instead of replaced. -/
def additiveKey : Value := .text "native_classes".toList

/-- A list followed by the items of another one that equal no earlier item. -/
def joined (items : List Value) (more : List Value) : List Value :=
  more.foldl (fun result item => if result.any (·.same item) then result else result ++ [item])
    items

mutual

/-- What stands under a key after a new value has been laid over the old one. -/
def mergedValue (key : Value) (old : Option Value) : Value → Value
  | .map update =>
    match old with
    | some (.map base) => .map (merged base update)
    | _ => .map update
  | .list update =>
    match old with
    | some (.list base) => .list (if key.same additiveKey then joined base update else update)
    | _ => .list update
  | value => value

/-- Lays one map over another. -/
def merged (base : Entries) : Entries → Entries
  | [] => base
  | (key, value) :: rest =>
    merged (put key (mergedValue key (find? key base) value) base) rest

end

end Docblock.Value
