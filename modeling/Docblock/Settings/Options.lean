import Docblock.Document.Assembly
import Docblock.Value.Display
import Docblock.Value.Merge

/-!
# Options

The settings of a run. They start as a map of values, in which the configuration
file is laid over the defaults and the command line over both, and are then read
into their types. A list may be written as a list or as a text with commas.
-/

namespace Docblock

/-- The settings of a run. The method pattern is kept as it was given. -/
structure Options where
  visibility : List Text
  methodPattern : Value
  showsReferences : Bool
  leavesOutInternal : Bool
  layout : Text
  ignored : List Text
  builtIns : List Text
  template : Text
  guessesReturnTypes : Bool

namespace Options

/-- The modifiers of the methods that are documented when nothing else is
configured. -/
def defaultVisibility : List Text :=
  ["public", "protected", "abstract", "final"].map String.toList

/-- Trims some texts and drops those that are empty then. -/
def trimmedItems (items : List Text) : List Text :=
  (items.map Text.trim).filter (· ≠ [])

/-- The items of a text with commas. -/
def splitText (s : Text) : List Text := trimmedItems (Text.splitSpaced ',' s)

/-- The items of a list setting, as a list or as a text with commas. -/
def splitList : Value → Except Failure (List Text)
  | .null => .ok []
  | .list items => .ok (trimmedItems (items.map Value.toText))
  | .text s => .ok (splitText s)
  | _ => .error (.shape .notAList)

/-- The key of one configured built-in class. -/
def builtInKey : Value → Except Failure Text
  | .text name => .ok (ClassName.key name)
  | _ => .error (.shape .notAName)

/-- The keys of the configured built-in classes, each once. -/
def builtInKeysOf (names : Value) : Except Failure (List Text) := do
  match names.items? with
  | none => .error (.shape .noItems)
  | some items => pure (← items.mapM builtInKey).eraseDups

/-- The text of a setting, or a default if it is not given. -/
def textOr (fallback : Text) (value : Value) : Text :=
  if value.isGiven then value.toText else fallback

/-- Reads the settings from a map of values. -/
def ofEntries (entries : Entries) : Except Failure Options := do
  let visibility ← splitList (Value.field "visibility" entries)
  let ignored ← splitList (Value.field "ignore" entries)
  let builtIns ← builtInKeysOf (Value.field "native_classes" entries)
  let pattern := Value.field "method_regex" entries
  let guesses := Value.find? (.text "guess_return_type".toList) entries
  pure {
    visibility := if visibility = [] then defaultVisibility else visibility
    methodPattern := if pattern.isGiven then pattern else .null
    showsReferences := (Value.field "include_see" entries).isGiven
    leavesOutInternal := (Value.field "no_internal" entries).isGiven
    layout := textOr "default".toList (Value.field "table_generator" entries)
    ignored
    builtIns
    template := textOr Template.standard (Value.field "external_url_template" entries)
    guessesReturnTypes := (guesses.map Value.isGiven).getD true }

/-- A text key and a list of texts as an entry. -/
def listEntry (name : String) (items : List Text) : Value × Value :=
  (.text name.toList, .list (items.map .text))

/-- The default settings as a map of values. -/
def defaults : Entries :=
  [listEntry "visibility" defaultVisibility,
    (.text "method_regex".toList, .null),
    (.text "include_see".toList, .flag false),
    (.text "no_internal".toList, .flag false),
    (.text "table_generator".toList, .text "default".toList),
    (.text "ignore".toList, .list []),
    listEntry "native_classes" TypeName.defaultBuiltIns,
    (.text "external_url_template".toList, .text Template.standard),
    (.text "guess_return_type".toList, .flag true)]

/-- Lays a configuration document over the defaults. A document without content
changes nothing. -/
def configured (document : Value) : Except Failure Entries :=
  if !document.isGiven then .ok defaults
  else
    match document with
    | .map entries => .ok (Value.merged defaults entries)
    | _ => .error (.shape .noFields)

end Options
end Docblock
