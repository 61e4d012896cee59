import Docblock.Failure
import Docblock.Source.Declaration
import Docblock.Text.LetterCase
import Docblock.Value.Display
import Docblock.Value.Reader

/-!
# Signature manifests

A signature manifest lists declarations in a document instead of source code. It
starts with a header line, which is no part of the document. Entries without a
name are passed over, and everything else that is not given has its default. A
value of the wrong shape is a failure of the whole manifest.
-/

namespace Docblock.Manifest

open Source

/-- What the first line of a manifest starts with. -/
def header : Text := "### PHPDocsMD:Signatures".toList

/-- The text of a manifest without its header line and without empty lines behind
it. -/
def withoutHeader (text : Text) : Text :=
  match Text.lines text with
  | first :: rest =>
    if header.isPrefixOf first then (Text.join ['\n'] rest).dropWhile (· == '\n') else text
  | [] => text

/-- The items of a field that is a list. -/
def listField (name : String) (entries : Entries) : Except Failure (List Value) :=
  match (Value.field name entries).items? with
  | some items => .ok items
  | none => .error (.shape .noItems)

/-- The text of a field, empty if it is not given. -/
def textField (name : String) (entries : Entries) : Text :=
  let value := Value.field name entries
  if value.isGiven then value.toText else []

/-- The text of a field that may be missing. Truth values are spelled as in
source code. -/
def optionalField (name : String) (entries : Entries) : Option Text :=
  match Value.field name entries with
  | .null => none
  | .flag holds => some (if holds then "true" else "false").toList
  | value => some value.toText

/-- The modifiers of a type or a method. -/
def modifiersField (entries : Entries) : Except Failure (List Text) :=
  (listField "modifiers" entries).map fun items => items.map fun item => Text.lower item.toText

/-- A parameter name with its dollar sign. -/
def parameterName (name : Text) : Text := if name.head? = some '$' then name else '$' :: name

/-- A parameter, written as a name or as a map. -/
def parameterOf : Value → Except Failure Parameter
  | .text name => .ok { name := parameterName name }
  | .map entries =>
    .ok {
      name := parameterName (textField "name" entries)
      type := optionalField "type" entries
      default := optionalField "default" entries }
  | _ => .error (.shape .noFields)

/-- A method from a map with a name. -/
def methodOf (entries : Entries) : Except Failure Method := do
  let modifiers ← modifiersField entries
  let parameters ← (← listField "params" entries).mapM parameterOf
  pure {
    name := (Value.field "name" entries).toText
    comment := textField "comment" entries
    modifiers
    parameters
    returnType := optionalField "return_type" entries }

/-- The methods of a type; maps without a name are passed over. -/
def methodsOf : List Value → Except Failure (List Method)
  | [] => .ok []
  | .map entries :: rest =>
    if (Value.field "name" entries).isGiven then do
      let method ← methodOf entries
      let methods ← methodsOf rest
      pure (method :: methods)
    else methodsOf rest
  | _ :: _ => .error (.shape .noFields)

/-- The imports in force for a type. -/
def importsOf (entries : Entries) : Except Failure (Keyed Text) :=
  let value := Value.field "imports" entries
  if !value.isGiven then .ok []
  else
    match value with
    | .map imports =>
      .ok (imports.foldl (fun keyed entry => Keyed.put entry.1.toText entry.2.toText keyed) [])
    | _ => .error (.shape .noFields)

/-- A declaration from a map with a name. -/
def declarationOf (file : Option Text) (entries : Entries) : Except Failure Declaration := do
  let name := ClassName.clean (Value.field "name" entries).toText
  let kind := textField "kind" entries
  let parent := Value.field "extends" entries
  let interfaces ← listField "implements" entries
  let modifiers ← modifiersField entries
  let methods ← methodsOf (← listField "members" entries)
  let imports ← importsOf entries
  pure {
    name
    kind := Text.lower (if kind = [] then "class".toList else kind)
    scope := { space := ClassName.home name, imports }
    comment := textField "comment" entries
    parent := if parent.isGiven then some (ClassName.clean parent.toText) else none
    interfaces := interfaces.map fun item => ClassName.clean item.toText
    modifiers
    methods
    file }

/-- The declarations of a list of types; what is no map with a name is passed
over. -/
def declarationsOf (file : Option Text) : List Value → Except Failure (List Declaration)
  | [] => .ok []
  | .map entries :: rest =>
    if (Value.field "name" entries).isGiven then do
      let declaration ← declarationOf file entries
      let declarations ← declarationsOf file rest
      pure (declaration :: declarations)
    else declarationsOf file rest
  | _ :: rest => declarationsOf file rest

/-- The declarations of a manifest document, which has to hold a list of types. -/
def ofDocument (path : Text) (document : Value) : Except Failure (List Declaration) :=
  let types :=
    match document with
    | .map entries => Value.field "types" entries
    | _ => .null
  match types with
  | .list items => declarationsOf (some path) items
  | _ => .error (.manifestWithoutTypes path)

/-- The declarations of a manifest with the given text. -/
def ofText (reader : DocumentReader) (path text : Text) : Except Failure (List Declaration) :=
  (reader.read (withoutHeader text)).bind (ofDocument path)

end Docblock.Manifest
