import Docblock.Comment.Clean
import Docblock.TypeName.Qualify

/-!
# Tags of a comment

A cleaned comment is read line by line with a tag in hand, which is the
description at first. A line whose first word starts with an at sign takes
another tag in hand, except that parameter lines and reference lines are
entries of their own and leave the tag in hand alone. All other lines extend
it. Example code keeps its lines as they are; in every other tag lines are
trimmed and run on with a blank between them.
-/

namespace Docblock.Comment

/-- What a parameter line says. The name includes the dollar sign. -/
structure ParameterTag where
  name : Text
  type : Text
  description : Text
  default : Option Text
deriving DecidableEq, Repr

/-- The content of a tag: running text, the references in order, or the
documented parameters by name. -/
inductive TagValue
  | text (content : Text)
  | references (items : List Text)
  | parameters (entries : Keyed ParameterTag)
deriving DecidableEq, Repr

/-- The tags of a comment in order of their first line. -/
abbrev Tags := Keyed TagValue

/-- The tag in hand at the start. -/
def descriptionTag : Text := "description".toList

/-- The tag whose lines are code. -/
def exampleTag : Text := "example".toList

/-- The tag of parameter lines. -/
def parameterTag : Text := "param".toList

/-- The tag of reference lines. -/
def referenceTag : Text := "see".toList

/-- The running text of a tag; empty if there is none. -/
def textOf (name : Text) (tags : Tags) : Text :=
  match Keyed.find? name tags with
  | some (.text content) => content
  | _ => []

/-- The documented parameters by name. -/
def parametersOf (tags : Tags) : Keyed ParameterTag :=
  match Keyed.find? parameterTag tags with
  | some (.parameters entries) => entries
  | _ => []

/-- The references in order. -/
def referencesOf (tags : Tags) : List Text :=
  match Keyed.find? referenceTag tags with
  | some (.references items) => items
  | _ => []

/-- What stands between two lines of a tag. -/
def joiner (tag : Text) : Text := if tag = exampleTag then ['\n'] else [' ']

/-- A character that may stand before the dollar sign of a parameter: the mark
of a reference or of a variadic parameter. -/
def isParameterMark (c : Char) : Bool := c == '&' || c == '.'

/-- What a parameter line says, given its words: an optional type, the name with
an optional default behind an equals sign, and the description. A line without a
name says nothing. -/
def parameterOf? (builtIns : List Text) (scope : Scope) (words : List Text) :
    Option ParameterTag :=
  let entry := fun (type name : Text) (rest : List Text) =>
    let marked := name.dropWhile isParameterMark
    let bare := Text.before '=' marked
    let default := Text.after '=' marked
    if bare = [] then none
    else
      some {
        name := bare
        type := TypeName.qualify builtIns scope type
        description := Text.join [' '] rest
        default := if default = [] then none else some default }
  match words with
  | _ :: first :: rest =>
    if (first.dropWhile isParameterMark).head? = some '$' then entry "mixed".toList first rest
    else
      match rest with
      | name :: description => entry first name description
      | [] => none
  | _ => none

/-- Whether a reference is an address on the web. -/
def isAddress (word : Text) : Bool :=
  "http://".toList.isPrefixOf word || "https://".toList.isPrefixOf word

/-- What a reference line says, given its words: a link for an address with a
label, an address between angles, or the words as they are. -/
def referenceOf? (words : List Text) : Option Text :=
  match words with
  | _ :: first :: rest =>
    if isAddress first then
      if rest = [] then some ('<' :: first ++ ['>'])
      else some ('[' :: Text.join [' '] rest ++ [']', '('] ++ first ++ [')'])
    else some (Text.join [' '] (first :: rest))
  | _ => none

/-- The tag in hand and the tags so far. -/
structure TagState where
  current : Text := descriptionTag
  tags : Tags := [(descriptionTag, .text [])]

/-- Extends the tag in hand. -/
def TagState.extend (state : TagState) (addition : Text) : TagState :=
  match Keyed.find? state.current state.tags with
  | some (.text content) =>
    { state with tags := Keyed.put state.current (.text (content ++ addition)) state.tags }
  | _ => state

/-- Takes another tag in hand. What it says is added to what it said before, if
both say something. -/
def TagState.take (state : TagState) (name : Text) (words : List Text) : TagState :=
  let value := Text.join [' '] words
  let existing := textOf name state.tags
  let content :=
    if value = [] then existing
    else if existing = [] then value
    else existing ++ joiner name ++ value
  { current := name, tags := Keyed.put name (.text content) state.tags }

/-- Adds a parameter; a second entry for a name takes the place of the first. -/
def TagState.addParameter (state : TagState) (entry : ParameterTag) : TagState :=
  { state with
    tags := Keyed.put parameterTag
      (.parameters (Keyed.put entry.name entry (parametersOf state.tags))) state.tags }

/-- Adds a reference. -/
def TagState.addReference (state : TagState) (reference : Text) : TagState :=
  { state with
    tags := Keyed.put referenceTag (.references (referencesOf state.tags ++ [reference]))
      state.tags }

/-- Reads one line. -/
def TagState.addLine (builtIns : List Text) (scope : Scope) (state : TagState) (raw : Text) :
    TagState :=
  let isExample := state.current = exampleTag
  let line := if isExample then raw else Text.trim raw
  match Text.words line with
  | [] =>
    if isExample ∧ textOf exampleTag state.tags ≠ [] then state.extend ['\n'] else state
  | first :: rest =>
    match first with
    | '@' :: name =>
      if name = parameterTag then
        match parameterOf? builtIns scope (first :: rest) with
        | some entry => state.addParameter entry
        | none => state
      else if name = referenceTag then
        match referenceOf? (first :: rest) with
        | some reference => state.addReference reference
        | none => state
      else state.take name rest
    | _ => state.extend (joiner state.current ++ line)

/-- Trims every text in a tag. -/
def TagValue.trimmed : TagValue → TagValue
  | .text content => .text (Text.trim content)
  | .references items => .references (items.map Text.trim)
  | .parameters entries =>
    .parameters (entries.map fun (key, entry) =>
      (key, {
        name := Text.trim entry.name
        type := Text.trim entry.type
        description := Text.trim entry.description
        default := entry.default.map Text.trim }))

/-- The tags of cleaned comment lines. -/
def tagsOfLines (builtIns : List Text) (scope : Scope) (lines : List Text) : Tags :=
  (lines.foldl (TagState.addLine builtIns scope) {}).tags.map fun (name, value) =>
    (name, value.trimmed)

/-- The tags of a raw comment that stands in a scope. -/
def tags (builtIns : List Text) (scope : Scope) (raw : Text) : Tags :=
  tagsOfLines builtIns scope (Text.lines (clean raw))

end Docblock.Comment
