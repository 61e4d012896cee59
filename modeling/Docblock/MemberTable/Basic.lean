import Docblock.Documented.Entity
import Docblock.Markdown.Example
import Docblock.Markdown.Table

/-!
# Member tables

A member table lists the methods of one type, a row for each, in one of two
layouts. It is opened once for each type, filled in declaration order and then
written, with the examples of the methods below it. Opening clears all that the
type before has left; only the two switches stay as they are set.
-/

namespace Docblock

/-- The layouts: all of a signature in one cell, or a column for each part. -/
inductive Layout
  | compact | columns
deriving DecidableEq, Repr

/-- A table that is being filled, with its switches. -/
structure MemberTable where
  layout : Layout := .compact
  owner : Text := []
  rows : List (List Text) := []
  examples : Keyed Text := []
  includesReferences : Bool := false
  marksAbstract : Bool := true
  appendsExamples : Bool := true
deriving Repr

namespace MemberTable

open Documented Markdown

/-- Opens the table of another type. -/
def opened (table : MemberTable) : MemberTable :=
  { table with owner := [], rows := [], examples := [], includesReferences := false }

/-- Switches the mark of abstract methods. -/
def markAbstract (flag : Bool) (table : MemberTable) : MemberTable :=
  { table with marksAbstract := flag }

/-- Switches the examples below the table. -/
def appendExamples (flag : Bool) (table : MemberTable) : MemberTable :=
  { table with appendsExamples := flag }

/-- The visibility of a method and its static and final marks. -/
def badge (method : Method) : Text :=
  Text.join [' '] (method.visibility ::
    ((if method.isStatic then ["static".toList] else []) ++
      (if method.isFinal then ["final".toList] else [])))

/-- A text inside of an element without attributes. -/
def element (name : String) (content : Text) : Text :=
  '<' :: name.toList ++ '>' :: content ++ "</".toList ++ name.toList ++ ['>']

/-- A type in emphasis; the link pass looks for types there. -/
def emphasizedType (declared : Text) : Text := element "em" (typeCell declared)

/-- The name of a parameter and its default value. -/
def parameterName (parameter : Parameter) : Text :=
  parameter.name ++
    (match parameter.default with
    | some value => '=' :: value
    | none => [])

/-- The word before the name of an abstract method, where it is marked. -/
def abstractMark (table : MemberTable) (method : Method) : Text :=
  if table.marksAbstract && method.isAbstract then "abstract ".toList else []

/-- The words of a deprecation notice. -/
def deprecationNote (notice : Text) : Text :=
  "DEPRECATED".toList ++ (if notice = [] then [] else " - ".toList ++ notice)

/-- The return type of a method, if there is one to show. -/
def shownReturnType (method : Method) : Option Text := method.returnType.filter (· ≠ [])

/-- The signature of a method as one text. -/
def signature (table : MemberTable) (method : Method) : Text :=
  let opening := "<strong>".toList ++ table.abstractMark method ++ method.name ++ ['(']
  let list :=
    if method.parameters = [] then ")</strong>".toList
    else
      "</strong>".toList ++
        Text.join ", ".toList (method.parameters.map fun parameter =>
          emphasizedType parameter.type ++ ' ' :: element "strong" (parameterName parameter)) ++
        "<strong>)</strong>".toList
  let returned :=
    match shownReturnType method with
    | some type => " : ".toList ++ emphasizedType type
    | none => []
  opening ++ list ++ returned

/-- The cell that shows a method in the compact layout. -/
def compactCell (table : MemberTable) (method : Method) : Text :=
  let shown := table.signature method
  match method.prose.deprecation with
  | some notice =>
    element "strike" shown ++ "<br />".toList ++ element "em" (deprecationNote notice)
  | none =>
    if method.prose.description = [] then shown
    else shown ++ "<br />".toList ++ element "em" method.prose.description

/-- The cell with the references of a method. -/
def referencesCell (method : Method) : Text :=
  Text.join "<br />".toList (method.prose.references.map cell)

/-- The cells of a method in the layout of the table. -/
def cells (table : MemberTable) (method : Method) : List Text :=
  match table.layout with
  | .compact => [badge method, cell (table.compactCell method)]
  | .columns =>
    let name := table.abstractMark method ++ method.name
    let isDeprecated := method.prose.deprecation.isSome
    let parameters := Text.join ", ".toList (method.parameters.map fun parameter =>
      emphasizedType parameter.type ++ ' ' :: parameterName parameter)
    let description :=
      match method.prose.deprecation with
      | some notice => element "em" (deprecationNote notice)
      | none => method.prose.description
    [badge method, element "strong" (if isDeprecated then element "strike" name else name),
      cell parameters, cell (((shownReturnType method).map emphasizedType).getD []),
      cell description]

/-- The headers of a layout. -/
def layoutHeaders : Layout → List Text
  | .compact => ["Visibility", "Function"].map String.toList
  | .columns => ["Visibility", "Name", "Parameters", "Returns", "Description"].map String.toList

/-- The cells of the row that a method gets. -/
def row (table : MemberTable) (method : Method) (withReferences : Bool) : List Text :=
  table.cells method ++ (if withReferences then [referencesCell method] else [])

/-- Adds a method. -/
def add (table : MemberTable) (method : Method) (withReferences : Bool) : MemberTable :=
  { table with
    owner := method.owner
    rows := table.rows ++ [table.row method withReferences]
    examples :=
      if method.prose.exampleCode = [] then table.examples
      else Keyed.put method.name method.prose.exampleCode table.examples
    includesReferences := table.includesReferences || withReferences }

/-- The headers of the table; the references have a column if any row has. -/
def headers (table : MemberTable) : List Text :=
  layoutHeaders table.layout ++ (if table.includesReferences then ["See".toList] else [])

/-- The examples of the methods, each under a heading, where they are shown. -/
def exampleBlocks (table : MemberTable) : Text :=
  if !table.appendsExamples || table.examples.isEmpty then []
  else
    '\n' :: Text.join ['\n'] (table.examples.map fun (name, code) =>
      "###### Examples of ".toList ++ ClassName.base table.owner ++ "::".toList ++ name ++
        "()\n".toList ++ exampleBlock code)

/-- The table in Markdown, with the examples below it. -/
def toText (table : MemberTable) : Text :=
  Markdown.table table.headers table.rows ++ table.exampleBlocks

end MemberTable
end Docblock
