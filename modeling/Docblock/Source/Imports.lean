import Docblock.Scope
import Docblock.Source.Skip

/-!
# Namespace and import statements

A namespace statement replaces the scope; an import statement adds aliases to
it. An import statement may hold several names, a common start of them before a
group in braces, and an alias for each. Imports of functions and constants say
nothing about classes and are passed over.
-/

namespace Docblock.Source

/-- The words after which an import is not one of a class. -/
def isOtherImport (word : Text) : Bool :=
  let w := Text.lower word
  w == "function".toList || w == "const".toList

/-- What has been read of an import statement: the common start of the names,
the finished items and the item being read, each a list of names. -/
structure ImportList where
  stem : Text := []
  done : List (List Text) := []
  current : List Text := []

/-- Adds one token: a comma ends an item, a brace makes the last name of the item
the common start, and a name goes to the item. -/
def ImportList.add (list : ImportList) (token : Token) : ImportList :=
  if token.isMark '{' then
    { list with stem := list.current.getLast?.getD [], current := list.current.dropLast }
  else if token.isMark ',' then
    { list with done := list.done ++ [list.current], current := [] }
  else if token.kind = .name then { list with current := list.current ++ [token.text] }
  else list

/-- All items in order. -/
def ImportList.items (list : ImportList) : List (List Text) := list.done ++ [list.current]

/-- Enters the class that an item imports: under the alias that follows it, or
under its last segment. -/
def importItem (stem : Text) (imports : Keyed Text) (item : List Text) : Keyed Text :=
  match item with
  | [] => imports
  | path :: rest =>
    if isOtherImport path then imports
    else
      let full := ClassName.trimSeparators
        (Text.dropEndWhile (· == ClassName.separator) stem ++ ClassName.separator :: path)
      let short :=
        match rest with
        | word :: name :: _ =>
          if Text.lower word = "as".toList then name
          else (Text.splitOn ClassName.separator full).getLast?.getD []
        | _ => (Text.splitOn ClassName.separator full).getLast?.getD []
      Keyed.put short full imports

/-- Reads an import statement behind the word that introduces it. An opening
parenthesis there belongs to a closure, and nothing is read. -/
def readImports (imports : Keyed Text) (tokens : List Token) : Keyed Text × List Token :=
  match tokens with
  | [] => (imports, [])
  | first :: _ =>
    if first.isMark '(' then (imports, tokens)
    else if isOtherImport first.text then (imports, skipStatement tokens)
    else
      let statement := tokens.takeWhile (!·.isMark ';')
      let list := statement.foldl ImportList.add {}
      (list.items.foldl (importItem list.stem) imports, tokens.drop (statement.length + 1))

/-- Reads a namespace statement behind the word that introduces it: the scope
with that namespace, or with none, and without imports. -/
def readNamespace (tokens : List Token) : Scope × List Token :=
  match tokens with
  | [] => ({}, [])
  | token :: rest =>
    if token.kind = .name then ({ space := ClassName.trimSeparators token.text }, rest)
    else ({}, tokens)

/-- Reading imports never adds tokens. -/
theorem readImports_length_le (imports : Keyed Text) (tokens : List Token) :
    (readImports imports tokens).2.length ≤ tokens.length := by
  simp only [readImports]
  split
  · simp
  · rename_i first rest
    split
    · simp
    · split
      · exact skipStatement_length_le _
      · simp only [List.length_drop]
        omega

/-- Reading a namespace never adds tokens. -/
theorem readNamespace_length_le (tokens : List Token) :
    (readNamespace tokens).2.length ≤ tokens.length := by
  cases tokens with
  | nil => simp [readNamespace]
  | cons token rest => simp only [readNamespace]; split <;> simp

end Docblock.Source
