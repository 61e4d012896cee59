import Docblock.Keyed
import Docblock.Text.WordChar

/-!
# Linking type names

Type names in finished Markdown are turned into links where the punctuation in
front of them says that a type stands there: an opening emphasis or a slash,
with a nullable mark or without. Longer names go first, and a name that goes on
with another identifier character is left alone. Prose with a slash before a
name is linked as well.
-/

namespace Docblock.Document

/-- Characters that a type name goes on with. -/
def isIdentifierChar (c : Char) : Bool := Text.isWordChar c || c == '\\'

/-- The marks in front of a type, in the order in which they are tried. -/
def typeMarks : List Text := ["<em>?", "<em>", "/?", "/"].map String.toList

/-- The mark in front of a name at the front of a text, if the name follows it
and does not go on. -/
def markBefore? (name : Text) (s : Text) : Option Text :=
  typeMarks.find? fun mark =>
    (mark ++ name).isPrefixOf s &&
      !((s.drop (mark.length + name.length)).head?.any isIdentifierChar)

/-- A link in Markdown. -/
def link (label target : Text) : Text := '[' :: label ++ "](".toList ++ target ++ [')']

/-- Links every occurrence of one name. -/
def linkName (name target : Text) : Text → Text
  | [] => []
  | c :: rest =>
    match markBefore? name (c :: rest) with
    | some mark =>
      mark ++ link name target ++ linkName name target (rest.drop (mark.length + name.length - 1))
    | none => c :: linkName name target rest
termination_by s => s.length
decreasing_by
  · simp only [List.length_drop, List.length_cons]; omega
  · simp

/-- Whether a name goes before another one: longer names first, then by code
points. -/
def goesFirst (a b : Text × Text) : Bool :=
  b.1.length < a.1.length || (a.1.length == b.1.length && Text.precedesOrEquals a.1 b.1)

/-- Links every name of a list, each with its target. -/
def linkNames (links : Keyed Text) (s : Text) : Text :=
  (links.mergeSort goesFirst).foldl (fun text entry => linkName entry.1 entry.2 text) s

end Docblock.Document
