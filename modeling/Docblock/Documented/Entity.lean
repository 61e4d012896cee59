import Docblock.Comment.Prose
import Docblock.Markdown.Slug

/-!
# Documented types and methods

The finished documentation of a type and of its methods, as it is rendered:
every type name is full and inherited words are filled in. A type makes its own
title, and its anchor is the slug of that title.
-/

namespace Docblock.Documented

/-- A documented parameter. The built-in class is the first one that its type
names. -/
structure Parameter where
  name : Text
  type : Text := "mixed".toList
  description : Text := []
  default : Option Text := none
  builtIn : Option Text := none
deriving DecidableEq, Repr

/-- A documented method with the name of the type it belongs to. -/
structure Method where
  name : Text
  owner : Text := []
  prose : Prose := {}
  parameters : List Parameter := []
  returnType : Option Text := none
  visibility : Text := "public".toList
  isAbstract : Bool := false
  isFinal : Bool := false
  isStatic : Bool := false
  returnsBuiltIn : Bool := false
deriving DecidableEq, Repr

/-- A documented class, interface or trait. -/
structure Entity where
  name : Text
  kind : Text := "class".toList
  parent : Option Text := none
  interfaces : List Text := []
  prose : Prose := {}
  isAbstract : Bool := false
  isFinal : Bool := false
  isIgnored : Bool := false
  methods : List Method := []
deriving DecidableEq, Repr

/-- Texts in increasing order, each once. -/
def sortedWords (words : List Text) : List Text :=
  (words.mergeSort Text.precedesOrEquals).eraseDups

/-- The visibility of a method and its further modifiers, in increasing order. -/
def Method.modifiers (method : Method) : List Text :=
  sortedWords
    (method.visibility :: ((if method.isAbstract then ["abstract".toList] else []) ++
      (if method.isFinal then ["final".toList] else []) ++
      (if method.isStatic then ["static".toList] else [])))

/-- The format of a title that names the kind of type. -/
def titleFormat : Text := "%label%: %name% %extra%".toList

/-- The format of a title in a table of contents. -/
def contentsFormat : Text := "%name% %extra%".toList

/-- Whether a type is an interface. -/
def Entity.isInterface (entity : Entity) : Bool := entity.kind == "interface".toList

/-- Whether a type is a trait. -/
def Entity.isTrait (entity : Entity) : Bool := entity.kind == "trait".toList

/-- The word for the kind of a type; an unknown kind counts as a class. -/
def Entity.label (entity : Entity) : Text :=
  if entity.isInterface then "Interface".toList
  else if entity.isTrait then "Trait".toList
  else "Class".toList

/-- The remark behind a name. A title without a label says that a type is an
interface; otherwise only what is abstract gets a remark. -/
def Entity.remark (entity : Entity) (labelled : Bool) : Text :=
  if entity.isInterface then (if labelled then [] else "(interface)".toList)
  else if entity.isAbstract then "(abstract)".toList
  else []

/-- The title of a type in a format. -/
def Entity.title (entity : Entity) (format : Text := titleFormat) : Text :=
  let remark := entity.remark (Text.occursIn "%label%".toList format)
  Text.trim (Text.replaceAll "%extra%".toList remark
    (Text.replaceAll "%name%".toList entity.name
      (Text.replaceAll "%label%".toList entity.label format)))

/-- The slug under which the section of a type is found. -/
def Entity.anchor (entity : Entity) : Text := Markdown.slug entity.title

/-- The return type that the name of an undocumented method suggests. -/
def guessedReturnType (name : Text) : Text :=
  let starts := fun words : List String => words.any fun word => word.toList.isPrefixOf name
  if starts ["get", "load", "fetch", "find", "create"] then "mixed".toList
  else if starts ["is", "can", "has", "have", "should"] then "bool".toList
  else "void".toList

end Docblock.Documented
