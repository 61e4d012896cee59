import Docblock.Scope

/-!
# Declarations

What source code or a signature manifest says about one class, interface or
trait: its names, modifiers and comments and the signatures of its methods, as
written. Nothing in a declaration is resolved against other declarations.
-/

namespace Docblock.Source

/-- A parameter as declared. The name includes the dollar sign, and the default
is the source text of the default value. -/
structure Parameter where
  name : Text
  type : Option Text := none
  default : Option Text := none
deriving DecidableEq, Repr

/-- A method as declared. -/
structure Method where
  name : Text
  comment : Text := []
  modifiers : List Text := []
  parameters : List Parameter := []
  returnType : Option Text := none
deriving DecidableEq, Repr

/-- A class, interface or trait as declared, with the scope it stands in and the
path of the file it comes from. -/
structure Declaration where
  name : Text
  kind : Text := "class".toList
  scope : Scope := {}
  comment : Text := []
  parent : Option Text := none
  interfaces : List Text := []
  modifiers : List Text := []
  methods : List Method := []
  file : Option Text := none
deriving DecidableEq, Repr

end Docblock.Source
