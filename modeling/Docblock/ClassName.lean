import Docblock.Text.Blank
import Docblock.Text.LetterCase

/-!
# Class names

A class name is a path of segments between backslashes. Its clean form has no
white space and no backslash at either end; the key under which it is stored is
the clean form in lower case, because class names ignore case.
-/

namespace Docblock.ClassName

/-- The separator between the segments of a name. -/
def separator : Char := '\\'

/-- Drops separators from both ends. -/
def trimSeparators (name : Text) : Text := Text.trimWhile (· == separator) name

/-- The name without white space and separators at its ends. -/
def clean (name : Text) : Text := trimSeparators (Text.trim name)

/-- The form under which names that differ only in case coincide. -/
def key (name : Text) : Text := Text.lower (clean name)

/-- The last segment of a name. -/
def base (name : Text) : Text :=
  (Text.splitOn separator (clean name)).getLast?.getD []

/-- All segments of a name but the last one. -/
def home (name : Text) : Text :=
  Text.join [separator] (Text.splitOn separator (clean name)).dropLast

/-- A name below a namespace; the global namespace adds nothing. -/
def below (space name : Text) : Text :=
  if space = [] then name else space ++ separator :: name

end Docblock.ClassName
