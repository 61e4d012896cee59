import Docblock.Scope
import Docblock.TypeName.BuiltIn

/-!
# Type declarations

A type declaration is a union of members between bars; each member may be
nullable (a leading question mark) and an array (trailing bracket pairs). This
module tells which members name a class and gives every class name in a
declaration its full form.
-/

namespace Docblock.TypeName

/-- The bracket pair after the element type of an array. -/
def arrayMark : Text := ['[', ']']

/-- Characters that no plain class name holds. -/
def isCompound (c : Char) : Bool :=
  c == ' ' || c == '<' || c == '>' || c == '{' || c == '}' || c == '(' || c == ')' ||
    c == ','

/-- Whether one member of a declaration names a class rather than a scalar. -/
def isClass (declared : Text) : Bool :=
  let t := Text.trim declared
  if t.isEmpty || t.any isCompound then false
  else
    let name := Text.dropEndWhile (fun c => c == '[' || c == ']')
      ((Text.lower t).dropWhile (· == '?'))
    !scalarNames.contains name

/-- A member without its nullable marks and array marks. -/
def bare (declared : Text) : Text :=
  Text.replaceAll arrayMark [] ((Text.trim declared).dropWhile (· == '?'))

/-- Whether one member of a declaration names a built-in class, given the keys
of the built-in classes. -/
def isBuiltIn (builtIns : List Text) (declared : Text) : Bool :=
  isClass declared && builtIns.contains (ClassName.key (bare declared))

/-- The first built-in class that a declaration names. -/
def firstBuiltIn? (builtIns : List Text) (declared : Text) : Option Text :=
  ((Text.splitOn '|' declared).find? (isBuiltIn builtIns)).map fun member =>
    ClassName.clean (bare member)

/-- Splits the array marks off the end of a member. -/
def splitArrayMarks (member : Text) : Text × Text :=
  if arrayMark.isSuffixOf member then
    let (element, marks) := splitArrayMarks (member.take (member.length - 2))
    (element, marks ++ arrayMark)
  else (member, [])
termination_by member.length
decreasing_by
  rename_i marked
  have bound := (List.isSuffixOf_iff_suffix.mp marked).length_le
  simp only [arrayMark, List.length_cons, List.length_nil] at bound
  simp only [List.length_take]
  omega

/-- The full name of one undecorated class name. A leading separator marks a
full name; built-in classes stay; then imports count, then the namespace, which
is put only before names of one segment. -/
def qualifyName (builtIns : List Text) (scope : Scope) (name : Text) : Text :=
  if name.head? = some ClassName.separator then name.dropWhile (· == ClassName.separator)
  else if isBuiltIn builtIns name then name
  else
    match scope.expandAlias? name with
    | some full => full
    | none =>
      if name.contains ClassName.separator || scope.space = [] then name
      else ClassName.trimSeparators scope.space ++ ClassName.separator :: name

/-- The full form of one member of a declaration, its decorations kept. -/
def qualifyMember (builtIns : List Text) (scope : Scope) (member : Text) : Text :=
  let trimmed := Text.trim member
  let (mark, rest) :=
    if trimmed.head? = some '?' then (['?'], trimmed.drop 1) else ([], trimmed)
  let (element, marks) := splitArrayMarks rest
  if element = [] || !isClass element then mark ++ element ++ marks
  else mark ++ qualifyName builtIns scope element ++ marks

/-- The full form of a declaration: every class name in the union is given its
full name. -/
def qualify (builtIns : List Text) (scope : Scope) (declared : Text) : Text :=
  Text.join ['|'] ((Text.splitOn '|' declared).map (qualifyMember builtIns scope))

end Docblock.TypeName
