import Docblock.Comment.Tags
import Docblock.Text.CaseFold

/-!
# Prose

What a comment says about a class or a method in words: the description, the
example, references and the notices about its use. A comment may ask to take
its words from the method it overrides, by a tag or by a mark in braces inside
the description; the mark is no part of the description.
-/

namespace Docblock

/-- The words that document a class or a method. A deprecation notice may be
without words. -/
structure Prose where
  description : Text := []
  exampleCode : Text := []
  references : List Text := []
  deprecation : Option Text := none
  isInternal : Bool := false
deriving DecidableEq, Repr

namespace Comment

/-- The mark that asks for inherited words, in any case. -/
def inheritMark : Text := ['{'] ++ "@inheritdoc".toList ++ ['}']

/-- Whether the mark occurs in a text. -/
def hasInheritMark : Text → Bool
  | [] => false
  | c :: rest => Text.startsWithLetters inheritMark (c :: rest) || hasInheritMark rest

/-- A text without the marks in it. -/
def withoutInheritMarks : Text → Text
  | [] => []
  | c :: rest =>
    if Text.startsWithLetters inheritMark (c :: rest) then
      withoutInheritMarks (rest.drop (inheritMark.length - 1))
    else c :: withoutInheritMarks rest
termination_by s => s.length
decreasing_by
  · simp only [List.length_drop, List.length_cons]; omega
  · simp

/-- The text of the description before marks are taken out. -/
def markedDescription (tags : Tags) : Text := textOf descriptionTag tags

/-- Whether a comment asks for inherited words. -/
def inheritsWords (tags : Tags) : Bool :=
  (Keyed.keys tags).any (fun name => Text.lower name == "inheritdoc".toList) ||
    hasInheritMark (markedDescription tags)

/-- Whether a comment asks to leave out what it stands at. -/
def isIgnored (tags : Tags) : Bool := Keyed.has "ignore".toList tags

/-- The documented return type; empty if there is none. -/
def returnTypeOf (tags : Tags) : Text :=
  (Text.words (textOf "return".toList tags)).head?.getD []

/-- The words of a comment. -/
def prose (tags : Tags) : Prose where
  description := Text.trim (withoutInheritMarks (markedDescription tags))
  exampleCode := textOf exampleTag tags
  references := referencesOf tags
  deprecation :=
    if Keyed.has "deprecated".toList tags then some (textOf "deprecated".toList tags) else none
  isInternal := Keyed.has "internal".toList tags

end Comment
end Docblock
