import Docblock.Text.Blank
import Docblock.Text.LetterCase

/-!
# Slugs

A slug names a section inside a document: the runs of small Latin letters and
digits of a title in lower case, with hyphens between them.
-/

namespace Docblock.Markdown

/-- The characters of a slug between its hyphens. -/
def isSlugChar (c : Char) : Bool := ('a' ≤ c && c ≤ 'z') || ('0' ≤ c && c ≤ '9')

/-- The slug of a title; a title without any such character has a fixed one. -/
def slug (title : Text) : Text :=
  match Text.runs isSlugChar (Text.lower title) with
  | [] => "section".toList
  | parts => Text.join ['-'] parts

end Docblock.Markdown
