import Docblock.Text.Blank

/-!
# Cleaning comments

A raw comment carries its delimiters and, on every line, an optional star with
one blank behind it. Cleaning takes these off and keeps all other white space
inside the lines, so that indented example code survives.
-/

namespace Docblock.Comment

/-- Whether a character is a star. -/
def isStar (c : Char) : Bool := c == '*'

/-- Drops an opening delimiter, a slash with all stars behind it. -/
def withoutOpening : Text → Text
  | '/' :: '*' :: rest => rest.dropWhile isStar
  | s => s

/-- Drops a closing delimiter, a slash with all stars before it. -/
def withoutClosing (s : Text) : Text :=
  match s.reverse with
  | '/' :: '*' :: rest => (rest.dropWhile isStar).reverse
  | _ => s

/-- Drops the marker at the front of a line: blanks, a star and one blank or tab
behind it. A star with anything else behind it belongs to the text. -/
def withoutMarker (line : Text) : Text :=
  match line.dropWhile Text.isBlank with
  | ['*'] => []
  | '*' :: c :: rest => if c = ' ' || c = '\t' then rest else line
  | _ => line

/-- The text of a comment without delimiters and line markers. -/
def clean (raw : Text) : Text :=
  let body := withoutClosing (withoutOpening (Text.trim raw))
  Text.trimWhile isStar
    (Text.trim (Text.join ['\n'] ((Text.lines body).map withoutMarker)))

end Docblock.Comment
