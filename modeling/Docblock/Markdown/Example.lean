import Docblock.Text.Blank
import Docblock.Text.CaseFold

/-!
# Example code

Example code becomes a fenced block. If it stands in a code element, only the
content of that element counts. The first line has already lost its
indentation, so the common indentation is taken from the lines behind it. The
language is guessed from marks in the code.
-/

namespace Docblock.Markdown

/-- A fenced code block. -/
def codeBlock (language code : Text) : Text :=
  "```".toList ++ language ++ ['\n'] ++ Text.trimEnd code ++ "\n```".toList

/-- What stands before the first occurrence of a text, letters compared without
regard to case; none if it does not occur. -/
def beforeLetters? (needle : Text) : Text → Option Text
  | [] => if needle.isEmpty then some [] else none
  | c :: rest =>
    if Text.startsWithLetters needle (c :: rest) then some []
    else (beforeLetters? needle rest).map (c :: ·)

/-- The content of a code element that starts at the front. -/
def codeElement? (s : Text) : Option Text :=
  if Text.startsWithLetters "<code".toList s then
    match (s.drop 5).dropWhile (· != '>') with
    | [] => none
    | _ :: content => beforeLetters? "</code>".toList content
  else none

/-- The content of the first code element; none if there is none. -/
def firstCodeElement? : Text → Option Text
  | [] => none
  | c :: rest => (codeElement? (c :: rest)).or (firstCodeElement? rest)

/-- The content of the first code element, or the text itself without one. -/
def withoutCodeTags (written : Text) : Text := (firstCodeElement? written).getD written

/-- How many blank characters a line starts with. -/
def indentation (line : Text) : Nat := (line.takeWhile Text.isBlank).length

/-- The least indentation of the lines that are not blank; zero if all are. -/
def commonIndentation (lines : List Text) : Nat :=
  ((lines.filter (·.any (!Text.isBlank ·))).map indentation).min?.getD 0

/-- Lines of which all but the first lose their common indentation; the first is
trimmed when others follow. -/
def dedented : List Text → List Text
  | first :: next :: rest =>
    let cut := commonIndentation (next :: rest)
    Text.trim first :: (next :: rest).map (·.drop cut)
  | lines => lines

/-- The language that marks in the code point to; none if there are no marks. -/
def guessLanguage (code : Text) : Text :=
  if Text.occursIn "<?php".toList code then "php".toList
  else if Text.occursIn "var ".toList code && !Text.occursIn "</".toList code then "js".toList
  else []

/-- The fenced block for an example. -/
def exampleBlock (written : Text) : Text :=
  let content := Text.trimWhile (· == '\n') (withoutCodeTags written)
  let code := Text.trim (Text.join ['\n'] (dedented (Text.lines content)))
  codeBlock (guessLanguage code) code

end Docblock.Markdown
