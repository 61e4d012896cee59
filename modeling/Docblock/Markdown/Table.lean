import Docblock.Text.Blank

/-!
# Tables

A table is written with one line for the headers, one for the rule below them
and one for each row. A table without rows is nothing at all.
-/

namespace Docblock.Markdown

/-- One line of a table. -/
def tableLine (cells : List Text) : Text :=
  "| ".toList ++ Text.join " | ".toList cells ++ " |".toList

/-- A row with empty cells added up to a width. -/
def padded (width : Nat) (row : List Text) : List Text :=
  row ++ List.replicate (width - row.length) []

/-- A table; short rows are filled up. -/
def table (headers : List Text) (rows : List (List Text)) : Text :=
  if rows = [] then []
  else
    Text.join ['\n']
      (tableLine headers :: tableLine (headers.map fun _ => "---".toList) ::
        rows.map fun row => tableLine (padded headers.length row))

/-- Prose on one line, with its bars escaped. -/
def cell (prose : Text) : Text :=
  (Text.join [' '] (Text.words prose)).flatMap fun c => if c = '|' then ['\\', '|'] else [c]

/-- A type declaration without bars. -/
def typeCell (declared : Text) : Text := declared.map fun c => if c = '|' then '/' else c

end Docblock.Markdown
