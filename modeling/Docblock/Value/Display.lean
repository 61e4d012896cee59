import Docblock.Number.Shortest
import Docblock.Text.Quoted
import Docblock.Value.Basic

/-!
# The text of a value

A value that stands where a text is expected is shown as text: a text as it is,
everything else in a notation with brackets and braces, in which texts inside
of lists and maps are quoted. Values of further kinds bring both forms with them.
-/

namespace Docblock.Value

mutual

/-- The notation of a value. -/
def shown : Value → Text
  | .null => "None".toList
  | .flag true => "True".toList
  | .flag false => "False".toList
  | .int number => Text.ofInt number
  | .float number => number.toText
  | .text content => Text.quoted content
  | .list items => '[' :: shownItems items ++ [']']
  | .map entries => '{' :: shownEntries entries ++ ['}']
  | .foreign traits _ => traits.notated

/-- The notations of items with commas between them. -/
def shownItems : List Value → Text
  | [] => []
  | [item] => shown item
  | item :: rest => shown item ++ [',', ' '] ++ shownItems rest

/-- The notations of entries with commas between them. -/
def shownEntries : List (Value × Value) → Text
  | [] => []
  | [(key, value)] => shown key ++ [':', ' '] ++ shown value
  | (key, value) :: rest =>
    shown key ++ [':', ' '] ++ shown value ++ [',', ' '] ++ shownEntries rest

end

/-- A value as text. -/
def toText : Value → Text
  | .text content => content
  | .foreign traits _ => traits.text
  | value => shown value

end Docblock.Value
