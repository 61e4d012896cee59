import Docblock.CommandLine.Word

/-!
# How the command line is used

The text that is shown when help is asked for, and the line that is shown when a
command line is rejected.
-/

namespace Docblock.CommandLine

/-- The line that says how the program is called. -/
def usageLine : Text := "usage: docblock [options] target".toList

/-- What an option is for. -/
def Flag.purpose : Flag → String
  | .source => "a file, manifest or folder to load declarations from, repeatable"
  | .ignore => "endings of folder names to pass over, with commas"
  | .visibility => "modifiers of the methods to document, with commas"
  | .methodPattern => "a pattern that occurs in the names of the methods to document"
  | .layout => "default, columns, or module:class"
  | .references => "list the references of types and methods"
  | .noInternal => "leave out what is internal"
  | .configuration => "a configuration document"
  | .output => "a file to write to instead of the standard output"
  | .verbose => "log progress"
  | .help => "show this text"

/-- The line about one option. -/
def helpLine (named : Text × Flag) : Text :=
  "  ".toList ++ named.1 ++ (if named.2.takesValue then " VALUE".toList else []) ++
    ": ".toList ++ named.2.purpose.toList

/-- The text that is shown when help is asked for. -/
def help : Text :=
  Text.join ['\n']
    ([usageLine, [],
      "target: a type, types with commas between them, or a file or folder".toList, []] ++
        Flag.longNames.map helpLine ++ [[]])

end Docblock.CommandLine
