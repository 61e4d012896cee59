import Docblock.Text.WordChar

/-!
# The words of a command line

A word of a command line is plain or asks for an option. An option is asked for by
its long name, by a start of it that no other long name has, or by its letter. A value
may follow in the same word: behind an equals sign, or right behind a letter.
-/

namespace Docblock.CommandLine

/-- An option of the command line. -/
inductive Flag
  | source | ignore | visibility | methodPattern | layout | references | noInternal
  | configuration | output | verbose | help
deriving DecidableEq, Repr

namespace Flag

/-- The long names of the options. -/
def longNames : List (Text × Flag) :=
  [("--help".toList, .help), ("--source".toList, .source), ("--ignore".toList, .ignore),
    ("--visibility".toList, .visibility), ("--method-regex".toList, .methodPattern),
    ("--table-generator".toList, .layout), ("--see".toList, .references),
    ("--no-internal".toList, .noInternal), ("--config".toList, .configuration),
    ("--output".toList, .output), ("--verbose".toList, .verbose)]

/-- The letters of the options. -/
def letters : List (Char × Flag) :=
  [('h', .help), ('s', .source), ('i', .ignore), ('o', .output), ('v', .verbose)]

/-- The option of a letter. -/
def ofLetter? (c : Char) : Option Flag := (letters.find? (·.1 == c)).map (·.2)

/-- The options whose long names start with a text; only the one whose name it is if
there is one. -/
def ofStart (start : Text) : List Flag :=
  match longNames.find? (·.1 == start) with
  | some named => [named.2]
  | none => (longNames.filter fun named => start.isPrefixOf named.1).map (·.2)

/-- Whether an option has a value. -/
def takesValue : Flag → Bool
  | .references | .noInternal | .verbose | .help => false
  | _ => true

end Flag

/-- What a word is: plain, an option by its long name or by its letter with the text
behind it, or an option that there is not. -/
inductive Word
  | plain (text : Text)
  | long (option : Flag) (behind : Text)
  | short (option : Flag) (behind : Text)
  | unknown
deriving DecidableEq, Repr

namespace Word

/-- Drops decimal digits from the front. -/
def dropDigits (s : Text) : Text := s.dropWhile Text.isDigit

/-- Whether nothing is left but a line feed at most. -/
def isOver (s : Text) : Bool := s == [] || s == ['\n']

/-- Whether what stands behind a hyphen makes a negative number: digits, or digits
behind a point with or without digits before it. -/
def isNumber (s : Text) : Bool :=
  (s.head?.any Text.isDigit && isOver (dropDigits s)) ||
    (match dropDigits s with
      | '.' :: c :: rest => Text.isDigit c && isOver (dropDigits rest)
      | _ => false)

/-- What a word is that starts with a hyphen but names no option. -/
def unnamed (s : Text) : Word :=
  if isNumber (s.drop 1) || s.contains ' ' then .plain s else .unknown

/-- What a word is; nothing if it could ask for several options. -/
def ofText? (s : Text) : Option Word :=
  match s with
  | ['-'] => some (.plain s)
  | '-' :: '-' :: _ =>
    match Flag.ofStart (Text.before '=' s) with
    | [] => some (unnamed s)
    | [option] => some (.long option (s.dropWhile (· != '=')))
    | _ => none
  | '-' :: c :: rest =>
    match Flag.ofLetter? c with
    | some option => some (.short option rest)
    | none => some (unnamed s)
  | _ => some (.plain s)

end Word
end Docblock.CommandLine
