import Docblock.Proofs.Source.Spacing
import Docblock.Source.Reader

/-!
# Printed files

The files that hold nothing but declarations: a namespace, if there is one, and
any number of classes, interfaces, traits and enumerations with methods. Every
part is data that can only be built well-formed, its chunks are given by
recursion on that data, and beside them stands what a reader has to make of it.

Names are identifiers of the basic Latin alphabet other than the words that the
reader tests for. There are no imports, comments, attributes, properties and
constants, and bodies are empty. Default values are literals and lists of them.
-/

namespace Docblock.Source.Printed

/-- A letter, a digit or an underscore of the basic Latin alphabet. -/
def isIdentifierChar (c : Char) : Bool := Text.isNameStart c || ('0' ≤ c && c ≤ '9')

/-- Whether a text is an identifier of the basic Latin alphabet. -/
def isIdentifier : Text → Bool
  | [] => false
  | c :: rest => Text.isNameStart c && rest.all isIdentifierChar

/-- The words that the reader tests for. -/
def keywords : List Text :=
  typeWords ++ classModifiers ++ memberModifiers ++ promotionModifiers ++
    ["namespace", "use", "function", "const", "as", "extends", "implements", "new"].map
      String.toList

/-- An identifier that is no keyword in any spelling. -/
structure Identifier where
  text : Text
  wellFormed : isIdentifier text = true
  free : Text.lower text ∉ keywords

/-- Identifiers between separators. -/
structure Segments where
  first : Identifier
  others : List Identifier

/-- The segments as written. -/
def Segments.text (segments : Segments) : Text :=
  segments.first.text ++ segments.others.flatMap fun name => ClassName.separator :: name.text

/-- A class name, with a separator before it when it is absolute. -/
structure Path where
  isAbsolute : Bool
  segments : Segments

/-- The class name as written. -/
def Path.text (path : Path) : Text :=
  if path.isAbsolute then ClassName.separator :: path.segments.text else path.segments.text

/-- The full name that a class name stands for in a namespace without imports. -/
def Path.full (space : Text) (path : Path) : Text :=
  if path.isAbsolute then path.segments.text else ClassName.below space path.segments.text

/-- An operator, a bracket or a separator. -/
def mark (text : String) : Chunk := .single ⟨.punctuation, text.toList⟩

/-- A word, which may be a keyword. -/
def word (text : Text) : Chunk := .single ⟨.name, text⟩

/-- The chunk of a class name. -/
def Path.chunk (path : Path) : Chunk := word path.text

/-- The chunks of some parts with a separator between each two of them. -/
def separated (separator : Chunk) (parts : List (List Chunk)) : List Chunk :=
  List.intercalate [separator] parts

/-- A declared type: class names between bars, with a question mark before them
when it is nullable. -/
structure TypeExpression where
  isNullable : Bool
  first : Path
  others : List Path

/-- The chunks of a type. -/
def TypeExpression.chunks (type : TypeExpression) : List Chunk :=
  (if type.isNullable then [mark "?"] else []) ++
    type.first.chunk :: type.others.flatMap fun path => [mark "|", path.chunk]

/-- The type without white space. -/
def TypeExpression.text (type : TypeExpression) : Text := type.chunks.flatMap Chunk.text

/-- A digit, and then letters, digits, underscores and points. -/
structure Digits where
  first : Char
  rest : Text
  digit : ('0' ≤ first && first ≤ '9') = true
  plain : (rest.all fun c => isIdentifierChar c || c == '.') = true

/-- The digits as written. -/
def Digits.text (digits : Digits) : Text := digits.first :: digits.rest

/-- The lexeme of digits. -/
def Digits.lexeme (digits : Digits) : Lexeme := ⟨.number, digits.text⟩

/-- A sign or a point, which has no class of its own. -/
def sign (c : Char) : Lexeme := ⟨.other, [c]⟩

/-- A number: digits with a minus sign and a point before them, if there are any. An
exponent may stand behind the digits, with its sign. -/
structure Number where
  isNegative : Bool
  startsWithPoint : Bool
  digits : Digits
  exponent : Option (Bool × Digits)

/-- The signs in front of the digits of a number. -/
def Number.signs (number : Number) : List Lexeme :=
  (if number.isNegative then [sign '-'] else []) ++
    if number.startsWithPoint then [sign '.'] else []

/-- The lexemes behind the digits of a number. -/
def Number.power (number : Number) : List Lexeme :=
  match number.exponent with
  | none => []
  | some (isNegative, power) => [sign (if isNegative then '-' else '+'), power.lexeme]

/-- The lexemes of a number. -/
def Number.parts (number : Number) : List Lexeme :=
  number.signs ++ number.digits.lexeme :: number.power

/-- A number is written without blanks. -/
def Number.chunk (number : Number) : Chunk := ⟨number.parts⟩

/-- One piece of a quoted string: a character that stands for itself, or a
backslash with the character that it takes along. -/
inductive Piece (quote : Char)
  | plain (c : Char) (free : c ≠ quote ∧ c ≠ '\\')
  | escaped (c : Char)

/-- The piece as written. -/
def Piece.text {quote : Char} : Piece quote → Text
  | .plain c _ => [c]
  | .escaped c => ['\\', c]

/-- A quoted string. -/
structure Quotation where
  quote : Char
  isQuote : quote = '\x27' ∨ quote = '"'
  pieces : List (Piece quote)

/-- The string as written. -/
def Quotation.text (quotation : Quotation) : Text :=
  quotation.quote :: (quotation.pieces.flatMap Piece.text ++ [quotation.quote])

/-- The chunk of a string. -/
def Quotation.chunk (quotation : Quotation) : Chunk := .single ⟨.string, quotation.text⟩

/-- A default value: a number, a string, the name of a constant, or a list of such
values in square brackets. -/
inductive Literal
  | number (value : Number)
  | quoted (quotation : Quotation)
  | named (path : Path)
  | list (items : List Literal)

mutual

/-- The chunks of a default value. -/
def Literal.chunks : Literal → List Chunk
  | .number value => [value.chunk]
  | .quoted quotation => [quotation.chunk]
  | .named path => [path.chunk]
  | .list items => mark "[" :: separated (mark ",") (Literal.parts items) ++ [mark "]"]

/-- The chunks of each of some default values. -/
def Literal.parts : List Literal → List (List Chunk)
  | [] => []
  | item :: rest => item.chunks :: Literal.parts rest

end

/-- The text of a default value. -/
def Literal.text (literal : Literal) : Text :=
  Text.join [' '] (literal.chunks.map Chunk.text)

/-- A parameter. -/
structure Parameter where
  type : Option TypeExpression
  isReference : Bool
  isVariadic : Bool
  name : Identifier
  default : Option Literal

/-- The chunk of a variable. -/
def Identifier.variable (name : Identifier) : Chunk := .single ⟨.variable, '$' :: name.text⟩

/-- The chunks between the type of a parameter and its variable. -/
def Parameter.marks (parameter : Parameter) : List Chunk :=
  (if parameter.isReference then [mark "&"] else []) ++
    if parameter.isVariadic then [mark "..."] else []

/-- The chunks behind the variable of a parameter. -/
def Parameter.trailing (parameter : Parameter) : List Chunk :=
  match parameter.default with
  | none => []
  | some value => mark "=" :: value.chunks

/-- The chunks of a parameter. -/
def Parameter.chunks (parameter : Parameter) : List Chunk :=
  (parameter.type.map TypeExpression.chunks).getD [] ++ parameter.marks ++
    parameter.name.variable :: parameter.trailing

/-- What a reader has to make of a parameter. -/
def Parameter.declared (parameter : Parameter) : Source.Parameter where
  name := '$' :: parameter.name.text
  type := parameter.type.map TypeExpression.text
  default := parameter.default.map Literal.text

/-- A method whose body is empty or missing. -/
structure Method where
  modifiers : List { text : Text // text ∈ memberModifiers }
  name : Identifier
  parameters : List Parameter
  returnType : Option TypeExpression
  hasBody : Bool

/-- The chunks of a return type. -/
def Method.returned (method : Method) : List Chunk :=
  match method.returnType with
  | none => []
  | some type => mark ":" :: type.chunks

/-- The chunks of a body, or the one in its place. -/
def Method.body (method : Method) : List Chunk :=
  if method.hasBody then [mark "\x7b", mark "\x7d"] else [mark ";"]

/-- The chunks of a method. -/
def Method.chunks (method : Method) : List Chunk :=
  method.modifiers.map (fun modifier => word modifier.val) ++
    word "function".toList :: word method.name.text :: mark "(" ::
      (separated (mark ",") (method.parameters.map Parameter.chunks) ++
        mark ")" :: (method.returned ++ method.body))

/-- What a reader has to make of a method. -/
def Method.declared (method : Method) : Source.Method where
  name := method.name.text
  modifiers := (method.modifiers.map Subtype.val).filter (· != "var".toList)
  parameters := method.parameters.map Parameter.declared
  returnType := method.returnType.map TypeExpression.text

/-- The kind of a declaration and the names in its header. -/
inductive Heading
  | ofClass (parent : Option Path) (interfaces : List Path)
  | ofInterface (parents : List Path)
  | ofTrait
  | ofEnumeration (interfaces : List Path)

namespace Heading

/-- The word that introduces a declaration. -/
def word : Heading → Text
  | ofClass .. => "class".toList
  | ofInterface _ => "interface".toList
  | ofTrait => "trait".toList
  | ofEnumeration _ => "enum".toList

/-- The kind that is reported: an enumeration counts as a class. -/
def kind : Heading → Text
  | ofEnumeration _ => "class".toList
  | heading => heading.word

/-- The modifiers that the kind adds: an enumeration is final. -/
def modifiers : Heading → List Text
  | ofEnumeration _ => ["final".toList]
  | _ => []

/-- The parent that is reported. -/
def parent : Heading → Option Path
  | ofClass parent _ => parent
  | _ => none

/-- The interfaces that are reported. -/
def interfaces : Heading → List Path
  | ofClass _ interfaces => interfaces
  | ofInterface parents => parents
  | ofTrait => []
  | ofEnumeration interfaces => interfaces

/-- The chunks of a list of names behind the word that introduces it; an empty list
leaves the word out. -/
def clause (introduced : String) (paths : List Path) : List Chunk :=
  if paths = [] then []
  else
    Printed.word introduced.toList ::
      separated (mark ",") (paths.map fun path => [path.chunk])

/-- The names behind the first word of a header. -/
def extended : Heading → List Path
  | ofClass parent _ => parent.toList
  | ofInterface parents => parents
  | _ => []

/-- The names behind the second word of a header. -/
def implemented : Heading → List Path
  | ofClass _ interfaces => interfaces
  | ofEnumeration interfaces => interfaces
  | _ => []

/-- The chunks between the name of a declaration and its body. -/
def clauses (heading : Heading) : List Chunk :=
  clause "extends" heading.extended ++ clause "implements" heading.implemented

end Heading

/-- A declaration. -/
structure Declaration where
  modifiers : List { text : Text // text ∈ classModifiers }
  heading : Heading
  name : Identifier
  methods : List Method

/-- The chunks of a declaration. -/
def Declaration.chunks (declaration : Declaration) : List Chunk :=
  declaration.modifiers.map (fun modifier => word modifier.val) ++
    word declaration.heading.word :: word declaration.name.text ::
      (declaration.heading.clauses ++
        mark "\x7b" :: (declaration.methods.flatMap Method.chunks ++ [mark "\x7d"]))

/-- What a reader has to make of a declaration in a namespace, in the file with a
path. -/
def Declaration.declared (space : Text) (file : Option Text) (declaration : Declaration) :
    Source.Declaration where
  name := ClassName.below space declaration.name.text
  kind := declaration.heading.kind
  scope := { space }
  parent := declaration.heading.parent.map (Path.full space)
  interfaces := declaration.heading.interfaces.map (Path.full space)
  modifiers := declaration.modifiers.map Subtype.val ++ declaration.heading.modifiers
  methods := declaration.methods.map Method.declared
  file

/-- A file: the namespace, if there is one, and the declarations. -/
structure File where
  space : Option Segments
  declarations : List Declaration

/-- The namespace of a file; empty if there is none. -/
def File.spaceText (file : File) : Text := (file.space.map Segments.text).getD []

/-- The chunks of a namespace statement. -/
def File.statement (file : File) : List Chunk :=
  match file.space with
  | none => []
  | some space => [word "namespace".toList, word space.text, mark ";"]

/-- The chunks of a file behind the opening tag. -/
def File.chunks (file : File) : List Chunk :=
  file.statement ++ file.declarations.flatMap Declaration.chunks

/-- The text of a file, with one blank between each two chunks. -/
def File.text (file : File) : Text := openingTag ++ spaced file.chunks

end Docblock.Source.Printed
