import Docblock.ClassName

/-!
# Names that the language itself provides

Scalars and pseudo types never name a class. Built-in classes are classes that
no source declares; which ones count is a setting, and this is its default.
-/

namespace Docblock.TypeName

/-- Scalars and pseudo types, in lower case. -/
def scalarNames : List Text :=
  ["mixed", "string", "int", "float", "integer", "number", "bool", "boolean", "object", "false",
    "true", "null", "array", "void", "callable", "resource", "self", "parent", "static", "$this",
    "iterable", "never", "double", "scalar"].map String.toList

/-- The built-in classes when nothing else is configured. -/
def defaultBuiltIns : List Text :=
  ["stdClass", "ArrayAccess", "ArrayIterator", "ArrayObject", "BackedEnum", "Closure",
    "Countable", "DateInterval", "DatePeriod", "DateTime", "DateTimeImmutable",
    "DateTimeInterface", "DateTimeZone", "DOMDocument", "DOMElement", "DOMNode", "Error",
    "ErrorException", "ArgumentCountError", "ArithmeticError", "DivisionByZeroError",
    "TypeError", "ValueError", "Exception", "BadFunctionCallException",
    "BadMethodCallException", "DomainException", "InvalidArgumentException",
    "LengthException", "LogicException", "OutOfBoundsException", "OutOfRangeException",
    "OverflowException", "RangeException", "RuntimeException", "UnderflowException",
    "UnexpectedValueException", "Fiber", "Generator", "Iterator", "IteratorAggregate",
    "JsonSerializable", "PDO", "PDOStatement", "ReflectionClass", "Serializable",
    "SimpleXMLElement", "SplFileInfo", "SplObjectStorage", "SplQueue", "SplStack",
    "Stringable", "Throwable", "Traversable", "UnitEnum", "WeakMap"].map String.toList

/-- The keys of a list of built-in class names, each once. -/
def builtInKeys (names : List Text) : List Text :=
  (names.map ClassName.key).eraseDups

end Docblock.TypeName
