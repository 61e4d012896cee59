import Docblock.Source.Lexeme

/-!
# Tokens

A token is a lexeme that carries meaning, with its place in the source: the
offsets of its first character and of the character behind its last one.
Comments, white space and code tags are no tokens.
-/

namespace Docblock.Source

/-- A significant lexeme and its place in the source. -/
structure Token where
  kind : Kind
  text : Text
  start : Nat
  stop : Nat
deriving DecidableEq, Repr

/-- Whether lexemes of a class are kept as tokens. -/
def Kind.isSignificant : Kind → Bool
  | .comment | .space | .tag => false
  | _ => true

/-- Gives adjacent lexemes their places, the first one at the given offset. -/
def placed (offset : Nat) : List Lexeme → List Token
  | [] => []
  | lexeme :: rest =>
    let stop := offset + lexeme.text.length
    ⟨lexeme.kind, lexeme.text, offset, stop⟩ :: placed stop rest

/-- The tokens of a source text in order. -/
def tokens (source : Text) : List Token :=
  (placed 0 (lexemes source)).filter (·.kind.isSignificant)

/-- The source text from the first of some tokens to the last one, without white
space at its ends. -/
def slice (source : Text) (span : List Token) : Text :=
  match span.head?, span.getLast? with
  | some first, some last => Text.trim ((source.drop first.start).take (last.stop - first.start))
  | _, _ => []

end Docblock.Source
