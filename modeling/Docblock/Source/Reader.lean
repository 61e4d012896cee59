import Docblock.Source.Imports
import Docblock.Source.Method

/-!
# Reading declarations

The reader walks once over the tokens of a source text, keeps the scope, the
last documentation comment and the modifiers before a word, and turns each
class, interface, trait and enumeration with a complete header into a
declaration. An enumeration counts as a final class. All other code is passed
over, token by token outside of types and statement by statement inside.
-/

namespace Docblock.Source

/-- The words that introduce a type. -/
def typeWords : List Text := ["class", "interface", "trait", "enum"].map String.toList

/-- The words that may stand before a class. -/
def classModifiers : List Text := ["abstract", "final", "readonly"].map String.toList

/-- Tokens after which a type word introduces no type: it is a class constant, a
member name, or an unnamed class. -/
def excludesType : List Text := ["::", "new", "->", "?->"].map String.toList

/-- The lists of names in a type header. -/
inductive Clause
  | none | parents | interfaces
deriving DecidableEq, Repr

/-- The names in a type header, full and in order, and the list being read. -/
structure Header where
  clause : Clause := .none
  parents : List Text := []
  interfaces : List Text := []

/-- Adds one token of a type header: a word that opens a list, a colon that
closes it, or a name. -/
def Header.add (scope : Scope) (header : Header) (token : Token) : Header :=
  let word := Text.lower token.text
  if word = "extends".toList then { header with clause := .parents }
  else if word = "implements".toList then { header with clause := .interfaces }
  else if token.isMark ':' then { header with clause := .none }
  else if token.kind = .name then
    match header.clause with
    | .none => header
    | .parents => { header with parents := header.parents ++ [scope.qualify token.text] }
    | .interfaces => { header with interfaces := header.interfaces ++ [scope.qualify token.text] }
  else header

/-- Reads the methods in the body of a type through its closing brace, given the
modifiers and the comment that stand before the next token. -/
def readBody (scope : Scope) (source : Text) (modifiers : List Text) (comment : Text) :
    List Token → List Method × List Token
  | [] => ([], [])
  | token :: rest =>
    let word := Text.lower token.text
    if token.kind = .doc then readBody scope source modifiers token.text rest
    else if token.kind = .attributeOpening then
      readBody scope source modifiers comment (skipAttribute rest)
    else if token.isMark '}' then ([], rest)
    else if token.kind = .name ∧ memberModifiers.contains word then
      readBody scope source (modifiers ++ [word]) comment rest
    else if token.kind = .name ∧ word = "function".toList then
      let read := readMethod scope source modifiers comment rest
      let following := readBody scope source [] [] read.2
      (read.1.toList ++ following.1, following.2)
    else readBody scope source [] [] (skipStatement (token :: rest))
termination_by tokens => tokens.length
decreasing_by
  · simp
  · exact Nat.lt_succ_of_le (skipAttribute_length_le rest)
  · simp
  · exact Nat.lt_succ_of_le (readMethod_length_le _ _ modifiers comment rest)
  · exact skipStatement_length_lt token rest (by simp_all)

/-- Reading a body never adds tokens. -/
theorem readBody_length_le (scope : Scope) (source : Text) (modifiers : List Text)
    (comment : Text) (tokens : List Token) :
    (readBody scope source modifiers comment tokens).2.length ≤ tokens.length := by
  fun_induction readBody scope source modifiers comment tokens with
  | case1 => simp
  | case2 modifiers comment token rest _ inductionHypothesis =>
    exact Nat.le_succ_of_le inductionHypothesis
  | case3 modifiers comment token rest _ _ inductionHypothesis =>
    exact Nat.le_succ_of_le (Nat.le_trans inductionHypothesis (skipAttribute_length_le rest))
  | case4 => simp
  | case5 modifiers comment token rest _ _ _ _ _ inductionHypothesis =>
    exact Nat.le_succ_of_le inductionHypothesis
  | case6 modifiers comment token rest _ _ _ _ _ _ read following inductionHypothesis =>
    exact Nat.le_succ_of_le (Nat.le_trans inductionHypothesis
      (readMethod_length_le scope source modifiers comment rest))
  | case7 modifiers comment token rest _ _ _ _ _ _ inductionHypothesis =>
    exact Nat.le_trans inductionHypothesis (skipStatement_length_le _)

/-- The declaration that a header and a body make. An interface has no parent:
the interfaces that it extends are those it stands for. -/
def declaration (scope : Scope) (word : Text) (modifiers : List Text) (comment name : Text)
    (header : Header) (methods : List Method) (file : Option Text) : Declaration :=
  let isInterface := word = "interface".toList
  let isEnumeration := word = "enum".toList
  { name := ClassName.below scope.space name
    kind := if isEnumeration then "class".toList else word
    scope
    comment
    parent := if isInterface then none else header.parents.head?
    interfaces := if isInterface then header.parents else header.interfaces
    modifiers := if isEnumeration then modifiers ++ ["final".toList] else modifiers
    methods
    file }

/-- Reads a type behind the word that introduces it. Without a name nothing is
read; without the opening brace of a body there is no declaration. -/
def readType (scope : Scope) (source : Text) (file : Option Text) (word : Text)
    (modifiers : List Text) (comment : Text) (tokens : List Token) :
    Option Declaration × List Token :=
  match tokens with
  | [] => (none, [])
  | token :: rest =>
    if token.kind = .name then
      let headed := rest.takeWhile (!·.isMark '{')
      match rest.drop headed.length with
      | [] => (none, [])
      | _ :: body =>
        let header := headed.foldl (Header.add scope) {}
        let read := readBody scope source [] [] body
        (some (declaration scope word modifiers comment token.text header read.1 file), read.2)
    else (none, tokens)

/-- Reading a type never adds tokens. -/
theorem readType_length_le (scope : Scope) (source : Text) (file : Option Text) (word : Text)
    (modifiers : List Text) (comment : Text) (tokens : List Token) :
    (readType scope source file word modifiers comment tokens).2.length ≤ tokens.length := by
  cases tokens with
  | nil => simp [readType]
  | cons token rest =>
    simp only [readType]
    split
    · split
      · simp
      · rename_i brace body opened
        have shorter := congrArg List.length opened
        have read := readBody_length_le scope source [] [] body
        simp only [List.length_drop, List.length_cons] at shorter
        simp only [List.length_cons]
        omega
    · simp

/-- The last of the tokens that were passed between two points of the walk. -/
def lastPassed (tokens left : List Token) : Option Token :=
  (tokens.take (tokens.length - left.length)).getLast?

/-- The last token that was passed is the one before those that are left. -/
theorem lastPassed_append (front : List Token) (token : Token) (rest : List Token) :
    lastPassed (front ++ token :: rest) rest = some token := by
  have width : (front ++ token :: rest).length - rest.length = (front ++ [token]).length := by
    simp only [List.length_append, List.length_cons, List.length_nil]
    omega
  have regrouped : front ++ token :: rest = front ++ [token] ++ rest := by simp
  rw [lastPassed, width, regrouped, List.take_left]
  simp

/-- Where the walk stands: the scope, the modifiers and the comment before the
next token, and the token just passed. -/
structure Position where
  scope : Scope := {}
  modifiers : List Text := []
  comment : Text := []
  previous : Option Token := none

/-- What one step of the walk yields: a declaration, if any, the next position
and the tokens left. -/
structure Step where
  declared : Option Declaration
  position : Position
  left : List Token

/-- One step of the walk, at a token. -/
def step (source : Text) (file : Option Text) (position : Position) (token : Token)
    (rest : List Token) : Step :=
  let word := Text.lower token.text
  let passed := fun left => lastPassed (token :: rest) left
  let fresh := fun (declared : Option Declaration) (scope : Scope) (left : List Token) =>
    ({ declared, position := { scope, previous := passed left }, left } : Step)
  if token.kind = .doc then
    ⟨none, { position with comment := token.text, previous := some token }, rest⟩
  else if token.kind = .attributeOpening then
    let left := skipAttribute rest
    ⟨none, { position with previous := passed left }, left⟩
  else if token.kind = .name ∧ classModifiers.contains word then
    ⟨none, { position with
      modifiers := position.modifiers ++ [word], previous := some token }, rest⟩
  else if token.kind = .name ∧ typeWords.contains word then
    if position.previous.any fun t => excludesType.contains (Text.lower t.text) then
      fresh none position.scope rest
    else
      let read := readType position.scope source file word position.modifiers position.comment rest
      fresh read.1 position.scope read.2
  else if token.kind = .name ∧ word = "namespace".toList then
    let read := readNamespace rest
    fresh none read.1 read.2
  else if token.kind = .name ∧ word = "use".toList then
    let read := readImports position.scope.imports rest
    fresh none { position.scope with imports := read.1 } read.2
  else if token.kind = .name ∧ word = "function".toList then
    fresh none position.scope (skipFunction rest)
  else fresh none position.scope rest

/-- A step of the walk leaves no more than the tokens behind the one it is at. -/
theorem step_left_length_le (source : Text) (file : Option Text) (position : Position)
    (token : Token) (rest : List Token) :
    (step source file position token rest).left.length ≤ rest.length := by
  simp only [step]
  split
  · simp
  split
  · exact skipAttribute_length_le rest
  split
  · simp
  split
  · split
    · simp
    · exact readType_length_le ..
  split
  · exact readNamespace_length_le rest
  split
  · exact readImports_length_le _ rest
  split
  · exact skipFunction_length_le rest
  · simp

/-- The declarations that the rest of a walk yields. -/
def declarationsFrom (source : Text) (file : Option Text) (position : Position) :
    List Token → List Declaration
  | [] => []
  | token :: rest =>
    let next := step source file position token rest
    next.declared.toList ++ declarationsFrom source file next.position next.left
termination_by tokens => tokens.length
decreasing_by exact Nat.lt_succ_of_le (step_left_length_le source file position token rest)

/-- The declarations in a source text, in source order. -/
def declarations (source : Text) (file : Option Text := none) : List Declaration :=
  declarationsFrom source file {} (tokens source)

end Docblock.Source
