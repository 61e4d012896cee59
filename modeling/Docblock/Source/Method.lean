import Docblock.Source.Declaration
import Docblock.Source.Skip
import Docblock.TypeName.Qualify

/-!
# Methods

Reading the signature of a method: its parameters with their types and default
values, and its return type. Declared types are kept as written, apart from
white space and from imported names, which are expanded to full names with a
leading separator. Bodies and attribute groups are skipped.
-/

namespace Docblock.Source

/-- A class path inside a declared type, with an imported first segment expanded
to a full name. Scalars and full names stay. -/
def expandPath (scope : Scope) (path : Text) : Text :=
  if !TypeName.isClass path || path.head? = some ClassName.separator then path
  else
    match scope.expandAlias? path with
    | some full => ClassName.separator :: full
    | none => path

/-- Expands every class path that occurs in a text. -/
def expandPaths (scope : Scope) : Text → Text
  | [] => []
  | c :: rest =>
    match pathLength (c :: rest) with
    | some width =>
      expandPath scope (c :: rest.take (width - 1)) ++ expandPaths scope (rest.drop (width - 1))
    | none => c :: expandPaths scope rest
termination_by s => s.length
decreasing_by
  · simp only [List.length_drop, List.length_cons]; omega
  · simp

/-- A declared type without white space and with imported names expanded; none
if nothing is declared. -/
def declaredType? (scope : Scope) (written : Text) : Option Text :=
  let squeezed := written.filter (!Text.isBlank ·)
  if squeezed = [] then none else some (expandPaths scope squeezed)

/-- Words that turn a constructor parameter into a property. -/
def promotionModifiers : List Text :=
  ["public", "protected", "private", "readonly"].map String.toList

/-- Words that may stand before a method. -/
def memberModifiers : List Text :=
  ["public", "protected", "private", "static", "abstract", "final", "var", "readonly"].map
    String.toList

/-- The text before the variable of a parameter that is its type: dots of a
variadic parameter and the mark of a reference are left out. -/
def typeTokens (leading : List Token) : List Token :=
  let plain := leading.filter (·.text != ['.', '.', '.'])
  if plain.getLast?.any (·.isMark '&') then plain.dropLast else plain

/-- The parameter that a run of tokens between commas declares; none if the run
has no variable. -/
def parameter? (scope : Scope) (source : Text) (run : List Token) : Option Parameter :=
  let bare := run.dropWhile fun token => promotionModifiers.contains (Text.lower token.text)
  let isVariable := fun token : Token => token.kind == .variable
  match bare.dropWhile (!isVariable ·) with
  | [] => none
  | named :: trailing =>
    some {
      name := named.text
      type := declaredType? scope (slice source (typeTokens (bare.takeWhile (!isVariable ·))))
      default :=
        match trailing with
        | [] => none
        | first :: value => if first.isMark '=' then some (slice source value) else none }

/-- Puts a token in front of the first of some runs, which come with the tokens
behind them. -/
def consRun (token : Token) (split : List (List Token) × List Token) :
    List (List Token) × List Token :=
  match split.1 with
  | [] => ([[token]], split.2)
  | run :: runs => ((token :: run) :: runs, split.2)

/-- Splits the tokens of a parameter list at its commas, those inside brackets
apart, through the closing bracket; also returns what follows. Attribute groups
are left out. -/
def parameterRuns (depth : Nat) : List Token → List (List Token) × List Token
  | [] => ([[]], [])
  | token :: rest =>
    if token.kind = .attributeOpening then parameterRuns depth (skipAttribute rest)
    else if (closerOf token.text).isSome then
      consRun token (parameterRuns (depth + 1) rest)
    else if token.isMark ')' || token.isMark ']' || token.isMark '}' then
      if depth = 0 then ([[]], rest) else consRun token (parameterRuns (depth - 1) rest)
    else if token.isMark ',' && depth = 0 then
      let split := parameterRuns 0 rest
      ([] :: split.1, split.2)
    else consRun token (parameterRuns depth rest)
termination_by tokens => tokens.length
decreasing_by
  · exact Nat.lt_succ_of_le (skipAttribute_length_le rest)
  all_goals simp

/-- Extending a run leaves what follows the runs alone. -/
theorem consRun_snd (token : Token) (split : List (List Token) × List Token) :
    (consRun token split).2 = split.2 := by
  simp only [consRun]
  split <;> rfl

/-- Reading a parameter list never adds tokens. -/
theorem parameterRuns_length_le (depth : Nat) (tokens : List Token) :
    (parameterRuns depth tokens).2.length ≤ tokens.length := by
  fun_induction parameterRuns depth tokens with
  | case1 => simp
  | case2 depth token rest _ inductionHypothesis =>
    exact Nat.le_succ_of_le (Nat.le_trans inductionHypothesis (skipAttribute_length_le rest))
  | case4 => simp
  | case3 | case5 | case7 =>
    rw [consRun_snd]
    exact Nat.le_succ_of_le (by assumption)
  | case6 depth token rest _ _ _ _ split inductionHypothesis =>
    exact Nat.le_succ_of_le inductionHypothesis

/-- The parameters behind an opening bracket, and the tokens behind the closing
one. -/
def parameters (scope : Scope) (source : Text) (tokens : List Token) :
    List Parameter × List Token :=
  let split := parameterRuns 0 tokens
  (split.1.filterMap (parameter? scope source), split.2)

/-- Whether a token ends a return type. -/
def endsReturnType (token : Token) : Bool := token.isMark '{' || token.isMark ';'

/-- What follows the name of a method: the parameters and the tokens behind
them. One token is passed over when it opens no parameter list. -/
def parameterList (scope : Scope) (source : Text) : List Token → List Parameter × List Token
  | [] => ([], [])
  | token :: rest => if token.isMark '(' then parameters scope source rest else ([], rest)

/-- The tokens of a return type behind a colon, and the tokens behind them. -/
def returnTokens : List Token → List Token × List Token
  | [] => ([], [])
  | token :: rest =>
    if token.isMark ':' then
      (rest.takeWhile (!endsReturnType ·), rest.dropWhile (!endsReturnType ·))
    else ([], token :: rest)

/-- Skips the body of a method, or the one token that stands in its place. -/
def skipBody : List Token → List Token
  | [] => []
  | token :: rest => if token.isMark '{' then skipBalanced [['}']] rest else rest

/-- Skips the mark of a method that returns a reference. -/
def skipReference : List Token → List Token
  | [] => []
  | token :: rest => if token.isMark '&' then rest else token :: rest

/-- Reads the method behind the word that introduces it, given the modifiers and
the comment before that word. Without a name there is no method, and the token
in the place of the name is passed over. -/
def readMethod (scope : Scope) (source : Text) (modifiers : List Text) (comment : Text)
    (tokens : List Token) : Option Method × List Token :=
  match skipReference tokens with
  | [] => (none, [])
  | token :: rest =>
    if token.kind = .name then
      let listed := parameterList scope source rest
      let returned := returnTokens listed.2
      (some {
        name := token.text
        comment
        modifiers := modifiers.filter (· != "var".toList)
        parameters := listed.1
        returnType := declaredType? scope (slice source returned.1) }, skipBody returned.2)
    else (none, rest)

/-- Skipping the mark of a reference never adds tokens. -/
theorem skipReference_length_le (tokens : List Token) :
    (skipReference tokens).length ≤ tokens.length := by
  cases tokens with
  | nil => simp [skipReference]
  | cons token rest => simp only [skipReference]; split <;> simp

/-- Skipping a body never adds tokens. -/
theorem skipBody_length_le (tokens : List Token) :
    (skipBody tokens).length ≤ tokens.length := by
  cases tokens with
  | nil => simp [skipBody]
  | cons token rest =>
    simp only [skipBody]
    split
    · exact Nat.le_succ_of_le (skipBalanced_length_le _ rest)
    · simp

/-- Reading a return type never adds tokens. -/
theorem returnTokens_length_le (tokens : List Token) :
    (returnTokens tokens).2.length ≤ tokens.length := by
  cases tokens with
  | nil => simp [returnTokens]
  | cons token rest =>
    simp only [returnTokens]
    split
    · exact Nat.le_succ_of_le (List.dropWhile_sublist _).length_le
    · simp

/-- Reading what follows a method name never adds tokens. -/
theorem parameterList_length_le (scope : Scope) (source : Text) (tokens : List Token) :
    (parameterList scope source tokens).2.length ≤ tokens.length := by
  cases tokens with
  | nil => simp [parameterList]
  | cons token rest =>
    simp only [parameterList]
    split
    · exact Nat.le_succ_of_le (parameterRuns_length_le 0 rest)
    · simp

/-- Reading a method never adds tokens. -/
theorem readMethod_length_le (scope : Scope) (source : Text) (modifiers : List Text)
    (comment : Text) (tokens : List Token) :
    (readMethod scope source modifiers comment tokens).2.length ≤ tokens.length := by
  have unreferenced := skipReference_length_le tokens
  simp only [readMethod]
  split
  · simp
  · rename_i token rest named
    rw [named, List.length_cons] at unreferenced
    split
    · have listed := parameterList_length_le scope source rest
      have returned := returnTokens_length_le (parameterList scope source rest).2
      have body := skipBody_length_le (returnTokens (parameterList scope source rest).2).2
      simp only
      omega
    · simp only
      omega

end Docblock.Source
