import Docblock.Proofs.Source.Balanced
import Docblock.Source.Reader

/-!
# The reader in steps

Three parts of the reader are described once more here, each so that the point where it
comes to an opening brace can be named:

* skipping a function or a statement is passing single tokens and closed groups up to a
  token that ends it, and then dealing with that token;
* reading a method is reading its signature, and then skipping the body behind it;
* reading the members of a type is one step at each token, which depends on the token
  alone for what it does.

Each description is proved equal to the reader.
-/

namespace Docblock.Source

/-- Passes single tokens, and groups that have to close, up to a token that ends this. -/
def untilEnd (group? : Token → Option Text) (ends : Token → Bool) : List Token → List Token
  | [] => []
  | token :: rest =>
    if ends token then token :: rest
    else
      match group? token with
      | some closer => untilEnd group? ends (skipBalanced [closer] rest)
      | none => untilEnd group? ends rest
termination_by tokens => tokens.length
decreasing_by
  · exact Nat.lt_succ_of_le (skipBalanced_length_le _ rest)
  · simp

/-- Passing tokens never adds any. -/
theorem untilEnd_length_le (group? : Token → Option Text) (ends : Token → Bool)
    (tokens : List Token) : (untilEnd group? ends tokens).length ≤ tokens.length := by
  fun_induction untilEnd group? ends tokens with
  | case1 => simp
  | case2 => exact Nat.le_refl _
  | case3 token rest _ closer _ inductionHypothesis =>
    exact Nat.le_succ_of_le (Nat.le_trans inductionHypothesis (skipBalanced_length_le _ rest))
  | case4 token rest _ _ inductionHypothesis => exact Nat.le_succ_of_le inductionHypothesis

/-- A function keeps its parameters in parentheses. -/
def functionGroup? (token : Token) : Option Text :=
  if token.isMark '(' then some [')'] else none

/-- A function has its header up to the body, or up to a semicolon. -/
def endsFunction (token : Token) : Bool := token.isMark '{' || token.isMark ';'

/-- Skipping a function is coming to the end of its header and skipping the body there. -/
theorem skipFunction_eq (tokens : List Token) :
    skipFunction tokens = skipBody (untilEnd functionGroup? endsFunction tokens) := by
  fun_induction skipFunction tokens with
  | case1 => simp only [untilEnd, skipBody]
  | case2 token rest parenthesis inductionHypothesis =>
    have onward : endsFunction token = false := by
      have text : token.text = ['('] := by simpa [Token.isMark] using parenthesis
      simp [endsFunction, Token.isMark, text]
    rw [inductionHypothesis, untilEnd]
    simp only [onward, functionGroup?, parenthesis, if_true, Bool.false_eq_true, if_false]
  | case3 token rest _ brace =>
    rw [untilEnd]
    simp only [endsFunction, brace, Bool.true_or, if_true, skipBody]
  | case4 token rest _ brace semicolon =>
    rw [untilEnd]
    simp only [endsFunction, brace, semicolon, Bool.or_true, if_true, skipBody,
      Bool.false_eq_true, if_false]
  | case5 token rest parenthesis brace semicolon inductionHypothesis =>
    rw [inductionHypothesis, untilEnd]
    simp only [endsFunction, functionGroup?, parenthesis, brace, semicolon, Bool.or_false,
      Bool.false_eq_true, if_false]

/-- A statement keeps what it has in brackets, and attribute groups, together. -/
def statementGroup? (token : Token) : Option Text :=
  if token.isMark '(' then some [')']
  else if token.isMark '[' then some [']']
  else if token.kind = .attributeOpening then some [']']
  else none

/-- A statement goes up to a semicolon, to a block or to the end of what it stands in. -/
def endsStatement (token : Token) : Bool :=
  token.isMark ';' || token.isMark '{' ||
    (token.isMark '}' && token.kind != .attributeOpening)

/-- A token is one mark at most. -/
theorem Token.isMark_of_isMark {token : Token} {c : Char} (marked : token.isMark c = true)
    {d : Char} (differs : c ≠ d) : token.isMark d = false := by
  have text : token.text = [c] := by simpa [isMark] using marked
  simp [isMark, text, differs]

/-- Skips what ends a statement; a closing brace is left to be read. -/
def closeStatement : List Token → List Token
  | [] => []
  | token :: rest =>
    if token.isMark ';' then rest
    else if token.isMark '{' then skipBalanced [['}']] rest
    else token :: rest

/-- Skipping the end of a statement never adds tokens. -/
theorem closeStatement_length_le (tokens : List Token) :
    (closeStatement tokens).length ≤ tokens.length := by
  cases tokens with
  | nil => exact Nat.le_refl _
  | cons token rest =>
    simp only [closeStatement]
    split
    · simp
    · split
      · exact Nat.le_succ_of_le (skipBalanced_length_le _ rest)
      · exact Nat.le_refl _

/-- A block at the end of a statement is skipped as a body is. -/
theorem closeStatement_eq {opening : Token} (opens : opening.isMark '{' = true)
    (rest : List Token) : closeStatement (opening :: rest) = skipBody (opening :: rest) := by
  have semicolon := Token.isMark_of_isMark opens (d := ';') (by decide)
  simp only [closeStatement, skipBody, semicolon, opens, Bool.false_eq_true, if_true, if_false]

/-- Skipping a statement is coming to its end and skipping what ends it. -/
theorem skipStatement_eq (tokens : List Token) :
    skipStatement tokens = closeStatement (untilEnd statementGroup? endsStatement tokens) := by
  fun_induction skipStatement tokens with
  | case1 => simp only [untilEnd, closeStatement]
  | case2 token rest semicolon =>
    rw [untilEnd]
    simp only [endsStatement, semicolon, Bool.true_or, if_true, closeStatement]
  | case3 token rest semicolon brace =>
    rw [untilEnd]
    simp only [endsStatement, semicolon, brace, Bool.true_or, Bool.or_true, if_true,
      closeStatement, Bool.false_eq_true, if_false]
  | case4 token rest semicolon brace parenthesis inductionHypothesis =>
    have closing := Token.isMark_of_isMark parenthesis (d := '}') (by decide)
    rw [inductionHypothesis, untilEnd]
    simp only [endsStatement, statementGroup?, semicolon, brace, parenthesis, closing,
      Bool.false_and, Bool.or_false, Bool.false_eq_true, if_true, if_false]
  | case5 token rest semicolon brace parenthesis bracket inductionHypothesis =>
    have closing := Token.isMark_of_isMark bracket (d := '}') (by decide)
    rw [inductionHypothesis, untilEnd]
    simp only [endsStatement, statementGroup?, semicolon, brace, parenthesis, bracket, closing,
      Bool.false_and, Bool.or_false, Bool.false_eq_true, if_true, if_false]
  | case6 token rest semicolon brace parenthesis bracket group inductionHypothesis =>
    rw [inductionHypothesis, untilEnd]
    simp only [endsStatement, statementGroup?, semicolon, brace, parenthesis, bracket, group,
      bne_self_eq_false, Bool.and_false, Bool.or_false, Bool.false_eq_true, if_true, if_false,
      skipAttribute]
  | case7 token rest semicolon brace parenthesis bracket group closing =>
    have other : (token.kind != .attributeOpening) = true := by simpa using group
    rw [untilEnd]
    simp only [endsStatement, semicolon, brace, closing, other, Bool.true_and, Bool.or_true,
      if_true, closeStatement, Bool.false_eq_true, if_false]
  | case8 token rest semicolon brace parenthesis bracket group closing inductionHypothesis =>
    rw [inductionHypothesis, untilEnd]
    simp only [endsStatement, statementGroup?, semicolon, brace, parenthesis, bracket, group,
      closing, Bool.false_and, Bool.or_false, Bool.false_eq_true, if_false]

/-- Reads the signature of a method from its name on. What is left starts with the body,
if there is one. -/
def readNamed (scope : Scope) (source : Text) (modifiers : List Text) (comment : Text) :
    List Token → Option Method × List Token
  | [] => (none, [])
  | token :: rest =>
    if token.kind = .name then
      let listed := parameterList scope source rest
      let returned := returnTokens listed.2
      (some {
        name := token.text
        comment
        modifiers := modifiers.filter (· != "var".toList)
        parameters := listed.1
        returnType := declaredType? scope (slice source returned.1) }, returned.2)
    else (none, rest)

/-- Reads the signature of a method behind the word that introduces it. -/
def readSignature (scope : Scope) (source : Text) (modifiers : List Text) (comment : Text)
    (tokens : List Token) : Option Method × List Token :=
  readNamed scope source modifiers comment (skipReference tokens)

/-- Reading a method is reading its signature and skipping the body behind it. -/
theorem readMethod_eq (scope : Scope) (source : Text) (modifiers : List Text) (comment : Text)
    (tokens : List Token) :
    readMethod scope source modifiers comment tokens =
      let read := readSignature scope source modifiers comment tokens
      (read.1, if read.1.isSome then skipBody read.2 else read.2) := by
  rw [readMethod, readSignature]
  cases skipReference tokens with
  | nil => rfl
  | cons token rest =>
    by_cases named : token.kind = .name
    · simp only [readNamed, named, if_true, Option.isSome_some]
    · simp only [readNamed, named, if_false, Option.isSome_none, Bool.false_eq_true]

/-- Reading a signature from the name on never adds tokens. -/
theorem readNamed_length_le (scope : Scope) (source : Text) (modifiers : List Text)
    (comment : Text) (tokens : List Token) :
    (readNamed scope source modifiers comment tokens).2.length ≤ tokens.length := by
  cases tokens with
  | nil => exact Nat.le_refl _
  | cons token rest =>
    simp only [readNamed]
    split
    · exact Nat.le_succ_of_le (Nat.le_trans (returnTokens_length_le _)
        (parameterList_length_le scope source rest))
    · exact Nat.le_succ_of_le (Nat.le_refl _)

/-- Reading a signature never adds tokens. -/
theorem readSignature_length_le (scope : Scope) (source : Text) (modifiers : List Text)
    (comment : Text) (tokens : List Token) :
    (readSignature scope source modifiers comment tokens).2.length ≤ tokens.length :=
  Nat.le_trans (readNamed_length_le _ _ _ _ _) (skipReference_length_le tokens)

/-- What a token starts among the members of a type. -/
inductive MemberStart
  | comment | group | closing | modifier | method | statement
deriving DecidableEq, Repr

/-- What a token starts among the members of a type. -/
def Token.starts (token : Token) : MemberStart :=
  if token.kind = .doc then .comment
  else if token.kind = .attributeOpening then .group
  else if token.isMark '}' then .closing
  else if token.kind = .name ∧ memberModifiers.contains (Text.lower token.text) then .modifier
  else if token.kind = .name ∧ Text.lower token.text = "function".toList then .method
  else .statement

/-- The kind or the word by which a token starts something. -/
theorem Token.starts_spec (token : Token) :
    match token.starts with
    | .comment => token.kind = .doc
    | .group => token.kind = .attributeOpening
    | .closing => token.isMark '}' = true
    | .modifier => token.kind = .name ∧ Text.lower token.text ∈ memberModifiers
    | .method => token.kind = .name ∧ Text.lower token.text = "function".toList
    | .statement => token.isMark '}' = false := by
  rw [starts]
  by_cases comment : token.kind = .doc
  · rwa [if_pos comment]
  rw [if_neg comment]
  by_cases group : token.kind = .attributeOpening
  · rwa [if_pos group]
  rw [if_neg group]
  by_cases closing : token.isMark '}' = true
  · rwa [if_pos closing]
  rw [if_neg closing]
  by_cases modifier : token.kind = .name ∧ memberModifiers.contains (Text.lower token.text) = true
  · rw [if_pos modifier]
    exact ⟨modifier.1, List.contains_iff_mem.mp modifier.2⟩
  rw [if_neg modifier]
  by_cases method : token.kind = .name ∧ Text.lower token.text = "function".toList
  · rwa [if_pos method]
  · rw [if_neg method]
    exact Bool.eq_false_iff.mpr closing

/-- What one step among the members of a type yields: a method, if any, the modifiers and
the comment before the next token, and the tokens left. -/
structure MemberStep where
  method : Option Method
  modifiers : List Text
  comment : Text
  left : List Token

/-- One step among the members of a type, at a token; none at the closing brace. -/
def memberStep (scope : Scope) (source : Text) (modifiers : List Text) (comment : Text)
    (token : Token) (rest : List Token) : Option MemberStep :=
  match token.starts with
  | .comment => some ⟨none, modifiers, token.text, rest⟩
  | .group => some ⟨none, modifiers, comment, skipAttribute rest⟩
  | .closing => none
  | .modifier => some ⟨none, modifiers ++ [Text.lower token.text], comment, rest⟩
  | .method =>
    let read := readMethod scope source modifiers comment rest
    some ⟨read.1, [], [], read.2⟩
  | .statement => some ⟨none, [], [], skipStatement (token :: rest)⟩

/-- Reading the members of a type is taking one step after the other. -/
theorem readBody_cons (scope : Scope) (source : Text) (modifiers : List Text) (comment : Text)
    (token : Token) (rest : List Token) :
    readBody scope source modifiers comment (token :: rest) =
      match memberStep scope source modifiers comment token rest with
      | none => ([], rest)
      | some next =>
        let following := readBody scope source next.modifiers next.comment next.left
        (next.method.toList ++ following.1, following.2) := by
  rw [readBody, memberStep, Token.starts]
  split
  · rfl
  split
  · rfl
  split
  · rfl
  split
  · rfl
  split
  · rfl
  · rfl

/-- Only the closing brace ends the members. -/
theorem memberStep_eq_none {scope : Scope} {source : Text} {modifiers : List Text}
    {comment : Text} {token : Token} {rest : List Token} :
    memberStep scope source modifiers comment token rest = none ↔ token.starts = .closing := by
  unfold memberStep
  cases token.starts <;> simp

/-- A step among the members makes progress. -/
theorem memberStep_length_le {scope : Scope} {source : Text} {modifiers : List Text}
    {comment : Text} {token : Token} {rest : List Token} {next : MemberStep}
    (steps : memberStep scope source modifiers comment token rest = some next) :
    next.left.length ≤ rest.length := by
  unfold memberStep at steps
  cases starts : token.starts with
  | comment | modifier =>
    simp only [starts, Option.some.injEq] at steps
    subst steps
    exact Nat.le_refl _
  | group =>
    simp only [starts, Option.some.injEq] at steps
    subst steps
    exact skipAttribute_length_le rest
  | closing => simp [starts] at steps
  | method =>
    simp only [starts, Option.some.injEq] at steps
    subst steps
    exact readMethod_length_le scope source modifiers comment rest
  | statement =>
    simp only [starts, Option.some.injEq] at steps
    subst steps
    have inside := token.starts_spec
    simp only [starts] at inside
    exact Nat.le_of_lt_succ (skipStatement_length_lt token rest inside)

section Walk

variable {scope : Scope} {source : Text} {file : Option Text}

/-- Dropping a span is dropping as many tokens as it has. -/
theorem drop_takeWhile (p : Token → Bool) (tokens : List Token) :
    tokens.drop (tokens.takeWhile p).length = tokens.dropWhile p := by
  induction tokens with
  | nil => rfl
  | cons token rest inductionHypothesis =>
    by_cases inside : p token
    · simpa [List.takeWhile_cons, List.dropWhile_cons, inside] using inductionHypothesis
    · simp [inside]

/-- A type with a name and the opening brace of a body is read through that body. -/
theorem readType_opened {word : Text} {modifiers : List Text} {comment : Text}
    {name brace : Token} {rest inner : List Token} (named : name.kind = .name)
    (opened : rest.dropWhile (!·.isMark '{') = brace :: inner) :
    readType scope source file word modifiers comment (name :: rest) =
      let header := (rest.takeWhile (!·.isMark '{')).foldl (Header.add scope) {}
      let read := readBody scope source [] [] inner
      (some (declaration scope word modifiers comment name.text header read.1 file), read.2) := by
  simp only [readType, named, if_true, drop_takeWhile, opened]

/-- A word that introduces a type is none that may stand before one. -/
theorem contains_classModifiers {word : Text} (introduces : typeWords.contains word = true) :
    classModifiers.contains word = false := by
  rw [List.contains_iff_mem] at introduces
  revert introduces
  revert word
  decide

/-- A step at a word that introduces a type reads that type. -/
theorem step_type {position : Position} {token : Token}
    (introduces : token.kind = .name ∧ typeWords.contains (Text.lower token.text) = true)
    (admitted : (position.previous.any fun token =>
      excludesType.contains (Text.lower token.text)) = false) (rest : List Token) :
    step source file position token rest =
      let read := readType position.scope source file (Text.lower token.text)
        position.modifiers position.comment rest
      ⟨read.1, { scope := position.scope, previous := lastPassed (token :: rest) read.2 },
        read.2⟩ := by
  have unmodified := contains_classModifiers introduces.2
  simp only [step, introduces.1, introduces.2, unmodified, admitted, reduceCtorEq,
    Bool.false_eq_true, and_self, and_false, if_true, if_false]

/-- A step at a type word that is excluded declares nothing. -/
theorem step_excluded {position : Position} {token : Token}
    (introduces : token.kind = .name ∧ typeWords.contains (Text.lower token.text) = true)
    (excluded : (position.previous.any fun token =>
      excludesType.contains (Text.lower token.text)) = true) (rest : List Token) :
    (step source file position token rest).declared = none := by
  have unmodified := contains_classModifiers introduces.2
  simp only [step, introduces.1, introduces.2, unmodified, excluded, reduceCtorEq,
    Bool.false_eq_true, and_self, and_false, if_true, if_false]

/-- A step at the word that introduces a function skips that function. -/
theorem step_function {position : Position} {token : Token}
    (introduces : token.kind = .name ∧ Text.lower token.text = "function".toList)
    (rest : List Token) :
    step source file position token rest =
      ⟨none,
        { scope := position.scope
          previous := lastPassed (token :: rest) (skipFunction rest) },
        skipFunction rest⟩ := by
  have other : classModifiers.contains "function".toList = false ∧
      typeWords.contains "function".toList = false ∧
      "function".toList ≠ "namespace".toList ∧ "function".toList ≠ "use".toList := by decide
  simp only [step, introduces.1, introduces.2, other, reduceCtorEq, Bool.false_eq_true, and_self,
    and_false, if_true, if_false]

/-- A step keeps a comment at a documentation comment, an attribute group or a modifier. Else
it keeps none, and what it declares is a type that is read there. -/
theorem step_cases (source : Text) (file : Option Text) (position : Position) (token : Token)
    (rest : List Token) :
    let next := step source file position token rest
    (token.kind = .doc ∧ next.declared = none ∧ next.position.comment = token.text ∧
      next.left = rest) ∨
    (token.kind = .attributeOpening ∧ next.declared = none ∧
      next.position.comment = position.comment ∧ next.left = skipAttribute rest) ∨
    (token.kind = .name ∧ Text.lower token.text ∈ classModifiers ∧ next.declared = none ∧
      next.position.comment = position.comment ∧ next.left = rest) ∨
    next.position.comment = [] ∧ (next.declared = none ∨
      (token.kind = .name ∧ Text.lower token.text ∈ typeWords) ∧
      (next.declared, next.left) = readType position.scope source file (Text.lower token.text)
        position.modifiers position.comment rest) := by
  simp only [step]
  by_cases isDoc : token.kind = .doc
  · rw [if_pos isDoc]
    exact .inl ⟨isDoc, rfl, rfl, rfl⟩
  rw [if_neg isDoc]
  by_cases group : token.kind = .attributeOpening
  · rw [if_pos group]
    exact .inr (.inl ⟨group, rfl, rfl, rfl⟩)
  rw [if_neg group]
  by_cases modifier : token.kind = .name ∧
      classModifiers.contains (Text.lower token.text) = true
  · rw [if_pos modifier]
    exact .inr (.inr (.inl ⟨modifier.1, List.contains_iff_mem.mp modifier.2, rfl, rfl, rfl⟩))
  rw [if_neg modifier]
  refine .inr (.inr (.inr ?_))
  by_cases introduces : token.kind = .name ∧ typeWords.contains (Text.lower token.text) = true
  · rw [if_pos introduces]
    split
    · exact ⟨rfl, .inl rfl⟩
    · exact ⟨rfl, .inr ⟨⟨introduces.1, List.contains_iff_mem.mp introduces.2⟩, rfl⟩⟩
  rw [if_neg introduces]
  split
  · exact ⟨rfl, .inl rfl⟩
  split
  · exact ⟨rfl, .inl rfl⟩
  split
  · exact ⟨rfl, .inl rfl⟩
  · exact ⟨rfl, .inl rfl⟩

end Walk

end Docblock.Source
