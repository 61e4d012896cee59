import Docblock.Source.Token

/-!
# Skipping over tokens

The reader of declarations looks at headers and signatures and passes over
everything else: bodies, initial values, attribute groups, whole statements.
Each function here returns the tokens that are left, never more than it was
given.
-/

namespace Docblock.Source

/-- The bracket that closes an opening bracket. -/
def closerOf : Text → Option Text
  | ['('] => some [')']
  | ['['] => some [']']
  | ['{'] => some ['}']
  | _ => none

/-- Whether a token is the bracket, operator or separator of one character. -/
def Token.isMark (token : Token) (c : Char) : Bool := token.text == [c]

/-- Skips to behind the closers that are waited for, innermost first. Brackets
that open on the way have to close as well; so do attribute groups. -/
def skipBalanced : List Text → List Token → List Token
  | [], tokens => tokens
  | _ :: _, [] => []
  | closer :: outer, token :: rest =>
    match closerOf token.text with
    | some inner => skipBalanced (inner :: closer :: outer) rest
    | none =>
      if token.kind = .attributeOpening then skipBalanced ([']'] :: closer :: outer) rest
      else if token.text = closer then skipBalanced outer rest
      else skipBalanced (closer :: outer) rest

/-- Skips the rest of an attribute group whose opening has been read. -/
def skipAttribute (tokens : List Token) : List Token := skipBalanced [[']']] tokens

/-- Skipping never adds tokens. -/
theorem skipBalanced_length_le (closers : List Text) (tokens : List Token) :
    (skipBalanced closers tokens).length ≤ tokens.length := by
  induction tokens generalizing closers with
  | nil => cases closers <;> simp [skipBalanced]
  | cons token rest inductionHypothesis =>
    cases closers with
    | nil => simp [skipBalanced]
    | cons closer outer =>
      have shorter : ∀ closers, (skipBalanced closers rest).length ≤ (token :: rest).length :=
        fun closers => Nat.le_succ_of_le (inductionHypothesis closers)
      simp only [skipBalanced]
      split
      · exact shorter _
      · split
        · exact shorter _
        · split <;> exact shorter _

/-- Skipping an attribute group never adds tokens. -/
theorem skipAttribute_length_le (tokens : List Token) :
    (skipAttribute tokens).length ≤ tokens.length :=
  skipBalanced_length_le _ tokens

/-- Skips to behind the end of a statement: a semicolon or a block in braces. A
closing brace ends it as well and is left to be read. -/
def skipStatement : List Token → List Token
  | [] => []
  | token :: rest =>
    if token.isMark ';' then rest
    else if token.isMark '{' then skipBalanced [['}']] rest
    else if token.isMark '(' then skipStatement (skipBalanced [[')']] rest)
    else if token.isMark '[' then skipStatement (skipBalanced [[']']] rest)
    else if token.kind = .attributeOpening then skipStatement (skipAttribute rest)
    else if token.isMark '}' then token :: rest
    else skipStatement rest
termination_by tokens => tokens.length
decreasing_by
  · exact Nat.lt_succ_of_le (skipBalanced_length_le _ rest)
  · exact Nat.lt_succ_of_le (skipBalanced_length_le _ rest)
  · exact Nat.lt_succ_of_le (skipAttribute_length_le rest)
  · simp

/-- Skipping a statement never adds tokens. -/
theorem skipStatement_length_le (tokens : List Token) :
    (skipStatement tokens).length ≤ tokens.length := by
  fun_induction skipStatement tokens with
  | case1 => simp
  | case2 token rest => simp
  | case3 token rest => exact Nat.le_succ_of_le (skipBalanced_length_le _ rest)
  | case4 token rest _ _ _ inductionHypothesis =>
    exact Nat.le_succ_of_le (Nat.le_trans inductionHypothesis (skipBalanced_length_le _ rest))
  | case5 token rest _ _ _ _ inductionHypothesis =>
    exact Nat.le_succ_of_le (Nat.le_trans inductionHypothesis (skipBalanced_length_le _ rest))
  | case6 token rest _ _ _ _ _ inductionHypothesis =>
    exact Nat.le_succ_of_le (Nat.le_trans inductionHypothesis (skipAttribute_length_le rest))
  | case7 => exact Nat.le_refl _
  | case8 token rest _ _ _ _ _ _ inductionHypothesis =>
    exact Nat.le_succ_of_le inductionHypothesis

/-- Skipping a statement makes progress unless it starts at a closing brace. -/
theorem skipStatement_length_lt (token : Token) (rest : List Token)
    (inside : token.isMark '}' = false) :
    (skipStatement (token :: rest)).length < (token :: rest).length := by
  rw [skipStatement]
  have balanced := fun closers => Nat.lt_succ_of_le (skipBalanced_length_le closers rest)
  have group := Nat.lt_succ_of_le (skipAttribute_length_le rest)
  have onward := fun tokens => skipStatement_length_le tokens
  split
  · simp
  · split
    · exact balanced _
    · split
      · exact Nat.lt_of_le_of_lt (onward _) (balanced _)
      · split
        · exact Nat.lt_of_le_of_lt (onward _) (balanced _)
        · split
          · exact Nat.lt_of_le_of_lt (onward _) group
          · simp only [inside]
            exact Nat.lt_succ_of_le (onward _)

/-- Skips the rest of a function or closure that belongs to no type, its body
included. -/
def skipFunction : List Token → List Token
  | [] => []
  | token :: rest =>
    if token.isMark '(' then skipFunction (skipBalanced [[')']] rest)
    else if token.isMark '{' then skipBalanced [['}']] rest
    else if token.isMark ';' then rest
    else skipFunction rest
termination_by tokens => tokens.length
decreasing_by
  · exact Nat.lt_succ_of_le (skipBalanced_length_le _ rest)
  · simp

/-- Skipping a function never adds tokens. -/
theorem skipFunction_length_le (tokens : List Token) :
    (skipFunction tokens).length ≤ tokens.length := by
  fun_induction skipFunction tokens with
  | case1 => simp
  | case2 token rest _ inductionHypothesis =>
    exact Nat.le_succ_of_le (Nat.le_trans inductionHypothesis (skipBalanced_length_le _ rest))
  | case3 token rest => exact Nat.le_succ_of_le (skipBalanced_length_le _ rest)
  | case4 token rest => simp
  | case5 token rest _ _ _ inductionHypothesis => exact Nat.le_succ_of_le inductionHypothesis

end Docblock.Source
