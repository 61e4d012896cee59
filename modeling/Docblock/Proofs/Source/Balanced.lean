import Docblock.Source.Skip

/-!
# Balanced tokens and skipping

Skipping keeps a stack of the closers that are waited for. Tokens in which every
bracket and every attribute group that opens is closed again leave that stack as they
find it, and so skipping goes through them to the very token that closes what was
opened in front. Only a token that is a bracket as a whole counts: what stands in a
string, a heredoc or a comment is a part of one token, and so no bracket.

Skipping looks at the innermost closer only. A body that the reader can skip may hold
stray closing brackets of another kind, which balanced tokens may not.
-/

namespace Docblock.Source

/-- The text that closes what a token opens: a bracket, or an attribute group. -/
def Token.closer? (token : Token) : Option Text :=
  match closerOf token.text with
  | some closer => some closer
  | none => if token.kind = .attributeOpening then some [']'] else none

/-- Whether a token closes what waits for a closer: it is that closer and opens nothing. -/
def Token.Closes (token : Token) (closer : Text) : Prop :=
  token.closer? = none ∧ token.text = closer

instance (token : Token) (closer : Text) : Decidable (token.Closes closer) :=
  inferInstanceAs (Decidable (_ ∧ _))

/-- The closing brackets. -/
def closingBrackets : List Text := [[')'], [']'], ['}']]

/-- What opens is closed by a bracket. -/
theorem Token.closer?_mem {token : Token} {closer : Text} (opens : token.closer? = some closer) :
    closer ∈ closingBrackets := by
  unfold closer? at opens
  split at opens
  · rename_i bracket
    unfold closerOf at bracket
    split at bracket <;> cases bracket <;> cases opens <;> decide
  · split at opens
    · cases opens
      decide
    · cases opens

/-- An opening brace waits for a closing one. -/
theorem Token.closer?_of_isMark {token : Token} (opens : token.isMark '{' = true) :
    token.closer? = some ['}'] := by
  have text : token.text = ['{'] := by simpa [isMark] using opens
  simp [closer?, text, closerOf]

/-- Skipping decides at each token by what it opens, and else by whether it is the closer
that is waited for. -/
theorem skipBalanced_cons (closer : Text) (outer : List Text) (token : Token)
    (rest : List Token) :
    skipBalanced (closer :: outer) (token :: rest) =
      match token.closer? with
      | some inner => skipBalanced (inner :: closer :: outer) rest
      | none =>
        if token.text = closer then skipBalanced outer rest
        else skipBalanced (closer :: outer) rest := by
  rw [skipBalanced, Token.closer?]
  cases closerOf token.text with
  | some inner => rfl
  | none =>
    by_cases group : token.kind = .attributeOpening
    · simp only [group, if_true]
    · simp only [group, if_false]

/-- The closers that are still waited for behind some tokens, innermost first. -/
def unclosed : List Text → List Token → List Text
  | [], _ => []
  | closers, [] => closers
  | closer :: outer, token :: rest =>
    match token.closer? with
    | some inner => unclosed (inner :: closer :: outer) rest
    | none => if token.text = closer then unclosed outer rest else unclosed (closer :: outer) rest

@[simp] theorem unclosed_none (tokens : List Token) : unclosed [] tokens = [] := by
  cases tokens <;> rfl

@[simp] theorem unclosed_nil (closers : List Text) : unclosed closers [] = closers := by
  cases closers <;> rfl

/-- While something is waited for, skipping goes on behind the tokens it has passed with
what they have left open. -/
theorem skipBalanced_append {closers : List Text} {front : List Token}
    (waiting : unclosed closers front ≠ []) (rest : List Token) :
    skipBalanced closers (front ++ rest) = skipBalanced (unclosed closers front) rest := by
  induction front generalizing closers with
  | nil => rw [unclosed_nil, List.nil_append]
  | cons token front inductionHypothesis =>
    cases closers with
    | nil => exact absurd (unclosed_none _) waiting
    | cons closer outer =>
      rw [List.cons_append]
      cases opens : token.closer? with
      | some inner =>
        simp only [unclosed, skipBalanced_cons, opens] at waiting ⊢
        exact inductionHypothesis waiting
      | none =>
        simp only [unclosed, skipBalanced_cons, opens] at waiting ⊢
        by_cases closes : token.text = closer
        · rw [if_pos closes] at waiting ⊢
          rw [if_pos closes]
          exact inductionHypothesis waiting
        · rw [if_neg closes] at waiting ⊢
          rw [if_neg closes]
          exact inductionHypothesis waiting

/-- What is waited for further out plays no part as long as something is waited for
inside. -/
theorem unclosed_append_outer {closers : List Text} {tokens : List Token}
    (waiting : unclosed closers tokens ≠ []) (outer : List Text) :
    unclosed (closers ++ outer) tokens = unclosed closers tokens ++ outer := by
  induction tokens generalizing closers with
  | nil => rw [unclosed_nil, unclosed_nil]
  | cons token rest inductionHypothesis =>
    cases closers with
    | nil => exact absurd (unclosed_none _) waiting
    | cons closer further =>
      rw [List.cons_append]
      cases opens : token.closer? with
      | some inner =>
        simp only [unclosed, opens] at waiting ⊢
        exact inductionHypothesis waiting
      | none =>
        simp only [unclosed, opens] at waiting ⊢
        by_cases closes : token.text = closer
        · rw [if_pos closes] at waiting ⊢
          rw [if_pos closes]
          exact inductionHypothesis waiting
        · rw [if_neg closes] at waiting ⊢
          rw [if_neg closes]
          exact inductionHypothesis waiting

/-- Skipping goes on behind the token that closes what is waited for, when the tokens in front
of it leave that open. -/
theorem skipBalanced_enclosed {closer : Text} {inner : List Token} {closing : Token}
    (enclosed : unclosed [closer] inner = [closer]) (closes : closing.Closes closer)
    (outer : List Text) (rest : List Token) :
    skipBalanced (closer :: outer) (inner ++ closing :: rest) = skipBalanced outer rest := by
  have stack : unclosed (closer :: outer) inner = closer :: outer := by
    have further := unclosed_append_outer (by rw [enclosed]; simp) outer
    rwa [enclosed] at further
  rw [skipBalanced_append (by rw [stack]; simp), stack, skipBalanced_cons]
  simp only [closes.1, closes.2, if_true]

/-- Tokens behind others find what those have left open. -/
theorem unclosed_append (closers : List Text) (front rest : List Token) :
    unclosed closers (front ++ rest) = unclosed (unclosed closers front) rest := by
  induction front generalizing closers with
  | nil => rw [unclosed_nil, List.nil_append]
  | cons token front inductionHypothesis =>
    cases closers with
    | nil => simp only [unclosed_none]
    | cons closer outer =>
      rw [List.cons_append]
      simp only [unclosed]
      split
      · exact inductionHypothesis _
      · split <;> exact inductionHypothesis _

/-- Tokens in which whatever opens is closed again, and nothing else is: the brackets of
each kind, and attribute groups, which a square bracket closes. -/
inductive IsBalanced : List Token → Prop
  | nil : IsBalanced []
  | other {token : Token} {rest : List Token} (opens : token.closer? = none)
      (closes : token.text ∉ closingBrackets) (behind : IsBalanced rest) :
      IsBalanced (token :: rest)
  | group {opening closing : Token} {closer : Text} {inner rest : List Token}
      (opens : opening.closer? = some closer) (inside : IsBalanced inner)
      (closes : closing.Closes closer) (behind : IsBalanced rest) :
      IsBalanced (opening :: (inner ++ closing :: rest))

/-- Balanced tokens leave what is waited for as they find it. The induction is on how
they are nested, and what is waited for inside a group is its closer on top. -/
theorem IsBalanced.unclosed_eq {tokens : List Token} (balanced : IsBalanced tokens)
    {closer : Text} (bracket : closer ∈ closingBrackets) (outer : List Text) :
    unclosed (closer :: outer) tokens = closer :: outer := by
  induction balanced generalizing closer outer with
  | nil => rfl
  | @other token rest opens closes _ inductionHypothesis =>
    have differs : token.text ≠ closer := by
      rintro rfl
      exact closes bracket
    simp only [unclosed, opens, if_neg differs]
    exact inductionHypothesis bracket outer
  | @group opening closing inner _ _ opens _ closes _ inside behind =>
    obtain ⟨closed, text⟩ := closes
    simp only [unclosed, opens, unclosed_append]
    rw [inside (Token.closer?_mem opens)]
    simp only [unclosed, closed, if_pos text]
    exact behind bracket outer

/-- Whether tokens close, in order and with nothing else closed, all that is waited for. -/
def closesAll : List Text → List Token → Bool
  | closers, [] => closers.isEmpty
  | closers, token :: rest =>
    match token.closer? with
    | some inner => closesAll (inner :: closers) rest
    | none =>
      if token.text ∈ closingBrackets then
        match closers with
        | [] => false
        | closer :: outer => token.text == closer && closesAll outer rest
      else closesAll closers rest

/-- Balanced tokens make no difference to what closes what is waited for. -/
theorem IsBalanced.closesAll_append {tokens : List Token} (balanced : IsBalanced tokens)
    (closers : List Text) (rest : List Token) :
    closesAll closers (tokens ++ rest) = closesAll closers rest := by
  induction balanced generalizing closers rest with
  | nil => rfl
  | other opens closes _ inductionHypothesis =>
    simp only [List.cons_append, closesAll, opens, if_neg closes]
    exact inductionHypothesis closers rest
  | @group opening closing closer inner behind opens _ closes _ inside outside =>
    obtain ⟨closed, text⟩ := closes
    have bracket := Token.closer?_mem opens
    rw [List.cons_append, List.append_assoc, List.cons_append]
    simp only [closesAll, opens, inside, closed, text, if_pos bracket, beq_self_eq_true,
      Bool.true_and]
    exact outside closers rest

/-- What closes all that is waited for is balanced up to the token that closes the innermost
of it. The induction is on the number of tokens, since a group is read through its closer
before what follows it. -/
theorem exists_of_closesAll {closers : List Text} {tokens : List Token}
    (closes : closesAll closers tokens = true) :
    match closers with
    | [] => IsBalanced tokens
    | closer :: outer => ∃ inner closing rest, tokens = inner ++ closing :: rest ∧
        IsBalanced inner ∧ closing.Closes closer ∧ closesAll outer rest = true := by
  induction size : tokens.length using Nat.strongRecOn generalizing closers tokens with
  | ind size inductionHypothesis =>
    cases tokens with
    | nil =>
      cases closers with
      | nil => exact .nil
      | cons closer outer => cases closes
    | cons token rest =>
      rw [List.length_cons] at size
      cases opens : token.closer? with
      | some inner =>
        simp only [closesAll, opens] at closes
        obtain ⟨inside, closing, behind, rfl, balanced, closed, onward⟩ :=
          inductionHypothesis rest.length (by omega) closes rfl
        rw [List.length_append, List.length_cons] at size
        have further := inductionHypothesis behind.length (by omega) onward rfl
        cases closers with
        | nil => exact .group opens balanced closed further
        | cons closer outer =>
          obtain ⟨between, last, left, rfl, ordered, ended, others⟩ := further
          exact ⟨token :: (inside ++ closing :: between), last, left, by simp,
            .group opens balanced closed ordered, ended, others⟩
      | none =>
        simp only [closesAll, opens] at closes
        by_cases bracket : token.text ∈ closingBrackets
        · rw [if_pos bracket] at closes
          cases closers with
          | nil => cases closes
          | cons closer outer =>
            rw [Bool.and_eq_true, beq_iff_eq] at closes
            exact ⟨[], token, rest, rfl, .nil, ⟨opens, closes.1⟩, closes.2⟩
        · rw [if_neg bracket] at closes
          have further := inductionHypothesis rest.length (by omega) closes rfl
          cases closers with
          | nil => exact .other opens bracket further
          | cons closer outer =>
            obtain ⟨between, last, left, rfl, ordered, ended, others⟩ := further
            exact ⟨token :: between, last, left, rfl, .other opens bracket ordered, ended,
              others⟩

/-- Balanced tokens are those that close all of nothing. -/
theorem isBalanced_iff {tokens : List Token} :
    IsBalanced tokens ↔ closesAll [] tokens = true := by
  constructor
  · intro balanced
    have whole := balanced.closesAll_append [] []
    rwa [List.append_nil] at whole
  · exact exists_of_closesAll

instance : DecidablePred IsBalanced := fun _ => decidable_of_iff' _ isBalanced_iff

end Docblock.Source
