import Docblock.Proofs.Source.Steps
import Mathlib.Data.List.Basic

/-!
# Readers side by side

Two readers are given the same tokens in front of different tails. The second one may
have its tokens at other places of another source, as long as the text between any two
of them is the same. While the first reader stays in front of its tail, the second one
does the same: both leave the same tokens, and what they have read is equal.

The condition is on the first reader alone, and it is about lengths: more is left than
the tail. A part of the reader that would run into the tail leaves too little for that,
so no case has to be made for what the tail may start with. Readers without tails are
covered as well, and stay side by side to the end.
-/

namespace Docblock.Source

/-- A token at another place. -/
def Token.moved (place : Nat → Nat) (token : Token) : Token :=
  { token with start := place token.start, stop := place token.stop }

namespace Token

variable (token : Token) (place : Nat → Nat)

@[simp] theorem moved_kind : (token.moved place).kind = token.kind := rfl

@[simp] theorem moved_text : (token.moved place).text = token.text := rfl

@[simp] theorem moved_isMark : (token.moved place).isMark = token.isMark := rfl

@[simp] theorem moved_closer? : (token.moved place).closer? = token.closer? := rfl

@[simp] theorem moved_starts : (token.moved place).starts = token.starts := rfl

end Token

/-- Tokens that keep their places are not moved. -/
theorem map_moved_id (tokens : List Token) : tokens.map (Token.moved id) = tokens :=
  List.map_id'' (fun _ => rfl) tokens

/-- Tokens at other places leave the same open. -/
theorem unclosed_moved (place : Nat → Nat) (closers : List Text) (tokens : List Token) :
    unclosed closers (tokens.map (Token.moved place)) = unclosed closers tokens := by
  induction tokens generalizing closers with
  | nil => rfl
  | cons token rest inductionHypothesis =>
    cases closers with
    | nil => rw [unclosed_none, unclosed_none]
    | cons closer outer =>
      simp only [List.map_cons, unclosed, Token.moved_closer?, Token.moved_text,
        inductionHypothesis]

/-- Two sources have the same text between any two of some tokens, which have other places
in the second source. -/
def Agree (source other : Text) (place : Nat → Nat) (tokens : List Token) : Prop :=
  ∀ first ∈ tokens, ∀ last ∈ tokens,
    (other.drop (place first.start)).take (place last.stop - place first.start) =
      (source.drop first.start).take (last.stop - first.start)

/-- Sources that agree on tokens agree on some of them. -/
theorem Agree.mono {source other : Text} {place : Nat → Nat} {tokens fewer : List Token}
    (agree : Agree source other place tokens) (within : fewer ⊆ tokens) :
    Agree source other place fewer :=
  fun first member last further => agree first (within member) last (within further)

/-- The text of a span is the same in both sources. -/
theorem Agree.slice_eq {source other : Text} {place : Nat → Nat} {span : List Token}
    (agree : Agree source other place span) :
    slice other (span.map (Token.moved place)) = slice source span := by
  unfold slice
  rw [List.head?_map, List.getLast?_map]
  cases opened : span.head? with
  | none => rfl
  | some first =>
    cases ended : span.getLast? with
    | none => rfl
    | some last =>
      exact congrArg Text.trim
        (agree first (List.mem_of_head? opened) last (List.mem_of_getLast? ended))

/-- Two token lists with a common front: the tails that differ, and where the tokens of
the front are in the second source. -/
structure Fork where
  place : Nat → Nat
  tail : List Token
  other : List Token

namespace Fork

variable (fork : Fork)

/-- What the first reader is given. -/
def first (tokens : List Token) : List Token := tokens ++ fork.tail

/-- What the second reader is given. -/
def second (tokens : List Token) : List Token :=
  tokens.map (Token.moved fork.place) ++ fork.other

@[simp] theorem first_nil : fork.first [] = fork.tail := rfl

@[simp] theorem first_cons (token : Token) (rest : List Token) :
    fork.first (token :: rest) = token :: fork.first rest := rfl

@[simp] theorem second_nil : fork.second [] = fork.other := rfl

@[simp] theorem second_cons (token : Token) (rest : List Token) :
    fork.second (token :: rest) = token.moved fork.place :: fork.second rest := rfl

/-- The first reader stays in front of its tail, or there are no tails. -/
def Stops (left : List Token) : Prop :=
  fork.tail.length < left.length ∨ fork.tail = [] ∧ fork.other = []

/-- The readers leave the same tokens in front of their tails. -/
def Leaves (tokens left otherLeft : List Token) : Prop :=
  ∃ more, more <:+ tokens ∧ left = fork.first more ∧ otherLeft = fork.second more

/-- Token lists without tails. -/
def whole (place : Nat → Nat) : Fork := ⟨place, [], []⟩

@[simp] theorem first_whole (place : Nat → Nat) (tokens : List Token) :
    (whole place).first tokens = tokens :=
  List.append_nil tokens

@[simp] theorem second_whole (place : Nat → Nat) (tokens : List Token) :
    (whole place).second tokens = tokens.map (Token.moved place) :=
  List.append_nil _

@[simp] theorem place_whole (place : Nat → Nat) : (whole place).place = place := rfl

/-- Readers without tails stop in front of them. -/
theorem stops_whole (place : Nat → Nat) (left : List Token) : (whole place).Stops left :=
  .inr ⟨rfl, rfl⟩

/-- Without tails, what one reader leaves is what the other one leaves, moved. -/
theorem leaves_whole {place : Nat → Nat} {tokens left otherLeft : List Token} :
    (whole place).Leaves tokens left otherLeft ↔
      left <:+ tokens ∧ otherLeft = left.map (Token.moved place) := by
  constructor
  · rintro ⟨more, within, rfl, rfl⟩
    simpa using within
  · rintro ⟨within, rfl⟩
    exact ⟨left, within, (first_whole place left).symm, (second_whole place left).symm⟩

variable {fork} {tokens more left further otherLeft : List Token}

/-- A reader that stays in front of the tail in the end does so on the way. -/
theorem Stops.earlier (stops : fork.Stops further) (shorter : further.length ≤ left.length) :
    fork.Stops left := by
  rcases stops with longer | ended
  · exact .inl (Nat.lt_of_lt_of_le longer shorter)
  · exact .inr ended

/-- At its tail a reader can only be if there are no tails. -/
theorem Stops.ended (stops : fork.Stops left) (shorter : left.length ≤ fork.tail.length) :
    fork.tail = [] ∧ fork.other = [] := by
  rcases stops with longer | ended
  · omega
  · exact ended

/-- Both readers leave all tokens. -/
theorem leaves_all (tokens : List Token) :
    fork.Leaves tokens (fork.first tokens) (fork.second tokens) :=
  ⟨tokens, List.suffix_rfl, rfl, rfl⟩

/-- What is left of some last tokens is left of all of them. -/
theorem Leaves.within (leaves : fork.Leaves more left otherLeft) (within : more <:+ tokens) :
    fork.Leaves tokens left otherLeft := by
  obtain ⟨last, ends, first, second⟩ := leaves
  exact ⟨last, ends.trans within, first, second⟩

/-- What is left of the tokens behind one is left of all. -/
theorem Leaves.behind (leaves : fork.Leaves tokens left otherLeft) (token : Token) :
    fork.Leaves (token :: tokens) left otherLeft :=
  leaves.within (List.suffix_cons token tokens)

/-- A token fewer is left by both. -/
theorem Leaves.tail (leaves : fork.Leaves tokens left otherLeft) (stops : fork.Stops left.tail) :
    fork.Leaves tokens left.tail otherLeft.tail := by
  obtain ⟨more, within, rfl, rfl⟩ := leaves
  cases more with
  | nil =>
    have none := stops.ended (by simp)
    exact ⟨[], within, by simp [none.1], by simp [none.2]⟩
  | cons token rest =>
    exact ⟨rest, (List.suffix_cons token rest).trans within, rfl, rfl⟩

/-- Where there are no tails, nothing is left of nothing. -/
theorem leaves_none (none : fork.tail = [] ∧ fork.other = []) : fork.Leaves tokens [] [] :=
  ⟨[], List.nil_suffix, by rw [first_nil, none.1], by rw [second_nil, none.2]⟩

/-- A token with more behind it than the tail is one of those in front of the tail. -/
theorem first_eq_cons {token : Token} {rest : List Token}
    (split : fork.first tokens = token :: rest)
    (longer : fork.tail.length ≤ rest.length) :
    ∃ behind, tokens = token :: behind ∧ rest = fork.first behind := by
  cases tokens with
  | nil =>
    have width := congrArg List.length split
    rw [first_nil, List.length_cons] at width
    omega
  | cons front behind =>
    obtain ⟨rfl, rfl⟩ := List.cons.inj split
    exact ⟨behind, rfl, rfl⟩

/-- Where the first reader has one token in front of its tail, so has the second one. -/
theorem Leaves.brace {opening : Token} (leaves : fork.Leaves tokens (opening :: fork.tail) left) :
    left = opening.moved fork.place :: fork.other := by
  obtain ⟨more, -, first, rfl⟩ := leaves
  obtain ⟨behind, rfl, none⟩ := first_eq_cons first.symm (Nat.le_refl _)
  obtain rfl : behind = [] := by simpa [Fork.first] using none
  rfl

end Fork

variable {fork : Fork}

section Skipping

/-- Both readers skip the same. -/
theorem skipBalanced_leaves (closers : List Text) (tokens : List Token)
    (stops : fork.Stops (skipBalanced closers (fork.first tokens))) :
    fork.Leaves tokens (skipBalanced closers (fork.first tokens))
      (skipBalanced closers (fork.second tokens)) := by
  induction tokens generalizing closers with
  | nil =>
    have none := stops.ended (skipBalanced_length_le closers fork.tail)
    rw [Fork.first_nil, Fork.second_nil, none.1, none.2]
    cases closers <;> exact Fork.leaves_none none
  | cons token rest inductionHypothesis =>
    cases closers with
    | nil =>
      simp only [Fork.first_cons, Fork.second_cons, skipBalanced]
      exact Fork.leaves_all (token :: rest)
    | cons closer outer =>
      simp only [Fork.first_cons, Fork.second_cons, skipBalanced_cons, Token.moved_closer?,
        Token.moved_text] at stops ⊢
      cases opens : token.closer? with
      | some inner =>
        simp only [opens] at stops ⊢
        exact (inductionHypothesis _ stops).behind token
      | none =>
        simp only [opens] at stops ⊢
        by_cases closes : token.text = closer
        · simp only [closes, if_true] at stops ⊢
          exact (inductionHypothesis _ stops).behind token
        · simp only [closes, if_false] at stops ⊢
          exact (inductionHypothesis _ stops).behind token

/-- Both readers come to the same end. -/
theorem untilEnd_leaves (group? : Token → Option Text) (ends : Token → Bool)
    (sameGroups : ∀ token, group? (Token.moved fork.place token) = group? token)
    (sameEnds : ∀ token, ends (Token.moved fork.place token) = ends token) (tokens : List Token)
    (stops : fork.Stops (untilEnd group? ends (fork.first tokens))) :
    fork.Leaves tokens (untilEnd group? ends (fork.first tokens))
      (untilEnd group? ends (fork.second tokens)) := by
  induction size : tokens.length using Nat.strongRecOn generalizing tokens with
  | ind size inductionHypothesis =>
    cases tokens with
    | nil =>
      have none := stops.ended (untilEnd_length_le group? ends fork.tail)
      rw [Fork.first_nil, Fork.second_nil, none.1, none.2, untilEnd]
      exact Fork.leaves_none none
    | cons token rest =>
      rw [List.length_cons] at size
      rw [Fork.first_cons, Fork.second_cons, untilEnd, untilEnd, sameEnds, sameGroups] at *
      by_cases ended : ends token
      · simp only [ended, if_true]
        exact Fork.leaves_all (token :: rest)
      · simp only [ended] at stops ⊢
        cases grouped : group? token with
        | none =>
          simp only [grouped] at stops ⊢
          exact (inductionHypothesis _ (by omega) rest stops rfl).behind token
        | some closer =>
          simp only [grouped] at stops ⊢
          obtain ⟨more, within, skipped, otherSkipped⟩ := skipBalanced_leaves [closer] rest
            (stops.earlier (untilEnd_length_le group? ends _))
          have shorter := within.length_le
          rw [skipped] at stops
          simp only [skipped, otherSkipped]
          exact (inductionHypothesis _ (by omega) more stops rfl).within
            (within.trans (List.suffix_cons token rest))

/-- Both readers skip the same body. -/
theorem skipBody_leaves (tokens : List Token)
    (stops : fork.Stops (skipBody (fork.first tokens))) :
    fork.Leaves tokens (skipBody (fork.first tokens)) (skipBody (fork.second tokens)) := by
  cases tokens with
  | nil =>
    have none := stops.ended (skipBody_length_le fork.tail)
    rw [Fork.first_nil, Fork.second_nil, none.1, none.2, skipBody]
    exact Fork.leaves_none none
  | cons token rest =>
    simp only [Fork.first_cons, Fork.second_cons, skipBody, Token.moved_isMark] at stops ⊢
    by_cases brace : token.isMark '{'
    · simp only [brace, if_true] at stops ⊢
      exact (skipBalanced_leaves _ rest stops).behind token
    · simp only [brace] at stops ⊢
      exact (Fork.leaves_all rest).behind token

/-- Both readers skip the same function. -/
theorem skipFunction_leaves (tokens : List Token)
    (stops : fork.Stops (skipFunction (fork.first tokens))) :
    fork.Leaves tokens (skipFunction (fork.first tokens)) (skipFunction (fork.second tokens)) := by
  simp only [skipFunction_eq] at stops ⊢
  obtain ⟨more, within, first, second⟩ := untilEnd_leaves functionGroup? endsFunction
    (fun _ => rfl) (fun _ => rfl) tokens (stops.earlier (skipBody_length_le _))
  rw [first] at stops ⊢
  rw [second]
  exact (skipBody_leaves more stops).within within

/-- Both readers skip the same statement. -/
theorem skipStatement_leaves (tokens : List Token)
    (stops : fork.Stops (skipStatement (fork.first tokens))) :
    fork.Leaves tokens (skipStatement (fork.first tokens))
      (skipStatement (fork.second tokens)) := by
  simp only [skipStatement_eq] at stops ⊢
  obtain ⟨more, within, first, second⟩ := untilEnd_leaves statementGroup? endsStatement
    (fun _ => rfl) (fun _ => rfl) tokens (stops.earlier (closeStatement_length_le _))
  rw [first] at stops ⊢
  rw [second]
  refine Fork.Leaves.within ?_ within
  cases more with
  | nil =>
    have none := stops.ended (closeStatement_length_le fork.tail)
    rw [Fork.first_nil, Fork.second_nil, none.1, none.2, closeStatement]
    exact Fork.leaves_none none
  | cons token rest =>
    simp only [Fork.first_cons, Fork.second_cons, closeStatement, Token.moved_isMark] at stops ⊢
    by_cases semicolon : token.isMark ';'
    · simp only [semicolon, if_true]
      exact (Fork.leaves_all rest).behind token
    · simp only [semicolon] at stops ⊢
      by_cases brace : token.isMark '{'
      · simp only [brace, if_true] at stops ⊢
        exact (skipBalanced_leaves _ rest stops).behind token
      · simp only [brace]
        exact Fork.leaves_all (token :: rest)

/-- What is left behind a statement are last ones of its tokens. -/
theorem skipStatement_suffix (found : List Token) : skipStatement found <:+ found := by
  have stops : (Fork.whole id).Stops (skipStatement ((Fork.whole id).first found)) :=
    Fork.stops_whole id _
  have skips := skipStatement_leaves found stops
  simp only [Fork.first_whole, Fork.leaves_whole] at skips
  exact skips.1

/-- Both readers find the same span of tokens with a property, and the same tokens behind
it. -/
theorem span_leaves (p : Token → Bool)
    (same : ∀ token, p (Token.moved fork.place token) = p token) (tokens : List Token)
    (stops : fork.Stops ((fork.first tokens).dropWhile p)) :
    fork.Leaves tokens ((fork.first tokens).dropWhile p) ((fork.second tokens).dropWhile p) ∧
      (fork.second tokens).takeWhile p =
        ((fork.first tokens).takeWhile p).map (Token.moved fork.place) ∧
      (fork.first tokens).takeWhile p ⊆ tokens := by
  induction tokens with
  | nil =>
    have none := stops.ended (List.dropWhile_sublist p).length_le
    rw [Fork.first_nil, Fork.second_nil, none.1, none.2]
    exact ⟨Fork.leaves_none none, rfl, List.Subset.refl []⟩
  | cons token rest inductionHypothesis =>
    simp only [Fork.first_cons, Fork.second_cons, List.dropWhile_cons, List.takeWhile_cons,
      same] at stops ⊢
    by_cases inside : p token
    · simp only [inside, if_true] at stops ⊢
      obtain ⟨leaves, taken, within⟩ := inductionHypothesis stops
      refine ⟨leaves.behind token, ?_, List.cons_subset_cons token within⟩
      rw [taken, List.map_cons]
    · simp only [inside]
      exact ⟨Fork.leaves_all (token :: rest), rfl, List.nil_subset _⟩

end Skipping

end Docblock.Source
