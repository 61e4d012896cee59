import Docblock.Proofs.Source.Fork.Walk

/-!
# Points that the reader comes to

The reader skips from an opening brace in three places: behind the signature of a method,
at the end of a statement among the members of a type, and behind the header of a function
outside of types. Here it is said when the reader of a source comes to such a point, as a
relation that follows its steps.

Two readers of a fork that come to the same opening brace, each at its own tail, go on
from the same last tokens when skipping takes both of them there. So both find the same
declarations. A brace inside of one that is skipped from is covered through the outer one,
in front of whose body the fork is then seen.
-/

namespace Docblock.Source

section Reaching

variable {scope : Scope} {source : Text} {file : Option Text} {goal : List Token}

/-- Reading the members of a type comes to a point at which a body or a block may start:
behind the signature of a method, or at the end of a statement. -/
inductive MembersReach (scope : Scope) (source : Text) (goal : List Token) :
    List Text → Text → List Token → Prop
  | body {modifiers : List Text} {comment : Text} {token : Token} {rest : List Token}
      (starts : token.starts = .method)
      (named : (readSignature scope source modifiers comment rest).1.isSome = true)
      (behind : (readSignature scope source modifiers comment rest).2 = goal) :
      MembersReach scope source goal modifiers comment (token :: rest)
  | block {modifiers : List Text} {comment : Text} {token : Token} {rest : List Token}
      (starts : token.starts = .statement)
      (behind : untilEnd statementGroup? endsStatement (token :: rest) = goal) :
      MembersReach scope source goal modifiers comment (token :: rest)
  | later {modifiers : List Text} {comment : Text} {token : Token} {rest : List Token}
      {next : MemberStep}
      (steps : memberStep scope source modifiers comment token rest = some next)
      (reaches : MembersReach scope source goal next.modifiers next.comment next.left) :
      MembersReach scope source goal modifiers comment (token :: rest)

/-- The walk comes to a point at which a body or a block may start: among the members of a
type that is read, or behind the header of a function that is skipped. -/
inductive WalkReaches (source : Text) (file : Option Text) (goal : List Token) :
    Position → List Token → Prop
  | members {position : Position} {token name brace : Token} {rest inner : List Token}
      (introduces : token.kind = .name ∧ typeWords.contains (Text.lower token.text) = true)
      (admitted : (position.previous.any fun token =>
        excludesType.contains (Text.lower token.text)) = false)
      (named : name.kind = .name)
      (opened : rest.dropWhile (!·.isMark '{') = brace :: inner)
      (reaches : MembersReach position.scope source goal [] [] inner) :
      WalkReaches source file goal position (token :: name :: rest)
  | function {position : Position} {token : Token} {rest : List Token}
      (introduces : token.kind = .name ∧ Text.lower token.text = "function".toList)
      (behind : untilEnd functionGroup? endsFunction rest = goal) :
      WalkReaches source file goal position (token :: rest)
  | later {position : Position} {token : Token} {rest : List Token}
      (reaches : WalkReaches source file goal (step source file position token rest).position
        (step source file position token rest).left) :
      WalkReaches source file goal position (token :: rest)

/-- The reader of a source comes to a point behind some tokens, at which a body or a block
may start: in its walk, or in what it skips from a brace that is still open. -/
inductive Reaches (source : Text) (file : Option Text) : List Token → List Token → Prop
  | outside {before goal : List Token} (whole : tokens source = before ++ goal)
      (reaches : WalkReaches source file goal {} (tokens source)) :
      Reaches source file before goal
  | inside {before front goal : List Token} {brace : Token}
      (outer : Reaches source file before (brace :: (front ++ goal)))
      (opens : brace.isMark '{' = true) (waiting : unclosed [['}']] front ≠ []) :
      Reaches source file (before ++ brace :: front) goal

/-- What is reached among members is no more than there is. -/
theorem MembersReach.length_le {modifiers : List Text} {comment : Text} {tokens : List Token}
    (reaches : MembersReach scope source goal modifiers comment tokens) :
    goal.length ≤ tokens.length := by
  induction reaches with
  | body _ _ behind =>
    rw [← behind]
    exact Nat.le_succ_of_le (readSignature_length_le _ _ _ _ _)
  | block _ behind =>
    rw [← behind]
    exact untilEnd_length_le _ _ _
  | later steps _ inductionHypothesis =>
    exact Nat.le_succ_of_le (Nat.le_trans inductionHypothesis (memberStep_length_le steps))

/-- What is reached in the walk is no more than there is. -/
theorem WalkReaches.length_le {position : Position} {tokens : List Token}
    (reaches : WalkReaches source file goal position tokens) : goal.length ≤ tokens.length := by
  induction reaches with
  | @members position token name brace rest inner _ _ _ opened reaches =>
    have shorter := (List.dropWhile_suffix (l := rest) (!·.isMark '{')).length_le
    have inside := reaches.length_le
    rw [opened, List.length_cons] at shorter
    simp only [List.length_cons]
    omega
  | function _ behind =>
    rw [← behind]
    exact Nat.le_succ_of_le (untilEnd_length_le _ _ _)
  | later _ inductionHypothesis =>
    exact Nat.le_succ_of_le (Nat.le_trans inductionHypothesis (step_left_length_le _ _ _ _ _))

end Reaching

section Rejoining

variable {fork : Fork} {shift : Nat → Nat} {closing : Token} {after : List Token}
  {scope : Scope} {source other : Text} {file : Option Text}

/-- Behind a brace that opens in front of both tails, both readers come to the same of some
last tokens, which the second one has moved. -/
structure Fork.Rejoins (fork : Fork) (shift : Nat → Nat) (closing : Token)
    (after : List Token) : Prop where
  ends : closing :: after <:+ fork.tail
  otherEnds : (closing :: after).map (Token.moved shift) <:+ fork.other
  skips : ∀ outer, skipBalanced (['}'] :: outer) fork.tail <:+ after ∧
    skipBalanced (['}'] :: outer) fork.other =
      (skipBalanced (['}'] :: outer) fork.tail).map (Token.moved shift)

/-- Two readings find the same and come to the same of some last tokens, which the second one
has moved. -/
structure Rejoined {Found : Type} (shift : Nat → Nat) (after : List Token)
    (read otherRead : Found × List Token) : Prop where
  same : otherRead.1 = read.1
  within : read.2 <:+ after
  left : otherRead.2 = read.2.map (Token.moved shift)

/-- Reading goes on alike from the same of some last tokens. -/
theorem readBody_rejoined (modifiers : List Text) (comment : Text) {tokens : List Token}
    (agree : Agree source other shift after) (within : tokens <:+ after) :
    Rejoined shift after (readBody scope source modifiers comment tokens)
      (readBody scope other modifiers comment (tokens.map (Token.moved shift))) := by
  have stops : (Fork.whole shift).Stops
      (readBody scope source modifiers comment ((Fork.whole shift).first tokens)).2 :=
    Fork.stops_whole shift _
  have read := readBody_leaves modifiers comment (agree.mono within.subset) stops
  simp only [Fork.first_whole, Fork.second_whole, Fork.leaves_whole] at read
  exact ⟨read.2, read.1.1.trans within, read.1.2⟩

/-- Members are read alike when a step comes to the same of some last tokens. -/
theorem Rejoined.of_step {modifiers : List Text} {comment : Text} {token otherToken : Token}
    {rest otherRest : List Token} {next : MemberStep} (agree : Agree source other shift after)
    (steps : memberStep scope source modifiers comment token rest = some next)
    (otherSteps : memberStep scope other modifiers comment otherToken otherRest =
      some { next with left := next.left.map (Token.moved shift) })
    (within : next.left <:+ after) :
    Rejoined shift after (readBody scope source modifiers comment (token :: rest))
      (readBody scope other modifiers comment (otherToken :: otherRest)) := by
  obtain ⟨methods, ends, left⟩ :=
    @readBody_rejoined shift after scope source other next.modifiers next.comment _ agree within
  rw [readBody_cons, readBody_cons, steps, otherSteps]
  exact ⟨by simp only [methods], ends, left⟩

/-- A body or a block is skipped to the same of some last tokens. -/
theorem Fork.Rejoins.skipBody {opening : Token} (rejoins : fork.Rejoins shift closing after)
    (opens : opening.isMark '{' = true) :
    skipBody (opening :: fork.tail) <:+ after ∧
      skipBody (opening.moved fork.place :: fork.other) =
        (skipBody (opening :: fork.tail)).map (Token.moved shift) := by
  simp only [Docblock.Source.skipBody, Token.moved_isMark, opens, if_true]
  exact rejoins.skips []

/-- Members are read alike around a body or a block that both readers come to. -/
theorem MembersReach.rejoined {opening : Token} {modifiers : List Text} {comment : Text}
    {read : List Token}
    (reaches : MembersReach scope source (opening :: fork.tail) modifiers comment read)
    (opens : opening.isMark '{' = true) (rejoins : fork.Rejoins shift closing after)
    (agreeAfter : Agree source other shift after) {tokens : List Token}
    (agree : Agree source other fork.place tokens) (given : fork.first tokens = read) :
    Rejoined shift after (readBody scope source modifiers comment read)
      (readBody scope other modifiers comment (fork.second tokens)) := by
  have longer {left : List Token} (ended : left = opening :: fork.tail) : fork.Stops left :=
    .inl (by rw [ended, List.length_cons]; omega)
  induction reaches generalizing tokens with
  | @body modifiers comment token rest starts named behind =>
    have shorter := readSignature_length_le scope source modifiers comment rest
    rw [behind, List.length_cons] at shorter
    obtain ⟨inner, rfl, rfl⟩ := Fork.first_eq_cons given (by omega)
    obtain ⟨leaves, same⟩ := readSignature_leaves modifiers comment
      (agree.mono (List.subset_cons_self token inner)) (longer behind)
    rw [behind] at leaves
    obtain ⟨within, skipped⟩ := rejoins.skipBody opens
    have steps : memberStep scope source modifiers comment token (fork.first inner) =
        some ⟨(readSignature scope source modifiers comment (fork.first inner)).1, [], [],
          skipBody (opening :: fork.tail)⟩ := by
      simp only [memberStep, starts, readMethod_eq, named, if_true, behind]
    rw [Fork.second_cons]
    refine Rejoined.of_step agreeAfter steps ?_ within
    simp only [memberStep, Token.moved_starts, starts, readMethod_eq, same, named, if_true,
      leaves.brace, skipped]
  | @block modifiers comment token rest starts behind =>
    have shorter := untilEnd_length_le statementGroup? endsStatement (token :: rest)
    rw [behind, List.length_cons, List.length_cons] at shorter
    obtain ⟨inner, rfl, rfl⟩ := Fork.first_eq_cons given (by omega)
    have leaves := untilEnd_leaves statementGroup? endsStatement (fun _ => rfl) (fun _ => rfl)
      (token :: inner) (longer behind)
    rw [Fork.first_cons, behind] at leaves
    obtain ⟨within, skipped⟩ := rejoins.skipBody opens
    have steps : memberStep scope source modifiers comment token (fork.first inner) =
        some ⟨none, [], [], skipBody (opening :: fork.tail)⟩ := by
      simp only [memberStep, starts, skipStatement_eq, behind, closeStatement_eq opens]
    have otherBehind := leaves.brace
    rw [Fork.second_cons] at otherBehind ⊢
    refine Rejoined.of_step agreeAfter steps ?_ within
    have otherOpens : (opening.moved fork.place).isMark '{' = true := opens
    simp only [memberStep, Token.moved_starts, starts, skipStatement_eq, otherBehind,
      closeStatement_eq otherOpens, skipped]
  | @later modifiers comment token rest next steps reaches inductionHypothesis =>
    have inside := reaches.length_le
    have shorter := memberStep_length_le steps
    rw [List.length_cons] at inside
    obtain ⟨inner, rfl, rfl⟩ := Fork.first_eq_cons given (by omega)
    obtain ⟨otherLeft, otherSteps, more, within, left, moved⟩ := memberStep_leaves
      (agree.mono (List.subset_cons_self token inner)) steps (.inl (by omega))
    obtain ⟨methods, ends, last⟩ := inductionHypothesis (agree.mono within.subset) left.symm
    rw [Fork.second_cons, readBody_cons, readBody_cons, steps, otherSteps, moved]
    exact ⟨by simp only [methods], ends, last⟩

/-- Types are read alike around a body or a block that both readers come to among their
members. -/
theorem readType_rejoined {word : Text} {modifiers : List Text} {comment : Text}
    {opening name brace : Token} {headed inner : List Token} (named : name.kind = .name)
    (opened : (fork.first headed).dropWhile (!·.isMark '{') = brace :: inner)
    (reaches : MembersReach scope source (opening :: fork.tail) [] [] inner)
    (opens : opening.isMark '{' = true) (rejoins : fork.Rejoins shift closing after)
    (agreeAfter : Agree source other shift after)
    (agree : Agree source other fork.place headed) :
    Rejoined shift after
      (readType scope source file word modifiers comment (fork.first (name :: headed)))
      (readType scope other file word modifiers comment (fork.second (name :: headed))) := by
  have inside := reaches.length_le
  rw [List.length_cons] at inside
  have stops : fork.Stops ((fork.first headed).dropWhile (!·.isMark '{')) :=
    .inl (by rw [opened, List.length_cons]; omega)
  obtain ⟨⟨more, suffix, left, otherOpened⟩, taken, -⟩ :=
    span_leaves (!·.isMark '{') (fun _ => rfl) headed stops
  rw [opened] at left
  obtain ⟨body, rfl, rfl⟩ := Fork.first_eq_cons left.symm (by omega)
  rw [Fork.second_cons] at otherOpened
  have otherNamed : (name.moved fork.place).kind = .name := named
  have last := (List.suffix_cons brace body).trans suffix
  obtain ⟨methods, within, moved⟩ :=
    reaches.rejoined opens rejoins agreeAfter (agree.mono last.subset) rfl
  rw [Fork.first_cons, Fork.second_cons, readType_opened named opened,
    readType_opened otherNamed otherOpened]
  simp only [methods, taken, List.foldl_map]
  exact ⟨rfl, within, moved⟩

/-- Walks that come to the same of some last tokens in one step yield the same, when those
tokens have the same token in front of them in both. -/
theorem declarationsFrom_rejoined {position further : Position} {token otherToken : Token}
    {rest otherRest left otherLeft : List Token} {declared : Option Declaration}
    (agree : Agree source other shift after)
    (ends : closing :: after <:+ token :: rest)
    (otherEnds : (closing :: after).map (Token.moved shift) <:+ otherToken :: otherRest)
    (within : left <:+ after) (moved : otherLeft = left.map (Token.moved shift))
    (steps : step source file position token rest =
      ⟨declared, { scope, previous := lastPassed (token :: rest) left }, left⟩)
    (otherSteps : step other file further otherToken otherRest =
      ⟨declared, { scope, previous := lastPassed (otherToken :: otherRest) otherLeft },
        otherLeft⟩) :
    declarationsFrom other file further (otherToken :: otherRest) =
      declarationsFrom source file position (token :: rest) := by
  subst moved
  obtain ⟨passed, last, split⟩ := exists_last closing within
  obtain ⟨front, ended⟩ := ends
  obtain ⟨otherFront, otherEnded⟩ := otherEnds
  have previous : lastPassed (token :: rest) left = some last := by
    rw [← ended, split, ← List.append_assoc, lastPassed_append]
  have otherPrevious : lastPassed (otherToken :: otherRest) (left.map (Token.moved shift)) =
      some (last.moved shift) := by
    rw [← otherEnded, split, List.map_append, List.map_cons, ← List.append_assoc,
      lastPassed_append]
  rw [declarationsFrom, declarationsFrom, steps, otherSteps, previous, otherPrevious]
  have alike : Position.Alike { scope, previous := some last }
      { scope, previous := some (last.moved shift) } := ⟨rfl, rfl, rfl, rfl⟩
  exact congrArg _ (declarationsFrom_moved file alike (agree.mono within.subset))

/-- Walks yield the same around a body or a block that both readers come to. -/
theorem WalkReaches.declarations_eq {opening : Token} {position further : Position}
    {read : List Token} (reaches : WalkReaches source file (opening :: fork.tail) position read)
    (opens : opening.isMark '{' = true) (rejoins : fork.Rejoins shift closing after)
    (agreeAfter : Agree source other shift after) (alike : position.Alike further)
    {tokens : List Token} (agree : Agree source other fork.place tokens)
    (given : fork.first tokens = read) :
    declarationsFrom other file further (fork.second tokens) =
      declarationsFrom source file position read := by
  induction reaches generalizing tokens further with
  | @members position token name brace rest inner introduces admitted named opened reaches =>
    have inside := reaches.length_le
    have shorter := (List.dropWhile_suffix (l := rest) (!·.isMark '{')).length_le
    rw [opened, List.length_cons] at shorter
    rw [List.length_cons] at inside
    obtain ⟨behind, rfl, split⟩ := Fork.first_eq_cons given (by rw [List.length_cons]; omega)
    obtain ⟨headed, rfl, rfl⟩ := Fork.first_eq_cons split.symm (by omega)
    obtain ⟨declared, within, moved⟩ := @readType_rejoined _ _ _ _ _ _ _ file
      (Text.lower token.text) position.modifiers position.comment _ _ _ _ _ named opened reaches
      opens rejoins agreeAfter (agree.mono (List.suffix_append [token, name] headed).subset)
    have steps := @step_type source file position token introduces admitted
      (fork.first (name :: headed))
    have otherSteps := @step_type other file further (token.moved fork.place) introduces
      (alike.excludes.trans admitted) (fork.second (name :: headed))
    rw [alike.scope, alike.modifiers, alike.comment] at otherSteps
    refine declarationsFrom_rejoined agreeAfter
      (rejoins.ends.trans (List.suffix_append (token :: name :: headed) _))
      (rejoins.otherEnds.trans (List.suffix_append ((token :: name :: headed).map _) _))
      within moved steps ?_
    rw [← declared]
    exact otherSteps
  | @function position token rest introduces behind =>
    have shorter := untilEnd_length_le functionGroup? endsFunction rest
    rw [behind, List.length_cons] at shorter
    obtain ⟨inner, rfl, rfl⟩ := Fork.first_eq_cons given (by omega)
    have stops : fork.Stops (untilEnd functionGroup? endsFunction (fork.first inner)) :=
      .inl (by rw [behind, List.length_cons]; omega)
    have leaves := untilEnd_leaves functionGroup? endsFunction (fun _ => rfl) (fun _ => rfl)
      inner stops
    rw [behind] at leaves
    obtain ⟨within, skipped⟩ := rejoins.skipBody opens
    have steps := @step_function source file position token introduces (fork.first inner)
    have otherSteps := @step_function other file further (token.moved fork.place) introduces
      (fork.second inner)
    rw [skipFunction_eq, behind] at steps
    rw [skipFunction_eq, leaves.brace, alike.scope] at otherSteps
    exact declarationsFrom_rejoined agreeAfter
      (rejoins.ends.trans (List.suffix_append (token :: inner) _))
      (rejoins.otherEnds.trans (List.suffix_append ((token :: inner).map _) _))
      within skipped steps otherSteps
  | @later position token rest reaches inductionHypothesis =>
    have inside := reaches.length_le
    have shorter := step_left_length_le source file position token rest
    rw [List.length_cons] at inside
    obtain ⟨inner, rfl, rfl⟩ := Fork.first_eq_cons given (by omega)
    have stops : fork.Stops (step source file position token (fork.first inner)).left :=
      .inl (by omega)
    obtain ⟨⟨more, within, left, otherLeft⟩, declared, alikeNext⟩ := step_leaves file alike
      (agree.mono (List.subset_cons_self token inner)) stops
    have onward := inductionHypothesis alikeNext
      (agree.mono (within.trans (List.suffix_cons token inner)).subset) left.symm
    rw [Fork.second_cons, declarationsFrom, declarationsFrom, declared, otherLeft, onward]

/-- The fork a few tokens earlier. -/
def Fork.earlier (fork : Fork) (tokens : List Token) : Fork :=
  ⟨fork.place, fork.first tokens, fork.second tokens⟩

/-- Skipping from a brace comes to one inside, and from there to the same of some last tokens
in both. -/
theorem Fork.Rejoins.earlier {opening : Token} {front : List Token}
    (rejoins : fork.Rejoins shift closing after) (opens : opening.isMark '{' = true)
    (waiting : unclosed [['}']] front ≠ []) :
    (fork.earlier (front ++ [opening])).Rejoins shift closing after where
  ends := rejoins.ends.trans (List.suffix_append _ _)
  otherEnds := rejoins.otherEnds.trans (List.suffix_append _ _)
  skips outer := by
    have stack := unclosed_append_outer waiting outer
    obtain ⟨closer, further, top⟩ := List.exists_cons_of_ne_nil waiting
    have inside (place : Nat → Nat) (tail : List Token) :
        skipBalanced (['}'] :: outer)
            ((front ++ [opening]).map (Token.moved place) ++ tail) =
          skipBalanced (['}'] :: closer :: (further ++ outer)) tail := by
      have left : unclosed (['}'] :: outer) (front.map (Token.moved place)) =
          closer :: (further ++ outer) := by
        rw [unclosed_moved, ← List.cons_append, ← top, ← stack]
        rfl
      rw [List.map_append, List.append_assoc, skipBalanced_append (by rw [left]; simp), left]
      simp only [List.map_cons, List.map_nil, List.cons_append, List.nil_append,
        skipBalanced_cons, Token.moved_closer?, Token.closer?_of_isMark opens]
    have first := inside id fork.tail
    have second := inside fork.place fork.other
    rw [map_moved_id] at first
    simp only [Fork.earlier, Fork.first, Fork.second]
    rw [first, second]
    exact rejoins.skips _

/-- Declarations are the same around a body or a block that the reader comes to. -/
theorem Reaches.declarations_eq {before goal : List Token} {opening : Token}
    (reaches : Reaches source file before goal) (given : goal = opening :: fork.tail)
    (opens : opening.isMark '{' = true) (rejoins : fork.Rejoins shift closing after)
    (agreeAfter : Agree source other shift after)
    (agree : Agree source other fork.place (before ++ [opening])) :
    declarationsFrom other file {} (fork.second (before ++ [opening])) =
      declarations source file := by
  induction reaches generalizing fork opening with
  | @outside before goal whole reaches =>
    subst given
    apply reaches.declarations_eq opens rejoins agreeAfter ⟨rfl, rfl, rfl, rfl⟩ agree
    rw [whole]
    simp [Fork.first]
  | @inside before front goal brace _ braceOpens waiting inductionHypothesis =>
    subst given
    have regrouped : before ++ brace :: front ++ [opening] =
        (before ++ [brace]) ++ (front ++ [opening]) := by simp
    rw [regrouped] at agree ⊢
    rw [← inductionHypothesis (by simp [Fork.earlier, Fork.first]) braceOpens
      (rejoins.earlier opens waiting) (agree.mono (List.subset_append_left _ _))]
    simp [Fork.earlier, Fork.second]

/-- The tokens that a reader comes to are the last ones of the source. -/
theorem Reaches.whole {before goal : List Token} (reaches : Reaches source file before goal) :
    tokens source = before ++ goal := by
  induction reaches with
  | outside whole _ => exact whole
  | inside _ _ _ inductionHypothesis =>
    rw [inductionHypothesis, List.append_assoc, List.cons_append]

/-- Two bodies of one brace end at the same closing brace. -/
theorem rejoins_of_unclosed {place : Nat → Nat} {body replacing : List Token}
    (enclosed : unclosed [['}']] body = [['}']])
    (replacingEnclosed : unclosed [['}']] replacing = [['}']])
    (closes : closing.Closes ['}']) :
    (Fork.mk place (body ++ closing :: after)
      (replacing ++ (closing :: after).map (Token.moved shift))).Rejoins shift closing after where
  ends := List.suffix_append body _
  otherEnds := List.suffix_append replacing _
  skips outer := by
    have otherCloses : (closing.moved shift).Closes ['}'] := closes
    have stops : (Fork.whole shift).Stops (skipBalanced outer ((Fork.whole shift).first after)) :=
      Fork.stops_whole shift _
    have leaves := skipBalanced_leaves outer after stops
    rw [Fork.first_whole, Fork.second_whole, Fork.leaves_whole] at leaves
    rw [List.map_cons, skipBalanced_enclosed enclosed closes,
      skipBalanced_enclosed replacingEnclosed otherCloses]
    exact leaves

end Rejoining

end Docblock.Source
