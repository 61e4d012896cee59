import Docblock.Proofs.Source.Preambles

/-!
# A cursor over the tokens

Readers are described here once more, by what they do to a cursor that stands between two
tokens. What is still to be done is a stack of tasks: one for each loop of the reader, and
one for each place where it goes on behind such a loop. A task looks at the token behind
the cursor, moves the cursor by one token at most and leaves other tasks in its place.

Two tasks move the cursor back. The loop over members does so at a token that starts a
statement, since skipping a statement reads that token again; and skipping a statement does
so at a closing brace, which the loop over members is to find. So the cursor does not go
forward with each move, and that it never goes round in a circle is to be proved.

A cursor machine keeps places only. It has no scope, no comments and no names, as none of
these have a part in where the reader goes.
-/

namespace Docblock.Source

/-- What a reader has to do: its loops, the places behind them, and a step back. -/
inductive Task
  | declarations | space | imports | importList | function | typeName | header
  | body | method | methodName | parameterList | parameters (depth : Nat) | colon
  | returnType | methodBody
  | statement | balanced (closers : List Text) | back
deriving DecidableEq

/-- What a task does to the cursor. -/
inductive Move
  | stay | next | back
deriving DecidableEq

/-- Where the cursor is behind a move. -/
def Move.from : Move → Int → Int
  | .stay, place => place
  | .next, place => place + 1
  | .back, place => place - 1

/-- What a walk has to do behind a token, which stands behind another one or is the first,
before it goes on. -/
def Token.tasks (previous : Option Token) (token : Token) : List Task :=
  let word := Text.lower token.text
  if token.kind = .doc then []
  else if token.kind = .attributeOpening then [.balanced [[']']]]
  else if token.kind = .name ∧ classModifiers.contains word then []
  else if token.kind = .name ∧ typeWords.contains word then
    if previous.any fun t => excludesType.contains (Text.lower t.text) then [] else [.typeName]
  else if token.kind = .name ∧ word = "namespace".toList then [.space]
  else if token.kind = .name ∧ word = "use".toList then [.imports]
  else if token.kind = .name ∧ word = "function".toList then [.function]
  else []

/-- What a task does at a token, which stands behind another one or is the first: the move of
the cursor, and the tasks in its place. -/
def Task.act (previous : Option Token) (token : Token) : Task → Move × List Task
  | .declarations => (.next, token.tasks previous ++ [.declarations])
  | .space => if token.kind = .name then (.next, []) else (.stay, [])
  | .imports =>
    if token.isMark '(' then (.stay, [])
    else if isOtherImport token.text then (.stay, [.statement])
    else (.stay, [.importList])
  | .importList => (.next, if token.isMark ';' then [] else [.importList])
  | .function =>
    (.next,
      if token.isMark '(' then [.balanced [[')']], .function]
      else if token.isMark '{' then [.balanced [['}']]]
      else if token.isMark ';' then []
      else [.function])
  | .typeName => if token.kind = .name then (.next, [.header]) else (.stay, [])
  | .header => (.next, if token.isMark '{' then [.body] else [.header])
  | .body =>
    (.next,
      match token.starts with
      | .comment | .modifier => [.body]
      | .group => [.balanced [[']']], .body]
      | .closing => []
      | .method => [.method, .body]
      | .statement => [.back, .statement, .body])
  | .method =>
    (.next,
      if token.isMark '&' then [.methodName]
      else if token.kind = .name then [.parameterList]
      else [])
  | .methodName => (.next, if token.kind = .name then [.parameterList] else [])
  | .parameterList => (.next, if token.isMark '(' then [.parameters 0, .colon] else [.colon])
  | .parameters depth =>
    (.next,
      if token.kind = .attributeOpening then [.balanced [[']']], .parameters depth]
      else if (closerOf token.text).isSome then [.parameters (depth + 1)]
      else if token.isMark ')' || token.isMark ']' || token.isMark '}' then
        if depth = 0 then [] else [.parameters (depth - 1)]
      else [.parameters depth])
  | .colon => if token.isMark ':' then (.next, [.returnType]) else (.stay, [.methodBody])
  | .returnType =>
    if endsReturnType token then (.stay, [.methodBody]) else (.next, [.returnType])
  | .methodBody => (.next, if token.isMark '{' then [.balanced [['}']]] else [])
  | .statement =>
    (.next,
      if token.isMark ';' then []
      else if token.isMark '{' then [.balanced [['}']]]
      else if token.isMark '(' then [.balanced [[')']], .statement]
      else if token.isMark '[' then [.balanced [[']']], .statement]
      else if token.kind = .attributeOpening then [.balanced [[']']], .statement]
      else if token.isMark '}' then [.back]
      else [.statement])
  | .balanced [] => (.stay, [])
  | .balanced (closer :: outer) =>
    (.next, [.balanced
      (match token.closer? with
      | some inner => inner :: closer :: outer
      | none => if token.text = closer then outer else closer :: outer)])
  | .back => (.back, [])

/-- What a task does behind the last token. -/
def Task.leave : Task → Move × List Task
  | .parameterList => (.stay, [.colon])
  | .colon | .returnType => (.stay, [.methodBody])
  | .back => (.back, [])
  | _ => (.stay, [])

/-- A cursor between two tokens, with what is still to be done there. -/
structure Cursor where
  place : Int
  tasks : List Task

/-- The token behind a place. -/
def tokenAt? (found : List Token) (place : Int) : Option Token :=
  if 0 ≤ place then found[place.toNat]? else none

namespace Cursor

/-- The first task does what it does where the cursor is. -/
def advance (found : List Token) (cursor : Cursor) : Cursor :=
  match cursor.tasks with
  | [] => cursor
  | task :: rest =>
    let did :=
      match tokenAt? found cursor.place with
      | none => task.leave
      | some token => task.act (tokenAt? found (cursor.place - 1)) token
    ⟨did.1.from cursor.place, did.2 ++ rest⟩

/-- Where the cursor is after some number of moves. -/
def run (found : List Token) : Nat → Cursor → Cursor
  | 0, cursor => cursor
  | steps + 1, cursor => run found steps (cursor.advance found)

/-- The reader starts in front of the first token. -/
def start : Cursor := ⟨0, [.declarations]⟩

end Cursor

section Bounds

variable {found : List Token}

/-- A cursor that is not outside of the tokens. A step back is the first thing to be done or
nothing that is to be done, and is not to be done in front of the first token. -/
structure Cursor.IsWithin (found : List Token) (cursor : Cursor) : Prop where
  lower : 0 ≤ cursor.place
  upper : cursor.place ≤ found.length
  first : .back ∉ cursor.tasks.tail
  moved : cursor.tasks.head? = some .back → 0 < cursor.place

/-- At a token a task leaves a step back only as the first thing to be done, and only when it
moves forward; only a step back moves back. -/
theorem Task.act_back (previous : Option Token) (token : Token) (task : Task) :
    .back ∉ (task.act previous token).2.tail ∧
      ((task.act previous token).2.head? = some .back →
        (task.act previous token).1 = .next) ∧
      ((task.act previous token).1 = .back → task = .back) := by
  cases task with
  | declarations =>
    simp only [act, Token.tasks]
    repeat' split
    all_goals simp
  | balanced closers => cases closers <;> simp [act]
  | body =>
    simp only [act]
    cases token.starts <;> simp
  | _ =>
    simp only [act]
    repeat' split
    all_goals simp

/-- Behind the last token no task moves forward or leaves a step back. -/
theorem Task.leave_back (task : Task) :
    task.leave.1 ≠ .next ∧ .back ∉ task.leave.2 ∧ (task.leave.1 = .back → task = .back) := by
  cases task <;> simp [leave]

/-- There is a token in front of the end only. -/
theorem tokenAt?_eq_some {place : Int} {token : Token} (there : tokenAt? found place = some token) :
    0 ≤ place ∧ place < found.length := by
  rw [tokenAt?] at there
  split at there
  · rename_i lower
    obtain ⟨inside, -⟩ := List.getElem?_eq_some_iff.mp there
    exact ⟨lower, by omega⟩
  · cases there

/-- A move of a task leaves the cursor within the tokens, when the task moves back only as a
step back and forward only at a token. -/
theorem Cursor.IsWithin.moved_by {task : Task} {rest first : List Task} {place : Int}
    {move : Move} (within : Cursor.IsWithin found ⟨place, task :: rest⟩)
    (alone : .back ∉ first.tail) (forward : first.head? = some .back → move = .next)
    (backward : move = .back → task = .back) (token : move = .next → place < found.length) :
    Cursor.IsWithin found ⟨move.from place, first ++ rest⟩ := by
  obtain ⟨lower, upper, none, moved⟩ := within
  simp only [List.tail_cons, List.head?_cons, Option.some.injEq] at lower upper none moved
  constructor
  · cases move with
    | stay => exact lower
    | next => exact Int.add_nonneg lower (by decide)
    | back => exact Int.sub_nonneg.mpr (moved (backward rfl))
  · cases move with
    | stay => exact upper
    | next => exact token rfl
    | back => exact Int.le_trans (Int.sub_le_self place (by decide)) upper
  · cases first with
    | nil => exact fun listed => none (List.mem_of_mem_tail listed)
    | cons task more =>
      rintro listed
      rcases List.mem_append.mp listed with inMore | inRest
      · exact alone inMore
      · exact none inRest
  · cases first with
    | nil => exact fun starts => absurd (List.mem_of_head? starts) none
    | cons task more =>
      intro starts
      rw [forward starts]
      exact Int.lt_add_one_of_le lower

/-- A cursor that is within the tokens stays there. -/
theorem Cursor.IsWithin.advance {cursor : Cursor} (within : cursor.IsWithin found) :
    (cursor.advance found).IsWithin found := by
  obtain ⟨place, tasks⟩ := cursor
  cases tasks with
  | nil => exact within
  | cons task rest =>
    simp only [Cursor.advance]
    cases there : tokenAt? found place with
    | none =>
      obtain ⟨still, none, backward⟩ := task.leave_back
      apply within.moved_by
      · exact fun listed => none (List.mem_of_mem_tail listed)
      · exact fun starts => absurd (List.mem_of_head? starts) none
      · exact backward
      · exact fun next => absurd next still
    | some token =>
      obtain ⟨alone, forward, backward⟩ := task.act_back (tokenAt? found (place - 1)) token
      exact within.moved_by alone forward backward fun _ => (tokenAt?_eq_some there).2

/-- Wherever the reader comes to, the cursor is within the tokens. -/
theorem Cursor.run_isWithin (found : List Token) (steps : Nat) :
    (run found steps start).IsWithin found := by
  have onward (cursor : Cursor) (within : cursor.IsWithin found) :
      (run found steps cursor).IsWithin found := by
    induction steps generalizing cursor with
    | zero => exact within
    | succ steps inductionHypothesis => exact inductionHypothesis _ within.advance
  apply onward
  constructor
  · exact Int.le_refl 0
  · exact Int.natCast_nonneg _
  · exact List.not_mem_nil
  · simp [start]

end Bounds

section Passes

variable {found : List Token} {below : List Task}

/-- The cursor moves until nothing more is to be done than some tasks, which play no part in
that; where it is then for the first time comes last. -/
inductive Passes (found : List Token) (below : List Task) : Cursor → Cursor → Prop
  | done {cursor : Cursor} (stack : cursor.tasks = below) : Passes found below cursor cursor
  | step {cursor further : Cursor} {above : List Task} (more : above ≠ [])
      (stack : cursor.tasks = above ++ below)
      (onward : Passes found below (cursor.advance found) further) :
      Passes found below cursor further

namespace Passes

variable {cursor further other : Cursor}

/-- Some tasks are done while those below them are still to be done, and then these. -/
theorem followed {more : List Task} (first : Passes found (more ++ below) cursor further)
    (second : Passes found below further other) : Passes found below cursor other := by
  induction first with
  | done => exact second
  | @step cursor _ above some stack _ inductionHypothesis =>
    refine .step (List.append_ne_nil_of_left_ne_nil some more) ?_ (inductionHypothesis second)
    rw [stack, List.append_assoc]

/-- A cursor has tasks to do above those that it stops at. -/
theorem exists_above (passes : Passes found below cursor further) :
    ∃ above, cursor.tasks = above ++ below := by
  cases passes with
  | done stack => exact ⟨[], stack⟩
  | @step _ _ above _ stack => exact ⟨above, stack⟩

/-- There is one place only where the tasks above are done for the first time. -/
theorem unique (first : Passes found below cursor further)
    (second : Passes found below cursor other) : further = other := by
  have apart {cursor : Cursor} {above : List Task} (more : above ≠ [])
      (stack : cursor.tasks = above ++ below) : cursor.tasks ≠ below := by
    rw [stack]
    exact fun same => more (List.append_left_eq_self.mp same)
  induction first with
  | done stack =>
    cases second with
    | done => rfl
    | step more above => exact absurd stack (apart more above)
  | step more above _ inductionHypothesis =>
    cases second with
    | done stack => exact absurd stack (apart more above)
    | step _ _ onward => exact inductionHypothesis onward

/-- What is done is done after some number of moves. -/
theorem exists_run (passes : Passes found below cursor further) :
    ∃ steps, cursor.run found steps = further := by
  induction passes with
  | done => exact ⟨0, rfl⟩
  | step _ _ _ inductionHypothesis =>
    obtain ⟨steps, reached⟩ := inductionHypothesis
    exact ⟨steps + 1, reached⟩

end Passes

end Passes

section Performs

variable {found left middle further rest : List Token} {token : Token} {task : Task}
  {tasks others : List Task}

/-- The place in front of the last tokens. -/
def placeOf (found left : List Token) : Int := found.length - left.length

/-- Behind a token the place is the next one. -/
theorem placeOf_cons (found : List Token) (token : Token) (rest : List Token) :
    placeOf found (token :: rest) + 1 = placeOf found rest := by
  simp only [placeOf, List.length_cons]
  omega

/-- The first of the last tokens is the one behind their place. -/
theorem tokenAt?_placeOf (within : left <:+ found) :
    tokenAt? found (placeOf found left) = left.head? := by
  obtain ⟨front, rfl⟩ := within
  have place : placeOf (front ++ left) left = front.length := by
    simp only [placeOf, List.length_append]
    omega
  rw [tokenAt?, place, if_pos (Int.natCast_nonneg _), Int.toNat_natCast,
    List.getElem?_append_right (Nat.le_refl _), Nat.sub_self, List.head?_eq_getElem?]

/-- The last of the first tokens is the one in front of the place behind them. -/
theorem tokenAt?_before {front : List Token} (whole : found = front ++ left) :
    tokenAt? found (placeOf found left - 1) = front.getLast? := by
  rcases List.eq_nil_or_concat front with rfl | ⟨more, last, rfl⟩
  · have outside : ¬0 ≤ placeOf found left - 1 := by
      rw [whole, List.nil_append, placeOf]
      omega
    rw [tokenAt?, if_neg outside, List.getLast?_nil]
  · rw [List.concat_eq_append, List.append_assoc, List.singleton_append] at whole
    have within : last :: left <:+ found := whole ▸ List.suffix_append more (last :: left)
    rw [← placeOf_cons found last left, Int.add_sub_cancel, tokenAt?_placeOf within,
      List.head?_cons, List.concat_eq_append, List.getLast?_concat]

/-- In front of a token the first task does what it does at that token. -/
theorem Cursor.advance_cons {move : Move} (within : token :: rest <:+ found)
    (acts : task.act (tokenAt? found (placeOf found (token :: rest) - 1)) token = (move, tasks))
    (below : List Task) :
    Cursor.advance found ⟨placeOf found (token :: rest), task :: below⟩ =
      ⟨move.from (placeOf found (token :: rest)), tasks ++ below⟩ := by
  simp only [Cursor.advance, tokenAt?_placeOf within, List.head?_cons, acts]

/-- Behind the last token the first task does what it does there. -/
theorem Cursor.advance_nil (found : List Token) (task : Task) (below : List Task) :
    Cursor.advance found ⟨placeOf found [], task :: below⟩ =
      ⟨task.leave.1.from (placeOf found []), task.leave.2 ++ below⟩ := by
  simp only [Cursor.advance, tokenAt?_placeOf List.nil_suffix, List.head?_nil]

/-- A step back behind a token comes to the place in front of it. -/
theorem Cursor.advance_back (found : List Token) (place : Int) (below : List Task) :
    Cursor.advance found ⟨place + 1, .back :: below⟩ = ⟨place, below⟩ := by
  have cancelled : Move.back.from (place + 1) = place := Int.add_sub_cancel place 1
  simp only [Cursor.advance]
  cases tokenAt? found (place + 1) with
  | none => simp only [Task.leave, cancelled, List.nil_append]
  | some token => simp only [Task.act, cancelled, List.nil_append]

/-- A move forward with a step back behind it comes to the same place again. -/
theorem Cursor.advance_returned (within : token :: rest <:+ found)
    (acts : task.act (tokenAt? found (placeOf found (token :: rest) - 1)) token =
      (.next, .back :: tasks)) (below : List Task) :
    Cursor.advance found
        (Cursor.advance found ⟨placeOf found (token :: rest), task :: below⟩) =
      ⟨placeOf found (token :: rest), tasks ++ below⟩ := by
  rw [Cursor.advance_cons within acts below, List.cons_append]
  exact Cursor.advance_back found _ _

/-- Tasks are done on the tokens that are left, whatever is to be done below them, and leave
last ones of these. -/
def Performs (found : List Token) (tasks : List Task) (left further : List Token) : Prop :=
  left <:+ found → further <:+ left ∧ ∀ below,
    Passes found below ⟨placeOf found left, tasks ++ below⟩ ⟨placeOf found further, below⟩

namespace Performs

/-- Without tasks nothing is done. -/
theorem nothing : Performs found [] left left :=
  fun _ => ⟨List.suffix_refl left, fun _ => .done rfl⟩

/-- Tasks are done one after the other. -/
theorem append (first : Performs found tasks left middle)
    (second : Performs found others middle further) :
    Performs found (tasks ++ others) left further := by
  intro within
  obtain ⟨behind, passes⟩ := first within
  obtain ⟨behindMiddle, onward⟩ := second (behind.trans within)
  refine ⟨behindMiddle.trans behind, fun below => ?_⟩
  rw [List.append_assoc]
  exact (passes (others ++ below)).followed (onward below)

/-- A task that moves forward leaves the tokens behind the first one to those in its place. -/
theorem next (acts : task.act (tokenAt? found (placeOf found (token :: rest) - 1)) token =
      (.next, tasks)) (onward : Performs found tasks rest further) :
    Performs found [task] (token :: rest) further := by
  intro within
  obtain ⟨behind, passes⟩ := onward ((List.suffix_cons token rest).trans within)
  refine ⟨behind.trans (List.suffix_cons token rest), fun below => ?_⟩
  apply Passes.step (List.cons_ne_nil task []) rfl
  have moved := passes below
  rw [← placeOf_cons found token rest] at moved
  exact (Cursor.advance_cons within acts below).symm ▸ moved

/-- A task that does not move the cursor leaves the same tokens to those in its place. -/
theorem stay (acts : task.act (tokenAt? found (placeOf found (token :: rest) - 1)) token =
      (.stay, tasks)) (onward : Performs found tasks (token :: rest) further) :
    Performs found [task] (token :: rest) further := by
  intro within
  obtain ⟨behind, passes⟩ := onward within
  refine ⟨behind, fun below => ?_⟩
  apply Passes.step (List.cons_ne_nil task []) rfl
  exact (Cursor.advance_cons within acts below).symm ▸ passes below

/-- A task that moves forward, with a step back as the first one in its place, leaves the same
tokens to the others. -/
theorem returned (acts : task.act (tokenAt? found (placeOf found (token :: rest) - 1)) token =
      (.next, .back :: tasks)) (onward : Performs found tasks (token :: rest) further) :
    Performs found [task] (token :: rest) further := by
  intro within
  obtain ⟨behind, passes⟩ := onward within
  refine ⟨behind, fun below => ?_⟩
  apply Passes.step (List.cons_ne_nil task []) rfl
  have stack : (Cursor.advance found ⟨placeOf found (token :: rest), task :: below⟩).tasks =
      .back :: tasks ++ below := by
    rw [Cursor.advance_cons within acts below]
  apply Passes.step (List.cons_ne_nil .back tasks) stack
  exact (Cursor.advance_returned within acts below).symm ▸ passes below

/-- Behind the last token a task leaves none to those in its place. -/
theorem leave (stays : task.leave.1 = .stay) (onward : Performs found task.leave.2 [] []) :
    Performs found [task] [] [] := by
  intro within
  obtain ⟨-, passes⟩ := onward within
  refine ⟨List.suffix_refl [], fun below => ?_⟩
  apply Passes.step (List.cons_ne_nil task []) rfl
  have left := Cursor.advance_nil found task below
  rw [stays] at left
  exact left.symm ▸ passes below

end Performs

/-- A loop goes round once on the tokens that are left: it moves at least once, and is to go on
with last ones of these when it is the first task again. -/
def GoesRound (found : List Token) (loop : Task) (left further : List Token) : Prop :=
  left <:+ found → further <:+ left ∧ ∀ below,
    Passes found (loop :: below) (Cursor.advance found ⟨placeOf found left, loop :: below⟩)
      ⟨placeOf found further, loop :: below⟩

namespace GoesRound

variable {loop : Task}

/-- A loop goes round when it moves forward and does some tasks before it goes on. -/
theorem next (acts : loop.act (tokenAt? found (placeOf found (token :: rest) - 1)) token =
      (.next, tasks ++ [loop])) (onward : Performs found tasks rest further) :
    GoesRound found loop (token :: rest) further := by
  intro within
  obtain ⟨behind, passes⟩ := onward ((List.suffix_cons token rest).trans within)
  refine ⟨behind.trans (List.suffix_cons token rest), fun below => ?_⟩
  have moved := passes (loop :: below)
  rw [← placeOf_cons found token rest] at moved
  rw [Cursor.advance_cons within acts below, List.append_assoc]
  exact moved

/-- A loop goes round when it steps back and does some tasks before it goes on. -/
theorem returned (acts : loop.act (tokenAt? found (placeOf found (token :: rest) - 1)) token =
      (.next, .back :: (tasks ++ [loop])))
    (onward : Performs found tasks (token :: rest) further) :
    GoesRound found loop (token :: rest) further := by
  intro within
  obtain ⟨behind, passes⟩ := onward within
  refine ⟨behind, fun below => ?_⟩
  have stack : (Cursor.advance found ⟨placeOf found (token :: rest), loop :: below⟩).tasks =
      .back :: tasks ++ loop :: below := by
    rw [Cursor.advance_cons within acts below]
    simp
  apply Passes.step (List.cons_ne_nil .back tasks) stack
  rw [Cursor.advance_returned within acts below, List.append_assoc]
  exact passes (loop :: below)

/-- A loop that goes round and is then done is done. -/
theorem performs (round : GoesRound found loop left middle)
    (onward : Performs found [loop] middle further) : Performs found [loop] left further := by
  intro within
  obtain ⟨behind, passes⟩ := round within
  obtain ⟨behindMiddle, done⟩ := onward (behind.trans within)
  refine ⟨behindMiddle.trans behind, fun below => ?_⟩
  apply Passes.step (List.cons_ne_nil loop []) rfl
  have first : Passes found ([loop] ++ below) _ _ := passes below
  exact first.followed (done below)

end GoesRound

end Performs

end Docblock.Source
