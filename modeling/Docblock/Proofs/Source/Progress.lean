import Docblock.Proofs.Source.Cursor

/-!
# The reader goes forward

Each function of the reader is what one task of the cursor machine does: it leaves the tokens
behind the place that the cursor comes to. From this follows what the loops do. From one
round to the next the cursor of the walk, and that of the loop over members, goes forward by
at least one token, as what a step leaves is shorter; and the reader comes to an end.

This holds for every list of tokens, not only for those of a source. Steps back are no
exception: behind each of them a token is read again that takes the cursor forward.
-/

namespace Docblock.Source

variable {found : List Token}

section Skipping

/-- Waiting for closers is skipping to behind them. -/
theorem performs_balanced (closers : List Text) (left : List Token) :
    Performs found [.balanced closers] left (skipBalanced closers left) := by
  induction left generalizing closers with
  | nil =>
    have ended : skipBalanced closers [] = [] := by cases closers <;> rfl
    rw [ended]
    exact .leave rfl .nothing
  | cons token rest inductionHypothesis =>
    cases closers with
    | nil => exact .stay rfl .nothing
    | cons closer outer =>
      rw [skipBalanced_cons]
      apply Performs.next rfl
      cases token.closer? with
      | some inner => exact inductionHypothesis _
      | none =>
        simp only
        split
        · exact inductionHypothesis _
        · exact inductionHypothesis _

/-- The task of skipping a statement skips it; a closing brace is left to be read again. -/
theorem performs_statement (left : List Token) :
    Performs found [.statement] left (skipStatement left) := by
  fun_induction skipStatement left with
  | case1 => exact .leave rfl .nothing
  | case2 token rest semicolon =>
    exact .next (by simp only [Task.act, semicolon, if_true]) .nothing
  | case3 token rest semicolon brace =>
    refine .next ?_ (performs_balanced [['}']] rest)
    simp only [Task.act, semicolon, brace, if_true, if_false, Bool.false_eq_true]
  | case4 token rest semicolon brace parenthesis inductionHypothesis =>
    refine .next ?_ ((performs_balanced [[')']] rest).append inductionHypothesis)
    simp only [Task.act, semicolon, brace, parenthesis, if_true, if_false, Bool.false_eq_true,
      List.cons_append, List.nil_append]
  | case5 token rest semicolon brace parenthesis bracket inductionHypothesis =>
    refine .next ?_ ((performs_balanced [[']']] rest).append inductionHypothesis)
    simp only [Task.act, semicolon, brace, parenthesis, bracket, if_true, if_false,
      Bool.false_eq_true, List.cons_append, List.nil_append]
  | case6 token rest semicolon brace parenthesis bracket group inductionHypothesis =>
    refine .next ?_ ((performs_balanced [[']']] rest).append inductionHypothesis)
    simp only [Task.act, semicolon, brace, parenthesis, bracket, group, if_true, if_false,
      Bool.false_eq_true, List.cons_append, List.nil_append]
  | case7 token rest semicolon brace parenthesis bracket group closing =>
    refine .returned ?_ .nothing
    simp only [Task.act, semicolon, brace, parenthesis, bracket, group, closing, if_true,
      if_false, Bool.false_eq_true]
  | case8 token rest semicolon brace parenthesis bracket group closing inductionHypothesis =>
    refine .next ?_ inductionHypothesis
    simp only [Task.act, semicolon, brace, parenthesis, bracket, group, closing, if_false,
      Bool.false_eq_true]

/-- The task of skipping a function skips it. -/
theorem performs_function (left : List Token) :
    Performs found [.function] left (skipFunction left) := by
  fun_induction skipFunction left with
  | case1 => exact .leave rfl .nothing
  | case2 token rest parenthesis inductionHypothesis =>
    refine .next ?_ ((performs_balanced [[')']] rest).append inductionHypothesis)
    simp only [Task.act, parenthesis, if_true, List.cons_append, List.nil_append]
  | case3 token rest parenthesis brace =>
    refine .next ?_ (performs_balanced [['}']] rest)
    simp only [Task.act, parenthesis, brace, if_true, if_false, Bool.false_eq_true]
  | case4 token rest parenthesis brace semicolon =>
    refine .next ?_ .nothing
    simp only [Task.act, parenthesis, brace, semicolon, if_true, if_false, Bool.false_eq_true]
  | case5 token rest parenthesis brace semicolon inductionHypothesis =>
    refine .next ?_ inductionHypothesis
    simp only [Task.act, parenthesis, brace, semicolon, if_false, Bool.false_eq_true]

end Skipping

section Statements

/-- The task behind the word of a namespace reads its name, if there is one. -/
theorem performs_space (left : List Token) :
    Performs found [.space] left (readNamespace left).2 := by
  cases left with
  | nil => exact .leave rfl .nothing
  | cons token rest =>
    rw [readNamespace]
    by_cases named : token.kind = .name
    · rw [if_pos named]
      exact .next (by simp only [Task.act, named, if_true]) .nothing
    · rw [if_neg named]
      exact .stay (by simp only [Task.act, named, if_false]) .nothing

/-- The list of an import statement goes up to a semicolon, and through it. -/
theorem performs_importList (left : List Token) :
    Performs found [.importList] left
      (left.drop ((left.takeWhile (!·.isMark ';')).length + 1)) := by
  induction left with
  | nil => exact .leave rfl .nothing
  | cons token rest inductionHypothesis =>
    by_cases semicolon : token.isMark ';' = true
    · have ended : (token :: rest).takeWhile (!·.isMark ';') = [] := by simp [semicolon]
      rw [ended]
      exact .next (by simp only [Task.act, semicolon, if_true]) .nothing
    · have onward : (token :: rest).takeWhile (!·.isMark ';') =
          token :: rest.takeWhile (!·.isMark ';') := by simp [semicolon]
      rw [onward]
      exact .next (by simp only [Task.act, semicolon, if_false, Bool.false_eq_true])
        inductionHypothesis

/-- The task behind the word of an import statement reads or skips that statement. -/
theorem performs_imports (imports : Keyed Text) (left : List Token) :
    Performs found [.imports] left (readImports imports left).2 := by
  cases left with
  | nil => exact .leave rfl .nothing
  | cons token rest =>
    simp only [readImports]
    by_cases parenthesis : token.isMark '(' = true
    · rw [if_pos parenthesis]
      exact .stay (by simp only [Task.act, parenthesis, if_true]) .nothing
    · rw [if_neg parenthesis]
      by_cases other : isOtherImport token.text = true
      · rw [if_pos other]
        refine .stay ?_ (performs_statement (token :: rest))
        simp only [Task.act, parenthesis, other, if_true, if_false, Bool.false_eq_true]
      · rw [if_neg other]
        refine .stay ?_ (performs_importList (token :: rest))
        simp only [Task.act, parenthesis, other, if_false, Bool.false_eq_true]

end Statements

section Members

variable {scope : Scope} {source : Text}

/-- A parameter list is read through its closing bracket. -/
theorem performs_parameters (depth : Nat) (left : List Token) :
    Performs found [.parameters depth] left (parameterRuns depth left).2 := by
  fun_induction parameterRuns depth left with
  | case1 => exact .leave rfl .nothing
  | case2 depth token rest group inductionHypothesis =>
    refine .next ?_ ((performs_balanced [[']']] rest).append inductionHypothesis)
    simp only [Task.act, group, if_true, List.cons_append, List.nil_append]
  | case3 depth token rest group opens inductionHypothesis =>
    rw [consRun_snd]
    refine .next ?_ inductionHypothesis
    simp only [Task.act, group, opens, if_true, if_false]
  | case4 token rest group opens closes =>
    refine .next ?_ .nothing
    simp only [Task.act, group, opens, closes, if_true, if_false, Bool.false_eq_true]
  | case5 depth token rest group opens closes nested inductionHypothesis =>
    rw [consRun_snd]
    refine .next ?_ inductionHypothesis
    simp only [Task.act, group, opens, closes, nested, if_true, if_false, Bool.false_eq_true]
  | case6 depth token rest group opens closes comma split inductionHypothesis =>
    obtain ⟨-, rfl⟩ : token.isMark ',' = true ∧ depth = 0 := by simpa using comma
    refine .next ?_ inductionHypothesis
    simp only [Task.act, group, opens, closes, if_false, Bool.false_eq_true]
  | case7 depth token rest group opens closes comma inductionHypothesis =>
    rw [consRun_snd]
    refine .next ?_ inductionHypothesis
    simp only [Task.act, group, opens, closes, if_false, Bool.false_eq_true]

/-- The body of a method is skipped, or the one token in its place. -/
theorem performs_methodBody (left : List Token) :
    Performs found [.methodBody] left (skipBody left) := by
  cases left with
  | nil => exact .leave rfl .nothing
  | cons token rest =>
    rw [skipBody]
    by_cases brace : token.isMark '{' = true
    · rw [if_pos brace]
      exact .next (by simp only [Task.act, brace, if_true]) (performs_balanced _ rest)
    · rw [if_neg brace]
      exact .next (by simp only [Task.act, brace, if_false, Bool.false_eq_true]) .nothing

/-- A return type goes up to the body, which is skipped then. -/
theorem performs_returnType (left : List Token) :
    Performs found [.returnType] left (skipBody (left.dropWhile (!endsReturnType ·))) := by
  induction left with
  | nil => exact .leave rfl (performs_methodBody [])
  | cons token rest inductionHypothesis =>
    by_cases ends : endsReturnType token = true
    · rw [List.dropWhile_cons_of_neg (by simp [ends])]
      exact .stay (by simp only [Task.act, ends, if_true]) (performs_methodBody _)
    · rw [List.dropWhile_cons_of_pos (by simp [ends])]
      exact .next (by simp only [Task.act, ends, if_false, Bool.false_eq_true])
        inductionHypothesis

/-- Behind a parameter list there may be a return type, and then the body is skipped. -/
theorem performs_colon (left : List Token) :
    Performs found [.colon] left (skipBody (returnTokens left).2) := by
  cases left with
  | nil => exact .leave rfl (performs_methodBody [])
  | cons token rest =>
    rw [returnTokens]
    by_cases colon : token.isMark ':' = true
    · rw [if_pos colon]
      exact .next (by simp only [Task.act, colon, if_true]) (performs_returnType rest)
    · rw [if_neg colon]
      exact .stay (by simp only [Task.act, colon, if_false, Bool.false_eq_true])
        (performs_methodBody _)

/-- Behind its name a method is read through its body. -/
theorem performs_parameterList (scope : Scope) (source : Text) (left : List Token) :
    Performs found [.parameterList] left
      (skipBody (returnTokens (parameterList scope source left).2).2) := by
  cases left with
  | nil => exact .leave rfl (performs_colon [])
  | cons token rest =>
    rw [parameterList]
    by_cases parenthesis : token.isMark '(' = true
    · rw [if_pos parenthesis]
      refine .next ?_ ((performs_parameters 0 rest).append (performs_colon _))
      simp only [Task.act, parenthesis, if_true, List.cons_append, List.nil_append]
    · rw [if_neg parenthesis]
      exact .next (by simp only [Task.act, parenthesis, if_false, Bool.false_eq_true])
        (performs_colon rest)

/-- A method is read from its name on, or the token in its place is passed over. -/
theorem performs_methodName (scope : Scope) (source : Text) (modifiers : List Text)
    (comment : Text) (left : List Token) :
    let read := readNamed scope source modifiers comment left
    Performs found [.methodName] left (if read.1.isSome then skipBody read.2 else read.2) := by
  cases left with
  | nil => exact .leave rfl .nothing
  | cons token rest =>
    by_cases named : token.kind = .name
    · simp only [readNamed, named, if_true, Option.isSome_some]
      exact .next (by simp only [Task.act, named, if_true])
        (performs_parameterList scope source rest)
    · simp only [readNamed, named, if_false, Option.isSome_none, Bool.false_eq_true]
      exact .next (by simp only [Task.act, named, if_false]) .nothing

/-- The task behind the word that introduces a method reads that method. -/
theorem performs_method (scope : Scope) (source : Text) (modifiers : List Text)
    (comment : Text) (left : List Token) :
    Performs found [.method] left (readMethod scope source modifiers comment left).2 := by
  rw [readMethod_eq, readSignature]
  cases left with
  | nil => exact .leave rfl .nothing
  | cons token rest =>
    rw [skipReference]
    by_cases reference : token.isMark '&' = true
    · rw [if_pos reference]
      exact .next (by simp only [Task.act, reference, if_true])
        (performs_methodName scope source modifiers comment rest)
    · rw [if_neg reference]
      by_cases named : token.kind = .name
      · simp only [readNamed, named, if_true, Option.isSome_some]
        refine .next ?_ (performs_parameterList scope source rest)
        simp only [Task.act, reference, named, if_true, if_false, Bool.false_eq_true]
      · simp only [readNamed, named, if_false, Option.isSome_none, Bool.false_eq_true]
        refine .next ?_ .nothing
        simp only [Task.act, reference, named, if_false, Bool.false_eq_true]

/-- **A round of the loop over members.** From a token that does not end the members the cursor
comes to where the next step among them starts. -/
theorem goesRound_body {modifiers : List Text} {comment : Text} {token : Token}
    {rest : List Token} {next : MemberStep}
    (steps : memberStep scope source modifiers comment token rest = some next) :
    GoesRound found .body (token :: rest) next.left := by
  unfold memberStep at steps
  cases starts : token.starts with
  | comment | modifier =>
    simp only [starts, Option.some.injEq] at steps
    subst steps
    exact .next (by simp only [Task.act, starts, List.nil_append]) .nothing
  | group =>
    simp only [starts, Option.some.injEq] at steps
    subst steps
    refine .next ?_ (performs_balanced [[']']] rest)
    simp only [Task.act, starts, List.cons_append, List.nil_append]
  | closing => simp [starts] at steps
  | method =>
    simp only [starts, Option.some.injEq] at steps
    subst steps
    refine .next ?_ (performs_method scope source modifiers comment rest)
    simp only [Task.act, starts, List.cons_append, List.nil_append]
  | statement =>
    simp only [starts, Option.some.injEq] at steps
    subst steps
    refine .returned ?_ (performs_statement (token :: rest))
    simp only [Task.act, starts, List.cons_append, List.nil_append]

/-- The loop over members reads them through the closing brace. -/
theorem performs_body (scope : Scope) (source : Text) (modifiers : List Text) (comment : Text)
    (left : List Token) :
    Performs found [.body] left (readBody scope source modifiers comment left).2 := by
  induction size : left.length using Nat.strongRecOn generalizing modifiers comment left with
  | ind size inductionHypothesis =>
    cases left with
    | nil =>
      rw [readBody]
      exact .leave rfl .nothing
    | cons token rest =>
      rw [readBody_cons]
      cases steps : memberStep scope source modifiers comment token rest with
      | none =>
        have closing := memberStep_eq_none.mp steps
        exact .next (by simp only [Task.act, closing]) .nothing
      | some next =>
        have shorter := memberStep_length_le steps
        rw [List.length_cons] at size
        exact (goesRound_body steps).performs
          (inductionHypothesis next.left.length (by omega) next.modifiers next.comment _ rfl)

end Members

section Walk

variable {source : Text} {file : Option Text}

/-- The header of a type goes up to an opening brace, and the body behind it is read. -/
theorem performs_header (scope : Scope) (source : Text) (left : List Token) :
    Performs found [.header] left
      (match left.dropWhile (!·.isMark '{') with
      | [] => []
      | _ :: inner => (readBody scope source [] [] inner).2) := by
  induction left with
  | nil => exact .leave rfl .nothing
  | cons token rest inductionHypothesis =>
    by_cases brace : token.isMark '{' = true
    · rw [List.dropWhile_cons_of_neg (by simp [brace])]
      exact .next (by simp only [Task.act, brace, if_true]) (performs_body scope source [] [] rest)
    · rw [List.dropWhile_cons_of_pos (by simp [brace])]
      exact .next (by simp only [Task.act, brace, if_false, Bool.false_eq_true])
        inductionHypothesis

/-- The task behind the word that introduces a type reads that type. -/
theorem performs_typeName (scope : Scope) (source : Text) (file : Option Text) (word : Text)
    (modifiers : List Text) (comment : Text) (left : List Token) :
    Performs found [.typeName] left
      (readType scope source file word modifiers comment left).2 := by
  cases left with
  | nil => exact .leave rfl .nothing
  | cons token rest =>
    by_cases named : token.kind = .name
    · have acts (previous : Option Token) :
          Task.typeName.act previous token = (.next, [.header]) := by
        simp only [Task.act, named, if_true]
      apply Performs.next (acts _)
      have headed := @performs_header found scope source rest
      simp only [readType, named, if_true, drop_takeWhile]
      cases opened : rest.dropWhile (!·.isMark '{') with
      | nil =>
        rw [opened] at headed
        exact headed
      | cons brace inner =>
        rw [opened] at headed
        exact headed
    · simp only [readType, named, if_false]
      exact .stay (by simp only [Task.act, named, if_false]) .nothing

/-- What the walk has to do behind a token is what a step does there. -/
theorem performs_tasks (source : Text) (file : Option Text) (position : Position)
    (token : Token) (rest : List Token) :
    Performs found (token.tasks position.previous) rest
      (step source file position token rest).left := by
  simp only [step, Token.tasks]
  by_cases isDoc : token.kind = .doc
  · rw [if_pos isDoc, if_pos isDoc]
    exact .nothing
  rw [if_neg isDoc, if_neg isDoc]
  by_cases group : token.kind = .attributeOpening
  · rw [if_pos group, if_pos group]
    exact performs_balanced [[']']] rest
  rw [if_neg group, if_neg group]
  by_cases modifier : token.kind = .name ∧
      classModifiers.contains (Text.lower token.text) = true
  · rw [if_pos modifier, if_pos modifier]
    exact .nothing
  rw [if_neg modifier, if_neg modifier]
  by_cases introduces : token.kind = .name ∧ typeWords.contains (Text.lower token.text) = true
  · rw [if_pos introduces, if_pos introduces]
    split
    · exact .nothing
    · exact performs_typeName _ _ _ _ _ _ rest
  rw [if_neg introduces, if_neg introduces]
  by_cases space : token.kind = .name ∧ Text.lower token.text = "namespace".toList
  · rw [if_pos space, if_pos space]
    exact performs_space rest
  rw [if_neg space, if_neg space]
  by_cases imports : token.kind = .name ∧ Text.lower token.text = "use".toList
  · rw [if_pos imports, if_pos imports]
    exact performs_imports position.scope.imports rest
  rw [if_neg imports, if_neg imports]
  by_cases function : token.kind = .name ∧ Text.lower token.text = "function".toList
  · rw [if_pos function, if_pos function]
    exact performs_function rest
  · rw [if_neg function, if_neg function]
    exact .nothing

/-- **A round of the walk.** Where the walk has the token in front of the cursor in mind, the
cursor comes to where the next step of the walk starts. -/
theorem goesRound_declarations (source : Text) (file : Option Text) {position : Position}
    {token : Token} {rest : List Token}
    (stands : tokenAt? found (placeOf found (token :: rest) - 1) = position.previous) :
    GoesRound found .declarations (token :: rest)
      (step source file position token rest).left := by
  refine .next ?_ (performs_tasks source file position token rest)
  rw [stands]
  rfl

/-- The walk goes on to the end of the tokens. -/
theorem performs_declarations (left : List Token) :
    Performs found [.declarations] left [] := by
  induction size : left.length using Nat.strongRecOn generalizing left with
  | ind size inductionHypothesis =>
    cases left with
    | nil => exact .leave rfl .nothing
    | cons token rest =>
      -- scope, modifiers and comment play no part here, only the token in front does
      let previous := tokenAt? found (placeOf found (token :: rest) - 1)
      let next := step [] none { previous } token rest
      have shorter : next.left.length ≤ rest.length := step_left_length_le _ _ _ token rest
      rw [List.length_cons] at size
      exact (goesRound_declarations [] none rfl).performs
        (inductionHypothesis next.left.length (by omega) next.left rfl)

end Walk

section Loops

/-- The loops that the reader comes back to: the walk, and the one over members. -/
def loops : List Task := [.declarations, .body]

/-- At a token a loop goes round and leaves fewer tokens, or it is over behind that token. -/
theorem goesRound_or_over {loop : Task} (listed : loop ∈ loops) (found : List Token)
    (token : Token) (rest : List Token) :
    (∃ further, GoesRound found loop (token :: rest) further ∧ further.length ≤ rest.length) ∨
      ∀ previous, loop.act previous token = (.next, []) := by
  simp only [loops, List.mem_cons, List.not_mem_nil, or_false] at listed
  rcases listed with rfl | rfl
  · let previous := tokenAt? found (placeOf found (token :: rest) - 1)
    exact .inl ⟨_, goesRound_declarations [] none rfl,
      step_left_length_le [] none { previous } token rest⟩
  · cases steps : memberStep {} [] [] [] token rest with
    | none =>
      have closing := memberStep_eq_none.mp steps
      exact .inr fun previous => by simp only [Task.act, closing]
    | some next => exact .inl ⟨next.left, goesRound_body steps, memberStep_length_le steps⟩

/-- A loop that is over at last leaves fewer tokens than it found, if there were any. -/
theorem exists_performs {loop : Task} (listed : loop ∈ loops) (found left : List Token) :
    ∃ further, Performs found [loop] left further ∧
      (left ≠ [] → further.length < left.length) := by
  simp only [loops, List.mem_cons, List.not_mem_nil, or_false] at listed
  rcases listed with rfl | rfl
  · exact ⟨[], performs_declarations left, List.length_pos_of_ne_nil⟩
  · refine ⟨_, performs_body {} [] [] [] left, fun nonempty => ?_⟩
    obtain ⟨token, rest, rfl⟩ := List.exists_cons_of_ne_nil nonempty
    rw [readBody_cons]
    cases steps : memberStep {} [] [] [] token rest with
    | none => exact Nat.lt_succ_self rest.length
    | some next =>
      exact Nat.lt_succ_of_le (Nat.le_trans (readBody_length_le _ _ _ _ _)
        (memberStep_length_le steps))

/-- Fewer tokens are left further on. -/
theorem placeOf_lt {left further : List Token} (found : List Token)
    (fewer : further.length < left.length) : placeOf found left < placeOf found further := by
  simp only [placeOf]
  omega

/-- A place within the tokens is the one in front of some last ones. -/
theorem exists_placeOf {place : Int} (lower : 0 ≤ place) (upper : place ≤ found.length) :
    ∃ left, left <:+ found ∧ placeOf found left = place := by
  refine ⟨found.drop place.toNat, List.drop_suffix _ _, ?_⟩
  simp only [placeOf, List.length_drop]
  omega

/-- From one round of a loop to the next the cursor goes forward. -/
theorem place_lt_of_round {loop : Task} (listed : loop ∈ loops) {below : List Task}
    {place further : Int} (lower : 0 ≤ place) (upper : place ≤ found.length)
    (round : Passes found (loop :: below) (Cursor.advance found ⟨place, loop :: below⟩)
      ⟨further, loop :: below⟩) : place < further := by
  -- a loop that is over leaves fewer tasks than there are when it comes round
  have again {first : Int} (ended : Passes found (loop :: below) ⟨first, below⟩
      ⟨further, loop :: below⟩) : False := by
    obtain ⟨above, stack⟩ := ended.exists_above
    have length := congrArg List.length stack
    simp only [List.length_append, List.length_cons] at length
    omega
  obtain ⟨left, within, rfl⟩ := exists_placeOf lower upper
  cases left with
  | nil =>
    have nothing : ∀ loop ∈ loops, loop.leave.2 = [] := by decide
    rw [Cursor.advance_nil, nothing loop listed] at round
    exact (again round).elim
  | cons token rest =>
    rcases goesRound_or_over listed found token rest with ⟨last, goes, fewer⟩ | ended
    · have same := ((goes within).2 below).unique round
      cases same
      exact placeOf_lt found (Nat.lt_succ_of_le fewer)
    · rw [Cursor.advance_cons within (ended _)] at round
      exact (again round).elim

/-- When a loop is over at last, the cursor has gone forward if it was not at the end. -/
theorem place_lt_of_over {loop : Task} (listed : loop ∈ loops) {below : List Task}
    {place further : Int} (lower : 0 ≤ place) (upper : place < found.length)
    (ended : Passes found below ⟨place, loop :: below⟩ ⟨further, below⟩) : place < further := by
  obtain ⟨left, within, rfl⟩ := exists_placeOf lower (Int.le_of_lt upper)
  obtain ⟨last, performs, fewer⟩ := exists_performs listed found left
  have same := ((performs within).2 below).unique ended
  cases same
  apply placeOf_lt found
  apply fewer
  rintro rfl
  simp [placeOf] at upper

/-- **The reader comes to an end, and each round of its loops goes forward.** For every list
of tokens,

* after some number of moves the cursor is behind the last token with nothing left to do;
* wherever it is before that, it is within the tokens;
* from one round to the next of the walk, or of the loop over members, the cursor has gone
  forward by one token at least, and so it has when such a loop is over, unless it was at the
  end;
* the cursor is where the reader is: a round of the walk takes it to what a step of the walk
  leaves, and a round of the loop over members to what a step among the members leaves. -/
theorem cursor_progress (found : List Token) :
    (∃ steps, Cursor.start.run found steps = ⟨found.length, []⟩) ∧
    (∀ steps, 0 ≤ (Cursor.start.run found steps).place ∧
      (Cursor.start.run found steps).place ≤ found.length) ∧
    (∀ loop ∈ loops, ∀ (below : List Task) (place further : Int), 0 ≤ place →
      (place ≤ found.length →
        Passes found (loop :: below) (Cursor.advance found ⟨place, loop :: below⟩)
          ⟨further, loop :: below⟩ → place < further) ∧
      (place < found.length →
        Passes found below ⟨place, loop :: below⟩ ⟨further, below⟩ → place < further)) ∧
    (∀ (source : Text) (file : Option Text) (position : Position) (front : List Token)
      (token : Token) (rest : List Token), found = front ++ token :: rest →
      position.previous = front.getLast? →
      GoesRound found .declarations (token :: rest)
        (step source file position token rest).left) ∧
    ∀ (scope : Scope) (source : Text) (modifiers : List Text) (comment : Text) (token : Token)
      (rest : List Token) (next : MemberStep),
      memberStep scope source modifiers comment token rest = some next →
      GoesRound found .body (token :: rest) next.left := by
  refine ⟨?_, ?_, ?_, ?_, ?_⟩
  · have starts : placeOf found found = 0 := Int.sub_self _
    have ends : placeOf found [] = found.length := Int.sub_zero _
    have ended := (performs_declarations found (List.suffix_refl found)).2 []
    rw [starts, ends] at ended
    exact ended.exists_run
  · intro steps
    obtain ⟨lower, upper, -, -⟩ := Cursor.run_isWithin found steps
    exact ⟨lower, upper⟩
  · rintro loop listed below place further lower
    constructor
    · exact place_lt_of_round listed lower
    · exact place_lt_of_over listed lower
  · intro source file position front token rest whole before
    apply goesRound_declarations
    rw [before]
    exact tokenAt?_before whole
  · intro scope source modifiers comment token rest next steps
    exact goesRound_body steps

/-- A member of one word, in a body with nothing else. -/
def bareMember : List Token :=
  [⟨.name, "class".toList, 0, 5⟩, ⟨.name, "A".toList, 6, 7⟩, ⟨.punctuation, ['{'], 8, 9⟩,
    ⟨.name, "x".toList, 10, 11⟩, ⟨.punctuation, ['}'], 12, 13⟩]

/-- The loop over members steps back in front of that word, skipping it steps back in front of
the closing brace, and there the loop goes on, one token further. -/
theorem bareMember_progress :
    Passes bareMember [.body, .declarations]
        (Cursor.advance bareMember ⟨3, [.body, .declarations]⟩) ⟨4, [.body, .declarations]⟩ ∧
      (3 : Int) < 4 := by
  obtain ⟨-, -, progress, -, rounds⟩ := cursor_progress bareMember
  have starts : (⟨.name, "x".toList, 10, 11⟩ : Token).starts = .statement := by decide +kernel
  have steps : memberStep {} [] [] [] ⟨.name, "x".toList, 10, 11⟩ (bareMember.drop 4) =
      some ⟨none, [], [], skipStatement (bareMember.drop 3)⟩ := by
    simp only [memberStep, starts, bareMember, List.drop_succ_cons, List.drop_zero]
  have left : skipStatement (bareMember.drop 3) = bareMember.drop 4 := by decide +kernel
  have round := ((rounds {} [] [] [] _ _ _ steps) (List.drop_suffix 3 bareMember)).2
    [.declarations]
  rw [left] at round
  refine ⟨round, ?_⟩
  exact (progress .body (by decide) [.declarations] 3 4 (by decide)).1 (by decide) round

end Loops

end Docblock.Source
