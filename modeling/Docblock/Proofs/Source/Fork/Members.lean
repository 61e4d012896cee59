import Docblock.Proofs.Source.Fork.Basic

/-!
# Signatures and members side by side

What readers that go side by side find in the signatures of methods is equal: the same
parameters with the same types and default values, and the same return types. The tokens
that a type or a value is cut out by are all in front of the tails, where the sources
agree. So the members of a type are the same as well.
-/

namespace Docblock.Source

variable {fork : Fork} {scope : Scope} {source other : Text}

section Signatures

/-- Both readers split the same tokens into runs, and leave the same. -/
structure Fork.Splits (fork : Fork) (tokens : List Token)
    (split otherSplit : List (List Token) × List Token) : Prop where
  leaves : fork.Leaves tokens split.2 otherSplit.2
  runs : otherSplit.1 = split.1.map (List.map (Token.moved fork.place))
  within : ∀ run ∈ split.1, run ⊆ tokens

/-- What is split of some last tokens is split of all of them. -/
theorem Fork.Splits.later {tokens more : List Token}
    {split otherSplit : List (List Token) × List Token}
    (splits : fork.Splits more split otherSplit) (within : more <:+ tokens) :
    fork.Splits tokens split otherSplit where
  leaves := splits.leaves.within within
  runs := splits.runs
  within run member := List.Subset.trans (splits.within run member) within.subset

/-- A token in front goes to the first run of both. -/
theorem Fork.Splits.consRun {token : Token} {rest : List Token}
    {split otherSplit : List (List Token) × List Token}
    (splits : fork.Splits rest split otherSplit) :
    fork.Splits (token :: rest) (consRun token split)
      (consRun (Token.moved fork.place token) otherSplit) where
  leaves := by
    rw [consRun_snd, consRun_snd]
    exact splits.leaves.behind token
  runs := by
    simp only [Docblock.Source.consRun, splits.runs]
    cases split.1 <;> rfl
  within run member := by
    simp only [Docblock.Source.consRun] at member
    have listed := splits.within
    cases runs : split.1 with
    | nil =>
      rw [runs, List.mem_singleton] at member
      subst member
      exact List.cons_subset_cons token (List.nil_subset rest)
    | cons front runs =>
      simp only [*] at member listed
      rcases List.mem_cons.mp member with rfl | later
      · exact List.cons_subset_cons token (listed front List.mem_cons_self)
      · exact List.Subset.trans (listed run (List.mem_cons_of_mem front later))
          (List.subset_cons_self token rest)

/-- Both readers find the same runs between commas. -/
theorem parameterRuns_splits (depth : Nat) (tokens : List Token)
    (stops : fork.Stops (parameterRuns depth (fork.first tokens)).2) :
    fork.Splits tokens (parameterRuns depth (fork.first tokens))
      (parameterRuns depth (fork.second tokens)) := by
  induction size : tokens.length using Nat.strongRecOn generalizing depth tokens with
  | ind size inductionHypothesis =>
    cases tokens with
    | nil =>
      have none := stops.ended (parameterRuns_length_le depth fork.tail)
      rw [Fork.first_nil, Fork.second_nil, none.1, none.2, parameterRuns]
      exact ⟨Fork.leaves_none none, rfl, by simp⟩
    | cons token rest =>
      rw [List.length_cons] at size
      rw [Fork.first_cons] at stops ⊢
      rw [Fork.second_cons]
      rw [parameterRuns] at stops ⊢
      rw [parameterRuns.eq_def _ (_ :: _)]
      simp only [Token.moved_kind, Token.moved_text, Token.moved_isMark]
      have onward (depth : Nat) (stops : fork.Stops (parameterRuns depth (fork.first rest)).2) :=
        inductionHypothesis rest.length (by omega) depth rest stops rfl
      have last := List.suffix_cons token rest
      by_cases group : token.kind = .attributeOpening
      · simp only [group, if_true] at stops ⊢
        obtain ⟨more, within, skipped, otherSkipped⟩ := skipBalanced_leaves [[']']] rest
          (stops.earlier (parameterRuns_length_le depth _))
        have shorter := within.length_le
        simp only [skipAttribute, skipped, otherSkipped] at stops ⊢
        exact (inductionHypothesis more.length (by omega) depth more stops rfl).later
          (within.trans last)
      · simp only [group, if_false] at stops ⊢
        by_cases opens : (closerOf token.text).isSome
        · simp only [opens, if_true, consRun_snd] at stops ⊢
          exact (onward _ stops).consRun
        · simp only [opens, Bool.false_eq_true, if_false] at stops ⊢
          by_cases closes : token.isMark ')' || token.isMark ']' || token.isMark '}'
          · simp only [closes, if_true] at stops ⊢
            by_cases outermost : depth = 0
            · simp only [outermost, if_true]
              exact ⟨(Fork.leaves_all rest).behind token, rfl, by simp⟩
            · simp only [outermost, if_false, consRun_snd] at stops ⊢
              exact (onward _ stops).consRun
          · simp only [closes, Bool.false_eq_true, if_false] at stops ⊢
            by_cases comma : token.isMark ',' && depth = 0
            · simp only [comma, if_true] at stops ⊢
              obtain ⟨leaves, runs, within⟩ := (onward 0 stops).later last
              exact ⟨leaves, by rw [runs]; rfl, by simpa using within⟩
            · simp only [comma, Bool.false_eq_true, if_false, consRun_snd] at stops ⊢
              exact (onward _ stops).consRun

/-- The tokens of a type are the same in both sources. -/
theorem typeTokens_moved (place : Nat → Nat) (leading : List Token) :
    typeTokens (leading.map (Token.moved place)) =
      (typeTokens leading).map (Token.moved place) := by
  have plain : (leading.map (Token.moved place)).filter (·.text != ['.', '.', '.']) =
      (leading.filter (·.text != ['.', '.', '.'])).map (Token.moved place) := by
    rw [List.filter_map]
    rfl
  simp only [typeTokens, plain, List.getLast?_map]
  cases (leading.filter (·.text != ['.', '.', '.'])).getLast? with
  | none => rfl
  | some last =>
    simp only [Option.map_some, Option.any_some, Token.moved_isMark]
    by_cases reference : last.isMark '&'
    · simp only [reference, if_true, List.map_dropLast]
    · simp only [reference]
      rfl

/-- The tokens of a type are some of those before the variable. -/
theorem typeTokens_subset (leading : List Token) : typeTokens leading ⊆ leading := by
  simp only [typeTokens]
  split
  · exact List.Subset.trans (List.dropLast_subset _) ((List.filter_subset_self _))
  · exact List.filter_subset_self _

/-- A run of tokens declares the same parameter in both sources. -/
theorem parameter?_moved {place : Nat → Nat} {run : List Token}
    (agree : Agree source other place run) :
    parameter? scope other (run.map (Token.moved place)) = parameter? scope source run := by
  have bareMoved :
      (run.map (Token.moved place)).dropWhile
          (fun token => promotionModifiers.contains (Text.lower token.text)) =
        (run.dropWhile fun token =>
          promotionModifiers.contains (Text.lower token.text)).map (Token.moved place) :=
    List.dropWhile_map
  have bareWithin := (List.dropWhile_suffix (l := run)
    fun token => promotionModifiers.contains (Text.lower token.text)).subset
  simp only [parameter?, bareMoved]
  generalize (run.dropWhile fun token =>
    promotionModifiers.contains (Text.lower token.text)) = bare at bareWithin ⊢
  have beforeMoved : (bare.map (Token.moved place)).takeWhile (!·.kind == .variable) =
      (bare.takeWhile (!·.kind == .variable)).map (Token.moved place) := List.takeWhile_map
  have behindMoved : (bare.map (Token.moved place)).dropWhile (!·.kind == .variable) =
      (bare.dropWhile (!·.kind == .variable)).map (Token.moved place) := List.dropWhile_map
  have beforeWithin := List.Subset.trans
    (List.takeWhile_subset (l := bare) (!·.kind == .variable)) bareWithin
  have typed := (agree.mono (List.Subset.trans (typeTokens_subset _) beforeWithin)).slice_eq
  have behindWithin := List.Subset.trans
    (List.dropWhile_suffix (l := bare) (!·.kind == .variable)).subset bareWithin
  rw [beforeMoved, behindMoved, typeTokens_moved, typed]
  cases behind : bare.dropWhile (!·.kind == .variable) with
  | nil => rfl
  | cons named trailing =>
    cases trailing with
    | nil => rfl
    | cons first value =>
      rw [behind] at behindWithin
      have valueWithin := List.Subset.trans (List.suffix_append [named, first] value).subset
        behindWithin
      have valued := (agree.mono valueWithin).slice_eq
      simp only [List.map_cons, Token.moved_text, Token.moved_isMark, valued]

/-- Both readers read the same parameters. -/
theorem parameterList_leaves {tokens : List Token} (agree : Agree source other fork.place tokens)
    (stops : fork.Stops (parameterList scope source (fork.first tokens)).2) :
    fork.Leaves tokens (parameterList scope source (fork.first tokens)).2
        (parameterList scope other (fork.second tokens)).2 ∧
      (parameterList scope other (fork.second tokens)).1 =
        (parameterList scope source (fork.first tokens)).1 := by
  cases tokens with
  | nil =>
    have none := stops.ended (parameterList_length_le scope source fork.tail)
    rw [Fork.first_nil, Fork.second_nil, none.1, none.2, parameterList, parameterList]
    exact ⟨Fork.leaves_none none, rfl⟩
  | cons token rest =>
    simp only [Fork.first_cons, Fork.second_cons, parameterList, Token.moved_isMark] at stops ⊢
    by_cases parenthesis : token.isMark '('
    · simp only [parenthesis, if_true, parameters] at stops ⊢
      obtain ⟨leaves, runs, within⟩ := parameterRuns_splits 0 rest stops
      refine ⟨leaves.behind token, ?_⟩
      rw [runs, List.filterMap_map]
      refine List.filterMap_congr fun run member => parameter?_moved (agree.mono ?_)
      exact List.Subset.trans (within run member) (List.subset_cons_self token rest)
    · simp only [parenthesis]
      exact ⟨(Fork.leaves_all rest).behind token, rfl⟩

/-- Both readers find the same return type. -/
theorem returnTokens_leaves (tokens : List Token)
    (stops : fork.Stops (returnTokens (fork.first tokens)).2) :
    fork.Leaves tokens (returnTokens (fork.first tokens)).2 (returnTokens (fork.second tokens)).2 ∧
      (returnTokens (fork.second tokens)).1 =
        (returnTokens (fork.first tokens)).1.map (Token.moved fork.place) ∧
      (returnTokens (fork.first tokens)).1 ⊆ tokens := by
  cases tokens with
  | nil =>
    have none := stops.ended (returnTokens_length_le fork.tail)
    rw [Fork.first_nil, Fork.second_nil, none.1, none.2, returnTokens]
    exact ⟨Fork.leaves_none none, rfl, List.Subset.refl []⟩
  | cons token rest =>
    simp only [Fork.first_cons, Fork.second_cons, returnTokens, Token.moved_isMark] at stops ⊢
    by_cases colon : token.isMark ':'
    · simp only [colon, if_true] at stops ⊢
      obtain ⟨leaves, taken, within⟩ := span_leaves (!endsReturnType ·) (fun _ => rfl) rest stops
      have inside := List.Subset.trans within (List.subset_cons_self token rest)
      exact ⟨leaves.behind token, taken, inside⟩
    · simp only [colon]
      exact ⟨Fork.leaves_all (token :: rest), rfl, List.nil_subset _⟩

/-- Both readers skip the mark of a reference. -/
theorem skipReference_leaves (tokens : List Token)
    (stops : fork.Stops (skipReference (fork.first tokens))) :
    fork.Leaves tokens (skipReference (fork.first tokens))
      (skipReference (fork.second tokens)) := by
  cases tokens with
  | nil =>
    have none := stops.ended (skipReference_length_le fork.tail)
    rw [Fork.first_nil, Fork.second_nil, none.1, none.2, skipReference]
    exact Fork.leaves_none none
  | cons token rest =>
    simp only [Fork.first_cons, Fork.second_cons, skipReference, Token.moved_isMark]
    by_cases reference : token.isMark '&'
    · simp only [reference, if_true]
      exact (Fork.leaves_all rest).behind token
    · simp only [reference]
      exact Fork.leaves_all (token :: rest)

/-- Both readers read the same signature from its name on. -/
theorem readNamed_leaves (modifiers : List Text) (comment : Text) {tokens : List Token}
    (agree : Agree source other fork.place tokens)
    (stops : fork.Stops (readNamed scope source modifiers comment (fork.first tokens)).2) :
    fork.Leaves tokens (readNamed scope source modifiers comment (fork.first tokens)).2
        (readNamed scope other modifiers comment (fork.second tokens)).2 ∧
      (readNamed scope other modifiers comment (fork.second tokens)).1 =
        (readNamed scope source modifiers comment (fork.first tokens)).1 := by
  cases tokens with
  | nil =>
    have none := stops.ended (readNamed_length_le scope source modifiers comment fork.tail)
    rw [Fork.first_nil, Fork.second_nil, none.1, none.2, readNamed, readNamed]
    exact ⟨Fork.leaves_none none, rfl⟩
  | cons token rest =>
    have agreeBehind := agree.mono (List.subset_cons_self token rest)
    simp only [Fork.first_cons, Fork.second_cons, readNamed, Token.moved_kind,
      Token.moved_text] at stops ⊢
    by_cases named : token.kind = .name
    · simp only [named, if_true] at stops ⊢
      obtain ⟨⟨listed, within, left, otherLeft⟩, parameters⟩ :=
        parameterList_leaves agreeBehind (stops.earlier (returnTokens_length_le _))
      rw [left] at stops ⊢
      rw [otherLeft, parameters]
      obtain ⟨leaves, returned, returnedWithin⟩ := returnTokens_leaves listed stops
      have type := (agreeBehind.mono (List.Subset.trans returnedWithin within.subset)).slice_eq
      refine ⟨(leaves.within within).behind token, ?_⟩
      rw [returned, type]
    · simp only [named, if_false]
      exact ⟨(Fork.leaves_all rest).behind token, trivial⟩

/-- Both readers read the same signature. -/
theorem readSignature_leaves (modifiers : List Text) (comment : Text) {tokens : List Token}
    (agree : Agree source other fork.place tokens)
    (stops : fork.Stops (readSignature scope source modifiers comment (fork.first tokens)).2) :
    fork.Leaves tokens (readSignature scope source modifiers comment (fork.first tokens)).2
        (readSignature scope other modifiers comment (fork.second tokens)).2 ∧
      (readSignature scope other modifiers comment (fork.second tokens)).1 =
        (readSignature scope source modifiers comment (fork.first tokens)).1 := by
  unfold readSignature at stops ⊢
  obtain ⟨more, within, left, otherLeft⟩ := skipReference_leaves tokens
    (stops.earlier (readNamed_length_le scope source modifiers comment _))
  rw [left] at stops ⊢
  rw [otherLeft]
  obtain ⟨leaves, same⟩ := readNamed_leaves modifiers comment (agree.mono within.subset) stops
  exact ⟨leaves.within within, same⟩

/-- Both readers read the same method. -/
theorem readMethod_leaves (modifiers : List Text) (comment : Text) {tokens : List Token}
    (agree : Agree source other fork.place tokens)
    (stops : fork.Stops (readMethod scope source modifiers comment (fork.first tokens)).2) :
    fork.Leaves tokens (readMethod scope source modifiers comment (fork.first tokens)).2
        (readMethod scope other modifiers comment (fork.second tokens)).2 ∧
      (readMethod scope other modifiers comment (fork.second tokens)).1 =
        (readMethod scope source modifiers comment (fork.first tokens)).1 := by
  simp only [readMethod_eq] at stops ⊢
  by_cases named : (readSignature scope source modifiers comment (fork.first tokens)).1.isSome
  · simp only [named, if_true] at stops
    obtain ⟨⟨more, within, left, otherLeft⟩, same⟩ := readSignature_leaves modifiers comment agree
      (stops.earlier (skipBody_length_le _))
    rw [same]
    simp only [named, if_true]
    rw [left] at stops ⊢
    rw [otherLeft]
    exact ⟨(skipBody_leaves more stops).within within, trivial⟩
  · simp only [named] at stops
    obtain ⟨leaves, same⟩ := readSignature_leaves modifiers comment agree stops
    rw [same]
    simp only [named]
    exact ⟨leaves, trivial⟩

/-- What is left behind a method are last ones of the tokens behind the word that introduces
it. -/
theorem readMethod_left_suffix (scope : Scope) (source : Text) (modifiers : List Text)
    (comment : Text) (found : List Token) :
    (readMethod scope source modifiers comment found).2 <:+ found := by
  have agree : Agree source source id found := fun _ _ _ _ => rfl
  have stops : (Fork.whole id).Stops
      (readMethod scope source modifiers comment ((Fork.whole id).first found)).2 :=
    Fork.stops_whole id _
  have reads := readMethod_leaves modifiers comment agree stops
  simp only [Fork.first_whole, Fork.leaves_whole] at reads
  exact reads.1.1

end Signatures

section Members

/-- Both readers take the same step among the members of a type. -/
theorem memberStep_leaves {modifiers : List Text} {comment : Text} {token : Token}
    {rest : List Token} {next : MemberStep} (agree : Agree source other fork.place rest)
    (steps : memberStep scope source modifiers comment token (fork.first rest) = some next)
    (stops : fork.Stops next.left) :
    ∃ otherLeft, memberStep scope other modifiers comment (token.moved fork.place)
        (fork.second rest) = some { next with left := otherLeft } ∧
      fork.Leaves (token :: rest) next.left otherLeft := by
  unfold memberStep at steps ⊢
  rw [Token.moved_starts, Token.moved_text]
  cases starts : token.starts with
  | comment | modifier =>
    simp only [starts, Option.some.injEq] at steps ⊢
    subst steps
    exact ⟨_, rfl, (Fork.leaves_all rest).behind token⟩
  | group =>
    simp only [starts, Option.some.injEq] at steps ⊢
    subst steps
    exact ⟨_, rfl, (skipBalanced_leaves _ rest stops).behind token⟩
  | closing => simp [starts] at steps
  | method =>
    simp only [starts, Option.some.injEq] at steps ⊢
    subst steps
    obtain ⟨leaves, same⟩ := readMethod_leaves modifiers comment agree stops
    exact ⟨_, by rw [same], leaves.behind token⟩
  | statement =>
    simp only [starts, Option.some.injEq] at steps ⊢
    subst steps
    exact ⟨_, rfl, skipStatement_leaves (token :: rest) stops⟩

/-- What a step among the members leaves are last ones of the tokens from its token on. -/
theorem memberStep_left_suffix {modifiers : List Text} {comment : Text} {token : Token}
    {rest : List Token} {next : MemberStep}
    (steps : memberStep scope source modifiers comment token rest = some next) :
    next.left <:+ token :: rest := by
  have agree : Agree source source id rest := fun _ _ _ _ => rfl
  have stops : (Fork.whole id).Stops next.left := Fork.stops_whole id _
  obtain ⟨_, _, leaves⟩ := memberStep_leaves agree (by rwa [Fork.first_whole]) stops
  exact (Fork.leaves_whole.mp leaves).1

/-- Both readers read the same members of a type. -/
theorem readBody_leaves (modifiers : List Text) (comment : Text) {tokens : List Token}
    (agree : Agree source other fork.place tokens)
    (stops : fork.Stops (readBody scope source modifiers comment (fork.first tokens)).2) :
    fork.Leaves tokens (readBody scope source modifiers comment (fork.first tokens)).2
        (readBody scope other modifiers comment (fork.second tokens)).2 ∧
      (readBody scope other modifiers comment (fork.second tokens)).1 =
        (readBody scope source modifiers comment (fork.first tokens)).1 := by
  induction size : tokens.length using Nat.strongRecOn generalizing tokens modifiers comment with
  | ind size inductionHypothesis =>
    cases tokens with
    | nil =>
      have none := stops.ended (readBody_length_le scope source modifiers comment fork.tail)
      rw [Fork.first_nil, Fork.second_nil, none.1, none.2, readBody, readBody]
      exact ⟨Fork.leaves_none none, rfl⟩
    | cons token rest =>
      rw [List.length_cons] at size
      rw [Fork.first_cons, readBody_cons] at stops ⊢
      rw [Fork.second_cons, readBody_cons]
      cases steps : memberStep scope source modifiers comment token (fork.first rest) with
      | none =>
        have closing : (token.moved fork.place).starts = .closing :=
          (token.moved_starts fork.place).trans (memberStep_eq_none.mp steps)
        simp only [memberStep_eq_none.mpr closing]
        exact ⟨(Fork.leaves_all rest).behind token, trivial⟩
      | some next =>
        simp only [steps] at stops ⊢
        obtain ⟨otherLeft, otherSteps, more, within, left, moved⟩ := memberStep_leaves
          (agree.mono (List.subset_cons_self token rest)) steps
          (stops.earlier (readBody_length_le _ _ _ _ _))
        have shorter := memberStep_length_le steps
        rw [left] at stops shorter
        simp only [Fork.first, List.length_append] at shorter
        obtain ⟨leaves, same⟩ := inductionHypothesis more.length (by omega) next.modifiers
          next.comment (agree.mono within.subset) stops rfl
        simp only [otherSteps, moved, left, same]
        exact ⟨leaves.within within, trivial⟩

end Members

end Docblock.Source
