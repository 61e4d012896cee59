import Docblock.Proofs.Source.Fork.Members

/-!
# Walks side by side

A walk keeps a scope, modifiers, a comment and the token just passed, of which only the
text counts. Two walks that stand alike take the same steps, as long as the first one
stays in front of its tail. A whole walk over tokens that are moved to other places of
another source yields what the walk over the tokens yields.
-/

namespace Docblock.Source

variable {fork : Fork} {scope : Scope} {source other : Text}

section Walk

/-- Both readers read the same namespace. -/
theorem readNamespace_leaves {tokens : List Token}
    (stops : fork.Stops (readNamespace (fork.first tokens)).2) :
    fork.Leaves tokens (readNamespace (fork.first tokens)).2
        (readNamespace (fork.second tokens)).2 ∧
      (readNamespace (fork.second tokens)).1 = (readNamespace (fork.first tokens)).1 := by
  cases tokens with
  | nil =>
    have none := stops.ended (readNamespace_length_le fork.tail)
    rw [Fork.first_nil, Fork.second_nil, none.1, none.2, readNamespace]
    exact ⟨Fork.leaves_none none, rfl⟩
  | cons token rest =>
    simp only [Fork.first_cons, Fork.second_cons, readNamespace, Token.moved_kind,
      Token.moved_text]
    by_cases named : token.kind = .name
    · simp only [named, if_true]
      exact ⟨(Fork.leaves_all rest).behind token, trivial⟩
    · simp only [named, if_false]
      exact ⟨Fork.leaves_all (token :: rest), trivial⟩

/-- Both readers read the same imports. -/
theorem readImports_leaves (imports : Keyed Text) {tokens : List Token}
    (stops : fork.Stops (readImports imports (fork.first tokens)).2) :
    fork.Leaves tokens (readImports imports (fork.first tokens)).2
        (readImports imports (fork.second tokens)).2 ∧
      (readImports imports (fork.second tokens)).1 =
        (readImports imports (fork.first tokens)).1 := by
  cases tokens with
  | nil =>
    have none := stops.ended (readImports_length_le imports fork.tail)
    rw [Fork.first_nil, Fork.second_nil, none.1, none.2, readImports]
    exact ⟨Fork.leaves_none none, rfl⟩
  | cons token rest =>
    simp only [Fork.first_cons, Fork.second_cons, readImports, Token.moved_isMark,
      Token.moved_text] at stops ⊢
    by_cases closure : token.isMark '('
    · simp only [closure, if_true]
      exact ⟨Fork.leaves_all (token :: rest), trivial⟩
    · simp only [closure, Bool.false_eq_true, if_false] at stops ⊢
      by_cases elsewhere : isOtherImport token.text
      · simp only [elsewhere, if_true] at stops ⊢
        exact ⟨skipStatement_leaves (token :: rest) stops, trivial⟩
      · simp only [elsewhere, Bool.false_eq_true, if_false, ← List.tail_drop,
          ← Fork.first_cons, ← Fork.second_cons, drop_takeWhile] at stops ⊢
        obtain ⟨leaves, taken, -⟩ := span_leaves (!·.isMark ';') (fun _ => rfl) (token :: rest)
          (stops.earlier (by simp))
        refine ⟨leaves.tail stops, ?_⟩
        rw [taken, List.foldl_map]
        rfl

/-- Both readers read the same type. -/
theorem readType_leaves (file : Option Text) (word : Text) (modifiers : List Text)
    (comment : Text) {tokens : List Token} (agree : Agree source other fork.place tokens)
    (stops : fork.Stops
      (readType scope source file word modifiers comment (fork.first tokens)).2) :
    fork.Leaves tokens (readType scope source file word modifiers comment (fork.first tokens)).2
        (readType scope other file word modifiers comment (fork.second tokens)).2 ∧
      (readType scope other file word modifiers comment (fork.second tokens)).1 =
        (readType scope source file word modifiers comment (fork.first tokens)).1 := by
  cases tokens with
  | nil =>
    have none := stops.ended
      (readType_length_le scope source file word modifiers comment fork.tail)
    rw [Fork.first_nil, Fork.second_nil, none.1, none.2, readType, readType]
    exact ⟨Fork.leaves_none none, rfl⟩
  | cons token rest =>
    simp only [Fork.first_cons, Fork.second_cons, readType, drop_takeWhile, Token.moved_kind,
      Token.moved_text] at stops ⊢
    by_cases named : token.kind = .name
    · simp only [named, if_true] at stops ⊢
      have headed := @span_leaves fork (!·.isMark '{') (fun _ => rfl) rest
      cases opened : (fork.first rest).dropWhile (!·.isMark '{') with
      | nil =>
        simp only [opened] at stops headed ⊢
        obtain ⟨⟨more, within, left, otherLeft⟩, -⟩ := headed stops
        have none := stops.ended (Nat.zero_le _)
        obtain ⟨rfl, -⟩ := List.append_eq_nil_iff.mp left.symm
        rw [Fork.second_nil, none.2] at otherLeft
        simp only [otherLeft]
        exact ⟨Fork.leaves_none none, trivial⟩
      | cons brace body =>
        simp only [opened] at stops headed ⊢
        have read := readBody_length_le scope source [] [] body
        obtain ⟨⟨more, within, left, otherLeft⟩, taken, -⟩ :=
          headed (stops.earlier (Nat.le_succ_of_le read))
        cases more with
        | nil =>
          rw [Fork.first_nil] at left
          have none := stops.ended (by rw [← left, List.length_cons]; omega)
          rw [none.1] at left
          cases left
        | cons opening inner =>
          obtain ⟨rfl, rfl⟩ := List.cons.inj left
          have last := (List.suffix_cons brace inner).trans within
          obtain ⟨leaves, same⟩ := readBody_leaves [] []
            (agree.mono (last.trans (List.suffix_cons token rest)).subset) stops
          simp only [otherLeft, Fork.second_cons, taken, List.foldl_map, same]
          exact ⟨(leaves.within last).behind token, rfl⟩
    · simp only [named, if_false]
      exact ⟨Fork.leaves_all (token :: rest), trivial⟩

/-- Where two walks stand is the same up to the place of the token just passed. -/
structure Position.Alike (position further : Position) : Prop where
  scope : further.scope = position.scope
  modifiers : further.modifiers = position.modifiers
  comment : further.comment = position.comment
  previous : further.previous.map (·.text) = position.previous.map (·.text)

/-- Whether a type may be introduced depends on the text of the token just passed. -/
theorem Position.Alike.excludes {position further : Position} (alike : position.Alike further) :
    (further.previous.any fun token => excludesType.contains (Text.lower token.text)) =
      position.previous.any fun token => excludesType.contains (Text.lower token.text) := by
  have mapped (previous : Option Token) :
      previous.any (fun token => excludesType.contains (Text.lower token.text)) =
        (previous.map (·.text)).any fun text => excludesType.contains (Text.lower text) := by
    cases previous <;> rfl
  rw [mapped, mapped, alike.previous]

/-- The token in front of some last tokens, among those behind a first one. -/
theorem exists_last (token : Token) {rest left : List Token} (within : left <:+ rest) :
    ∃ front last, token :: rest = front ++ last :: left := by
  obtain ⟨passed, rfl⟩ := within
  obtain ⟨front, last, split⟩ : ∃ front last, token :: passed = front ++ [last] :=
    ⟨_, _, (List.dropLast_append_getLast (List.cons_ne_nil token passed)).symm⟩
  exact ⟨front, last, by rw [← List.cons_append, split, List.append_assoc]; rfl⟩

/-- The token that was passed last is the same for both readers. -/
theorem lastPassed_leaves {token : Token} {rest left otherLeft : List Token}
    (leaves : fork.Leaves rest left otherLeft) :
    (lastPassed (token.moved fork.place :: fork.second rest) otherLeft).map (·.text) =
      (lastPassed (token :: fork.first rest) left).map (·.text) := by
  obtain ⟨more, within, rfl, rfl⟩ := leaves
  obtain ⟨front, last, split⟩ := exists_last token within
  have first : token :: fork.first rest = front ++ last :: fork.first more := by
    rw [← Fork.first_cons, split]
    simp [Fork.first]
  have second : token.moved fork.place :: fork.second rest =
      front.map (Token.moved fork.place) ++ last.moved fork.place :: fork.second more := by
    rw [← Fork.second_cons, split]
    simp [Fork.second]
  rw [first, second, lastPassed_append, lastPassed_append]
  rfl

/-- Both walks take the same step. -/
theorem step_leaves (file : Option Text) {position further : Position}
    (alike : position.Alike further) {token : Token} {rest : List Token}
    (agree : Agree source other fork.place rest)
    (stops : fork.Stops (step source file position token (fork.first rest)).left) :
    let next := step source file position token (fork.first rest)
    let otherNext := step other file further (token.moved fork.place) (fork.second rest)
    fork.Leaves rest next.left otherNext.left ∧ otherNext.declared = next.declared ∧
      next.position.Alike otherNext.position := by
  simp only [step, Token.moved_kind, Token.moved_text, alike.scope, alike.modifiers,
    alike.comment, alike.excludes] at stops ⊢
  by_cases doc : token.kind = .doc
  · simp only [doc, if_true]
    exact ⟨Fork.leaves_all rest, trivial, ⟨rfl, rfl, rfl, rfl⟩⟩
  simp only [doc, if_false] at stops ⊢
  by_cases group : token.kind = .attributeOpening
  · simp only [group, if_true] at stops ⊢
    have leaves := skipBalanced_leaves [[']']] rest stops
    exact ⟨leaves, trivial, ⟨rfl, rfl, rfl, lastPassed_leaves leaves⟩⟩
  simp only [group, if_false] at stops ⊢
  by_cases modifier :
      token.kind = .name ∧ classModifiers.contains (Text.lower token.text) = true
  · simp only [modifier, and_self, if_true]
    exact ⟨Fork.leaves_all rest, trivial, ⟨rfl, rfl, rfl, rfl⟩⟩
  simp only [modifier, if_false] at stops ⊢
  by_cases introduces : token.kind = .name ∧ typeWords.contains (Text.lower token.text) = true
  · simp only [introduces, and_self, if_true] at stops ⊢
    split at stops
    · rename_i excluded
      simp only [excluded, if_true]
      have leaves := fork.leaves_all rest
      exact ⟨leaves, trivial, ⟨rfl, rfl, rfl, lastPassed_leaves leaves⟩⟩
    · rename_i admitted
      obtain ⟨leaves, same⟩ := readType_leaves file _ _ _ agree stops
      simp only [admitted]
      exact ⟨leaves, same, ⟨rfl, rfl, rfl, lastPassed_leaves leaves⟩⟩
  simp only [introduces, if_false] at stops ⊢
  by_cases space : token.kind = .name ∧ Text.lower token.text = "namespace".toList
  · simp only [space, and_self, if_true] at stops ⊢
    obtain ⟨leaves, same⟩ := readNamespace_leaves stops
    exact ⟨leaves, trivial, ⟨same, rfl, rfl, lastPassed_leaves leaves⟩⟩
  simp only [space, if_false] at stops ⊢
  by_cases imports : token.kind = .name ∧ Text.lower token.text = "use".toList
  · simp only [imports, and_self, if_true] at stops ⊢
    obtain ⟨leaves, same⟩ := readImports_leaves position.scope.imports stops
    refine ⟨leaves, trivial, ⟨?_, rfl, rfl, lastPassed_leaves leaves⟩⟩
    rw [same]
  simp only [imports, if_false] at stops ⊢
  by_cases function : token.kind = .name ∧ Text.lower token.text = "function".toList
  · simp only [function, and_self, if_true] at stops ⊢
    have leaves := skipFunction_leaves rest stops
    exact ⟨leaves, trivial, ⟨rfl, rfl, rfl, lastPassed_leaves leaves⟩⟩
  · simp only [function, if_false]
    have leaves := fork.leaves_all rest
    exact ⟨leaves, trivial, ⟨rfl, rfl, rfl, lastPassed_leaves leaves⟩⟩

/-- Tokens that are moved as a whole yield the same declarations. -/
theorem declarationsFrom_moved (file : Option Text) {place : Nat → Nat}
    {position further : Position} (alike : position.Alike further) {tokens : List Token}
    (agree : Agree source other place tokens) :
    declarationsFrom other file further (tokens.map (Token.moved place)) =
      declarationsFrom source file position tokens := by
  induction size : tokens.length using Nat.strongRecOn
    generalizing tokens position further with
  | ind size inductionHypothesis =>
    cases tokens with
    | nil => rw [List.map_nil, declarationsFrom, declarationsFrom]
    | cons token rest =>
      rw [List.length_cons] at size
      have agreeBehind := agree.mono (List.subset_cons_self token rest)
      have stops : (Fork.whole place).Stops
          (step source file position token ((Fork.whole place).first rest)).left :=
        Fork.stops_whole place _
      have steps := step_leaves file alike agreeBehind stops
      simp only [Fork.first_whole, Fork.second_whole, Fork.place_whole, Fork.leaves_whole] at steps
      obtain ⟨⟨within, otherLeft⟩, declared, alikeNext⟩ := steps
      have shorter := within.length_le
      have onward := inductionHypothesis _ (by omega) alikeNext
        (agreeBehind.mono within.subset) rfl
      rw [List.map_cons, declarationsFrom, declarationsFrom]
      rw [declared, otherLeft, onward]

end Walk

end Docblock.Source
