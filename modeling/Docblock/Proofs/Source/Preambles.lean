import Docblock.Proofs.Source.WellFormed

/-!
# Words in front of a type

In front of the word that introduces a type there may be modifiers and attribute groups.
The walk keeps the token that it has passed last, and a type word introduces no type behind
`new`, which makes an unnamed class of it.

Only that one token is looked at. A type word directly behind `new` never declares
anything. With a modifier or an attribute group between them the last token is the
modifier or the closing bracket, and the word counts as one that introduces a type: the
word behind it, `extends` for one, becomes the name of a declaration as soon as an opening
brace follows anywhere.
-/

namespace Docblock.Source

variable {source : Text} {file : Option Text}

section Preambles

/-- What may stand in front of a word that introduces something: modifiers, and attribute
groups that are closed. -/
inductive IsPreamble (modifiers : List Text) : List Token → Prop
  | nil : IsPreamble modifiers []
  | modifier {token : Token} {rest : List Token} (isName : token.kind = .name)
      (listed : Text.lower token.text ∈ modifiers) (behind : IsPreamble modifiers rest) :
      IsPreamble modifiers (token :: rest)
  | group {opening closing : Token} {inner rest : List Token}
      (opens : opening.kind = .attributeOpening) (enclosed : unclosed [[']']] inner = [[']']])
      (closes : closing.Closes [']']) (behind : IsPreamble modifiers rest) :
      IsPreamble modifiers (opening :: (inner ++ closing :: rest))

namespace IsPreamble

variable {modifiers : List Text} {front : List Token}

/-- A preamble goes on with another one. -/
theorem append (preamble : IsPreamble modifiers front) {rest : List Token}
    (further : IsPreamble modifiers rest) : IsPreamble modifiers (front ++ rest) := by
  induction preamble with
  | nil => exact further
  | modifier isName listed _ inductionHypothesis =>
    exact .modifier isName listed inductionHypothesis
  | group opens enclosed closes _ inductionHypothesis =>
    rw [List.cons_append, List.append_assoc, List.cons_append]
    exact .group opens enclosed closes inductionHypothesis

/-- A preamble ends with a modifier or with a closing bracket. -/
theorem last (preamble : IsPreamble modifiers front) :
    ∀ token ∈ front.getLast?, Text.lower token.text ∈ [']'] :: modifiers := by
  have further {token ending : Token} {rest : List Token}
      (own : Text.lower token.text ∈ [']'] :: modifiers)
      (behind : ∀ token ∈ rest.getLast?, Text.lower token.text ∈ [']'] :: modifiers)
      (ends : ending ∈ (token :: rest).getLast?) :
      Text.lower ending.text ∈ [']'] :: modifiers := by
    cases later : rest.getLast? with
    | none =>
      rw [List.getLast?_eq_none_iff.mp later] at ends
      cases ends
      exact own
    | some other =>
      rw [List.getLast?_cons, later] at ends
      cases ends
      exact behind _ later
  induction preamble with
  | nil => simp
  | modifier _ listed _ inductionHypothesis =>
    exact fun token => further (List.mem_cons_of_mem _ listed) inductionHypothesis
  | @group opening closing inner rest _ _ closes _ inductionHypothesis =>
    intro token ends
    rw [← List.cons_append, List.getLast?_append_of_ne_nil _ (List.cons_ne_nil _ _)] at ends
    refine further ?_ inductionHypothesis ends
    rw [closes.2]
    exact List.mem_cons_self

end IsPreamble

/-- When skipping leaves something, it has come to the closer of what was opened first. The
induction is on the tokens; what is opened on the way comes on top of that closer. -/
theorem exists_enclosed {closer : Text} (inside : List Text) {found left : List Token}
    (skipped : skipBalanced (inside ++ [closer]) found = left) (nonempty : left ≠ []) :
    ∃ inner closing, found = inner ++ closing :: left ∧
      unclosed (inside ++ [closer]) inner = [closer] ∧ closing.Closes closer := by
  induction found generalizing inside with
  | nil =>
    cases inside <;> exact absurd skipped.symm nonempty
  | cons token rest inductionHypothesis =>
    have onward (further : List Text)
        (skips : skipBalanced (inside ++ [closer]) (token :: rest) =
          skipBalanced (further ++ [closer]) rest)
        (opens : ∀ inner, unclosed (inside ++ [closer]) (token :: inner) =
          unclosed (further ++ [closer]) inner) :
        ∃ inner closing, token :: rest = inner ++ closing :: left ∧
          unclosed (inside ++ [closer]) inner = [closer] ∧ closing.Closes closer := by
      obtain ⟨inner, closing, rfl, enclosed, closes⟩ :=
        inductionHypothesis further (skips.symm.trans skipped)
      exact ⟨token :: inner, closing, rfl, (opens inner).trans enclosed, closes⟩
    cases opened : token.closer? with
    | some top =>
      apply onward (top :: inside)
      · cases inside <;> simp only [List.cons_append, List.nil_append, skipBalanced_cons, opened]
      · intro inner
        cases inside <;> simp only [List.cons_append, List.nil_append, unclosed, opened]
    | none =>
      by_cases closes : token.text = (inside ++ [closer]).head (by simp)
      · cases inside with
        | nil =>
          simp only [List.nil_append, List.head_cons] at closes
          rw [List.nil_append, skipBalanced_cons] at skipped
          simp only [opened, closes, if_true, skipBalanced] at skipped
          exact ⟨[], token, by rw [skipped, List.nil_append], rfl, opened, closes⟩
        | cons top inside =>
          simp only [List.cons_append, List.head_cons] at closes
          apply onward inside
          · simp only [List.cons_append, skipBalanced_cons, opened, closes, if_true]
          · intro inner
            simp only [List.cons_append, unclosed, opened, closes, if_true]
      · apply onward inside
        · cases inside <;>
            simp only [List.cons_append, List.nil_append, List.head_cons] at closes ⊢ <;>
            simp only [skipBalanced_cons, opened, closes, if_false]
        · intro inner
          cases inside <;>
            simp only [List.cons_append, List.nil_append, List.head_cons] at closes ⊢ <;>
            simp only [unclosed, opened, closes, if_false]

/-- An attribute group that leaves something is closed in front of that. -/
theorem IsPreamble.of_skipAttribute {modifiers : List Text} {opening : Token}
    {rest : List Token} (opens : opening.kind = .attributeOpening)
    (nonempty : skipAttribute rest ≠ []) :
    ∃ group, IsPreamble modifiers (opening :: group) ∧ rest = group ++ skipAttribute rest := by
  obtain ⟨inner, closing, split, enclosed, closes⟩ := exists_enclosed [] rfl nonempty
  refine ⟨inner ++ [closing], .group opens enclosed closes .nil, ?_⟩
  rw [List.append_assoc]
  exact split

end Preambles

section Walk

/-- Behind a step the walk has the last token in mind that the step has passed. -/
theorem step_previous (position : Position) (token : Token) (rest : List Token) :
    (step source file position token rest).position.previous =
      lastPassed (token :: rest) (step source file position token rest).left := by
  have single := lastPassed_append [] token rest
  rw [List.nil_append] at single
  simp only [step]
  split
  · exact single.symm
  split
  · rfl
  split
  · exact single.symm
  split
  · split <;> rfl
  split
  · rfl
  split
  · rfl
  split
  · rfl
  · rfl

/-- Wherever a walk comes to, it has the token in mind that stands in front. -/
theorem Walks.previous {position : Position} {left : List Token}
    (walks : Walks source file position left) :
    ∃ front, tokens source = front ++ left ∧ position.previous = front.getLast? := by
  induction walks with
  | start => exact ⟨[], rfl, rfl⟩
  | @step position token rest _ inductionHypothesis =>
    obtain ⟨front, whole, -⟩ := inductionHypothesis
    obtain ⟨passed, last, split⟩ :=
      exists_last token (step_left_suffix source file position token rest)
    refine ⟨front ++ (passed ++ [last]), ?_, ?_⟩
    · rw [whole, split, List.append_assoc, List.append_assoc]
      rfl
    · rw [step_previous, split, lastPassed_append, ← List.append_assoc, List.getLast?_concat]

/-- A walk passes what may stand in front of a type, and keeps the scope and the comment. -/
theorem Walks.preamble {front rest : List Token} (preamble : IsPreamble classModifiers front)
    {position : Position} (walks : Walks source file position (front ++ rest)) :
    ∃ further, Walks source file further rest ∧ further.scope = position.scope ∧
      further.comment = position.comment := by
  induction preamble generalizing position with
  | nil => exact ⟨position, walks, rfl, rfl⟩
  | @modifier token _ isName listed _ inductionHypothesis =>
    have stepped := walks.step
    simp only [Source.step, isName, List.contains_iff_mem.mpr listed, reduceCtorEq, if_false,
      and_self, if_true] at stepped
    obtain ⟨further, onward, kept⟩ := inductionHypothesis stepped
    exact ⟨further, onward, kept⟩
  | @group opening closing inner more opens enclosed closes _ inductionHypothesis =>
    have skipped : skipAttribute ((inner ++ closing :: more).append rest) = more ++ rest := by
      have closed := skipBalanced_enclosed enclosed closes [] (more ++ rest)
      rw [skipBalanced] at closed
      rw [skipAttribute, List.append_eq, List.append_assoc, List.cons_append, closed]
    have stepped := walks.step
    simp only [Source.step, opens, skipped, reduceCtorEq, if_false, if_true] at stepped
    obtain ⟨further, onward, kept⟩ := inductionHypothesis stepped
    exact ⟨further, onward, kept⟩

/-- The word that is taken for the name of a type: a name, with an opening brace anywhere
behind it. -/
def headedName? : List Token → Option Token
  | [] => none
  | token :: rest =>
    if token.kind = .name ∧ rest.any (·.isMark '{') then some token else none

/-- A type is declared under the word that is taken for its name, if there is one. -/
theorem readType_name (scope : Scope) (word : Text) (modifiers : List Text) (comment : Text)
    (left : List Token) :
    (readType scope source file word modifiers comment left).1.map (·.name) =
      (headedName? left).map fun named => ClassName.below scope.space named.text := by
  cases left with
  | nil => rfl
  | cons token rest =>
    by_cases named : token.kind = .name
    · cases opened : rest.dropWhile (!·.isMark '{') with
      | nil =>
        have unopened : rest.any (·.isMark '{') = false := by
          rw [List.dropWhile_eq_nil_iff] at opened
          rw [List.any_eq_false]
          intro brace member
          simpa using opened brace member
        simp only [readType, headedName?, named, unopened, drop_takeWhile, opened, if_true,
          Bool.false_eq_true, and_false, if_false, Option.map_none]
      | cons brace inner =>
        have opens : rest.any (·.isMark '{') = true := by
          have first := List.head?_dropWhile_not (fun token : Token => !token.isMark '{') rest
          rw [opened] at first
          have last : brace :: inner <:+ rest := opened ▸ List.dropWhile_suffix _
          rw [List.any_eq_true]
          exact ⟨brace, last.subset List.mem_cons_self, by simpa using first⟩
        rw [readType_opened named opened]
        simp only [headedName?, named, opens, declaration, and_self, if_true, Option.map_some]
    · simp only [readType, headedName?, named, false_and, if_false, Option.map_none]

/-- **The word `new` is looked for in one place only.** Wherever a walk comes to the
word `class` of an unnamed class, which has `new` in front and nothing but modifiers and
attribute groups between,

* nothing is declared if nothing stands between;
* else a class is declared as soon as a name follows that has an opening brace anywhere
  behind it, and that name is the one it is declared under. -/
theorem step_creation {position : Position} {before between rest : List Token}
    {creation token : Token} (walks : Walks source file position (token :: rest))
    (whole : tokens source = before ++ creation :: (between ++ token :: rest))
    (creates : Text.lower creation.text = "new".toList)
    (preamble : IsPreamble classModifiers between) (isName : token.kind = .name)
    (isClass : Text.lower token.text = "class".toList) :
    let declared := (step source file position token rest).declared
    (declared = none ↔ between = [] ∨ headedName? rest = none) ∧
      ∀ declaration ∈ declared, ∃ named ∈ headedName? rest,
        declaration.name = ClassName.below position.scope.space named.text := by
  intro declared
  obtain ⟨front, split, passed⟩ := walks.previous
  have behind : front = before ++ creation :: between := by
    rw [whole, ← List.cons_append, ← List.append_assoc] at split
    exact (List.append_cancel_right split).symm
  have introduces : token.kind = .name ∧ typeWords.contains (Text.lower token.text) = true := by
    rw [isClass]
    exact ⟨isName, by decide⟩
  rcases List.eq_nil_or_concat between with rfl | ⟨more, last, ends⟩
  · have excluded : (position.previous.any fun token =>
        excludesType.contains (Text.lower token.text)) = true := by
      rw [passed, behind, List.getLast?_concat, Option.any_some, creates]
      decide
    have nothing : declared = none := step_excluded introduces excluded rest
    rw [nothing]
    simp
  · rw [List.concat_eq_append] at ends
    have admitted : (position.previous.any fun token =>
        excludesType.contains (Text.lower token.text)) = false := by
      have plain : ∀ word ∈ [']'] :: classModifiers, excludesType.contains word = false := by decide
      rw [passed, behind, ends, ← List.cons_append, ← List.append_assoc, List.getLast?_concat,
        Option.any_some]
      exact plain _ (preamble.last last (by rw [ends, List.getLast?_concat]; rfl))
    have name : declared.map (·.name) =
        (headedName? rest).map fun named => ClassName.below position.scope.space named.text := by
      simp only [declared, step_type introduces admitted]
      exact readType_name position.scope _ position.modifiers position.comment rest
    constructor
    · rw [← Option.map_eq_none_iff, name, Option.map_eq_none_iff]
      simp [ends]
    · intro declaration declares
      rw [declares, Option.map_some] at name
      obtain ⟨named, follows, same⟩ := Option.map_eq_some_iff.mp name.symm
      exact ⟨named, follows, same.symm⟩

/-- An unnamed class with an attribute group and a modifier in front. -/
def mooring : Text := "new #[C] readonly class extends B \x7b\x7d".toList

/-- The tokens between `new` and `class` there. -/
def mooringBetween : List Token :=
  ⟨.attributeOpening, "#[".toList, 4, 6⟩ :: ([⟨.name, "C".toList, 6, 7⟩] ++
    ⟨.punctuation, "]".toList, 7, 8⟩ :: [⟨.name, "readonly".toList, 9, 17⟩])

/-- The tokens behind `class` there. -/
def mooringBehind : List Token := (tokens mooring).drop 6

/-- Where the walk comes to `class`, it declares a class under the word behind it. -/
theorem mooring_declares :
    ∃ position, Walks mooring none position
        (⟨.name, "class".toList, 18, 23⟩ :: mooringBehind) ∧
      (step mooring none position ⟨.name, "class".toList, 18, 23⟩ mooringBehind).declared.map
        (·.name) = some "extends".toList := by
  have whole : tokens mooring = [] ++ ⟨.name, "new".toList, 0, 3⟩ ::
      (mooringBetween ++ ⟨.name, "class".toList, 18, 23⟩ :: mooringBehind) := by decide +kernel
  have preamble : IsPreamble classModifiers mooringBetween :=
    .group rfl (by decide) (by decide) (.modifier rfl (by decide) .nil)
  have atNew : Walks mooring none {} (tokens mooring) := .start
  rw [whole] at atNew
  have behindNew := atNew.step
  have left : (step mooring none {} ⟨.name, "new".toList, 0, 3⟩ (mooringBetween ++
      ⟨.name, "class".toList, 18, 23⟩ :: mooringBehind)).left =
      mooringBetween ++ ⟨.name, "class".toList, 18, 23⟩ :: mooringBehind := by decide +kernel
  rw [left] at behindNew
  obtain ⟨position, atClass, scope, -⟩ := behindNew.preamble preamble
  obtain ⟨declares, named⟩ := step_creation atClass whole (by decide) preamble rfl (by decide)
  refine ⟨position, atClass, ?_⟩
  have follows : headedName? mooringBehind = some ⟨.name, "extends".toList, 24, 31⟩ := by
    decide +kernel
  rw [follows] at declares named
  obtain ⟨declaration, declared⟩ := Option.ne_none_iff_exists'.mp
    fun nothing => absurd (declares.mp nothing) (by simp [mooringBetween])
  obtain ⟨_, ⟨⟩, name⟩ := named declaration declared
  rw [declared, Option.map_some, name, scope]
  decide +kernel

/-- An unnamed class is declared, under the word behind `class`. -/
theorem unnamedClass_declared :
    (declarations mooring).map (·.name) = ["extends".toList] := by
  decide +kernel

end Walk

end Docblock.Source
