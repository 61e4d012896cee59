import Docblock.Proofs.Source.Preambles
import Mathlib.Data.List.Forall2

/-!
# Whose comment it is

The reader keeps the last documentation comment that it has passed until it comes to the
word that introduces a type or a method, and drops it at whatever else it comes to but
modifiers and attribute groups. So a comment that is read stands in front of the word that
introduces what it is read for, with nothing else between.

Each headline, that of a type or of a method, is found among the tokens together with its
comment, and the headlines follow one another as the declarations and their methods do. A
comment then belongs to one headline at most: the comment of a class is behind the headline
before it and in front of its own, and so are those of its methods.

A comment may be lost: the reader drops it where it finds no headline behind. This is not
about completeness, but about comments that end up in the wrong place.
-/

namespace Docblock.Source

/-- How something is introduced: the documentation comment in front, if any, the word that
introduces it, and the name behind that word. -/
structure Headline where
  doc : Option Token
  word : Token
  name : Token

namespace Headline

/-- The comment of a headline; empty if there is none in front. -/
def comment (headline : Headline) : Text := (headline.doc.map (·.text)).getD []

/-- The tokens of a headline in order. -/
def tokens (headline : Headline) : List Token :=
  headline.doc.toList ++ [headline.word, headline.name]

/-- A headline that stands among some tokens: its word is one that introduces something, with
a name behind it, and between a documentation comment in front and that word there are
modifiers and closed attribute groups only. The mark of a reference may stand before the
name. -/
structure IsIn (headline : Headline) (found : List Token) (modifiers words : List Text) :
    Prop where
  isDoc : ∀ doc ∈ headline.doc, doc.kind = .doc
  introduces : headline.word.kind = .name ∧ Text.lower headline.word.text ∈ words
  named : headline.name.kind = .name
  placed : ∃ before between reference after,
    found = before ++ headline.doc.toList ++ between ++
      headline.word :: (reference ++ headline.name :: after) ∧
    IsPreamble modifiers between ∧ ∀ token ∈ reference, token.isMark '&' = true

end Headline

/-- The headlines of a type: its own and those of its methods. -/
structure TypeHeadlines where
  own : Headline
  members : List Headline

/-- All headlines of a type in order. -/
def TypeHeadlines.all (headlines : TypeHeadlines) : List Headline :=
  headlines.own :: headlines.members

/-- A method has the name and the comment of a headline among some tokens. -/
structure Method.IsHeadedBy (found : List Token) (method : Method) (headline : Headline) :
    Prop where
  isIn : headline.IsIn found memberModifiers ["function".toList]
  name : method.name = headline.name.text
  comment : method.comment = headline.comment

/-- A declaration has the name and the comment of a headline among some tokens, and so has each
of its methods, in order. -/
structure Declaration.IsHeadedBy (found : List Token) (declared : Declaration)
    (headlines : TypeHeadlines) : Prop where
  isIn : headlines.own.IsIn found classModifiers typeWords
  name : declared.name = ClassName.below declared.scope.space headlines.own.name.text
  comment : declared.comment = headlines.own.comment
  methods : List.Forall₂ (Method.IsHeadedBy found) declared.methods headlines.members

section Pending

variable {modifiers : List Text} {found passed : List Token} {kept : Option Token}
  {comment : Text}

/-- A comment that is kept behind some tokens: none, or that of a documentation comment with
nothing but a preamble behind it. -/
structure IsPending (modifiers : List Text) (passed : List Token) (doc : Option Token)
    (comment : Text) : Prop where
  isDoc : ∀ token ∈ doc, token.kind = .doc
  text : comment = (doc.map (·.text)).getD []
  placed : ∃ before between, passed = before ++ doc.toList ++ between ∧
    IsPreamble modifiers between

namespace IsPending

/-- No comment is kept at the start and behind what has none. -/
theorem none (modifiers : List Text) (passed : List Token) : IsPending modifiers passed none [] :=
  ⟨by simp, rfl, passed, [], by simp, .nil⟩

/-- Behind a documentation comment that comment is kept. -/
theorem doc {token : Token} (isDoc : token.kind = .doc) (modifiers : List Text)
    (passed : List Token) : IsPending modifiers (passed ++ [token]) (some token) token.text :=
  ⟨by simpa using isDoc, rfl, passed, [], by simp, .nil⟩

/-- A comment is kept over a preamble. -/
theorem behind (pending : IsPending modifiers passed kept comment) {more : List Token}
    (preamble : IsPreamble modifiers more) :
    IsPending modifiers (passed ++ more) kept comment := by
  obtain ⟨isDoc, text, before, between, split, earlier⟩ := pending
  refine ⟨isDoc, text, before, between ++ more, ?_, earlier.append preamble⟩
  rw [split, List.append_assoc]

/-- A comment is kept over an attribute group that leaves something. -/
theorem behind_group (pending : IsPending modifiers passed kept comment) {opening : Token}
    {rest : List Token} (opens : opening.kind = .attributeOpening)
    (nonempty : skipAttribute rest ≠ []) :
    ∃ group, rest = group ++ skipAttribute rest ∧
      IsPending modifiers (passed ++ opening :: group) kept comment := by
  obtain ⟨group, preamble, split⟩ := IsPreamble.of_skipAttribute opens nonempty
  exact ⟨group, split, pending.behind preamble⟩

/-- The comment that is kept where something is introduced is the one of that headline. -/
theorem isIn (pending : IsPending modifiers passed kept comment) {word name : Token}
    {reference after : List Token} {words : List Text}
    (introduces : word.kind = .name ∧ Text.lower word.text ∈ words) (named : name.kind = .name)
    (marks : ∀ token ∈ reference, token.isMark '&' = true)
    (split : found = passed ++ word :: (reference ++ name :: after)) :
    Headline.IsIn ⟨kept, word, name⟩ found modifiers words := by
  obtain ⟨isDoc, -, before, between, rfl, preamble⟩ := pending
  exact ⟨isDoc, introduces, named, before, between, reference, after, split, preamble, marks⟩

end IsPending

end Pending

section Order

/-- Headlines that stand, in order, among the tokens behind a kept comment, that comment
included, with the comment that is kept at the end of these behind them all. -/
def InOrder (kept : Option Token) (front : List Token) (headlines : List Headline)
    (further : Option Token) : Prop :=
  (headlines.flatMap Headline.tokens ++ further.toList).Sublist (kept.toList ++ front)

variable {kept further last : Option Token} {front behind : List Token}
  {headlines others : List Headline}

/-- Without headlines a comment goes on to be kept, or is dropped. -/
theorem InOrder.nothing (front : List Token) (dropped : further = kept ∨ further = none) :
    InOrder kept front [] further := by
  rcases dropped with rfl | rfl
  · exact List.sublist_append_left _ front
  · exact List.nil_sublist _

/-- A headline with the kept comment stands where its word is, in front of its name. -/
theorem InOrder.single {word name : Token} (behind : name ∈ front) :
    InOrder kept (word :: front) [⟨kept, word, name⟩] none := by
  have tokens : [Headline.mk kept word name].flatMap Headline.tokens =
      kept.toList ++ [word, name] := List.append_nil _
  rw [InOrder, tokens, Option.toList_none, List.append_nil]
  apply List.Sublist.append_left
  apply List.Sublist.cons_cons
  exact List.singleton_sublist.mpr behind

/-- Headlines that follow one another are in order. -/
theorem InOrder.append (first : InOrder kept front headlines further)
    (second : InOrder further behind others last) :
    InOrder kept (front ++ behind) (headlines ++ others) last := by
  unfold InOrder at *
  rw [List.flatMap_append, List.append_assoc, ← List.append_assoc kept.toList]
  refine List.Sublist.trans (second.append_left _) ?_
  rw [← List.append_assoc]
  exact first.append_right behind

/-- The comments of some headlines are among their tokens, in order. -/
theorem docs_sublist (headlines : List Headline) :
    (headlines.filterMap (·.doc)).Sublist (headlines.flatMap Headline.tokens) := by
  induction headlines with
  | nil => exact .slnil
  | cons headline rest inductionHypothesis =>
    have comments : (headline :: rest).filterMap (·.doc) =
        headline.doc.toList ++ rest.filterMap (·.doc) := by
      rw [List.filterMap_cons]
      cases headline.doc <;> rfl
    rw [comments, List.flatMap_cons, Headline.tokens, List.append_assoc]
    apply List.Sublist.append_left
    exact inductionHypothesis.trans (List.sublist_append_right _ _)

end Order

section Members

variable {scope : Scope} {source : Text} {modifiers : List Text} {found passed : List Token}
  {kept : Option Token} {comment : Text}

/-- Only marks of references are skipped as such. -/
theorem skipReference_split (found : List Token) :
    ∃ reference, found = reference ++ skipReference found ∧
      ∀ token ∈ reference, token.isMark '&' = true := by
  cases found with
  | nil => exact ⟨[], rfl, by simp⟩
  | cons token rest =>
    by_cases reference : token.isMark '&' = true
    · exact ⟨[token], by simp [skipReference, reference], by simpa using reference⟩
    · exact ⟨[], by simp [skipReference, reference], by simp⟩

/-- A method that is read has its name behind the word that introduces it, and the comment
that is kept there. -/
theorem readMethod_headed (pending : IsPending memberModifiers passed kept comment) {word : Token}
    (introduces : word.kind = .name ∧ Text.lower word.text = "function".toList)
    {rest : List Token} (split : found = passed ++ word :: rest) {method : Method}
    (read : (readMethod scope source modifiers comment rest).1 = some method) :
    ∃ name, method.IsHeadedBy found ⟨kept, word, name⟩ ∧
      ∃ front, rest = front ++ (readMethod scope source modifiers comment rest).2 ∧
        name ∈ front := by
  obtain ⟨reference, marked, marks⟩ := skipReference_split rest
  have left := readMethod_left_suffix scope source modifiers comment rest
  rw [readMethod] at read left ⊢
  cases unreferenced : skipReference rest with
  | nil =>
    rw [unreferenced] at read
    cases read
  | cons name after =>
    by_cases named : name.kind = .name
    · simp only [unreferenced, named, if_true] at read left marked ⊢
      have shorter : (skipBody (returnTokens (parameterList scope source after).2).2).length ≤
          after.length :=
        Nat.le_trans (skipBody_length_le _) (Nat.le_trans (returnTokens_length_le _)
          (parameterList_length_le scope source after))
      have behind : after <:+ rest := by
        rw [marked, ← List.singleton_append, ← List.append_assoc]
        exact List.suffix_append _ after
      obtain ⟨more, onward⟩ := List.suffix_of_suffix_length_le left behind shorter
      cases read
      refine ⟨name, ⟨?_, rfl, pending.text⟩, reference ++ name :: more, ?_, ?_⟩
      · exact pending.isIn ⟨introduces.1, by simp [introduces.2]⟩ named marks
          (by rw [split, marked])
      · rw [List.append_assoc, List.cons_append, onward]
        exact marked
      · simp
    · simp only [unreferenced, named, if_false] at read
      cases read

/-- A step among the members goes on with the comment that it keeps, and reads a method, if
any, under the comment that was kept in front. -/
theorem memberStep_headed (pending : IsPending memberModifiers passed kept comment)
    {token : Token} {rest : List Token} (split : found = passed ++ token :: rest)
    {next : MemberStep}
    (steps : memberStep scope source modifiers comment token rest = some next) :
    ∃ front headlines further, token :: rest = front ++ next.left ∧
      (next.left ≠ [] → IsPending memberModifiers (passed ++ front) further next.comment) ∧
      List.Forall₂ (Method.IsHeadedBy found) next.method.toList headlines ∧
      InOrder kept front headlines further := by
  have single : token :: rest = [token] ++ rest := rfl
  have started := token.starts_spec
  unfold memberStep at steps
  cases starts : token.starts with
  | comment =>
    simp only [starts, Option.some.injEq] at steps started
    subst steps
    refine ⟨[token], [], some token, single, fun _ => ?_, .nil, ?_⟩
    · exact .doc started _ passed
    · exact List.sublist_append_right _ _
  | group =>
    simp only [starts, Option.some.injEq] at steps started
    subst steps
    -- a group that is not closed takes all tokens, and there is nothing to keep a comment for
    by_cases ended : skipAttribute rest = []
    · exact ⟨token :: rest, [], none, by simp [ended], fun nonempty => absurd ended nonempty, .nil,
        .nothing _ (.inr rfl)⟩
    · obtain ⟨group, skipped, onward⟩ := pending.behind_group started ended
      exact ⟨token :: group, [], kept, congrArg (token :: ·) skipped, fun _ => onward, .nil,
        .nothing _ (.inl rfl)⟩
  | closing => simp [starts] at steps
  | modifier =>
    simp only [starts, Option.some.injEq] at steps started
    subst steps
    refine ⟨[token], [], kept, single, fun _ => ?_, .nil, .nothing _ (.inl rfl)⟩
    exact pending.behind (.modifier started.1 started.2 .nil)
  | method =>
    simp only [starts, Option.some.injEq] at steps started
    subst steps
    cases read : (readMethod scope source modifiers comment rest).1 with
    | none =>
      obtain ⟨front, skipped⟩ := readMethod_left_suffix scope source modifiers comment rest
      exact ⟨token :: front, [], none, congrArg (token :: ·) skipped.symm,
        fun _ => .none _ _, .nil, .nothing _ (.inr rfl)⟩
    | some method =>
      obtain ⟨name, headed, front, skipped, inside⟩ :=
        readMethod_headed pending started split read
      exact ⟨token :: front, [⟨kept, token, name⟩], none, congrArg (token :: ·) skipped,
        fun _ => .none _ _, .cons headed .nil, .single inside⟩
  | statement =>
    simp only [starts, Option.some.injEq] at steps
    subst steps
    obtain ⟨front, skipped⟩ := skipStatement_suffix (token :: rest)
    exact ⟨front, [], none, skipped.symm, fun _ => .none _ _, .nil, .nothing _ (.inr rfl)⟩

/-- The methods that are read from the members of a type have the names and the comments of
headlines that stand in order. The induction is on the tokens left; each step goes on with
what is kept behind it, as long as there is a token to keep it for. -/
theorem readBody_headed (modifiers : List Text) (comment : Text) {left : List Token}
    (pending : left ≠ [] → IsPending memberModifiers passed kept comment)
    (split : found = passed ++ left) :
    ∃ front headlines, left = front ++ (readBody scope source modifiers comment left).2 ∧
      List.Forall₂ (Method.IsHeadedBy found) (readBody scope source modifiers comment left).1
        headlines ∧
      InOrder kept front headlines none := by
  induction size : left.length using Nat.strongRecOn
    generalizing modifiers comment passed kept left with
  | ind size inductionHypothesis =>
    cases left with
    | nil => exact ⟨[], [], by simp [readBody], by simp [readBody], .nothing [] (.inr rfl)⟩
    | cons token rest =>
      rw [readBody_cons]
      cases steps : memberStep scope source modifiers comment token rest with
      | none => exact ⟨[token], [], rfl, .nil, .nothing [token] (.inr rfl)⟩
      | some next =>
        obtain ⟨front, headlines, further, whole, onward, methods, ordered⟩ :=
          memberStep_headed (pending (List.cons_ne_nil token rest)) split steps
        have shorter := memberStep_length_le steps
        rw [List.length_cons] at size
        obtain ⟨behind, others, left, later, order⟩ :=
          inductionHypothesis next.left.length (by omega) next.modifiers next.comment onward
            (by rw [split, whole, List.append_assoc]) rfl
        refine ⟨front ++ behind, headlines ++ others, ?_, ?_, ordered.append order⟩
        · rw [List.append_assoc, ← left]
          exact whole
        · exact List.rel_append methods later

end Members

section Walk

variable {source : Text} {file : Option Text} {position : Position} {found passed : List Token}
  {kept : Option Token} {token : Token} {rest : List Token}

/-- A type that is read has the comment that is kept in front of the word that introduces it,
and its methods have theirs, in order. -/
theorem readType_headed (pending : IsPending classModifiers passed kept position.comment)
    (introduces : token.kind = .name ∧ Text.lower token.text ∈ typeWords)
    (split : found = passed ++ token :: rest) {word : Text} {declared : Declaration}
    {left : List Token}
    (read : readType position.scope source file word position.modifiers position.comment rest =
      (some declared, left)) :
    ∃ front headlines, rest = front ++ left ∧ declared.IsHeadedBy found headlines ∧
      InOrder kept (token :: front) headlines.all none := by
  cases rest with
  | nil => cases read
  | cons name more =>
    by_cases named : name.kind = .name
    · cases opened : more.dropWhile (!·.isMark '{') with
      | nil => simp [readType, named, drop_takeWhile, opened] at read
      | cons brace inner =>
        rw [readType_opened named opened] at read
        have behind : more = more.takeWhile (!·.isMark '{') ++ brace :: inner := by
          rw [← opened, List.takeWhile_append_dropWhile]
        generalize more.takeWhile (!·.isMark '{') = headed at *
        have nothingKept : inner ≠ [] → IsPending memberModifiers
            (passed ++ token :: name :: (headed ++ [brace])) none [] := fun _ => .none _ _
        have opening : found = (passed ++ token :: name :: (headed ++ [brace])) ++ inner := by
          rw [split, behind]
          simp
        obtain ⟨front, headlines, whole, methods, ordered⟩ :=
          @readBody_headed position.scope source found _ none [] [] inner nothingKept opening
        cases read
        refine ⟨name :: (headed ++ brace :: front), ⟨⟨kept, token, name⟩, headlines⟩, ?_, ?_, ?_⟩
        · rw [behind, List.cons_append, List.append_assoc, List.cons_append, ← whole]
        · constructor
          · exact pending.isIn introduces named (List.forall_mem_nil _) (by rw [split]; rfl)
          · rfl
          · exact pending.text
          · exact methods
        · have own : InOrder kept (token :: name :: (headed ++ [brace]))
              [⟨kept, token, name⟩] none := .single List.mem_cons_self
          have regrouped : token :: name :: (headed ++ brace :: front) =
              token :: name :: (headed ++ [brace]) ++ front := by simp
          rw [regrouped]
          exact own.append ordered
    · simp [readType, named] at read

/-- A step goes on with the comment that it keeps, and declares a type, if any, under the
comment that was kept in front. -/
theorem step_headed (pending : IsPending classModifiers passed kept position.comment)
    (split : found = passed ++ token :: rest) :
    let next := step source file position token rest
    ∃ front headlines further, token :: rest = front ++ next.left ∧
      (next.left ≠ [] →
        IsPending classModifiers (passed ++ front) further next.position.comment) ∧
      List.Forall₂ (Declaration.IsHeadedBy found) next.declared.toList headlines ∧
      InOrder kept front (headlines.flatMap TypeHeadlines.all) further := by
  intro next
  obtain ⟨front, skipped⟩ := step_left_suffix source file position token rest
  have single : token :: rest = [token] ++ rest := rfl
  rcases step_cases source file position token rest with ⟨isDoc, none, comment, left⟩ |
      ⟨group, none, comment, left⟩ | ⟨isName, listed, none, comment, left⟩ |
      ⟨comment, none | ⟨introduces, read⟩⟩
  · refine ⟨[token], [], some token, ?_, fun _ => ?_, ?_, ?_⟩
    · rw [left]
      exact single
    · rw [comment]
      exact .doc isDoc _ passed
    · rw [none]
      exact .nil
    · exact List.sublist_append_right _ _
  · -- as among the members, a group that is not closed ends the walk
    by_cases ended : skipAttribute rest = []
    · refine ⟨token :: rest, [], Option.none, ?_, ?_, ?_, .nothing _ (.inr rfl)⟩
      · rw [left, ended, List.append_nil]
      · exact fun nonempty => absurd (left.trans ended) nonempty
      · rw [none]
        exact .nil
    · obtain ⟨inner, whole, onward⟩ := pending.behind_group group ended
      refine ⟨token :: inner, [], kept, ?_, fun _ => ?_, ?_, .nothing _ (.inl rfl)⟩
      · rw [left]
        exact congrArg (token :: ·) whole
      · rw [comment]
        exact onward
      · rw [none]
        exact .nil
  · refine ⟨[token], [], kept, ?_, fun _ => ?_, ?_, .nothing _ (.inl rfl)⟩
    · rw [left]
      exact single
    · rw [comment]
      exact pending.behind (.modifier isName listed .nil)
    · rw [none]
      exact .nil
  · refine ⟨token :: front, [], Option.none, congrArg (token :: ·) skipped.symm, fun _ => ?_, ?_,
      .nothing _ (.inr rfl)⟩
    · rw [comment]
      exact .none _ _
    · rw [none]
      exact .nil
  · cases declared : next.declared with
    | none =>
      exact ⟨token :: front, [], Option.none, congrArg (token :: ·) skipped.symm,
        fun _ => by rw [comment]; exact .none _ _, .nil, .nothing _ (.inr rfl)⟩
    | some declaration =>
      rw [declared] at read
      obtain ⟨passed, headlines, whole, headed, ordered⟩ :=
        readType_headed pending introduces split read.symm
      refine ⟨token :: passed, [headlines], Option.none, congrArg (token :: ·) whole,
        fun _ => ?_, .cons headed .nil, ?_⟩
      · rw [comment]
        exact .none _ _
      · rwa [List.flatMap_singleton]

/-- The declarations that the rest of a walk yields have the names and the comments of
headlines that stand in order. -/
theorem declarationsFrom_headed (position : Position) {left : List Token}
    (pending : left ≠ [] → IsPending classModifiers passed kept position.comment)
    (split : found = passed ++ left) :
    ∃ headlines, List.Forall₂ (Declaration.IsHeadedBy found)
        (declarationsFrom source file position left) headlines ∧
      InOrder kept left (headlines.flatMap TypeHeadlines.all) none := by
  induction size : left.length using Nat.strongRecOn
    generalizing position passed kept left with
  | ind size inductionHypothesis =>
    cases left with
    | nil =>
      rw [declarationsFrom]
      exact ⟨[], .nil, .nothing [] (.inr rfl)⟩
    | cons token rest =>
      rw [declarationsFrom]
      obtain ⟨front, headlines, further, whole, onward, declared, ordered⟩ :=
        @step_headed source file position found passed kept token rest
          (pending (List.cons_ne_nil token rest)) split
      have shorter := step_left_length_le source file position token rest
      rw [List.length_cons] at size
      obtain ⟨others, later, order⟩ := inductionHypothesis _ (by omega) _ onward
        (by rw [split, whole, List.append_assoc]) rfl
      refine ⟨headlines ++ others, List.rel_append declared later, ?_⟩
      rw [List.flatMap_append, whole]
      exact ordered.append order

/-- The tokens of a source are all different, as no two of them have the same place. -/
theorem nodup_tokens (source : Text) : (tokens source).Nodup := by
  obtain ⟨spans, apart⟩ := tokens_apart source
  apply List.Pairwise.imp_of_mem ?_ apart
  rintro first second member - before rfl
  have span := spans first member
  omega

/-- **A comment is attributed to what it stands in front of, and only once.** For every source
text, the declarations and their methods have headlines among its tokens, one for each, such
that

* each declaration and each method has the name and the comment of its headline: the comment
  is empty, or it is that of a documentation comment that has nothing but modifiers and closed
  attribute groups between itself and the word that introduces what it is for;
* the comments, words and names of all headlines follow one another among the tokens, a class
  in front of its methods;
* so a comment stands behind the name of the headline before its own: that of a method is
  neither that of its class nor that of a member before it;
* no documentation comment is in two of the headlines. -/
theorem declarations_headed (source : Text) (file : Option Text) :
    ∃ headlines : List TypeHeadlines,
      List.Forall₂ (Declaration.IsHeadedBy (tokens source)) (declarations source file) headlines ∧
      let all := headlines.flatMap TypeHeadlines.all
      (all.flatMap Headline.tokens).Sublist (tokens source) ∧
      (all.Pairwise fun earlier later => ∀ doc ∈ later.doc, earlier.name.stop ≤ doc.start) ∧
      (all.filterMap (·.doc)).Nodup := by
  obtain ⟨headlines, headed, ordered⟩ := @declarationsFrom_headed source file (tokens source) []
    none {} (tokens source) (fun _ => .none _ _) rfl
  rw [InOrder, Option.toList_none, List.append_nil, List.nil_append] at ordered
  refine ⟨headlines, headed, ordered, ?_, ?_⟩
  · obtain ⟨-, apart⟩ := List.pairwise_flatMap.mp ((tokens_apart source).2.sublist ordered)
    apply apart.imp
    rintro earlier later behind doc isDoc
    apply behind earlier.name (by simp [Headline.tokens]) doc
    exact List.mem_append_left _ (Option.mem_toList.mpr isDoc)
  · exact (nodup_tokens source).sublist ((docs_sublist _).trans ordered)

/-- The comment of a property goes to no method. -/
example :
    (declarations ("/** A. */ class A \x7b /** X. */ public $x; function f() \x7b\x7d /** G. */ " ++
      "#[B] final function g() \x7b\x7d \x7d").toList).map (fun declared =>
        (declared.comment, declared.methods.map (·.comment))) =
      [("/** A. */".toList, [[], "/** G. */".toList])] := by
  decide +kernel

end Walk

end Docblock.Source
