import Docblock.Proofs.Source.Reach
import Docblock.Proofs.Source.Tiling

/-!
# Bodies are opaque

When the reader comes to the opening brace of a body, it skips to the brace that closes
it. What stands between them can be replaced by any balanced tokens, and the declarations
stay the same, whatever these tokens are: they may introduce types, imports or
namespaces, or be documentation comments.

The condition is that the reader does come to the brace as one that it skips from. It
does so for the methods of the types that it reads, for functions and closures outside of
them, which the methods of unnamed classes are for it, for blocks among the members of a
type, and for all braces inside of these. It does not where it has taken the code around
the body for something else. A constant that is named like the word for imports is such
a case: behind `A::USE` the reader looks for an import statement, which goes up to the
next semicolon, and so into a body. There a body shows.
-/

namespace Docblock.Source

variable {source : Text} {file : Option Text}

/-- A source keeps the text of the tokens in front of what is put into it. -/
theorem agree_front {tokens : List Token} {length : Nat} (inside : length ≤ source.length)
    (before : ∀ token ∈ tokens, token.stop ≤ length) (rest : Text) :
    Agree source (source.take length ++ rest) id tokens := by
  intro first _ last member
  have width : (source.take length).length = length := by
    rw [List.length_take]
    omega
  have within := before last member
  rw [id_eq, id_eq, ← List.drop_take, ← List.drop_take,
    List.take_append_of_le_length (by omega), List.take_take, Nat.min_eq_left within]

/-- A source keeps the text of the tokens behind what is put into it, at other places. -/
theorem agree_back {tokens : List Token} {offset : Nat}
    (behind : ∀ token ∈ tokens, offset ≤ token.start ∧ offset ≤ token.stop) (front : Text) :
    Agree source (front ++ source.drop offset)
      (fun place => front.length + (place - offset)) tokens := by
  intro first firstMember last lastMember
  have start := (behind first firstMember).1
  have stop := (behind last lastMember).2
  have width : front.length + (last.stop - offset) - (front.length + (first.start - offset)) =
      last.stop - first.start := by omega
  have place : offset + (first.start - offset) = first.start := by omega
  rw [width, List.drop_append, Nat.add_sub_cancel_left, List.drop_drop, place]
  simp [List.drop_eq_nil_of_le]

/-- The tokens through an opening brace stop where it does at the latest, and those behind a
later token start there at the earliest. -/
theorem places_around {before body after : List Token} {opening closing : Token}
    (whole : tokens source = before ++ opening :: (body ++ closing :: after)) :
    opening.stop ≤ source.length ∧
      (∀ token ∈ before ++ [opening], token.stop ≤ opening.stop) ∧
      ∀ token ∈ after, closing.start ≤ token.start ∧ closing.start ≤ token.stop := by
  obtain ⟨spans, apart⟩ := tokens_apart source
  rw [whole] at spans apart
  obtain ⟨-, apartInside, apartBefore⟩ := List.pairwise_append.mp apart
  obtain ⟨-, apartBehind⟩ := List.pairwise_cons.mp apartInside
  obtain ⟨-, apartBehind, -⟩ := List.pairwise_append.mp apartBehind
  obtain ⟨apartAfter, -⟩ := List.pairwise_cons.mp apartBehind
  have openingSpan := spans opening (by simp)
  have closingSpan := spans closing (by simp)
  refine ⟨openingSpan.2, ?_, ?_⟩
  · intro token member
    rcases List.mem_append.mp member with earlier | last
    · have ends := apartBefore token earlier opening List.mem_cons_self
      omega
    · obtain rfl := List.mem_singleton.mp last
      exact Nat.le_refl _
  · intro token member
    have starts := apartAfter token member
    have span := spans token (by simp [member])
    omega

/-- With other tokens between the braces that leave nothing open, and the tokens behind moved
to where another source has their text, a reader finds the same declarations. -/
theorem Reaches.replaced {before body replacing after : List Token} {opening closing : Token}
    (reaches : Reaches source file before (opening :: (body ++ closing :: after)))
    (opens : opening.isMark '{' = true)
    (enclosed : unclosed [['}']] body = [['}']]) (closes : closing.Closes ['}'])
    (balanced : IsBalanced replacing) {other : Text} {shift : Nat → Nat}
    (agree : Agree source other id (before ++ [opening]))
    (agreeAfter : Agree source other shift after) :
    declarationsFrom other file {} (before ++ opening ::
      (replacing ++ (closing :: after).map (Token.moved shift))) =
        declarations source file := by
  have bracket : ['}'] ∈ closingBrackets := by decide
  have rejoins := @rejoins_of_unclosed shift closing after id body replacing enclosed
    (balanced.unclosed_eq bracket []) closes
  have read := reaches.declarations_eq rfl opens rejoins agreeAfter agree
  rw [Fork.second, map_moved_id, List.append_assoc] at read
  exact read

/-- **Bodies are opaque.** A reader that comes to the opening brace of a body skips to the
brace that closes it, and what stands between them does not matter. With any balanced
tokens in their place the declarations are the same,

* when the reader is given those tokens, and
* when another text is put between the braces that has those tokens there. The tokens
  behind it are then further back or further in front. -/
theorem declarations_of_replaced_body {before body replacing after : List Token}
    {opening closing : Token}
    (reaches : Reaches source file before (opening :: (body ++ closing :: after)))
    (opens : opening.isMark '{' = true)
    (enclosed : unclosed [['}']] body = [['}']]) (closes : closing.Closes ['}'])
    (balanced : IsBalanced replacing) :
    declarationsFrom source file {} (before ++ opening :: (replacing ++ closing :: after)) =
      declarations source file ∧
    ∀ inserted : Text,
      let front := source.take opening.stop ++ inserted
      let shift := fun place => front.length + (place - closing.start)
      tokens (front ++ source.drop closing.start) =
        before ++ opening :: (replacing ++ (closing :: after).map (Token.moved shift)) →
      declarations (front ++ source.drop closing.start) file = declarations source file := by
  constructor
  · have same (tokens : List Token) : Agree source source id tokens := fun _ _ _ _ => rfl
    have read := reaches.replaced opens enclosed closes balanced (same _) (same _)
    rwa [map_moved_id] at read
  · intro inserted front shift given
    obtain ⟨inside, leading, trailing⟩ := places_around reaches.whole
    have agree : Agree source (front ++ source.drop closing.start) id (before ++ [opening]) := by
      have further := agree_front inside leading (inserted ++ source.drop closing.start)
      rwa [← List.append_assoc] at further
    rw [declarations, given]
    exact reaches.replaced opens enclosed closes balanced agree (agree_back trailing front)

/-- A text of lines. -/
def ofLines (written : List String) : Text := written.flatMap fun line => line.toList ++ ['\n']

/-- A source with a class of one method, and another class behind it. -/
def oneMethod (body : Text) : Text :=
  ofLines ["<?php", "class A \x7b", "function f() \x7b"] ++ body ++
    ofLines ["\x7d \x7d", "class B \x7b \x7d"]

/-- A body that returns. -/
def plainBody : Text := ofLines ["return 1;"]

/-- A body with words that are read outside of bodies, and with brackets in a comment, in a
string and in an attribute group. -/
def busyBody : Text :=
  ofLines ["/** \x7d */", "class C \x7b \x7d", "use X;", "'\x7d';", "#[D([])]"]

/-- The tokens of that source in front of the body. -/
def methodFront : List Token :=
  [⟨.name, "class".toList, 6, 11⟩, ⟨.name, ['A'], 12, 13⟩, ⟨.punctuation, ['{'], 14, 15⟩,
    ⟨.name, "function".toList, 16, 24⟩, ⟨.name, ['f'], 25, 26⟩, ⟨.punctuation, ['('], 26, 27⟩,
    ⟨.punctuation, [')'], 27, 28⟩]

/-- The tokens of the body that returns. -/
def plainTokens : List Token :=
  [⟨.name, "return".toList, 31, 37⟩, ⟨.number, ['1'], 38, 39⟩, ⟨.punctuation, [';'], 39, 40⟩]

/-- The tokens behind the body that returns. -/
def methodBack : List Token :=
  [⟨.punctuation, ['}'], 43, 44⟩, ⟨.name, "class".toList, 45, 50⟩, ⟨.name, ['B'], 51, 52⟩,
    ⟨.punctuation, ['{'], 53, 54⟩, ⟨.punctuation, ['}'], 55, 56⟩]

/-- The reader comes to the body of the one method. -/
theorem reaches_plainBody : Reaches (oneMethod plainBody) none methodFront
    (⟨.punctuation, ['{'], 29, 30⟩ ::
      (plainTokens ++ ⟨.punctuation, ['}'], 41, 42⟩ :: methodBack)) := by
  have whole : tokens (oneMethod plainBody) = methodFront ++ ⟨.punctuation, ['{'], 29, 30⟩ ::
      (plainTokens ++ ⟨.punctuation, ['}'], 41, 42⟩ :: methodBack) := by decide +kernel
  refine .outside whole ?_
  rw [whole]
  refine .members (by decide) rfl rfl rfl (.body (by decide) ?_ ?_)
  · decide +kernel
  · decide +kernel

/-- The class and its method are read alike around the other body, and the class behind
them is. -/
theorem oneMethod_busyBody :
    declarations (oneMethod busyBody) = declarations (oneMethod plainBody) ∧
      (declarations (oneMethod busyBody)).map (·.name) = [['A'], ['B']] := by
  have replaced := (@declarations_of_replaced_body (oneMethod plainBody) none methodFront
    plainTokens (((tokens (oneMethod busyBody)).drop 8).take 17) methodBack
    ⟨.punctuation, ['{'], 29, 30⟩ ⟨.punctuation, ['}'], 41, 42⟩ reaches_plainBody
    (by decide) (by decide) (by decide) (by decide +kernel)).2 ('\n' :: busyBody)
    (by decide +kernel)
  have text : (oneMethod plainBody).take 30 ++ '\n' :: busyBody ++
      (oneMethod plainBody).drop 41 = oneMethod busyBody := by decide +kernel
  rw [text] at replaced
  exact ⟨replaced, by decide +kernel⟩

/-- A source in which a class constant is named like the word for imports, and a body stands
behind it. -/
def behindConstant (body : Text) : Text :=
  ofLines ["<?php namespace M;", "if (A::USE) \x7b", "class B \x7b", "function f() \x7b"] ++
    body ++ ofLines ["\x7d \x7d \x7d", "namespace N;", "class C \x7b \x7d"]

/-- Behind such a constant a body shows: its three balanced tokens between the braces of the
method are all that is taken out, and the last class changes its namespace. The reader looks
for an import statement behind the constant, and so goes up to the first semicolon, which
stands in the body or behind the last namespace. -/
theorem bodyBehindConstant_shows :
    let found := tokens (behindConstant plainBody)
    let body := (found.drop 18).take 3
    (found.take 18).getLast?.any (·.isMark '{') = true ∧
      (found.drop 21).head?.any (·.isMark '}') = true ∧
      unclosed [['}']] body = [['}']] ∧ IsBalanced body ∧
      tokens (behindConstant []) =
        found.take 18 ++ (found.drop 21).map (Token.moved (· - plainBody.length)) ∧
      (declarations (behindConstant plainBody)).map (·.name) = ["N\\C".toList] ∧
      (declarations (behindConstant [])).map (·.name) = ["M\\C".toList] := by
  decide +kernel

end Docblock.Source
