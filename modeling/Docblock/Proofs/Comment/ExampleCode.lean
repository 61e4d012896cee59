import Docblock.Proofs.Comment.Lines
import Docblock.Proofs.Comment.Written
import Docblock.Proofs.Markdown.Listings

/-!
# Example code from comment to block

Example code is written as the last part of a comment, behind a line that takes it in hand. On
its way to the block the lines lose their markers, are put together by the reading of the tags,
lose the white space at the ends, which is that in front of the first line, and then the
indentation that the others have in common. What the block holds at the end is the code as it
was written, with the common indentation taken off every line.

Other lines may stand in front of the example, also of other tags. Code with further tags behind
it is not covered, nor is an example that goes on from an earlier one.
-/

namespace Docblock.Comment

/-- The line that takes example code in hand. -/
def exampleHeading : Text := '@' :: exampleTag

/-- Lines that may stand in a comment in front of its example: the comment starts with neither
white space nor a star, and none of them takes example code in hand. -/
structure IsPreface (preface : List Text) : Prop where
  unbroken : ∀ line ∈ preface, ∀ c ∈ line, Text.isLineBreak c = false
  starts : ∀ first, preface.head? = some first →
    ∃ c, first.head? = some c ∧ Text.isBlank c = false ∧ isStar c = false
  other : ∀ line ∈ preface, (Text.words line).head? ≠ some exampleHeading

/-- Code that can be written in a comment: a listing without lines that say something of their
own to the reading, and without a star at the end. -/
structure IsExampleCode (cut : Nat) (code : List Text) : Prop
    extends Markdown.IsListing cut code where
  plain : ∀ line ∈ code, ∀ word, (Text.words line).head? = some word → word.head? ≠ some '@'
  unstarred : ∀ last, code.getLast? = some last → last.getLast? ≠ some '*'

variable {builtIns : List Text} {scope : Scope} {line : Text}

/-- The line of the example takes it in hand. -/
theorem kindOf_exampleHeading : kindOf exampleHeading = .opening exampleTag ∧
    (Text.words exampleHeading).tail = [] := by
  decide +kernel

/-- A line takes example code in hand only with the word for it. -/
theorem head?_words_of_opening (kind : kindOf line = .opening exampleTag) :
    (Text.words line).head? = some exampleHeading := by
  unfold kindOf at kind
  split at kind
  · cases kind
  · rename_i first rest read
    split at kind
    · split at kind
      · cases kind
      · split at kind
        · cases kind
        · cases kind
          rw [read]
          rfl
    · cases kind

/-- A line whose first word has no at sign in front is empty or running text. -/
theorem kindOf_of_plain
    (plain : ∀ word, (Text.words line).head? = some word → word.head? ≠ some '@') :
    kindOf line = if Text.words line = [] then .empty else .plain := by
  unfold kindOf
  cases read : Text.words line with
  | nil => rfl
  | cons first rest =>
    have unmarked := plain first (by rw [read]; rfl)
    dsimp only
    split
    · exact absurd rfl unmarked
    · rfl

namespace TagState

/-- A reading that has example code in hand, of which something has been read. -/
structure Holds (state : TagState) (content : Text) : Prop where
  current : state.current = exampleTag
  found : Keyed.find? exampleTag state.tags = some (.text content)

/-- A reading that has come to no example so far. -/
structure AwaitsExample (state : TagState) : Prop where
  current : state.current ≠ exampleTag
  absent : Keyed.find? exampleTag state.tags = none

variable (builtIns scope) {state : TagState} {content : Text}

/-- Example code in hand is extended. -/
theorem Holds.extended (holds : state.Holds content) (addition : Text) :
    (state.extend addition).Holds (content ++ addition) := by
  rw [TagState.extend, holds.current, holds.found]
  exact ⟨rfl, Keyed.find?_put_same _ _ _⟩

/-- A line of code is added behind a line feed, also if it is empty and stands between others. -/
theorem Holds.afterLine (holds : state.Holds content)
    (plain : ∀ word, (Text.words line).head? = some word → word.head? ≠ some '@')
    (inside : Markdown.isVisible line = true ∨ content ≠ [] ∧ line = []) :
    (state.addLine builtIns scope line).Holds (content ++ '\n' :: line) := by
  have sameText : textOf exampleTag state.tags = content := by rw [textOf, holds.found]
  rw [addLine_eq, kindOf_of_plain plain]
  by_cases wordless : Text.words line = []
  · have blank := Text.words_eq_nil_iff.mp wordless
    have between : content ≠ [] ∧ line = [] := by
      refine inside.resolve_left fun visible => ?_
      obtain ⟨c, listed, seen⟩ := Markdown.isVisible_iff.mp visible
      rw [blank c listed] at seen
      cases seen
    rw [if_pos wordless, between.2]
    dsimp only
    rw [if_pos ⟨holds.current, by rw [sameText]; exact between.1⟩]
    exact holds.extended ['\n']
  · rw [if_neg wordless]
    have written : joiner state.current ++ state.written line = '\n' :: line := by
      rw [written, if_pos holds.current, holds.current]
      rfl
    dsimp only
    rw [written]
    exact holds.extended _

/-- All lines of code are added, each behind a line feed. The induction is on the lines; once
something has been read, also empty lines count. -/
theorem Holds.afterLines {code : List Text} (holds : state.Holds content)
    (plain : ∀ line ∈ code, ∀ word, (Text.words line).head? = some word → word.head? ≠ some '@')
    (filled : ∀ line ∈ code, Markdown.isVisible line = true ∨ line = [])
    (starts : content ≠ [] ∨ ∀ first, code.head? = some first → Markdown.isVisible first = true) :
    (code.foldl (addLine builtIns scope) state).Holds (content ++ code.flatMap ('\n' :: ·)) := by
  induction code generalizing state content with
  | nil => simpa using holds
  | cons line rest inductionHypothesis =>
    obtain ⟨plainHere, plainLater⟩ := List.forall_mem_cons.mp plain
    obtain ⟨filledHere, filledLater⟩ := List.forall_mem_cons.mp filled
    have inside : Markdown.isVisible line = true ∨ content ≠ [] ∧ line = [] := by
      rcases starts with reached | visible
      · exact filledHere.imp_right fun empty => ⟨reached, empty⟩
      · exact .inl (visible line rfl)
    have later := inductionHypothesis (holds.afterLine builtIns scope plainHere inside)
      plainLater filledLater (.inl (by simp))
    rwa [List.append_assoc, ← List.flatMap_cons] at later

/-- A line that takes no example in hand leaves the reading without one. -/
theorem AwaitsExample.afterLine (awaits : state.AwaitsExample)
    (other : (Text.words line).head? ≠ some exampleHeading) :
    (state.addLine builtIns scope line).AwaitsExample := by
  have extended (addition : Text) : (state.extend addition).AwaitsExample := by
    rw [TagState.extend]
    split
    · refine ⟨awaits.current, ?_⟩
      exact (Keyed.find?_put_other _ _ _ _ awaits.current.symm).trans awaits.absent
    · exact awaits
  rw [addLine_eq]
  cases kind : kindOf line with
  | empty =>
    dsimp only
    split
    · exact extended _
    · exact awaits
  | plain => exact extended _
  | parameter =>
    dsimp only
    cases parameterOf? builtIns scope (Text.words line) with
    | none => exact awaits
    | some entry =>
      exact ⟨awaits.current, (Keyed.find?_put_other _ _ _ _ (by decide)).trans awaits.absent⟩
  | reference =>
    dsimp only
    cases referenceOf? (Text.words line) with
    | none => exact awaits
    | some reference =>
      exact ⟨awaits.current, (Keyed.find?_put_other _ _ _ _ (by decide)).trans awaits.absent⟩
  | opening name =>
    have different : name ≠ exampleTag := by
      rintro rfl
      exact other (head?_words_of_opening kind)
    exact ⟨different, (Keyed.find?_put_other _ _ _ _ different.symm).trans awaits.absent⟩

/-- Lines that take no example in hand leave the reading without one. -/
theorem AwaitsExample.afterLines {lines : List Text} (awaits : state.AwaitsExample)
    (other : ∀ line ∈ lines, (Text.words line).head? ≠ some exampleHeading) :
    (lines.foldl (addLine builtIns scope) state).AwaitsExample := by
  induction lines generalizing state with
  | nil => exact awaits
  | cons line rest inductionHypothesis =>
    obtain ⟨here, later⟩ := List.forall_mem_cons.mp other
    exact inductionHypothesis (awaits.afterLine builtIns scope here) later

/-- The line of the example takes it in hand with nothing in it. -/
theorem AwaitsExample.afterHeading (awaits : state.AwaitsExample) :
    (state.addLine builtIns scope exampleHeading).Holds [] := by
  have nothing : textOf exampleTag state.tags = [] := by rw [textOf, awaits.absent]
  rw [addLine_eq, kindOf_exampleHeading.1, kindOf_exampleHeading.2]
  refine ⟨rfl, ?_⟩
  dsimp only [TagState.take]
  rw [nothing]
  exact Keyed.find?_put_same _ _ _

end TagState

/-- Code lines are visible or empty. -/
theorem IsExampleCode.filled {cut : Nat} {code : List Text} (written : IsExampleCode cut code) :
    ∀ line ∈ code, Markdown.isVisible line = true ∨ line = [] := by
  intro line listed
  rcases List.eq_nil_or_concat line with empty | ⟨front, last, rfl⟩
  · exact .inr empty
  · rw [List.concat_eq_append] at listed ⊢
    exact .inl (Markdown.isVisible_iff.mpr
      ⟨last, by simp, written.trimmed _ listed last (by simp)⟩)

/-- The tag of the example holds the code as it stands in the comment, without the white space in
front of its first line. -/
theorem textOf_example {cut : Nat} {preface rest : List Text} {first : Text}
    (leads : IsPreface preface) (code : IsExampleCode cut (first :: rest)) :
    textOf exampleTag (tagsOfLines builtIns scope (preface ++ exampleHeading :: first :: rest)) =
      Text.join ['\n'] (Text.trimStart first :: rest) := by
  have start : TagState.AwaitsExample {} := ⟨by decide, rfl⟩
  have heading := (start.afterLines builtIns scope leads.other).afterHeading builtIns scope
  have holds := heading.afterLines builtIns scope code.plain code.filled
    (.inr fun line front => by cases front; exact code.visible_first)
  have content : [] ++ (first :: rest).flatMap ('\n' :: ·) =
      '\n' :: first.takeWhile Text.isBlank ++
        Text.join ['\n'] (Text.trimStart first :: rest) ++ [] := by
    have split : first.takeWhile Text.isBlank ++ Text.trimStart first = first :=
      List.takeWhile_append_dropWhile
    rw [List.nil_append, List.append_nil, List.cons_append, ← Text.join_append_cons, split]
    exact Text.flatMap_eq_join ['\n'] first rest
  have blank : ∀ c ∈ '\n' :: first.takeWhile Text.isBlank, Text.isBlank c = true :=
    List.forall_mem_cons.mpr ⟨by decide, List.all_eq_true.mp List.all_takeWhile⟩
  rw [textOf, tagsOfLines, List.foldl_append, List.foldl_cons, Keyed.find?_mapValues, holds.found,
    content]
  show Text.trimWhile Text.isBlank _ = _
  rw [Text.trimWhile_between blank (by simp), code.isClear_arriving.2.trimWhile_eq]

section Written

variable {indent lineEnd : Text} {lines written : List Text}

/-- Without their markers the lines between the delimiters of a written comment are an empty one,
those that were written and the indentation in front of the closing delimiter, if there is one. -/
theorem map_withoutMarker_body (indented : ∀ c ∈ indent, c = ' ' ∨ c = '\t')
    (ends : Text.IsLineEnd lineEnd)
    (unbroken : ∀ line ∈ lines, ∀ c ∈ line, Text.isLineBreak c = false)
    (writes : List.Forall₂ (Writes indent) lines written) :
    (Text.lines (lineEnd ++ written.flatMap (· ++ lineEnd) ++ indent)).map withoutMarker =
      [] :: lines ++ Text.lines indent := by
  have blank := fun c inside => (blank_of_indented indented c inside).1
  have whole := fun c inside => (blank_of_indented indented c inside).2
  have written_unbroken := unbroken_of_writes writes whole unbroken
  have closing : (Text.lines indent).map withoutMarker = Text.lines indent := by
    refine (List.map_congr_left fun line listed => ?_).trans (List.map_id _)
    rw [Text.lines_of_unbroken whole] at listed
    split at listed
    · cases listed
    · rw [List.mem_singleton.mp listed, withoutMarker_of_blank blank, id]
  calc (Text.lines (lineEnd ++ written.flatMap (· ++ lineEnd) ++ indent)).map withoutMarker
    _ = ([] :: written ++ Text.lines indent).map withoutMarker := by
        rw [← Text.lines_flatMap_append ends
          (List.forall_mem_cons.mpr ⟨by simp, written_unbroken⟩) indent]
        rfl
    _ = [] :: lines ++ Text.lines indent := by
        rw [List.map_append, List.map_cons, map_withoutMarker writes blank, closing]
        rfl

/-- Of a written comment its lines are left, but for white space and then stars at the two ends of
them all. -/
theorem clean_block_eq_trimmed (indented : ∀ c ∈ indent, c = ' ' ∨ c = '\t')
    (ends : Text.IsLineEnd lineEnd)
    (unbroken : ∀ line ∈ lines, ∀ c ∈ line, Text.isLineBreak c = false)
    (writes : List.Forall₂ (Writes indent) lines written) :
    clean (block indent lineEnd written) =
      Text.trimWhile isStar (Text.trim (Text.join ['\n'] lines)) := by
  have blank := fun c inside => (blank_of_indented indented c inside).1
  have whole := fun c inside => (blank_of_indented indented c inside).2
  obtain ⟨filled, clear⟩ := isClear_body ends blank written
  obtain ⟨front, back, before, behind, around⟩ := exists_join_around blank whole lines
  rw [clean, block, withoutDelimiters filled clear,
    map_withoutMarker_body indented ends unbroken writes, around, Text.trim,
    Text.trimWhile_between before behind, Text.trim]

variable {cut : Nat} {preface code : List Text}

/-- A comment with an example starts with neither white space nor a star. -/
theorem IsPreface.exists_first (leads : IsPreface preface) (code : List Text) :
    ∃ first c, (preface ++ exampleHeading :: code).head? = some first ∧ first.head? = some c ∧
      Text.isBlank c = false ∧ isStar c = false := by
  cases preface with
  | nil => exact ⟨exampleHeading, '@', rfl, rfl, by decide, by decide⟩
  | cons line rest =>
    obtain ⟨c, front, visible, noStar⟩ := leads.starts line rfl
    exact ⟨line, c, rfl, front, visible, noStar⟩

/-- A comment that ends with example code ends with neither white space nor a star. -/
theorem IsExampleCode.exists_last (written : IsExampleCode cut code) (front : List Text) :
    ∃ last, (front ++ code).getLast? = some last ∧ last ≠ [] ∧
      ∀ c, last.getLast? = some c → Text.isBlank c = false ∧ isStar c = false := by
  obtain ⟨last, back, -, kept⟩ := written.toIsListing.exists_last
  obtain ⟨filled, visible⟩ := kept 0 (Nat.zero_le cut)
  rw [List.drop_zero] at filled visible
  refine ⟨last, by rw [List.getLast?_append, back]; rfl, filled, fun c ending => ?_⟩
  refine ⟨visible c ending, beq_eq_false_iff_ne.mpr ?_⟩
  rintro rfl
  exact written.unstarred last back ending

/-- The lines of a comment with an example are what is left when it is cleaned. -/
theorem lines_clean_block (indented : ∀ c ∈ indent, c = ' ' ∨ c = '\t')
    (ends : Text.IsLineEnd lineEnd) (leads : IsPreface preface) (listed : IsExampleCode cut code)
    (writes : List.Forall₂ (Writes indent) (preface ++ exampleHeading :: code) written) :
    Text.lines (clean (block indent lineEnd written)) = preface ++ exampleHeading :: code := by
  have unbroken : ∀ line ∈ preface ++ exampleHeading :: code, ∀ c ∈ line,
      Text.isLineBreak c = false :=
    List.forall_mem_append.mpr ⟨leads.unbroken,
      List.forall_mem_cons.mpr ⟨Text.forall_mem (by decide), listed.unbroken⟩⟩
  obtain ⟨first, c, front, head, visible, noStar⟩ := leads.exists_first code
  obtain ⟨last, back, filled, clear⟩ := listed.exists_last (preface ++ [exampleHeading])
  rw [List.append_assoc, List.singleton_append] at back
  have clearEnds (p : Char → Bool) (other : p c = false)
      (behind : ∀ d, last.getLast? = some d → p d = false) :
      Text.IsClear p (Text.join ['\n'] (preface ++ exampleHeading :: code)) := by
    refine Text.isClear_join_of_ends front back ?_ filled ?_ behind
    · rintro rfl
      cases head
    · rw [head]
      rintro d ⟨⟩
      exact other
  rw [clean_block_eq_trimmed indented ends unbroken writes, Text.trim,
    (clearEnds Text.isBlank visible fun d ending => (clear d ending).1).trimWhile_eq,
    (clearEnds isStar noStar fun d ending => (clear d ending).2).trimWhile_eq]
  exact Text.lines_join (by simpa [back] using filled) unbroken

end Written

/-- **Example code survives.** Code that is written as the last part of a comment, behind a line
that takes it in hand, is what the block of the example holds: all its lines in their order, the
empty ones among them, without the indentation that they have in common and otherwise as they
were written. This holds for every indentation of the comment by spaces and tabs, for both line
ends, and in every scope. -/
theorem exampleBlock_of_block {indent lineEnd : Text} {preface code written : List Text}
    {cut : Nat} (builtIns : List Text) (scope : Scope)
    (indented : ∀ c ∈ indent, c = ' ' ∨ c = '\t') (ends : Text.IsLineEnd lineEnd)
    (leads : IsPreface preface) (listed : IsExampleCode cut code)
    (writes : List.Forall₂ (Writes indent) (preface ++ exampleHeading :: code) written) :
    let content := Text.join ['\n'] (code.map (·.drop cut))
    Markdown.exampleBlock (textOf exampleTag (tags builtIns scope (block indent lineEnd written))) =
      "```".toList ++ Markdown.guessLanguage content ++ ['\n'] ++ content ++ "\n```".toList := by
  obtain ⟨first, front, -⟩ := listed.starts
  obtain ⟨rest, rfl⟩ := List.head?_eq_some_iff.mp front
  rw [tags, lines_clean_block indented ends leads listed writes, textOf_example leads listed]
  exact listed.toIsListing.exampleBlock_eq

/-- A loop that is indented as a whole, with a deeper line that looks like one of a comment, an
empty line and a closing line. -/
def loopCode : List Text :=
  ["  foreach ($words as $word):".toList, "      * twice @once".toList, [],
    "  endforeach;".toList]

/-- The loop can be the example of a comment. -/
theorem loopCode_isExampleCode : IsExampleCode 2 loopCode where
  unbroken := Text.unbroken_of_all (by decide +kernel)
  trimmed := by
    have visible : ∀ line ∈ loopCode, line.getLast?.all (!Text.isBlank ·) = true := by
      decide +kernel
    intro line listed c last
    have ending := visible line listed
    rw [last] at ending
    simpa using ending
  starts := ⟨_, rfl, by decide +kernel⟩
  ends := ⟨_, rfl, by decide +kernel⟩
  untagged := by decide +kernel
  indented := by decide +kernel
  firstAttains := by
    rintro first ⟨⟩
    decide +kernel
  otherAttains := fun _ => by decide +kernel
  plain := by
    have unmarked : ∀ line ∈ loopCode,
        (Text.words line).head?.all (·.head? != some '@') = true := by decide +kernel
    intro line listed word first
    have start := unmarked line listed
    rw [first] at start
    simpa using start
  unstarred := by
    rintro last ⟨⟩
    decide +kernel

/-- The loop is written behind a description, with the empty lines in both ways, and is what the
block of the example holds. -/
theorem exampleBlock_of_loop :
    IsPreface ["Prints.".toList, []] ∧ IsExampleCode 2 loopCode ∧
    Markdown.exampleBlock (textOf exampleTag (tags [] {} ("/**\r\n\t * Prints.\r\n\t *\r\n" ++
      "\t * @example\r\n\t *   foreach ($words as $word):\r\n\t *       * twice @once\r\n" ++
      "\t * \r\n\t *   endforeach;\r\n\t */").toList)) =
      "```\nforeach ($words as $word):\n    * twice @once\n\nendforeach;\n```".toList := by
  have leads : IsPreface ["Prints.".toList, []] := by
    refine ⟨Text.unbroken_of_all (by decide +kernel), ?_, by decide +kernel⟩
    rintro first ⟨⟩
    exact ⟨'P', rfl, by decide, by decide⟩
  have writes : List.Forall₂ (Writes ['\t', ' '])
      (["Prints.".toList, []] ++ exampleHeading :: loopCode)
      ["\t * Prints.".toList, "\t *".toList, "\t * @example".toList,
        "\t *   foreach ($words as $word):".toList, "\t *       * twice @once".toList,
        "\t * ".toList, "\t *   endforeach;".toList] :=
    .cons (.marked _) (.cons .bare (.cons (.marked _) (.cons (.marked _) (.cons (.marked _)
      (.cons (.marked _) (.cons (.marked _) .nil))))))
  have blockOf := exampleBlock_of_block [] {} (Text.forall_mem (by decide)) (.inr rfl) leads
    loopCode_isExampleCode writes
  refine ⟨leads, loopCode_isExampleCode, Eq.trans (congrArg _ ?_) (blockOf.trans ?_)⟩
  · exact congrArg (fun raw => textOf exampleTag (tags [] {} raw)) (by decide +kernel)
  · decide +kernel

end Docblock.Comment
