import Docblock.Proofs.Links.Lines
import Docblock.Proofs.Source.Names
import Docblock.Proofs.Source.Spacing

/-!
# Qualified names

A qualified name is made of identifiers of any script with separators between them, and
with none at its ends. As a whole it is one name of the source, with or without one more
separator behind it. Its segments are the identifiers, and of its ends nothing is trimmed.
-/

namespace Docblock.Source

/-- An identifier of any script. -/
structure Label where
  text : Text
  whole : identifierLength text = some text.length

/-- Identifiers with separators between them. -/
structure QualifiedName where
  first : Label
  others : List Label

/-- A letter is no separator. -/
theorem ne_separator_of_isNameStart {c : Char} (start : Text.isNameStart c = true) :
    c ≠ ClassName.separator := by
  rintro rfl
  exact absurd start (by decide)

namespace Label

/-- An identifier starts with a letter and goes on with word characters. -/
theorem exists_cons (label : Label) : ∃ c more, label.text = c :: more ∧
    Text.isNameStart c = true ∧ ∀ d ∈ label.text, Text.isWordChar d = true := by
  have words := (mem_take_identifierLength label.whole).1
  rw [List.take_length] at words
  have whole := label.whole
  cases front : label.text with
  | nil =>
    rw [front] at whole
    cases whole
  | cons c more =>
    refine ⟨c, more, rfl, ?_, front ▸ words⟩
    rw [front, identifierLength] at whole
    split at whole
    · assumption
    · cases whole

/-- How long an identifier is does not depend on what stands behind it, if that is no word
character. -/
theorem identifierLength_append (label : Label) {rest : Text}
    (outside : ∀ c more, rest = c :: more → Text.isWordChar c = false) :
    identifierLength (label.text ++ rest) = some label.text.length := by
  obtain ⟨c, more, front, start, words⟩ := label.exists_cons
  have run : runLength Text.isWordChar (more ++ rest) = more.length :=
    runLength_append (fun d member => words d (by simp [front, member])) outside
  simp [front, identifierLength, start, run, Nat.add_comm]

/-- An identifier ends with a character that is no separator. -/
theorem exists_concat (label : Label) :
    ∃ c more, label.text = more ++ [c] ∧ (c == ClassName.separator) = false := by
  obtain ⟨first, rest, front, -, -⟩ := label.exists_cons
  obtain ⟨more, c, back⟩ := (List.eq_nil_or_concat label.text).resolve_left (by simp [front])
  rw [List.concat_eq_append] at back
  refine ⟨c, more, back, beq_eq_false_iff_ne.mpr ?_⟩
  rintro rfl
  exact separator_notMem label.whole (by simp [back])

end Label

namespace QualifiedName

/-- The name as written. -/
def text (name : QualifiedName) : Text :=
  name.first.text ++ Printed.segmented (name.others.map Label.text)

/-- The last segment of a name. -/
def last (name : QualifiedName) : Label := name.others.getLast?.getD name.first

/-- A name below another one. -/
def below (stem name : QualifiedName) : QualifiedName where
  first := stem.first
  others := stem.others ++ name.first :: name.others

/-- A name below another one is written behind it, with a separator between them. -/
theorem text_below (stem name : QualifiedName) :
    (stem.below name).text = stem.text ++ ClassName.separator :: name.text := by
  simp [below, text, Printed.segmented]

/-- The last segment of a name below another one is its own. -/
theorem last_below (stem name : QualifiedName) : (stem.below name).last = name.last := by
  simp [below, last, List.getLast?_cons]

/-- The segments of a name. -/
theorem splitOn_text (name : QualifiedName) :
    Text.splitOn ClassName.separator name.text = (name.first :: name.others).map Label.text := by
  obtain ⟨first, others⟩ := name
  have single (label : Label) : Text.splitOn ClassName.separator label.text = [label.text] :=
    Text.splitOn_of_notMem (separator_notMem label.whole)
  simp only [text]
  induction others generalizing first with
  | nil => simp [Printed.segmented, single]
  | cons next rest inductionHypothesis =>
    have onward := inductionHypothesis next
    simp only [Printed.segmented, List.map_cons, List.flatMap_cons, List.cons_append] at onward ⊢
    rw [Text.splitOn_append_cons, single, onward]
    rfl

/-- The last of the segments. -/
theorem getLast?_splitOn_text (name : QualifiedName) :
    (Text.splitOn ClassName.separator name.text).getLast?.getD [] = name.last.text := by
  rw [splitOn_text, List.map_cons, List.getLast?_cons, Option.getD_some, List.getLast?_map,
    Option.getD_map, last]

/-- A name starts with a letter. -/
theorem exists_cons (name : QualifiedName) :
    ∃ c more, name.text = c :: more ∧ Text.isNameStart c = true := by
  obtain ⟨c, more, front, start, -⟩ := name.first.exists_cons
  exact ⟨c, _, by rw [text, front, List.cons_append], start⟩

/-- A name ends with a character that is no separator. -/
theorem exists_concat (name : QualifiedName) :
    ∃ c more, name.text = more ++ [c] ∧ (c == ClassName.separator) = false := by
  rcases List.eq_nil_or_concat name.others with none | ⟨front, label, others⟩
  · obtain ⟨c, more, back, other⟩ := name.first.exists_concat
    exact ⟨c, more, by simp [text, none, Printed.segmented, back], other⟩
  · obtain ⟨c, more, back, other⟩ := label.exists_concat
    refine ⟨c, name.first.text ++ (Printed.segmented (front.map Label.text) ++
      ClassName.separator :: more), ?_, other⟩
    simp [text, others, Printed.segmented, back]

/-- No separator is trimmed off a name. -/
theorem trimSeparators_text (name : QualifiedName) :
    ClassName.trimSeparators name.text = name.text := by
  obtain ⟨c, more, front, start⟩ := name.exists_cons
  exact trimWhile_eq ⟨c, more, front, beq_eq_false_iff_ne.mpr (ne_separator_of_isNameStart start)⟩
    name.exists_concat

/-- A separator before a name is trimmed off. -/
theorem trimSeparators_cons (name : QualifiedName) :
    ClassName.trimSeparators (ClassName.separator :: name.text) = name.text := by
  rw [ClassName.trimSeparators, Text.trimWhile, List.dropWhile_cons_of_pos (by simp)]
  exact name.trimSeparators_text

/-- A separator behind a name is dropped, and nothing more. -/
theorem dropEndWhile_concat (name : QualifiedName) :
    Text.dropEndWhile (· == ClassName.separator) (name.text ++ [ClassName.separator]) =
      name.text := by
  obtain ⟨c, more, back, other⟩ := name.exists_concat
  simp [Text.dropEndWhile, back, beq_eq_false_iff_ne.mp other]

/-- No word character stands where segments, the end of a text or a separator follow. -/
theorem outside_segmented (labels : List Label) {tail : Text}
    (outside : ∀ c more, tail = c :: more → Text.isWordChar c = false) :
    ∀ c more, Printed.segmented (labels.map Label.text) ++ tail = c :: more →
      Text.isWordChar c = false := by
  cases labels with
  | nil => exact outside
  | cons label rest =>
    rintro c more same
    rw [← (List.cons.inj same).1]
    decide +kernel

/-- Further segments are measured as a whole in front of what goes on with none. -/
theorem segmentsLength_append (labels : List Label) {tail : Text}
    (outside : ∀ c more, tail = c :: more → Text.isWordChar c = false)
    (ended : segmentsLength tail = 0) :
    segmentsLength (Printed.segmented (labels.map Label.text) ++ tail) =
      (Printed.segmented (labels.map Label.text)).length := by
  induction labels with
  | nil => exact ended
  | cons label rest inductionHypothesis =>
    have width := label.identifierLength_append (outside_segmented rest outside)
    have split : Printed.segmented ((label :: rest).map Label.text) ++ tail =
        ClassName.separator ::
          (label.text ++ (Printed.segmented (rest.map Label.text) ++ tail)) := by
      simp [Printed.segmented]
    rw [split, segmentsLength]
    simp only [width, ClassName.separator, if_true, List.drop_left, inductionHypothesis]
    simp only [Printed.segmented, List.map_cons, List.flatMap_cons, List.length_append,
      List.length_cons]
    omega

/-- A name is a path as a whole. -/
theorem pathLength_append (name : QualifiedName) {tail : Text}
    (outside : ∀ c more, tail = c :: more → Text.isWordChar c = false)
    (ended : segmentsLength tail = 0) :
    pathLength (name.text ++ tail) = some name.text.length := by
  obtain ⟨c, more, front, start⟩ := name.exists_cons
  have unrooted : ¬ (name.text ++ tail).head? = some '\\' := by
    rw [front, List.cons_append, List.head?_cons, Option.some.injEq]
    exact ne_separator_of_isNameStart start
  have width := name.first.identifierLength_append (outside_segmented name.others outside)
  have further := segmentsLength_append name.others outside ended
  rw [pathLength, if_neg unrooted, List.drop_zero, text, List.append_assoc, width,
    Option.map_some, Nat.zero_add, List.drop_left, further, List.length_append]

/-- A name is a name as a whole. -/
theorem nameLength_text (name : QualifiedName) :
    nameLength name.text = some name.text.length := by
  have path := @pathLength_append name [] (by rintro c more ⟨⟩) (by simp [segmentsLength])
  rw [List.append_nil] at path
  rw [nameLength, path, Option.map_some, List.drop_length, if_neg (by simp)]

/-- A name with a separator behind it is a name as a whole. -/
theorem nameLength_concat (name : QualifiedName) :
    nameLength (name.text ++ [ClassName.separator]) =
      some (name.text ++ [ClassName.separator]).length := by
  have path := @pathLength_append name [ClassName.separator]
    (by rintro c more ⟨rfl, rfl⟩; decide +kernel) (by decide +kernel)
  rw [nameLength, path, Option.map_some, List.drop_left, if_pos (by decide), List.length_append]
  rfl

end QualifiedName

end Docblock.Source
