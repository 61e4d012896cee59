import Docblock.Comment.Clean
import Docblock.Proofs.Text.Lines

/-!
# Written comments

A comment is written with its opening delimiter on a line of its own, each of its lines behind
an indentation and a star with a space, and the closing delimiter behind the same indentation.
Cleaning such a comment gives back its lines, whatever stands in them: a line may begin with
more white space, with stars or with slashes, and it may be empty. Only the ends of the whole
text are looked at, since white space and stars are taken off there.

Comments in other layouts, such as one on a single line or one without stars, are not covered.
-/

namespace Docblock.Comment

/-- How a line may be written: behind the indentation and a star with a space, or, if it is
empty, as the star alone. -/
inductive Writes (indent : Text) : Text → Text → Prop
  | marked (line : Text) : Writes indent line (indent ++ '*' :: ' ' :: line)
  | bare : Writes indent [] (indent ++ ['*'])

/-- The comment around written lines. -/
def block (indent lineEnd : Text) (written : List Text) : Text :=
  "/**".toList ++ (lineEnd ++ written.flatMap (· ++ lineEnd) ++ indent) ++ "*/".toList

/-- Lines that a comment can hold: none of them has a break in it, and neither end of the text
that they make is white space or a star. -/
structure AreWritable (lines : List Text) : Prop where
  unbroken : ∀ line ∈ lines, ∀ c ∈ line, Text.isLineBreak c = false
  clearOfBlanks : Text.IsClear Text.isBlank (Text.join ['\n'] lines)
  clearOfStars : Text.IsClear isStar (Text.join ['\n'] lines)

variable {indent lineEnd line : Text}

/-- The delimiters around a text are taken off, if there is one and no stars are at its ends. With
nothing between them their stars are one run, and more than the opening one is taken off. -/
theorem withoutDelimiters {body : Text} (filled : body ≠ []) (clear : Text.IsClear isStar body) :
    withoutClosing (withoutOpening (Text.trim ("/**".toList ++ body ++ "*/".toList))) = body := by
  have ends : Text.IsClear Text.isBlank ("/**".toList ++ body ++ "*/".toList) := by
    rintro c (first | last)
    · cases first
      decide
    · rw [List.getLast?_append_of_ne_nil _ (by decide)] at last
      cases last
      decide
  have opened : withoutOpening ("/**".toList ++ body ++ "*/".toList) = body ++ "*/".toList := by
    cases body with
    | nil => exact absurd rfl filled
    | cons c more =>
      have front : ('*' :: c :: (more ++ "*/".toList)).dropWhile isStar =
          c :: (more ++ "*/".toList) := by
        rw [List.dropWhile_cons_of_pos (by decide),
          List.dropWhile_cons_of_neg (by simp [clear c (.inl rfl)])]
      exact front
  have closed : withoutClosing (body ++ "*/".toList) = body := by
    rw [withoutClosing, List.reverse_append]
    exact clear.dropEndWhile_eq
  rw [Text.trim, ends.trimWhile_eq, opened, closed]

/-- An indentation is blank and has no breaks in it. -/
theorem blank_of_indented (indented : ∀ c ∈ indent, c = ' ' ∨ c = '\t') :
    ∀ c ∈ indent, Text.isBlank c = true ∧ Text.isLineBreak c = false := by
  intro c inside
  rcases indented c inside with rfl | rfl <;> decide

/-- The marker of a written line is taken off. -/
theorem Writes.withoutMarker_eq {written : Text} (writes : Writes indent line written)
    (blank : ∀ c ∈ indent, Text.isBlank c = true) : withoutMarker written = line := by
  cases writes with
  | marked =>
    have front : ('*' :: ' ' :: line).dropWhile Text.isBlank = '*' :: ' ' :: line :=
      List.dropWhile_cons_of_neg (by decide)
    rw [withoutMarker, List.dropWhile_append_of_pos blank, front]
    rfl
  | bare =>
    have star : ['*'].dropWhile Text.isBlank = ['*'] := by decide
    rw [withoutMarker, List.dropWhile_append_of_pos blank, star]
    rfl

/-- A written line has no breaks in it. -/
theorem Writes.unbroken {written : Text} (writes : Writes indent line written)
    (indented : ∀ c ∈ indent, Text.isLineBreak c = false)
    (unbroken : ∀ c ∈ line, Text.isLineBreak c = false) :
    ∀ c ∈ written, Text.isLineBreak c = false := by
  intro c inside
  cases writes with
  | marked =>
    simp only [List.mem_append, List.mem_cons] at inside
    rcases inside with front | rfl | rfl | behind
    · exact indented c front
    · decide
    · decide
    · exact unbroken c behind
  | bare =>
    rcases List.mem_append.mp inside with front | star
    · exact indented c front
    · rw [List.mem_singleton.mp star]
      decide

/-- Written lines have no breaks in them. -/
theorem unbroken_of_writes {lines written : List Text}
    (writes : List.Forall₂ (Writes indent) lines written)
    (indented : ∀ c ∈ indent, Text.isLineBreak c = false)
    (unbroken : ∀ line ∈ lines, ∀ c ∈ line, Text.isLineBreak c = false) :
    ∀ line ∈ written, ∀ c ∈ line, Text.isLineBreak c = false := by
  induction writes with
  | nil => simp
  | cons first _ inductionHypothesis =>
    obtain ⟨here, later⟩ := List.forall_mem_cons.mp unbroken
    exact List.forall_mem_cons.mpr ⟨first.unbroken indented here, inductionHypothesis later⟩

/-- A blank line has no marker. -/
theorem withoutMarker_of_blank (blank : ∀ c ∈ line, Text.isBlank c = true) :
    withoutMarker line = line := by
  rw [withoutMarker, List.dropWhile_eq_nil_iff.mpr blank]

/-- The markers of all written lines are taken off. -/
theorem map_withoutMarker {lines written : List Text}
    (writes : List.Forall₂ (Writes indent) lines written)
    (blank : ∀ c ∈ indent, Text.isBlank c = true) : written.map withoutMarker = lines := by
  induction writes with
  | nil => rfl
  | cons first _ inductionHypothesis =>
    rw [List.map_cons, first.withoutMarker_eq blank, inductionHypothesis]

/-- What stands between the delimiters is not empty, and there are no stars at its ends. -/
theorem isClear_body (ends : Text.IsLineEnd lineEnd)
    (blank : ∀ c ∈ indent, Text.isBlank c = true) (written : List Text) :
    lineEnd ++ written.flatMap (· ++ lineEnd) ++ indent ≠ [] ∧
      Text.IsClear isStar (lineEnd ++ written.flatMap (· ++ lineEnd) ++ indent) := by
  obtain ⟨filled, blankEnd⟩ := ends.blank
  have noStar : ∀ c, Text.isBlank c = true → isStar c = false := by
    intro c isBlank
    rw [isStar, beq_eq_false_iff_ne]
    rintro rfl
    exact absurd isBlank (by decide)
  obtain ⟨front, split⟩ :
      ∃ front, lineEnd ++ written.flatMap (· ++ lineEnd) = front ++ lineEnd := by
    rcases List.eq_nil_or_concat written with rfl | ⟨earlier, last, rfl⟩
    · exact ⟨[], by simp⟩
    · exact ⟨lineEnd ++ earlier.flatMap (· ++ lineEnd) ++ last, by simp⟩
  refine ⟨by simp [filled], ?_⟩
  rintro c (first | last)
  · rw [List.append_assoc, List.head?_append_of_ne_nil _ filled] at first
    exact noStar c (blankEnd c (List.mem_of_head? first))
  · rw [split, List.append_assoc, List.getLast?_append_of_ne_nil _ (by simp [filled])] at last
    rcases List.mem_append.mp (List.mem_of_getLast? last) with inEnd | inIndent
    · exact noStar c (blankEnd c inEnd)
    · exact noStar c (blank c inIndent)

/-- The empty line in front and the indentation behind are blank around the joined lines. -/
theorem exists_join_around (blank : ∀ c ∈ indent, Text.isBlank c = true)
    (unbroken : ∀ c ∈ indent, Text.isLineBreak c = false) (lines : List Text) :
    ∃ front back, (∀ c ∈ front, Text.isBlank c = true) ∧ (∀ c ∈ back, Text.isBlank c = true) ∧
      Text.join ['\n'] ([] :: lines ++ Text.lines indent) =
        front ++ Text.join ['\n'] lines ++ back := by
  obtain ⟨front, before, starts⟩ : ∃ front, (∀ c ∈ front, Text.isBlank c = true) ∧
      Text.join ['\n'] ([] :: lines) = front ++ Text.join ['\n'] lines := by
    cases lines with
    | nil => exact ⟨[], by simp, rfl⟩
    | cons line more => exact ⟨['\n'], Text.forall_mem (by decide), rfl⟩
  rw [Text.lines_of_unbroken unbroken]
  by_cases nothing : indent = []
  · refine ⟨front, [], before, by simp, ?_⟩
    rw [if_pos nothing, List.append_nil, List.append_nil, starts]
  · refine ⟨front, '\n' :: indent, before, ?_, ?_⟩
    · exact List.forall_mem_cons.mpr ⟨by decide, blank⟩
    · rw [if_neg nothing, Text.join_append _ (List.cons_ne_nil _ _), starts]
      simp only [List.append_assoc, List.singleton_append]

/-- **Cleaning undoes writing.** The lines that were written as a comment are what is left when it
is cleaned, with all white space inside them, for every indentation by spaces and tabs and for
both line ends. -/
theorem clean_block {indent lineEnd : Text} {lines written : List Text}
    (indented : ∀ c ∈ indent, c = ' ' ∨ c = '\t') (ends : Text.IsLineEnd lineEnd)
    (writable : AreWritable lines) (writes : List.Forall₂ (Writes indent) lines written) :
    clean (block indent lineEnd written) = Text.join ['\n'] lines := by
  have blank := fun c inside => (blank_of_indented indented c inside).1
  have unbrokenIndent := fun c inside => (blank_of_indented indented c inside).2
  have unbroken : ∀ line ∈ [] :: written, ∀ c ∈ line, Text.isLineBreak c = false := by
    refine List.forall_mem_cons.mpr ⟨by simp, ?_⟩
    exact unbroken_of_writes writes unbrokenIndent writable.unbroken
  obtain ⟨filled, clear⟩ := isClear_body ends blank written
  have split : Text.lines (lineEnd ++ written.flatMap (· ++ lineEnd) ++ indent) =
      [] :: written ++ Text.lines indent := Text.lines_flatMap_append ends unbroken indent
  have unmarked : (Text.lines indent).map withoutMarker = Text.lines indent := by
    rw [Text.lines_of_unbroken unbrokenIndent]
    split
    · rfl
    · rw [List.map_singleton, withoutMarker_of_blank blank]
  obtain ⟨front, back, before, behind, around⟩ := exists_join_around blank unbrokenIndent lines
  rw [clean, block, withoutDelimiters filled clear, split, List.map_append, List.map_cons,
    map_withoutMarker writes blank, unmarked]
  change Text.trimWhile isStar (Text.trim (Text.join ['\n'] ([] :: lines ++ Text.lines indent))) = _
  rw [around, Text.trim, Text.trimWhile_between before behind, writable.clearOfBlanks.trimWhile_eq,
    writable.clearOfStars.trimWhile_eq]

/-- Lines among which are empty ones, one that begins with a star and one that is indented. -/
def listing : List Text :=
  ["Halves.".toList, [], "* twice".toList, [], "    x /= 2; // again".toList]

/-- The lines can be written with a tab and a blank in front of every star, with the empty ones in
both ways, and are left when the comment is cleaned. -/
theorem clean_listing :
    AreWritable listing ∧
    clean ("/**\r\n\t * Halves.\r\n\t *\r\n\t * * twice\r\n\t * \r\n" ++
      "\t *     x /= 2; // again\r\n\t */").toList =
      "Halves.\n\n* twice\n\n    x /= 2; // again".toList := by
  have writable : AreWritable listing := by
    refine ⟨?_, ?_, ?_⟩
    · intro line listed
      simp only [listing, List.mem_cons, List.not_mem_nil, or_false] at listed
      rcases listed with rfl | rfl | rfl | rfl | rfl <;> exact Text.forall_mem (by decide)
    · rintro c (first | last)
      · cases first
        decide
      · cases last
        decide
    · rintro c (first | last)
      · cases first
        decide
      · cases last
        decide
  have writes : List.Forall₂ (Writes ['\t', ' ']) listing
      ["\t * Halves.".toList, "\t *".toList, "\t * * twice".toList, "\t * ".toList,
        "\t *     x /= 2; // again".toList] :=
    .cons (.marked _) (.cons .bare (.cons (.marked _) (.cons (.marked _) (.cons (.marked _) .nil))))
  have cleaned := clean_block (Text.forall_mem (by decide)) (.inr rfl) writable writes
  refine ⟨writable, Eq.trans ?_ cleaned⟩
  exact congrArg clean (by decide +kernel)

end Docblock.Comment
