import Docblock.Proofs.Links.Lines
import Docblock.Proofs.Text.Ends

/-!
# Lines and the breaks between them

Splitting a text into lines undoes putting a break behind each of them, or between them, when
none of them has a break in it. Only an empty last line without a break behind it is lost. A
break may be a line feed, or a carriage return and a line feed.
-/

namespace Docblock.Text

variable {line lineEnd : Text}

/-- A line feed, or a carriage return and a line feed. -/
def IsLineEnd (lineEnd : Text) : Prop := lineEnd = ['\n'] ∨ lineEnd = ['\r', '\n']

/-- A character that is no break belongs to the first line. -/
theorem lines_cons {c : Char} (other : isLineBreak c = false) (rest : Text) :
    lines (c :: rest) = (c :: (lines rest).headD []) :: (lines rest).tail := by
  have notReturn : c ≠ '\r' := by
    rintro rfl
    exact absurd other (by decide)
  rw [lines, if_neg (by simp [other])]
  · cases lines rest <;> rfl
  · exact fun following same _ => notReturn same

/-- A line end is not empty and is white space. -/
theorem IsLineEnd.blank (ends : IsLineEnd lineEnd) :
    lineEnd ≠ [] ∧ ∀ c ∈ lineEnd, isBlank c = true := by
  rcases ends with rfl | rfl
  · exact ⟨List.cons_ne_nil _ _, forall_mem (by decide)⟩
  · exact ⟨List.cons_ne_nil _ _, forall_mem (by decide)⟩

/-- Whether some texts have no breaks is found by going through them. -/
theorem unbroken_of_all {pieces : List Text}
    (whole : pieces.all (·.all (isLineBreak · = false)) = true) :
    ∀ piece ∈ pieces, ∀ c ∈ piece, isLineBreak c = false :=
  fun piece listed => forall_mem (List.all_eq_true.mp whole piece listed)

/-- A text without breaks and the line end behind it are the first line. -/
theorem lines_append (unbroken : ∀ c ∈ line, isLineBreak c = false) (ends : IsLineEnd lineEnd)
    (rest : Text) : lines (line ++ lineEnd ++ rest) = line :: lines rest := by
  induction line with
  | nil =>
    rcases ends with rfl | rfl
    · simp [lines, isLineBreak]
    · simp [lines]
  | cons c more inductionHypothesis =>
    obtain ⟨other, others⟩ := List.forall_mem_cons.mp unbroken
    rw [List.cons_append, List.cons_append, lines_cons other, inductionHypothesis others]
    rfl

/-- The lines of a text in which every line has its end are these lines, with the lines of what
stands behind them. -/
theorem lines_flatMap_append {written : List Text} (ends : IsLineEnd lineEnd)
    (unbroken : ∀ line ∈ written, ∀ c ∈ line, isLineBreak c = false) (rest : Text) :
    lines (written.flatMap (· ++ lineEnd) ++ rest) = written ++ lines rest := by
  induction written with
  | nil => rfl
  | cons line more inductionHypothesis =>
    obtain ⟨first, others⟩ := List.forall_mem_cons.mp unbroken
    rw [List.flatMap_cons, List.append_assoc, lines_append first ends, inductionHypothesis others]
    rfl

/-- A text without breaks is its own only line, if it is not empty. -/
theorem lines_of_unbroken (unbroken : ∀ c ∈ line, isLineBreak c = false) :
    lines line = if line = [] then [] else [line] := by
  induction line with
  | nil => rfl
  | cons c more inductionHypothesis =>
    obtain ⟨other, others⟩ := List.forall_mem_cons.mp unbroken
    rw [lines_cons other, inductionHypothesis others, if_neg (List.cons_ne_nil c more)]
    cases more <;> rfl

/-- Joined texts are the last of them behind the others, each with the separator behind it. -/
theorem join_concat (separator : Text) (front : List Text) (last : Text) :
    join separator (front ++ [last]) = front.flatMap (· ++ separator) ++ last := by
  induction front with
  | nil => rfl
  | cons piece rest inductionHypothesis =>
    obtain ⟨next, more, later⟩ : ∃ next more, rest ++ [last] = next :: more :=
      List.exists_cons_of_ne_nil (by simp)
    rw [List.cons_append, later, join, ← later, inductionHypothesis, List.flatMap_cons]
    simp only [List.append_assoc]

/-- What stands in front of the first of joined texts stands in front of all of them. -/
theorem join_append_cons (separator front piece : Text) (rest : List Text) :
    join separator ((front ++ piece) :: rest) = front ++ join separator (piece :: rest) := by
  cases rest with
  | nil => rfl
  | cons next more => simp only [join, List.append_assoc]

/-- Texts with the separator in front of each are the joined texts behind one separator. -/
theorem flatMap_eq_join (separator first : Text) (rest : List Text) :
    (first :: rest).flatMap (separator ++ ·) = separator ++ join separator (first :: rest) := by
  induction rest generalizing first with
  | nil => simp [join]
  | cons next more inductionHypothesis =>
    rw [List.flatMap_cons, inductionHypothesis, join]
    simp only [List.append_assoc]

/-- Splitting undoes joining, with another break and a text behind it. -/
theorem lines_join_append {pieces : List Text} (nonempty : pieces ≠ [])
    (unbroken : ∀ piece ∈ pieces, ∀ c ∈ piece, isLineBreak c = false) (rest : Text) :
    lines (join ['\n'] pieces ++ '\n' :: rest) = pieces ++ lines rest := by
  obtain ⟨front, last, rfl⟩ := (List.eq_nil_or_concat pieces).resolve_left nonempty
  rw [List.concat_eq_append] at unbroken ⊢
  have broken : join ['\n'] (front ++ [last]) ++ '\n' :: rest =
      (front ++ [last]).flatMap (· ++ ['\n']) ++ rest := by
    rw [join_concat]
    simp
  rw [broken, lines_flatMap_append (.inl rfl) unbroken]

/-- Splitting undoes joining when the last of the texts is not empty. -/
theorem lines_join {pieces : List Text} (filled : pieces.getLast? ≠ some [])
    (unbroken : ∀ piece ∈ pieces, ∀ c ∈ piece, isLineBreak c = false) :
    lines (join ['\n'] pieces) = pieces := by
  cases back : pieces.getLast? with
  | none =>
    rw [List.getLast?_eq_none_iff.mp back]
    rfl
  | some last =>
    obtain ⟨front, rfl⟩ := List.getLast?_eq_some_iff.mp back
    obtain ⟨others, whole⟩ := List.forall_mem_append.mp unbroken
    have alone : lines last = [last] := by
      rw [lines_of_unbroken (whole last List.mem_cons_self), if_neg]
      rintro rfl
      exact filled back
    rw [join_concat, lines_flatMap_append (.inl rfl) others, alone]

/-- Joined texts start with the first of them. -/
theorem head?_join {separator first : Text} (filled : first ≠ []) (rest : List Text) :
    (join separator (first :: rest)).head? = first.head? := by
  cases rest with
  | nil => rfl
  | cons next more => rw [join, List.append_assoc, List.head?_append_of_ne_nil _ filled]

/-- Joined texts end with the last of them. -/
theorem getLast?_join {separator last : Text} (filled : last ≠ []) (front : List Text) :
    (join separator (front ++ [last])).getLast? = last.getLast? := by
  rw [join_concat, List.getLast?_append_of_ne_nil _ filled]

/-- The ends of joined texts are clear of a class when the front of the first and the end of the
last are. -/
theorem isClear_join_of_ends {p : Char → Bool} {separator first last : Text} {pieces : List Text}
    (front : pieces.head? = some first) (back : pieces.getLast? = some last)
    (filledFirst : first ≠ []) (filledLast : last ≠ [])
    (clearFront : ∀ c, first.head? = some c → p c = false)
    (clearBack : ∀ c, last.getLast? = some c → p c = false) :
    IsClear p (join separator pieces) := by
  rintro c (start | ending)
  · obtain ⟨rest, rfl⟩ := List.head?_eq_some_iff.mp front
    rw [head?_join filledFirst] at start
    exact clearFront c start
  · obtain ⟨others, rfl⟩ := List.getLast?_eq_some_iff.mp back
    rw [getLast?_join filledLast] at ending
    exact clearBack c ending

end Docblock.Text
