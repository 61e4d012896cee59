import Docblock.Proofs.Links.Lines
import Docblock.Proofs.Text.Ends

/-!
# Separators with white space around them

Where white space around a separator belongs to the separator, the pieces of a text lose white
space at their ends, and nothing else: trimmed, they are the trimmed pieces between the separators
alone. The first piece loses white space only at its end, because what stands before it is no
separator. White space that was put around separators on purpose is trimmed off in the same way.
-/

namespace Docblock.Text

section Ends

variable {s t : Text}

/-- White space behind a text is trimmed off. -/
theorem trim_append_right {back : Text} (blank : ∀ c ∈ back, isBlank c = true) (s : Text) :
    trim (s ++ back) = trim s :=
  trimWhile_between (fun _ inside => absurd inside List.not_mem_nil) blank s

/-- White space in front of a text is trimmed off. -/
theorem trim_append_left {front : Text} (blank : ∀ c ∈ front, isBlank c = true) (s : Text) :
    trim (front ++ s) = trim s := by
  have between : trimWhile isBlank (front ++ s ++ []) = trimWhile isBlank s :=
    trimWhile_between blank (fun _ inside => absurd inside List.not_mem_nil) s
  rwa [List.append_nil] at between

/-- Dropping white space from the end is part of trimming. -/
theorem trim_trimEnd (s : Text) : trim (trimEnd s) = trim s := by
  obtain ⟨blanks, blank, whole⟩ := exists_trimEnd_append s
  rw [← trim_append_right blank (trimEnd s), ← whole]

/-- Texts that differ in white space at their ends are trimmed to the same text. -/
theorem trim_eq_of_trimEnd_eq (same : trimEnd s = trimEnd t) : trim s = trim t := by
  rw [← trim_trimEnd s, same, trim_trimEnd]

/-- Texts that differ in white space at their ends still do with one more character in front. -/
theorem trimEnd_cons_congr (c : Char) (same : trimEnd s = trimEnd t) :
    trimEnd (c :: s) = trimEnd (c :: t) := by
  have turned : s.reverse.dropWhile isBlank = t.reverse.dropWhile isBlank :=
    List.reverse_injective same
  simp only [trimEnd, dropEndWhile, List.reverse_cons, List.dropWhile_append, turned]

/-- Nothing is left of white space. -/
theorem trimEnd_eq_nil (blank : ∀ c ∈ s, isBlank c = true) : trimEnd s = [] := by
  rw [trimEnd, dropEndWhile, List.reverse_eq_nil_iff, List.dropWhile_eq_nil_iff]
  exact fun c inside => blank c (List.mem_reverse.mp inside)

/-- Trimming a text twice is trimming it once. -/
theorem trim_trim (s : Text) : trim (trim s) = trim s := trimWhile_trimWhile s

end Ends

section Pieces

variable {separator : Char} {s behind : Text}

/-- There is always a piece. -/
theorem splitOn_ne_nil (separator : Char) (s : Text) : splitOn separator s ≠ [] := by
  rw [splitOn_eq]
  exact List.splitOn_ne_nil separator s

/-- What stands in front of the first separator belongs to the first piece. -/
theorem splitOn_append_of_notMem {front : Text} (absent : separator ∉ front) (s : Text) :
    splitOn separator (front ++ s) = (splitOn separator s).modifyHead (front ++ ·) := by
  induction front with
  | nil => cases pieces : splitOn separator s <;> simp [pieces]
  | cons c rest inductionHypothesis =>
    obtain ⟨different, later⟩ := List.ne_and_not_mem_of_not_mem_cons absent
    rw [List.cons_append, splitOn, if_neg (Ne.symm different), inductionHypothesis later]
    cases pieces : splitOn separator s with
    | nil => exact absurd pieces (splitOn_ne_nil separator s)
    | cons piece more => rfl

/-- A separator at the front of a text stands between white space. -/
theorem exists_of_behindSpaced? (found : behindSpaced? separator s = some behind) :
    ∃ before between, s = before ++ separator :: (between ++ behind) ∧
      (∀ c ∈ before, isBlank c = true) ∧ ∀ c ∈ between, isBlank c = true := by
  rw [behindSpaced?] at found
  split at found
  · cases found
  · rename_i c rest front
    split at found
    · rename_i same
      refine ⟨s.takeWhile isBlank, rest.takeWhile isBlank, ?_,
        List.all_eq_true.mp List.all_takeWhile, List.all_eq_true.mp List.all_takeWhile⟩
      rw [← Option.some.inj found, ← same, trimStart, List.takeWhile_append_dropWhile, ← front,
        trimStart, List.takeWhile_append_dropWhile]
    · cases found

/-- A separator that is not white space is found where it stands. -/
theorem ne_of_behindSpaced?_eq_none {c : Char} (visible : isBlank separator = false)
    (none : behindSpaced? separator (c :: s) = none) : c ≠ separator := by
  rintro rfl
  rw [behindSpaced?, trimStart, List.dropWhile_cons_of_neg (by simp [visible])] at none
  simp at none

/-- The pieces are those between the separators alone, up to white space: the first one up to
white space at its end, the others at both ends. -/
theorem splitSpaced_pieces (visible : isBlank separator = false) (s : Text) :
    ∃ first rest piece pieces, splitSpaced separator s = first :: rest ∧
      splitOn separator s = piece :: pieces ∧ trimEnd first = trimEnd piece ∧
      rest.map trim = pieces.map trim := by
  fun_induction splitSpaced separator s with
  | case1 => exact ⟨[], [], [], [], rfl, rfl, rfl, rfl⟩
  | case2 c rest behind found inductionHypothesis =>
    obtain ⟨first, others, piece, pieces, spaced, plain, ends, same⟩ := inductionHypothesis
    obtain ⟨before, between, whole, blankBefore, blankBetween⟩ := exists_of_behindSpaced? found
    have clear {front : Text} (blank : ∀ d ∈ front, isBlank d = true) : separator ∉ front :=
      fun inside => by simp [blank _ inside] at visible
    have split : splitOn separator (c :: rest) = before :: (between ++ piece) :: pieces := by
      rw [whole, splitOn_append_cons, splitOn_of_notMem (clear blankBefore),
        splitOn_append_of_notMem (clear blankBetween), plain]
      rfl
    refine ⟨[], first :: others, before, (between ++ piece) :: pieces, by rw [spaced], split,
      (trimEnd_eq_nil blankBefore).symm, ?_⟩
    rw [List.map_cons, List.map_cons, same, trim_append_left blankBetween,
      trim_eq_of_trimEnd_eq ends]
  | case3 c rest none inductionHypothesis =>
    obtain ⟨first, others, piece, pieces, spaced, plain, ends, same⟩ := inductionHypothesis
    refine ⟨c :: first, others, c :: piece, pieces, by rw [spaced]; rfl, ?_,
      trimEnd_cons_congr c ends, same⟩
    rw [splitOn, if_neg (ne_of_behindSpaced?_eq_none visible none), plain]

/-- Trimmed pieces are the same whether or not white space belongs to the separators. -/
theorem map_trim_splitSpaced (visible : isBlank separator = false) (s : Text) :
    (splitSpaced separator s).map trim = (splitOn separator s).map trim := by
  obtain ⟨first, rest, piece, pieces, spaced, plain, ends, same⟩ := splitSpaced_pieces visible s
  rw [spaced, plain, List.map_cons, List.map_cons, same, trim_eq_of_trimEnd_eq ends]

end Pieces

/-- A text is items in order with a separator and any white space between each two. -/
inductive IsSpaced (separator : Char) : List Text → Text → Prop
  | none : IsSpaced separator [] []
  | last (item : Text) : IsSpaced separator [item] item
  | more (item : Text) {before behind : Text} {rest : List Text} {text : Text}
      (blankBefore : ∀ c ∈ before, isBlank c = true) (blankBehind : ∀ c ∈ behind, isBlank c = true)
      (nonempty : rest ≠ []) (others : IsSpaced separator rest text) :
      IsSpaced separator (item :: rest) (item ++ before ++ separator :: (behind ++ text))

/-- Items between separators are found again, up to white space at their ends. The induction is
on how they are written. -/
theorem IsSpaced.map_trim_splitOn {separator : Char} {items : List Text} {written : Text}
    (spaced : IsSpaced separator items written) (visible : isBlank separator = false)
    (nonempty : items ≠ []) (plain : ∀ item ∈ items, separator ∉ item) :
    (splitOn separator written).map trim = items.map trim := by
  have clear {front : Text} (blank : ∀ c ∈ front, isBlank c = true) : separator ∉ front :=
    fun inside => by simp [blank _ inside] at visible
  induction spaced with
  | none => exact absurd rfl nonempty
  | last item => rw [splitOn_of_notMem (plain item List.mem_cons_self)]
  | @more item before behind rest text blankBefore blankBehind filled others inductionHypothesis =>
    obtain ⟨first, later⟩ := List.forall_mem_cons.mp plain
    have front : separator ∉ item ++ before := by simp [first, clear blankBefore]
    have read := inductionHypothesis filled later
    rw [splitOn_append_cons, splitOn_of_notMem front,
      splitOn_append_of_notMem (clear blankBehind)]
    cases pieces : splitOn separator text with
    | nil => exact absurd pieces (splitOn_ne_nil separator text)
    | cons piece more =>
      rw [pieces, List.map_cons] at read
      rw [List.modifyHead_cons, List.singleton_append, List.map_cons, List.map_cons, List.map_cons,
        trim_append_right blankBefore, trim_append_left blankBehind, read]

end Docblock.Text
