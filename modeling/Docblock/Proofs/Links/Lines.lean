import Docblock.Text.Blank
import Mathlib.Data.List.TakeWhile

/-!
# Lines of a text

A line is a piece of a text between line feeds. Joining texts by line feeds keeps
the lines of each, and cutting white space off the end of a text keeps every line
that ends with a visible character.
-/

namespace Docblock.Text

/-- The pieces of a text are those of the library function. -/
theorem splitOn_eq (separator : Char) (s : Text) :
    splitOn separator s = List.splitOn separator s := by
  induction s with
  | nil => rfl
  | cons c rest inductionHypothesis =>
    rw [splitOn, List.splitOn_cons_eq_if_modifyHead, inductionHypothesis]
    by_cases same : c = separator
    · simp [same]
    · have other : (c == separator) = false := beq_eq_false_iff_ne.mpr same
      simp only [same, if_false, other]
      cases pieces : List.splitOn separator rest with
      | nil => exact absurd pieces (List.splitOn_ne_nil separator rest)
      | cons piece more => simp

/-- The pieces on both sides of a separator. -/
theorem splitOn_append_cons (separator : Char) (first second : Text) :
    splitOn separator (first ++ separator :: second) =
      splitOn separator first ++ splitOn separator second := by
  simp only [splitOn_eq, List.splitOn_append_cons_self]

/-- A text without the separator is its only piece. -/
theorem splitOn_of_notMem {separator : Char} {s : Text} (absent : separator ∉ s) :
    splitOn separator s = [s] := by
  rw [splitOn_eq, List.splitOn_eq_singleton absent]

/-- The pieces of joined texts are those of each. -/
theorem splitOn_join (separator : Char) {pieces : List Text} (nonempty : pieces ≠ []) :
    splitOn separator (join [separator] pieces) = pieces.flatMap (splitOn separator) := by
  induction pieces with
  | nil => exact absurd rfl nonempty
  | cons piece rest inductionHypothesis =>
    cases rest with
    | nil => simp [join]
    | cons next more =>
      have onward := inductionHypothesis (List.cons_ne_nil next more)
      rw [join, List.append_assoc, List.singleton_append, splitOn_append_cons, onward]
      rfl

/-- A character that is no separator goes to the last piece. -/
theorem splitOn_concat {separator c : Char} (other : c ≠ separator) (s : Text) :
    ∃ init last, splitOn separator s = init ++ [last] ∧
      splitOn separator (s ++ [c]) = init ++ [last ++ [c]] := by
  induction s with
  | nil => exact ⟨[], [], rfl, by simp [splitOn, other]⟩
  | cons d rest inductionHypothesis =>
    obtain ⟨init, last, before, after⟩ := inductionHypothesis
    rw [List.cons_append, splitOn, splitOn, before, after]
    by_cases same : d = separator
    · exact ⟨[] :: init, last, by simp [same], by simp [same]⟩
    · cases init with
      | nil => exact ⟨[], d :: last, by simp [same], by simp [same]⟩
      | cons piece more => exact ⟨(d :: piece) :: more, last, by simp [same], by simp [same]⟩

/-- Whether a text ends with a visible character. -/
def EndsVisibly (s : Text) : Prop := ∃ c more, s = more ++ [c] ∧ isBlank c = false

/-- A text with a visible end has it behind other texts, too. -/
theorem EndsVisibly.append {s : Text} (visible : EndsVisibly s) (front : Text) :
    EndsVisibly (front ++ s) := by
  obtain ⟨c, more, rfl, seen⟩ := visible
  exact ⟨c, front ++ more, (List.append_assoc ..).symm, seen⟩

/-- White space behind a text adds no line with a visible end. -/
theorem mem_splitOn_of_append_blank {line s blanks : Text} (visible : EndsVisibly line)
    (blank : ∀ c ∈ blanks, isBlank c = true) (member : line ∈ splitOn '\n' (s ++ blanks)) :
    line ∈ splitOn '\n' s := by
  obtain ⟨d, front, ends, seen⟩ := visible
  induction blanks generalizing s with
  | nil => rwa [List.append_nil] at member
  | cons c rest inductionHypothesis =>
    have split : s ++ c :: rest = s ++ [c] ++ rest := by simp
    rw [split] at member
    have earlier := inductionHypothesis (fun e inside => blank e (List.mem_cons_of_mem _ inside))
      member
    by_cases feed : c = '\n'
    · rw [feed, splitOn_append_cons, List.mem_append] at earlier
      rcases earlier with found | empty
      · exact found
      · simp [splitOn, ends] at empty
    · obtain ⟨init, last, before, after⟩ := splitOn_concat feed s
      rw [after, List.mem_append, List.mem_singleton] at earlier
      rw [before]
      rcases earlier with found | same
      · exact List.mem_append_left _ found
      · rw [ends] at same
        have equal := (List.append_inj_right' same rfl)
        have blankEnd := blank c List.mem_cons_self
        rw [← List.singleton_inj.mp equal, seen] at blankEnd
        cases blankEnd

/-- A line is still there, perhaps with white space behind it, when white space is
added to the text. -/
theorem exists_mem_splitOn_append_blank {line s blanks : Text}
    (blank : ∀ c ∈ blanks, isBlank c = true) (member : line ∈ splitOn '\n' s) :
    ∃ more, (∀ c ∈ more, isBlank c = true) ∧ line ++ more ∈ splitOn '\n' (s ++ blanks) := by
  induction blanks generalizing s line with
  | nil => exact ⟨[], by simp, by simpa using member⟩
  | cons c rest inductionHypothesis =>
    have split : s ++ c :: rest = s ++ [c] ++ rest := by simp
    have blankRest : ∀ e ∈ rest, isBlank e = true := fun e inside =>
      blank e (List.mem_cons_of_mem _ inside)
    rw [split]
    by_cases feed : c = '\n'
    · refine inductionHypothesis blankRest ?_
      rw [feed, splitOn_append_cons]
      exact List.mem_append_left _ member
    · obtain ⟨init, last, before, after⟩ := splitOn_concat feed s
      rw [before, List.mem_append, List.mem_singleton] at member
      rcases member with found | rfl
      · refine inductionHypothesis blankRest ?_
        rw [after]
        exact List.mem_append_left _ found
      · have longer : line ++ [c] ∈ splitOn '\n' (s ++ [c]) := by simp [after]
        obtain ⟨more, blankMore, found⟩ := inductionHypothesis blankRest longer
        refine ⟨c :: more, ?_, by simpa using found⟩
        intro e inside
        rcases List.mem_cons.mp inside with rfl | later
        · exact blank e List.mem_cons_self
        · exact blankMore e later

/-- What is cut off the end of a text is white space. -/
theorem exists_trimEnd_append (s : Text) :
    ∃ blanks, (∀ c ∈ blanks, isBlank c = true) ∧ s = trimEnd s ++ blanks := by
  refine ⟨(s.reverse.takeWhile isBlank).reverse, ?_, ?_⟩
  · intro c member
    exact List.all_eq_true.mp List.all_takeWhile c (List.mem_reverse.mp member)
  · rw [trimEnd, dropEndWhile, ← List.reverse_append, List.takeWhile_append_dropWhile,
      List.reverse_reverse]

/-- Only behind its last visible character is a text cut off. -/
theorem trimEnd_append (front : Text) {s : Text} {c : Char} (member : c ∈ s)
    (visible : isBlank c = false) : trimEnd (front ++ s) = front ++ trimEnd s := by
  have kept : s.reverse.dropWhile isBlank ≠ [] := by
    rw [ne_eq, List.dropWhile_eq_nil_iff]
    intro blank
    rw [blank c (List.mem_reverse.mpr member)] at visible
    cases visible
  rw [trimEnd, trimEnd, dropEndWhile, dropEndWhile, List.reverse_append, List.dropWhile_append,
    if_neg (by simpa using kept), List.reverse_append, List.reverse_reverse]

/-- A start of a text that ends with a visible character is not cut off. -/
theorem prefix_trimEnd {front s : Text} (visible : EndsVisibly front) (starts : front <+: s) :
    front <+: trimEnd s := by
  obtain ⟨c, more, rfl, seen⟩ := visible
  obtain ⟨rest, rfl⟩ := starts
  rw [List.append_assoc, trimEnd_append more (List.mem_append_left rest List.mem_cons_self) seen]
  refine (List.prefix_append_right_inj more).mpr ?_
  obtain ⟨blanks, blank, equal⟩ := exists_trimEnd_append ([c] ++ rest)
  cases kept : trimEnd ([c] ++ rest) with
  | nil =>
    rw [kept, List.nil_append] at equal
    rw [blank c (equal ▸ List.mem_cons_self)] at seen
    cases seen
  | cons d others =>
    rw [kept] at equal
    rw [(List.cons.inj equal).1]
    exact List.prefix_append [d] others

/-- A first line with a visible end stays a line when white space is cut off behind it and a line
feed is put there. -/
theorem exists_trimEnd_line {line : Text} (visible : EndsVisibly line) (rest : Text) :
    ∃ below, trimEnd (line ++ '\n' :: rest) ++ ['\n'] = line ++ '\n' :: below := by
  obtain ⟨kept, starts⟩ := prefix_trimEnd visible (List.prefix_append line ('\n' :: rest))
  obtain ⟨blanks, -, whole⟩ := exists_trimEnd_append (line ++ '\n' :: rest)
  rw [← starts, List.append_assoc] at whole
  rw [← starts, List.append_assoc]
  cases kept with
  | nil => exact ⟨[], rfl⟩
  | cons c more =>
    obtain rfl : '\n' = c := (List.cons.inj (List.append_cancel_left whole)).1
    exact ⟨more ++ ['\n'], rfl⟩

/-- The characters of joined texts are those of the texts and of the separator. -/
theorem mem_join {separator : Text} {pieces : List Text} {c : Char}
    (member : c ∈ join separator pieces) :
    c ∈ separator ∨ ∃ piece ∈ pieces, c ∈ piece := by
  induction pieces with
  | nil => cases member
  | cons piece rest inductionHypothesis =>
    cases rest with
    | nil => exact .inr ⟨piece, List.mem_cons_self, member⟩
    | cons next more =>
      rw [join, List.mem_append, List.mem_append] at member
      rcases member with (inside | between) | later
      · exact .inr ⟨piece, List.mem_cons_self, inside⟩
      · exact .inl between
      · rcases inductionHypothesis later with between | ⟨other, listed, place⟩
        · exact .inl between
        · exact .inr ⟨other, List.mem_cons_of_mem piece listed, place⟩

/-- Joined texts in front of a further one. -/
theorem join_append (separator : Text) {front : List Text} (nonempty : front ≠ []) (last : Text) :
    join separator (front ++ [last]) = join separator front ++ separator ++ last := by
  induction front with
  | nil => exact absurd rfl nonempty
  | cons piece rest inductionHypothesis =>
    cases rest with
    | nil => rfl
    | cons next more =>
      have onward := inductionHypothesis (List.cons_ne_nil next more)
      simp only [List.cons_append, join] at onward ⊢
      rw [onward]
      simp only [List.append_assoc]

end Docblock.Text
