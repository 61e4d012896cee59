import Docblock.Text.Blank
import Mathlib.Data.List.DropRight

/-!
# The ends of a text

Trimming drops the characters of a class from both ends of a text, and what is left is clear
of the class at its ends. So trimming takes nothing from a text with clear ends, and it takes
again what was put around one. White space at the ends of a text is no part of its words.
-/

namespace Docblock.Text

variable {p : Char → Bool} {s : Text}

/-- Neither the first nor the last character of a text is of a class. -/
def IsClear (p : Char → Bool) (s : Text) : Prop :=
  ∀ c, s.head? = some c ∨ s.getLast? = some c → p c = false

/-- A front that is not of the class stays when an end is dropped. -/
theorem dropEndWhile_cons {c : Char} (kept : p c = false) (more : Text) :
    dropEndWhile p (c :: more) = c :: dropEndWhile p more := by
  rw [dropEndWhile, dropEndWhile, List.reverse_cons, List.dropWhile_append]
  split
  · rename_i gone
    rw [List.isEmpty_iff.mp gone]
    simp [kept]
  · simp

/-- What is left when an end is dropped was there before. -/
theorem mem_of_mem_dropEndWhile {s : Text} {c : Char} (inside : c ∈ dropEndWhile p s) : c ∈ s := by
  rw [dropEndWhile, List.mem_reverse] at inside
  exact List.mem_reverse.mp ((List.dropWhile_sublist p).subset inside)

/-- Nothing is left of a text at both ends of which a class was dropped, or it starts with a
character that is not of the class. -/
theorem trimWhile_cases (p : Char → Bool) (s : Text) :
    ((∀ c ∈ s, p c = true) ∧ trimWhile p s = []) ∨
      ∃ c more, p c = false ∧ s.dropWhile p = c :: more ∧
        trimWhile p s = c :: dropEndWhile p more := by
  cases front : s.dropWhile p with
  | nil => exact .inl ⟨List.dropWhile_eq_nil_iff.mp front, by simp [trimWhile, front, dropEndWhile]⟩
  | cons c more =>
    have kept : p c = false := by
      have first := List.head?_dropWhile_not p s
      simpa [front] using first
    exact .inr ⟨c, more, kept, rfl, by rw [trimWhile, front, dropEndWhile_cons kept]⟩

/-- Trimming a class twice is trimming it once. -/
theorem trimWhile_trimWhile (s : Text) : trimWhile p (trimWhile p s) = trimWhile p s := by
  have twice (t : Text) : dropEndWhile p (dropEndWhile p t) = dropEndWhile p t := by
    simp only [dropEndWhile, List.reverse_reverse]
    rw [List.dropWhile_idempotent]
  rcases trimWhile_cases p s with ⟨-, nothing⟩ | ⟨c, more, kept, -, trimmed⟩
  · rw [nothing]
    rfl
  · rw [trimmed, trimWhile, List.dropWhile_cons_of_neg (by simp [kept]), dropEndWhile_cons kept,
      twice]

/-- A text does not end with a class that was dropped from its end. -/
theorem getLast?_dropEndWhile {s : Text} {c : Char} (last : (dropEndWhile p s).getLast? = some c) :
    p c = false := by
  rw [dropEndWhile, List.getLast?_reverse] at last
  have first := List.head?_dropWhile_not p s.reverse
  rw [last] at first
  simpa using first

/-- A text does not start with a class that was dropped from its front. -/
theorem head?_dropWhile {s : Text} {c : Char} (front : (s.dropWhile p).head? = some c) :
    p c = false := by
  have first := List.head?_dropWhile_not p s
  rw [front] at first
  simpa using first

/-- A text does not start with a class that was dropped from both ends. -/
theorem head?_trimWhile {s : Text} {c : Char} (front : (trimWhile p s).head? = some c) :
    p c = false := by
  rcases trimWhile_cases p s with ⟨-, nothing⟩ | ⟨d, more, kept, -, trimmed⟩
  · rw [nothing] at front
    cases front
  · rw [trimmed, List.head?_cons] at front
    cases front
    exact kept

/-- The ends of a text are clear of a class that was dropped from them. -/
theorem isClear_trimWhile (p : Char → Bool) (s : Text) : IsClear p (trimWhile p s) := by
  rintro c (front | back)
  · exact head?_trimWhile front
  · exact getLast?_dropEndWhile back

/-- A text with ends that are clear of a class is clear of every class within it. -/
theorem IsClear.of_imp {q : Char → Bool} (clear : IsClear p s)
    (within : ∀ c, q c = true → p c = true) : IsClear q s := by
  intro c place
  by_contra other
  have outer := within c (by simpa using other)
  rw [clear c place] at outer
  cases outer

/-- Nothing is dropped from the front of a text with clear ends. -/
theorem IsClear.dropWhile_eq (clear : IsClear p s) : s.dropWhile p = s := by
  cases s with
  | nil => rfl
  | cons c more => exact List.dropWhile_cons_of_neg (by simp [clear c (.inl rfl)])

/-- Nothing is dropped from the end of a text with clear ends. -/
theorem IsClear.dropEndWhile_eq (clear : IsClear p s) : dropEndWhile p s = s := by
  have turned : IsClear p s.reverse := by
    rintro c (front | back)
    · exact clear c (.inr (List.head?_reverse ▸ front))
    · exact clear c (.inl (List.getLast?_reverse ▸ back))
  rw [dropEndWhile, turned.dropWhile_eq, List.reverse_reverse]

/-- Nothing is dropped from a text with clear ends. -/
theorem IsClear.trimWhile_eq (clear : IsClear p s) : trimWhile p s = s := by
  rw [trimWhile, clear.dropWhile_eq, clear.dropEndWhile_eq]

/-- What is of a class around a text is dropped with it. -/
theorem trimWhile_between {front back : Text} (before : ∀ c ∈ front, p c = true)
    (behind : ∀ c ∈ back, p c = true) (s : Text) :
    trimWhile p (front ++ s ++ back) = trimWhile p s := by
  have dropped (t : Text) : dropEndWhile p (t ++ back) = dropEndWhile p t := by
    rw [dropEndWhile, dropEndWhile, List.reverse_append, List.dropWhile_append_of_pos]
    exact fun c inside => behind c (List.mem_reverse.mp inside)
  rw [trimWhile, trimWhile, List.append_assoc, List.dropWhile_append_of_pos before,
    List.dropWhile_append]
  split
  · rename_i gone
    rw [List.isEmpty_iff.mp gone, List.dropWhile_eq_nil_iff.mpr behind]
  · exact dropped _

/-- A text is what is left when it is trimmed, with characters of the class around it. -/
theorem exists_trimWhile (p : Char → Bool) (s : Text) :
    ∃ front back, (∀ c ∈ front, p c = true) ∧ (∀ c ∈ back, p c = true) ∧
      s = front ++ trimWhile p s ++ back := by
  refine ⟨s.takeWhile p, ((s.dropWhile p).reverse.takeWhile p).reverse,
    List.all_eq_true.mp List.all_takeWhile, ?_, ?_⟩
  · intro c inside
    exact List.all_eq_true.mp List.all_takeWhile c (List.mem_reverse.mp inside)
  · rw [trimWhile, dropEndWhile, List.append_assoc, ← List.reverse_append,
      List.takeWhile_append_dropWhile, List.reverse_reverse, List.takeWhile_append_dropWhile]

/-- A text is clear of a class at its ends when no character of it is of the class. -/
theorem isClear_of_forall (other : ∀ c ∈ s, p c = false) : IsClear p s := by
  rintro c (front | back)
  · exact other c (List.mem_of_head? front)
  · exact other c (List.mem_of_getLast? back)

/-- Texts with clear ends that are not empty are joined to a text with clear ends, which is not
empty either. -/
theorem isClear_join {separator : Text} {pieces : List Text} (nonempty : pieces ≠ [])
    (clear : ∀ piece ∈ pieces, piece ≠ [] ∧ IsClear p piece) :
    join separator pieces ≠ [] ∧ IsClear p (join separator pieces) := by
  induction pieces with
  | nil => exact absurd rfl nonempty
  | cons piece rest inductionHypothesis =>
    obtain ⟨first, others⟩ := List.forall_mem_cons.mp clear
    cases rest with
    | nil => exact first
    | cons next more =>
      obtain ⟨filled, clearRest⟩ := inductionHypothesis (List.cons_ne_nil next more) others
      rw [join]
      refine ⟨by simp [first.1], ?_⟩
      rintro c (front | back)
      · rw [List.append_assoc, List.head?_append_of_ne_nil _ first.1] at front
        exact first.2 c (.inl front)
      · rw [List.getLast?_append_of_ne_nil _ filled] at back
        exact clearRest c (.inr back)

/-- A run is not empty. -/
theorem ne_nil_of_mem_runs {run : Text} (listed : run ∈ runs p s) : run ≠ [] := by
  fun_induction runs p s with
  | case1 => cases listed
  | case2 c rest inside inductionHypothesis =>
    rcases List.mem_cons.mp listed with rfl | later
    · exact List.cons_ne_nil _ _
    · exact inductionHypothesis later
  | case3 c rest outside inductionHypothesis => exact inductionHypothesis listed

/-- A word holds no white space. -/
theorem visible_of_mem_words {word : Text} (listed : word ∈ words s) :
    ∀ c ∈ word, isBlank c = false := by
  intro c inside
  simpa using forall_mem_runs (!isBlank ·) s word listed c inside

/-- A text has no words when all of it is white space. -/
theorem words_eq_nil_iff : words s = [] ↔ ∀ c ∈ s, isBlank c = true := by
  rw [words]
  fun_induction runs (!isBlank ·) s with
  | case1 => simp
  | case2 c rest visible =>
    have seen : isBlank c = false := by simpa using visible
    simp [seen]
  | case3 c rest hidden inductionHypothesis =>
    have blank : isBlank c = true := by simpa using hidden
    rw [inductionHypothesis, List.forall_mem_cons, and_iff_right blank]

/-- Other characters in front of a text are no part of its runs. -/
theorem runs_append_front {front : Text} (other : ∀ c ∈ front, p c = false) (s : Text) :
    runs p (front ++ s) = runs p s := by
  induction front with
  | nil => rfl
  | cons c more inductionHypothesis =>
    obtain ⟨first, later⟩ := List.forall_mem_cons.mp other
    rw [List.cons_append, runs, if_neg (by simp [first]), inductionHypothesis later]

/-- Other characters behind a text are no part of its runs. -/
theorem runs_append_back {back : Text} (other : ∀ c ∈ back, p c = false) (s : Text) :
    runs p (s ++ back) = runs p s := by
  have kept : back.dropWhile p = back := dropWhile_eq_self other
  have nothing : back.takeWhile p = [] := by
    cases back with
    | nil => rfl
    | cons c more => exact List.takeWhile_cons_of_neg (by simp [other c List.mem_cons_self])
  fun_induction runs p s with
  | case1 =>
    have alone := runs_append_front other []
    rwa [List.append_nil, runs] at alone
  | case2 c rest inside inductionHypothesis =>
    have run : (rest ++ back).takeWhile p = rest.takeWhile p := by
      rw [List.takeWhile_append, nothing]
      split
      · rename_i whole
        rw [List.append_nil, List.takeWhile_prefix p |>.eq_of_length whole]
      · rfl
    have left : (rest ++ back).dropWhile p = rest.dropWhile p ++ back := by
      rw [List.dropWhile_append, kept]
      split
      · rename_i gone
        rw [List.isEmpty_iff.mp gone, List.nil_append]
      · rfl
    rw [List.cons_append, runs, if_pos inside, run, left, inductionHypothesis]
  | case3 c rest outside inductionHypothesis =>
    rw [List.cons_append, runs, if_neg outside, inductionHypothesis]

/-- What is trimmed off a text is no part of its runs of other characters. -/
theorem runs_trimWhile {q : Char → Bool} (other : ∀ c, q c = true → p c = false) (s : Text) :
    runs p (trimWhile q s) = runs p s := by
  obtain ⟨front, back, before, behind, whole⟩ := exists_trimWhile q s
  conv_rhs => rw [whole]
  rw [runs_append_back fun c inside => other c (behind c inside),
    runs_append_front fun c inside => other c (before c inside)]

/-- White space at the ends of a text is no part of its words. -/
theorem words_trim (s : Text) : words (trim s) = words s :=
  runs_trimWhile (by simp) s

end Docblock.Text
