import Docblock.Text.LetterCase
import Docblock.Proofs.Text.Ends

/-!
# Lower case and white space

What has no other case is its own lower case: the characters of the basic Latin alphabet that
are no capitals, and white space. The case of a sigma depends on its surroundings, but white space
around a text is not looked at. So a text may be trimmed before it is put in lower case or after.
-/

namespace Docblock.Text

variable {s front back : Text}

/-- A character of the basic Latin alphabet that is no capital is its own lower case. -/
theorem lowerChar_of_small {c : Char} (latin : c.toNat < 128) (small : ¬('A' ≤ c ∧ c ≤ 'Z'))
    (earlier later : Text) : lowerChar earlier c later = [c] := by
  simp [lowerChar, latin, small]

/-- A text of the basic Latin alphabet without capitals is its own lower case. -/
theorem lower_of_small (small : ∀ c ∈ s, c.toNat < 128 ∧ ¬('A' ≤ c ∧ c ≤ 'Z')) :
    lower s = s := by
  have general (earlier : Text) : lowerFrom earlier s = s := by
    induction s generalizing earlier with
    | nil => rfl
    | cons c rest inductionHypothesis =>
      obtain ⟨⟨latin, uncapital⟩, others⟩ := List.forall_mem_cons.mp small
      rw [lowerFrom, lowerChar_of_small latin uncapital, inductionHypothesis others]
      rfl
  exact general []

/-- White space is its own lower case. -/
theorem lowerChar_of_isBlank {c : Char} (blank : isBlank c = true) (earlier later : Text) :
    lowerChar earlier c later = [c] := by
  have unchanged := @eq_false_of_isBlank (fun d => d.toNat = 0x3A3 || lowerChar [] d [] ≠ [d])
    (by decide +kernel) c blank
  simp only [Bool.or_eq_false_iff, decide_eq_false_iff_not, not_not] at unchanged
  obtain ⟨noSigma, alone⟩ := unchanged
  rw [lowerChar] at alone ⊢
  rwa [if_neg noSigma] at alone ⊢

/-- White space is neither passed over nor cased. -/
theorem meetsCased_cons_of_isBlank {c : Char} (blank : isBlank c = true) (rest : Text) :
    meetsCased (c :: rest) = false := by
  have outside := @eq_false_of_isBlank
    (fun d => inRanges caseIgnorableRanges d.toNat || inRanges casedRanges d.toNat)
    (by decide +kernel) c blank
  obtain ⟨seen, uncased⟩ := Bool.or_eq_false_iff.mp outside
  rw [meetsCased, seen, uncased]
  rfl

/-- White space behind a text does not show when the text is searched for something cased. -/
theorem meetsCased_append_blank (blank : ∀ c ∈ back, isBlank c = true) (s : Text) :
    meetsCased (s ++ back) = meetsCased s := by
  induction s with
  | nil =>
    cases back with
    | nil => rfl
    | cons c rest => exact meetsCased_cons_of_isBlank (blank c List.mem_cons_self) rest
  | cons c rest inductionHypothesis =>
    rw [List.cons_append, meetsCased, meetsCased, inductionHypothesis]

/-- White space in front of a text stays in front of its lower case. -/
theorem lowerFrom_append_front (blank : ∀ c ∈ front, isBlank c = true) (earlier rest : Text) :
    lowerFrom earlier (front ++ rest) = front ++ lowerFrom (front.reverse ++ earlier) rest := by
  induction front generalizing earlier with
  | nil => rfl
  | cons c more inductionHypothesis =>
    obtain ⟨first, others⟩ := List.forall_mem_cons.mp blank
    rw [List.cons_append, lowerFrom, lowerChar_of_isBlank first, inductionHypothesis others]
    simp

/-- White space that was seen before a text does not show in its lower case, and white space
behind the text stays behind it. -/
theorem lowerFrom_append_back (before : ∀ c ∈ front, isBlank c = true)
    (behind : ∀ c ∈ back, isBlank c = true) (earlier s : Text) :
    lowerFrom (earlier ++ front) (s ++ back) = lowerFrom earlier s ++ back := by
  induction s generalizing earlier with
  | nil =>
    have alone := lowerFrom_append_front behind (earlier ++ front) []
    rwa [List.append_nil, lowerFrom, List.append_nil] at alone
  | cons c rest inductionHypothesis =>
    have first : lowerChar (earlier ++ front) c (rest ++ back) = lowerChar earlier c rest := by
      rw [lowerChar, lowerChar, meetsCased_append_blank before, meetsCased_append_blank behind]
    rw [List.cons_append, lowerFrom, lowerFrom, first, ← List.cons_append, inductionHypothesis,
      List.append_assoc]

/-- White space around a text stays around its lower case. -/
theorem lower_between (before : ∀ c ∈ front, isBlank c = true)
    (behind : ∀ c ∈ back, isBlank c = true) (s : Text) :
    lower (front ++ s ++ back) = front ++ lower s ++ back := by
  have turned : ∀ c ∈ front.reverse, isBlank c = true := fun c inside =>
    before c (List.mem_reverse.mp inside)
  have inner := lowerFrom_append_back turned behind [] s
  rw [List.append_assoc, lower, lowerFrom_append_front before, List.append_nil, List.append_assoc]
  exact congrArg (front ++ ·) inner

end Docblock.Text
