import Docblock.Text.Basic

/-!
# Blank characters and line breaks

White space is the Unicode class: the ASCII blanks, the four information
separators, next line, no-break space and the space separators. Line breaks are
a smaller class, in which a carriage return and the line feed after it count as
one break.
-/

namespace Docblock.Text

/-- White space, by code point. -/
def isBlank (c : Char) : Bool :=
  let n := c.toNat
  (9 ≤ n && n ≤ 13) || (0x1C ≤ n && n ≤ 0x20) || n == 0x85 || n == 0xA0 || n == 0x1680 ||
    (0x2000 ≤ n && n ≤ 0x200A) || n == 0x2028 || n == 0x2029 || n == 0x202F || n == 0x205F ||
    n == 0x3000

/-- The code points of white space. -/
def blankCodes : List Nat :=
  List.range' 9 5 ++ List.range' 0x1C 5 ++ List.range' 0x2000 11 ++
    [0x85, 0xA0, 0x1680, 0x2028, 0x2029, 0x202F, 0x205F, 0x3000]

/-- What no code point of white space has, white space does not have. -/
theorem eq_false_of_isBlank {p : Char → Bool}
    (outside : ∀ n ∈ blankCodes, p (Char.ofNat n) = false) {c : Char}
    (blank : isBlank c = true) : p c = false := by
  have code : c.toNat ∈ blankCodes := by
    simp only [isBlank, Bool.or_eq_true, Bool.and_eq_true, decide_eq_true_eq,
      beq_iff_eq] at blank
    simp only [blankCodes, List.mem_append, List.mem_range'_1, List.mem_cons, List.not_mem_nil,
      or_false]
    omega
  simpa [Char.ofNat_toNat] using outside _ code

/-- The characters that end a line. -/
def isLineBreak (c : Char) : Bool :=
  let n := c.toNat
  (10 ≤ n && n ≤ 13) || (0x1C ≤ n && n ≤ 0x1E) || n == 0x85 || n == 0x2028 || n == 0x2029

/-- Drops white space from both ends. -/
def trim (s : Text) : Text := trimWhile isBlank s

/-- Drops white space from the front. -/
def trimStart (s : Text) : Text := s.dropWhile isBlank

/-- Drops white space from the end. -/
def trimEnd (s : Text) : Text := dropEndWhile isBlank s

/-- What stands behind a separator at the front of a text. White space before and behind the
separator belongs to it. -/
def behindSpaced? (separator : Char) (s : Text) : Option Text :=
  match trimStart s with
  | [] => none
  | c :: rest => if c = separator then some (trimStart rest) else none

/-- A text is shorter behind a separator. -/
theorem length_behindSpaced? {separator : Char} {s behind : Text}
    (found : behindSpaced? separator s = some behind) : behind.length < s.length := by
  rw [behindSpaced?] at found
  split at found
  · cases found
  · rename_i c rest front
    split at found
    · rw [← Option.some.inj found]
      have shorter := (List.dropWhile_sublist (l := rest) isBlank).length_le
      have whole := (List.dropWhile_sublist (l := s) isBlank).length_le
      rw [trimStart] at front ⊢
      rw [front, List.length_cons] at whole
      omega
    · cases found

/-- The pieces between the occurrences of a separator, from the left. White space around a
separator belongs to it and to no piece. -/
def splitSpaced (separator : Char) : Text → List Text
  | [] => [[]]
  | c :: rest =>
    match _found : behindSpaced? separator (c :: rest) with
    | some behind => [] :: splitSpaced separator behind
    | none => (splitSpaced separator rest).modifyHead (c :: ·)
termination_by s => s.length
decreasing_by
  · exact length_behindSpaced? ‹_›
  · simp

/-- The maximal runs of characters of a class, in order. -/
def runs (p : Char → Bool) : Text → List Text
  | [] => []
  | c :: rest =>
    if p c then (c :: rest.takeWhile p) :: runs p (rest.dropWhile p) else runs p rest
termination_by s => s.length
decreasing_by
  · exact Nat.lt_succ_of_le (List.dropWhile_sublist _).length_le
  · simp

/-- The characters of a run are of its class. -/
theorem forall_mem_runs (p : Char → Bool) (s : Text) :
    ∀ run ∈ runs p s, ∀ c ∈ run, p c = true := by
  fun_induction runs p s with
  | case1 => simp
  | case2 c rest inside inductionHypothesis =>
    intro run member d place
    rcases List.mem_cons.mp member with rfl | later
    · rcases List.mem_cons.mp place with rfl | more
      · exact inside
      · exact List.all_eq_true.mp List.all_takeWhile d more
    · exact inductionHypothesis run later d place
  | case3 c rest outside inductionHypothesis => exact inductionHypothesis

/-- The maximal runs of characters that are not white space. -/
def words (s : Text) : List Text := runs (!isBlank ·) s

/-- The lines of a text without their breaks. A break at the very end starts no
further line. -/
def lines : Text → List Text
  | [] => []
  | '\r' :: '\n' :: rest => [] :: lines rest
  | c :: rest =>
    if isLineBreak c then [] :: lines rest
    else
      match lines rest with
      | [] => [[c]]
      | line :: more => (c :: line) :: more

/-- Line breaks as stored text writes them: a carriage return, alone or with a
line feed after it, becomes one line feed. -/
def unifyNewlines : Text → Text
  | [] => []
  | '\r' :: '\n' :: rest => '\n' :: unifyNewlines rest
  | c :: rest => (if c = '\r' then '\n' else c) :: unifyNewlines rest

/-- Nothing is trimmed off a text without white space. -/
theorem trim_eq_self {s : Text} (visible : ∀ c ∈ s, isBlank c = false) : trim s = s := by
  rw [trim, trimWhile, dropWhile_eq_self visible, dropEndWhile_eq_self visible]

/-- A line break belongs to white space, so trimming a text also drops the
breaks at its ends. -/
theorem isBlank_of_isLineBreak {c : Char} (broken : isLineBreak c = true) : isBlank c = true := by
  simp only [isLineBreak, isBlank, Bool.or_eq_true, Bool.and_eq_true, decide_eq_true_eq,
    beq_iff_eq] at broken ⊢
  omega

end Docblock.Text
