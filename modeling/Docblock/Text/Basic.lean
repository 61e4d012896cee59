/-!
# Text

Text is a list of characters, so that an offset counts characters and every
function on it is an ordinary list function. This module holds the operations
that know nothing about the meaning of a character: cutting at a separator,
joining, trimming by a class, searching and replacing.

Classes of characters (blank, word character, printable) have modules of their
own beside this one.
-/

namespace Docblock

/-- A sequence of Unicode characters. -/
abbrev Text := List Char

namespace Text

/-- The pieces between the occurrences of a separator. A text without the
separator is its own only piece, and so is the empty text. -/
def splitOn (separator : Char) : Text → List Text
  | [] => [[]]
  | c :: rest =>
    if c = separator then [] :: splitOn separator rest
    else
      match splitOn separator rest with
      | [] => [[c]]
      | piece :: pieces => (c :: piece) :: pieces

/-- The pieces with a separator text between each two of them. -/
def join (separator : Text) : List Text → Text
  | [] => []
  | [piece] => piece
  | piece :: next :: pieces => piece ++ separator ++ join separator (next :: pieces)

/-- What stands before the first occurrence of a separator; all of the text if
there is none. -/
def before (separator : Char) (s : Text) : Text :=
  s.takeWhile (· != separator)

/-- What stands after the first occurrence of a separator; nothing if there is
none. -/
def after (separator : Char) (s : Text) : Text :=
  (s.dropWhile (· != separator)).drop 1

/-- Drops the longest end whose characters are all of a class. -/
def dropEndWhile (p : Char → Bool) (s : Text) : Text :=
  (s.reverse.dropWhile p).reverse

/-- Drops the characters of a class from both ends. -/
def trimWhile (p : Char → Bool) (s : Text) : Text :=
  dropEndWhile p (s.dropWhile p)

/-- Whether a text occurs in another one. -/
def occursIn (needle : Text) : Text → Bool
  | [] => needle.isEmpty
  | c :: rest => needle.isPrefixOf (c :: rest) || occursIn needle rest

/-- Replaces every occurrence of a non-empty text, from the left and without
overlap. An empty text has no occurrence. -/
def replaceAll (old new : Text) : Text → Text
  | [] => []
  | c :: rest =>
    if old ≠ [] ∧ old.isPrefixOf (c :: rest) then
      new ++ replaceAll old new ((c :: rest).drop old.length)
    else c :: replaceAll old new rest
termination_by s => s.length
decreasing_by
  · rename_i found
    have positive : 0 < old.length := List.length_pos_iff.mpr found.1
    simp only [List.length_drop, List.length_cons]
    omega
  · simp

/-- The order of texts by the code points of their characters, a proper start
of a text coming before it. -/
def precedesOrEquals : Text → Text → Bool
  | [], _ => true
  | _ :: _, [] => false
  | c :: s, d :: t => c.toNat < d.toNat || (c == d && precedesOrEquals s t)

/-- The decimal digits of a natural number. -/
def ofNat (n : Nat) : Text := Nat.toDigits 10 n

/-- The decimal digits of an integer after a minus sign when it is negative. -/
def ofInt : Int → Text
  | .ofNat n => ofNat n
  | .negSucc n => '-' :: ofNat (n + 1)

/-- Nothing is dropped at the front of a text without characters of the class. -/
theorem dropWhile_eq_self {p : Char → Bool} {s : Text} (kept : ∀ c ∈ s, p c = false) :
    s.dropWhile p = s := by
  cases s with
  | nil => rfl
  | cons c rest => simp [kept c List.mem_cons_self]

/-- Nothing is dropped at the end of a text without characters of the class. -/
theorem dropEndWhile_eq_self {p : Char → Bool} {s : Text} (kept : ∀ c ∈ s, p c = false) :
    dropEndWhile p s = s := by
  rw [dropEndWhile, dropWhile_eq_self fun c inside => kept c (List.mem_reverse.mp inside),
    List.reverse_reverse]

/-- A property of every character of a text is decided by going through the text. -/
theorem forall_mem {holds : Char → Prop} [DecidablePred holds] {s : Text}
    (all : s.all (fun c => decide (holds c)) = true) : ∀ c ∈ s, holds c := by
  intro c member
  exact of_decide_eq_true (List.all_eq_true.mp all c member)

end Text
end Docblock
