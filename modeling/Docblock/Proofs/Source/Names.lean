import Docblock.Proofs.Source.Terminals
import Docblock.Proofs.Source.Tiling
import Mathlib.Data.List.TakeWhile

/-!
# Names in source text

A name is a path of identifiers of any script between separators. How much of a text
is a path does not depend on what stands behind it, if that is no character of a name.
A token that is a name has only such characters, and not only separators.
-/

namespace Docblock.Source

/-- A character of a name: a word character or a separator. -/
def isNameChar (c : Char) : Bool := Text.isWordChar c || c == ClassName.separator

/-- What an identifier starts with is a word character. -/
theorem isWordChar_of_isNameStart {c : Char} (start : Text.isNameStart c = true) :
    Text.isWordChar c = true :=
  Printed.isWordChar_of_isIdentifierChar (Printed.isIdentifierChar_of_isNameStart start)

/-- A word character is a character of a name. -/
theorem isNameChar_of_isWordChar {c : Char} (word : Text.isWordChar c = true) :
    isNameChar c = true := by
  simp [isNameChar, word]

/-- A character of a name differs from every character that is none. -/
theorem ne_of_isNameChar {c d : Char} (named : isNameChar c = true)
    (other : isNameChar d = false) : c ≠ d := by
  rintro rfl
  rw [named] at other
  cases other

/-- A character of a name is visible. -/
theorem isBlank_of_isNameChar {c : Char} (named : isNameChar c = true) :
    Text.isBlank c = false := by
  by_contra blank
  rw [Bool.not_eq_false] at blank
  have other := @Text.eq_false_of_isBlank isNameChar (by decide +kernel) c blank
  rw [named] at other
  cases other

/-- Nothing of a name stands at the front of a text. -/
def StopsName (rest : Text) : Prop := ∀ c more, rest = c :: more → isNameChar c = false

/-- A name stops at the end of a text. -/
theorem stopsName_nil : StopsName [] := by
  rintro c more ⟨⟩

/-- A name stops at a character that is none of a name. -/
theorem stopsName_cons {c : Char} (outside : isNameChar c = false) (more : Text) :
    StopsName (c :: more) := by
  rintro d others same
  rw [← (List.cons.inj same).1]
  exact outside

/-- No word character stands where a name stops. -/
theorem StopsName.isWordChar {rest : Text} (stops : StopsName rest) (c : Char) (more : Text)
    (front : rest = c :: more) : Text.isWordChar c = false := by
  have plain := stops c more front
  rw [isNameChar, Bool.or_eq_false_iff] at plain
  exact plain.1

/-- The length of a run does not depend on what stands behind it, if that does not go on
with the run. -/
theorem runLength_append_eq {p : Char → Bool} (text : Text) {rest : Text}
    (outside : ∀ c more, rest = c :: more → p c = false) :
    runLength p (text ++ rest) = runLength p text := by
  simp only [runLength]
  induction text with
  | nil =>
    cases rest with
    | nil => rfl
    | cons c more => simp [outside c more rfl]
  | cons c others inductionHypothesis =>
    rw [List.cons_append, List.takeWhile_cons, List.takeWhile_cons]
    cases p c
    · rfl
    · simp [inductionHypothesis]

/-- The length of an identifier does not depend on what stands behind it. -/
theorem identifierLength_append_eq (text : Text) {rest : Text} (stops : StopsName rest) :
    identifierLength (text ++ rest) = identifierLength text := by
  cases text with
  | nil =>
    cases rest with
    | nil => rfl
    | cons c more =>
      have letterless : Text.isNameStart c = false := by
        by_contra start
        rw [Bool.not_eq_false] at start
        have word := isWordChar_of_isNameStart start
        rw [stops.isWordChar c more rfl] at word
        cases word
      simp [identifierLength, letterless]
  | cons c others =>
    simp only [List.cons_append, identifierLength, runLength_append_eq others stops.isWordChar]

/-- An identifier has no more characters than there are. -/
theorem identifierLength_le {text : Text} {width : Nat}
    (measured : identifierLength text = some width) : width ≤ text.length :=
  (identifierLength_measures text width measured).2

/-- The length of further segments does not depend on what stands behind them. -/
theorem segmentsLength_append_eq (text : Text) {rest : Text} (stops : StopsName rest) :
    segmentsLength (text ++ rest) = segmentsLength text := by
  fun_induction segmentsLength text with
  | case1 =>
    cases rest with
    | nil => simp [segmentsLength]
    | cons c more =>
      have plain := ne_of_isNameChar (c := '\\') (by decide) (stops c more rfl)
      rw [List.nil_append, segmentsLength, if_neg plain.symm]
  | case2 others ended =>
    rw [List.cons_append, segmentsLength, if_pos rfl, identifierLength_append_eq others stops,
      ended]
  | case3 others width measured inductionHypothesis =>
    have inside := identifierLength_le measured
    rw [List.cons_append, segmentsLength, if_pos rfl, identifierLength_append_eq others stops,
      measured]
    simp only
    rw [List.drop_append_of_le_length inside, inductionHypothesis]
  | case4 c others other =>
    rw [List.cons_append, segmentsLength, if_neg other]

/-- The length of a path does not depend on what stands behind it. -/
theorem pathLength_append_eq (text : Text) {rest : Text} (stops : StopsName rest) :
    pathLength (text ++ rest) = pathLength text := by
  cases text with
  | nil =>
    have unrooted : rest.head? ≠ some '\\' := by
      cases rest with
      | nil => simp
      | cons c more =>
        have plain := ne_of_isNameChar (c := '\\') (by decide) (stops c more rfl)
        simpa using plain.symm
    have nothing := identifierLength_append_eq [] stops
    rw [List.nil_append] at nothing ⊢
    simp only [pathLength, if_neg unrooted, List.drop_zero, nothing]
    rfl
  | cons c others =>
    have inside : (if c = '\\' then 1 else 0) ≤ (c :: others).length := by
      split <;> simp
    simp only [pathLength, List.cons_append, List.head?_cons, Option.some.injEq]
    rw [← List.cons_append]
    generalize (if c = '\\' then 1 else 0) = root at inside ⊢
    rw [List.drop_append_of_le_length inside, identifierLength_append_eq _ stops]
    cases measured : identifierLength ((c :: others).drop root) with
    | none => rfl
    | some width =>
      have bound := identifierLength_le measured
      rw [List.length_drop] at bound
      have within : root + width ≤ (c :: others).length := by omega
      rw [Option.map_some, Option.map_some, List.drop_append_of_le_length within,
        segmentsLength_append_eq _ stops]

/-- The length of a name does not depend on what stands behind it. -/
theorem nameLength_append_eq (text : Text) {rest : Text} (stops : StopsName rest) :
    nameLength (text ++ rest) = nameLength text := by
  rw [nameLength, nameLength, pathLength_append_eq text stops]
  cases measured : pathLength text with
  | none => rfl
  | some width =>
    have inside := (pathLength_measures text width measured).2
    rw [Option.map_some, Option.map_some, List.drop_append_of_le_length inside]
    have front : (text.drop width ++ rest).head? = some '\\' ↔
        (text.drop width).head? = some '\\' := by
      cases text.drop width with
      | cons c more => rfl
      | nil =>
        cases rest with
        | nil => rfl
        | cons c more =>
          have plain := ne_of_isNameChar (c := '\\') (by decide) (stops c more rfl)
          simpa using plain.symm
    simp only [front]

/-- An identifier starts with a letter and has word characters only. -/
theorem mem_take_identifierLength {text : Text} {width : Nat}
    (measured : identifierLength text = some width) :
    (∀ c ∈ text.take width, Text.isWordChar c = true) ∧
      ∃ c ∈ text.take width, Text.isNameStart c = true := by
  cases text with
  | nil => cases measured
  | cons c rest =>
    rw [identifierLength] at measured
    split at measured
    · rename_i start
      cases measured
      rw [Nat.add_comm, List.take_succ_cons, take_runLength]
      refine ⟨fun d member => ?_, c, List.mem_cons_self, start⟩
      rcases List.mem_cons.mp member with rfl | later
      · exact isWordChar_of_isNameStart start
      · exact List.mem_takeWhile_imp later
    · cases measured

/-- An identifier has no separator. -/
theorem separator_notMem {name : Text} (isIdentifier : identifierLength name = some name.length) :
    ClassName.separator ∉ name := by
  intro inside
  have words := (mem_take_identifierLength isIdentifier).1
  rw [List.take_length] at words
  exact absurd (words _ inside) (by decide +kernel)

/-- Further segments have characters of names only. -/
theorem mem_take_segmentsLength (text : Text) :
    ∀ c ∈ text.take (segmentsLength text), isNameChar c = true := by
  fun_induction segmentsLength text with
  | case1 => simp
  | case2 => simp
  | case3 others width measured inductionHypothesis =>
    intro c member
    rw [Nat.add_assoc, Nat.add_comm, List.take_succ_cons, List.take_add] at member
    rcases List.mem_cons.mp member with rfl | later
    · decide
    rcases List.mem_append.mp later with inside | behind
    · exact isNameChar_of_isWordChar ((mem_take_identifierLength measured).1 c inside)
    · exact inductionHypothesis c behind
  | case4 => simp

/-- A text with characters of names only that are not all separators. -/
def IsNameText (text : Text) : Prop :=
  (∀ c ∈ text, isNameChar c = true) ∧ ∃ c ∈ text, c ≠ ClassName.separator

/-- A path is made of characters of names. -/
theorem isNameText_of_pathLength {text : Text} {width : Nat}
    (measured : pathLength text = some width) : IsNameText (text.take width) := by
  simp only [pathLength] at measured
  obtain ⟨identifier, found, rfl⟩ := Option.map_eq_some_iff.mp measured
  obtain ⟨words, letter, inside, start⟩ := mem_take_identifierLength found
  rw [List.take_add, List.take_add]
  constructor
  · intro c member
    rcases List.mem_append.mp member with earlier | further
    · rcases List.mem_append.mp earlier with root | first
      · split at root
        · rename_i rooted
          obtain ⟨others, rfl⟩ : ∃ others, text = '\\' :: others := by
            cases text with
            | nil => simp at rooted
            | cons d others => exact ⟨others, by simpa using rooted⟩
          rw [List.take_succ_cons, List.take_zero, List.mem_singleton] at root
          rw [root]
          decide
        · simp at root
      · exact isNameChar_of_isWordChar (words c first)
    · exact mem_take_segmentsLength _ c further
  · refine ⟨letter, List.mem_append_left _ (List.mem_append_right _ inside), ?_⟩
    rintro rfl
    exact absurd start (by decide)

/-- A name is made of characters of names. -/
theorem isNameText_of_nameLength {text : Text} {width : Nat}
    (measured : nameLength text = some width) : IsNameText (text.take width) := by
  obtain ⟨path, found, rfl⟩ := Option.map_eq_some_iff.mp measured
  obtain ⟨plain, letter, inside, other⟩ := isNameText_of_pathLength found
  split
  · rename_i closed
    obtain ⟨others, behind⟩ : ∃ others, text.drop path = '\\' :: others := by
      cases back : text.drop path with
      | nil => simp [back] at closed
      | cons d others => exact ⟨others, by simpa [back] using closed⟩
    rw [List.take_add, behind, List.take_succ_cons, List.take_zero]
    refine ⟨fun c member => ?_, letter, List.mem_append_left _ inside, other⟩
    rcases List.mem_append.mp member with earlier | last
    · exact plain c earlier
    · rw [List.mem_singleton.mp last]
      decide
  · exact ⟨plain, letter, inside, other⟩

/-- Only the rule for names finds names. -/
theorem nameLength_of_measure {text : Text} {width : Nat}
    (measured : measure text = (.name, width)) : nameLength text = some width :=
  rule_of_measure (by simp [rules]) (by decide) measured

/-- A token that is a name is made of characters of names. -/
theorem isNameText_of_mem_tokens {source : Text} {token : Token}
    (member : token ∈ tokens source) (named : token.kind = .name) : IsNameText token.text := by
  obtain ⟨-, cut⟩ := placed_tiles source 0 (Nat.zero_le _)
  rw [List.drop_zero] at cut
  have piece := cut token (List.mem_filter.mp member).1
  have measured := piece.measured
  rw [named] at measured
  rw [piece.text]
  exact isNameText_of_nameLength (nameLength_of_measure measured)

end Docblock.Source
