import Docblock.Proofs.Source.Names

/-!
# Statements in free layout

A statement that is made of names, braces, commas and semicolons can be laid out freely: any
white space may stand before each of its parts, and none has to where two parts do not run
together. Only a name must not be followed by a character of a name at once. Such a text
is cut into the parts that were written, whatever stands behind it.

Comments between the parts are not covered, and neither are parts of other classes.
-/

namespace Docblock.Source

/-- The lexeme that a token is. -/
def Token.lexeme (token : Token) : Lexeme := ⟨token.kind, token.text⟩

/-- The tokens of a text whose first character stands at an offset of the source. -/
def tokensAt (offset : Nat) (text : Text) : List Token :=
  (placed offset (lexemes text)).filter (·.kind.isSignificant)

/-- The marks that are cut off one by one, whatever follows them. -/
def statementMarks : List Char := ['{', '}', ',', ';']

instance (rest : Text) : Decidable (StopsName rest) :=
  decidable_of_iff (rest.head?.all (!isNameChar ·) = true) <| by
    cases rest with
    | nil => simp [StopsName]
    | cons c more => simp [StopsName]

/-- A part of a statement stands in front of a text: it is a whole name, on which the text
does not go on, or a mark. -/
def Lexeme.StandsBefore (lexeme : Lexeme) (rest : Text) : Prop :=
  (lexeme.kind = .name ∧ nameLength lexeme.text = some lexeme.text.length ∧ StopsName rest) ∨
  (lexeme.kind = .punctuation ∧ ∃ c ∈ statementMarks, lexeme.text = [c])

instance (lexeme : Lexeme) (rest : Text) : Decidable (lexeme.StandsBefore rest) :=
  -- The marks are tried, not all characters.
  have : Decidable (∃ c ∈ statementMarks, lexeme.text = [c]) := List.decidableBEx _ _
  inferInstanceAs (Decidable (_ ∨ _))

/-- The parts of a statement are laid out as a text in front of another one: the text holds
them in order, with any white space before each. -/
def IsLaidOut (behind : Text) : List Lexeme → Text → Prop
  | [], text => text = []
  | lexeme :: later, text =>
    let written := Text.trimStart text
    let rest := written.drop lexeme.text.length
    lexeme.text <+: written ∧ lexeme.StandsBefore (rest ++ behind) ∧ IsLaidOut behind later rest

instance decidableIsLaidOut (behind : Text) :
    (parts : List Lexeme) → (text : Text) → Decidable (IsLaidOut behind parts text)
  | [], text => inferInstanceAs (Decidable (text = []))
  | lexeme :: later, text =>
    have := decidableIsLaidOut behind later ((Text.trimStart text).drop lexeme.text.length)
    inferInstanceAs (Decidable (_ ∧ _ ∧ _))

/-- The opening of an attribute and all marks. -/
def allMarks : List Text := ['#', '['] :: punctuationMarks

/-- Whether no lexeme but white space and single characters starts with a character. -/
def opensNothing (c : Char) : Bool :=
  isQuiet c && c != '$' && c != '\\' && !Text.isNameStart c && !Text.isDigit c &&
    allMarks.all (·.head? != some c)

/-- None of some listed texts stands where none of them starts with the character. -/
theorem listedLength_eq_none {listed : List Text} {c : Char} (rest : Text)
    (other : ∀ mark ∈ listed, ∃ d more, mark = d :: more ∧ d ≠ c) :
    listedLength listed (c :: rest) = none := by
  rw [listedLength, Option.map_eq_none_iff, List.find?_eq_none]
  intro mark member
  obtain ⟨d, more, rfl, different⟩ := other mark member
  simp [List.isPrefixOf, different]

/-- White space before a visible character is one lexeme. -/
theorem measure_gap {gap : Text} {c : Char} (rest : Text) (nonempty : gap ≠ [])
    (blank : ∀ d ∈ gap, Text.isBlank d = true) (visible : Text.isBlank c = false) :
    measure (gap ++ c :: rest) = (.space, gap.length) := by
  have run : runLength Text.isBlank (gap ++ c :: rest) = gap.length :=
    runLength_append blank fun d others same => (List.cons.inj same).1 ▸ visible
  have width : spaceLength (gap ++ c :: rest) = some gap.length := by
    rw [spaceLength, run, if_neg (List.length_eq_zero_iff.not.mpr nonempty)]
  obtain ⟨first, more, rfl⟩ := List.exists_cons_of_ne_nil nonempty
  have plain := @Text.eq_false_of_isBlank (!opensNothing ·) (by decide +kernel) first
    (blank first List.mem_cons_self)
  simp only [opensNothing, Bool.not_eq_false', Bool.and_eq_true, Bool.not_eq_true', bne_iff_ne,
    List.all_eq_true] at plain
  obtain ⟨⟨⟨⟨⟨quiet, dollar⟩, separator⟩, letterless⟩, digitless⟩, unmarked⟩ := plain
  have filled : ∀ mark ∈ allMarks, mark ≠ [] := by decide
  have marks : ∀ mark ∈ allMarks, ∃ d more, mark = d :: more ∧ d ≠ first := by
    intro mark member
    obtain ⟨d, others, rfl⟩ := List.exists_cons_of_ne_nil (filled mark member)
    exact ⟨d, others, rfl, fun same => unmarked _ member (by rw [same]; rfl)⟩
  rw [List.cons_append] at width ⊢
  generalize more ++ c :: rest = others at width ⊢
  have notAttribute : attributeLength (first :: others) = none :=
    listedLength_eq_none others fun mark member =>
      marks mark (List.mem_cons.mpr (.inl (List.mem_singleton.mp member)))
  have notMark : punctuationLength (first :: others) = none :=
    listedLength_eq_none others fun mark member => marks mark (List.mem_cons_of_mem _ member)
  have notNumber : numberLength (first :: others) = none := by
    simp [numberLength, digitless]
  rw [measure_quiet _ quiet]
  simp only [rules, List.drop, List.findSome?, variableLength_eq_none others dollar,
    nameLength_eq_none others separator letterless, notNumber, notAttribute, notMark, width,
    Option.map_none, Option.map_some, Option.getD_some]

/-- A mark of a statement is cut off whatever follows it. -/
theorem measure_statementMark {c : Char} (listed : c ∈ statementMarks) (rest : Text) :
    measure (c :: rest) = (.punctuation, 1) := by
  simp only [statementMarks, List.mem_cons, List.not_mem_nil, or_false] at listed
  rcases listed with rfl | rfl | rfl | rfl <;> rfl

/-- A part of a statement is cut off in front of the text that it stands before. It is
significant, and it starts with a visible character. -/
theorem Lexeme.StandsBefore.measured {lexeme : Lexeme} {rest : Text}
    (stands : lexeme.StandsBefore rest) :
    measure (lexeme.text ++ rest) = (lexeme.kind, lexeme.text.length) ∧
      lexeme.kind.isSignificant = true ∧
      ∃ c more, lexeme.text = c :: more ∧ Text.isBlank c = false := by
  rcases stands with ⟨kind, whole, stops⟩ | ⟨kind, c, listed, text⟩
  · have measured := nameLength_append_eq lexeme.text stops
    rw [whole] at measured
    rw [kind]
    refine ⟨Printed.measure_of_nameLength measured, rfl, ?_⟩
    obtain ⟨chars, -⟩ := isNameText_of_nameLength whole
    rw [List.take_length] at chars
    cases front : lexeme.text with
    | nil => rw [front] at whole; cases whole
    | cons c more => exact ⟨c, more, rfl, isBlank_of_isNameChar (chars c (by simp [front]))⟩
  · rw [kind, text]
    refine ⟨measure_statementMark listed rest, rfl, c, [], rfl, ?_⟩
    have visible : ∀ d ∈ statementMarks, Text.isBlank d = false := Text.forall_mem (by decide)
    exact visible c listed

/-- A text that is laid out starts with white space, its first part and a text that is laid
out as the others. -/
theorem IsLaidOut.uncons {behind : Text} {lexeme : Lexeme} {later : List Lexeme} {text : Text}
    (laid : IsLaidOut behind (lexeme :: later) text) :
    ∃ gap rest, text = gap ++ (lexeme.text ++ rest) ∧ (∀ d ∈ gap, Text.isBlank d = true) ∧
      lexeme.StandsBefore (rest ++ behind) ∧ IsLaidOut behind later rest := by
  obtain ⟨⟨rest, written⟩, stands, further⟩ := laid
  rw [← written, List.drop_left] at stands further
  refine ⟨text.takeWhile Text.isBlank, rest, ?_, List.all_eq_true.mp List.all_takeWhile, stands,
    further⟩
  rw [written]
  exact List.takeWhile_append_dropWhile.symm

/-- White space and a part may be put in front of a text that is laid out. -/
theorem IsLaidOut.cons {behind : Text} {lexeme : Lexeme} {later : List Lexeme} {gap rest : Text}
    (blank : ∀ d ∈ gap, Text.isBlank d = true) (stands : lexeme.StandsBefore (rest ++ behind))
    (further : IsLaidOut behind later rest) :
    IsLaidOut behind (lexeme :: later) (gap ++ (lexeme.text ++ rest)) := by
  obtain ⟨-, -, c, more, front, visible⟩ := stands.measured
  have written : Text.trimStart (gap ++ (lexeme.text ++ rest)) = lexeme.text ++ rest := by
    rw [Text.trimStart, List.dropWhile_append_of_pos blank, front, List.cons_append,
      List.dropWhile_cons_of_neg (by simp [visible])]
  rw [IsLaidOut, written, List.drop_left]
  exact ⟨List.prefix_append _ _, stands, further⟩

/-- A text that is laid out as two sequences of parts is two texts. -/
theorem IsLaidOut.append {behind : Text} {first second : List Lexeme} {text : Text}
    (laid : IsLaidOut behind (first ++ second) text) :
    ∃ front back, text = front ++ back ∧ IsLaidOut (back ++ behind) first front ∧
      IsLaidOut behind second back := by
  induction first generalizing text with
  | nil => exact ⟨[], text, rfl, rfl, laid⟩
  | cons lexeme later inductionHypothesis =>
    obtain ⟨gap, rest, rfl, blank, stands, further⟩ := laid.uncons
    obtain ⟨front, back, rfl, laidFront, laidBack⟩ := inductionHypothesis further
    rw [List.append_assoc] at stands
    exact ⟨gap ++ (lexeme.text ++ front), back, by simp, .cons blank stands laidFront, laidBack⟩

/-- White space before a visible character makes no token. -/
theorem tokensAt_gap {gap : Text} (offset : Nat) {c : Char} (rest : Text)
    (blank : ∀ d ∈ gap, Text.isBlank d = true) (visible : Text.isBlank c = false) :
    tokensAt offset (gap ++ c :: rest) = tokensAt (offset + gap.length) (c :: rest) := by
  by_cases nonempty : gap = []
  · rw [nonempty]
    rfl
  · have skipped : Kind.space.isSignificant = false := rfl
    rw [tokensAt, lexemes_of_measure nonempty (measure_gap rest nonempty blank visible), placed,
      List.filter_cons, skipped]
    rfl

/-- A significant lexeme at the front of a text is its first token. -/
theorem tokensAt_cons (offset : Nat) {lexeme : Lexeme} {rest : Text} (nonempty : lexeme.text ≠ [])
    (measured : measure (lexeme.text ++ rest) = (lexeme.kind, lexeme.text.length))
    (significant : lexeme.kind.isSignificant = true) :
    tokensAt offset (lexeme.text ++ rest) =
      ⟨lexeme.kind, lexeme.text, offset, offset + lexeme.text.length⟩ ::
        tokensAt (offset + lexeme.text.length) rest := by
  rw [tokensAt, lexemes_of_measure nonempty measured, placed, List.filter_cons, significant]
  rfl

/-- **Free layout.** A text that is laid out as some parts is cut into these parts, and then
what stands behind it is cut. -/
theorem IsLaidOut.tokensAt_eq {behind : Text} {parts : List Lexeme} {text : Text}
    (laid : IsLaidOut behind parts text) (offset : Nat) :
    ∃ found, tokensAt offset (text ++ behind) =
        found ++ tokensAt (offset + text.length) behind ∧
      found.map Token.lexeme = parts := by
  induction parts generalizing text offset with
  | nil =>
    obtain rfl : text = [] := laid
    exact ⟨[], rfl, rfl⟩
  | cons lexeme later inductionHypothesis =>
    obtain ⟨gap, rest, rfl, blank, stands, further⟩ := laid.uncons
    obtain ⟨measured, significant, c, more, front, visible⟩ := stands.measured
    obtain ⟨found, same, parts⟩ := inductionHypothesis further
      (offset + gap.length + lexeme.text.length)
    have reached : offset + (gap ++ (lexeme.text ++ rest)).length =
        offset + gap.length + lexeme.text.length + rest.length := by
      simp only [List.length_append]
      omega
    refine ⟨⟨lexeme.kind, lexeme.text, offset + gap.length,
      offset + gap.length + lexeme.text.length⟩ :: found, ?_, ?_⟩
    · rw [reached, List.append_assoc, List.append_assoc, front, List.cons_append,
        tokensAt_gap _ _ blank visible, ← List.cons_append, ← front,
        tokensAt_cons _ (by simp [front]) measured significant, same, List.cons_append]
    · rw [List.map_cons, parts]
      rfl

end Docblock.Source
