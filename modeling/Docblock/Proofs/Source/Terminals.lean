import Docblock.Proofs.Source.Printed

/-!
# Terminals of printed files

Every lexeme that a printed file is made of is measured as itself when a blank
follows: class names and keywords, variables, numbers, strings, operators and
brackets. The classes of lexemes are tried in a fixed order, so for each of them
the first character has to rule out the classes that come before.
-/

namespace Docblock.Source

/-- A run of characters of a class ends where the next character is not of the
class. -/
theorem runLength_append {p : Char → Bool} {text rest : Text} (inside : ∀ c ∈ text, p c = true)
    (outside : ∀ c more, rest = c :: more → p c = false) :
    runLength p (text ++ rest) = text.length := by
  induction text with
  | nil =>
    cases rest with
    | nil => rfl
    | cons c more => simp [runLength, outside c more rfl]
  | cons c others inductionHypothesis =>
    have onward := inductionHypothesis fun d member => inside d (List.mem_cons_of_mem _ member)
    have first := inside c List.mem_cons_self
    simp only [runLength] at onward ⊢
    simp [first, onward]

section Rules

variable {c : Char} (rest : Text)

/-- A documentation comment starts with a slash. -/
theorem docLength_eq_none (other : c ≠ '/') : docLength (c :: rest) = none := by
  simp [docLength, delimited, List.isPrefixOf, Ne.symm other]

/-- A comment starts with a slash or a number sign. -/
theorem commentLength_eq_none (other : c ≠ '/') (unsigned : c ≠ '#') :
    commentLength (c :: rest) = none := by
  simp only [commentLength, delimited, List.isPrefixOf]
  simp only [beq_eq_false_iff_ne.mpr (Ne.symm other), Bool.false_and, Bool.false_eq_true, if_false]
  split
  · rename_i text equal
    exact absurd (List.cons.inj equal).1 other
  · rename_i text equal
    exact absurd (List.cons.inj equal).1 unsigned
  · rfl

/-- A heredoc starts with an angle. -/
theorem heredocLength_eq_none (other : c ≠ '<') : heredocLength (c :: rest) = none := by
  have unopened : ¬['<', '<', '<'].isPrefixOf (c :: rest) = true := by
    simp [List.isPrefixOf, Ne.symm other]
  have stopped : (guard (['<', '<', '<'].isPrefixOf (c :: rest) = true) : Option Unit) = none :=
    if_neg unopened
  rw [heredocLength, stopped]
  rfl

/-- A string starts with a quote. -/
theorem stringLength_eq_none (single : c ≠ '\x27') (double : c ≠ '"') :
    stringLength (c :: rest) = none := by
  simp only [stringLength]
  split
  · rename_i text equal
    exact absurd (List.cons.inj equal).1 single
  · rename_i text equal
    exact absurd (List.cons.inj equal).1 double
  · rfl

/-- A tag starts with an angle or a question mark. -/
theorem tagLength_eq_none (angle : c ≠ '<') (question : c ≠ '?') :
    tagLength (c :: rest) = none := by
  simp [tagLength, listedLength, List.isPrefixOf, Ne.symm angle, Ne.symm question]

/-- A variable starts with a dollar sign. -/
theorem variableLength_eq_none (other : c ≠ '$') : variableLength (c :: rest) = none := by
  simp only [variableLength]
  split
  · rename_i text equal
    exact absurd (List.cons.inj equal).1 other
  · rfl

/-- A name starts with a letter, an underscore or a separator. -/
theorem nameLength_eq_none (other : c ≠ '\\') (letterless : Text.isNameStart c = false) :
    nameLength (c :: rest) = none := by
  simp [nameLength, pathLength, other, identifierLength, letterless]

end Rules

/-- The characters that open no comment, heredoc, string or tag. -/
def isQuiet (c : Char) : Bool :=
  !(['/', '#', '<', '\x27', '"', '?'].contains c)

/-- Behind a quiet character only the later classes are left. -/
theorem measure_quiet {c : Char} (rest : Text) (quiet : isQuiet c = true) :
    measure (c :: rest) =
      (((rules.drop 5).findSome? fun (kind, length) => (length (c :: rest)).map (kind, ·)).getD
        (.other, 1)) := by
  simp only [isQuiet, Bool.not_eq_true', List.contains_eq_mem, List.mem_cons, List.not_mem_nil,
    or_false, decide_eq_false_iff_not, not_or] at quiet
  obtain ⟨slash, number, angle, single, double, question⟩ := quiet
  have doc := docLength_eq_none rest slash
  have comment := commentLength_eq_none rest slash number
  have heredoc := heredocLength_eq_none rest angle
  have string := stringLength_eq_none rest single double
  have tag := tagLength_eq_none rest angle question
  simp only [measure, rules, List.findSome?, doc, comment, heredoc, string, tag, Option.map_none,
    List.drop]

namespace Printed

/-- The code points of letters and the underscore. -/
theorem isNameStart_iff (c : Char) :
    Text.isNameStart c = true ↔
      (97 ≤ c.toNat ∧ c.toNat ≤ 122) ∨ (65 ≤ c.toNat ∧ c.toNat ≤ 90) ∨ c.toNat = 95 := by
  have underscore : c = '_' ↔ c.toNat = 95 :=
    ⟨fun same => by rw [same]; rfl, fun same => Char.toNat_inj.mp same⟩
  simp only [Text.isNameStart, Bool.or_eq_true, Bool.and_eq_true, decide_eq_true_eq, beq_iff_eq,
    underscore, or_assoc]
  rfl

/-- The code points of identifier characters. -/
theorem isIdentifierChar_iff (c : Char) :
    isIdentifierChar c = true ↔
      Text.isNameStart c = true ∨ (48 ≤ c.toNat ∧ c.toNat ≤ 57) := by
  simp only [isIdentifierChar, Bool.or_eq_true, Bool.and_eq_true, decide_eq_true_eq]
  rfl

/-- An identifier character is a word character. -/
theorem isWordChar_of_isIdentifierChar {c : Char} (inside : isIdentifierChar c = true) :
    Text.isWordChar c = true := by
  have bound : c.toNat < 128 := by
    rw [isIdentifierChar_iff, isNameStart_iff] at inside
    omega
  simpa [Text.isWordChar, bound, isIdentifierChar] using inside

/-- An identifier character is visible. -/
theorem isBlank_of_isIdentifierChar {c : Char} (inside : isIdentifierChar c = true) :
    Text.isBlank c = false := by
  rw [isIdentifierChar_iff, isNameStart_iff] at inside
  simp only [Text.isBlank, Bool.or_eq_false_iff, Bool.and_eq_false_iff, decide_eq_false_iff_not,
    beq_eq_false_iff_ne]
  omega

/-- A letter is an identifier character. -/
theorem isIdentifierChar_of_isNameStart {c : Char} (start : Text.isNameStart c = true) :
    isIdentifierChar c = true := by
  simp [isIdentifierChar, start]

/-- The characters of an identifier. -/
theorem forall_mem_of_isIdentifier {text : Text} (wellFormed : isIdentifier text = true) :
    ∀ c ∈ text, isIdentifierChar c = true := by
  cases text with
  | nil => simp
  | cons c rest =>
    simp only [isIdentifier, Bool.and_eq_true, List.all_eq_true] at wellFormed
    intro d member
    rcases List.mem_cons.mp member with rfl | later
    · exact isIdentifierChar_of_isNameStart wellFormed.1
    · exact wellFormed.2 d later

/-- An identifier ends where no word character follows. -/
theorem identifierLength_append {text rest : Text} (wellFormed : isIdentifier text = true)
    (outside : ∀ c more, rest = c :: more → Text.isWordChar c = false) :
    identifierLength (text ++ rest) = some text.length := by
  have inside := forall_mem_of_isIdentifier wellFormed
  cases text with
  | nil => simp [isIdentifier] at wellFormed
  | cons c others =>
    simp only [isIdentifier, Bool.and_eq_true] at wellFormed
    have run : runLength Text.isWordChar (others ++ rest) = others.length :=
      runLength_append (fun d member =>
        isWordChar_of_isIdentifierChar (inside d (List.mem_cons_of_mem _ member))) outside
    simp [identifierLength, wellFormed.1, run, Nat.add_comm]

/-- No word character stands at the end of a lexeme. -/
theorem isWordChar_of_isBroken {rest : Text} (broken : IsBroken rest) (c : Char) (more : Text)
    (front : rest = c :: more) : Text.isWordChar c = false := by
  rcases broken with rfl | ⟨others, rfl⟩
  · cases front
  · cases front
    decide

/-- Identifiers with a separator before each. -/
def segmented (names : List Text) : Text :=
  names.flatMap fun name => ClassName.separator :: name

/-- No word character stands where further segments or the end of a lexeme follow. -/
theorem isWordChar_of_segmented (names : List Text) {rest : Text} (broken : IsBroken rest)
    (c : Char) (more : Text) (front : segmented names ++ rest = c :: more) :
    Text.isWordChar c = false := by
  cases names with
  | nil => exact isWordChar_of_isBroken broken c more front
  | cons name others =>
    simp only [segmented, List.flatMap_cons, List.cons_append, List.cons.injEq] at front
    rw [← front.1]
    decide

/-- Further segments of a name end with the lexeme. -/
theorem segmentsLength_append {names : List Text} {rest : Text}
    (wellFormed : ∀ name ∈ names, isIdentifier name = true) (broken : IsBroken rest) :
    segmentsLength (segmented names ++ rest) = (segmented names).length := by
  induction names with
  | nil =>
    rcases broken with rfl | ⟨more, rfl⟩ <;> simp [segmented, segmentsLength]
  | cons name others inductionHypothesis =>
    have first := wellFormed name List.mem_cons_self
    have onward := inductionHypothesis fun next member =>
      wellFormed next (List.mem_cons_of_mem _ member)
    have width := identifierLength_append first (isWordChar_of_segmented others broken)
    have split : segmented (name :: others) ++ rest =
        ClassName.separator :: (name ++ (segmented others ++ rest)) := by
      simp [segmented]
    rw [split, segmentsLength]
    simp only [width, ClassName.separator, if_true, List.drop_left, onward]
    simp only [segmented, List.flatMap_cons, List.length_append, List.length_cons]
    omega

/-- A text that is a class name or a single word. -/
def IsName (text : Text) : Prop :=
  ∃ root first names, (root = [] ∨ root = [ClassName.separator]) ∧ isIdentifier first = true ∧
    (∀ name ∈ names, isIdentifier name = true) ∧ text = root ++ (first ++ segmented names)

/-- An identifier is a name. -/
theorem isName_of_isIdentifier {text : Text} (wellFormed : isIdentifier text = true) :
    IsName text :=
  ⟨[], text, [], .inl rfl, wellFormed, by simp, by simp [segmented]⟩

/-- A class name is a name. -/
theorem Path.isName (path : Path) : IsName path.text := by
  refine ⟨if path.isAbsolute then [ClassName.separator] else [], path.segments.first.text,
    path.segments.others.map Identifier.text, ?_, path.segments.first.wellFormed, ?_, ?_⟩
  · cases path.isAbsolute <;> simp
  · intro name member
    obtain ⟨segment, -, rfl⟩ := List.mem_map.mp member
    exact segment.wellFormed
  · cases absolute : path.isAbsolute <;>
      simp [Path.text, Segments.text, segmented, List.flatMap_map, absolute]

/-- A namespace is a name. -/
theorem Segments.isName (segments : Segments) : IsName segments.text :=
  Path.isName ⟨false, segments⟩

/-- The characters of a name. -/
theorem IsName.forall_mem {text : Text} (isName : IsName text) :
    ∀ c ∈ text, c = ClassName.separator ∨ isIdentifierChar c = true := by
  obtain ⟨root, first, names, rooted, start, others, rfl⟩ := isName
  intro c member
  rcases List.mem_append.mp member with inRoot | later
  · rcases rooted with rfl | rfl
    · cases inRoot
    · exact .inl (List.mem_singleton.mp inRoot)
  rcases List.mem_append.mp later with inFirst | inOthers
  · exact .inr (forall_mem_of_isIdentifier start c inFirst)
  obtain ⟨name, listed, place⟩ := List.mem_flatMap.mp inOthers
  rcases List.mem_cons.mp place with same | inside
  · exact .inl same
  · exact .inr (forall_mem_of_isIdentifier (others name listed) c inside)

/-- A name is not empty. -/
theorem IsName.ne_nil {text : Text} (isName : IsName text) : text ≠ [] := by
  obtain ⟨root, first, names, -, start, -, rfl⟩ := isName
  cases first with
  | nil => simp [isIdentifier] at start
  | cons c rest => simp

/-- The characters of a name are visible. -/
theorem IsName.visible {text : Text} (isName : IsName text) :
    ∀ c ∈ text, Text.isBlank c = false := by
  intro c member
  rcases isName.forall_mem c member with rfl | inside
  · decide
  · exact isBlank_of_isIdentifierChar inside

/-- A name ends with its lexeme. -/
theorem nameLength_append {text rest : Text} (isName : IsName text) (broken : IsBroken rest) :
    nameLength (text ++ rest) = some text.length := by
  obtain ⟨root, first, names, rooted, start, others, rfl⟩ := isName
  have width := identifierLength_append start (isWordChar_of_segmented names broken)
  have further := segmentsLength_append others broken
  have unrooted : (if (root ++ (first ++ (segmented names ++ rest))).head? = some '\\'
      then 1 else 0) = root.length := by
    rcases rooted with rfl | rfl
    · cases first with
      | nil => simp [isIdentifier] at start
      | cons c more =>
        have letter : c ≠ '\\' := by
          rintro rfl
          simp only [isIdentifier, Bool.and_eq_true] at start
          exact absurd start.1 (by decide)
        simp [letter]
    · rfl
  have path : pathLength (root ++ (first ++ (segmented names ++ rest))) =
      some (root ++ (first ++ segmented names)).length := by
    rw [pathLength, unrooted, List.drop_left, width, Option.map_some, ← List.drop_drop,
      List.drop_left, List.drop_left, further]
    simp only [List.length_append, Nat.add_assoc]
  have ended : rest.head? ≠ some '\\' := by
    rcases broken with rfl | ⟨more, rfl⟩ <;> simp
  have regrouped : root ++ (first ++ segmented names) ++ rest =
      root ++ (first ++ (segmented names ++ rest)) := by
    simp only [List.append_assoc]
  rw [nameLength, regrouped, path, ← regrouped, Option.map_some, List.drop_left, if_neg ended]

/-- An identifier character opens no comment, heredoc, string, tag or variable. -/
theorem isQuiet_of_isIdentifierChar {c : Char} (inside : isIdentifierChar c = true) :
    isQuiet c = true ∧ c ≠ '$' := by
  have differs : ∀ d, isIdentifierChar d = false → c ≠ d := by
    rintro d outside rfl
    rw [outside] at inside
    cases inside
  refine ⟨?_, differs _ (by decide)⟩
  simp only [isQuiet, Bool.not_eq_true', List.contains_eq_mem, List.mem_cons, List.not_mem_nil,
    or_false, decide_eq_false_iff_not, not_or]
  exact ⟨differs _ (by decide), differs _ (by decide), differs _ (by decide),
    differs _ (by decide), differs _ (by decide), differs _ (by decide)⟩

/-- What the rule for names measures is a name. -/
theorem measure_of_nameLength {text : Text} {width : Nat}
    (measured : nameLength text = some width) : measure text = (.name, width) := by
  cases text with
  | nil => cases measured
  | cons c rest =>
    have start : c = '\\' ∨ Text.isNameStart c = true := by
      by_cases separator : c = '\\'
      · exact .inl separator
      · cases letter : Text.isNameStart c with
        | true => exact .inr rfl
        | false =>
          rw [nameLength_eq_none rest separator letter] at measured
          cases measured
    have quiet : isQuiet c = true ∧ c ≠ '$' := by
      rcases start with rfl | letter
      · decide
      · exact isQuiet_of_isIdentifierChar (isIdentifierChar_of_isNameStart letter)
    rw [measure_quiet _ quiet.1]
    simp only [rules, List.drop, List.findSome?, variableLength_eq_none rest quiet.2, measured,
      Option.map_none, Option.map_some, Option.getD_some]

/-- A name is measured as itself. -/
theorem measure_name {text rest : Text} (isName : IsName text) (broken : IsBroken rest) :
    measure (text ++ rest) = (.name, text.length) :=
  measure_of_nameLength (nameLength_append isName broken)

/-- A variable is measured as itself. -/
theorem measure_variable {text rest : Text} (wellFormed : isIdentifier text = true)
    (broken : IsBroken rest) :
    measure ('$' :: text ++ rest) = (.variable, ('$' :: text).length) := by
  have width : variableLength ('$' :: (text ++ rest)) = some (text.length + 1) := by
    rw [variableLength, identifierLength_append wellFormed (isWordChar_of_isBroken broken)]
    rfl
  rw [List.cons_append, measure_quiet _ (by decide)]
  simp only [rules, List.drop, List.findSome?, width, Option.map_some, Option.getD_some,
    List.length_cons]

/-- A digit of the basic Latin alphabet is no letter. -/
theorem Digits.letterless (digits : Digits) : Text.isNameStart digits.first = false := by
  have digit : 48 ≤ digits.first.toNat ∧ digits.first.toNat ≤ 57 := by
    have bounds := digits.digit
    simp only [Bool.and_eq_true, decide_eq_true_eq] at bounds
    exact bounds
  rw [← Bool.not_eq_true, isNameStart_iff]
  omega

/-- The first digit of a number is an identifier character. -/
theorem Digits.isIdentifierChar_first (digits : Digits) :
    isIdentifierChar digits.first = true := by
  simp [isIdentifierChar, digits.digit]

/-- The characters of digits and of letters and points behind them are visible. -/
theorem Digits.visible (digits : Digits) : ∀ c ∈ digits.text, Text.isBlank c = false := by
  intro c member
  rcases List.mem_cons.mp member with rfl | inside
  · exact isBlank_of_isIdentifierChar digits.isIdentifierChar_first
  · rcases Bool.or_eq_true _ _ ▸ List.all_eq_true.mp digits.plain c inside with word | point
    · exact isBlank_of_isIdentifierChar word
    · rw [eq_of_beq point]
      decide

/-- Digits end where neither a word character nor a point follows. -/
theorem numberLength_append (digits : Digits) {rest : Text}
    (ended : ∀ c more, rest = c :: more → Text.isWordChar c = false ∧ c ≠ '.') :
    numberLength (digits.first :: (digits.rest ++ rest)) = some (digits.rest.length + 1) := by
  have plain := List.all_eq_true.mp digits.plain
  have inside : ∀ c ∈ digits.rest, (Text.isWordChar c || c == '.') = true := by
    intro c member
    rcases Bool.or_eq_true _ _ ▸ plain c member with word | point
    · simp [isWordChar_of_isIdentifierChar word]
    · simp [point]
  have outside : ∀ c more, rest = c :: more → (Text.isWordChar c || c == '.') = false := by
    intro c more front
    obtain ⟨wordless, pointless⟩ := ended c more front
    simp [wordless, pointless]
  have digit : Text.isDigit digits.first = true := by
    have bounds := isWordChar_of_isIdentifierChar digits.isIdentifierChar_first
    have ascii : digits.first.toNat < 128 := by
      have letterless := digits.letterless
      have inside := digits.isIdentifierChar_first
      rw [isIdentifierChar_iff, letterless] at inside
      simp only [Bool.false_eq_true, false_or] at inside
      omega
    simp only [Text.isDigit, ascii, if_true, digits.digit]
  rw [numberLength, if_pos digit, runLength_append inside outside, Nat.add_comm]

/-- Digits are measured as themselves where neither a word character nor a point
follows. -/
theorem measure_digits (digits : Digits) {rest : Text}
    (ended : ∀ c more, rest = c :: more → Text.isWordChar c = false ∧ c ≠ '.') :
    measure (digits.text ++ rest) = (.number, digits.text.length) := by
  have width := numberLength_append digits ended
  have quiet := isQuiet_of_isIdentifierChar digits.isIdentifierChar_first
  have notVariable := variableLength_eq_none (digits.rest ++ rest) quiet.2
  have unrooted : digits.first ≠ '\\' := by
    intro same
    have digit := digits.digit
    rw [same] at digit
    exact absurd digit (by decide)
  have notName := nameLength_eq_none (digits.rest ++ rest) unrooted digits.letterless
  rw [Digits.text, List.cons_append, measure_quiet _ quiet.1]
  simp only [rules, List.drop, List.findSome?, notVariable, notName, width, Option.map_none,
    Option.map_some, Option.getD_some, List.length_cons]

/-- A sign is measured as itself where no operator starts with it and the character that
follows. -/
theorem measure_sign {c d : Char} (more : Text) (listed : c ∈ ['-', '+', '.'])
    (followed : d ≠ '>' ∧ (c = '.' → d ≠ '.')) : measure (c :: d :: more) = (.other, 1) := by
  simp only [List.mem_cons, List.not_mem_nil, or_false] at listed
  have punctuation : punctuationLength (c :: d :: more) = none := by
    have angle := Ne.symm followed.1
    rcases listed with rfl | rfl | rfl
    · simp [punctuationLength, listedLength, punctuationMarks, List.isPrefixOf, angle]
    · simp [punctuationLength, listedLength, punctuationMarks, List.isPrefixOf]
    · have point := Ne.symm (followed.2 rfl)
      simp [punctuationLength, listedLength, punctuationMarks, List.isPrefixOf, point]
  have quiet : isQuiet c = true ∧ c ≠ '$' ∧ c ≠ '\\' ∧ Text.isNameStart c = false := by
    rcases listed with rfl | rfl | rfl <;> decide
  have notVariable := variableLength_eq_none (d :: more) quiet.2.1
  have notName := nameLength_eq_none (d :: more) quiet.2.2.1 quiet.2.2.2
  have others : numberLength (c :: d :: more) = none ∧ attributeLength (c :: d :: more) = none ∧
      spaceLength (c :: d :: more) = none := by
    rcases listed with rfl | rfl | rfl <;> exact ⟨rfl, rfl, rfl⟩
  rw [measure_quiet _ quiet.1]
  simp only [rules, List.drop, List.findSome?, notVariable, notName, others.1, others.2.1,
    others.2.2, punctuation, Option.map_none, Option.getD_none]

/-- The characters of a string up to its closing quote. -/
theorem stringRestLength_append {quote : Char} (isQuote : quote = '\x27' ∨ quote = '"')
    (pieces : List (Piece quote)) (rest : Text) :
    stringRestLength quote (pieces.flatMap Piece.text ++ quote :: rest) =
      some ((pieces.flatMap Piece.text).length + 1) := by
  induction pieces with
  | nil => cases rest <;> simp [stringRestLength]
  | cons piece others inductionHypothesis =>
    cases piece with
    | plain c free =>
      obtain ⟨d, more, front⟩ : ∃ d more,
          others.flatMap Piece.text ++ quote :: rest = d :: more := by
        cases others.flatMap Piece.text <;> simp
      simp only [List.flatMap_cons, Piece.text, List.cons_append, List.nil_append, front]
      rw [stringRestLength, ← front, inductionHypothesis, if_neg free.1, if_neg free.2]
      simp
    | escaped c =>
      have unlike : '\\' ≠ quote := by rcases isQuote with rfl | rfl <;> decide
      simp only [List.flatMap_cons, Piece.text, List.cons_append, List.nil_append]
      rw [stringRestLength, inductionHypothesis, if_neg unlike, if_pos rfl]
      simp

/-- A string ends with its closing quote. -/
theorem stringLength_append (quotation : Quotation) (rest : Text) :
    stringLength (quotation.text ++ rest) = some quotation.text.length := by
  obtain ⟨quote, isQuote, pieces⟩ := quotation
  have closed := stringRestLength_append isQuote pieces rest
  have regrouped : Quotation.text ⟨quote, isQuote, pieces⟩ ++ rest =
      quote :: (pieces.flatMap Piece.text ++ quote :: rest) := by
    simp [Quotation.text]
  have width : (Quotation.text ⟨quote, isQuote, pieces⟩).length =
      (pieces.flatMap Piece.text).length + 1 + 1 := by
    simp [Quotation.text]
  rw [regrouped, width]
  rcases isQuote with rfl | rfl <;> rw [stringLength, closed, Option.map_some]

/-- A string is measured as itself. -/
theorem measure_quotation (quotation : Quotation) (rest : Text) :
    measure (quotation.text ++ rest) = (.string, quotation.text.length) := by
  have width := stringLength_append quotation rest
  obtain ⟨more, front⟩ : ∃ more, quotation.text ++ rest = quotation.quote :: more := ⟨_, rfl⟩
  have quoted : quotation.quote ≠ '/' ∧ quotation.quote ≠ '#' ∧ quotation.quote ≠ '<' := by
    rcases quotation.isQuote with same | same <;> rw [same] <;> decide
  rw [front] at width ⊢
  simp only [measure, rules, List.findSome?, docLength_eq_none more quoted.1,
    commentLength_eq_none more quoted.1 quoted.2.1, heredocLength_eq_none more quoted.2.2, width,
    Option.map_none, Option.map_some, Option.getD_some]

/-- A text of visible characters has none of white space at its ends. -/
theorem visible_ends {text : Text} (nonempty : text ≠ [])
    (visible : ∀ c ∈ text, Text.isBlank c = false) :
    (∃ c more, text = c :: more ∧ Text.isBlank c = false) ∧
      ∃ c more, text = more ++ [c] ∧ Text.isBlank c = false := by
  constructor
  · obtain ⟨c, more, rfl⟩ := List.exists_cons_of_ne_nil nonempty
    exact ⟨c, more, rfl, visible c List.mem_cons_self⟩
  · obtain ⟨more, c, back⟩ := (List.eq_nil_or_concat text).resolve_left nonempty
    rw [List.concat_eq_append] at back
    exact ⟨c, more, back, visible c (by simp [back])⟩

/-- A word is set apart by blanks. -/
theorem word_isApart {text : Text} (isName : IsName text) : (word text).IsApart := by
  have ends := visible_ends isName.ne_nil isName.visible
  exact Chunk.isApart_single (fun _ broken => measure_name isName broken) rfl ends.1 ends.2

/-- A variable is set apart by blanks. -/
theorem Identifier.variable_isApart (name : Identifier) : name.variable.IsApart := by
  have visible : ∀ c ∈ '$' :: name.text, Text.isBlank c = false := by
    intro c member
    rcases List.mem_cons.mp member with rfl | inside
    · decide
    · exact isBlank_of_isIdentifierChar (forall_mem_of_isIdentifier name.wellFormed c inside)
  have ends := visible_ends (List.cons_ne_nil _ _) visible
  exact Chunk.isApart_single (fun _ broken => measure_variable name.wellFormed broken) rfl
    ends.1 ends.2

/-- The operators and brackets of printed files. -/
def marks : List String :=
  ["?", "|", "[", "]", ",", "&", "...", "=", "(", ")", ":", ";", "\x7b", "\x7d"]

/-- An operator or a bracket is set apart by blanks. -/
theorem mark_isApart {text : String} (listed : text ∈ marks) : (mark text).IsApart := by
  have visible : ∀ other ∈ marks, other.toList ≠ [] ∧
      other.toList.all (!Text.isBlank ·) = true := by decide
  have unblank : ∀ c ∈ text.toList, Text.isBlank c = false := by
    simpa using (visible text listed).2
  have ends := visible_ends (visible text listed).1 unblank
  refine Chunk.isApart_single ?_ rfl ends.1 ends.2
  intro rest broken
  simp only [marks, List.mem_cons, List.not_mem_nil, or_false] at listed
  rcases broken with rfl | ⟨more, rfl⟩ <;>
    rcases listed with rfl | rfl | rfl | rfl | rfl | rfl | rfl | rfl | rfl | rfl | rfl | rfl |
      rfl | rfl <;>
    rfl

/-- A sign is cut off in front of digits, and a minus sign in front of a point. -/
theorem lexemes_sign {c : Char} (listed : c ∈ ['-', '+', '.']) {text : Text}
    (followed : ∃ d more, text = d :: more ∧ d ≠ '>' ∧ (c = '.' → d ≠ '.')) :
    lexemes (c :: text) = sign c :: lexemes text := by
  obtain ⟨d, more, rfl, unlike⟩ := followed
  exact lexemes_of_measure (List.cons_ne_nil c []) (measure_sign more listed unlike)

/-- Digits are cut off where neither a word character nor a point follows. -/
theorem Digits.lexemes_append (digits : Digits) {rest : Text}
    (ended : ∀ c more, rest = c :: more → Text.isWordChar c = false ∧ c ≠ '.') :
    lexemes (digits.text ++ rest) = digits.lexeme :: lexemes rest :=
  lexemes_of_measure (List.cons_ne_nil _ _) (measure_digits digits ended)

/-- Digits follow a sign or a point. -/
theorem Digits.follows (digits : Digits) (c : Char) (rest : Text) :
    ∃ d more, digits.text ++ rest = d :: more ∧ d ≠ '>' ∧ (c = '.' → d ≠ '.') := by
  refine ⟨digits.first, digits.rest ++ rest, rfl, ?_, fun _ => ?_⟩
  · intro same
    have digit := digits.digit
    rw [same] at digit
    exact absurd digit (by decide)
  · intro same
    have digit := digits.digit
    rw [same] at digit
    exact absurd digit (by decide)

/-- Neither a word character nor a point stands at the end of a chunk. -/
theorem ended_of_isBroken {rest : Text} (broken : IsBroken rest) :
    ∀ c more, rest = c :: more → Text.isWordChar c = false ∧ c ≠ '.' := by
  intro c more front
  rcases broken with rfl | ⟨others, rfl⟩
  · cases front
  · cases front
    decide

/-- The lexemes of a number are signs and digits. -/
theorem Number.forall_mem (number : Number) {property : Lexeme → Prop}
    (signed : ∀ c ∈ ['-', '+', '.'], property (sign c))
    (counted : ∀ digits : Digits, property digits.lexeme) :
    ∀ lexeme ∈ number.parts, property lexeme := by
  have minus : property (sign '-') := signed '-' (by decide)
  have plus : property (sign '+') := signed '+' (by decide)
  have point : property (sign '.') := signed '.' (by decide)
  rw [Number.parts, Number.signs, Number.power, List.forall_mem_append, List.forall_mem_append,
    List.forall_mem_cons]
  refine ⟨⟨?_, ?_⟩, counted number.digits, ?_⟩
  · cases number.isNegative <;> simp [minus]
  · cases number.startsWithPoint <;> simp [point]
  · rcases number.exponent with _ | ⟨isNegative, power⟩
    · simp
    · cases isNegative <;> simp [minus, plus, counted power]

/-- The characters of a number are visible. -/
theorem Number.visible (number : Number) : ∀ c ∈ number.chunk.text, Text.isBlank c = false := by
  intro c member
  obtain ⟨lexeme, listed, inside⟩ := List.mem_flatMap.mp member
  have visible : ∀ lexeme ∈ number.parts, ∀ c ∈ lexeme.text, Text.isBlank c = false := by
    refine number.forall_mem ?_ Digits.visible
    have signs : ∀ c ∈ ['-', '+', '.'], Text.isBlank c = false := Text.forall_mem (by decide)
    intro c listed d member
    rw [List.mem_singleton.mp member]
    exact signs c listed
  exact visible lexeme listed c inside

/-- The exponent of a number is cut off where a blank or the end of the text follows, and
the digits before it end there. -/
theorem Number.power_cut (number : Number) {rest : Text} (broken : IsBroken rest) :
    lexemes (number.power.flatMap Lexeme.text ++ rest) = number.power ++ lexemes rest ∧
      ∀ c more, number.power.flatMap Lexeme.text ++ rest = c :: more →
        Text.isWordChar c = false ∧ c ≠ '.' := by
  rw [Number.power]
  rcases number.exponent with _ | ⟨isNegative, power⟩
  · exact ⟨rfl, ended_of_isBroken broken⟩
  · have written : [sign (if isNegative then '-' else '+'), power.lexeme].flatMap Lexeme.text ++
        rest = (if isNegative then '-' else '+') :: (power.text ++ rest) := by
      simp [sign, Digits.lexeme]
    have listed : (if isNegative then '-' else '+') ∈ ['-', '+', '.'] := by
      cases isNegative <;> decide
    have unlike : Text.isWordChar (if isNegative then '-' else '+') = false ∧
        (if isNegative then '-' else '+') ≠ '.' := by
      cases isNegative <;> decide
    simp only [written]
    refine ⟨?_, ?_⟩
    · rw [lexemes_sign listed (power.follows _ rest),
        power.lexemes_append (ended_of_isBroken broken)]
      rfl
    · intro c more front
      rw [← (List.cons.inj front).1]
      exact unlike

/-- The signs of a number are cut off in front of its digits. -/
theorem Number.signs_cut (number : Number) (rest : Text) :
    lexemes (number.signs.flatMap Lexeme.text ++ (number.digits.text ++ rest)) =
      number.signs ++ lexemes (number.digits.text ++ rest) := by
  have minus : '-' ∈ ['-', '+', '.'] := by decide
  have point : '.' ∈ ['-', '+', '.'] := by decide
  have follows := number.digits.follows '.' rest
  have pointed := lexemes_sign point follows
  rw [Number.signs]
  cases number.isNegative <;> cases number.startsWithPoint
  · rfl
  · exact pointed
  · exact lexemes_sign minus (number.digits.follows '-' rest)
  · have first := lexemes_sign minus
      ⟨'.', number.digits.text ++ rest, rfl, by decide, fun same => absurd same (by decide)⟩
    exact first.trans (congrArg (sign '-' :: ·) pointed)

/-- A number is set apart by blanks. -/
theorem Number.isApart (number : Number) : number.chunk.IsApart := by
  have split : number.chunk.text = number.signs.flatMap Lexeme.text ++
      (number.digits.text ++ number.power.flatMap Lexeme.text) := by
    simp [Number.chunk, Chunk.text, Number.parts, Digits.lexeme]
  have nonempty : number.chunk.text ≠ [] := by
    rw [split]
    simp [Digits.text]
  have ends := visible_ends nonempty number.visible
  refine ⟨?cut, ?significant, ends.1, ends.2⟩
  case cut =>
    intro rest broken
    have power := number.power_cut broken
    rw [split, List.append_assoc, List.append_assoc, number.signs_cut,
      number.digits.lexemes_append power.2, power.1, Number.chunk, Number.parts]
    simp
  case significant =>
    exact number.forall_mem (fun _ _ => rfl) fun _ => rfl

/-- A string is set apart by blanks. -/
theorem Quotation.isApart (quotation : Quotation) : quotation.chunk.IsApart := by
  have visible : Text.isBlank quotation.quote = false := by
    rcases quotation.isQuote with same | same <;> rw [same] <;> decide
  exact Chunk.isApart_single (fun rest _ => measure_quotation quotation rest) rfl
    ⟨_, _, rfl, visible⟩
    ⟨_, quotation.quote :: quotation.pieces.flatMap Piece.text, rfl, visible⟩

/-- Lower-casing keeps the characters of the basic Latin alphabet that are no
capitals. -/
theorem mem_lowerFrom {c : Char} {text : Text} (ascii : c.toNat < 128)
    (small : ('A' ≤ c && c ≤ 'Z') = false) (member : c ∈ text) (earlier : Text) :
    c ∈ Text.lowerFrom earlier text := by
  induction text generalizing earlier with
  | nil => cases member
  | cons d rest inductionHypothesis =>
    rw [Text.lowerFrom, List.mem_append]
    rcases List.mem_cons.mp member with rfl | later
    · exact .inl (by simp [Text.lowerChar, ascii, small])
    · exact .inr (inductionHypothesis later (d :: earlier))

/-- A class name is no keyword: a single segment is not, and no keyword has a
separator. -/
theorem Path.free (path : Path) : Text.lower path.text ∉ keywords := by
  have plain : ∀ text ∈ keywords, ClassName.separator ∉ text := by decide
  intro listed
  have unseparated : ClassName.separator ∉ path.text := fun member =>
    plain _ listed (mem_lowerFrom (by decide) (by decide) member [])
  have single : path.text = path.segments.first.text := by
    cases absolute : path.isAbsolute with
    | true => simp [Path.text, absolute] at unseparated
    | false =>
      cases others : path.segments.others with
      | nil => simp [Path.text, Segments.text, absolute, others]
      | cons name more => simp [Path.text, Segments.text, absolute, others] at unseparated
  rw [single] at listed
  exact path.segments.first.free listed

/-- Keywords are in lower case. -/
theorem lower_keyword {text : Text} (listed : text ∈ keywords) : Text.lower text = text := by
  have fixed : ∀ other ∈ keywords, Text.lower other = other := by decide
  exact fixed text listed

end Printed
end Docblock.Source
