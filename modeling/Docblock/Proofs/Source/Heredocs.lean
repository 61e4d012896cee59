import Docblock.Proofs.Links.Lines
import Docblock.Proofs.Source.Names
import Docblock.Source.Reader

/-!
# Where heredocs end

A heredoc opens with three angles and a label, which stands alone on the rest of the line
and may be quoted. A line closes it that has only blanks before the label, if no word
character goes on behind the label there.

The line break that ends the opening line is taken with it, and the closing line is looked
for behind the next one. So the line right behind the opening line is passed over: no line
behind that one closes the heredoc before its end, and the heredoc ends with the first
closing line of all unless the line passed over is one, as it is where the heredoc is
empty. The text up to a later closing line is then taken with it.
-/

namespace Docblock.Source

/-- A label: a Latin letter or an underscore, then word characters. -/
def IsLabel (label : Text) : Prop :=
  ∃ c rest, label = c :: rest ∧ Text.isNameStart c = true ∧ ∀ d ∈ rest, Text.isWordChar d = true

/-- No word goes on at the front of a text. -/
def StopsWord (rest : Text) : Prop := rest.head?.any Text.isWordChar = false

instance (rest : Text) : Decidable (StopsWord rest) :=
  inferInstanceAs (Decidable (_ = false))

/-- The quotes that may stand on both sides of a label. -/
def labelQuotes : List Text := [[], ['\x27'], ['"']]

/-- A line opens a heredoc with a label: three angles, blanks, and the label, which may be
quoted. A carriage return may stand behind. -/
def OpensHeredoc (label line : Text) : Prop :=
  ∃ blanks quote carriage,
    line = ['<', '<', '<'] ++ (blanks ++ (quote ++ (label ++ (quote ++ carriage)))) ∧
    IsLabel label ∧ (∀ c ∈ blanks, isIndent c = true) ∧ quote ∈ labelQuotes ∧
    carriage ∈ [[], ['\r']]

/-- A text closes a heredoc with a label: only blanks stand before the label, and it is a
word of its own. -/
def ClosesHeredoc (label text : Text) : Prop :=
  ∃ blanks rest, text = blanks ++ (label ++ rest) ∧ (∀ c ∈ blanks, isIndent c = true) ∧
    StopsWord rest

/-- A piece is a heredoc: a line that opens it, the lines of its body, and the label with
blanks before it, behind which no word goes on in the source. -/
structure IsHeredoc (source : Text) (piece : Token) (label opening : Text) (body : List Text)
    (indent : Text) : Prop where
  opens : OpensHeredoc label opening
  lines : Text.splitOn '\n' piece.text = opening :: (body ++ [indent ++ label])
  blank : ∀ c ∈ indent, isIndent c = true
  whole : StopsWord (source.drop piece.stop)

/-- A piece is a heredoc that ends with the first line that closes it. -/
def EndsAtFirstClosing (source : Text) (piece : Token) : Prop :=
  ∃ label opening body indent, IsHeredoc source piece label opening body indent ∧
    ∀ line ∈ body, ¬ClosesHeredoc label line

section Labels

/-- An identifier is a label. -/
theorem isLabel_of_identifierLength {text : Text} {width : Nat}
    (measured : identifierLength text = some width) : IsLabel (text.take width) := by
  cases text with
  | nil => cases measured
  | cons c rest =>
    rw [identifierLength] at measured
    split at measured
    · rename_i start
      cases measured
      rw [Nat.add_comm, List.take_succ_cons, take_runLength]
      exact ⟨c, _, rfl, start, fun d inside => List.mem_takeWhile_imp inside⟩
    · cases measured

/-- A label has word characters only. -/
theorem IsLabel.isWordChar {label : Text} (isLabel : IsLabel label) :
    ∀ c ∈ label, Text.isWordChar c = true := by
  obtain ⟨first, rest, rfl, start, words⟩ := isLabel
  intro c member
  cases member with
  | head => exact isWordChar_of_isNameStart start
  | tail _ later => exact words c later

/-- No line feed stands in a label with blanks before it. -/
theorem IsLabel.unbroken {label indent : Text} (isLabel : IsLabel label)
    (blank : ∀ c ∈ indent, isIndent c = true) : '\n' ∉ indent ++ label := by
  intro member
  cases List.mem_append.mp member with
  | inl before => exact absurd (blank _ before) (by decide)
  | inr inside => exact absurd (isLabel.isWordChar _ inside) (by decide)

/-- Blanks and quotes: what may stand between the angles and the label. -/
def isMargin (c : Char) : Bool := isIndent c || c == '\x27' || c == '"'

/-- No label starts with a blank or a quote. -/
theorem isMargin_of_isNameStart {c : Char} (start : Text.isNameStart c = true) :
    isMargin c = false := by
  by_contra margin
  rw [Bool.not_eq_false] at margin
  simp only [isMargin, isIndent, Bool.or_eq_true, beq_iff_eq] at margin
  rcases margin with ((rfl | rfl) | rfl) | rfl <;> exact absurd start (by decide)

/-- The label of a line that opens a heredoc. -/
def openedLabel (line : Text) : Text :=
  ((line.drop 3).dropWhile isMargin).takeWhile Text.isWordChar

/-- A line that opens a heredoc names a label. -/
theorem OpensHeredoc.isLabel {label line : Text} (opens : OpensHeredoc label line) :
    IsLabel label := by
  obtain ⟨blanks, quote, carriage, split, isLabel, rest⟩ := opens
  exact isLabel

/-- A line opens heredocs with one label only: the word behind the angles, blanks and the
quote. -/
theorem OpensHeredoc.label_eq {label line : Text} (opens : OpensHeredoc label line) :
    label = openedLabel line := by
  obtain ⟨blanks, quote, carriage, rfl, isLabel, blank, quoted, returned⟩ := opens
  have words := isLabel.isWordChar
  obtain ⟨first, rest, rfl, start, -⟩ := isLabel
  have marks : ∀ quote ∈ labelQuotes, quote.all isMargin = true := by decide
  have skipped : ∀ c ∈ blanks ++ quote, isMargin c = true := by
    intro c member
    cases List.mem_append.mp member with
    | inl before => simp [isMargin, blank c before]
    | inr inside => exact List.all_eq_true.mp (marks quote quoted) c inside
  have wordless : ∀ quote ∈ labelQuotes, ∀ carriage ∈ [[], ['\r']],
      (quote ++ carriage).takeWhile Text.isWordChar = [] := by decide
  calc first :: rest
      = (first :: rest ++ (quote ++ carriage)).takeWhile Text.isWordChar := by
        rw [List.takeWhile_append_of_pos words, wordless quote quoted carriage returned,
          List.append_nil]
    _ = ((blanks ++ quote ++ (first :: rest ++ (quote ++ carriage))).dropWhile
          isMargin).takeWhile Text.isWordChar := by
        rw [List.dropWhile_append_of_pos skipped, List.cons_append,
          List.dropWhile_cons_of_neg (by simp [isMargin_of_isNameStart start])]
    _ = openedLabel _ := by
        rw [List.append_assoc]
        rfl

/-- A label that is found at the front of a text, behind blanks, closes a heredoc there. -/
theorem labelLineLength_eq_some {label text : Text} {length : Nat}
    (measured : labelLineLength label text = some length) :
    ∃ blanks rest, text = blanks ++ (label ++ rest) ∧ (∀ c ∈ blanks, isIndent c = true) ∧
      StopsWord rest ∧ length = (blanks ++ label).length := by
  simp only [labelLineLength] at measured
  split at measured
  · rename_i stands
    obtain ⟨front, whole⟩ := (Bool.and_eq_true _ _).mp stands
    obtain ⟨rest, behind⟩ := List.isPrefixOf_iff_prefix.mp front
    cases measured
    rw [← behind, List.drop_left, Bool.not_eq_true'] at whole
    have split : text = text.takeWhile isIndent ++ (label ++ rest) := by
      rw [behind, ← take_runLength, List.take_append_drop]
    refine ⟨_, rest, split, fun c inside => List.mem_takeWhile_imp inside, whole, ?_⟩
    rw [List.length_append, runLength]
  · cases measured

/-- What closes a heredoc is measured. -/
theorem ClosesHeredoc.isSome_labelLineLength {label text : Text} (isLabel : IsLabel label)
    (closes : ClosesHeredoc label text) : (labelLineLength label text).isSome = true := by
  obtain ⟨blanks, rest, rfl, blank, whole⟩ := closes
  have width : runLength isIndent (blanks ++ (label ++ rest)) = blanks.length := by
    refine runLength_append blank ?_
    obtain ⟨first, others, rfl, start, -⟩ := isLabel
    intro c more front
    cases front
    have marginless := isMargin_of_isNameStart start
    simp only [isMargin, Bool.or_eq_false_iff] at marginless
    exact marginless.1.1
  have front : label.isPrefixOf (label ++ rest) = true :=
    List.isPrefixOf_iff_prefix.mpr (List.prefix_append _ _)
  simp only [labelLineLength, width, List.drop_left, front, Bool.true_and]
  rw [if_pos (by rw [whole]; rfl)]
  rfl

/-- A line that closes a heredoc closes it whatever lines follow. -/
theorem ClosesHeredoc.append {label line : Text} (closes : ClosesHeredoc label line)
    (more : Text) : ClosesHeredoc label (line ++ '\n' :: more) := by
  obtain ⟨blanks, rest, rfl, blank, whole⟩ := closes
  refine ⟨blanks, rest ++ '\n' :: more, by simp, blank, ?_⟩
  cases rest with
  | nil => rw [List.nil_append, StopsWord, List.head?_cons]; decide
  | cons c others => exact whole

/-- What closes a heredoc is what is measured as its closing line. -/
theorem closesHeredoc_iff {label text : Text} (isLabel : IsLabel label) :
    ClosesHeredoc label text ↔ (labelLineLength label text).isSome = true := by
  constructor
  · exact fun closes => closes.isSome_labelLineLength isLabel
  · intro measured
    obtain ⟨length, found⟩ := Option.isSome_iff_exists.mp measured
    obtain ⟨blanks, rest, split, blank, whole, -⟩ := labelLineLength_eq_some found
    exact ⟨blanks, rest, split, blank, whole⟩

end Labels

section Bodies

/-- What stands before the first separator and what stands behind it. -/
theorem eq_append_of_splitOn {separator : Char} {text first second : Text} {more : List Text}
    (split : Text.splitOn separator text = first :: second :: more) :
    ∃ rest, text = first ++ separator :: rest := by
  induction text generalizing first with
  | nil => cases split
  | cons c rest inductionHypothesis =>
    rw [Text.splitOn] at split
    split at split
    · rename_i same
      exact ⟨rest, by rw [← (List.cons.inj split).1, same, List.nil_append]⟩
    · split at split
      · cases split
      · rename_i piece pieces onward
        cases split
        obtain ⟨others, found⟩ := inductionHypothesis onward
        exact ⟨others, by rw [found, List.cons_append]⟩

/-- The body that is measured behind an opening line: its first line is passed over, no
other one closes the heredoc, and it ends with a label that does. -/
theorem heredocBodyLength_eq_some {label text : Text} {length : Nat} (isLabel : IsLabel label)
    (measured : heredocBodyLength label text = some length) :
    ∃ first body indent, Text.splitOn '\n' (text.take length) =
        first :: (body ++ [indent ++ label]) ∧
      (∀ c ∈ indent, isIndent c = true) ∧ StopsWord (text.drop length) ∧
      ∀ line ∈ body, ¬ClosesHeredoc label line := by
  induction text generalizing length with
  | nil => cases measured
  | cons c rest inductionHypothesis =>
    rw [heredocBodyLength] at measured
    split at measured
    · rename_i width closed
      split at closed
      · rename_i feed
        cases measured
        obtain ⟨indent, behind, rfl, blank, whole, rfl⟩ := labelLineLength_eq_some closed
        have unbroken := isLabel.unbroken blank
        refine ⟨[], [], indent, ?_, blank, ?_, by simp⟩
        · rw [Nat.add_comm, List.take_succ_cons, ← List.append_assoc, List.take_left,
            Text.splitOn, if_pos feed, Text.splitOn_of_notMem unbroken]
          rfl
        · rwa [Nat.add_comm, List.drop_succ_cons, ← List.append_assoc, List.drop_left]
      · cases closed
    · rename_i open_
      obtain ⟨further, later, rfl⟩ := Option.map_eq_some_iff.mp measured
      obtain ⟨first, body, indent, lines, blank, whole, quiet⟩ := inductionHypothesis later
      rw [List.take_succ_cons, List.drop_succ_cons, Text.splitOn, lines]
      by_cases feed : c = '\n'
      · rw [if_pos feed] at open_ ⊢
        refine ⟨[], first :: body, indent, rfl, blank, whole, ?_⟩
        intro line member
        cases member with
        | head =>
          intro closes
          obtain ⟨more, front⟩ : ∃ more, rest.take further = first ++ '\n' :: more := by
            cases body with
            | nil => exact eq_append_of_splitOn lines
            | cons second others => exact eq_append_of_splitOn lines
          have found := (closes.append (more ++ rest.drop further)).isSome_labelLineLength isLabel
          rw [← List.cons_append, ← List.append_assoc, ← front, List.take_append_drop,
            open_] at found
          cases found
        | tail _ later => exact quiet line later
      · rw [if_neg feed]
        exact ⟨c :: first, body, indent, rfl, blank, whole, quiet⟩

/-- What stands at the front of a text is a line break if one is measured there. -/
theorem newlineLength_eq_some {text : Text} {length : Nat}
    (measured : newlineLength text = some length) :
    ∃ carriage rest, text = carriage ++ '\n' :: rest ∧ length = carriage.length + 1 ∧
      carriage ∈ [[], ['\r']] := by
  unfold newlineLength at measured
  split at measured
  · cases measured
    exact ⟨[], _, rfl, rfl, by decide⟩
  · cases measured
    exact ⟨['\r'], _, rfl, rfl, by decide⟩
  · cases measured

/-- The blanks at the front of a text. -/
theorem exists_indent (text : Text) : ∃ blanks rest, text = blanks ++ rest ∧
    (∀ c ∈ blanks, isIndent c = true) ∧ runLength isIndent text = blanks.length :=
  ⟨_, _, (List.takeWhile_append_dropWhile).symm, fun _ inside => List.mem_takeWhile_imp inside,
    rfl⟩

/-- The quote at the front of a text, if one is there. -/
theorem exists_quote (text : Text) : ∃ quote rest, text = quote ++ rest ∧ quote ∈ labelQuotes ∧
    (text.take 1).filter (fun c => c == '\x27' || c == '"') = quote := by
  cases text with
  | nil => exact ⟨[], [], rfl, by decide, rfl⟩
  | cons c rest =>
    by_cases quoted : c = '\x27' ∨ c = '"'
    · refine ⟨[c], rest, rfl, ?_, by simp [quoted]⟩
      rcases quoted with rfl | rfl <;> decide
    · exact ⟨[], c :: rest, rfl, by decide, by simpa using quoted⟩

/-- A text that is asked for stands at the front. -/
theorem exists_of_guard {front text : Text} {answer : Unit}
    (asked : (guard (front.isPrefixOf text = true) : Option Unit) = some answer) :
    ∃ rest, text = front ++ rest := by
  by_cases stands : front.isPrefixOf text = true
  · obtain ⟨rest, split⟩ := List.isPrefixOf_iff_prefix.mp stands
    exact ⟨rest, split.symm⟩
  · rw [guard, if_neg stands] at asked
    cases asked

/-- A heredoc is an opening line, and the body that is measured behind it. -/
theorem heredocLength_eq_some {text : Text} {length : Nat}
    (measured : heredocLength text = some length) :
    ∃ label opening rest body, OpensHeredoc label opening ∧ text = opening ++ '\n' :: rest ∧
      heredocBodyLength label rest = some body ∧ length = opening.length + (1 + body) := by
  obtain ⟨⟨⟩, angles, opened⟩ := Option.bind_eq_some_iff.mp measured
  obtain ⟨behind, rfl⟩ := exists_of_guard angles
  obtain ⟨blanks, quoted, rfl, blank, indent⟩ := exists_indent behind
  obtain ⟨quote, labelled, rfl, listed, mark⟩ := exists_quote quoted
  have front (rest : Text) : (['<', '<', '<'] ++ rest).drop 3 = rest := rfl
  have skipped (rest : Text) :
      (['<', '<', '<'] ++ (blanks ++ rest)).drop (3 + blanks.length) = rest := by
    rw [← List.drop_drop, front, List.drop_left]
  obtain ⟨width, named, closed⟩ := Option.bind_eq_some_iff.mp opened
  obtain ⟨⟨⟩, unquoted, ended⟩ := Option.bind_eq_some_iff.mp closed
  obtain ⟨more, quoteless⟩ := exists_of_guard unquoted
  obtain ⟨newline, feed, bodied⟩ := Option.bind_eq_some_iff.mp ended
  obtain ⟨body, found, total⟩ := Option.bind_eq_some_iff.mp bodied
  simp only [front, indent, skipped, mark, List.drop_left] at named quoteless feed found total
  rw [quoteless, List.drop_left] at feed
  obtain ⟨carriage, rest, rfl, rfl, returned⟩ := newlineLength_eq_some feed
  have label := List.take_append_drop width labelled
  rw [quoteless] at label
  have reached := (identifierLength_measures _ _ named).2
  rw [quoteless, ← List.drop_drop, List.drop_left, ← List.drop_drop, List.drop_left] at found
  refine ⟨labelled.take width, _, rest, body,
    ⟨blanks, quote, carriage, rfl, isLabel_of_identifierLength named, blank, listed, returned⟩,
    ?_, found, ?_⟩
  · conv_lhs => rw [← label]
    simp
  · cases total
    simp only [List.length_append, List.length_cons, List.length_nil, List.length_take]
    omega

end Bodies

section Tokens

variable {source : Text} {piece : Token} {label opening : Text} {body : List Text}
variable {indent : Text}

/-- A line that opens a heredoc has no line feed. -/
theorem OpensHeredoc.unbroken (opens : OpensHeredoc label opening) : '\n' ∉ opening := by
  obtain ⟨blanks, quote, carriage, rfl, isLabel, blank, listed, returned⟩ := opens
  have quoteless : ∀ quote ∈ labelQuotes, '\n' ∉ quote := by decide
  have carriageless : ∀ carriage ∈ [[], ['\r']], '\n' ∉ carriage := by decide
  have labelled := isLabel.unbroken blank
  rw [List.mem_append, not_or] at labelled
  simp only [List.mem_append, not_or]
  exact ⟨by decide, labelled.1, quoteless quote listed, labelled.2, quoteless quote listed,
    carriageless carriage returned⟩

/-- A heredoc has one label, one opening line and one body. -/
theorem IsHeredoc.unique {otherLabel otherOpening otherIndent : Text} {otherBody : List Text}
    (isHeredoc : IsHeredoc source piece label opening body indent)
    (other : IsHeredoc source piece otherLabel otherOpening otherBody otherIndent) :
    label = otherLabel ∧ opening = otherOpening ∧ body = otherBody := by
  obtain ⟨rfl, lines⟩ := List.cons.inj (isHeredoc.lines.symm.trans other.lines)
  refine ⟨isHeredoc.opens.label_eq.trans other.opens.label_eq.symm, rfl, ?_⟩
  exact (List.append_inj' lines rfl).1

/-- Whether a heredoc ends with the first line that closes it shows in its body. -/
theorem IsHeredoc.endsAtFirstClosing_iff
    (isHeredoc : IsHeredoc source piece label opening body indent) :
    EndsAtFirstClosing source piece ↔ ∀ line ∈ body, ¬ClosesHeredoc label line := by
  constructor
  · rintro ⟨otherLabel, otherOpening, otherBody, otherIndent, other, quiet⟩
    obtain ⟨rfl, rfl, rfl⟩ := isHeredoc.unique other
    exact quiet
  · exact fun quiet => ⟨label, opening, body, indent, isHeredoc, quiet⟩

/-- A heredoc is measured by its rule. -/
theorem heredocLength_of_measure {text : Text} {length : Nat}
    (measured : measure text = (.heredoc, length)) : heredocLength text = some length :=
  rule_of_measure (by simp [rules]) (by decide) measured

/-- A token that is a heredoc opens with its label and has a line behind that, which is
passed over. Of the lines after that one it ends with the first that closes it: with the
label there, behind blanks and as a word of its own. So it ends with the first closing line
of all exactly if the line passed over is none. -/
theorem heredoc_ends (member : piece ∈ tokens source) (heredoc : piece.kind = .heredoc) :
    ∃ label opening first body indent,
      IsHeredoc source piece label opening (first :: body) indent ∧
      (∀ line ∈ body, ¬ClosesHeredoc label line) ∧
      (EndsAtFirstClosing source piece ↔ ¬ClosesHeredoc label first) := by
  have isCut : piece.IsCut source :=
    (tokens_tile source).2.1 piece (List.mem_filter.mp member).1
  have onward := ((tokens_apart source).1 piece member).1
  have measured := isCut.measured
  rw [heredoc] at measured
  obtain ⟨label, opening, rest, width, opens, front, found, length⟩ :=
    heredocLength_eq_some (heredocLength_of_measure measured)
  obtain ⟨first, body, indent, lines, blank, whole, quiet⟩ :=
    heredocBodyLength_eq_some opens.isLabel found
  have isHeredoc : IsHeredoc source piece label opening (first :: body) indent := by
    constructor
    · exact opens
    · rw [isCut.text, front, length, List.take_length_add_append, Nat.add_comm,
        List.take_succ_cons, Text.splitOn_append_cons, Text.splitOn_of_notMem opens.unbroken,
        lines]
      rfl
    · exact blank
    · have behind : piece.stop = piece.start + (opening.length + (1 + width)) := by omega
      rw [behind, ← List.drop_drop, front, List.drop_length_add_append, Nat.add_comm,
        List.drop_succ_cons]
      exact whole
  refine ⟨label, opening, first, body, indent, isHeredoc, quiet, ?_⟩
  rw [isHeredoc.endsAtFirstClosing_iff, List.forall_mem_cons]
  exact and_iff_left quiet

end Tokens

/-- A heredoc with one line that goes on behind its label. -/
def quotedHeredoc : Text := "<<<\"EOT\"\nEOTX\n  EOT;".toList

/-- The line that goes on behind the label does not close the heredoc, and the one with the
label behind blanks does. -/
theorem quotedHeredoc_ends :
    let piece : Token := ⟨.heredoc, quotedHeredoc.dropLast, 0, 19⟩
    piece ∈ tokens quotedHeredoc ∧ EndsAtFirstClosing quotedHeredoc piece := by
  intro piece
  have member : piece ∈ tokens quotedHeredoc := by decide +kernel
  obtain ⟨label, opening, first, body, indent, isHeredoc, -, exactly⟩ := heredoc_ends member rfl
  have lines : Text.splitOn '\n' piece.text =
      ["<<<\"EOT\"".toList, "EOTX".toList, "  EOT".toList] := by decide
  obtain ⟨rfl, behind⟩ := List.cons.inj (isHeredoc.lines.symm.trans lines)
  obtain ⟨rfl, -⟩ := List.cons.inj behind
  have named : label = "EOT".toList := isHeredoc.opens.label_eq.trans (by decide)
  refine ⟨member, exactly.mpr ?_⟩
  rw [closesHeredoc_iff isHeredoc.opens.isLabel, named]
  decide

/-- A class between two empty heredocs. -/
def classBehindEmptyHeredoc : Text := "<<<A\nA;\nclass B \x7b\x7d\n<<<A\nA;\n".toList

/-- The empty heredoc takes the class with it: the line that closes it stands right behind
the one that opens it, so the heredoc goes on up to the end of the other one, and the reader
finds no declaration. With an empty line in both heredocs it finds the class. -/
theorem emptyHeredoc_swallows :
    let piece : Token := ⟨.heredoc, classBehindEmptyHeredoc.take 25, 0, 25⟩
    piece ∈ tokens classBehindEmptyHeredoc ∧
      ClosesHeredoc ['A'] "A;".toList ∧
      ¬EndsAtFirstClosing classBehindEmptyHeredoc piece ∧
      declarations classBehindEmptyHeredoc = [] ∧
      (declarations "<<<A\n\nA;\nclass B \x7b\x7d\n<<<A\n\nA;\n".toList).map (·.name) =
        [['B']] := by
  intro piece
  have isLabel : IsLabel ['A'] := ⟨'A', [], rfl, by decide, by simp⟩
  have closes : ClosesHeredoc ['A'] "A;".toList := (closesHeredoc_iff isLabel).mpr (by decide)
  have isHeredoc : IsHeredoc classBehindEmptyHeredoc piece ['A'] "<<<A".toList
      ["A;".toList, "class B \x7b\x7d".toList, "<<<A".toList] [] := by
    constructor
    · exact ⟨[], [], [], rfl, isLabel, by simp, by decide, by decide⟩
    · decide
    · simp
    · decide
  refine ⟨by decide +kernel, closes, ?_, by decide +kernel, by decide +kernel⟩
  rw [isHeredoc.endsAtFirstClosing_iff]
  intro quiet
  exact quiet _ List.mem_cons_self closes

end Docblock.Source
