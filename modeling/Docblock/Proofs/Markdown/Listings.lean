import Docblock.Markdown.Example
import Docblock.Proofs.Text.Lines
import Mathlib.Data.List.Infix

/-!
# Listings as example blocks

A listing is a run of code lines that an example can hold: no breaks inside the lines, no white
space at their ends, a visible line first and last, no code tag, and one indentation that no
visible line falls short of and that the first line and one of those behind it have. An example
arrives without the indentation of its first line, because that was trimmed. Its block still
holds all lines at their places with the common indentation taken off, so that they keep their
indentation relative to each other.

Listings in which the first line is indented deeper than all lines behind it are not covered:
there the lines behind it lose another indentation than the first one.
-/

namespace Docblock.Markdown

/-- Whether a line has a character that is not white space. -/
def isVisible (line : Text) : Bool := line.any (!Text.isBlank ·)

/-- Whether a code tag opens in a text, in any letter case. -/
def OpensCodeTag (s : Text) : Prop :=
  ∃ tail, tail <:+ s ∧ Text.startsWithLetters "<code".toList tail = true

instance (s : Text) : Decidable (OpensCodeTag s) :=
  decidable_of_iff (s.tails.any (Text.startsWithLetters "<code".toList) = true)
    (by simp [OpensCodeTag])

/-- Code lines with a common indentation. -/
structure IsListing (cut : Nat) (code : List Text) : Prop where
  unbroken : ∀ line ∈ code, ∀ c ∈ line, Text.isLineBreak c = false
  trimmed : ∀ line ∈ code, ∀ c, line.getLast? = some c → Text.isBlank c = false
  starts : ∃ first, code.head? = some first ∧ isVisible first = true
  ends : ∃ last, code.getLast? = some last ∧ isVisible last = true
  untagged : ∀ line ∈ code, ¬ OpensCodeTag line
  indented : ∀ line ∈ code, isVisible line = true → cut ≤ indentation line
  firstAttains : ∀ first, code.head? = some first → indentation first = cut
  otherAttains : (∃ line ∈ code.tail, isVisible line = true) →
    ∃ line ∈ code.tail, isVisible line = true ∧ indentation line = cut

variable {line : Text}

/-- A visible line has a character that is not white space. -/
theorem isVisible_iff : isVisible line = true ↔ ∃ c ∈ line, Text.isBlank c = false := by
  simp [isVisible]

/-- What is behind its indentation is left when the front of a line is trimmed. -/
theorem drop_indentation (line : Text) : line.drop (indentation line) = Text.trimStart line := by
  have whole : line.takeWhile Text.isBlank ++ line.dropWhile Text.isBlank = line :=
    List.takeWhile_append_dropWhile
  calc line.drop (indentation line)
    _ = (line.takeWhile Text.isBlank ++ line.dropWhile Text.isBlank).drop
          (line.takeWhile Text.isBlank).length := by rw [whole, indentation]
    _ = Text.trimStart line := List.drop_left

/-- The indentation of a visible line is not all of it. -/
theorem indentation_lt (visible : isVisible line = true) : indentation line < line.length := by
  obtain ⟨c, inside, seen⟩ := isVisible_iff.mp visible
  rw [indentation]
  refine lt_of_le_of_ne (List.takeWhile_prefix _).length_le fun whole => ?_
  have blank : Text.isBlank c = true :=
    List.takeWhile_eq_self_iff.mp ((List.takeWhile_prefix _).eq_of_length whole) c inside
  rw [seen] at blank
  cases blank

/-- A visible line keeps its end when no more than its indentation is taken off. -/
theorem getLast?_drop {cut : Nat} (visible : isVisible line = true)
    (indented : cut ≤ indentation line) :
    line.drop cut ≠ [] ∧ (line.drop cut).getLast? = line.getLast? := by
  have shorter : cut < line.length := lt_of_le_of_lt indented (indentation_lt visible)
  refine ⟨?_, ?_⟩
  · rw [ne_eq, List.drop_eq_nil_iff]
    omega
  · rw [List.getLast?_drop, if_neg (by omega)]

section CodeTags

/-- A text that starts with wanted letters starts with them before a character that is none of
them. -/
theorem startsWithLetters_append {wanted s more : Text} {c : Char}
    (other : ∀ d ∈ wanted, Text.sameLetter d c = false)
    (starts : Text.startsWithLetters wanted (s ++ c :: more) = true) :
    Text.startsWithLetters wanted s = true := by
  induction wanted generalizing s with
  | nil => rfl
  | cons d rest inductionHypothesis =>
    obtain ⟨first, others⟩ := List.forall_mem_cons.mp other
    cases s with
    | nil =>
      rw [List.nil_append, Text.startsWithLetters, first] at starts
      cases starts
    | cons e s =>
      rw [List.cons_append, Text.startsWithLetters, Bool.and_eq_true] at starts
      rw [Text.startsWithLetters, starts.1, inductionHypothesis others starts.2]
      rfl

/-- No code tag opens across the breaks between lines. -/
theorem exists_opensCodeTag {lines : List Text} (opens : OpensCodeTag (Text.join ['\n'] lines)) :
    ∃ line ∈ lines, OpensCodeTag line := by
  have other : ∀ d ∈ "<code".toList, Text.sameLetter d '\n' = false :=
    Text.forall_mem (by decide)
  induction lines with
  | nil =>
    obtain ⟨tail, suffix, starts⟩ := opens
    rw [List.suffix_nil.mp suffix] at starts
    cases starts
  | cons line rest inductionHypothesis =>
    cases rest with
    | nil => exact ⟨line, List.mem_cons_self, opens⟩
    | cons next more =>
      obtain ⟨tail, ⟨front, whole⟩, starts⟩ := opens
      rw [Text.join, List.append_assoc, List.singleton_append] at whole
      rcases List.append_eq_append_iff.mp whole with ⟨inner, here, rfl⟩ | ⟨inner, -, later⟩
      · refine ⟨line, List.mem_cons_self, inner, ⟨front, here.symm⟩, ?_⟩
        exact startsWithLetters_append other starts
      · cases inner with
        | nil =>
          rw [List.nil_append] at later
          rw [← later] at starts
          cases starts
        | cons c inner =>
          rw [List.cons_append, List.cons.injEq] at later
          obtain ⟨found, listed, tagged⟩ :=
            inductionHypothesis ⟨tail, ⟨inner, later.2.symm⟩, starts⟩
          exact ⟨found, List.mem_cons_of_mem line listed, tagged⟩

/-- A text in which no code tag opens is taken as it is. -/
theorem withoutCodeTags_eq_self {s : Text} (untagged : ¬ OpensCodeTag s) :
    withoutCodeTags s = s := by
  have nothing : firstCodeElement? s = none := by
    induction s with
    | nil => rfl
    | cons c rest inductionHypothesis =>
      have here : Text.startsWithLetters "<code".toList (c :: rest) ≠ true := fun starts =>
        untagged ⟨c :: rest, List.suffix_refl _, starts⟩
      have later : ¬ OpensCodeTag rest := fun ⟨tail, suffix, starts⟩ =>
        untagged ⟨tail, suffix.trans (List.suffix_cons c rest), starts⟩
      rw [firstCodeElement?, codeElement?, if_neg here, inductionHypothesis later]
      rfl
  rw [withoutCodeTags, nothing]
  rfl

end CodeTags

/-- The indentation that visible lines have at least and one of them has. -/
theorem commonIndentation_eq {lines : List Text} {cut : Nat}
    (indented : ∀ line ∈ lines, isVisible line = true → cut ≤ indentation line)
    (attained : ∃ line ∈ lines, isVisible line = true ∧ indentation line = cut) :
    commonIndentation lines = cut := by
  obtain ⟨line, listed, visible, equal⟩ := attained
  have least : ((lines.filter (·.any (!Text.isBlank ·))).map indentation).min? = some cut := by
    refine List.min?_eq_some_iff.mpr ⟨?_, ?_⟩
    · exact List.mem_map.mpr ⟨line, List.mem_filter.mpr ⟨listed, visible⟩, equal⟩
    · intro other member
      obtain ⟨source, kept, rfl⟩ := List.mem_map.mp member
      obtain ⟨inside, shown⟩ := List.mem_filter.mp kept
      exact indented source inside shown
  rw [commonIndentation, least]
  rfl

namespace IsListing

variable {cut : Nat} {first : Text} {rest : List Text}

/-- The first line of a listing is visible. -/
theorem visible_first (listing : IsListing cut (first :: rest)) : isVisible first = true := by
  obtain ⟨line, front, visible⟩ := listing.starts
  cases front
  exact visible

/-- The common indentation of a listing is all that the first line has. -/
theorem drop_first (listing : IsListing cut (first :: rest)) :
    first.drop cut = Text.trimStart first := by
  rw [← listing.firstAttains first rfl, drop_indentation]

/-- Without its indentation the first line of a listing is not empty and has clear ends. -/
theorem clear_first (listing : IsListing cut (first :: rest)) :
    Text.trimStart first ≠ [] ∧ Text.IsClear Text.isBlank (Text.trimStart first) := by
  obtain ⟨filled, sameEnd⟩ := getLast?_drop listing.visible_first
    (listing.indented first List.mem_cons_self listing.visible_first)
  rw [listing.drop_first] at filled sameEnd
  refine ⟨filled, ?_⟩
  rintro c (front | back)
  · exact Text.head?_dropWhile front
  · exact listing.trimmed first List.mem_cons_self c (sameEnd ▸ back)

/-- The last line of a listing is not empty and ends visibly, also when no more than its
indentation is taken off. -/
theorem exists_last {code : List Text} (listing : IsListing cut code) :
    ∃ last, code.getLast? = some last ∧ isVisible last = true ∧ ∀ taken ≤ cut,
      last.drop taken ≠ [] ∧ ∀ c, (last.drop taken).getLast? = some c → Text.isBlank c = false := by
  obtain ⟨last, back, visible⟩ := listing.ends
  have listed : last ∈ code := List.mem_of_getLast? back
  refine ⟨last, back, visible, fun taken within => ?_⟩
  obtain ⟨filled, sameEnd⟩ :=
    getLast?_drop visible (within.trans (listing.indented last listed visible))
  exact ⟨filled, fun c ending => listing.trimmed last listed c (sameEnd ▸ ending)⟩

/-- An example arrives with a visible character at both ends. -/
theorem isClear_arriving (listing : IsListing cut (first :: rest)) :
    (Text.trimStart first :: rest).getLast? ≠ some [] ∧
      Text.IsClear Text.isBlank (Text.join ['\n'] (Text.trimStart first :: rest)) := by
  obtain ⟨filled, clear⟩ := listing.clear_first
  cases rest with
  | nil => exact ⟨by simpa using filled, clear⟩
  | cons next more =>
    obtain ⟨last, back, -, kept⟩ := listing.exists_last
    obtain ⟨filledLast, clearLast⟩ := kept 0 (Nat.zero_le cut)
    rw [List.drop_zero] at filledLast clearLast
    rw [List.getLast?_cons_cons] at back ⊢
    refine ⟨by simpa [back] using filledLast, ?_⟩
    exact Text.isClear_join_of_ends rfl (by rw [List.getLast?_cons_cons, back]) filled filledLast
      (fun c front => clear c (.inl front)) clearLast

/-- The lines of a listing without their common indentation are clear of white space at the ends
of the text that they make. -/
theorem isClear_dropped (listing : IsListing cut (first :: rest)) :
    Text.IsClear Text.isBlank (Text.join ['\n'] ((first :: rest).map (·.drop cut))) := by
  obtain ⟨filled, clear⟩ := listing.clear_first
  obtain ⟨last, back, -, kept⟩ := listing.exists_last
  obtain ⟨filledLast, clearLast⟩ := kept cut le_rfl
  rw [← listing.drop_first] at filled clear
  exact Text.isClear_join_of_ends rfl (by rw [List.getLast?_map, back]; rfl) filled filledLast
    (fun c front => clear c (.inl front)) clearLast

/-- All lines of a listing lose its common indentation, whether they are one or more. -/
theorem dedented_eq (listing : IsListing cut (first :: rest)) :
    dedented (Text.trimStart first :: rest) = (first :: rest).map (·.drop cut) := by
  cases rest with
  | nil =>
    rw [List.map_singleton, listing.drop_first]
    rfl
  | cons next more =>
    obtain ⟨last, back, visible, -⟩ := listing.exists_last
    rw [List.getLast?_cons_cons] at back
    have common : commonIndentation (next :: more) = cut :=
      commonIndentation_eq
        (fun line listed => listing.indented line (List.mem_cons_of_mem first listed))
        (listing.otherAttains ⟨last, List.mem_of_getLast? back, visible⟩)
    rw [dedented, common, Text.trim, listing.clear_first.2.trimWhile_eq, ← listing.drop_first]
    rfl

/-- No code tag opens in an example that arrives. -/
theorem untagged_arriving (listing : IsListing cut (first :: rest)) :
    ¬ OpensCodeTag (Text.join ['\n'] (Text.trimStart first :: rest)) := by
  intro opens
  obtain ⟨line, listed, tail, suffix, starts⟩ := exists_opensCodeTag opens
  rcases List.mem_cons.mp listed with rfl | later
  · exact listing.untagged first List.mem_cons_self
      ⟨tail, suffix.trans (List.dropWhile_suffix _), starts⟩
  · exact listing.untagged line (List.mem_cons_of_mem first later) ⟨tail, suffix, starts⟩

/-- The block of an example that arrives holds its listing without the common indentation. -/
theorem exampleBlock_eq (listing : IsListing cut (first :: rest)) :
    let content := Text.join ['\n'] ((first :: rest).map (·.drop cut))
    exampleBlock (Text.join ['\n'] (Text.trimStart first :: rest)) =
      "```".toList ++ guessLanguage content ++ ['\n'] ++ content ++ "\n```".toList := by
  intro content
  obtain ⟨filledLast, clear⟩ := listing.isClear_arriving
  have feeds : Text.IsClear (· == '\n') (Text.join ['\n'] (Text.trimStart first :: rest)) :=
    clear.of_imp fun c feed => by rw [beq_iff_eq.mp feed]; decide
  have unbroken : ∀ line ∈ Text.trimStart first :: rest, ∀ c ∈ line,
      Text.isLineBreak c = false := by
    obtain ⟨here, later⟩ := List.forall_mem_cons.mp listing.unbroken
    refine List.forall_mem_cons.mpr ⟨fun c inside => here c ?_, later⟩
    exact (List.dropWhile_sublist _).subset inside
  have dropped := listing.isClear_dropped
  rw [exampleBlock, withoutCodeTags_eq_self listing.untagged_arriving, feeds.trimWhile_eq,
    Text.lines_join filledLast unbroken, listing.dedented_eq, Text.trim, dropped.trimWhile_eq,
    codeBlock, Text.trimEnd, dropped.dropEndWhile_eq]

end IsListing

end Docblock.Markdown
