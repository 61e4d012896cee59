import Docblock.Document.Section
import Docblock.Document.Template
import Docblock.Proofs.Links.Targets

/-!
# Where class names are linked

A class name has only characters that a type name goes on with, and at least one.
Such a name is linked behind a slash only where it is all that stands there up to
the next character of another kind. So it can be told, for the lines and targets
that a document makes itself, which class names are linked in them: none in an
anchor, the name of the element `a` in the line of an anchor, and four path
segments in an address of the standard template.
-/

namespace Docblock.Document

/-- Whether a text has the characters of a class name. -/
structure IsClassName (name : Text) : Prop where
  nonempty : name ≠ []
  plain : ∀ c ∈ name, isIdentifierChar c = true

namespace IsClassName

variable {name : Text}

/-- A character of another kind does not occur in a class name. -/
theorem notMem (isName : IsClassName name) {c : Char} (stops : isIdentifierChar c = false) :
    c ∉ name := by
  intro member
  rw [isName.plain c member] at stops
  cases stops

/-- A class name does not hold the seam of a link. -/
theorem seamless (isName : IsClassName name) : ¬HoldsSeam name := by
  rintro ⟨front, behind, equal⟩
  have inside : ']' ∈ name ++ ['('] := by simp [← equal, seam]
  rcases List.mem_append.mp inside with inName | bracket
  · exact isName.notMem (by decide) inName
  · exact absurd bracket (by decide)

/-- The closing parenthesis of a link is a fence for class names. -/
theorem isFence_closed (isName : IsClassName name) : IsFence name [')'] :=
  isFence_singleton (by decide) (by decide) (isName.notMem (by decide))

/-- A class name is linked in a target by itself. -/
theorem linkName_target (isName : IsClassName name) (target replacement behind : Text) :
    linkName name replacement (target ++ ')' :: behind) =
      linkName name replacement target ++ linkName name replacement (')' :: behind) := by
  have split := isName.isFence_closed.linkName_append replacement target behind
  rwa [List.append_assoc, List.append_assoc, List.singleton_append, List.singleton_append,
    ← linkName_closed] at split

end IsClassName

/-- Class names are linked in each piece of a text and in the targets between them by
themselves. -/
theorem linkInOrder_join_names {entries : List (Text × Text)}
    (named : ∀ entry ∈ entries, IsClassName entry.1) {target : Text} {pieces : List Text}
    (woven : IsWoven pieces) :
    linkInOrder entries (Text.join target pieces) =
      Text.join (linkInOrder entries target) (pieces.map (linkInOrder entries)) := by
  induction entries generalizing target pieces with
  | nil =>
    have same : linkInOrder [] = id := rfl
    rw [same, List.map_id, id, id]
  | cons entry rest inductionHypothesis =>
    have isName := named entry List.mem_cons_self
    obtain ⟨linked, stillWoven⟩ :=
      linkName_join isName.seamless (isName.linkName_target target entry.2) woven
    have others : ∀ other ∈ rest, IsClassName other.1 := fun other member =>
      named other (List.mem_cons_of_mem entry member)
    rw [linkInOrder_cons, linked, inductionHypothesis others stillWoven, List.map_map]
    rfl

/-- A name is linked in a text when it is linked at its front or behind its first
character. -/
theorem hits_cons {name s : Text} {c : Char} :
    Hits name (c :: s) ↔ (markBefore? name (c :: s)).isSome = true ∨ Hits name s := by
  constructor
  · rintro ⟨tail, suffix, found⟩
    rcases List.suffix_cons_iff.mp suffix with rfl | later
    · exact .inl found
    · exact .inr ⟨tail, later, found⟩
  · rintro (found | ⟨tail, suffix, found⟩)
    · exact ⟨c :: s, List.suffix_refl _, found⟩
    · exact ⟨tail, suffix.trans (List.suffix_cons c s), found⟩

/-- Nothing is linked in an empty text. -/
theorem not_hits_nil (name : Text) : ¬Hits name [] := by
  rintro ⟨tail, suffix, found⟩
  rw [List.suffix_nil.mp suffix, markBefore?_nil] at found
  cases found

/-- The characters that start a mark. -/
def startsMark (c : Char) : Bool := c == '/' || c == '<'

/-- A text without slashes and angles has no character that starts a mark. -/
theorem any_startsMark {s : Text} (slashes : '/' ∉ s) (angles : '<' ∉ s) :
    s.any startsMark = false := by
  rw [List.any_eq_false]
  intro c member start
  rw [startsMark, Bool.or_eq_true, beq_iff_eq, beq_iff_eq] at start
  rcases start with rfl | rfl
  · exact slashes member
  · exact angles member

/-- A character that starts no mark is passed over. -/
theorem markBefore?_eq_none {name s : Text} {c : Char} (quiet : startsMark c = false) :
    markBefore? name (c :: s) = none := by
  rw [markBefore?_eq, List.find?_eq_none]
  intro mark member marked
  obtain ⟨rest, equal, -⟩ := isMarked_iff.mp marked
  have started : ∀ other ∈ typeMarks, other.head?.any startsMark = true := by decide
  have start := started mark member
  cases mark with
  | nil => cases start
  | cons d more =>
    have same : c = d := (List.cons.inj equal).1
    rw [List.head?_cons, Option.any_some, ← same, quiet] at start
    cases start

/-- A character that starts no mark makes no difference to whether a name is linked
behind it. -/
theorem hits_cons_quiet {name s : Text} {c : Char} (quiet : startsMark c = false) :
    Hits name (c :: s) ↔ Hits name s := by
  rw [hits_cons, markBefore?_eq_none quiet]
  simp

/-- Characters that start no mark make no difference to whether a name is linked
behind them. -/
theorem hits_quiet_append {name quiet : Text} (unmarked : quiet.any startsMark = false)
    (s : Text) : Hits name (quiet ++ s) ↔ Hits name s := by
  induction quiet with
  | nil => rfl
  | cons c rest inductionHypothesis =>
    rw [List.any_cons, Bool.or_eq_false_iff] at unmarked
    have onward := inductionHypothesis unmarked.2
    rw [List.cons_append, hits_cons_quiet unmarked.1, onward]

/-- The marks, character by character. -/
theorem typeMarks_eq :
    typeMarks = [['<', 'e', 'm', '>', '?'], ['<', 'e', 'm', '>'], ['/', '?'], ['/']] := by
  decide

/-- An angle that opens no emphasis is passed over. -/
theorem hits_angle {name s : Text} {c : Char} (other : c ≠ 'e') :
    Hits name ('<' :: c :: s) ↔ Hits name (c :: s) := by
  have here : markBefore? name ('<' :: c :: s) = none := by
    rw [markBefore?_eq, typeMarks_eq]
    simp [isMarked, List.isPrefixOf, Ne.symm other]
  rw [hits_cons, here]
  simp

/-- The characters of a class name at the front of a text in which it does not go on. -/
theorem takeWhile_append {word rest : Text} (plain : ∀ c ∈ word, isIdentifierChar c = true)
    (ended : rest.head?.any isIdentifierChar = false) :
    (word ++ rest).takeWhile isIdentifierChar = word := by
  rw [List.takeWhile_append_of_pos plain]
  cases rest with
  | nil => simp
  | cons c more =>
    rw [List.head?_cons, Option.any_some] at ended
    simp [ended]

/-- A class name is linked behind a slash when it is all that stands there up to the
next character of another kind. -/
theorem IsClassName.marked_slash {name word rest : Text} {c : Char} (isName : IsClassName name)
    (plain : ∀ d ∈ word, isIdentifierChar d = true) (stops : isIdentifierChar c = false)
    (unquestioned : c ≠ '?') :
    (markBefore? name ('/' :: (word ++ c :: rest))).isSome = true ↔ name = word := by
  obtain ⟨d, more, front, other⟩ : ∃ d more, word ++ c :: rest = d :: more ∧ d ≠ '?' := by
    cases word with
    | nil => exact ⟨c, rest, rfl, unquestioned⟩
    | cons d others =>
      refine ⟨d, others ++ c :: rest, rfl, ?_⟩
      rintro rfl
      exact absurd (plain '?' List.mem_cons_self) (by decide)
  have slash : (markBefore? name ('/' :: (word ++ c :: rest))).isSome = true ↔
      isMarked ['/'] name ('/' :: (word ++ c :: rest)) = true := by
    rw [markBefore?_eq, typeMarks_eq, front]
    have question : isMarked ['/', '?'] name ('/' :: d :: more) = false := by
      simp [isMarked, List.isPrefixOf, Ne.symm other]
    have emphasis : isMarked ['<', 'e', 'm', '>'] name ('/' :: d :: more) = false := by
      simp [isMarked, List.isPrefixOf]
    have nullable : isMarked ['<', 'e', 'm', '>', '?'] name ('/' :: d :: more) = false := by
      simp [isMarked, List.isPrefixOf]
    cases marked : isMarked ['/'] name ('/' :: d :: more) <;>
      simp [List.find?, question, emphasis, nullable, marked]
  rw [slash, isMarked_iff]
  constructor
  · rintro ⟨behind, equal, ended⟩
    have text : word ++ c :: rest = name ++ behind := (List.cons.inj equal).2
    have stopped : (c :: rest).head?.any isIdentifierChar = false := by simpa using stops
    rw [← takeWhile_append isName.plain ended, ← text, takeWhile_append plain stopped]
  · rintro rfl
    exact ⟨c :: rest, rfl, by simpa using stops⟩

/-- The same where a character follows that starts no type name. -/
theorem IsClassName.hits_slash {name word rest : Text} {c : Char} (isName : IsClassName name)
    (plain : word.all isIdentifierChar = true) (stops : isIdentifierChar c = false)
    (unquestioned : c ≠ '?') :
    Hits name ('/' :: (word ++ c :: rest)) ↔ name = word ∨ Hits name (c :: rest) := by
  have inside := List.all_eq_true.mp plain
  have quiet : word.any startsMark = false :=
    any_startsMark (fun member => absurd (inside '/' member) (by decide))
      (fun member => absurd (inside '<' member) (by decide))
  rw [hits_cons, isName.marked_slash inside stops unquestioned, hits_quiet_append quiet]

/-- Nothing is linked in a text whose characters start no mark. -/
theorem not_hits_quiet {name quiet : Text} (unmarked : quiet.any startsMark = false) :
    ¬Hits name quiet := by
  rw [← List.append_nil quiet, hits_quiet_append unmarked]
  exact not_hits_nil name

/-- The characters of anchors. -/
def isAnchorChar (c : Char) : Bool := Markdown.isSlugChar c || c == '-'

/-- The characters of anchors start no mark. -/
theorem any_startsMark_anchor {anchor : Text} (plain : ∀ c ∈ anchor, isAnchorChar c = true) :
    anchor.any startsMark = false :=
  any_startsMark (fun member => absurd (plain '/' member) (by decide))
    (fun member => absurd (plain '<' member) (by decide))

/-- Of the class names only that of the element for anchors is linked in the line of
an anchor. -/
theorem IsClassName.hits_anchorLine {name anchor : Text} (isName : IsClassName name)
    (plain : ∀ c ∈ anchor, isAnchorChar c = true) :
    Hits name (anchorLine anchor) ↔ name = ['a'] := by
  have opening : "<hr /><a id=\"".toList =
      ['<', 'h', 'r', ' ', '/', '>', '<', 'a', ' ', 'i', 'd', '=', '"'] := by decide
  have closing : "\"></a>".toList = ['"', '>', '<', '/', 'a', '>'] := by decide
  have line : anchorLine anchor =
      '<' :: 'h' :: (['r', ' '] ++ '/' :: ([] ++ '>' :: '<' :: 'a' ::
        ([' ', 'i', 'd', '=', '"'] ++ (anchor ++ (['"', '>'] ++ '<' :: '/' ::
          (['a'] ++ ['>'])))))) := by
    unfold anchorLine
    rw [opening, closing]
    simp
  have quiet := any_startsMark_anchor plain
  have ended : ¬Hits name ['>'] := by
    rw [hits_cons_quiet (by decide)]
    simpa using not_hits_nil name
  have inTag : Hits name ('<' :: '/' :: (['a'] ++ ['>'])) ↔ name = ['a'] := by
    rw [hits_angle (by decide), isName.hits_slash (by decide) (by decide) (by decide)]
    simp [ended]
  have behind : Hits name ('>' :: '<' :: 'a' :: ([' ', 'i', 'd', '=', '"'] ++ (anchor ++
      (['"', '>'] ++ '<' :: '/' :: (['a'] ++ ['>']))))) ↔ name = ['a'] := by
    rw [hits_cons_quiet (by decide), hits_angle (by decide), hits_cons_quiet (by decide),
      hits_quiet_append (by decide), hits_quiet_append quiet, hits_quiet_append (by decide), inTag]
  rw [line, hits_angle (by decide), hits_cons_quiet (by decide),
    hits_quiet_append (by decide), isName.hits_slash (by decide) (by decide) (by decide), behind]
  simp [isName.nonempty]

/-- No class name is linked in an anchor. -/
theorem not_hits_anchor {name anchor : Text} (plain : ∀ c ∈ anchor, isAnchorChar c = true) :
    ¬Hits name ('#' :: anchor) := by
  rw [hits_cons_quiet (by decide)]
  exact not_hits_quiet (any_startsMark_anchor plain)

/-- The path segments of an address of the standard template behind which another
character than one of a type name stands. -/
def addressWords : List Text := ["php", "manual", "en", "class"].map String.toList

/-- The address of the standard template for a slug. -/
def standardAddress (slug : Text) : Text :=
  "https://php.net/manual/en/class.".toList ++ slug ++ ".php".toList

/-- The class names that are linked in an address are four of its path segments. -/
theorem IsClassName.hits_address {name slug : Text} (isName : IsClassName name)
    (plain : slug.any startsMark = false) :
    Hits name (standardAddress slug) ↔ name ∈ addressWords := by
  have opening : "https://php.net/manual/en/class.".toList =
      ['h', 't', 't', 'p', 's', ':', '/', '/', 'p', 'h', 'p', '.', 'n', 'e', 't', '/', 'm', 'a',
        'n', 'u', 'a', 'l', '/', 'e', 'n', '/', 'c', 'l', 'a', 's', 's', '.'] := by decide
  have words : addressWords = [['p', 'h', 'p'], ['m', 'a', 'n', 'u', 'a', 'l'], ['e', 'n'],
      ['c', 'l', 'a', 's', 's']] := by decide
  have address : standardAddress slug =
      ['h', 't', 't', 'p', 's', ':'] ++ '/' :: ([] ++ '/' :: (['p', 'h', 'p'] ++ '.' ::
        (['n', 'e', 't'] ++ '/' :: (['m', 'a', 'n', 'u', 'a', 'l'] ++ '/' ::
          (['e', 'n'] ++ '/' :: (['c', 'l', 'a', 's', 's'] ++ '.' ::
            (slug ++ ".php".toList))))))) := by
    unfold standardAddress
    rw [opening]
    simp
  have ended : ¬Hits name ('.' :: (slug ++ ".php".toList)) := by
    have quiet : ¬Hits name ".php".toList := not_hits_quiet (by decide)
    rw [hits_cons_quiet (by decide), hits_quiet_append plain]
    simpa using quiet
  rw [address, hits_quiet_append (by decide),
    isName.hits_slash (by decide) (by decide) (by decide),
    isName.hits_slash (by decide) (by decide) (by decide), hits_cons_quiet (by decide),
    hits_quiet_append (by decide),
    isName.hits_slash (by decide) (by decide) (by decide),
    isName.hits_slash (by decide) (by decide) (by decide),
    isName.hits_slash (by decide) (by decide) (by decide), words]
  simp only [isName.nonempty, ended, List.mem_cons, List.not_mem_nil, false_or, or_false]

end Docblock.Document
