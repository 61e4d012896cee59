import Docblock.Document.Assembly
import Docblock.Proofs.Links.Anchors

/-!
# Linking all names at once

Names are linked one after the other, each in the text that the names before it
have left. When all of them are class names and no target holds a slash or an
angle, this is the same as one pass from the left that looks up the word behind
each mark. A word is all identifier characters that stand there, so a name is
never taken for the start of a longer one; and a link starts no mark and puts a
square bracket behind its own, so no later name finds anything in it.

Targets with slashes, such as the addresses of built-in classes, are not covered
here: later names may be linked in them.
-/

namespace Docblock.Document

/-- The mark at the front of a text and the word behind it, if a word stands there. -/
def markedWord? (s : Text) : Option (Text × Text) :=
  (typeMarks.find? fun mark =>
    mark.isPrefixOf s && (s.drop mark.length).head?.any isIdentifierChar).map fun mark =>
      (mark, (s.drop mark.length).takeWhile isIdentifierChar)

/-- A word, linked if it has a target. -/
def linkedWord (links : Keyed Text) (word : Text) : Text :=
  match Keyed.find? word links with
  | some target => link word target
  | none => word

/-- Links the words behind marks that have a target, in one pass from the left. -/
def linkAll (links : Keyed Text) : Text → Text
  | [] => []
  | c :: rest =>
    match markedWord? (c :: rest) with
    | some (mark, word) =>
      mark ++ linkedWord links word ++ linkAll links (rest.drop (mark.length + word.length - 1))
    | none => c :: linkAll links rest
termination_by s => s.length
decreasing_by
  · simp only [List.length_drop, List.length_cons]; omega
  · simp

/-- A map of class names to targets in which no mark can start. -/
structure IsLinkMap (links : Keyed Text) : Prop where
  distinct : (Keyed.keys links).Nodup
  named : ∀ entry ∈ links, IsClassName entry.1
  quiet : ∀ entry ∈ links, '/' ∉ entry.2 ∧ '<' ∉ entry.2

/-- The targets of the sections of a document make a link map when its types have
different class names. -/
theorem isLinkMap_sectionLinks {entities : List Documented.Entity}
    (distinct : (entities.map (·.name)).Nodup)
    (named : ∀ entity ∈ entities, IsClassName entity.name) :
    IsLinkMap (sectionLinks (anchorsOf entities)) := by
  have keys : Keyed.keys (sectionLinks (anchorsOf entities)) = entities.map (·.name) := by
    rw [← keys_anchorsOf distinct, sectionLinks, Keyed.keys, Keyed.keys, List.map_map]
    rfl
  refine ⟨keys ▸ distinct, fun entry member => ?_, fun entry member => ?_⟩
  · have listed : entry.1 ∈ entities.map (·.name) := keys ▸ List.mem_map_of_mem member
    obtain ⟨entity, inside, same⟩ := List.mem_map.mp listed
    exact same ▸ named entity inside
  · obtain ⟨⟨name, anchor⟩, listed, rfl⟩ := List.mem_map.mp member
    have plain := forall_mem_anchorsOf entities _ listed
    have absent : ∀ c, c ≠ '#' → isAnchorChar c = false → c ∉ '#' :: anchor := by
      rintro c other stranger inside
      rcases List.mem_cons.mp inside with hash | later
      · exact other hash
      · rw [plain c later] at stranger
        cases stranger
    exact ⟨absent '/' (by decide) (by decide), absent '<' (by decide) (by decide)⟩

/-- A mark starts as marks do, and no other mark starts inside of it. -/
theorem exists_mark_cons {mark : Text} (listed : mark ∈ typeMarks) :
    ∃ c more, mark = c :: more ∧ startsMark c = true ∧ more.any startsMark = false := by
  rw [typeMarks_eq] at listed
  simp only [List.mem_cons, List.not_mem_nil, or_false] at listed
  rcases listed with rfl | rfl | rfl | rfl <;> exact ⟨_, _, rfl, by decide, by decide⟩

/-- A character that starts a mark is none of a word. -/
theorem isIdentifierChar_of_startsMark {c : Char} (starts : startsMark c = true) :
    isIdentifierChar c = false := by
  rw [startsMark, Bool.or_eq_true, beq_iff_eq, beq_iff_eq] at starts
  rcases starts with rfl | rfl <;> decide

/-- No mark starts in a class name. -/
theorem IsClassName.startsNoMark {word : Text} (isName : IsClassName word) :
    word.any startsMark = false :=
  any_startsMark (isName.notMem (by decide)) (isName.notMem (by decide))

/-- A mark is told from the others by what stands behind it: where a word stands
behind one mark and no question mark behind the other, they are the same. -/
theorem mark_eq_of_append_eq {mark other : Text} {c d : Char} {rest behind : Text}
    (listed : mark ∈ typeMarks) (otherListed : other ∈ typeMarks)
    (equal : mark ++ c :: rest = other ++ d :: behind) (unquestioned : c ≠ '?')
    (letter : isIdentifierChar d = true) : mark = other := by
  have different : '?' ≠ d := by
    rintro rfl
    exact absurd letter (by decide)
  rw [typeMarks_eq] at listed otherListed
  simp only [List.mem_cons, List.not_mem_nil, or_false] at listed otherListed
  rcases listed with rfl | rfl | rfl | rfl <;>
    rcases otherListed with rfl | rfl | rfl | rfl <;> simp_all

/-- Where a mark and a word stand at the front of a text. -/
theorem markedWord?_eq_some_iff {s mark word : Text} :
    markedWord? s = some (mark, word) ↔
      mark ∈ typeMarks ∧ IsClassName word ∧
        ∃ rest, s = mark ++ word ++ rest ∧ rest.head?.any isIdentifierChar = false := by
  rw [markedWord?, Option.map_eq_some_iff]
  constructor
  · rintro ⟨found, first, equal⟩
    obtain ⟨rfl, rfl⟩ := Prod.mk.inj equal
    have holds := List.find?_some first
    rw [Bool.and_eq_true, List.isPrefixOf_iff_prefix] at holds
    obtain ⟨⟨behind, rfl⟩, letter⟩ := holds
    rw [List.drop_left] at letter ⊢
    refine ⟨List.mem_of_find?_eq_some first, ⟨?_, fun c member => ?_⟩,
      behind.dropWhile isIdentifierChar, by simp, ?_⟩
    · cases behind with
      | nil => cases letter
      | cons c rest =>
        have starts : isIdentifierChar c = true := letter
        simp [starts]
    · exact List.all_eq_true.mp List.all_takeWhile c member
    · have stops := List.head?_dropWhile_not isIdentifierChar behind
      cases head : (behind.dropWhile isIdentifierChar).head? with
      | none => rfl
      | some c => simpa [head] using stops
  · rintro ⟨listed, isName, rest, rfl, ended⟩
    obtain ⟨c, more, rfl⟩ := List.exists_cons_of_ne_nil isName.nonempty
    have letter : isIdentifierChar c = true := isName.plain c List.mem_cons_self
    have unquestioned : c ≠ '?' := by
      rintro rfl
      exact absurd letter (by decide)
    have front : mark ++ (c :: more) ++ rest = mark ++ c :: (more ++ rest) := by simp
    refine ⟨mark, ?_, ?_⟩
    · rw [front]
      cases found : typeMarks.find? _ with
      | none =>
        have other := List.find?_eq_none.mp found mark listed
        simp [letter] at other
      | some other =>
        have holds := List.find?_some found
        rw [Bool.and_eq_true, List.isPrefixOf_iff_prefix] at holds
        obtain ⟨⟨behind, equal⟩, starts⟩ := holds
        rw [← equal, List.drop_left] at starts
        cases behind with
        | nil => cases starts
        | cons d others =>
          have same := mark_eq_of_append_eq listed (List.mem_of_find?_eq_some found) equal.symm
            unquestioned starts
          rw [same]
    · rw [List.append_assoc, List.drop_left, takeWhile_append isName.plain ended]

/-- Where no mark with a word behind it stands at the front of a text. -/
theorem markedWord?_eq_none_iff {s : Text} :
    markedWord? s = none ↔
      ∀ mark ∈ typeMarks, ∀ c, isIdentifierChar c = true → ¬mark ++ [c] <+: s := by
  rw [markedWord?, Option.map_eq_none_iff, List.find?_eq_none]
  refine forall₂_congr fun mark _ => ?_
  rw [Bool.and_eq_true, List.isPrefixOf_iff_prefix, not_and]
  constructor
  · rintro free c letter ⟨rest, rfl⟩
    have front : mark ++ [c] ++ rest = mark ++ c :: rest := by simp
    rw [front, List.drop_left] at free
    exact free (List.prefix_append mark _) letter
  · rintro free ⟨behind, rfl⟩ starts
    rw [List.drop_left] at starts
    cases behind with
    | nil => cases starts
    | cons c rest => exact free c starts ⟨rest, by simp⟩

/-- A character that starts no mark has no word behind it. -/
theorem markedWord?_quiet {c : Char} (quiet : startsMark c = false) (s : Text) :
    markedWord? (c :: s) = none := by
  rw [markedWord?_eq_none_iff]
  rintro mark listed d - start
  obtain ⟨e, more, rfl, started, -⟩ := exists_mark_cons listed
  obtain ⟨rfl, -⟩ := List.cons_prefix_cons.mp start
  rw [quiet] at started
  cases started

section Pass

variable {links : Keyed Text}

/-- What stands at the front of a text without a marked word is copied. -/
theorem linkAll_unmarked {c : Char} {rest : Text} (unmarked : markedWord? (c :: rest) = none) :
    linkAll links (c :: rest) = c :: linkAll links rest := by
  rw [linkAll, unmarked]

/-- A word behind a mark is linked if it has a target. -/
theorem linkAll_marked {mark word rest : Text} (listed : mark ∈ typeMarks)
    (isName : IsClassName word) (ended : rest.head?.any isIdentifierChar = false) :
    linkAll links (mark ++ word ++ rest) =
      mark ++ linkedWord links word ++ linkAll links rest := by
  have found := markedWord?_eq_some_iff.mpr ⟨listed, isName, rest, rfl, ended⟩
  obtain ⟨c, more, rfl, -⟩ := exists_mark_cons listed
  rw [List.cons_append, List.cons_append] at found ⊢
  rw [linkAll, found]
  have width : (c :: more).length + word.length - 1 = (more ++ word).length := by
    simp only [List.length_cons, List.length_append]
    omega
  simp only
  rw [width, List.drop_left]

/-- Characters that start no mark are copied. -/
theorem linkAll_quiet {quiet : Text} (unmarked : quiet.any startsMark = false) (s : Text) :
    linkAll links (quiet ++ s) = quiet ++ linkAll links s := by
  induction quiet with
  | nil => rfl
  | cons c rest inductionHypothesis =>
    rw [List.any_cons, Bool.or_eq_false_iff] at unmarked
    rw [List.cons_append, linkAll_unmarked (markedWord?_quiet unmarked.1 _),
      inductionHypothesis unmarked.2, List.cons_append]

/-- Every text starts with a marked word, with a character that is copied, or is empty. -/
theorem marked_cases (s : Text) :
    s = [] ∨ (∃ c rest, s = c :: rest ∧ markedWord? (c :: rest) = none) ∨
      ∃ mark word rest, s = mark ++ word ++ rest ∧ mark ∈ typeMarks ∧ IsClassName word ∧
        rest.head?.any isIdentifierChar = false := by
  cases s with
  | nil => exact .inl rfl
  | cons c rest =>
    cases found : markedWord? (c :: rest) with
    | none => exact .inr (.inl ⟨c, rest, rfl, found⟩)
    | some pair =>
      obtain ⟨mark, word⟩ := pair
      obtain ⟨listed, isName, behind, equal, ended⟩ := markedWord?_eq_some_iff.mp found
      exact .inr (.inr ⟨mark, word, behind, equal, listed, isName, ended⟩)

/-- The first character of a text stays the first. -/
theorem head?_linkAll (s : Text) : (linkAll links s).head? = s.head? := by
  rcases marked_cases s with rfl | ⟨c, rest, rfl, unmarked⟩ |
    ⟨mark, word, rest, rfl, listed, isName, ended⟩
  · rw [linkAll]
  · rw [linkAll_unmarked unmarked, List.head?_cons, List.head?_cons]
  · obtain ⟨c, more, rfl, -⟩ := exists_mark_cons listed
    rw [linkAll_marked listed isName ended]
    simp

/-- A text whose characters start no mark stands at the front of a linked text only
if it stood there before. -/
theorem prefix_of_prefix_linkAll {quiet s : Text} (unmarked : quiet.any startsMark = false)
    (start : quiet <+: linkAll links s) : quiet <+: s := by
  induction quiet generalizing s with
  | nil => exact List.nil_prefix
  | cons c rest inductionHypothesis =>
    rw [List.any_cons, Bool.or_eq_false_iff] at unmarked
    have first : s.head? = some c := by
      obtain ⟨behind, equal⟩ := start
      have kept : (linkAll links s).head? = s.head? := head?_linkAll s
      rw [← kept, ← equal]
      rfl
    obtain ⟨more, rfl⟩ : ∃ more, s = c :: more := by
      cases s with
      | nil => cases first
      | cons d more => exact ⟨more, by rw [Option.some.inj first]⟩
    rw [linkAll_unmarked (markedWord?_quiet unmarked.1 more)] at start
    have onward := inductionHypothesis unmarked.2 (List.cons_prefix_cons.mp start).2
    exact List.cons_prefix_cons.mpr ⟨rfl, onward⟩

/-- Linking behind a character makes no marked word at it. -/
theorem markedWord?_linkAll {c : Char} {rest : Text}
    (unmarked : markedWord? (c :: rest) = none) :
    markedWord? (c :: linkAll links rest) = none := by
  rw [markedWord?_eq_none_iff] at unmarked ⊢
  intro mark listed d letter start
  refine unmarked mark listed d letter ?_
  obtain ⟨e, more, rfl, -, quiet⟩ := exists_mark_cons listed
  obtain ⟨rfl, inside⟩ := List.cons_prefix_cons.mp start
  have still : startsMark d = false := by
    cases started : startsMark d with
    | false => rfl
    | true =>
      rw [isIdentifierChar_of_startsMark started] at letter
      cases letter
  have unstarted : (more ++ [d]).any startsMark = false := by simp [quiet, still]
  exact List.cons_prefix_cons.mpr ⟨rfl, prefix_of_prefix_linkAll unstarted inside⟩

/-- A word that is linked has no marked word left at its place. -/
theorem linkAll_mark_bracket {mark : Text} (listed : mark ∈ typeMarks) (rest : Text) :
    linkAll links (mark ++ '[' :: rest) = mark ++ '[' :: linkAll links rest := by
  have unmarked : markedWord? (mark ++ '[' :: rest) = none := by
    rw [markedWord?_eq_none_iff]
    rintro other otherListed c letter ⟨behind, equal⟩
    have front : other ++ c :: behind = mark ++ '[' :: rest := by simpa using equal
    have same := mark_eq_of_append_eq listed otherListed front.symm (by decide) letter
    rw [same] at front
    obtain ⟨rfl, -⟩ := List.cons.inj (List.append_cancel_left front)
    exact absurd letter (by decide)
  obtain ⟨c, more, rfl, -, quiet⟩ := exists_mark_cons listed
  have copied : linkAll links (more ++ ['['] ++ rest) = more ++ ['['] ++ linkAll links rest :=
    linkAll_quiet (by simp [quiet, startsMark]) rest
  rw [List.cons_append] at unmarked ⊢
  rw [linkAll_unmarked unmarked]
  simpa using copied

/-- Linking with two maps one after the other is linking with both at once, the first
of them counting first. The induction is on the text. A marked word that the first
map links has a bracket before it from then on, and its link is copied by the second
pass. -/
theorem linkAll_linkAll {first : Keyed Text}
    (quiet : ∀ entry ∈ first, entry.2.any startsMark = false) (second : Keyed Text) (s : Text) :
    linkAll second (linkAll first s) = linkAll (first ++ second) s := by
  induction width : s.length using Nat.strongRecOn generalizing s with
  | ind n inductionHypothesis =>
    rcases marked_cases s with rfl | ⟨c, rest, rfl, unmarked⟩ |
      ⟨mark, word, rest, rfl, listed, isName, ended⟩
    · simp only [linkAll]
    · have onward := inductionHypothesis rest.length (by simp [← width]) rest rfl
      rw [linkAll_unmarked unmarked, linkAll_unmarked (markedWord?_linkAll unmarked),
        linkAll_unmarked unmarked, onward]
    · have shorter : rest.length < n := by
        have nonempty := List.length_pos_iff.mpr isName.nonempty
        simp only [List.length_append] at width
        omega
      have onward := inductionHypothesis rest.length shorter rest rfl
      rw [linkAll_marked listed isName ended, linkAll_marked listed isName ended, ← onward]
      cases found : Keyed.find? word first with
      | some target =>
        have targetQuiet := quiet _ (Keyed.mem_of_find? found)
        have both : linkedWord (first ++ second) word = link word target := by
          rw [linkedWord, Keyed.find?_append_of_found found]
        have one : linkedWord first word = link word target := by rw [linkedWord, found]
        have copied : linkAll second ((word ++ "](".toList ++ target ++ [')']) ++
            linkAll first rest) =
            (word ++ "](".toList ++ target ++ [')']) ++ linkAll second (linkAll first rest) :=
          linkAll_quiet (by simp [isName.startsNoMark, targetQuiet, startsMark]) _
        rw [both, one, link, List.append_assoc]
        simp only [List.cons_append] at copied ⊢
        rw [linkAll_mark_bracket listed, copied]
        simp
      | none =>
        have both : linkedWord (first ++ second) word = linkedWord second word := by
          rw [linkedWord, linkedWord, Keyed.find?_append_of_absent found]
        have one : linkedWord first word = word := by rw [linkedWord, found]
        have stillEnded : (linkAll first rest).head?.any isIdentifierChar = false := by
          rwa [head?_linkAll]
        rw [both, one, linkAll_marked listed isName stillEnded]

/-- Without targets nothing is linked. -/
theorem linkAll_nil (s : Text) : linkAll [] s = s := by
  induction width : s.length using Nat.strongRecOn generalizing s with
  | ind n inductionHypothesis =>
    rcases marked_cases s with rfl | ⟨c, rest, rfl, unmarked⟩ |
      ⟨mark, word, rest, rfl, listed, isName, ended⟩
    · rw [linkAll]
    · rw [linkAll_unmarked unmarked,
        inductionHypothesis rest.length (by simp [← width]) rest rfl]
    · have shorter : rest.length < n := by
        have nonempty := List.length_pos_iff.mpr isName.nonempty
        simp only [List.length_append] at width
        omega
      rw [linkAll_marked listed isName ended, inductionHypothesis rest.length shorter rest rfl]
      rfl

/-- Maps that give every word the same target link the same text. -/
theorem linkAll_congr {others : Keyed Text}
    (same : ∀ word, Keyed.find? word links = Keyed.find? word others) (s : Text) :
    linkAll links s = linkAll others s := by
  have words : ∀ word, linkedWord links word = linkedWord others word := by
    intro word
    rw [linkedWord, linkedWord, same]
  fun_induction linkAll links s with
  | case1 => rw [linkAll]
  | case2 c rest mark word found inductionHypothesis =>
    rw [linkAll, found]
    simp only
    rw [words, inductionHypothesis]
  | case3 c rest found inductionHypothesis => rw [linkAll_unmarked found, inductionHypothesis]

/-- A marked word at the front of a text does not reach a later mark. -/
theorem markedWord?_append {front rest : Text} {c : Char} (starts : startsMark c = true)
    (nonempty : front ≠ []) : markedWord? (front ++ c :: rest) = markedWord? front := by
  refine Option.ext fun found => ?_
  obtain ⟨mark, word⟩ := found
  rw [markedWord?_eq_some_iff, markedWord?_eq_some_iff]
  refine and_congr_right fun listed => and_congr_right fun isName => ?_
  constructor
  · rintro ⟨behind, equal, ended⟩
    rcases List.append_eq_append_iff.mp equal with ⟨inside, reached, kept⟩ | ⟨inside, kept, rfl⟩
    · cases inside with
      | nil => exact ⟨[], by simpa using reached.symm, rfl⟩
      | cons d more =>
        -- The later mark would start inside of the marked word.
        obtain ⟨rfl, -⟩ := List.cons.inj kept
        obtain ⟨e, others, rfl, -, quiet⟩ := exists_mark_cons listed
        obtain ⟨f, ahead, rfl⟩ := List.exists_cons_of_ne_nil nonempty
        have tail : others ++ word = ahead ++ c :: more := (List.cons.inj reached).2
        have none : (others ++ word).any startsMark = false := by
          simp [quiet, isName.startsNoMark]
        rw [tail] at none
        simp [starts] at none
    · refine ⟨inside, kept, ?_⟩
      cases inside with
      | nil => rfl
      | cons d more => simpa using ended
  · rintro ⟨behind, rfl, ended⟩
    refine ⟨behind ++ c :: rest, by simp, ?_⟩
    cases behind with
    | nil => simp [isIdentifierChar_of_startsMark starts]
    | cons d more => simpa using ended

/-- A text is linked in front of a mark by itself. -/
theorem linkAll_append {rest : Text} {c : Char} (starts : startsMark c = true) (front : Text) :
    linkAll links (front ++ c :: rest) = linkAll links front ++ linkAll links (c :: rest) := by
  induction width : front.length using Nat.strongRecOn generalizing front with
  | ind n inductionHypothesis =>
    rcases marked_cases front with rfl | ⟨d, others, rfl, unmarked⟩ |
      ⟨mark, word, others, rfl, listed, isName, ended⟩
    · rw [linkAll, List.nil_append, List.nil_append]
    · have onward := inductionHypothesis others.length (by simp [← width]) others rfl
      have still : markedWord? (d :: (others ++ c :: rest)) = none := by
        rw [← List.cons_append, markedWord?_append starts (List.cons_ne_nil d others), unmarked]
      rw [List.cons_append, linkAll_unmarked still, linkAll_unmarked unmarked, onward,
        List.cons_append]
    · have shorter : others.length < n := by
        have nonempty := List.length_pos_iff.mpr isName.nonempty
        simp only [List.length_append] at width
        omega
      have onward := inductionHypothesis others.length shorter others rfl
      have stillEnded : (others ++ c :: rest).head?.any isIdentifierChar = false := by
        cases others with
        | nil => simp [isIdentifierChar_of_startsMark starts]
        | cons d more => simpa using ended
      rw [List.append_assoc _ others, linkAll_marked listed isName stillEnded,
        linkAll_marked listed isName ended, onward, List.append_assoc _ (linkAll links others)]

end Pass

/-- No mark starts at a character that starts none. -/
theorem head?_ne_of_quiet {quiet : Text} (unmarked : quiet.any startsMark = false) :
    ∀ c ∈ quiet, ∀ mark ∈ typeMarks, mark.head? ≠ some c := by
  rintro c member mark listed first
  obtain ⟨d, more, rfl, started, -⟩ := exists_mark_cons listed
  have equal : d = c := Option.some.inj first
  rw [List.any_eq_false] at unmarked
  exact unmarked c member (equal ▸ started)

/-- A class name is linked where it is the word behind a mark. -/
theorem IsClassName.markBefore?_eq_some_iff {name s mark : Text} (isName : IsClassName name) :
    markBefore? name s = some mark ↔ markedWord? s = some (mark, name) := by
  have word : ∀ other, markBefore? name s = some other → markedWord? s = some (other, name) := by
    intro other found
    rw [markBefore?_eq] at found
    have marked := List.find?_some found
    obtain ⟨rest, equal, ended⟩ := isMarked_iff.mp marked
    exact markedWord?_eq_some_iff.mpr
      ⟨List.mem_of_find?_eq_some found, isName, rest, equal, ended⟩
  refine ⟨word mark, fun found => ?_⟩
  obtain ⟨listed, -, rest, equal, ended⟩ := markedWord?_eq_some_iff.mp found
  cases first : markBefore? name s with
  | none =>
    rw [markBefore?_eq, List.find?_eq_none] at first
    exact absurd (isMarked_iff.mpr ⟨rest, equal, ended⟩) (first mark listed)
  | some other =>
    have same := (word other first).symm.trans found
    rw [(Prod.mk.inj (Option.some.inj same)).1]

/-- Linking one class name is linking with the map that holds it alone. -/
theorem IsClassName.linkName_eq_linkAll {name : Text} (isName : IsClassName name)
    (target s : Text) : linkName name target s = linkAll [(name, target)] s := by
  fun_induction linkAll [(name, target)] s with
  | case1 => rw [linkName]
  | case2 c rest mark word found inductionHypothesis =>
    obtain ⟨listed, isWord, behind, equal, ended⟩ := markedWord?_eq_some_iff.mp found
    by_cases same : name = word
    · subst same
      have here := isName.markBefore?_eq_some_iff.mpr found
      have linked : linkedWord [(name, target)] name = link name target := by
        simp [linkedWord, Keyed.find?]
      rw [linkName, here, linked]
      simp only
      rw [inductionHypothesis]
    · have here : markBefore? name (c :: rest) = none := by
        cases first : markBefore? name (c :: rest) with
        | none => rfl
        | some other =>
          have two := (isName.markBefore?_eq_some_iff.mp first).symm.trans found
          exact absurd (Prod.mk.inj (Option.some.inj two)).2 same
      have unlinked : linkedWord [(name, target)] word = word := by
        simp [linkedWord, Keyed.find?, same]
      obtain ⟨d, more, rfl, -, quiet⟩ := exists_mark_cons listed
      obtain ⟨rfl, rfl⟩ : c = d ∧ rest = more ++ word ++ behind := by
        simpa using equal
      have copied : linkName name target ((more ++ word) ++ behind) =
          (more ++ word) ++ linkName name target behind := by
        refine linkName_quiet target (head?_ne_of_quiet ?_) behind
        simp [quiet, isWord.startsNoMark]
      have width : (c :: more).length + word.length - 1 = (more ++ word).length := by
        simp only [List.length_cons, List.length_append]
        omega
      rw [width, List.drop_left] at inductionHypothesis ⊢
      rw [linkName, here, unlinked, ← inductionHypothesis]
      simp only
      rw [copied]
      simp
  | case3 c rest found inductionHypothesis =>
    have here : markBefore? name (c :: rest) = none := by
      cases first : markBefore? name (c :: rest) with
      | none => rfl
      | some mark =>
        rw [isName.markBefore?_eq_some_iff.mp first] at found
        cases found
    rw [linkName, here]
    simp only
    rw [inductionHypothesis]

/-- Linking class names one after the other is linking them at once. -/
theorem linkInOrder_eq_linkAll {entries : List (Text × Text)}
    (named : ∀ entry ∈ entries, IsClassName entry.1)
    (quiet : ∀ entry ∈ entries, entry.2.any startsMark = false) (s : Text) :
    linkInOrder entries s = linkAll entries s := by
  induction entries generalizing s with
  | nil => exact (linkAll_nil s).symm
  | cons entry rest inductionHypothesis =>
    obtain ⟨isName, othersNamed⟩ := List.forall_mem_cons.mp named
    obtain ⟨entryQuiet, othersQuiet⟩ := List.forall_mem_cons.mp quiet
    have onward := inductionHypothesis othersNamed othersQuiet (linkName entry.1 entry.2 s)
    rw [linkInOrder_cons, onward, isName.linkName_eq_linkAll,
      linkAll_linkAll (List.forall_mem_singleton.mpr entryQuiet) rest s, List.singleton_append]

/-- Linking a name makes no text shorter. -/
theorem length_le_linkName (name target s : Text) : s.length ≤ (linkName name target s).length := by
  induction width : s.length using Nat.strongRecOn generalizing s with
  | ind n inductionHypothesis =>
    cases s with
    | nil => simp [← width]
    | cons c rest =>
      rw [linkName]
      cases found : markBefore? name (c :: rest) with
      | none =>
        have onward := inductionHypothesis rest.length (by simp [← width]) rest rfl
        simp only [← width, List.length_cons]
        omega
      | some mark =>
        have shorter : (rest.drop (mark.length + name.length - 1)).length < n := by
          simp only [← width, List.length_drop, List.length_cons]
          omega
        have onward := inductionHypothesis _ shorter _ rfl
        simp only [link, ← width, List.length_drop, List.length_append,
          List.length_cons] at onward ⊢
        omega

/-- A name that is linked somewhere makes the text longer. -/
theorem length_lt_of_hits {name s : Text} (target : Text) (hits : Hits name s) :
    s.length < (linkName name target s).length := by
  induction s with
  | nil => exact absurd hits (not_hits_nil name)
  | cons c rest inductionHypothesis =>
    rw [linkName]
    cases found : markBefore? name (c :: rest) with
    | none =>
      have later : Hits name rest := by
        rcases hits_cons.mp hits with here | later
        · rw [found] at here
          cases here
        · exact later
      have onward := inductionHypothesis later
      simp only [List.length_cons]
      omega
    | some mark =>
      have onward := length_le_linkName name target (rest.drop (mark.length + name.length - 1))
      simp only [link, List.length_drop, List.length_append, List.length_cons] at onward ⊢
      omega

/-- What linking the names of a map one after the other comes to. -/
structure LinksAtOnce (links : Keyed Text) (s : Text) : Prop where
  /-- It is one pass that links the words behind marks. -/
  simultaneous : linkNames links s = linkAll links s
  /-- At every place at most one name stands behind a mark and does not go on. -/
  unique : ∀ entry ∈ links, ∀ other ∈ links, ∀ t, (markBefore? entry.1 t).isSome = true →
    (markBefore? other.1 t).isSome = true → entry = other
  /-- The order of the map makes no difference. -/
  unordered : ∀ others, others.Perm links → linkNames others s = linkNames links s
  /-- A word behind a mark is linked as a whole and once, or not at all, whatever stands
  around it. -/
  whole : ∀ front mark word behind, mark ∈ typeMarks → IsClassName word →
    behind.head?.any isIdentifierChar = false →
    linkNames links (front ++ mark ++ word ++ behind) =
      linkNames links front ++ mark ++ linkedWord links word ++ linkNames links behind
  /-- No name is left that could be linked. -/
  settled : ∀ entry ∈ links, ¬Hits entry.1 (linkNames links s)
  /-- Linking the names again changes nothing. -/
  idempotent : linkNames links (linkNames links s) = linkNames links s

/-- Linking the names of a map one after the other is linking them at once, whenever no
mark can start in a target. -/
theorem IsLinkMap.linksAtOnce {links : Keyed Text} (isMap : IsLinkMap links) (s : Text) :
    LinksAtOnce links s := by
  have quiet : ∀ entry ∈ links, entry.2.any startsMark = false := fun entry member =>
    any_startsMark (isMap.quiet entry member).1 (isMap.quiet entry member).2
  have inAnyOrder : ∀ others, others.Perm links → ∀ t,
      linkInOrder others t = linkAll links t := by
    intro others same t
    rw [linkInOrder_eq_linkAll (fun entry member => isMap.named entry (same.mem_iff.mp member))
      (fun entry member => quiet entry (same.mem_iff.mp member))]
    exact linkAll_congr (Keyed.find?_of_perm isMap.distinct same) t
  have simultaneous : ∀ t, linkNames links t = linkAll links t :=
    inAnyOrder _ (List.mergeSort_perm links goesFirst)
  have again : ∀ t, linkAll links (linkAll links t) = linkAll links t := by
    intro t
    rw [linkAll_linkAll quiet]
    refine linkAll_congr (fun word => ?_) t
    cases found : Keyed.find? word links with
    | none => rw [Keyed.find?_append_of_absent found, found]
    | some target => exact Keyed.find?_append_of_found found _
  exact {
    simultaneous := simultaneous s
    unique := by
      intro entry member other otherMember t found otherFound
      obtain ⟨mark, here⟩ := Option.isSome_iff_exists.mp found
      obtain ⟨otherMark, there⟩ := Option.isSome_iff_exists.mp otherFound
      have one := (isMap.named entry member).markBefore?_eq_some_iff.mp here
      have two := (isMap.named other otherMember).markBefore?_eq_some_iff.mp there
      have names : entry.1 = other.1 := (Prod.mk.inj (Option.some.inj (one.symm.trans two))).2
      have first := Keyed.find?_of_mem isMap.distinct member
      have second := Keyed.find?_of_mem isMap.distinct otherMember
      rw [names, second] at first
      exact Prod.ext names (Option.some.inj first).symm
    unordered := by
      intro others same
      rw [simultaneous]
      exact inAnyOrder _ ((List.mergeSort_perm others goesFirst).trans same) s
    whole := by
      intro front mark word behind listed isName ended
      obtain ⟨c, more, rfl, starts, -⟩ := exists_mark_cons listed
      have marked : linkAll links (c :: more ++ word ++ behind) = _ :=
        linkAll_marked listed isName ended
      rw [simultaneous, simultaneous, simultaneous, List.append_assoc, List.append_assoc,
        List.cons_append, linkAll_append starts, ← List.cons_append, ← List.append_assoc, marked]
      simp only [List.append_assoc]
    settled := by
      intro entry member hits
      have unchanged : linkName entry.1 entry.2 (linkNames links s) = linkNames links s := by
        rw [simultaneous, (isMap.named entry member).linkName_eq_linkAll, linkAll_linkAll quiet]
        refine linkAll_congr (fun word => ?_) s
        cases found : Keyed.find? word links with
        | some target => exact Keyed.find?_append_of_found found _
        | none =>
          have other : entry.1 ≠ word := by
            rintro rfl
            rw [Keyed.find?_of_mem isMap.distinct member] at found
            cases found
          rw [Keyed.find?_append_of_absent found]
          simp [Keyed.find?, other]
      have longer := length_lt_of_hits entry.2 hits
      rw [unchanged] at longer
      exact Nat.lt_irrefl _ longer
    idempotent := by rw [simultaneous, simultaneous, again] }

/-- Names of which some start others, with the anchors of their types. -/
def overlappingNames : Keyed Text :=
  [("Foo", "#class-foo"), ("Acme\\Foo", "#class-acme-foo"), ("FooBar", "#class-foobar"),
    ("Acme", "#class-acme")].map fun entry => (entry.1.toList, entry.2.toList)

/-- Names that start others are linked at once. -/
theorem overlappingNames_linksAtOnce :
    IsLinkMap overlappingNames ∧
      LinksAtOnce overlappingNames "<em>?FooBar/Foo</em>/Acme\\Foo/Acme\\Other".toList := by
  have isMap : IsLinkMap overlappingNames := {
    distinct := by decide
    named := by
      have checked : ∀ entry ∈ overlappingNames,
          entry.1 ≠ [] ∧ entry.1.all isIdentifierChar = true := by decide
      intro entry member
      exact ⟨(checked entry member).1, List.all_eq_true.mp (checked entry member).2⟩
    quiet := by decide }
  exact ⟨isMap, isMap.linksAtOnce _⟩

/-- A name that starts a longer one is linked only where it is the whole word. -/
example :
    linkAll overlappingNames "<em>?FooBar/Foo</em>/Acme\\Other".toList =
      "<em>?[FooBar](#class-foobar)/[Foo](#class-foo)</em>/Acme\\Other".toList := by
  decide +kernel

end Docblock.Document
