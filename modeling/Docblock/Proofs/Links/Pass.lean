import Docblock.Document.Links
import Docblock.Proofs.Links.Lines

/-!
# Linking one name

A name is linked where it follows a mark and does not go on. What is linked at
a place is decided by the characters up to one behind the name, so a text whose
ends no name can cover is linked independently of what stands behind it. Lines
are such texts for names without line feeds.
-/

namespace Docblock.Document

/-- Whether a mark and a name stand at the front of a text and the name does not go
on. -/
def isMarked (mark name s : Text) : Bool :=
  (mark ++ name).isPrefixOf s &&
    !((s.drop (mark.length + name.length)).head?.any isIdentifierChar)

/-- The mark before a name is the first with which the name stands at the front. -/
theorem markBefore?_eq (name s : Text) :
    markBefore? name s = typeMarks.find? fun mark => isMarked mark name s := rfl

/-- What stands behind a marked name. -/
theorem isMarked_iff {mark name s : Text} :
    isMarked mark name s = true ↔
      ∃ rest, s = mark ++ name ++ rest ∧ rest.head?.any isIdentifierChar = false := by
  rw [isMarked, Bool.and_eq_true, List.isPrefixOf_iff_prefix, Bool.not_eq_true']
  constructor
  · rintro ⟨⟨rest, rfl⟩, ended⟩
    rw [← List.length_append, List.drop_left] at ended
    exact ⟨rest, rfl, ended⟩
  · rintro ⟨rest, rfl, ended⟩
    rw [← List.length_append, List.drop_left]
    exact ⟨List.prefix_append _ rest, ended⟩

/-- Texts at whose front the same marks and the name stand have the same mark. -/
theorem markBefore?_congr {name s t : Text}
    (same : ∀ mark ∈ typeMarks, isMarked mark name s = isMarked mark name t) :
    markBefore? name s = markBefore? name t := by
  rw [markBefore?_eq, markBefore?_eq]
  revert same
  generalize typeMarks = marks
  intro same
  induction marks with
  | nil => rfl
  | cons mark rest inductionHypothesis =>
    have first := same mark List.mem_cons_self
    have onward := inductionHypothesis fun other member =>
      same other (List.mem_cons_of_mem mark member)
    rw [List.find?_cons, List.find?_cons, first, onward]

/-- Nothing stands before a name in an empty text. -/
theorem markBefore?_nil (name : Text) : markBefore? name [] = none := by
  rw [markBefore?_eq, List.find?_eq_none]
  intro mark member marked
  obtain ⟨rest, equal, -⟩ := isMarked_iff.mp marked
  have empty : mark = [] := by simp_all
  rw [empty] at member
  exact absurd member (by decide)

/-- Whether a name is linked somewhere in a text. -/
def Hits (name s : Text) : Prop := ∃ tail, tail <:+ s ∧ (markBefore? name tail).isSome = true

/-- A text in which a name is not linked stays. -/
theorem linkName_of_not_hits {name s : Text} (target : Text) (free : ¬Hits name s) :
    linkName name target s = s := by
  induction s with
  | nil => rw [linkName]
  | cons c rest inductionHypothesis =>
    have here : markBefore? name (c :: rest) = none := by
      cases found : markBefore? name (c :: rest) with
      | none => rfl
      | some mark => exact absurd ⟨c :: rest, List.suffix_refl _, by rw [found]; rfl⟩ free
    have onward : ¬Hits name rest := by
      rintro ⟨tail, suffix, found⟩
      exact free ⟨tail, suffix.trans (List.suffix_cons c rest), found⟩
    rw [linkName, here]
    simp only
    rw [inductionHypothesis onward]

/-- A text in which a name is linked gets a square bracket. -/
theorem bracket_of_hits {name s : Text} (target : Text) (hits : Hits name s) :
    '[' ∈ linkName name target s := by
  induction s with
  | nil =>
    obtain ⟨tail, suffix, found⟩ := hits
    rw [List.suffix_nil.mp suffix, markBefore?_nil] at found
    cases found
  | cons c rest inductionHypothesis =>
    rw [linkName]
    cases here : markBefore? name (c :: rest) with
    | some mark => simp [link]
    | none =>
      obtain ⟨tail, suffix, found⟩ := hits
      have later : tail <:+ rest := by
        rcases List.suffix_cons_iff.mp suffix with rfl | later
        · rw [here] at found
          cases found
        · exact later
      exact List.mem_cons_of_mem c (inductionHypothesis ⟨tail, later, found⟩)

/-- A text keeps its square brackets. -/
theorem bracket_linkName {name s : Text} (target : Text) (member : '[' ∈ s) :
    '[' ∈ linkName name target s := by
  by_cases hits : Hits name s
  · exact bracket_of_hits target hits
  · rwa [linkName_of_not_hits target hits]

/-- Where the linked text has no square bracket, nothing was linked. -/
theorem linkName_of_no_bracket {name target s : Text} (plain : '[' ∉ linkName name target s) :
    ¬Hits name s ∧ linkName name target s = s := by
  have free : ¬Hits name s := fun hits => plain (bracket_of_hits target hits)
  exact ⟨free, linkName_of_not_hits target free⟩

/-- A mark and a name at the front of a text lie within it. -/
theorem length_le_of_markBefore? {name s mark : Text}
    (found : markBefore? name s = some mark) : mark.length + name.length ≤ s.length := by
  rw [markBefore?_eq] at found
  have marked := List.find?_some found
  obtain ⟨rest, equal, -⟩ := isMarked_iff.mp marked
  rw [equal]
  simp only [List.length_append]
  omega

/-- Nothing is linked in a text whose characters start no mark. -/
theorem linkName_quiet {name quiet : Text} (target : Text)
    (unmarked : ∀ c ∈ quiet, ∀ mark ∈ typeMarks, mark.head? ≠ some c) (behind : Text) :
    linkName name target (quiet ++ behind) = quiet ++ linkName name target behind := by
  induction quiet with
  | nil => rfl
  | cons c rest inductionHypothesis =>
    have here : markBefore? name (c :: (rest ++ behind)) = none := by
      rw [markBefore?_eq, List.find?_eq_none]
      intro mark member marked
      obtain ⟨others, equal, -⟩ := isMarked_iff.mp marked
      have nonempty : ∀ other ∈ typeMarks, other ≠ [] := by decide
      obtain ⟨d, more, front⟩ := List.exists_cons_of_ne_nil (nonempty mark member)
      rw [front, List.cons_append, List.cons_append] at equal
      refine unmarked c List.mem_cons_self mark member ?_
      rw [front, (List.cons.inj equal).1]
      rfl
    have onward := inductionHypothesis fun d member => unmarked d (List.mem_cons_of_mem c member)
    rw [List.cons_append, linkName, here]
    simp only
    rw [onward, List.cons_append]

/-- A link is set behind its mark, so a text keeps its first character. -/
theorem head?_linkName (name target s : Text) : (linkName name target s).head? = s.head? := by
  cases s with
  | nil => rw [linkName]
  | cons c rest =>
    rw [linkName]
    cases found : markBefore? name (c :: rest) with
    | none => rfl
    | some mark =>
      rw [markBefore?_eq] at found
      have marked := List.find?_some found
      have nonempty : ∀ other ∈ typeMarks, other ≠ [] := by decide
      obtain ⟨d, more, rfl⟩ :=
        List.exists_cons_of_ne_nil (nonempty mark (List.mem_of_find?_eq_some found))
      obtain ⟨others, equal, -⟩ := isMarked_iff.mp marked
      rw [(List.cons.inj equal).1]
      rfl

/-- A text that no occurrence of a name reaches from the front: a mark and the name
that stand in front of it end there. A name does not go on with its first
character, and none of its characters starts a mark. -/
structure IsFence (name fence : Text) : Prop where
  inside : ∀ mark ∈ typeMarks, ∀ front behind, mark ++ name <+: front ++ fence ++ behind →
    mark.length + name.length ≤ front.length
  opened : ∃ c more, fence = c :: more ∧ isIdentifierChar c = false
  quiet : ∀ c ∈ fence, ∀ mark ∈ typeMarks, mark.head? ≠ some c

namespace IsFence

variable {name fence : Text}

/-- In front of a fence a name is found as if the fence ended the text. -/
theorem markBefore?_eq (isFence : IsFence name fence) (front behind : Text) :
    markBefore? name (front ++ fence ++ behind) = markBefore? name front := by
  obtain ⟨c, more, split, stops⟩ := isFence.opened
  refine markBefore?_congr fun mark member => ?_
  rw [Bool.eq_iff_iff, isMarked_iff, isMarked_iff]
  constructor
  · rintro ⟨rest, equal, ended⟩
    have bound := isFence.inside mark member front behind ⟨rest, equal.symm⟩
    rw [List.append_assoc] at equal
    rcases List.append_eq_append_iff.mp equal with ⟨others, covered, -⟩ | ⟨others, kept, rfl⟩
    · have width := congrArg List.length covered
      simp only [List.length_append] at width
      have nothing : others = [] := List.length_eq_zero_iff.mp (by omega)
      exact ⟨[], by rw [covered, nothing]; simp, rfl⟩
    · refine ⟨others, kept, ?_⟩
      cases others with
      | nil => rfl
      | cons d others => simpa using ended
  · rintro ⟨rest, rfl, ended⟩
    refine ⟨rest ++ (fence ++ behind), by simp, ?_⟩
    cases rest with
    | nil => simp [split, stops]
    | cons d others => simpa using ended

/-- The texts on both sides of a fence are linked independently. -/
theorem linkName_append (isFence : IsFence name fence) (target front behind : Text) :
    linkName name target (front ++ fence ++ behind) =
      linkName name target front ++ fence ++ linkName name target behind := by
  induction width : front.length using Nat.strongRecOn generalizing front with
  | ind n inductionHypothesis =>
    cases front with
    | nil =>
      rw [List.nil_append, linkName_quiet target isFence.quiet]
      simp [linkName]
    | cons c rest =>
      have same := isFence.markBefore?_eq (c :: rest) behind
      rw [List.cons_append, List.cons_append] at same ⊢
      rw [linkName, linkName, same]
      cases found : markBefore? name (c :: rest) with
      | none =>
        have onward := inductionHypothesis rest.length (by simp [← width]) rest rfl
        simp only
        rw [onward]
        simp only [List.cons_append]
      | some mark =>
        have inside := length_le_of_markBefore? found
        have consumed : mark.length + name.length - 1 ≤ rest.length := by
          rw [List.length_cons] at inside
          omega
        have onward := inductionHypothesis
          (rest.drop (mark.length + name.length - 1)).length
          (by simp only [← width, List.length_drop, List.length_cons]; omega) _ rfl
        simp only
        rw [List.append_assoc rest, List.drop_append_of_le_length consumed, ← List.append_assoc,
          onward]
        simp only [List.append_assoc]

end IsFence

/-- A text at the front of two others that is longer than the first of them reaches
into the second. -/
theorem exists_append_of_prefix {α : Type} {reaching front behind : List α}
    (start : reaching <+: front ++ behind) (longer : front.length < reaching.length) :
    ∃ c more, reaching = front ++ c :: more ∧ c :: more <+: behind := by
  obtain ⟨rest, equal⟩ := start
  rcases List.append_eq_append_iff.mp equal with ⟨others, kept, -⟩ | ⟨others, kept, reached⟩
  · rw [kept, List.length_append] at longer
    omega
  · cases others with
    | nil =>
      rw [kept, List.append_nil] at longer
      omega
    | cons c more => exact ⟨c, more, kept, rest, reached.symm⟩

/-- A character that no type name goes on with, that no mark holds and that a name
does not hold is a fence for the name. -/
theorem isFence_singleton {name : Text} {c : Char} (stops : isIdentifierChar c = false)
    (unmarked : ∀ mark ∈ typeMarks, c ∉ mark) (absent : c ∉ name) : IsFence name [c] where
  inside := by
    intro mark member front behind start
    rw [List.append_assoc] at start
    rw [← List.length_append]
    refine Nat.le_of_not_lt fun longer => ?_
    obtain ⟨d, more, equal, reached⟩ := exists_append_of_prefix start longer
    have same : d = c := (List.cons_prefix_cons.mp reached).1
    have inside : c ∈ mark ++ name := by simp [equal, same]
    rcases List.mem_append.mp inside with inMark | inName
    · exact unmarked mark member inMark
    · exact absent inName
  opened := ⟨c, [], rfl, stops⟩
  quiet := by
    intro d member mark listed start
    rw [List.mem_singleton.mp member] at start
    exact unmarked mark listed (List.mem_of_head? start)

/-- The characters of a linked text are those of the text and of the link. -/
theorem mem_linkName {name target s : Text} {d : Char} (member : d ∈ linkName name target s) :
    d ∈ s ∨ d ∈ link name target := by
  induction width : s.length using Nat.strongRecOn generalizing s with
  | ind n inductionHypothesis =>
    cases s with
    | nil =>
      rw [linkName] at member
      cases member
    | cons c rest =>
      rw [linkName] at member
      cases found : markBefore? name (c :: rest) with
      | none =>
        simp only [found, List.mem_cons] at member
        rcases member with rfl | later
        · exact .inl List.mem_cons_self
        · rcases inductionHypothesis rest.length (by simp [← width]) later rfl with inside | new
          · exact .inl (List.mem_cons_of_mem c inside)
          · exact .inr new
      | some mark =>
        simp only [found, List.mem_append] at member
        rcases member with (inMark | new) | later
        · rw [markBefore?_eq] at found
          have marked := List.find?_some found
          obtain ⟨behind, equal, -⟩ := isMarked_iff.mp marked
          rw [equal]
          exact .inl (List.mem_append_left _ (List.mem_append_left _ inMark))
        · exact .inr new
        · have shorter : (rest.drop (mark.length + name.length - 1)).length < n := by
            simp only [← width, List.length_drop, List.length_cons]
            omega
          rcases inductionHypothesis _ shorter later rfl with inside | new
          · exact .inl (List.mem_cons_of_mem c (List.mem_of_mem_drop inside))
          · exact .inr new

/-- A text is linked line by line when neither the name nor its target holds a line
feed. -/
theorem splitOn_linkName {name target : Text} (unbroken : '\n' ∉ name) (straight : '\n' ∉ target)
    (s : Text) :
    Text.splitOn '\n' (linkName name target s) =
      (Text.splitOn '\n' s).map (linkName name target) := by
  have isFence : IsFence name ['\n'] := isFence_singleton (by decide) (by decide) unbroken
  have unlinked : ∀ line, '\n' ∉ line → '\n' ∉ linkName name target line := by
    intro line unbrokenLine member
    rcases mem_linkName member with inside | new
    · exact unbrokenLine inside
    · simp [link, unbroken, straight] at new
  have single : ∀ line, '\n' ∉ line → Text.splitOn '\n' (linkName name target line) =
      (Text.splitOn '\n' line).map (linkName name target) := by
    intro line unbrokenLine
    rw [Text.splitOn_of_notMem unbrokenLine, Text.splitOn_of_notMem (unlinked line unbrokenLine)]
    rfl
  induction width : s.length using Nat.strongRecOn generalizing s with
  | ind n inductionHypothesis =>
    by_cases broken : '\n' ∈ s
    · obtain ⟨line, rest, split, first⟩ := List.eq_append_cons_of_mem broken
      have shorter : rest.length < n := by
        rw [← width, split, List.length_append, List.length_cons]
        omega
      have regrouped : s = line ++ ['\n'] ++ rest := by simp [split]
      have linked : linkName name target s =
          linkName name target line ++ '\n' :: linkName name target rest := by
        rw [regrouped, isFence.linkName_append]
        simp
      rw [linked, split, Text.splitOn_append_cons, Text.splitOn_append_cons, List.map_append,
        single line first, inductionHypothesis rest.length shorter rest rfl]
    · exact single s broken

end Docblock.Document
