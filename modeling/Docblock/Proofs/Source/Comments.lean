import Docblock.Proofs.Source.Tiling
import Docblock.Source.Reader

/-!
# Where block comments end

A block comment opens with a slash and a star and goes up to a star and a slash. The end
is looked for behind the opening, so it begins at the third character at the earliest. A
documentation comment opens with one star more, and its end begins at the fourth
character at the earliest.

The two rules are tried in this order, and both match where a comment of four characters
has nothing inside. Its second star is then part of the opening of a documentation
comment, which goes up to an end further on, if there is one, and takes the code up to
there with it. This is the only case in which a block comment does not end at the first
end behind its opening.
-/

namespace Docblock.Source

/-- The end of a block comment stands at an offset. -/
def EndsAt (text : Text) (offset : Nat) : Prop := ['*', '/'] <+: text.drop offset

instance (text : Text) (offset : Nat) : Decidable (EndsAt text offset) :=
  inferInstanceAs (Decidable (['*', '/'] <+: text.drop offset))

/-- Of all offsets from one on, the end of a block comment stands at this one first. -/
structure IsFirstEnd (text : Text) (start offset : Nat) : Prop where
  behind : start ≤ offset
  ends : EndsAt text offset
  first : ∀ earlier < offset, start ≤ earlier → ¬EndsAt text earlier

instance (text : Text) (start offset : Nat) : Decidable (IsFirstEnd text start offset) :=
  decidable_of_iff
    (start ≤ offset ∧ EndsAt text offset ∧
      ∀ earlier < offset, start ≤ earlier → ¬EndsAt text earlier)
    ⟨fun ⟨behind, ends, first⟩ => ⟨behind, ends, first⟩,
      fun ⟨behind, ends, first⟩ => ⟨behind, ends, first⟩⟩

/-- A piece that is a comment and opens with a slash and a star. -/
def Token.IsBlockComment (piece : Token) : Prop :=
  (piece.kind = .doc ∨ piece.kind = .comment) ∧ ['/', '*'] <+: piece.text

instance (piece : Token) : Decidable piece.IsBlockComment :=
  inferInstanceAs (Decidable (_ ∧ _))

/-- The comment that has nothing inside. -/
def emptyComment : Text := ['/', '*', '*', '/']

section Occurrences

variable {needle text : Text}

/-- A text that is looked for is found at its first occurrence. -/
theorem lengthThrough_eq_some {length : Nat} (found : lengthThrough needle text = some length) :
    ∃ offset, length = offset + needle.length ∧ needle <+: text.drop offset ∧
      ∀ earlier < offset, ¬needle <+: text.drop earlier := by
  induction text generalizing length with
  | nil =>
    rw [lengthThrough] at found
    split at found
    · rename_i empty
      rw [List.isEmpty_iff.mp empty]
      cases found
      exact ⟨0, rfl, List.nil_prefix, fun earlier before => absurd before (Nat.not_lt_zero _)⟩
    · cases found
  | cons c rest inductionHypothesis =>
    rw [lengthThrough] at found
    split at found
    · rename_i stands
      cases found
      exact ⟨0, (Nat.zero_add _).symm, List.isPrefixOf_iff_prefix.mp stands,
        fun earlier before => absurd before (Nat.not_lt_zero _)⟩
    · rename_i elsewhere
      obtain ⟨further, later, rfl⟩ := Option.map_eq_some_iff.mp found
      obtain ⟨offset, rfl, stands, first⟩ := inductionHypothesis later
      refine ⟨offset + 1, by omega, stands, ?_⟩
      intro earlier before
      cases earlier with
      | zero => exact fun here => elsewhere (List.isPrefixOf_iff_prefix.mpr here)
      | succ earlier => exact first earlier (Nat.lt_of_succ_lt_succ before)

/-- A text that is not found occurs nowhere. -/
theorem not_prefix_drop_of_lengthThrough (nonempty : needle ≠ [])
    (missing : lengthThrough needle text = none) (offset : Nat) :
    ¬needle <+: text.drop offset := by
  induction text generalizing offset with
  | nil =>
    rw [List.drop_nil, List.prefix_nil]
    exact nonempty
  | cons c rest inductionHypothesis =>
    rw [lengthThrough] at missing
    split at missing
    · cases missing
    · rename_i elsewhere
      have later := inductionHypothesis (Option.map_eq_none_iff.mp missing)
      cases offset with
      | zero => exact fun here => elsewhere (List.isPrefixOf_iff_prefix.mpr here)
      | succ offset => exact later offset

end Occurrences

/-- An end that is found behind an opening is the first one there. -/
theorem isFirstEnd_of_delimited {opening text : Text} {length : Nat}
    (measured : delimited opening ['*', '/'] text = some length) :
    opening <+: text ∧ IsFirstEnd text opening.length (length - 2) := by
  rw [delimited] at measured
  split at measured
  · rename_i opened
    obtain ⟨inner, found, rfl⟩ := Option.map_eq_some_iff.mp measured
    obtain ⟨offset, rfl, ends, first⟩ := lengthThrough_eq_some found
    have stop : opening.length + (offset + ['*', '/'].length) - 2 = opening.length + offset := by
      simp only [List.length_cons, List.length_nil]
      omega
    rw [stop]
    rw [List.drop_drop] at ends
    refine ⟨List.isPrefixOf_iff_prefix.mp opened, Nat.le_add_right _ _, ends, ?_⟩
    intro earlier before behind ended
    refine first (earlier - opening.length) (by omega) ?_
    rwa [List.drop_drop, Nat.add_sub_cancel' behind]
  · cases measured

/-- Where no end is found behind an opening, there is none. -/
theorem not_endsAt_of_delimited {opening text : Text} (opened : opening <+: text)
    (unmeasured : delimited opening ['*', '/'] text = none) {offset : Nat}
    (behind : opening.length ≤ offset) : ¬EndsAt text offset := by
  rw [delimited, if_pos (List.isPrefixOf_iff_prefix.mpr opened),
    Option.map_eq_none_iff] at unmeasured
  have missing := not_prefix_drop_of_lengthThrough (List.cons_ne_nil _ _) unmeasured
    (offset - opening.length)
  rwa [List.drop_drop, Nat.add_sub_cancel' behind] at missing

/-- An end in what is left of a source is an end in the source. -/
theorem endsAt_drop {source : Text} {place offset : Nat} :
    EndsAt (source.drop place) offset ↔ EndsAt source (place + offset) := by
  rw [EndsAt, EndsAt, List.drop_drop]

/-- The first end in what is left of a source is the first one from there on. -/
theorem IsFirstEnd.of_drop {source : Text} {place start offset : Nat}
    (isFirst : IsFirstEnd (source.drop place) start offset) :
    IsFirstEnd source (place + start) (place + offset) where
  behind := Nat.add_le_add_left isFirst.behind place
  ends := endsAt_drop.mp isFirst.ends
  first := by
    intro earlier before behind ended
    have inside : place + (earlier - place) = earlier := by omega
    rw [← inside] at ended
    exact isFirst.first (earlier - place) (by omega) (by omega) (endsAt_drop.mpr ended)

/-- An end that is found in what is left of a source is the first one there. -/
theorem isFirstEnd_of_delimited_drop {opening source : Text} {place stop : Nat}
    (nonempty : opening ≠ [])
    (measured : delimited opening ['*', '/'] (source.drop place) = some (stop - place)) :
    opening <+: source.drop place ∧ IsFirstEnd source (place + opening.length) (stop - 2) := by
  obtain ⟨opened, first⟩ := isFirstEnd_of_delimited measured
  have behind := first.behind
  have positive := List.length_pos_of_ne_nil nonempty
  have reached : place + (stop - place - 2) = stop - 2 := by omega
  rw [← reached]
  exact ⟨opened, first.of_drop⟩

/-- A text that is cut off behind its first end still ends there first. -/
theorem IsFirstEnd.take {text : Text} {start offset : Nat}
    (isFirst : IsFirstEnd text start offset) :
    IsFirstEnd (text.take (offset + 2)) start offset where
  behind := isFirst.behind
  ends := by
    obtain ⟨rest, front⟩ := isFirst.ends
    rw [EndsAt, List.drop_take, Nat.add_sub_cancel_left, ← front]
    exact ⟨[], rfl⟩
  first := by
    intro earlier before behind ended
    refine isFirst.first earlier before behind (List.IsPrefix.trans ended ?_)
    rw [List.drop_take]
    exact List.take_prefix _ _

/-- A documentation comment is measured by its rule. -/
theorem docLength_of_measure {text : Text} {length : Nat}
    (measured : measure text = (.doc, length)) : docLength text = some length :=
  rule_of_measure (by simp [rules]) (by decide) measured

/-- A documentation comment as a whole: it opens with two stars and goes up to the first end
from its fourth character on. -/
structure IsDocComment (comment : Text) : Prop where
  opens : ['/', '*', '*'] <+: comment
  ends : IsFirstEnd comment 3 (comment.length - 2)

/-- What is measured as a documentation comment is one as a whole. -/
theorem isDocComment_take {text : Text} {length : Nat} (measured : docLength text = some length) :
    IsDocComment (text.take length) := by
  obtain ⟨opened, first⟩ := isFirstEnd_of_delimited measured
  have reached := (delimited_measures _ (List.cons_ne_nil _ _) _ _ measured).2
  have behind : 3 ≤ length - 2 := first.behind
  constructor
  · exact List.prefix_take_iff.mpr ⟨opened, Nat.le_trans behind (Nat.sub_le _ _)⟩
  · have whole : length = length - 2 + 2 := by omega
    rw [List.length_take_of_le reached]
    conv => arg 1; rw [whole]
    exact first.take

/-- Another comment is measured where no documentation comment is. -/
theorem commentLength_of_measure {text : Text} {length : Nat}
    (measured : measure text = (.comment, length)) :
    docLength text = none ∧ commentLength text = some length := by
  constructor
  · cases documented : docLength text with
    | none => rfl
    | some other => simp [measure, rules, documented] at measured
  · exact rule_of_measure (by simp [rules]) (by decide) measured

/-- A comment that opens with a slash and a star is no comment to the end of a line. -/
theorem delimited_of_commentLength {text : Text} {length : Nat} (opened : ['/', '*'] <+: text)
    (measured : commentLength text = some length) :
    delimited ['/', '*'] ['*', '/'] text = some length := by
  obtain ⟨rest, rfl⟩ := opened
  unfold commentLength at measured
  split at measured
  · rename_i found
    rw [found, measured]
  · simp at measured

section Pieces

variable {source : Text} {piece : Token}

/-- A documentation comment of a source opens with two stars and ends with the first end
from its fourth character on. -/
theorem Token.IsCut.doc_ends (isCut : piece.IsCut source) (doc : piece.kind = .doc) :
    ['/', '*', '*'] <+: source.drop piece.start ∧
      IsFirstEnd source (piece.start + 3) (piece.stop - 2) := by
  have measured := isCut.measured
  rw [doc] at measured
  exact isFirstEnd_of_delimited_drop (List.cons_ne_nil _ _) (docLength_of_measure measured)

/-- A documentation comment of a source is one as a whole. -/
theorem Token.IsCut.isDocComment (isCut : piece.IsCut source) (doc : piece.kind = .doc) :
    IsDocComment piece.text := by
  have measured := isCut.measured
  rw [doc] at measured
  rw [isCut.text]
  exact isDocComment_take (docLength_of_measure measured)

/-- Another block comment of a source stands where no documentation comment does, and ends
with the first end from its third character on. -/
theorem Token.IsCut.comment_ends (isCut : piece.IsCut source) (comment : piece.kind = .comment)
    (block : ['/', '*'] <+: piece.text) :
    docLength (source.drop piece.start) = none ∧
      IsFirstEnd source (piece.start + 2) (piece.stop - 2) := by
  have measured := isCut.measured
  rw [comment] at measured
  obtain ⟨undocumented, applied⟩ := commentLength_of_measure measured
  refine ⟨undocumented, ?_⟩
  have opened : ['/', '*'] <+: source.drop piece.start := by
    rw [isCut.text] at block
    exact block.trans (List.take_prefix _ _)
  have delimits := delimited_of_commentLength opened applied
  exact (isFirstEnd_of_delimited_drop (List.cons_ne_nil _ _) delimits).2

/-- Behind the opening of a documentation comment an end begins at the third character
exactly if the comment has nothing inside, and then none begins at the fourth. -/
theorem endsAt_third_iff {place : Nat} (opened : ['/', '*', '*'] <+: source.drop place) :
    (EndsAt source (place + 2) ↔ emptyComment <+: source.drop place) ∧
      (EndsAt source (place + 2) → ¬EndsAt source (place + 3)) := by
  obtain ⟨rest, front⟩ := opened
  rw [← endsAt_drop, ← endsAt_drop, ← front]
  cases rest with
  | nil => simp [EndsAt, emptyComment]
  | cons c more =>
    constructor
    · simp [EndsAt, emptyComment]
    · intro third fourth
      have slash : c = '/' := by simpa [EndsAt, eq_comm] using third
      have star : c = '*' := (List.cons_prefix_cons.mp fourth).1.symm
      rw [slash] at star
      exact absurd star (by decide)

/-- A block comment of a source goes up to the first end from its fourth character on, if
it is a documentation comment, and else up to the first one from its third character on.
So it goes up to the first end from its third character on unless it opens with the
comment that has nothing inside and an end begins anywhere behind that. -/
theorem blockComment_ends (member : piece ∈ pieces source) (block : piece.IsBlockComment) :
    (piece.kind = .doc → IsFirstEnd source (piece.start + 3) (piece.stop - 2)) ∧
    (piece.kind = .comment → IsFirstEnd source (piece.start + 2) (piece.stop - 2)) ∧
    (IsFirstEnd source (piece.start + 2) (piece.stop - 2) ↔
      (emptyComment <+: source.drop piece.start →
        ∀ later, piece.start + 4 ≤ later → ¬EndsAt source later)) := by
  have isCut : piece.IsCut source := (tokens_tile source).2.1 piece member
  obtain ⟨doc | comment, opened⟩ := block
  · obtain ⟨starred, first⟩ := isCut.doc_ends doc
    obtain ⟨third, notFourth⟩ := endsAt_third_iff starred
    have behind := first.behind
    refine ⟨fun _ => first, fun other => absurd (doc.symm.trans other) (by decide), ?_⟩
    constructor
    · intro early empty
      exact absurd (third.mpr empty) (early.first _ (by omega) (Nat.le_refl _))
    · intro quiet
      have notThird : ¬EndsAt source (piece.start + 2) := by
        intro ended
        have unlike : piece.stop - 2 ≠ piece.start + 3 := by
          intro same
          exact notFourth ended (same ▸ first.ends)
        exact quiet (third.mp ended) (piece.stop - 2) (by omega) first.ends
      refine ⟨by omega, first.ends, ?_⟩
      intro earlier before from_third
      by_cases same : earlier = piece.start + 2
      · rw [same]
        exact notThird
      · exact first.first earlier before (by omega)
  · obtain ⟨undocumented, first⟩ := isCut.comment_ends comment opened
    refine ⟨fun other => absurd (comment.symm.trans other) (by decide), fun _ => first, ?_⟩
    refine iff_of_true first ?_
    intro empty later behind ended
    have starred : ['/', '*', '*'] <+: source.drop piece.start :=
      List.IsPrefix.trans ⟨['/'], rfl⟩ empty
    have inside : piece.start + (later - piece.start) = later := by omega
    rw [← inside] at ended
    refine not_endsAt_of_delimited starred undocumented ?_ (endsAt_drop.mpr ended)
    simp only [List.length_cons, List.length_nil]
    omega

end Pieces

/-- Two comments with nothing inside, of which the first one is a documentation comment. -/
def emptyComments : Text := "/***/ /**/".toList

/-- Where no end follows, the comment of four characters ends with its own. -/
theorem emptyComments_end :
    let piece : Token := ⟨.comment, emptyComment, 6, 10⟩
    piece ∈ pieces emptyComments ∧ piece.IsBlockComment ∧
      emptyComment <+: emptyComments.drop 6 ∧ IsFirstEnd emptyComments 8 8 := by
  intro piece
  have member : piece ∈ pieces emptyComments := by decide +kernel
  have block : piece.IsBlockComment := by decide
  have quiet : ∀ later, 10 ≤ later → ¬EndsAt emptyComments later := by
    intro later behind
    rw [EndsAt, List.drop_eq_nil_of_le behind]
    decide
  exact ⟨member, block, by decide, (blockComment_ends member block).2.2.mpr fun _ => quiet⟩

/-- A class between a comment with nothing inside and another comment. -/
def classBehindEmptyComment : Text := "/**/ class A \x7b\x7d /* b */".toList

/-- The comment with nothing inside takes the class with it: it does not stop at the end that
begins at its third character, but is one piece with the other comment, and the reader finds
no declaration. With a blank in that comment it finds the class. -/
theorem emptyComment_swallows :
    let piece : Token := ⟨.doc, classBehindEmptyComment, 0, classBehindEmptyComment.length⟩
    piece ∈ pieces classBehindEmptyComment ∧ piece.IsBlockComment ∧
      EndsAt classBehindEmptyComment 2 ∧
      ¬IsFirstEnd classBehindEmptyComment (piece.start + 2) (piece.stop - 2) ∧
      declarations classBehindEmptyComment = [] ∧
      (declarations ("/* ".toList ++ classBehindEmptyComment.drop 2)).map (·.name) =
        [['A']] := by
  decide +kernel

end Docblock.Source
