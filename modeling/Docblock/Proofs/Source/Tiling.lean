import Docblock.Source.Token
import Mathlib.Data.List.Basic

/-!
# Lexemes tile the source

A rule for a class of lexemes may look far ahead and still fail, so that a later rule is
asked. A rule that answers, though, measures at least one character and no more than
there are. That is all the reader needs: the lexemes of a text, each with its place,
stand one right behind the other from the front of the text to its end, whatever the
text is and whatever in it is left open.

Tokens are those of these pieces that are no comments, white space or code tags. They
keep the order of the text and never overlap, and a character outside of them belongs to
one of the pieces that were left out.
-/

namespace Docblock.Source

/-- Whether the lengths that a rule gives have at least one character and no more than
the text has. -/
def Measures (rule : Text → Option Nat) : Prop :=
  ∀ text length, rule text = some length → 0 < length ∧ length ≤ text.length

section Rules

/-- A run of characters of a class is no longer than the text. -/
theorem runLength_le (p : Char → Bool) (text : Text) : runLength p text ≤ text.length :=
  (List.takeWhile_prefix p).length_le

/-- What a run of characters of a class measures are these characters. -/
theorem take_runLength (p : Char → Bool) (text : Text) :
    text.take (runLength p text) = text.takeWhile p :=
  (List.prefix_iff_eq_take.mp (List.takeWhile_prefix p)).symm

/-- A text at the front is no longer than the whole. -/
theorem length_le_of_isPrefixOf {front text : Text} (stands : front.isPrefixOf text = true) :
    front.length ≤ text.length :=
  (List.isPrefixOf_iff_prefix.mp stands).length_le

/-- What ends with an occurrence ends inside the text. -/
theorem lengthThrough_le {needle text : Text} {length : Nat}
    (found : lengthThrough needle text = some length) : length ≤ text.length := by
  induction text generalizing length with
  | nil =>
    simp only [lengthThrough] at found
    split at found
    · cases found
      exact Nat.le_refl 0
    · cases found
  | cons c rest inductionHypothesis =>
    rw [lengthThrough] at found
    split at found
    · rename_i stands
      cases found
      exact length_le_of_isPrefixOf stands
    · obtain ⟨further, later, rfl⟩ := Option.map_eq_some_iff.mp found
      exact Nat.succ_le_succ (inductionHypothesis later)

/-- What stands between an opening and a closing text has the opening at least. -/
theorem delimited_measures {opening : Text} (closing : Text) (nonempty : opening ≠ []) :
    Measures (delimited opening closing) := by
  intro text length measured
  rw [delimited] at measured
  split at measured
  · rename_i stands
    obtain ⟨inner, found, rfl⟩ := Option.map_eq_some_iff.mp measured
    have opened : 0 < opening.length := List.length_pos_iff.mpr nonempty
    have front := length_le_of_isPrefixOf stands
    have behind := lengthThrough_le found
    rw [List.length_drop] at behind
    omega
  · cases measured

/-- A listed text that stands at the front has a character if each listed one has. -/
theorem listedLength_measures {listed : List Text} (nonempty : ∀ mark ∈ listed, mark ≠ []) :
    Measures (listedLength listed) := by
  intro text length measured
  obtain ⟨mark, found, rfl⟩ := Option.map_eq_some_iff.mp measured
  constructor
  · exact List.length_pos_iff.mpr (nonempty mark (List.mem_of_find?_eq_some found))
  · exact length_le_of_isPrefixOf (@List.find?_some _ (List.isPrefixOf · text) _ _ found)

/-- An identifier has its first character. -/
theorem identifierLength_measures : Measures identifierLength := by
  intro text length measured
  cases text with
  | nil => cases measured
  | cons c rest =>
    rw [identifierLength] at measured
    split at measured
    · cases measured
      have run := runLength_le Text.isWordChar rest
      rw [List.length_cons]
      omega
    · cases measured

/-- A comment has its mark. -/
theorem commentLength_measures : Measures commentLength := by
  intro text length measured
  unfold commentLength at measured
  split at measured
  · rename_i inner block
    cases measured
    exact delimited_measures _ (by decide) _ _ block
  · split at measured
    · rename_i rest _
      cases measured
      have run := runLength_le (· != '\n') rest
      simp only [List.length_cons]
      omega
    · rename_i rest _
      split at measured
      · cases measured
      · cases measured
        have run := runLength_le (· != '\n') rest
        rw [List.length_cons]
        omega
    · cases measured

/-- A label with blanks before it ends inside its line. -/
theorem labelLineLength_le {label line : Text} {length : Nat}
    (measured : labelLineLength label line = some length) : length ≤ line.length := by
  simp only [labelLineLength] at measured
  split at measured
  · rename_i stands
    cases measured
    have blanks := runLength_le isIndent line
    have front := length_le_of_isPrefixOf (Bool.and_eq_true _ _ ▸ stands).1
    rw [List.length_drop] at front
    omega
  · cases measured

/-- The body of a heredoc has the line break before its label at least. -/
theorem heredocBodyLength_measures (label : Text) : Measures (heredocBodyLength label) := by
  intro text length measured
  induction text generalizing length with
  | nil => cases measured
  | cons c rest inductionHypothesis =>
    rw [heredocBodyLength] at measured
    split at measured
    · rename_i width ended
      cases measured
      split at ended
      · have labelled := labelLineLength_le ended
        rw [List.length_cons]
        omega
      · cases ended
    · obtain ⟨further, later, rfl⟩ := Option.map_eq_some_iff.mp measured
      have inside := inductionHypothesis further later
      rw [List.length_cons]
      omega

/-- A heredoc ends where its body does, which has a character. -/
theorem heredocLength_measures : Measures heredocLength := by
  intro text length measured
  obtain ⟨-, -, opened⟩ := Option.bind_eq_some_iff.mp measured
  obtain ⟨width, -, labelled⟩ := Option.bind_eq_some_iff.mp opened
  obtain ⟨-, -, closed⟩ := Option.bind_eq_some_iff.mp labelled
  obtain ⟨newline, -, ended⟩ := Option.bind_eq_some_iff.mp closed
  obtain ⟨body, found, total⟩ := Option.bind_eq_some_iff.mp ended
  cases total
  have inside := heredocBodyLength_measures _ _ _ found
  simp only [List.length_drop] at inside
  omega

/-- The rest of a string has its closing quote. -/
theorem stringRestLength_measures (quote : Char) : Measures (stringRestLength quote) := by
  intro text length measured
  fun_induction stringRestLength quote text generalizing length with
  | case1 => cases measured
  | case2 => cases measured; simp
  | case3 => cases measured
  | case4 => cases measured; simp
  | case5 d rest _ inductionHypothesis =>
    obtain ⟨further, later, rfl⟩ := Option.map_eq_some_iff.mp measured
    have inside := inductionHypothesis further later
    simp only [List.length_cons]
    omega
  | case6 c d rest _ _ inductionHypothesis =>
    obtain ⟨further, later, rfl⟩ := Option.map_eq_some_iff.mp measured
    have inside := inductionHypothesis further later
    simp only [List.length_cons] at inside ⊢
    omega

/-- A string has its quotes. -/
theorem stringLength_measures : Measures stringLength := by
  intro text length measured
  unfold stringLength at measured
  split at measured
  · obtain ⟨further, later, rfl⟩ := Option.map_eq_some_iff.mp measured
    have inside := stringRestLength_measures _ _ _ later
    rw [List.length_cons]
    omega
  · obtain ⟨further, later, rfl⟩ := Option.map_eq_some_iff.mp measured
    have inside := stringRestLength_measures _ _ _ later
    rw [List.length_cons]
    omega
  · cases measured

/-- A variable has its dollar sign. -/
theorem variableLength_measures : Measures variableLength := by
  intro text length measured
  unfold variableLength at measured
  split at measured
  · obtain ⟨width, named, rfl⟩ := Option.map_eq_some_iff.mp measured
    have inside := identifierLength_measures _ _ named
    rw [List.length_cons]
    omega
  · cases measured

/-- Further segments of a name end inside the text. -/
theorem segmentsLength_le (text : Text) : segmentsLength text ≤ text.length := by
  fun_induction segmentsLength text with
  | case1 => exact Nat.le_refl 0
  | case2 => exact Nat.zero_le _
  | case3 rest width named inductionHypothesis =>
    have inside := identifierLength_measures _ _ named
    rw [List.length_drop] at inductionHypothesis
    rw [List.length_cons]
    omega
  | case4 => exact Nat.zero_le _

/-- A path has its first segment. -/
theorem pathLength_measures : Measures pathLength := by
  intro text length measured
  obtain ⟨width, named, rfl⟩ := Option.map_eq_some_iff.mp measured
  have first := identifierLength_measures _ _ named
  have further := segmentsLength_le (text.drop ((if text.head? = some '\\' then 1 else 0) + width))
  simp only [List.length_drop] at first further
  omega

/-- A name has the path, and the backslash behind it only if there is one. -/
theorem nameLength_measures : Measures nameLength := by
  intro text length measured
  obtain ⟨width, path, rfl⟩ := Option.map_eq_some_iff.mp measured
  have inside := pathLength_measures _ _ path
  split
  · rename_i followed
    have further : 0 < (text.drop width).length := by
      rw [List.length_pos_iff]
      intro ended
      rw [ended] at followed
      cases followed
    rw [List.length_drop] at further
    omega
  · exact inside

/-- A number has its first digit. -/
theorem numberLength_measures : Measures numberLength := by
  intro text length measured
  cases text with
  | nil => cases measured
  | cons c rest =>
    rw [numberLength] at measured
    split at measured
    · cases measured
      have run := runLength_le (fun d => Text.isWordChar d || d == '.') rest
      rw [List.length_cons]
      omega
    · cases measured

/-- White space has a character. -/
theorem spaceLength_measures : Measures spaceLength := by
  intro text length measured
  simp only [spaceLength] at measured
  split at measured
  · cases measured
  · rename_i visible
    cases measured
    exact ⟨Nat.pos_of_ne_zero visible, runLength_le _ text⟩

/-- Every rule measures what is there. -/
theorem rules_measure : ∀ rule ∈ rules, Measures rule.2 := by
  intro rule listed
  simp only [rules, List.mem_cons, List.not_mem_nil, or_false] at listed
  rcases listed with rfl | rfl | rfl | rfl | rfl | rfl | rfl | rfl | rfl | rfl | rfl
  · exact delimited_measures _ (by decide)
  · exact commentLength_measures
  · exact heredocLength_measures
  · exact stringLength_measures
  · exact listedLength_measures (by decide)
  · exact variableLength_measures
  · exact nameLength_measures
  · exact numberLength_measures
  · exact listedLength_measures (by decide)
  · exact listedLength_measures (by decide)
  · exact spaceLength_measures

end Rules

/-- A lexeme is measured by a rule of its class, or is a single character of no class. -/
theorem measure_cases (text : Text) :
    (∃ rule ∈ rules, rule.1 = (measure text).1 ∧ rule.2 text = some (measure text).2) ∨
      measure text = (.other, 1) := by
  unfold measure Option.getD
  split
  · rename_i answer chosen
    obtain ⟨rule, listed, measured⟩ := List.exists_of_findSome?_eq_some chosen
    obtain ⟨length, given, rfl⟩ := Option.map_eq_some_iff.mp measured
    exact .inl ⟨rule, listed, rfl, given⟩
  · exact .inr rfl

/-- A lexeme of a class with one rule is measured by that rule. -/
theorem rule_of_measure {text : Text} {kind : Kind} {length : Nat} {rule : Text → Option Nat}
    (only : ∀ listed ∈ rules, listed.1 = kind → listed.2 = rule) (classed : kind ≠ .other)
    (measured : measure text = (kind, length)) : rule text = some length := by
  rcases measure_cases text with ⟨listed, member, same, applied⟩ | single
  · rw [measured] at same applied
    exact only listed member same ▸ applied
  · rw [single] at measured
    cases measured
    exact absurd rfl classed

/-- The lexeme at the front of a text has at least one character and no more than there
are: that is so by every rule, and a single character is the last resort. -/
theorem measure_bounds {text : Text} (nonempty : text ≠ []) :
    0 < (measure text).2 ∧ (measure text).2 ≤ text.length := by
  rcases measure_cases text with ⟨rule, listed, -, given⟩ | single
  · exact rules_measure rule listed text _ given
  · rw [single]
    exact ⟨Nat.one_pos, List.length_pos_iff.mpr nonempty⟩

/-- A text that is not empty starts with the lexeme that is measured at its front. -/
theorem lexemes_eq {text : Text} (nonempty : text ≠ []) :
    lexemes text =
      ⟨(measure text).1, text.take (measure text).2⟩ :: lexemes (text.drop (measure text).2) := by
  obtain ⟨positive, -⟩ := measure_bounds nonempty
  obtain ⟨c, rest, rfl⟩ := List.exists_cons_of_ne_nil nonempty
  obtain ⟨further, length⟩ : ∃ further, (measure (c :: rest)).2 = further + 1 :=
    ⟨_, (Nat.succ_pred_eq_of_pos positive).symm⟩
  rw [lexemes]
  simp [length]

/-- Pieces of a source that stand one right behind the other from one offset to another,
each of them with at least one character. -/
inductive Tiles : Nat → List Token → Nat → Prop
  | none (offset : Nat) : Tiles offset [] offset
  | next {piece : Token} {rest : List Token} {stop : Nat} (reaches : piece.start < piece.stop)
      (behind : Tiles piece.stop rest stop) : Tiles piece.start (piece :: rest) stop

namespace Tiles

variable {start stop : Nat} {pieces : List Token}

/-- Pieces lie between the ends of their tiling. -/
theorem bounds (tiles : Tiles start pieces stop) :
    start ≤ stop ∧ ∀ piece ∈ pieces,
      start ≤ piece.start ∧ piece.start < piece.stop ∧ piece.stop ≤ stop := by
  induction tiles with
  | none offset => simp
  | next reaches behind inductionHypothesis =>
    obtain ⟨onward, others⟩ := inductionHypothesis
    constructor
    · omega
    · intro piece member
      rcases List.mem_cons.mp member with rfl | later
      · omega
      · have inside := others piece later
        omega

/-- Each piece starts where or behind where those before it stop. -/
theorem pairwise (tiles : Tiles start pieces stop) :
    pieces.Pairwise fun first second => first.stop ≤ second.start := by
  induction tiles with
  | none offset => exact .nil
  | next reaches behind inductionHypothesis =>
    exact .cons (fun piece member => (behind.bounds.2 piece member).1) inductionHypothesis

/-- Every offset between the ends lies in a piece. -/
theorem exists_piece (tiles : Tiles start pieces stop) {offset : Nat} (after : start ≤ offset)
    (before : offset < stop) :
    ∃ piece ∈ pieces, piece.start ≤ offset ∧ offset < piece.stop := by
  induction tiles with
  | none => omega
  | @next piece rest stop reaches behind inductionHypothesis =>
    by_cases inside : offset < piece.stop
    · exact ⟨piece, List.mem_cons_self, after, inside⟩
    · obtain ⟨found, member, covers⟩ := inductionHypothesis (by omega) before
      exact ⟨found, List.mem_cons_of_mem piece member, covers⟩

end Tiles

/-- A piece is cut out of a source: it has the text between its offsets, and its class and
its length are those that are measured where it starts. -/
structure Token.IsCut (source : Text) (piece : Token) : Prop where
  text : piece.text = (source.drop piece.start).take (piece.stop - piece.start)
  measured : measure (source.drop piece.start) = (piece.kind, piece.stop - piece.start)

/-- The lexemes from an offset on tile the source from there to its end, and each is cut
out of it. The induction is on what is left, as the reader goes on behind the lexeme it
has cut. -/
theorem placed_tiles (source : Text) (offset : Nat) (inside : offset ≤ source.length) :
    Tiles offset (placed offset (lexemes (source.drop offset))) source.length ∧
      ∀ piece ∈ placed offset (lexemes (source.drop offset)), piece.IsCut source := by
  induction left : source.length - offset using Nat.strongRecOn generalizing offset with
  | ind left inductionHypothesis =>
    by_cases ended : offset = source.length
    · have nothing : source.drop offset = [] := by rw [ended, List.drop_length]
      rw [nothing, lexemes, placed, ended]
      exact ⟨.none _, by simp⟩
    · have nonempty : source.drop offset ≠ [] := by
        rw [Ne, List.drop_eq_nil_iff]
        omega
      have bounds := measure_bounds nonempty
      rcases measured : measure (source.drop offset) with ⟨kind, length⟩
      rw [measured, List.length_drop] at bounds
      obtain ⟨positive, bounded⟩ : 0 < length ∧ length ≤ source.length - offset := bounds
      have width : ((source.drop offset).take length).length = length := by
        rw [List.length_take, List.length_drop]
        omega
      obtain ⟨onward, cut⟩ :=
        inductionHypothesis _ (by omega) (offset + length) (by omega) rfl
      rw [lexemes_eq nonempty, measured, List.drop_drop, placed, width]
      constructor
      · exact @Tiles.next ⟨kind, _, offset, offset + length⟩ _ _
          (Nat.lt_add_of_pos_right positive) onward
      · intro piece member
        rcases List.mem_cons.mp member with rfl | later
        · exact ⟨by simp, by simpa using measured⟩
        · exact cut piece later

/-- The pieces that a source is cut into, with their places. -/
def pieces (source : Text) : List Token := placed 0 (lexemes source)

/-- Tokens have their text inside the source, and those further back start behind it. -/
theorem tokens_apart (source : Text) :
    (∀ token ∈ tokens source, token.start < token.stop ∧ token.stop ≤ source.length) ∧
      (tokens source).Pairwise fun first second => first.stop ≤ second.start := by
  obtain ⟨tiles, -⟩ := placed_tiles source 0 (Nat.zero_le _)
  rw [List.drop_zero] at tiles
  constructor
  · intro token member
    exact (tiles.bounds.2 token (List.mem_filter.mp member).1).2
  · exact tiles.pairwise.sublist List.filter_sublist

/-- Every source is tiled by its pieces, and its tokens are some of them:

* the pieces stand one right behind the other, from the front of the source to its end,
  each with at least one character;
* each piece has the text between its offsets, and its class and length are those that
  the first matching rule gives there;
* the tokens are the pieces that are no comments, white space or code tags, in order;
* a token has the text between its offsets, which is not empty, and starts no earlier
  than the tokens before it stop;
* every character lies in a token, or in a comment, white space or a code tag. -/
theorem tokens_tile (source : Text) :
    Tiles 0 (pieces source) source.length ∧
    (∀ piece ∈ pieces source, piece.IsCut source) ∧
    tokens source = (pieces source).filter
      (fun piece => piece.kind ∉ [Kind.comment, Kind.space, Kind.tag]) ∧
    (∀ token ∈ tokens source, token.start < token.stop ∧
      token.text = (source.drop token.start).take (token.stop - token.start)) ∧
    (tokens source).Pairwise (fun first second => first.stop ≤ second.start) ∧
    ∀ offset, offset < source.length → ∃ piece ∈ pieces source,
      piece.start ≤ offset ∧ offset < piece.stop ∧
        (piece ∈ tokens source ∨ piece.kind ∈ [Kind.comment, Kind.space, Kind.tag]) := by
  obtain ⟨tiles, cut⟩ := placed_tiles source 0 (Nat.zero_le _)
  rw [List.drop_zero] at tiles cut
  obtain ⟨spans, apart⟩ := tokens_apart source
  refine ⟨tiles, cut, ?_, ?_, apart, ?_⟩
  · apply List.filter_congr
    intro piece member
    cases piece.kind <;> rfl
  · intro token member
    exact ⟨(spans token member).1, (cut token (List.mem_filter.mp member).1).text⟩
  · intro offset inside
    obtain ⟨piece, member, after, before⟩ := tiles.exists_piece (Nat.zero_le offset) inside
    refine ⟨piece, member, after, before, ?_⟩
    by_cases significant : piece.kind.isSignificant = true
    · exact .inl (List.mem_filter.mpr ⟨member, significant⟩)
    · right
      cases kind : piece.kind <;> simp [kind, Kind.isSignificant] at significant ⊢

/-- A text in which a string and a comment are left open. -/
def unfinished : Text := "'a /* b".toList

/-- What is left open falls to later rules: the quote, the slash and the star are tokens
of one character, and the character behind the slash lies in one of them. -/
theorem unfinished_tile :
    (tokens unfinished).map (·.text) =
      ["'".toList, "a".toList, "/".toList, "*".toList, "b".toList] ∧
    4 < unfinished.length ∧
    ∃ piece ∈ pieces unfinished, piece.start ≤ 4 ∧ 4 < piece.stop ∧
      (piece ∈ tokens unfinished ∨ piece.kind ∈ [Kind.comment, Kind.space, Kind.tag]) :=
  ⟨by decide +kernel, by decide, (tokens_tile unfinished).2.2.2.2.2 4 (by decide)⟩

end Docblock.Source
