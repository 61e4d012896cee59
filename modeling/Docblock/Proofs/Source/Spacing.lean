import Docblock.Source.Token

/-!
# Lexemes set apart by blanks

A text is written in chunks with a blank before each; most chunks are a single
lexeme, and a few hold lexemes one right behind the other. Such a text is cut
into these lexemes again, provided each chunk is when a blank or the end of the
text follows. The tokens of the text are its lexemes, and the slice of the source
from one token to another is what was written there.

`Occurs` keeps the offsets out of sight: it says that tokens are the lexemes of
some chunks written this way somewhere in a source, and readers of tokens are
described in terms of it.
-/

namespace Docblock.Source

/-- Lexemes written one right behind the other. -/
structure Chunk where
  parts : List Lexeme

namespace Chunk

/-- A lexeme by itself. -/
def single (lexeme : Lexeme) : Chunk := ⟨[lexeme]⟩

/-- The chunk as written. -/
def text (chunk : Chunk) : Text := chunk.parts.flatMap Lexeme.text

/-- Whether something holds of the class and the text of every lexeme of a chunk. -/
def Each (property : Kind → Text → Prop) (chunk : Chunk) : Prop :=
  ∀ lexeme ∈ chunk.parts, property lexeme.kind lexeme.text

@[simp]
theorem text_single (lexeme : Lexeme) : (single lexeme).text = lexeme.text :=
  List.append_nil lexeme.text

@[simp]
theorem each_single {property : Kind → Text → Prop} {lexeme : Lexeme} :
    (single lexeme).Each property ↔ property lexeme.kind lexeme.text := by
  simp [Each, single]

end Chunk

/-- The text in which a blank stands before every chunk. -/
def spaced (written : List Chunk) : Text := written.flatMap fun chunk => ' ' :: chunk.text

@[simp]
theorem spaced_nil : spaced [] = [] := rfl

@[simp]
theorem spaced_cons (chunk : Chunk) (rest : List Chunk) :
    spaced (chunk :: rest) = ' ' :: (chunk.text ++ spaced rest) := rfl

@[simp]
theorem spaced_append (first second : List Chunk) :
    spaced (first ++ second) = spaced first ++ spaced second :=
  List.flatMap_append

/-- Whether a text is at its end or goes on with a blank. -/
def IsBroken (rest : Text) : Prop := rest = [] ∨ ∃ more, rest = ' ' :: more

/-- Nothing or a blank follows a chunk in a text set apart by blanks. -/
theorem isBroken_spaced (written : List Chunk) : IsBroken (spaced written) := by
  cases written with
  | nil => exact .inl rfl
  | cons chunk rest => exact .inr ⟨_, rfl⟩

/-- A chunk whose lexemes carry meaning and that is cut into them before a blank and
at the end of the text. No white space stands at its ends. -/
structure Chunk.IsApart (chunk : Chunk) : Prop where
  cut : ∀ rest, IsBroken rest → lexemes (chunk.text ++ rest) = chunk.parts ++ lexemes rest
  significant : ∀ lexeme ∈ chunk.parts, lexeme.kind.isSignificant = true
  opened : ∃ c more, chunk.text = c :: more ∧ Text.isBlank c = false
  closed : ∃ c more, chunk.text = more ++ [c] ∧ Text.isBlank c = false

/-- A chunk that is set apart by blanks holds a lexeme. -/
theorem Chunk.IsApart.ne_nil {chunk : Chunk} (apart : chunk.IsApart) : chunk.parts ≠ [] := by
  intro empty
  obtain ⟨c, more, text, -⟩ := apart.opened
  rw [Chunk.text, empty] at text
  cases text

/-- The lexeme at the front of a text, when its length is known. -/
theorem lexemes_of_measure {kind : Kind} {text rest : Text} (nonempty : text ≠ [])
    (measured : measure (text ++ rest) = (kind, text.length)) :
    lexemes (text ++ rest) = ⟨kind, text⟩ :: lexemes rest := by
  cases text with
  | nil => exact absurd rfl nonempty
  | cons c more =>
    rw [List.cons_append] at measured ⊢
    rw [lexemes, measured]
    simp

/-- A lexeme that is measured as itself before a blank and at the end of the text is
set apart by blanks. -/
theorem Chunk.isApart_single {lexeme : Lexeme}
    (measured : ∀ rest, IsBroken rest →
      measure (lexeme.text ++ rest) = (lexeme.kind, lexeme.text.length))
    (significant : lexeme.kind.isSignificant = true)
    (opened : ∃ c more, lexeme.text = c :: more ∧ Text.isBlank c = false)
    (closed : ∃ c more, lexeme.text = more ++ [c] ∧ Text.isBlank c = false) :
    (single lexeme).IsApart where
  cut := by
    intro rest broken
    obtain ⟨c, more, text, -⟩ := opened
    rw [text_single, lexemes_of_measure (by simp [text]) (measured rest broken)]
    rfl
  significant := by simpa [single] using significant
  opened := by simpa using opened
  closed := by simpa using closed

/-- One blank before a visible character is a lexeme of white space. -/
theorem measure_blank {c : Char} (rest : Text) (visible : Text.isBlank c = false) :
    measure (' ' :: c :: rest) = (.space, 1) := by
  have width : spaceLength (' ' :: c :: rest) = some 1 := by
    have blank : Text.isBlank ' ' = true := by decide
    simp [spaceLength, runLength, List.takeWhile, blank, visible]
  have reached : measure (' ' :: c :: rest) =
      (((spaceLength (' ' :: c :: rest)).map (Kind.space, ·)).or none).getD (.other, 1) := by
    rfl
  rw [reached, width]
  rfl

/-- A blank and a chunk at the front of a text are cut off one after the other. -/
theorem Chunk.IsApart.lexemes_eq {chunk : Chunk} (apart : chunk.IsApart) {rest : Text}
    (broken : IsBroken rest) :
    lexemes (' ' :: (chunk.text ++ rest)) = ⟨.space, [' ']⟩ :: (chunk.parts ++ lexemes rest) := by
  obtain ⟨c, more, text, visible⟩ := apart.opened
  have blank : measure ([' '] ++ (chunk.text ++ rest)) = (.space, 1) := by
    rw [text]
    exact measure_blank _ visible
  have first := lexemes_of_measure (List.cons_ne_nil _ _) blank
  rw [List.singleton_append] at first
  rw [first, apart.cut rest broken]

/-- Lexemes that follow one another have their places one after the other. -/
theorem placed_append (offset : Nat) (first second : List Lexeme) :
    placed offset (first ++ second) =
      placed offset first ++ placed (offset + (first.flatMap Lexeme.text).length) second := by
  induction first generalizing offset with
  | nil => rfl
  | cons lexeme rest inductionHypothesis =>
    have reached : offset + lexeme.text.length + (rest.flatMap Lexeme.text).length =
        offset + ((lexeme :: rest).flatMap Lexeme.text).length := by
      simp only [List.flatMap_cons, List.length_append]
      omega
    simp only [List.cons_append, placed, inductionHypothesis, reached]

/-- A placed lexeme keeps its class and its text. -/
theorem mem_placed {offset : Nat} {written : List Lexeme} {token : Token}
    (member : token ∈ placed offset written) :
    ∃ lexeme ∈ written, token.kind = lexeme.kind ∧ token.text = lexeme.text := by
  induction written generalizing offset with
  | nil => cases member
  | cons lexeme rest inductionHypothesis =>
    rcases List.mem_cons.mp member with rfl | later
    · exact ⟨lexeme, List.mem_cons_self, rfl, rfl⟩
    · obtain ⟨other, listed, same⟩ := inductionHypothesis later
      exact ⟨other, List.mem_cons_of_mem lexeme listed, same⟩

/-- Placed lexemes reach from their offset to the end of their text. -/
theorem placed_ends {offset : Nat} {written : List Lexeme} (nonempty : written ≠ []) :
    (∃ token, (placed offset written).head? = some token ∧ token.start = offset) ∧
      ∃ token, (placed offset written).getLast? = some token ∧
        token.stop = offset + (written.flatMap Lexeme.text).length := by
  constructor
  · obtain ⟨first, rest, rfl⟩ := List.exists_cons_of_ne_nil nonempty
    exact ⟨_, rfl, rfl⟩
  · obtain ⟨init, last, rfl⟩ := (List.eq_nil_or_concat written).resolve_left nonempty
    rw [List.concat_eq_append, placed_append]
    refine ⟨_, List.getLast?_concat, ?_⟩
    simp
    omega

/-- The tokens that some chunks are when each has a blank before it and the first
blank stands at an offset. -/
def spread (offset : Nat) : List Chunk → List Token
  | [] => []
  | chunk :: rest =>
    placed (offset + 1) chunk.parts ++ spread (offset + 1 + chunk.text.length) rest

/-- What is written first does not change, and what is written after it starts
where the first part ends. -/
theorem spread_append (offset : Nat) (first second : List Chunk) :
    spread offset (first ++ second) =
      spread offset first ++ spread (offset + (spaced first).length) second := by
  induction first generalizing offset with
  | nil => simp [spread]
  | cons chunk rest inductionHypothesis =>
    have reached : offset + 1 + chunk.text.length + (spaced rest).length =
        offset + (spaced (chunk :: rest)).length := by
      simp only [spaced_cons, List.length_cons, List.length_append]
      omega
    simp only [List.cons_append, spread, inductionHypothesis, reached, List.append_assoc]

/-- The significant lexemes of a text set apart by blanks. -/
theorem filter_placed_spaced (written : List Chunk) (apart : ∀ chunk ∈ written, chunk.IsApart)
    (offset : Nat) :
    (placed offset (lexemes (spaced written))).filter (·.kind.isSignificant) =
      spread offset written := by
  induction written generalizing offset with
  | nil => simp [lexemes, placed, spread]
  | cons chunk rest inductionHypothesis =>
    have first := apart chunk List.mem_cons_self
    have kept : (placed (offset + 1) chunk.parts).filter (·.kind.isSignificant) =
        placed (offset + 1) chunk.parts := by
      rw [List.filter_eq_self]
      intro token member
      obtain ⟨lexeme, listed, kind, -⟩ := mem_placed member
      rw [kind]
      exact first.significant lexeme listed
    have onward := inductionHypothesis
      (fun other member => apart other (List.mem_cons_of_mem _ member))
      (offset + 1 + chunk.text.length)
    have blank : Kind.space.isSignificant = false := rfl
    rw [spaced_cons, first.lexemes_eq (isBroken_spaced rest)]
    simp only [placed, List.filter_cons, blank, spread, List.length_singleton]
    simp only [Bool.false_eq_true, if_false]
    rw [placed_append, List.filter_append, kept, ← Chunk.text, onward]

/-- Tokens that are the lexemes of some chunks, each with a blank before it, at a place
in a source. -/
structure Occurs (source : Text) (written : List Chunk) (found : List Token) : Prop where
  apart : ∀ chunk ∈ written, chunk.IsApart
  stands : ∃ before after : Text,
    source = before ++ spaced written ++ after ∧ found = spread before.length written

/-- The tag that opens code. -/
def openingTag : Text := "<?php".toList

/-- The tokens of a source that is a tag and some chunks are the lexemes of these
chunks. -/
theorem occurs_tokens (written : List Chunk) (apart : ∀ chunk ∈ written, chunk.IsApart) :
    Occurs (openingTag ++ spaced written) written (tokens (openingTag ++ spaced written)) := by
  refine ⟨apart, openingTag, [], by simp, ?_⟩
  have tagged : measure (openingTag ++ spaced written) = (.tag, openingTag.length) := rfl
  have skipped : Kind.tag.isSignificant = false := rfl
  rw [tokens, lexemes_of_measure (by decide) tagged]
  simp only [placed, List.filter_cons, skipped, Nat.zero_add]
  simp only [Bool.false_eq_true, if_false]
  exact filter_placed_spaced written apart openingTag.length

namespace Occurs

variable {source : Text} {written first second : List Chunk} {lexeme : Lexeme}
  {found : List Token}

/-- No chunks are no tokens. -/
theorem nil (occurs : Occurs source [] found) : found = [] := by
  obtain ⟨before, after, -, rfl⟩ := occurs.stands
  rfl

/-- Tokens of two texts one after the other. -/
theorem append (occurs : Occurs source (first ++ second) found) :
    ∃ left right, found = left ++ right ∧ Occurs source first left ∧
      Occurs source second right := by
  obtain ⟨before, after, text, rfl⟩ := occurs.stands
  refine ⟨_, _, spread_append _ first second, ?_, ?_⟩
  · refine ⟨fun chunk member => occurs.apart chunk (List.mem_append_left _ member), ?_⟩
    exact ⟨before, spaced second ++ after, by simpa using text, rfl⟩
  · refine ⟨fun chunk member => occurs.apart chunk (List.mem_append_right _ member), ?_⟩
    exact ⟨before ++ spaced first, after, by simpa using text, by simp⟩

/-- The token of the first lexeme. -/
theorem cons (occurs : Occurs source (Chunk.single lexeme :: written) found) :
    ∃ token rest, found = token :: rest ∧ token.kind = lexeme.kind ∧ token.text = lexeme.text ∧
      Occurs source written rest := by
  have split : Occurs source ([Chunk.single lexeme] ++ written) found := occurs
  obtain ⟨left, right, rfl, leading, trailing⟩ := split.append
  obtain ⟨before, after, -, rfl⟩ := leading.stands
  exact ⟨_, right, rfl, rfl, rfl, trailing⟩

/-- A single lexeme is a single token. -/
theorem singleton (occurs : Occurs source [Chunk.single lexeme] found) :
    ∃ token, found = [token] ∧ token.kind = lexeme.kind ∧ token.text = lexeme.text := by
  obtain ⟨token, rest, rfl, kind, text, ended⟩ := occurs.cons
  rw [ended.nil]
  exact ⟨token, rfl, kind, text⟩

/-- What holds of the class and the text of every lexeme holds of every token. -/
theorem forall_mem (occurs : Occurs source written found) (property : Kind → Text → Prop)
    (holds : ∀ chunk ∈ written, chunk.Each property) :
    ∀ token ∈ found, property token.kind token.text := by
  obtain ⟨before, after, -, rfl⟩ := occurs.stands
  clear occurs
  generalize before.length = offset
  induction written generalizing offset with
  | nil => simp [spread]
  | cons chunk rest inductionHypothesis =>
    intro token member
    rcases List.mem_append.mp member with inside | later
    · obtain ⟨lexeme, listed, kind, text⟩ := mem_placed inside
      rw [kind, text]
      exact holds chunk List.mem_cons_self lexeme listed
    · exact inductionHypothesis (fun other listed => holds other (List.mem_cons_of_mem _ listed))
        _ token later

end Occurs

/-- Chunks with a blank before each are, from the first one on, the chunks joined by
blanks. -/
theorem drop_spaced (written : List Chunk) :
    (spaced written).drop 1 = Text.join [' '] (written.map Chunk.text) := by
  induction written with
  | nil => rfl
  | cons chunk rest inductionHypothesis =>
    cases rest with
    | nil => simp [Text.join]
    | cons next others =>
      rw [List.map_cons] at inductionHypothesis ⊢
      simp only [List.map_cons, Text.join] at inductionHypothesis ⊢
      rw [← inductionHypothesis]
      simp

/-- Nothing is trimmed off a text with no character of the class at its ends. -/
theorem trimWhile_eq {p : Char → Bool} {text : Text}
    (opened : ∃ c more, text = c :: more ∧ p c = false)
    (closed : ∃ c more, text = more ++ [c] ∧ p c = false) : Text.trimWhile p text = text := by
  obtain ⟨c, more, front, kept⟩ := opened
  obtain ⟨d, others, back, left⟩ := closed
  have started : text.dropWhile p = text := by
    rw [front]
    simp [List.dropWhile, kept]
  rw [Text.trimWhile, started, back]
  simp [Text.dropEndWhile, left]

/-- Joined chunks have no white space at their ends. -/
theorem trim_join {written : List Chunk} (apart : ∀ chunk ∈ written, chunk.IsApart)
    (nonempty : written ≠ []) :
    Text.trim (Text.join [' '] (written.map Chunk.text)) =
      Text.join [' '] (written.map Chunk.text) := by
  rw [← drop_spaced]
  apply trimWhile_eq
  · obtain ⟨first, rest, rfl⟩ := List.exists_cons_of_ne_nil nonempty
    obtain ⟨c, more, text, visible⟩ := (apart first List.mem_cons_self).opened
    exact ⟨c, more ++ spaced rest, by simp [text], visible⟩
  · obtain ⟨init, last, rfl⟩ := (List.eq_nil_or_concat written).resolve_left nonempty
    obtain ⟨c, more, text, visible⟩ := (apart last (by simp)).closed
    refine ⟨c, (spaced init ++ ' ' :: more).drop 1, ?_, visible⟩
    cases init <;> simp [text]

/-- The slice of the source from the first of some chunks to the last one is these chunks
joined by blanks. -/
theorem Occurs.slice_eq {source : Text} {written : List Chunk} {found : List Token}
    (occurs : Occurs source written found) :
    slice source found = Text.join [' '] (written.map Chunk.text) := by
  by_cases nonempty : written = []
  · subst nonempty
    rw [occurs.nil]
    rfl
  obtain ⟨before, after, text, rfl⟩ := occurs.stands
  obtain ⟨first, rest, opening⟩ := List.exists_cons_of_ne_nil nonempty
  obtain ⟨init, last, closing⟩ := (List.eq_nil_or_concat written).resolve_left nonempty
  obtain ⟨opener, found, start⟩ : ∃ token, (spread before.length written).head? = some token ∧
      token.start = before.length + 1 := by
    have reach := (occurs.apart first (by simp [opening])).ne_nil
    obtain ⟨token, front, start⟩ := (placed_ends reach).1
    exact ⟨token, by rw [opening, spread, List.head?_append, front, Option.some_or], start⟩
  obtain ⟨closer, seen, ended⟩ : ∃ token, (spread before.length written).getLast? = some token ∧
      token.stop = before.length + (spaced written).length := by
    have reach := (occurs.apart last (by simp [closing])).ne_nil
    obtain ⟨token, back, stop⟩ := (placed_ends reach).2
    rw [closing, List.concat_eq_append, spread_append, spread, spread, List.append_nil]
    refine ⟨token, by rw [List.getLast?_append, back, Option.some_or], ?_⟩
    rw [stop, ← Chunk.text]
    simp
    omega
  have cut : (source.drop opener.start).take (closer.stop - opener.start) =
      (spaced written).drop 1 := by
    have width : before.length + (spaced written).length - (before.length + 1) =
        ((spaced written).drop 1).length := by
      rw [List.length_drop]
      omega
    have reached : source.drop (before.length + 1) = (spaced written).drop 1 ++ after := by
      rw [text, List.append_assoc, List.drop_append, opening]
      simp
    rw [start, ended, width, reached, List.take_left]
  rw [slice, found, seen]
  simp only
  rw [cut, drop_spaced, trim_join occurs.apart nonempty]

end Docblock.Source
