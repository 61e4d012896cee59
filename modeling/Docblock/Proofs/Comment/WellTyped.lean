import Docblock.Proofs.Comment.Lines
import Docblock.Proofs.Comment.Parameters

/-!
# Well-typed comments

The tags of a comment hold contents of three kinds under names that may come from the comment
itself. A reading that looks at the kind of what is there before it adds to it, and gives up
where the tag is missing or of another kind, never gives up: only parameter lines and reference
lines write to the two tags that hold no running text, and no line takes one of these in hand.
So the reading that does not look is the same, and what it leaves is well typed.

This holds of every text, also of one that was not written as a comment, and in every scope.
-/

namespace Docblock.Comment

variable {builtIns : List Text} {scope : Scope}

/-- The running text that is held. -/
def TagValue.text? : TagValue → Option Text
  | .text content => some content
  | _ => none

/-- The references that are held. -/
def TagValue.references? : TagValue → Option (List Text)
  | .references items => some items
  | _ => none

/-- The documented parameters that are held. -/
def TagValue.parameters? : TagValue → Option (Keyed ParameterTag)
  | .parameters entries => some entries
  | _ => none

/-- Whether a tag is new or holds contents of a kind. -/
def admits {α : Type} (kind : TagValue → Option α) (name : Text) (tags : Tags) : Bool :=
  (Keyed.find? name tags).all (kind · |>.isSome)

namespace TagState

/-- The running text of a tag, which has to be there. -/
def running? (state : TagState) (name : Text) : Option Text :=
  (Keyed.find? name state.tags).bind TagValue.text?

/-- Extends the tag in hand, which has to hold running text. -/
def extend? (state : TagState) (addition : Text) : Option TagState :=
  (state.running? state.current).map fun _ => state.extend addition

/-- Takes another tag in hand, which has to hold running text or be new. -/
def take? (state : TagState) (name : Text) (words : List Text) : Option TagState :=
  if admits TagValue.text? name state.tags then some (state.take name words) else none

/-- Adds a parameter to the documented ones or as the first of them. -/
def addParameter? (state : TagState) (entry : ParameterTag) : Option TagState :=
  if admits TagValue.parameters? parameterTag state.tags then some (state.addParameter entry)
  else none

/-- Adds a reference to the others or as the first of them. -/
def addReference? (state : TagState) (reference : Text) : Option TagState :=
  if admits TagValue.references? referenceTag state.tags then some (state.addReference reference)
  else none

/-- Reads one line and gives up where a tag is missing or holds contents of another kind. -/
def addLine? (builtIns : List Text) (scope : Scope) (state : TagState) (line : Text) :
    Option TagState :=
  match kindOf line with
  | .empty =>
    if state.current = exampleTag then
      (state.running? exampleTag).bind fun content =>
        if content = [] then some state else state.extend? ['\n']
    else some state
  | .plain => state.extend? (joiner state.current ++ state.written line)
  | .parameter =>
    (parameterOf? builtIns scope (Text.words line)).elim (some state) state.addParameter?
  | .reference => (referenceOf? (Text.words line)).elim (some state) state.addReference?
  | .opening name => state.take? name (Text.words line).tail

end TagState

/-- The tags of a raw comment, read with every look that `TagState.addLine?` takes. -/
def tags? (builtIns : List Text) (scope : Scope) (raw : Text) : Option Tags :=
  ((Text.lines (clean raw)).foldlM (TagState.addLine? builtIns scope) {}).map fun state =>
    state.tags.map fun (name, value) => (name, value.trimmed)

/-- What a tag may hold, given what holds of running text: references under their tag, at least
one, each of them trimmed and not empty; documented parameters under theirs, at least one; and
running text under every other tag. -/
inductive Fits (settled : Text → Prop) : Text → TagValue → Prop
  | references {items : List Text} (nonempty : items ≠ [])
      (each : ∀ item ∈ items, item ≠ [] ∧ Text.IsClear Text.isBlank item) :
      Fits settled referenceTag (.references items)
  | parameters {entries : Keyed ParameterTag} (nonempty : entries ≠ [])
      (documented : AreDocumented entries) : Fits settled parameterTag (.parameters entries)
  | text {name content : Text} (other : name ≠ parameterTag ∧ name ≠ referenceTag)
      (holds : settled content) : Fits settled name (.text content)

/-- Tags that are well typed, given what holds of running text: they have different names, each
holds what it may, and the first is the description. -/
structure IsWellTyped (settled : Text → Prop) (tags : Tags) : Prop where
  description : ∃ content more, tags = (descriptionTag, .text content) :: more
  distinct : (Keyed.keys tags).Nodup
  fits : ∀ entry ∈ tags, Fits settled entry.1 entry.2

/-- A reading stands well when its tags are well typed and the one in hand holds running text. -/
structure TagState.IsSound (state : TagState) : Prop where
  current : ∃ content, Keyed.find? state.current state.tags = some (.text content)
  wellTyped : IsWellTyped (fun _ => True) state.tags

section Contents

variable {settled : Text → Prop} {tags : Tags} {name : Text}

/-- A tag that is found holds what it may. -/
theorem IsWellTyped.fits_of_find? (wellTyped : IsWellTyped settled tags) {value : TagValue}
    (found : Keyed.find? name tags = some value) : Fits settled name value :=
  wellTyped.fits (name, value) (Keyed.mem_of_find? found)

/-- A tag that holds running text is neither that of parameters nor that of references. -/
theorem Fits.other {content : Text} (fits : Fits settled name (.text content)) :
    name ≠ parameterTag ∧ name ≠ referenceTag := by
  cases fits with
  | text other => exact other

/-- Tags stay well typed when one of them is given what it may hold. -/
theorem IsWellTyped.put (wellTyped : IsWellTyped settled tags) {value : TagValue}
    (fits : Fits settled name value) : IsWellTyped settled (Keyed.put name value tags) where
  description := by
    obtain ⟨content, more, rfl⟩ := wellTyped.description
    by_cases same : descriptionTag = name
    · subst same
      cases fits with
      | text => exact ⟨_, more, if_pos rfl⟩
    · exact ⟨content, Keyed.put name value more, if_neg same⟩
  distinct := Keyed.nodup_keys_put _ _ wellTyped.distinct
  fits := by
    intro entry member
    rcases Keyed.mem_of_mem_put member with rfl | there
    · exact fits
    · exact wellTyped.fits entry there

/-- A tag for running text is new or holds some. -/
theorem IsWellTyped.admits_text (wellTyped : IsWellTyped settled tags)
    (other : name ≠ parameterTag ∧ name ≠ referenceTag) :
    admits TagValue.text? name tags = true := by
  rw [admits]
  cases found : Keyed.find? name tags with
  | none => rfl
  | some value =>
    cases wellTyped.fits_of_find? found with
    | text => rfl
    | references => exact absurd rfl other.2
    | parameters => exact absurd rfl other.1

/-- The tag of parameters is new or holds documented ones, which may be added to. -/
theorem IsWellTyped.admits_parameters (wellTyped : IsWellTyped settled tags) :
    admits TagValue.parameters? parameterTag tags = true ∧ AreDocumented (parametersOf tags) := by
  rw [admits, parametersOf]
  cases found : Keyed.find? parameterTag tags with
  | none => exact ⟨rfl, areDocumented_nil⟩
  | some value =>
    cases wellTyped.fits_of_find? found with
    | text other => exact absurd rfl other.1
    | parameters nonempty documented => exact ⟨rfl, documented⟩

/-- The tag of references is new or holds some, which are trimmed. -/
theorem IsWellTyped.admits_references (wellTyped : IsWellTyped settled tags) :
    admits TagValue.references? referenceTag tags = true ∧
      ∀ item ∈ referencesOf tags, item ≠ [] ∧ Text.IsClear Text.isBlank item := by
  rw [admits, referencesOf]
  cases found : Keyed.find? referenceTag tags with
  | none => exact ⟨rfl, by simp⟩
  | some value =>
    cases wellTyped.fits_of_find? found with
    | text other => exact absurd rfl other.2
    | references nonempty each => exact ⟨rfl, each⟩

/-- What a reference line says is trimmed and not empty. -/
theorem isClear_of_referenceOf? {line reference : Text}
    (read : referenceOf? (Text.words line) = some reference) :
    reference ≠ [] ∧ Text.IsClear Text.isBlank reference := by
  have framed {front back : Char} (inner : Text) (opened : Text.isBlank front = false)
      (closed : Text.isBlank back = false) :
      front :: inner ++ [back] ≠ [] ∧ Text.IsClear Text.isBlank (front :: inner ++ [back]) := by
    refine ⟨by simp, ?_⟩
    rintro c (first | last)
    · cases first
      exact opened
    · rw [List.getLast?_concat] at last
      cases last
      exact closed
  have words : ∀ word ∈ Text.words line, word ≠ [] ∧ Text.IsClear Text.isBlank word :=
    fun word listed => ⟨Text.ne_nil_of_mem_runs listed,
      Text.isClear_of_forall (Text.visible_of_mem_words listed)⟩
  unfold referenceOf? at read
  split at read
  · rename_i tag first rest split
    rw [split] at words
    split at read
    · split at read
      · cases read
        exact framed first (by decide) (by decide)
      · cases read
        have labelled := @framed '[' ')' (Text.join [' '] rest ++ [']', '('] ++ first)
          (by decide) (by decide)
        simpa using labelled
    · cases read
      exact Text.isClear_join (List.cons_ne_nil _ _) (List.forall_mem_cons.mp words).2
  · cases read

end Contents

namespace TagState.IsSound

variable {state : TagState}

/-- A reading starts well. -/
theorem start : IsSound {} where
  current := ⟨[], rfl⟩
  wellTyped := by
    refine ⟨⟨[], [], rfl⟩, by simp [Keyed.keys], ?_⟩
    intro entry member
    obtain rfl := List.mem_singleton.mp member
    exact .text (by decide) trivial

/-- The tag in hand can be extended, and the reading stands well after it. -/
theorem extend (sound : state.IsSound) (addition : Text) :
    state.extend? addition = some (state.extend addition) ∧ (state.extend addition).IsSound := by
  obtain ⟨content, found⟩ := sound.current
  have other := (sound.wellTyped.fits_of_find? found).other
  refine ⟨by simp [extend?, running?, found, TagValue.text?], ?_⟩
  simp only [TagState.extend, found]
  exact ⟨⟨_, Keyed.find?_put_same _ _ _⟩, sound.wellTyped.put (.text other trivial)⟩

/-- A tag for running text can be taken in hand, and the reading stands well after it. -/
theorem take (sound : state.IsSound) {name : Text}
    (other : name ≠ parameterTag ∧ name ≠ referenceTag) (words : List Text) :
    state.take? name words = some (state.take name words) ∧ (state.take name words).IsSound := by
  refine ⟨by simp [take?, sound.wellTyped.admits_text other], ?_⟩
  exact ⟨⟨_, Keyed.find?_put_same _ _ _⟩, sound.wellTyped.put (.text other trivial)⟩

/-- A sound parameter can be added, and the reading stands well after it. -/
theorem addParameter (sound : state.IsSound) {entry : ParameterTag} (isSound : entry.IsSound) :
    state.addParameter? entry = some (state.addParameter entry) ∧
      (state.addParameter entry).IsSound := by
  obtain ⟨admitted, documented⟩ := sound.wellTyped.admits_parameters
  obtain ⟨content, found⟩ := sound.current
  have other := (sound.wellTyped.fits_of_find? found).other
  refine ⟨by simp [addParameter?, admitted], ⟨content, ?_⟩, ?_⟩
  · exact (Keyed.find?_put_other _ _ _ _ other.1).trans found
  · exact sound.wellTyped.put (.parameters (Keyed.put_ne_nil _ _ _) (documented.put isSound))

/-- A trimmed reference can be added, and the reading stands well after it. -/
theorem addReference (sound : state.IsSound) {reference : Text}
    (trimmed : reference ≠ [] ∧ Text.IsClear Text.isBlank reference) :
    state.addReference? reference = some (state.addReference reference) ∧
      (state.addReference reference).IsSound := by
  obtain ⟨admitted, each⟩ := sound.wellTyped.admits_references
  obtain ⟨content, found⟩ := sound.current
  have other := (sound.wellTyped.fits_of_find? found).other
  refine ⟨by simp [addReference?, admitted], ⟨content, ?_⟩, ?_⟩
  · exact (Keyed.find?_put_other _ _ _ _ other.2).trans found
  · refine sound.wellTyped.put (.references (by simp) ?_)
    intro item member
    rcases List.mem_append.mp member with there | added
    · exact each item there
    · rwa [List.mem_singleton.mp added]

/-- A line can be read, and the reading stands well after it. -/
theorem addLine (sound : state.IsSound) (builtIns : List Text) (scope : Scope) (line : Text) :
    state.addLine? builtIns scope line = some (state.addLine builtIns scope line) ∧
      (state.addLine builtIns scope line).IsSound := by
  rw [addLine?, addLine_eq]
  cases kind : kindOf line with
  | empty =>
    by_cases inExample : state.current = exampleTag
    · obtain ⟨content, found⟩ := sound.current
      rw [inExample] at found
      by_cases nothing : content = []
      · simpa [inExample, running?, textOf, found, TagValue.text?, nothing] using sound
      · simpa [inExample, running?, textOf, found, TagValue.text?, nothing] using
          sound.extend ['\n']
    · simpa [inExample] using sound
  | plain => exact sound.extend _
  | parameter =>
    cases read : parameterOf? builtIns scope (Text.words line) with
    | none => exact ⟨rfl, sound⟩
    | some entry => exact sound.addParameter (isSound_of_parameterOf? read)
  | reference =>
    cases read : referenceOf? (Text.words line) with
    | none => exact ⟨rfl, sound⟩
    | some reference => exact sound.addReference (isClear_of_referenceOf? read)
  | opening name => exact sound.take (opens_running kind) _

/-- All lines can be read, and the reading stands well after them. -/
theorem addLines (sound : state.IsSound) (builtIns : List Text) (scope : Scope)
    (lines : List Text) :
    lines.foldlM (addLine? builtIns scope) state =
        some (lines.foldl (TagState.addLine builtIns scope) state) ∧
      (lines.foldl (TagState.addLine builtIns scope) state).IsSound := by
  induction lines generalizing state with
  | nil => exact ⟨rfl, sound⟩
  | cons line rest inductionHypothesis =>
    obtain ⟨read, after⟩ := sound.addLine builtIns scope line
    rw [List.foldlM_cons, read]
    exact inductionHypothesis after

end TagState.IsSound

/-- Well-typed tags are trimmed to well-typed tags with trimmed running text. -/
theorem IsWellTyped.trimmed {tags : Tags} (wellTyped : IsWellTyped (fun _ => True) tags) :
    IsWellTyped (Text.IsClear Text.isBlank)
      (tags.map fun (name, value) => (name, value.trimmed)) where
  description := by
    obtain ⟨content, more, rfl⟩ := wellTyped.description
    exact ⟨_, _, rfl⟩
  distinct := by
    rw [Keyed.keys_mapValues]
    exact wellTyped.distinct
  fits := by
    intro entry member
    obtain ⟨⟨name, value⟩, there, rfl⟩ := List.mem_map.mp member
    cases wellTyped.fits _ there with
    | text other => exact .text other (Text.isClear_trimWhile _ _)
    | references nonempty each =>
      refine .references (by simpa using nonempty) ?_
      intro item listed
      obtain ⟨written, known, rfl⟩ := List.mem_map.mp listed
      rw [Text.trim, (each written known).2.trimWhile_eq]
      exact each written known
    | parameters nonempty documented =>
      exact .parameters (by simpa using nonempty) documented.trimmed

/-- The parameters that a comment documents have different names. -/
theorem nodup_documentedNames (builtIns : List Text) (scope : Scope) (raw : Text) :
    ((Keyed.values (parametersOf (tags builtIns scope raw))).map (·.name)).Nodup := by
  have sound := (TagState.IsSound.start.addLines builtIns scope (Text.lines (clean raw))).2
  have documented := sound.wellTyped.trimmed.admits_parameters.2
  rw [tags, tagsOfLines, documented.names_eq]
  exact documented.distinct

/-- **Comments are well typed.** Every comment can be read, in every scope, and so can a missing
one, which is read as an empty one. No look at a tag on the way finds it missing or with
contents of another kind, so the tag in hand holds running text after every line. The tags that
are read have different names, the description is the first, references and documented
parameters stand under their own tags alone, and all other tags hold trimmed text. -/
theorem tags_wellTyped (builtIns : List Text) (scope : Scope) (comment : Option Text) :
    let raw := comment.getD []
    tags? builtIns scope raw = some (tags builtIns scope raw) ∧
    IsWellTyped (Text.IsClear Text.isBlank) (tags builtIns scope raw) ∧
    ∀ count,
      let state := ((Text.lines (clean raw)).take count).foldl (TagState.addLine builtIns scope) {}
      ∃ content, Keyed.find? state.current state.tags = some (.text content) := by
  intro raw
  obtain ⟨whole, sound⟩ := TagState.IsSound.start.addLines builtIns scope (Text.lines (clean raw))
  refine ⟨?_, sound.wellTyped.trimmed, fun count => ?_⟩
  · rw [tags?, whole]
    rfl
  · exact (TagState.IsSound.start.addLines builtIns scope _).2.current

end Docblock.Comment
