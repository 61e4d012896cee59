import Docblock.Proofs.Document.Numbering
import Docblock.Proofs.Text.Ends

/-!
# The headings of a document

A document names each of its types twice, when it is for several ones: in the table of contents,
with the anchor that its line leads to, and on top of its section, below the line of the same
anchor. The lines are told here as they are written, from the titles and anchors in the order of
the types.

A title starts with the word for the kind of its type, so it is never empty, and no white space
that is cut off behind a section is part of the heading.
-/

namespace Docblock

namespace Text

/-- A character that does not start a text is kept when the text is replaced. -/
theorem replaceAll_cons_of_ne {c d : Char} (differs : d ≠ c) (old new rest : Text) :
    replaceAll (d :: old) new (c :: rest) = c :: replaceAll (d :: old) new rest := by
  rw [replaceAll, if_neg]
  rintro ⟨-, starts⟩
  simp [differs] at starts

/-- A text at the front is replaced first. -/
theorem replaceAll_append {old : Text} (nonempty : old ≠ []) (new rest : Text) :
    replaceAll old new (old ++ rest) = new ++ replaceAll old new rest := by
  obtain ⟨c, more, rfl⟩ := List.exists_cons_of_ne_nil nonempty
  have starts : (c :: more).isPrefixOf (c :: more ++ rest) = true :=
    List.isPrefixOf_iff_prefix.mpr (List.prefix_append _ _)
  rw [List.cons_append] at starts ⊢
  rw [replaceAll, if_pos ⟨nonempty, starts⟩, ← List.cons_append, List.drop_left]

/-- Replacing a text changes nothing where it does not occur. -/
theorem replaceAll_of_not_occursIn {old s : Text} (absent : occursIn old s = false) (new : Text) :
    replaceAll old new s = s := by
  induction s with
  | nil => rw [replaceAll]
  | cons c rest inductionHypothesis =>
    rw [occursIn, Bool.or_eq_false_iff] at absent
    rw [replaceAll, if_neg (by simp [absent.1]), inductionHypothesis absent.2]

/-- What is trimmed ends with a visible character if it has one at all. -/
theorem endsVisibly_trim {s : Text} {c : Char} (member : c ∈ s) (visible : isBlank c = false) :
    EndsVisibly (trim s) := by
  rcases trimWhile_cases isBlank s with ⟨blank, -⟩ | ⟨d, more, -, -, trimmed⟩
  · rw [blank c member] at visible
    cases visible
  · obtain ⟨last, ending⟩ : ∃ last, (trim s).getLast? = some last := by
      rw [trim, trimmed]
      exact ⟨_, List.getLast?_eq_some_getLast (List.cons_ne_nil _ _)⟩
    obtain ⟨front, whole⟩ := List.getLast?_eq_some_iff.mp ending
    exact ⟨last, front, whole, isClear_trimWhile isBlank s last (.inr ending)⟩

end Text

namespace Documented

/-- A title ends with a visible character, since the word for the kind of its type is in front. -/
theorem Entity.endsVisibly_title (entity : Entity) : Text.EndsVisibly entity.title := by
  obtain ⟨c, word, label, seen, plain⟩ :
      ∃ c word, entity.label = c :: word ∧ Text.isBlank c = false ∧ '%' ≠ c := by
    unfold label
    split
    · exact ⟨'I', _, rfl, by decide, by decide⟩
    · split
      · exact ⟨'T', _, rfl, by decide, by decide⟩
      · exact ⟨'C', _, rfl, by decide, by decide⟩
  have format : Text.replaceAll "%label%".toList entity.label titleFormat =
      c :: (word ++ Text.replaceAll "%label%".toList entity.label ": %name% %extra%".toList) := by
    have front : titleFormat = "%label%".toList ++ ": %name% %extra%".toList := by decide
    rw [front, Text.replaceAll_append (by decide), ← List.cons_append, ← label]
  have name : "%name%".toList = '%' :: "name%".toList := rfl
  have extra : "%extra%".toList = '%' :: "extra%".toList := rfl
  rw [title, format, name, Text.replaceAll_cons_of_ne plain, extra,
    Text.replaceAll_cons_of_ne plain]
  exact Text.endsVisibly_trim List.mem_cons_self seen

/-- The title of a type in a table of contents is its name with a remark on interfaces and on what
is abstract. -/
theorem Entity.title_contents (entity : Entity) :
    entity.title contentsFormat = Text.trim (Text.replaceAll "%extra%".toList
      (if entity.kind = "interface".toList then "(interface)".toList
        else if entity.isAbstract then "(abstract)".toList else [])
      (entity.name ++ " %extra%".toList)) := by
  have unlabelled : Text.occursIn "%label%".toList contentsFormat = false := by decide
  have named : Text.replaceAll "%name%".toList entity.name contentsFormat =
      entity.name ++ " %extra%".toList := by
    have rest : Text.occursIn "%name%".toList " %extra%".toList = false := by decide
    have front : contentsFormat = "%name%".toList ++ " %extra%".toList := by decide
    rw [front, Text.replaceAll_append (by decide), Text.replaceAll_of_not_occursIn rest]
  rw [title, Text.replaceAll_of_not_occursIn unlabelled, named, unlabelled, remark, isInterface]
  simp only [beq_iff_eq, Bool.false_eq_true, if_false]

end Documented

namespace Document

open Documented

/-- The line of a table of contents with the title of a type and the anchor that it leads to. -/
def contentsItem (entity : Entity) (anchor : Text) : Text :=
  "- [".toList ++ entity.title contentsFormat ++ "](#".toList ++ anchor ++ ")".toList

/-- The line of a type in the table of contents has its title and its anchor. -/
theorem contentsLine_eq (anchors : Keyed Text) (entity : Entity) :
    contentsLine anchors entity =
      contentsItem entity ((Keyed.find? entity.name anchors).getD []) := by
  have opening : "- [".toList = "- ".toList ++ ['['] := by decide
  have middle : "](#".toList = "](".toList ++ ['#'] := by decide
  have closing : ")".toList = [')'] := by decide
  unfold contentsLine contentsItem link
  rewrite [opening, middle, closing]
  generalize "- ".toList = mark
  generalize "](".toList = between
  simp

/-- The line with the title of a type, which is struck out when the type is deprecated. -/
def headline (entity : Entity) : Text :=
  "### ".toList ++
    if entity.prose.deprecation.isSome then "<del>".toList ++ entity.title ++ "</del>".toList
    else entity.title

/-- What stands on top of the section of a type: the line of its anchor in a document for several
types, and the line with its title. -/
def heading (single : Bool) (entity : Entity) (anchor : Text) : Text :=
  (if single then [] else "<hr /><a id=\"".toList ++ anchor ++ "\"></a>".toList ++ ['\n', '\n']) ++
    headline entity

section Anchors

variable {entities : List Entity} (distinct : (entities.map (·.name)).Nodup)
include distinct

/-- The anchors of a document in the order of its types. -/
theorem values_anchorsOf :
    Keyed.values (anchorsOf entities) =
      entities.map fun entity => (Keyed.find? entity.name (anchorsOf entities)).getD [] := by
  have keys := keys_anchorsOf distinct
  have single : (Keyed.keys (anchorsOf entities)).Nodup := keys ▸ distinct
  calc Keyed.values (anchorsOf entities)
      = (anchorsOf entities).map fun entry =>
          (Keyed.find? entry.1 (anchorsOf entities)).getD [] :=
        List.map_congr_left fun entry listed => by rw [Keyed.find?_of_mem single listed]; rfl
    _ = (Keyed.keys (anchorsOf entities)).map fun name =>
          (Keyed.find? name (anchorsOf entities)).getD [] := by
        rw [Keyed.keys, List.map_map]
        rfl
    _ = entities.map fun entity => (Keyed.find? entity.name (anchorsOf entities)).getD [] := by
        rw [keys, List.map_map]
        rfl

/-- What holds of each type with the anchor under its name holds of the types and the anchors in
their order. -/
theorem forall₂_anchorsOf {holds : Entity → Text → Prop}
    (each : ∀ entity ∈ entities,
      holds entity ((Keyed.find? entity.name (anchorsOf entities)).getD [])) :
    List.Forall₂ holds entities (Keyed.values (anchorsOf entities)) := by
  rw [values_anchorsOf distinct, List.forall₂_map_right_iff, List.forall₂_same]
  exact each

/-- The anchor of a type is one for the slug of its title. -/
theorem isAnchorFor_of_find? {entity : Entity} (member : entity ∈ entities) {anchor : Text}
    (found : Keyed.find? entity.name (anchorsOf entities) = some anchor) :
    IsAnchorFor entity.anchor anchor := by
  obtain ⟨other, inside, named, form⟩ := exists_entity _ (Keyed.mem_of_find? found)
  obtain rfl : other = entity := List.inj_on_of_nodup_map distinct inside member named
  exact form

/-- The lines of a table of contents are those with the titles and the anchors of the types. -/
theorem map_contentsLine :
    entities.map (contentsLine (anchorsOf entities)) =
      List.zipWith contentsItem entities (Keyed.values (anchorsOf entities)) := by
  rw [values_anchorsOf distinct, List.zipWith_map_right, List.zipWith_self]
  exact List.map_congr_left fun entity _ => contentsLine_eq _ entity

end Anchors

/-- The line with the title of a type ends with a visible character. -/
theorem endsVisibly_headline (entity : Entity) : Text.EndsVisibly (headline entity) := by
  unfold headline
  split
  · exact Text.EndsVisibly.append ⟨'>', _, (List.append_assoc _ "</del".toList ['>']).symm,
      by decide⟩ _
  · exact entity.endsVisibly_title.append _

/-- The heading of a section has the line of its anchor, apart from that of the title. -/
theorem heading_eq (single : Bool) (entity : Entity) (anchor : Text) :
    heading single entity anchor =
      (if single then [] else anchorLine anchor ++ ['\n', '\n']) ++ headline entity := rfl

/-- The heading of a section ends with a visible character. -/
theorem endsVisibly_heading (single : Bool) (entity : Entity) (anchor : Text) :
    Text.EndsVisibly (heading single entity anchor) :=
  (endsVisibly_headline entity).append _

/-- A section opens with its heading. -/
theorem typeSection_opens (anchors : Keyed Text) (shown single : Bool) (entity : Entity)
    (table : Text) :
    ∃ below, typeSection anchors shown single entity table =
      heading single entity ((Keyed.find? entity.name anchors).getD []) ++ '\n' :: below := by
  obtain ⟨others, titled⟩ : ∃ others, headingLines entity = headline entity :: [] :: others := by
    unfold headingLines headline
    cases entity.prose.deprecation <;> exact ⟨_, rfl⟩
  unfold typeSection
  simp only [titled, List.append_assoc, List.cons_append]
  generalize others ++ _ = lower
  have below := Text.exists_trimEnd_line (endsVisibly_heading single entity
    ((Keyed.find? entity.name anchors).getD [])) (Text.join ['\n'] ([] :: lower))
  rw [heading_eq] at below ⊢
  generalize anchorLine _ = above at below ⊢
  generalize headline entity = line at below ⊢
  cases single <;> simpa [Text.join] using below

end Document
end Docblock
