import Docblock.Document.Section
import Docblock.Proofs.Links.Names
import Docblock.Proofs.Markdown.Slugs

/-!
# Anchors and their lines

The anchors of a document are slugs, made of small letters, digits and hyphens, so the line
of an anchor holds no line feed and no square bracket. Each section of a document for
several types starts with such a line, and the table of contents above the sections
has none.
-/

namespace Docblock

/-- The characters after a replacement were there before or are in the new text. -/
theorem Text.mem_of_mem_replaceAll {old new s : Text} {c : Char}
    (member : c ∈ Text.replaceAll old new s) : c ∈ s ∨ c ∈ new := by
  revert member
  fun_induction Text.replaceAll old new s with
  | case1 => exact .inl
  | case2 d rest found inductionHypothesis =>
    intro member
    rcases List.mem_append.mp member with put | later
    · exact .inr put
    · exact (inductionHypothesis later).imp_left List.mem_of_mem_drop
  | case3 d rest missing inductionHypothesis =>
    intro member
    rcases List.mem_cons.mp member with rfl | later
    · exact .inl List.mem_cons_self
    · exact (inductionHypothesis later).imp_left (List.mem_cons_of_mem d)

/-- The characters of a text without white space at its ends were there before. -/
theorem Text.mem_of_mem_trim {s : Text} {c : Char} (member : c ∈ Text.trim s) : c ∈ s := by
  rw [Text.trim, Text.trimWhile, Text.dropEndWhile, List.mem_reverse] at member
  have inside := (List.dropWhile_sublist _).mem member
  exact (List.dropWhile_sublist _).mem (List.mem_reverse.mp inside)

namespace Document

open Documented

/-- The digits of a number are a slug. -/
theorem isSlug_ofNat (n : Nat) : Markdown.IsSlug (Text.ofNat n) := by
  apply Markdown.isSlug_of_run Nat.toDigits_ne_nil
  intro c member
  have digit := Nat.isDigit_of_mem_toDigits (by decide) (by decide) member
  rw [Markdown.isSlugChar, Bool.or_eq_true]
  exact .inr digit

/-- The form of an anchor for a slug: the slug itself, or the slug with a number from two on
behind a hyphen. -/
def IsAnchorFor (slug anchor : Text) : Prop :=
  anchor = slug ∨ ∃ n, 2 ≤ n ∧ anchor = slug ++ '-' :: Text.ofNat n

/-- Both forms of an anchor are slugs. -/
theorem IsAnchorFor.isSlug {slug anchor : Text} (form : IsAnchorFor slug anchor)
    (isSlug : Markdown.IsSlug slug) : Markdown.IsSlug anchor := by
  rcases form with rfl | ⟨n, -, rfl⟩
  · exact isSlug
  · exact isSlug.append (isSlug_ofNat n)

/-- The anchor that is found for a slug has one of the two forms. -/
theorem isAnchorFor_freeAnchor (used : List Text) (slug : Text) :
    IsAnchorFor slug (freeAnchor used slug) := by
  unfold freeAnchor
  split
  · cases found : (numberedAnchors slug (used.length + 1)).find? (!used.contains ·) with
    | none => exact .inl rfl
    | some numbered =>
      have listed := List.mem_of_find?_eq_some found
      obtain ⟨n, -, rfl⟩ := List.mem_map.mp listed
      exact .inr ⟨n + 2, by omega, rfl⟩
  · exact .inl rfl

/-- Each anchor of a document is one for the slug of a type of its name. -/
theorem exists_entity {entities : List Entity} :
    ∀ entry ∈ anchorsOf entities, ∃ entity ∈ entities, entity.name = entry.1 ∧
      IsAnchorFor entity.anchor entry.2 := by
  have general : ∀ anchors : Keyed Text, ∀ entry ∈ entities.foldl (fun anchors entity =>
      Keyed.put entity.name (freeAnchor (Keyed.values anchors) entity.anchor) anchors) anchors,
      entry ∈ anchors ∨ ∃ entity ∈ entities, entity.name = entry.1 ∧
        IsAnchorFor entity.anchor entry.2 := by
    induction entities with
    | nil => exact fun anchors entry known => .inl known
    | cons first rest inductionHypothesis =>
      intro anchors entry member
      rcases inductionHypothesis _ entry member with before | ⟨entity, later, form⟩
      · rcases Keyed.mem_of_mem_put before with rfl | known
        · exact .inr ⟨first, List.mem_cons_self, rfl, isAnchorFor_freeAnchor _ _⟩
        · exact .inl known
      · exact .inr ⟨entity, List.mem_cons_of_mem first later, form⟩
  intro entry member
  exact (general [] entry member).resolve_left List.not_mem_nil

/-- The anchors of a document are slugs. -/
theorem isSlug_anchorsOf (entities : List Entity) :
    ∀ entry ∈ anchorsOf entities, Markdown.IsSlug entry.2 := by
  intro entry listed
  obtain ⟨entity, -, -, form⟩ := exists_entity entry listed
  exact form.isSlug (Markdown.isSlug_slug _)

/-- The characters of the anchors of a document. -/
theorem forall_mem_anchorsOf (entities : List Entity) :
    ∀ entry ∈ anchorsOf entities, ∀ c ∈ entry.2, isAnchorChar c = true := by
  intro entry listed c inside
  have plain := (isSlug_anchorsOf entities entry listed).plain c inside
  rw [isAnchorChar, Bool.or_eq_true, Markdown.isSlugChar_iff, beq_iff_eq, or_assoc]
  exact plain

/-- Every type of a document has an anchor. -/
theorem exists_anchor {entities : List Entity} :
    ∀ entity ∈ entities, ∃ anchor, Keyed.find? entity.name (anchorsOf entities) = some anchor := by
  have general : ∀ anchors : Keyed Text, ∀ name,
      ((∃ anchor, Keyed.find? name anchors = some anchor) ∨ ∃ entity ∈ entities,
        entity.name = name) →
      ∃ anchor, Keyed.find? name (entities.foldl (fun anchors entity =>
        Keyed.put entity.name (freeAnchor (Keyed.values anchors) entity.anchor) anchors)
        anchors) = some anchor := by
    induction entities with
    | nil => simp
    | cons first rest inductionHypothesis =>
      intro anchors name known
      refine inductionHypothesis _ name ?_
      by_cases same : name = first.name
      · rw [same]
        exact .inl ⟨_, Keyed.find?_put_same _ _ _⟩
      · rw [Keyed.find?_put_other _ _ _ _ same]
        rcases known with found | ⟨entity, member, named⟩
        · exact .inl found
        · rcases List.mem_cons.mp member with rfl | later
          · exact absurd named.symm same
          · exact .inr ⟨entity, later, named⟩
  intro entity member
  exact general [] entity.name (.inr ⟨entity, member, rfl⟩)

/-- Only the types of a document have anchors in it. -/
theorem exists_name {entities : List Entity} :
    ∀ entry ∈ anchorsOf entities, ∃ entity ∈ entities, entity.name = entry.1 := by
  intro entry listed
  obtain ⟨entity, member, named, -⟩ := exists_entity entry listed
  exact ⟨entity, member, named⟩

/-- The anchors of types with different names are in the order of the types. -/
theorem keys_anchorsOf {entities : List Entity} (distinct : (entities.map (·.name)).Nodup) :
    Keyed.keys (anchorsOf entities) = entities.map (·.name) := by
  have general : ∀ anchors : Keyed Text,
      (∀ entity ∈ entities, entity.name ∉ Keyed.keys anchors) →
      Keyed.keys (entities.foldl (fun anchors entity =>
        Keyed.put entity.name (freeAnchor (Keyed.values anchors) entity.anchor) anchors)
        anchors) = Keyed.keys anchors ++ entities.map (·.name) := by
    induction entities with
    | nil => simp
    | cons first rest inductionHypothesis =>
      intro anchors new
      obtain ⟨outside, others⟩ := List.nodup_cons.mp distinct
      obtain ⟨newFirst, newRest⟩ := List.forall_mem_cons.mp new
      have absent : Keyed.find? first.name anchors = none := by
        rw [← Option.not_isSome_iff_eq_none]
        exact fun present => newFirst (Keyed.mem_keys_of_has present)
      rw [List.foldl_cons, Keyed.put_of_absent absent, inductionHypothesis others, Keyed.keys,
        List.map_append, List.append_assoc]
      · rfl
      · intro entity member
        rw [Keyed.keys, List.map_append, List.mem_append]
        rintro (known | same)
        · exact newRest entity member known
        · exact outside (List.mem_map.mpr ⟨entity, member, List.mem_singleton.mp same⟩)
  exact general [] (by simp [Keyed.keys])

/-- The line of an anchor holds neither line feeds nor square brackets. -/
theorem notMem_anchorLine {anchor : Text} (plain : ∀ c ∈ anchor, isAnchorChar c = true) {c : Char}
    (other : c = '\n' ∨ c = '[') : c ∉ anchorLine anchor := by
  have opening : ∀ d ∈ "<hr /><a id=\"".toList, d ≠ '\n' ∧ d ≠ '[' :=
    Text.forall_mem (by decide)
  have closing : ∀ d ∈ "\"></a>".toList, d ≠ '\n' ∧ d ≠ '[' :=
    Text.forall_mem (by decide)
  intro member
  have differs : ∀ d, d ≠ '\n' ∧ d ≠ '[' → c ≠ d := by
    rintro d ⟨unbroken, unbracketed⟩ rfl
    exact other.elim unbroken unbracketed
  unfold anchorLine at member
  rw [List.mem_append, List.mem_append] at member
  rcases member with (start | inside) | last
  · exact differs c (opening c start) rfl
  · rcases other with rfl | rfl
    · exact absurd (plain '\n' inside) (by decide)
    · exact absurd (plain '[' inside) (by decide)
  · exact differs c (closing c last) rfl

/-- The line of an anchor ends with an angle. -/
theorem endsVisibly_anchorLine (anchor : Text) : Text.EndsVisibly (anchorLine anchor) := by
  have closing : "\"></a>".toList = "\"></a".toList ++ ['>'] := by decide
  refine ⟨'>', "<hr /><a id=\"".toList ++ anchor ++ "\"></a".toList, ?_, by decide⟩
  unfold anchorLine
  rw [closing, List.append_assoc _ _ ['>']]

/-- The line of an anchor starts with an angle. -/
theorem exists_anchorLine (anchor : Text) : ∃ rest, anchorLine anchor = '<' :: rest := by
  have opening : "<hr /><a id=\"".toList = '<' :: "hr /><a id=\"".toList := by decide
  refine ⟨"hr /><a id=\"".toList ++ anchor ++ "\"></a>".toList, ?_⟩
  unfold anchorLine
  rw [opening, List.cons_append, List.cons_append]

/-- The section of a type has the line of its anchor. -/
theorem anchorLine_mem_typeSection {anchors : Keyed Text} {entity : Entity} {anchor : Text}
    (found : Keyed.find? entity.name anchors = some anchor)
    (plain : ∀ c ∈ anchor, isAnchorChar c = true) (shown : Bool) (table : Text) :
    anchorLine anchor ∈ Text.splitOn '\n' (typeSection anchors shown false entity table) := by
  have unbroken := notMem_anchorLine plain (.inl rfl)
  unfold typeSection
  rw [found, Option.getD_some]
  simp only [Bool.false_eq_true, if_false, List.append_assoc, List.cons_append]
  generalize lower : [] :: ([] ++ (headingLines entity ++ (referenceLines shown entity ++
    (exampleLines entity ++ ((if table = [] then [] else [table, []]) ++
      ancestryLines anchors entity))))) = below
  rw [Text.splitOn_append_cons]
  refine List.mem_append_left _ ?_
  obtain ⟨blanks, blank, whole⟩ := Text.exists_trimEnd_append
    (Text.join ['\n'] (anchorLine anchor :: below))
  refine Text.mem_splitOn_of_append_blank (endsVisibly_anchorLine anchor) blank ?_
  rw [← whole, Text.splitOn_join '\n' (List.cons_ne_nil _ _), List.flatMap_cons,
    Text.splitOn_of_notMem unbroken]
  exact List.mem_append_left _ (List.mem_singleton.mpr rfl)

/-- The title of a type in the table of contents is a line when its name is. -/
theorem notMem_title {entity : Entity} (unbroken : '\n' ∉ entity.name) :
    '\n' ∉ entity.title contentsFormat := by
  have format : '\n' ∉ contentsFormat := by decide
  have label : '\n' ∉ entity.label := by
    unfold Entity.label
    split
    · decide
    · split <;> decide
  have remark : ∀ labelled, '\n' ∉ entity.remark labelled := by
    intro labelled
    unfold Entity.remark
    split
    · split <;> decide
    · split <;> decide
  intro member
  unfold Entity.title at member
  rcases Text.mem_of_mem_replaceAll (Text.mem_of_mem_trim member) with named | new
  · rcases Text.mem_of_mem_replaceAll named with labelled | new
    · rcases Text.mem_of_mem_replaceAll labelled with old | new
      · exact format old
      · exact label new
    · exact unbroken new
  · exact remark _ new

/-- A line in the table of contents is a line when the name of its type is. -/
theorem notMem_contentsLine {entities : List Entity} {entity : Entity}
    (unbroken : '\n' ∉ entity.name) : '\n' ∉ contentsLine (anchorsOf entities) entity := by
  have target : '\n' ∉ (Keyed.find? entity.name (anchorsOf entities)).getD [] := by
    cases found : Keyed.find? entity.name (anchorsOf entities) with
    | none => simp
    | some anchor =>
      intro member
      have listed := Keyed.mem_of_find? found
      exact absurd (forall_mem_anchorsOf entities _ listed '\n' member) (by decide)
  unfold contentsLine link
  simp [target, notMem_title unbroken]

/-- A line that starts with an angle, after white space perhaps put behind it, is not
above the sections of a document. -/
theorem notMem_contents {entities : List Entity}
    (unbroken : ∀ entity ∈ entities, '\n' ∉ entity.name) (line : Text) :
    '<' :: line ∉ (["## Table of contents".toList, []] ++
      entities.map (contentsLine (anchorsOf entities)) ++ [[]]).flatMap (Text.splitOn '\n') := by
  have heading : '\n' ∉ "## Table of contents".toList := by decide
  intro member
  obtain ⟨piece, listed, inside⟩ := List.mem_flatMap.mp member
  simp only [List.mem_append, List.mem_cons, List.mem_map, List.not_mem_nil, or_false] at listed
  rcases listed with ((rfl | rfl) | ⟨entity, shown, rfl⟩) | rfl
  · rw [Text.splitOn_of_notMem heading, List.mem_singleton] at inside
    have first : some '<' = some '#' := congrArg List.head? inside
    exact absurd first (by decide)
  · simp [Text.splitOn] at inside
  · rw [Text.splitOn_of_notMem (notMem_contentsLine (unbroken entity shown)),
      List.mem_singleton] at inside
    have first : some '<' = some '-' := congrArg List.head? inside
    exact absurd first (by decide)
  · simp [Text.splitOn] at inside

end Document
end Docblock
