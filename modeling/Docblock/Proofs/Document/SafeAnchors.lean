import Docblock.Proofs.Document.Outcome
import Docblock.Proofs.Links.Structure

/-!
# Anchors stand for themselves

A document writes the anchor of a type between the quotes of an attribute, where a section
starts, and between the parentheses of links: in the table of contents, where another section
mentions the type, and where the link pass finds its name. All of these are slugs, whatever the
names of the types are. So none of them ends the attribute or the target that it stands in, and
none holds a character that would be read as another one there.

What the link pass makes of the text around an anchor is not looked at here, and the addresses of
built-in classes are no anchors.
-/

namespace Docblock.Document

open Documented

/-- Reads text that stands for itself up to a closing character, and gives what stands behind
that. Nothing is read where a special character comes first. -/
def readLiteral (closing : Char) (isSpecial : Char → Bool) : Text → Option (Text × Text)
  | [] => none
  | c :: rest =>
    if c = closing then some ([], rest)
    else if isSpecial c then none
    else (readLiteral closing isSpecial rest).map fun (value, behind) => (c :: value, behind)

/-- The characters that make up markup and references to other characters, and control
characters. -/
def isMarkup (c : Char) : Bool :=
  c == '&' || c == '<' || c == '>' || c.toNat < 0x20 || c.toNat == 0x7F

/-- Reads the value of an attribute behind its opening quote. -/
def readAttribute (s : Text) : Option (Text × Text) := readLiteral '"' isMarkup s

/-- Reads the target of a link behind its opening parenthesis. White space ends a target,
parentheses in it are matched, and a backslash takes the meaning from the next character. -/
def readTarget (s : Text) : Option (Text × Text) :=
  readLiteral ')' (fun c => isMarkup c || c == '(' || c == '\\' || Text.isBlank c) s

/-- An anchor of the shape of slugs that is read as it is written. -/
structure IsSafeAnchor (anchor : Text) : Prop where
  slug : Markdown.IsSlug anchor
  inQuotes : ∀ behind, readAttribute (anchor ++ '"' :: behind) = some (anchor, behind)
  inParentheses : ∀ behind,
    readTarget ('#' :: anchor ++ ')' :: behind) = some ('#' :: anchor, behind)

/-- A name of the link pass is linked to an anchor that is read as it is written, or to the address
of a built-in class. -/
def LeadsSafely (settings : DocumentSettings) (entry : Text × Text) : Prop :=
  (∃ anchor, IsSafeAnchor anchor ∧ entry.2 = '#' :: anchor) ∨
    addressOf settings entry.1 = .ok entry.2

/-- A document writes anchors that are read as they are written. -/
structure WritesSafeAnchors (settings : DocumentSettings) (single : Bool) (table : MemberTable)
    (entities : List Entity) (links : Keyed Text) : Prop where
  /-- Each type has an anchor for its slug. The line of the type in the table of contents leads
  to it, and where there is such a table the section of the type starts with it. -/
  own : ∀ entity ∈ entities, ∃ anchor, IsSafeAnchor anchor ∧ IsAnchorFor entity.anchor anchor ∧
    contentsLine (anchorsOf entities) entity =
      "- ".toList ++ link (entity.title contentsFormat) ('#' :: anchor) ∧
    (single = false → ∃ below,
      sectionOf settings (anchorsOf entities) single table entity = anchorLine anchor ++ below)
  /-- A name that a section mentions is linked to an anchor or not at all. -/
  mentioned : ∀ name, mention (anchorsOf entities) name = name ∨ ∃ anchor, IsSafeAnchor anchor ∧
    mention (anchorsOf entities) name = link name ('#' :: anchor)
  /-- The link pass leads to anchors and to the addresses of built-in classes. -/
  linked : ∀ entry ∈ links, LeadsSafely settings entry

/-- Plain text is read up to the character that closes it. -/
theorem readLiteral_append {closing : Char} {isSpecial : Char → Bool} {s : Text}
    (plain : ∀ c ∈ s, c ≠ closing ∧ isSpecial c = false) (behind : Text) :
    readLiteral closing isSpecial (s ++ closing :: behind) = some (s, behind) := by
  induction s with
  | nil => simp [readLiteral]
  | cons c rest inductionHypothesis =>
    obtain ⟨⟨unclosed, unspecial⟩, others⟩ := List.forall_mem_cons.mp plain
    rw [List.cons_append, readLiteral, if_neg unclosed, unspecial, inductionHypothesis others]
    rfl

/-- Slugs are read as they are written. -/
theorem isSafeAnchor_of_isSlug {anchor : Text} (isSlug : Markdown.IsSlug anchor) :
    IsSafeAnchor anchor where
  slug := isSlug
  inQuotes behind := readLiteral_append (isSlug.forall_mem (by decide)) behind
  inParentheses behind := by
    apply readLiteral_append _ behind
    rw [List.forall_mem_cons]
    exact ⟨by decide, isSlug.forall_mem (by decide)⟩

section Places

variable {settings : DocumentSettings} {entities : List Entity}

/-- The anchors of a document are read as they are written. -/
theorem isSafeAnchor_of_mem {entry : Text × Text} (listed : entry ∈ anchorsOf entities) :
    IsSafeAnchor entry.2 :=
  isSafeAnchor_of_isSlug (isSlug_anchorsOf entities entry listed)

/-- The anchor that a name stands for is one of those of a document. -/
theorem exists_entry_of_anchorFor? {anchors : Keyed Text} {name anchor : Text}
    (found : anchorFor? anchors name = some anchor) : ∃ entry ∈ anchors, entry.2 = anchor := by
  rw [anchorFor?, Option.or_eq_some_iff] at found
  rcases found with exactly | ⟨-, otherwise⟩
  · exact ⟨_, Keyed.mem_of_find? exactly, rfl⟩
  · obtain ⟨entry, sameLetters, rfl⟩ := Option.map_eq_some_iff.mp otherwise
    exact ⟨entry, List.mem_of_find?_eq_some sameLetters, rfl⟩

/-- A name is mentioned with a link to an anchor, or without any link. -/
theorem mention_cases (entities : List Entity) (name : Text) :
    mention (anchorsOf entities) name = name ∨ ∃ anchor, IsSafeAnchor anchor ∧
      mention (anchorsOf entities) name = link name ('#' :: anchor) := by
  rw [mention]
  cases found : anchorFor? (anchorsOf entities) name with
  | none => exact .inl rfl
  | some anchor =>
    obtain ⟨entry, listed, rfl⟩ := exists_entry_of_anchorFor? found
    exact .inr ⟨entry.2, isSafeAnchor_of_mem listed, rfl⟩

/-- The names of the link pass lead to anchors and addresses, however many built-in classes are
linked. -/
theorem leadsSafely_of_sections {resolver : Resolver} {single : Bool} {table : MemberTable}
    {texts : List Text} {links : Keyed Text}
    (written : (sections settings resolver (anchorsOf entities) single entities
      (sectionLinks (anchorsOf entities)) table).1 = .ok (texts, links)) :
    ∀ entry ∈ links, LeadsSafely settings entry := by
  have start : ∀ entry ∈ sectionLinks (anchorsOf entities), LeadsSafely settings entry := by
    intro entry member
    obtain ⟨known, listed, rfl⟩ := List.mem_map.mp member
    exact .inl ⟨known.2, isSafeAnchor_of_mem listed, rfl⟩
  apply sections_preserves (fun links => ∀ entry ∈ links, LeadsSafely settings entry) _ start
    written
  intro before name address led filled entry member
  rcases Keyed.mem_of_mem_putNew member with rfl | inside
  · exact .inr filled
  · exact led entry inside

/-- Each type of a document writes an anchor for its slug. Types of different names are assumed,
since of two types with one name only the later one would keep its anchor. -/
theorem writes_own_anchor (distinct : (entities.map (·.name)).Nodup) {entity : Entity}
    (member : entity ∈ entities) (single : Bool) (table : MemberTable) :
    ∃ anchor, IsSafeAnchor anchor ∧ IsAnchorFor entity.anchor anchor ∧
      contentsLine (anchorsOf entities) entity =
        "- ".toList ++ link (entity.title contentsFormat) ('#' :: anchor) ∧
      (single = false → ∃ below, sectionOf settings (anchorsOf entities) single table entity =
        anchorLine anchor ++ below) := by
  obtain ⟨anchor, found⟩ := exists_anchor entity member
  refine ⟨anchor, isSafeAnchor_of_mem (Keyed.mem_of_find? found),
    isAnchorFor_of_find? distinct member found, ?_, ?_⟩
  · rw [contentsLine, found, Option.getD_some]
  · rintro rfl
    obtain ⟨below, starts⟩ :=
      anchorLine_prefix_sectionOf settings (anchorsOf entities) table entity
    rw [found, Option.getD_some] at starts
    exact ⟨below, starts.symm⟩

/-- A document that was assembled is made of the contents and the sections of its types. It has
at least one type, so the white space that is cut off its end is never that of the contents. -/
theorem assemble_parts {resolver : Resolver} {single : Bool} {names : List Text}
    {table : MemberTable} {state : Resolution} {text : Text}
    (assembled : (assemble settings resolver single names table state).1 = .ok text) :
    ∃ entities links,
      (collect settings resolver [] names state).1 = .ok entities ∧
      (sections settings resolver (anchorsOf entities) single entities
        (sectionLinks (anchorsOf entities)) table).1 =
          .ok (entities.map (sectionOf settings (anchorsOf entities) single table), links) ∧
      text = (if single then [] else contentsOf (anchorsOf entities) entities) ++
        Text.trimEnd (linkNames links (Text.join ['\n']
          (entities.map (sectionOf settings (anchorsOf entities) single table)))) ++ ['\n'] := by
  obtain ⟨entities, texts, links, collected, written, rfl⟩ := assemble_eq_ok assembled
  have nonempty : entities ≠ [] := by
    rintro rfl
    unfold assemble at assembled
    split at assembled
    · cases assembled
    · cases assembled
    · rename_i found after filled same
      rw [same] at collected
      cases collected
      exact filled rfl
  obtain rfl : texts = entities.map (sectionOf settings (anchorsOf entities) single table) := by
    rw [sections_eq] at written
    obtain ⟨linked, -, same⟩ := exists_of_map_eq_ok written
    exact (Prod.mk.inj same).1.symm
  exact ⟨entities, links, collected, written,
    compose_parts settings _ single table nonempty links⟩

end Places

/-- **What slugs and anchors are made of.** The slug of every title, which may be made in stages,
has small Latin letters and digits with single hyphens between them, and the texts of this shape
are those that are their own slugs. A document that is assembled, whatever its types are called,
writes no other anchors than such slugs and slugs with a number behind them, and each of them is
read as it is written: between the quotes of an attribute and, behind a number sign, between the
parentheses of a link. -/
theorem assemble_writes_slugs (settings : DocumentSettings) (resolver : Resolver) (single : Bool)
    (names : List Text) (table : MemberTable) (state : Resolution) :
    (∀ title, Markdown.slug title = Markdown.slugInStages title ∧
      Markdown.IsSlug (Markdown.slug title)) ∧
    (∀ s, Markdown.slug s = s ↔ Markdown.IsSlug s) ∧
    ∀ text, (assemble settings resolver single names table state).1 = .ok text →
      ∃ entities links,
        (collect settings resolver [] names state).1 = .ok entities ∧
        text = (if single then [] else contentsOf (anchorsOf entities) entities) ++
          Text.trimEnd (linkNames links (Text.join ['\n']
            (entities.map (sectionOf settings (anchorsOf entities) single table)))) ++ ['\n'] ∧
        WritesSafeAnchors settings single table entities links := by
  refine ⟨?_, fun s => Markdown.slug_eq_self_iff, ?_⟩
  · intro title
    exact ⟨Markdown.slug_eq_slugInStages title, Markdown.isSlug_slug title⟩
  · intro text assembled
    obtain ⟨entities, links, collected, written, parts⟩ := assemble_parts assembled
    obtain ⟨distinct, -⟩ := nodup_collect collected
    have safe : WritesSafeAnchors settings single table entities links := {
      own := fun entity member => writes_own_anchor distinct member single table
      mentioned := mention_cases entities
      linked := leadsSafely_of_sections written }
    exact ⟨entities, links, collected, parts, safe⟩

/-- Of two types with one slug the second gets a number behind it, and the document for both
writes anchors that are read as they are written. -/
theorem sharedSlug_writes_slugs :
    let resolver := twoTypes "Foo\\Bar" "Foo_Bar"
    let names := ["Foo\\Bar".toList, "Foo_Bar".toList]
    ∃ text entities links,
      (assemble {} resolver false names {} {}).1 = .ok text ∧
      (collect {} resolver [] names {}).1 = .ok entities ∧
      Keyed.values (anchorsOf entities) = ["class-foo-bar".toList, "class-foo-bar-2".toList] ∧
      text = contentsOf (anchorsOf entities) entities ++
        Text.trimEnd (linkNames links (Text.join ['\n']
          (entities.map (sectionOf {} (anchorsOf entities) false {})))) ++ ['\n'] ∧
      WritesSafeAnchors {} false {} entities links := by
  intro resolver names
  have written : (assemble {} resolver false names {} {}).1.toOption.isSome = true := by
    decide +kernel
  have anchors : (collect {} resolver [] names {}).1.toOption.map
      (fun entities => Keyed.values (anchorsOf entities)) =
        some ["class-foo-bar".toList, "class-foo-bar-2".toList] := by decide +kernel
  obtain ⟨-, -, safely⟩ := assemble_writes_slugs {} resolver false names {} {}
  cases assembled : (assemble {} resolver false names {} {}).1 with
  | error failure =>
    rw [assembled] at written
    cases written
  | ok text =>
    obtain ⟨entities, links, collected, parts, safe⟩ := safely text assembled
    rw [collected] at anchors
    exact ⟨text, entities, links, rfl, collected, Option.some.inj anchors, parts, safe⟩

end Docblock.Document
