import Docblock.Document.Assembly
import Docblock.Proofs.Links.Addresses

/-!
# What a link pass keeps of a document

A document for several types has the line of an anchor at the start of each
section, and its link pass puts targets into the sections. Both are text to the
later names of the pass. The line of an anchor is kept unless a linked name stands
behind a mark in it, and a target is kept unless a later name strikes it; for class
names this leaves a type that is called `a` and, in the addresses of built-in
classes, types that are called `php`, `manual`, `en` or `class`.
-/

namespace Docblock

/-- White space is no part of a type name. -/
theorem Document.isIdentifierChar_of_isBlank {c : Char} (blank : Text.isBlank c = true) :
    isIdentifierChar c = false :=
  Text.eq_false_of_isBlank (by decide +kernel) blank

namespace Document

open Documented

/-- A name that is linked in a text is linked in it with white space behind. -/
theorem hits_append_blank {name s blanks : Text} (blank : ∀ c ∈ blanks, Text.isBlank c = true)
    (hits : Hits name s) : Hits name (s ++ blanks) := by
  obtain ⟨tail, ⟨front, rfl⟩, found⟩ := hits
  refine ⟨tail ++ blanks, ⟨front, by simp⟩, ?_⟩
  rw [markBefore?_eq, List.find?_isSome] at found ⊢
  obtain ⟨mark, listed, marked⟩ := found
  refine ⟨mark, listed, ?_⟩
  obtain ⟨rest, rfl, ended⟩ := isMarked_iff.mp marked
  refine isMarked_iff.mpr ⟨rest ++ blanks, by simp, ?_⟩
  cases rest with
  | cons c more => exact ended
  | nil =>
    cases blanks with
    | nil => rfl
    | cons c more => exact isIdentifierChar_of_isBlank (blank c List.mem_cons_self)

/-- Every type of a document has its section. -/
theorem exists_typeSection {settings : DocumentSettings} {resolver : Resolver}
    {anchors links linked : Keyed Text} {single : Bool} {entities : List Entity}
    {table : MemberTable} {texts : List Text}
    (written : (sections settings resolver anchors single entities links table).1 =
      .ok (texts, linked)) :
    ∀ entity ∈ entities, ∃ members,
      typeSection anchors settings.showsReferences single entity members ∈ texts := by
  induction entities generalizing links table texts with
  | nil => simp
  | cons first rest inductionHypothesis =>
    obtain ⟨next, others, -, following, rfl⟩ := sections_cons_cases written
    intro entity member
    rcases List.mem_cons.mp member with rfl | later
    · exact ⟨_, List.mem_cons_self⟩
    · obtain ⟨members, inside⟩ := inductionHypothesis following entity later
      exact ⟨members, List.mem_cons_of_mem _ inside⟩

/-- Every type of a document has its anchor, with its line in the sections. -/
theorem exists_anchorLine_mem {settings : DocumentSettings} {resolver : Resolver}
    {entities : List Entity} {links linked : Keyed Text} {table : MemberTable} {texts : List Text}
    (written : (sections settings resolver (anchorsOf entities) false entities links table).1 =
      .ok (texts, linked)) :
    ∀ entity ∈ entities, ∃ anchor, Keyed.find? entity.name (anchorsOf entities) = some anchor ∧
      (∀ c ∈ anchor, isAnchorChar c = true) ∧
      anchorLine anchor ∈ Text.splitOn '\n' (Text.join ['\n'] texts) := by
  intro entity member
  obtain ⟨anchor, found⟩ := exists_anchor entity member
  have plain := forall_mem_anchorsOf entities _ (Keyed.mem_of_find? found)
  obtain ⟨members, listed⟩ := exists_typeSection written entity member
  refine ⟨anchor, found, plain, ?_⟩
  rw [Text.splitOn_join '\n' (List.ne_nil_of_mem listed)]
  exact List.mem_flatMap.mpr ⟨_, listed, anchorLine_mem_typeSection found plain _ members⟩

/-- The names of a list are those of the list in the order in which they are linked. -/
theorem mem_sorted {links : Keyed Text} (entry : Text × Text) :
    entry ∈ links.mergeSort goesFirst ↔ entry ∈ links := List.mem_mergeSort

/-- The lines from which a document is made: those above its sections, and those of the
sections with their links. -/
theorem splitOn_parts {links : Keyed Text}
    (straight : ∀ entry ∈ links, '\n' ∉ entry.1 ∧ '\n' ∉ entry.2) (contents : List Text)
    (body : Text) :
    Text.splitOn '\n' (Text.join ['\n'] (contents ++ [linkNames links body])) =
      contents.flatMap (Text.splitOn '\n') ++
        (Text.splitOn '\n' body).map (linkInOrder (links.mergeSort goesFirst)) := by
  have linked : Text.splitOn '\n' (linkNames links body) =
      (Text.splitOn '\n' body).map (linkInOrder (links.mergeSort goesFirst)) :=
    splitOn_linkInOrder (fun entry member => straight entry ((mem_sorted entry).mp member)) _
  rw [Text.splitOn_join '\n' (by simp), List.flatMap_append, List.flatMap_singleton, linked]

/-- The line of an anchor that is in the sections of a document is in the document
exactly when no linked name stands behind a mark in it. -/
theorem anchorLine_mem_compose_iff {entities : List Entity} {links : Keyed Text}
    {texts : List Text} {anchor : Text}
    (unbroken : ∀ entity ∈ entities, '\n' ∉ entity.name)
    (straight : ∀ entry ∈ links, '\n' ∉ entry.1 ∧ '\n' ∉ entry.2)
    (plain : ∀ c ∈ anchor, isAnchorChar c = true)
    (inside : anchorLine anchor ∈ Text.splitOn '\n' (Text.join ['\n'] texts)) :
    anchorLine anchor ∈
        Text.splitOn '\n' (compose (anchorsOf entities) false entities texts links) ↔
      ∀ entry ∈ links, ¬Hits entry.1 (anchorLine anchor) := by
  obtain ⟨rest, front⟩ := exists_anchorLine anchor
  have above := notMem_contents unbroken
  unfold compose
  simp only [Bool.false_eq_true, if_false]
  generalize ["## Table of contents".toList, []] ++
    entities.map (contentsLine (anchorsOf entities)) ++ [[]] = contents at above ⊢
  have lines := splitOn_parts straight contents (Text.join ['\n'] texts)
  obtain ⟨blanks, blank, whole⟩ := Text.exists_trimEnd_append
    (Text.join ['\n'] (contents ++ [linkNames links (Text.join ['\n'] texts)]))
  rw [whole] at lines
  have ended : ∀ s : Text, anchorLine anchor ∈ Text.splitOn '\n' (s ++ ['\n']) ↔
      anchorLine anchor ∈ Text.splitOn '\n' s := by
    intro s
    rw [Text.splitOn_append_cons, List.mem_append, front]
    simp [Text.splitOn]
  rw [ended]
  constructor
  · intro member entry listed hits
    obtain ⟨more, blankMore, longer⟩ := Text.exists_mem_splitOn_append_blank blank member
    rw [lines, List.mem_append] at longer
    rcases longer with high | low
    · rw [front, List.cons_append] at high
      exact above _ high
    · have unbracketed : '[' ∉ anchorLine anchor ++ more := by
        intro bracket
        rcases List.mem_append.mp bracket with first | last
        · exact notMem_anchorLine plain (.inr rfl) first
        · exact absurd (blankMore '[' last) (by decide)
      have free := ((mem_map_linkInOrder unbracketed).mp low).2
      exact free entry ((mem_sorted entry).mpr listed) (hits_append_blank blankMore hits)
  · intro free
    refine Text.mem_splitOn_of_append_blank (endsVisibly_anchorLine anchor) blank ?_
    rw [lines]
    refine List.mem_append_right _ ?_
    refine (mem_map_linkInOrder (notMem_anchorLine plain (.inr rfl))).mpr ⟨inside, ?_⟩
    exact fun entry member => free entry ((mem_sorted entry).mp member)

/-- The links of a document are set in its joined sections. -/
theorem compose_linked (anchors : Keyed Text) (single : Bool) (entities : List Entity)
    (texts : List Text) (links : Keyed Text) :
    compose anchors single entities texts links =
      compose anchors single entities [linkNames links (Text.join ['\n'] texts)] [] := by
  have nothing : ∀ s, linkNames [] s = s := fun s => by simp [linkNames]
  unfold compose
  rw [Text.join, nothing]

/-- What becomes of the structure of a document when names are linked in its
sections. -/
structure KeepsStructure (entities : List Entity) (links : Keyed Text) (body text : Text) :
    Prop where
  /-- Names are linked to sections of the document and to addresses. -/
  targets : ∀ entry ∈ links, IsTarget (anchorsOf entities) entry.1 entry.2
  /-- The line of an anchor is kept exactly when no name stands behind a mark in it. -/
  anchors : (∀ entry ∈ links, '\n' ∉ entry.1) → ∀ entity ∈ entities, ∃ anchor,
    Keyed.find? entity.name (anchorsOf entities) = some anchor ∧
      (anchorLine anchor ∈ Text.splitOn '\n' text ↔
        ∀ entry ∈ links, ¬Hits entry.1 (anchorLine anchor))
  /-- Among class names, only that of the element for anchors is in the way. -/
  namedAnchors : (∀ entry ∈ links, IsClassName entry.1) → ∀ entity ∈ entities, ∃ anchor,
    Keyed.find? entity.name (anchorsOf entities) = some anchor ∧
      (anchorLine anchor ∈ Text.splitOn '\n' text ↔ ∀ entry ∈ links, entry.1 ≠ ['a'])
  /-- A target that no later name strikes is in full wherever its name is linked. -/
  unstruck : ∀ earlier name target later,
    links.mergeSort goesFirst = earlier ++ (name, target) :: later →
    (∀ entry ∈ later, ¬Strikes entry.1 target) →
    linkNames links body =
      Text.join target ((between name (linkInOrder earlier body)).map (linkInOrder later))
  /-- Later class names change a target by itself. They leave an anchor as it is, and
  an address exactly when none of them is one of its path segments. -/
  namedTargets : (∀ entry ∈ links, IsClassName entry.1) → ∀ earlier name target later,
    links.mergeSort goesFirst = earlier ++ (name, target) :: later →
    linkNames links body =
        Text.join (linkInOrder later target)
          ((between name (linkInOrder earlier body)).map (linkInOrder later)) ∧
      (linkInOrder later target = target ↔
        target.head? = some '#' ∨ ∀ entry ∈ later, entry.1 ∉ addressWords)

/-- Class names leave an anchor as it is, and an address exactly when none of them is
one of its path segments. -/
theorem IsTarget.linkInOrder_eq_self_iff {entities : List Entity} {name target : Text}
    (isTarget : IsTarget (anchorsOf entities) name target) (isName : IsClassName name)
    {later : List (Text × Text)} (named : ∀ entry ∈ later, IsClassName entry.1) :
    linkInOrder later target = target ↔
      target.head? = some '#' ∨ ∀ entry ∈ later, entry.1 ∉ addressWords := by
  have unbracketed := isTarget.notMem (.inr rfl) (isName.notMem (by decide))
  rw [Document.linkInOrder_eq_self_iff unbracketed]
  rcases isTarget with ⟨anchor, listed, rfl⟩ | rfl
  · constructor
    · exact fun _ => .inl rfl
    · intro _ entry _
      exact not_hits_anchor (forall_mem_anchorsOf entities _ listed)
  · have letter : (standardAddress (addressSlug name)).head? = some 'h' := rfl
    have words : ∀ entry ∈ later, (¬Hits entry.1 (standardAddress (addressSlug name)) ↔
        entry.1 ∉ addressWords) := by
      intro entry member
      rw [(named entry member).hits_address isName.any_startsMark_addressSlug]
    rw [letter]
    constructor
    · intro free
      exact .inr fun entry member => (words entry member).mp (free entry member)
    · rintro (hash | free)
      · exact absurd hash (by decide)
      · exact fun entry member => (words entry member).mpr (free entry member)

/-- What a document that was assembled is made of. -/
theorem assemble_eq_ok {settings : DocumentSettings} {resolver : Resolver} {single : Bool}
    {names : List Text} {table : MemberTable} {state : Resolution} {text : Text}
    (assembled : (assemble settings resolver single names table state).1 = .ok text) :
    ∃ entities texts links,
      (collect settings resolver [] names state).1 = .ok entities ∧
      (sections settings resolver (anchorsOf entities) single entities
        (sectionLinks (anchorsOf entities)) table).1 = .ok (texts, links) ∧
      text = compose (anchorsOf entities) single entities texts links := by
  unfold assemble at assembled
  split at assembled
  · cases assembled
  · cases assembled
  · rename_i entities after nonempty collected
    obtain ⟨⟨texts, links⟩, written, rfl⟩ := exists_of_map_eq_ok assembled
    exact ⟨entities, texts, links, by rw [collected], written, rfl⟩

/-- A document for several types that is assembled under the standard template is
composed of sections and links, and its structure fares as described. -/
theorem assemble_keeps_structure {settings : DocumentSettings} {resolver : Resolver}
    {names : List Text} {table : MemberTable} {state : Resolution} {text : Text}
    (standard : settings.template = Template.standard)
    (assembled : (assemble settings resolver false names table state).1 = .ok text) :
    ∃ entities texts links,
      (collect settings resolver [] names state).1 = .ok entities ∧
      (sections settings resolver (anchorsOf entities) false entities
        (sectionLinks (anchorsOf entities)) table).1 = .ok (texts, links) ∧
      text = compose (anchorsOf entities) false entities texts links ∧
      KeepsStructure entities links (Text.join ['\n'] texts) text := by
  obtain ⟨entities, texts, links, collected, written, rfl⟩ := assemble_eq_ok assembled
  refine ⟨entities, texts, links, collected, written, rfl, ?_⟩
  have targets := isTarget_of_sections standard written
  have anchors : (∀ entry ∈ links, '\n' ∉ entry.1) → ∀ entity ∈ entities, ∃ anchor,
      Keyed.find? entity.name (anchorsOf entities) = some anchor ∧
        (∀ c ∈ anchor, isAnchorChar c = true) ∧
        (anchorLine anchor ∈ Text.splitOn '\n'
            (compose (anchorsOf entities) false entities texts links) ↔
          ∀ entry ∈ links, ¬Hits entry.1 (anchorLine anchor)) := by
    intro unbroken entity member
    obtain ⟨anchor, found, plain, inside⟩ := exists_anchorLine_mem written entity member
    refine ⟨anchor, found, plain, anchorLine_mem_compose_iff ?_ ?_ plain inside⟩
    · intro other listed
      obtain ⟨target, known⟩ := exists_anchor other listed
      have linked := mem_links_of_sections written (other.name, '#' :: target)
        (List.mem_map.mpr ⟨_, Keyed.mem_of_find? known, rfl⟩)
      exact unbroken _ linked
    · intro entry listed
      exact ⟨unbroken entry listed,
        (targets entry listed).notMem (.inl rfl) (unbroken entry listed)⟩
  exact {
    targets
    anchors := by
      intro unbroken entity member
      obtain ⟨anchor, found, -, kept⟩ := anchors unbroken entity member
      exact ⟨anchor, found, kept⟩
    namedAnchors := by
      intro named entity member
      obtain ⟨anchor, found, plain, kept⟩ :=
        anchors (fun entry listed => (named entry listed).notMem (by decide)) entity member
      refine ⟨anchor, found, kept.trans ?_⟩
      exact forall₂_congr fun entry listed => not_congr ((named entry listed).hits_anchorLine plain)
    unstruck := by
      intro earlier name target later order free
      exact linkNames_eq_join order free _
    namedTargets := by
      intro named earlier name target later order
      have listed : ∀ entry ∈ (name, target) :: later, entry ∈ links := by
        intro entry member
        have sorted : entry ∈ links.mergeSort goesFirst := by
          rw [order]
          exact List.mem_append_right earlier member
        exact (mem_sorted entry).mp sorted
      have laterNamed : ∀ entry ∈ later, IsClassName entry.1 := fun entry member =>
        named entry (listed entry (List.mem_cons_of_mem _ member))
      have first := listed (name, target) List.mem_cons_self
      refine ⟨?_, (targets _ first).linkInOrder_eq_self_iff (named _ first) laterNamed⟩
      rw [linkNames_split order, linkInOrder_join_names laterNamed (isWoven_between name _)] }

/-- Two types, of which the second has a method that returns a built-in class. -/
def twoTypes (first second : String) : Resolver where
  rules := { builtIns := TypeName.builtInKeys ["Closure".toList] }
  registry := {
    entries := [
      (Text.lower first.toList, { name := first.toList }),
      (Text.lower second.toList, {
        name := second.toList
        methods := [{ name := "run".toList, returnType := some "\\Closure".toList }] })] }

/-- A document for two types keeps its structure as described. -/
theorem twoTypes_keeps_structure :
    ∃ text,
      (assemble {} (twoTypes "Reader" "Writer") false ["Reader".toList, "Writer".toList]
        {} {}).1 = .ok text ∧
      ∃ entities texts links,
        (collect {} (twoTypes "Reader" "Writer") [] ["Reader".toList, "Writer".toList]
          {}).1 = .ok entities ∧
        (sections {} (twoTypes "Reader" "Writer") (anchorsOf entities) false entities
          (sectionLinks (anchorsOf entities)) {}).1 = .ok (texts, links) ∧
        text = compose (anchorsOf entities) false entities texts links ∧
        KeepsStructure entities links (Text.join ['\n'] texts) text := by
  have written : (assemble {} (twoTypes "Reader" "Writer") false
      ["Reader".toList, "Writer".toList] {} {}).1.toOption.isSome = true := by decide +kernel
  cases assembled : (assemble {} (twoTypes "Reader" "Writer") false
      ["Reader".toList, "Writer".toList] {} {}).1 with
  | error failure =>
    rw [assembled] at written
    cases written
  | ok text => exact ⟨text, rfl, assemble_keeps_structure rfl assembled⟩

/-- Short names are linked last. -/
theorem mergeSort_short (first second third : Text) :
    [("a".toList, first), ("en".toList, second), ("Closure".toList, third)].mergeSort goesFirst =
      [("Closure".toList, third), ("en".toList, second), ("a".toList, first)] := by
  simp [List.mergeSort, List.MergeSort.Internal.splitInTwo, goesFirst]

/-- In a document for two types called `a` and `en`, the name of the first is linked in
the line of an anchor, and that of the second in the address of a built-in class. -/
theorem shortNames_lose_structure :
    ∃ text,
      (assemble {} (twoTypes "a" "en") false ["a".toList, "en".toList] {} {}).1 = .ok text ∧
      anchorLine "class-en".toList ∉ Text.splitOn '\n' text ∧
      Text.occursIn (link "Closure".toList
        "https://php.net/manual/[en](#class-en)/class.closure.php".toList) text = true ∧
      Text.occursIn (link "Closure".toList
        "https://php.net/manual/en/class.closure.php".toList) text = false := by
  let closure := ("Closure".toList, standardAddress "closure".toList)
  let second := ("en".toList, "#class-en".toList)
  let first := ("a".toList, "#class-a".toList)
  have complete : (assemble {} (twoTypes "a" "en") false ["a".toList, "en".toList]
      {} {}).1.toOption.isSome = true := by decide +kernel
  have lost : (collect {} (twoTypes "a" "en") [] ["a".toList, "en".toList] {}).1.toOption.any
      (fun entities => (sections {} (twoTypes "a" "en") (anchorsOf entities) false entities
        (sectionLinks (anchorsOf entities)) {}).1.toOption.any fun written =>
          let text := compose (anchorsOf entities) false entities
            [linkInOrder [closure, second, first] (Text.join ['\n'] written.1)] []
          written.2 == [first, second, closure] &&
          !(Text.splitOn '\n' text).contains (anchorLine "class-en".toList) &&
          Text.occursIn (link "Closure".toList
            "https://php.net/manual/[en](#class-en)/class.closure.php".toList) text &&
          !Text.occursIn (link "Closure".toList
            "https://php.net/manual/en/class.closure.php".toList) text) = true := by
    decide +kernel
  cases assembled : (assemble {} (twoTypes "a" "en") false ["a".toList, "en".toList] {} {}).1 with
  | error failure =>
    rw [assembled] at complete
    cases complete
  | ok text =>
    obtain ⟨entities, texts, links, collected, written, rfl⟩ := assemble_eq_ok assembled
    rw [collected] at lost
    simp only [Except.toOption, Option.any_some, written, Bool.and_eq_true, Bool.not_eq_true',
      List.contains_eq_mem, decide_eq_false_iff_not, beq_iff_eq] at lost
    obtain ⟨⟨⟨rfl, anchor⟩, struck⟩, whole⟩ := lost
    rw [compose_linked, linkNames_eq, mergeSort_short]
    exact ⟨_, rfl, anchor, struck, whole⟩

end Document
end Docblock
