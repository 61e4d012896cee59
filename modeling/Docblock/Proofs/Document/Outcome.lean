import Docblock.Proofs.Document.Collected
import Docblock.Proofs.Document.Headings
import Docblock.Proofs.Links.Addresses

/-!
# What comes of assembling a document

Assembling a document for some names fails with the first name that stands for no
loaded type; else it fails when all types are left out; else there is a document.
Its sections are those of the retained types, one for each and in their order, and a
table of contents has their titles and anchors in the same order. Under the standard
template nothing else can fail.

The link pass changes no more than the sections. It keeps their first character, so
the white space that is cut off the end of a document never reaches the contents.
-/

namespace Docblock.Document

open Documented Resolve

section Sections

variable {settings : DocumentSettings}

/-- An address fails when its template cannot be filled. -/
theorem addressOf_error {name : Text} {failure : Failure}
    (failed : addressOf settings name = .error failure) : ∃ fault, failure = .template fault := by
  rw [addressOf] at failed
  generalize Template.fill settings.template _ = filled at failed
  cases filled with
  | ok address => cases failed
  | error fault =>
    cases failed
    exact ⟨fault, rfl⟩

/-- What fails in a run over some items is the step for one of them. -/
theorem exists_failing_step {α β : Type} {step : β → α → Except Failure β} {items : List α}
    {start : β} {failure : Failure} (failed : items.foldlM step start = .error failure) :
    ∃ item state, step state item = .error failure := by
  induction items generalizing start with
  | nil => cases failed
  | cons item rest inductionHypothesis =>
    rw [List.foldlM_cons] at failed
    cases first : step start item with
    | ok next =>
      rw [first] at failed
      exact inductionHypothesis failed
    | error other =>
      rw [first] at failed
      cases failed
      exact ⟨item, start, first⟩

/-- What fails while the built-in classes of signatures are linked is an address. -/
theorem linkSignatures_error {resolver : Resolver} {entity : Entity} {links : Keyed Text}
    {failure : Failure} (failed : linkSignatures settings resolver entity links = .error failure) :
    ∃ name, addressOf settings name = .error failure := by
  obtain ⟨name, entered, failing⟩ := exists_failing_step failed
  rw [linkBuiltIn] at failing
  split at failing
  · cases failing
  · rename_i builtIn _
    cases address : addressOf settings builtIn with
    | ok found =>
      rw [address] at failing
      cases failing
    | error fault =>
      rw [address] at failing
      cases failing
      exact ⟨builtIn, address⟩

/-- The link targets that are known after some types. -/
def linkTypes (settings : DocumentSettings) (resolver : Resolver) (entities : List Entity)
    (links : Keyed Text) : Except Failure (Keyed Text) :=
  entities.foldlM (fun links entity => linkSignatures settings resolver entity links) links

/-- What fails while all types are linked is an address. -/
theorem linkTypes_error {resolver : Resolver} {entities : List Entity} {links : Keyed Text}
    {failure : Failure} (failed : linkTypes settings resolver entities links = .error failure) :
    ∃ name, addressOf settings name = .error failure := by
  obtain ⟨entity, entered, failing⟩ := exists_failing_step failed
  exact linkSignatures_error failing

/-- Under the standard template all types can be linked. -/
theorem linkTypes_standard (standard : settings.template = Template.standard)
    (resolver : Resolver) (entities : List Entity) (links : Keyed Text) :
    ∃ linked, linkTypes settings resolver entities links = .ok linked := by
  cases entered : linkTypes settings resolver entities links with
  | ok linked => exact ⟨linked, rfl⟩
  | error failure =>
    obtain ⟨name, failed⟩ := linkTypes_error entered
    rw [addressOf_standard standard] at failed
    cases failed

/-- A filled table leaves the switches for the next one as they were. -/
theorem opened_fillTable (entity : Entity) (table : MemberTable) :
    (fillTable settings entity table).opened =
      (table.opened).markAbstract (!entity.isInterface) := by
  have added : ∀ methods : List Documented.Method, ∀ start : MemberTable,
      (methods.foldl (fun table method => table.add method settings.showsReferences)
        start).opened = start.opened := by
    intro methods
    induction methods with
    | nil => exact fun start => rfl
    | cons method rest inductionHypothesis =>
      intro start
      rw [List.foldl_cons, inductionHypothesis]
      rfl
  rw [fillTable, added]
  rfl

/-- What one type leaves in a table does not show in the table of the next. -/
theorem fillTable_fillTable (first second : Entity) (table : MemberTable) :
    fillTable settings second (fillTable settings first table) =
      fillTable settings second table := by
  rw [fillTable, opened_fillTable, fillTable]
  rfl

/-- The section of a type with the table of its methods. -/
def sectionOf (settings : DocumentSettings) (anchors : Keyed Text) (single : Bool)
    (table : MemberTable) (entity : Entity) : Text :=
  typeSection anchors settings.showsReferences single entity
    (fillTable settings entity table).toText

/-- What one type leaves in a table does not show in the sections of others. -/
theorem sectionOf_fillTable (anchors : Keyed Text) (single : Bool) (first : Entity)
    (table : MemberTable) :
    sectionOf settings anchors single (fillTable settings first table) =
      sectionOf settings anchors single table := by
  funext entity
  rw [sectionOf, fillTable_fillTable, sectionOf]

/-- What other types leave in a table does not show in the table of the next one, also when one
of them could not be linked. -/
theorem fillTable_sections (resolver : Resolver) (anchors : Keyed Text) (single : Bool)
    (earlier : List Entity) (links : Keyed Text) (table : MemberTable) (entity : Entity) :
    fillTable settings entity (sections settings resolver anchors single earlier links table).2 =
      fillTable settings entity table := by
  induction earlier generalizing links table with
  | nil => rfl
  | cons first rest inductionHypothesis =>
    rw [sections]
    cases entered : linkSignatures settings resolver first links with
    | error failure => exact fillTable_fillTable first entity table
    | ok linked =>
      exact (inductionHypothesis linked (fillTable settings first table)).trans
        (fillTable_fillTable first entity table)

/-- When all types can be linked, each of them gets its section. -/
theorem sections_eq (resolver : Resolver) (anchors : Keyed Text) (single : Bool)
    (entities : List Entity) (links : Keyed Text) (table : MemberTable) :
    (sections settings resolver anchors single entities links table).1 =
      (linkTypes settings resolver entities links).map fun linked =>
        (entities.map (sectionOf settings anchors single table), linked) := by
  induction entities generalizing links table with
  | nil => rfl
  | cons entity rest inductionHypothesis =>
    rw [sections, linkTypes, List.foldlM_cons]
    cases entered : linkSignatures settings resolver entity links with
    | error failure => rfl
    | ok linked =>
      have following := inductionHypothesis linked (fillTable settings entity table)
      rw [sectionOf_fillTable] at following
      simp only [following]
      change _ = (linkTypes settings resolver rest linked).map _
      cases linkTypes settings resolver rest linked <;> rfl

/-- Under the standard template every type gets its section. -/
theorem sections_standard (standard : settings.template = Template.standard)
    (resolver : Resolver) (anchors : Keyed Text) (single : Bool) (entities : List Entity)
    (links : Keyed Text) (table : MemberTable) :
    ∃ linked, (sections settings resolver anchors single entities links table).1 =
      .ok (entities.map (sectionOf settings anchors single table), linked) := by
  obtain ⟨linked, entered⟩ := linkTypes_standard standard resolver entities links
  exact ⟨linked, by rw [sections_eq, entered]; rfl⟩

/-- What fails while sections are written is an address. -/
theorem sections_error {resolver : Resolver} {anchors links : Keyed Text} {single : Bool}
    {entities : List Entity} {table : MemberTable} {failure : Failure}
    (failed : (sections settings resolver anchors single entities links table).1 =
      .error failure) :
    ∃ name, addressOf settings name = .error failure := by
  rw [sections_eq] at failed
  cases entered : linkTypes settings resolver entities links with
  | ok linked =>
    rw [entered] at failed
    cases failed
  | error other =>
    rw [entered] at failed
    cases failed
    exact linkTypes_error entered

end Sections

/-- Linking names keeps the first character of a text. -/
theorem head?_linkNames (links : Keyed Text) (s : Text) :
    (linkNames links s).head? = s.head? := by
  rw [linkNames]
  generalize links.mergeSort goesFirst = entries
  induction entries generalizing s with
  | nil => rfl
  | cons entry rest inductionHypothesis =>
    rw [List.foldl_cons, inductionHypothesis, head?_linkName]

/-- A section of a document for several types starts with the line of its anchor. -/
theorem anchorLine_prefix_sectionOf (settings : DocumentSettings) (anchors : Keyed Text)
    (table : MemberTable) (entity : Entity) :
    anchorLine ((Keyed.find? entity.name anchors).getD []) <+:
      sectionOf settings anchors false table entity := by
  obtain ⟨below, opens⟩ := typeSection_opens anchors settings.showsReferences false entity
    (fillTable settings entity table).toText
  rw [sectionOf, opens, heading_eq, if_neg Bool.false_ne_true, List.append_assoc,
    List.append_assoc]
  exact List.prefix_append _ _

/-- The sections of a document for several types start with a visible character. -/
theorem head?_sections (settings : DocumentSettings) (anchors : Keyed Text)
    (table : MemberTable) {entities : List Entity} (nonempty : entities ≠ []) :
    (Text.join ['\n'] (entities.map (sectionOf settings anchors false table))).head? =
      some '<' := by
  obtain ⟨entity, rest, rfl⟩ := List.exists_cons_of_ne_nil nonempty
  obtain ⟨others, angle⟩ := exists_anchorLine ((Keyed.find? entity.name anchors).getD [])
  obtain ⟨behind, starts⟩ := anchorLine_prefix_sectionOf settings anchors table entity
  rw [List.map_cons, ← starts, angle]
  cases rest.map (sectionOf settings anchors false table) <;> rfl

/-- The table of contents with its heading. -/
def contentsOf (anchors : Keyed Text) (entities : List Entity) : Text :=
  "## Table of contents".toList ++ ['\n', '\n'] ++
    Text.join ['\n'] (entities.map (contentsLine anchors)) ++ ['\n', '\n']

/-- The parts of a document: above its sections, where it is for several types, all of
the table of contents. White space is cut off behind the sections only. -/
theorem compose_parts (settings : DocumentSettings) (anchors : Keyed Text) (single : Bool)
    (table : MemberTable) {entities : List Entity} (nonempty : entities ≠ [])
    (links : Keyed Text) :
    compose anchors single entities (entities.map (sectionOf settings anchors single table)) links =
      (if single then [] else contentsOf anchors entities) ++
        Text.trimEnd (linkNames links
          (Text.join ['\n'] (entities.map (sectionOf settings anchors single table)))) ++
        ['\n'] := by
  unfold compose
  cases single with
  | true => rfl
  | false =>
    have first := head?_sections settings anchors table nonempty
    have kept := head?_linkNames links
      (Text.join ['\n'] (entities.map (sectionOf settings anchors false table)))
    generalize linkNames links (Text.join ['\n'] (entities.map (sectionOf settings anchors false
      table))) = linked at kept
    rw [first] at kept
    have listed : entities.map (contentsLine anchors) ≠ [] := by simpa using nonempty
    have above : Text.join ['\n'] (["## Table of contents".toList, []] ++
        entities.map (contentsLine anchors) ++ [[]] ++ [linked]) =
        contentsOf anchors entities ++ linked := by
      obtain ⟨line, lines, equal⟩ := List.exists_cons_of_ne_nil listed
      unfold contentsOf
      rw [equal]
      generalize "## Table of contents".toList = heading
      rw [Text.join_append _ (by simp), Text.join_append _ (by simp)]
      simp [Text.join]
    have visible : Text.isBlank '<' = false := by decide
    simp only [Bool.false_eq_true, if_false]
    rw [above, Text.trimEnd_append _ (List.mem_of_mem_head? kept) visible]

/-- A document shows each retained type once. -/
structure Shows (settings : DocumentSettings) (resolver : Resolver) (single : Bool)
    (names : List Text) (table : MemberTable) (after : Resolution) (entities : List Entity)
    (links : Keyed Text) (text : Text) : Prop where
  /-- The types are those that the retained names stand for, in the order of the names. -/
  documented : List.Forall₂ (fun name entity => resolver.resolve name after = (.ok entity, after))
    (retained settings resolver names) entities
  /-- No type is shown twice. -/
  once : (entities.map (·.name)).Nodup
  /-- The anchors are those of the types, in the same order. -/
  anchored : Keyed.keys (anchorsOf entities) = entities.map (·.name)
  /-- Each anchor is one for the slug of the title of its type. -/
  formed : List.Forall₂ (fun entity anchor => IsAnchorFor entity.anchor anchor) entities
    (Keyed.values (anchorsOf entities))
  /-- No two types share an anchor. -/
  apart : (Keyed.values (anchorsOf entities)).Nodup
  /-- A title in the table of contents is the name of its type, with a remark on interfaces and
  on what is abstract. -/
  titled : ∀ entity ∈ entities, entity.title contentsFormat =
    Text.trim (Text.replaceAll "%extra%".toList
      (if entity.kind = "interface".toList then "(interface)".toList
        else if entity.isAbstract then "(abstract)".toList else [])
      (entity.name ++ " %extra%".toList))
  /-- Each section has its heading on top, with the anchor of its type where the document is for
  several ones. -/
  opened : List.Forall₂ (fun entity anchor =>
      ∃ below, sectionOf settings (anchorsOf entities) single table entity =
        heading single entity anchor ++ '\n' :: below)
    entities (Keyed.values (anchorsOf entities))
  /-- The sections are those of the types, in the same order, and only they are linked.
  Where there is a table of contents, it has a line for each type, with its title and its
  anchor, in the same order. -/
  parts : text =
    (if single then []
      else "## Table of contents".toList ++ ['\n', '\n'] ++
        Text.join ['\n'] (List.zipWith contentsItem entities (Keyed.values (anchorsOf entities))) ++
        ['\n', '\n']) ++
      Text.trimEnd (linkNames links (Text.join ['\n']
        (entities.map (sectionOf settings (anchorsOf entities) single table)))) ++ ['\n']

/-- A document with the sections of types of different names below its table of contents shows
these types. -/
theorem shows_of_compose {settings : DocumentSettings} {resolver : Resolver} {single : Bool}
    {names : List Text} {table : MemberTable} {after : Resolution} {entities : List Entity}
    {links : Keyed Text}
    (documented : List.Forall₂
      (fun name entity => resolver.resolve name after = (.ok entity, after))
      (retained settings resolver names) entities)
    (distinct : (entities.map (·.name)).Nodup) (nonempty : entities ≠ []) :
    Shows settings resolver single names table after entities links
      (compose (anchorsOf entities) single entities
        (entities.map (sectionOf settings (anchorsOf entities) single table)) links) where
  documented := documented
  once := distinct
  anchored := keys_anchorsOf distinct
  formed := by
    refine forall₂_anchorsOf distinct fun entity member => ?_
    obtain ⟨anchor, found⟩ := exists_anchor entity member
    rw [found]
    exact isAnchorFor_of_find? distinct member found
  apart := nodup_anchors distinct
  titled := fun entity _ => entity.title_contents
  opened := forall₂_anchorsOf distinct fun entity _ => typeSection_opens _ _ single entity _
  parts := by
    rw [compose_parts settings _ single table nonempty]
    unfold contentsOf
    rw [map_contentsLine distinct]

/-- Assembling a document fails as collecting its types does. -/
theorem assemble_of_error {settings : DocumentSettings} {resolver : Resolver} (single : Bool)
    {names : List Text} (table : MemberTable) {state : Resolution} {failure : Failure}
    (failed : (collect settings resolver [] names state).1 = .error failure) :
    (assemble settings resolver single names table state).1 = .error failure := by
  unfold assemble
  split
  · rename_i other after collected
    rw [collected] at failed
    rw [Except.error.inj failed]
  · rename_i after collected
    rw [collected] at failed
    cases failed
  · rename_i entities after nonempty collected
    rw [collected] at failed
    cases failed

/-- Under the standard template a document for loaded types shows the retained ones,
unless there are none. -/
theorem assemble_loaded (settings : DocumentSettings) (resolver : Resolver) (single : Bool)
    {names : List Text} (table : MemberTable) {state : Resolution}
    (standard : settings.template = Template.standard) (keyed : resolver.registry.IsKeyed)
    (settled : Session.Settled resolver.rules ⟨resolver.registry, state⟩)
    (loaded : ∀ name ∈ names, resolver.registry.has name = true) :
    (retained settings resolver names = [] ∧
      (assemble settings resolver single names table state).1 = .error .nothingToDocument) ∨
    (retained settings resolver names ≠ [] ∧ ∃ entities links text,
      (assemble settings resolver single names table state).1 = .ok text ∧
      Shows settings resolver single names table
        (assemble settings resolver single names table state).2.2 entities links text) := by
  obtain ⟨entities, after, collected, last, shown⟩ :=
    collect_retained settings keyed settled loaded
  cases entities with
  | nil =>
    refine .inl ⟨List.forall₂_nil_right_iff.mp shown, ?_⟩
    unfold assemble
    rw [collected]
  | cons first rest =>
    refine .inr ⟨?_, ?_⟩
    · intro nothing
      rw [nothing] at shown
      cases shown
    generalize equal : first :: rest = entities at shown collected
    have nonempty : entities ≠ [] := equal ▸ List.cons_ne_nil first rest
    obtain ⟨links, written⟩ := sections_standard standard resolver (anchorsOf entities) single
      entities (sectionLinks (anchorsOf entities)) table
    have distinct : (entities.map (·.name)).Nodup := by
      refine List.Nodup.of_map Text.lower ?_
      rw [map_lower_name keyed last shown]
      exact (nodup_key_firstSpellings names).sublist (List.filter_sublist.map ClassName.key)
    subst equal
    unfold assemble
    rw [collected]
    refine ⟨first :: rest, links, _, by simp only [written]; rfl, ?_⟩
    exact shows_of_compose
      (shown.imp fun name entity found => Session.resolve_finished resolver found) distinct nonempty

/-- A document for loaded types never fails because of an unknown type, whatever its
settings are. -/
theorem assemble_ne_unknownType {settings : DocumentSettings} {resolver : Resolver}
    (single : Bool) {names : List Text} (table : MemberTable) {state : Resolution}
    (keyed : resolver.registry.IsKeyed)
    (settled : Session.Settled resolver.rules ⟨resolver.registry, state⟩)
    (loaded : ∀ name ∈ names, resolver.registry.has name = true) (failing : Text) :
    (assemble settings resolver single names table state).1 ≠ .error (.unknownType failing) := by
  obtain ⟨entities, after, collected, -, -⟩ := collect_retained settings keyed settled loaded
  intro failed
  unfold assemble at failed
  rw [collected] at failed
  cases entities with
  | nil => cases failed
  | cons first rest =>
    simp only at failed
    cases written : (sections settings resolver (anchorsOf (first :: rest)) single (first :: rest)
        (sectionLinks (anchorsOf (first :: rest))) table).1 with
    | ok result =>
      rw [written] at failed
      cases failed
    | error failure =>
      rw [written] at failed
      obtain ⟨name, unaddressed⟩ := sections_error written
      obtain ⟨fault, rfl⟩ := addressOf_error unaddressed
      cases failed

/-- Whatever has been called in a session, assembling a document for groups of names
under the standard template

* fails with the first name that stands for no loaded type, if there is one;
* else fails because nothing is to be documented exactly when the types of all names are
  left out;
* else gives a document that shows each type that is not left out once, at the place of
  its first name. -/
theorem assemble_outcome (rules : Rules) (calls : List Call)
    (showsReferences leavesOutInternal single : Bool) (groups : List (List Text))
    (table : MemberTable) :
    let session := Session.afterAll rules {} calls
    let resolver : Resolver := ⟨rules, session.registry⟩
    let settings : DocumentSettings := { showsReferences, leavesOutInternal }
    let names := groups.flatten
    let result := assemble settings resolver single names table session.resolution
    (∀ failing, result.1 = .error (.unknownType failing) ↔
      (names.find? (!session.registry.has ·)).map ClassName.clean = some failing) ∧
    ((∀ name ∈ names, session.registry.has name = true) →
      (result.1 = .error .nothingToDocument ↔
        ∀ name ∈ names, ∀ raw, session.registry.find? name = some raw →
          isLeftOut settings rules raw = true) ∧
      ((∃ name ∈ names, isRetained settings resolver name = true) →
        ∃ entities links text, result.1 = .ok text ∧
          Shows settings resolver single names table result.2.2 entities links text)) := by
  intro session resolver settings names result
  have settled : Session.Settled rules session :=
    (Session.afterAll_settled (Session.settled_start rules {}) calls).1
  have keyed : session.registry.IsKeyed := Session.afterAll_isKeyed Registry.isKeyed_empty calls
  have outcome : (∀ name ∈ names, session.registry.has name = true) →
      (retained settings resolver names = [] ∧ result.1 = .error .nothingToDocument) ∨
        (retained settings resolver names ≠ [] ∧ ∃ entities links text, result.1 = .ok text ∧
          Shows settings resolver single names table result.2.2 entities links text) :=
    assemble_loaded settings resolver single table rfl keyed settled
  refine ⟨fun failing => ?_, fun loaded => ⟨?_, ?_⟩⟩
  · cases first : names.find? (!session.registry.has ·) with
    | some name =>
      have failed : result.1 = .error (.unknownType (ClassName.clean name)) :=
        assemble_of_error single table (collect_unknown settled first)
      rw [failed]
      simp
    | none =>
      have loaded : ∀ name ∈ names, session.registry.has name = true := by
        simpa using List.find?_eq_none.mp first
      rcases outcome loaded with ⟨-, failed⟩ | ⟨-, entities, links, text, succeeded, -⟩
      · rw [failed]
        simp
      · rw [succeeded]
        simp
  · have leftOut : retained settings resolver names = [] ↔
        ∀ name ∈ names, ∀ raw, session.registry.find? name = some raw →
          isLeftOut settings rules raw = true := by
      rw [retained_eq_nil_iff]
      refine forall₂_congr fun name _ => ?_
      cases found : session.registry.find? name with
      | none => simp [isRetained, resolver, found]
      | some raw => simp [isRetained, resolver, found]
    rw [← leftOut]
    rcases outcome loaded with ⟨nothing, failed⟩ | ⟨something, entities, links, text, succeeded, -⟩
    · exact iff_of_true failed nothing
    · refine iff_of_false ?_ something
      rw [succeeded]
      rintro ⟨⟩
  · rintro ⟨name, member, kept⟩
    rcases outcome loaded with ⟨nothing, -⟩ | ⟨-, shown⟩
    · rw [retained_eq_nil_iff.mp nothing name member] at kept
      cases kept
    · exact shown

end Docblock.Document
