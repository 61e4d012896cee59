import Docblock.Proofs.Document.Collected
import Docblock.Proofs.Links.Structure

/-!
# Built-in classes that are linked

A declared type is a union, and the built-in class that it counts for is the first one
among its members. So the names that are linked in a document are those of its types, and
the built-in classes that come first in a type of a shown signature: each of these has a
target whatever else the document holds, its section if a type of the document has its
name, and else its address.

A built-in class that comes later in a union is linked only if it has a target for another
reason: a type of the document has its name, or it comes first in another type of a shown
signature.

The class that comes first in the type of a parameter is noted when the parameter is
documented, long before the document is assembled. It is the same one, whatever has been
resolved in between, because nothing but the rule that documents a method makes parameters.
-/

namespace Docblock

namespace TypeName

/-- A declared type names a built-in class: it is that of one of its members. -/
def Names (builtIns : List Text) (declared name : Text) : Prop :=
  ∃ member ∈ Text.splitOn '|' declared, isBuiltIn builtIns member = true ∧
    ClassName.clean (bare member) = name

instance (builtIns : List Text) (declared name : Text) :
    Decidable (Names builtIns declared name) :=
  inferInstanceAs (Decidable (∃ member ∈ Text.splitOn '|' declared, _ ∧ _))

/-- A declared type names a built-in class first: it is that of one of its members, and no
member before that one names any. -/
def NamesFirst (builtIns : List Text) (declared name : Text) : Prop :=
  ∃ before member after, Text.splitOn '|' declared = before ++ member :: after ∧
    (∀ other ∈ before, isBuiltIn builtIns other = false) ∧ isBuiltIn builtIns member = true ∧
    ClassName.clean (bare member) = name

/-- The built-in class that a declared type counts for is the one that it names first. -/
theorem firstBuiltIn?_eq_some_iff {builtIns : List Text} {declared name : Text} :
    firstBuiltIn? builtIns declared = some name ↔ NamesFirst builtIns declared name := by
  rw [firstBuiltIn?, Option.map_eq_some_iff]
  constructor
  · rintro ⟨member, found, named⟩
    obtain ⟨builtIn, before, after, split, others⟩ := List.find?_eq_some_iff_append.mp found
    refine ⟨before, member, after, split, ?_, builtIn, named⟩
    intro other listed
    simpa using others other listed
  · rintro ⟨before, member, after, split, others, builtIn, named⟩
    refine ⟨member, List.find?_eq_some_iff_append.mpr ⟨builtIn, before, after, split, ?_⟩, named⟩
    intro other listed
    simp [others other listed]

end TypeName

open Resolve Documented

section Marks

variable {rules : Rules} {registry : Registry}

/-- The parameters of a method are marked with the built-in classes that their types count
for. -/
def Documented.Method.IsMarked (builtIns : List Text) (method : Documented.Method) : Prop :=
  ∀ parameter ∈ method.parameters,
    parameter.builtIn = TypeName.firstBuiltIn? builtIns parameter.type

/-- The methods of finished types are marked. -/
def Resolve.AreMarked (rules : Rules) (state : Resolution) : Prop :=
  ∀ entry ∈ state.finished, ∀ method ∈ entry.2.methods, method.IsMarked rules.builtIns

/-- The methods that a task documents are marked. -/
def Resolve.Task.Marks (rules : Rules) : (task : Task) → task.Answer → Prop
  | .document _ _, methods => ∀ method ∈ methods, method.IsMarked rules.builtIns
  | _, _ => True

/-- The parameters of a documented method are marked, wherever its words come from. -/
theorem Resolve.documentMethod_isMarked (rules : Rules) (raw : Source.Declaration)
    (member : Source.Method) (tags : Comment.Tags) (inherited : Option Documented.Method) :
    (documentMethod rules raw member tags inherited).IsMarked rules.builtIns := by
  intro parameter listed
  simp only [documentMethod, documentParameters] at listed
  split at listed
  · obtain ⟨entry, -, rfl⟩ := List.mem_map.mp listed
    rfl
  · obtain ⟨declared, -, rfl⟩ := List.mem_map.mp listed
    simp only [documentParameter]
    split
    · rfl
    · split <;> rfl

/-- Every run documents marked methods and keeps those of finished types marked. Only the
rule for a method that is kept makes one, and only a documented type is finished. -/
theorem Resolve.Runs.marks {task : Task} {state after : Resolution} {entries : List Entry}
    {answer : task.Answer} (run : Runs rules registry task state entries answer after)
    (marked : AreMarked rules state) : task.Marks rules answer ∧ AreMarked rules after := by
  induction run with
  | known | unknown | halted | exhausted | unasked => exact ⟨trivial, marked⟩
  | documented fresh loaded run marks =>
    obtain ⟨documented, onward⟩ := marks marked
    refine ⟨trivial, ?_⟩
    intro entry member
    rcases Keyed.mem_of_mem_put member with rfl | known
    · exact documented
    · exact onward entry known
  | stranded goes run marks => exact ⟨trivial, (marks marked).2⟩
  | met goes run has marks => exact ⟨trivial, (marks marked).2⟩
  | ended goes run lacks top marks => exact ⟨trivial, (marks marked).2⟩
  | climbed goes run lacks above further marks marksFurther =>
    exact ⟨trivial, (marksFurther (marks marked).2).2⟩
  | first run marks => exact ⟨trivial, (marks marked).2⟩
  | next run further marks marksFurther => exact ⟨trivial, (marksFurther (marks marked).2).2⟩
  | inherited asks run marks => exact ⟨trivial, (marks marked).2⟩
  | orphaned asks run marks => exact ⟨trivial, (marks marked).2⟩
  | complete => exact ⟨by simp [Task.Marks], marked⟩
  | dropped drops further marks => exact marks marked
  | kept keeps run further marks marksFurther =>
    obtain ⟨others, onward⟩ := marksFurther (marks marked).2
    exact ⟨List.forall_mem_cons.mpr ⟨documentMethod_isMarked _ _ _ _ _, others⟩, onward⟩

/-- A resolution that has finished nothing is marked. -/
theorem Resolve.areMarked_nothing (rules : Rules) : AreMarked rules {} := by
  simp [AreMarked]

/-- Whatever is called in a session, the methods of finished types stay marked. -/
theorem Session.afterAll_marked {session : Session} (settled : Session.Settled rules session)
    (marked : AreMarked rules session.resolution) (calls : List Call) :
    AreMarked rules (session.afterAll rules calls).resolution := by
  induction calls generalizing session with
  | nil => exact marked
  | cons call rest inductionHypothesis =>
    apply inductionHypothesis (Session.after_settled settled call).1
    cases call with
    | add declaration => exact marked
    | ask query =>
      obtain ⟨entries, run⟩ :=
        Resolver.ask_runs ⟨rules, session.registry⟩ query settled.sound settled.idle
      exact (run.marks marked).2
    | isBuilding name => exact marked

end Marks

namespace Document

section Collected

variable {settings : DocumentSettings} {resolver : Resolver}

/-- A type that is resolved has marked methods, and leaves a settled and marked resolution. -/
theorem resolve_marked {state after : Resolution}
    (settled : Session.Settled resolver.rules ⟨resolver.registry, state⟩)
    (marked : AreMarked resolver.rules state) {name : Text} {entity : Entity}
    (resolved : resolver.resolve name state = (.ok entity, after)) :
    (∀ method ∈ entity.methods, method.IsMarked resolver.rules.builtIns) ∧
      Session.Settled resolver.rules ⟨resolver.registry, after⟩ ∧
      AreMarked resolver.rules after := by
  obtain ⟨entries, run⟩ := resolving_runs resolver settled.sound settled.idle name
  have kept := run.kept_all settled.sound (Query.admissible (.resolve name) settled.idle)
  have onward := (run.marks marked).2
  rw [Resolver.resolve] at resolved
  split at resolved
  · rename_i found last answered
    rw [answered] at run kept onward
    cases resolved
    refine ⟨?_, ⟨kept.sound, kept.extension.building.trans settled.idle⟩, onward⟩
    exact onward _ (Keyed.mem_of_find? run.find?_of_resolved)
  · cases resolved

/-- The types that are collected for a document have marked methods. -/
theorem collect_marked {names collected : List Text} {state : Resolution}
    (settled : Session.Settled resolver.rules ⟨resolver.registry, state⟩)
    (marked : AreMarked resolver.rules state) {entities : List Entity}
    (listed : (collect settings resolver collected names state).1 = .ok entities) :
    ∀ entity ∈ entities, ∀ method ∈ entity.methods,
      method.IsMarked resolver.rules.builtIns := by
  induction names generalizing collected state entities with
  | nil =>
    cases listed
    simp
  | cons name rest inductionHypothesis =>
    obtain ⟨entity, after, resolved, outcome⟩ := collect_cons_cases listed
    obtain ⟨own, next, onward⟩ := resolve_marked settled marked resolved
    obtain leftOut | repeated | ⟨others, rfl, -, following⟩ := outcome
    · have noted : AreMarked resolver.rules (after.note (.leftOut entity.name)) := onward
      exact inductionHypothesis (settled_note next _) noted leftOut
    · exact inductionHypothesis next onward repeated
    · exact List.forall_mem_cons.mpr ⟨own, inductionHypothesis next onward following⟩

end Collected

section Index

variable {settings : DocumentSettings}

/-- What linking names of built-in classes does to an index: a name that has a target keeps
it, a listed name that has none gets its address, and no other name gets any. -/
structure Enters (settings : DocumentSettings) (names : List (Option Text))
    (links linked : Keyed Text) : Prop where
  kept : ∀ name target, Keyed.find? name links = some target →
    Keyed.find? name linked = some target
  entered : ∀ name, name ≠ [] → some name ∈ names → Keyed.find? name links = none →
    ∃ address, addressOf settings name = .ok address ∧ Keyed.find? name linked = some address
  others : ∀ name, (name ≠ [] → some name ∉ names) → Keyed.find? name links = none →
    Keyed.find? name linked = none

/-- Linking no name changes nothing. -/
theorem enters_nothing (links : Keyed Text) : Enters settings [] links links where
  kept := fun _ _ found => found
  entered := by simp
  others := fun _ _ absent => absent

/-- Linking names one after the other is linking all of them. -/
theorem Enters.append {names more : List (Option Text)} {links next linked : Keyed Text}
    (first : Enters settings names links next) (second : Enters settings more next linked) :
    Enters settings (names ++ more) links linked where
  kept name target found := second.kept name target (first.kept name target found)
  entered := by
    intro name nonempty listed absent
    by_cases earlier : some name ∈ names
    · obtain ⟨address, filled, found⟩ := first.entered name nonempty earlier absent
      exact ⟨address, filled, second.kept name address found⟩
    · have later := (List.mem_append.mp listed).resolve_left earlier
      exact second.entered name nonempty later (first.others name (fun _ => earlier) absent)
  others := by
    intro name unlisted absent
    have neither (nonempty : name ≠ []) : some name ∉ names ∧ some name ∉ more := by
      simpa using unlisted nonempty
    apply second.others name fun nonempty => (neither nonempty).2
    exact first.others name (fun nonempty => (neither nonempty).1) absent

/-- Linking a built-in class enters its address unless its name has a target. -/
theorem linkBuiltIn_enters {links linked : Keyed Text} {name : Option Text}
    (entered : linkBuiltIn settings links name = .ok linked) :
    Enters settings [name] links linked := by
  obtain ⟨unnamed, rfl⟩ | ⟨builtIn, address, named, filled, rfl⟩ := linkBuiltIn_cases entered
  · have unlisted : ∀ other, other ≠ [] → some other ∉ [name] := by
      intro other nonempty listed
      rw [← List.mem_singleton.mp listed, Option.filter_some, if_pos (by simpa using nonempty)]
        at unnamed
      cases unnamed
    exact ⟨fun _ _ found => found,
      fun other nonempty listed => absurd listed (unlisted other nonempty),
      fun _ _ absent => absent⟩
  · obtain ⟨rfl, nonempty⟩ := Option.filter_eq_some_iff.mp named
    constructor
    · intro other target found
      rw [Keyed.find?_putNew, found, Option.some_or]
    · intro other _ listed absent
      obtain rfl : other = builtIn := by simpa using listed
      exact ⟨address, filled, by rw [Keyed.find?_putNew, absent, Option.none_or, if_pos rfl]⟩
    · intro other unlisted absent
      have different : other ≠ builtIn := by
        rintro rfl
        exact unlisted (by simpa using nonempty) List.mem_cons_self
      rw [Keyed.find?_putNew, absent, Option.none_or, if_neg different]

/-- Linking the built-in classes of signatures enters their addresses. -/
theorem linkAll_enters {names : List (Option Text)} {links linked : Keyed Text}
    (entered : names.foldlM (linkBuiltIn settings) links = .ok linked) :
    Enters settings names links linked := by
  induction names generalizing links with
  | nil =>
    cases entered
    exact enters_nothing _
  | cons name rest inductionHypothesis =>
    rw [List.foldlM_cons] at entered
    obtain ⟨next, first, following⟩ := exists_of_bind_eq_ok entered
    exact (linkBuiltIn_enters first).append (inductionHypothesis following)

/-- The link target of a documented type is its anchor. -/
theorem find?_sectionLinks (name : Text) (anchors : Keyed Text) :
    Keyed.find? name (sectionLinks anchors) = (Keyed.find? name anchors).map ('#' :: ·) := by
  induction anchors with
  | nil => rfl
  | cons entry rest inductionHypothesis =>
    obtain ⟨key, anchor⟩ := entry
    by_cases same : key = name
    · simp [sectionLinks, Keyed.find?, same]
    · simpa [sectionLinks, Keyed.find?, same] using inductionHypothesis

/-- A name that no type of a document has is no link target of a section. -/
theorem find?_sectionLinks_eq_none {entities : List Entity} {name : Text}
    (unnamed : ∀ entity ∈ entities, entity.name ≠ name) :
    Keyed.find? name (sectionLinks (anchorsOf entities)) = none := by
  rw [find?_sectionLinks, Option.map_eq_none_iff]
  cases found : Keyed.find? name (anchorsOf entities) with
  | none => rfl
  | some anchor =>
    obtain ⟨entity, member, named⟩ := exists_name _ (Keyed.mem_of_find? found)
    exact absurd named (unnamed entity member)

end Index

section Signatures

variable {settings : DocumentSettings} {resolver : Resolver}

/-- The types that the signature of a method shows. -/
def typesOf (method : Documented.Method) : List Text :=
  method.returnType.toList ++ method.parameters.map (·.type)

/-- A type of a shown signature names a built-in class first. -/
def NamedFirst (settings : DocumentSettings) (builtIns : List Text) (entities : List Entity)
    (name : Text) : Prop :=
  name ≠ [] ∧ ∃ entity ∈ entities, ∃ method ∈ shownMethods settings entity,
    ∃ declared ∈ typesOf method, TypeName.NamesFirst builtIns declared name

/-- The built-in classes of a signature are those that its types name first. -/
theorem mem_builtInsOf_iff {method : Documented.Method}
    (marked : method.IsMarked resolver.rules.builtIns) {name : Text} :
    some name ∈ builtInsOf resolver method ↔
      ∃ declared ∈ typesOf method, TypeName.NamesFirst resolver.rules.builtIns declared name := by
  simp only [← TypeName.firstBuiltIn?_eq_some_iff, builtInsOf, typesOf, List.mem_cons,
    List.mem_append, List.mem_map, Option.mem_toList]
  constructor
  · rintro (returned | ⟨parameter, listed, noted⟩)
    · obtain ⟨declared, shown, counted⟩ := Option.bind_eq_some_iff.mp returned.symm
      exact ⟨declared, .inl shown, counted⟩
    · exact ⟨parameter.type, .inr ⟨parameter, listed, rfl⟩, marked parameter listed ▸ noted⟩
  · rintro ⟨declared, shown | ⟨parameter, listed, rfl⟩, counted⟩
    · exact .inl (Option.bind_eq_some_iff.mpr ⟨declared, shown, counted⟩).symm
    · exact .inr ⟨parameter, listed, (marked parameter listed).trans counted⟩

/-- The built-in classes of the signatures of a document are those that a type of a shown
signature names first. -/
theorem mem_signatureNames_iff {entities : List Entity}
    (marked : ∀ entity ∈ entities, ∀ method ∈ entity.methods,
      method.IsMarked resolver.rules.builtIns) {name : Text} (nonempty : name ≠ []) :
    some name ∈ signatureNames settings resolver entities ↔
      NamedFirst settings resolver.rules.builtIns entities name := by
  have shownMarked : ∀ entity ∈ entities, ∀ method ∈ shownMethods settings entity,
      method.IsMarked resolver.rules.builtIns := by
    intro entity member method shown
    exact marked entity member method (List.mem_of_mem_filter shown)
  rw [NamedFirst, signatureNames, List.mem_flatMap]
  constructor
  · rintro ⟨entity, member, listed⟩
    obtain ⟨method, shown, counted⟩ := List.mem_flatMap.mp listed
    exact ⟨nonempty, entity, member, method, shown,
      (mem_builtInsOf_iff (shownMarked entity member method shown)).mp counted⟩
  · rintro ⟨-, entity, member, method, shown, counted⟩
    refine ⟨entity, member, List.mem_flatMap.mpr ⟨method, shown, ?_⟩⟩
    exact (mem_builtInsOf_iff (shownMarked entity member method shown)).mpr counted

/-- The index of the names that are linked in a document. -/
structure IsLinkIndex (settings : DocumentSettings) (builtIns : List Text)
    (entities : List Entity) (links : Keyed Text) : Prop where
  /-- The types of the document are linked to their sections. -/
  documented : ∀ entity ∈ entities, ∃ anchor,
    Keyed.find? entity.name (anchorsOf entities) = some anchor ∧
      Keyed.find? entity.name links = some ('#' :: anchor)
  /-- A built-in class that a type of a shown signature names first is linked to its address,
  whatever else the document holds, unless a type of the document has its name. -/
  first : ∀ name, NamedFirst settings builtIns entities name →
    (∀ entity ∈ entities, entity.name ≠ name) →
    ∃ address, addressOf settings name = .ok address ∧ Keyed.find? name links = some address
  /-- No other name is linked. -/
  keys : ∀ name, Keyed.has name links = true ↔
    (∃ entity ∈ entities, entity.name = name) ∨ NamedFirst settings builtIns entities name

/-- The names that are linked in the sections of a document form its index. -/
theorem isLinkIndex_of_sections {entities : List Entity}
    (marked : ∀ entity ∈ entities, ∀ method ∈ entity.methods,
      method.IsMarked resolver.rules.builtIns) {single : Bool} {table : MemberTable}
    {texts : List Text} {links : Keyed Text}
    (written : (sections settings resolver (anchorsOf entities) single entities
      (sectionLinks (anchorsOf entities)) table).1 = .ok (texts, links)) :
    IsLinkIndex settings resolver.rules.builtIns entities links := by
  have enters := linkAll_enters (linkAll_of_sections written)
  have documented : ∀ entity ∈ entities, ∃ anchor,
      Keyed.find? entity.name (anchorsOf entities) = some anchor ∧
        Keyed.find? entity.name links = some ('#' :: anchor) := by
    intro entity member
    obtain ⟨anchor, found⟩ := exists_anchor entity member
    refine ⟨anchor, found, enters.kept _ _ ?_⟩
    rw [find?_sectionLinks, found]
    rfl
  have first : ∀ name, NamedFirst settings resolver.rules.builtIns entities name →
      (∀ entity ∈ entities, entity.name ≠ name) →
      ∃ address, addressOf settings name = .ok address ∧
        Keyed.find? name links = some address := by
    intro name named unnamed
    apply enters.entered name named.1 _ (find?_sectionLinks_eq_none unnamed)
    exact (mem_signatureNames_iff marked named.1).mpr named
  refine ⟨documented, first, ?_⟩
  intro name
  constructor
  · intro linked
    by_contra neither
    rw [not_or] at neither
    have unnamed : ∀ entity ∈ entities, entity.name ≠ name := fun entity member named =>
      neither.1 ⟨entity, member, named⟩
    have missing := enters.others name
      (fun nonempty => (mem_signatureNames_iff marked nonempty).not.mpr neither.2)
      (find?_sectionLinks_eq_none unnamed)
    rw [Keyed.has, missing] at linked
    cases linked
  · intro named
    by_cases known : ∃ entity ∈ entities, entity.name = name
    · obtain ⟨entity, member, rfl⟩ := known
      obtain ⟨anchor, -, found⟩ := documented entity member
      exact Option.isSome_of_eq_some found
    · have unnamed : ∀ entity ∈ entities, entity.name ≠ name := fun entity member same =>
        known ⟨entity, member, same⟩
      obtain ⟨address, -, found⟩ := first name (named.resolve_left known) unnamed
      exact Option.isSome_of_eq_some found

end Signatures

/-- A document that is assembled in a session, whatever was loaded and asked before, is
composed of sections and links. The links are those of its types and of the built-in classes
that a type of a shown signature names first, and the latter lead to their addresses unless a
type of the document has their name. -/
theorem assemble_isLinkIndex (rules : Rules) (registry : Registry) (calls : List Call)
    (settings : DocumentSettings) (single : Bool) (names : List Text) (table : MemberTable)
    {text : Text} :
    let session := Session.afterAll rules { registry } calls
    let resolver : Resolver := ⟨rules, session.registry⟩
    (assemble settings resolver single names table session.resolution).1 = .ok text →
    ∃ entities texts links,
      (collect settings resolver [] names session.resolution).1 = .ok entities ∧
      (sections settings resolver (anchorsOf entities) single entities
        (sectionLinks (anchorsOf entities)) table).1 = .ok (texts, links) ∧
      text = compose (anchorsOf entities) single entities texts links ∧
      IsLinkIndex settings rules.builtIns entities links := by
  intro session resolver assembled
  have start := Session.settled_start rules registry
  have settled := (Session.afterAll_settled start calls).1
  have marked := Session.afterAll_marked start (areMarked_nothing rules) calls
  obtain ⟨entities, texts, links, collected, written, composed⟩ := assemble_eq_ok assembled
  have entitiesMarked := collect_marked settled marked collected
  exact ⟨entities, texts, links, collected, written, composed,
    isLinkIndex_of_sections entitiesMarked written⟩

/-- Two built-in classes. -/
def loomRules : Rules where
  builtIns := TypeName.builtInKeys ["Closure".toList, "Generator".toList]

/-- A class with a method that returns either of the two. -/
def spinner : Source.Declaration where
  name := "Spinner".toList
  methods := [{ name := "run".toList, returnType := some "\\Closure|\\Generator".toList }]

/-- A class with a method that takes the second one. -/
def weaver : Source.Declaration where
  name := "Weaver".toList
  methods := [{
    name := "weave".toList
    parameters := [{ name := "$thread".toList, type := some "\\Generator".toList }] }]

/-- A session in which both classes were added and one has been asked for. -/
def loom : Session :=
  Session.afterAll loomRules {} [.add spinner, .add weaver, .ask (.resolve "weaver".toList)]

/-- A document for both classes has an index as described. -/
theorem loom_isLinkIndex :
    ∃ text,
      (assemble {} ⟨loomRules, loom.registry⟩ false ["Spinner".toList, "Weaver".toList] {}
        loom.resolution).1 = .ok text ∧
      ∃ entities texts links,
        (collect {} ⟨loomRules, loom.registry⟩ [] ["Spinner".toList, "Weaver".toList]
          loom.resolution).1 = .ok entities ∧
        (sections {} ⟨loomRules, loom.registry⟩ (anchorsOf entities) false entities
          (sectionLinks (anchorsOf entities)) {}).1 = .ok (texts, links) ∧
        text = compose (anchorsOf entities) false entities texts links ∧
        IsLinkIndex {} loomRules.builtIns entities links := by
  have written : (assemble {} ⟨loomRules, loom.registry⟩ false
      ["Spinner".toList, "Weaver".toList] {} loom.resolution).1.toOption.isSome = true := by
    decide +kernel
  cases assembled : (assemble {} ⟨loomRules, loom.registry⟩ false
      ["Spinner".toList, "Weaver".toList] {} loom.resolution).1 with
  | error failure =>
    rw [assembled] at written
    cases written
  | ok text =>
    exact ⟨text, rfl, assemble_isLinkIndex loomRules {} _ {} false _ {} assembled⟩

/-- A document for some names has sections, and its types and links have a property. -/
def DocumentHas (settings : DocumentSettings) (resolver : Resolver) (single : Bool)
    (names : List Text) (state : Resolution) (property : List Entity → Keyed Text → Prop) : Prop :=
  ∃ entities texts links,
    (collect settings resolver [] names state).1 = .ok entities ∧
    (sections settings resolver (anchorsOf entities) single entities
      (sectionLinks (anchorsOf entities)) {}).1 = .ok (texts, links) ∧
    property entities links

instance (settings : DocumentSettings) (resolver : Resolver) (single : Bool)
    (names : List Text) (state : Resolution) (property : List Entity → Keyed Text → Prop)
    [∀ entities links, Decidable (property entities links)] :
    Decidable (DocumentHas settings resolver single names state property) :=
  match collected : (collect settings resolver [] names state).1 with
  | .error _ => isFalse fun ⟨_, _, _, listed, _⟩ => nomatch collected.symm.trans listed
  | .ok entities =>
    match written : (sections settings resolver (anchorsOf entities) single entities
        (sectionLinks (anchorsOf entities)) {}).1 with
    | .error _ => isFalse fun ⟨_, _, _, listed, shown, _⟩ => by
        cases collected.symm.trans listed
        cases written.symm.trans shown
    | .ok (texts, links) =>
      decidable_of_iff (property entities links)
        ⟨fun holds => ⟨entities, texts, links, collected, written, holds⟩,
          fun ⟨_, _, _, listed, shown, holds⟩ => by
            cases collected.symm.trans listed
            cases written.symm.trans shown
            exact holds⟩

/-- A shown signature of a type of a document names a built-in class in one of its types,
and the class is linked or not. -/
def ShowsNamed (settings : DocumentSettings) (builtIns : List Text) (type name : Text)
    (linked : Bool) (entities : List Entity) (links : Keyed Text) : Prop :=
  (∃ entity ∈ entities, entity.name = type ∧ ∃ method ∈ shownMethods settings entity,
    ∃ declared ∈ typesOf method, TypeName.Names builtIns declared name) ∧
  Keyed.has name links = linked

instance (settings : DocumentSettings) (builtIns : List Text) (type name : Text)
    (linked : Bool) (entities : List Entity) (links : Keyed Text) :
    Decidable (ShowsNamed settings builtIns type name linked entities links) :=
  inferInstanceAs (Decidable (_ ∧ _))

/-- The second built-in class of a union has no target in a document for the first class, and
has one as soon as the document shows the second class, too. -/
theorem laterBuiltIn_unlinked :
    DocumentHas {} ⟨loomRules, loom.registry⟩ false ["Spinner".toList] loom.resolution
      (ShowsNamed {} loomRules.builtIns "Spinner".toList "Generator".toList false) ∧
    DocumentHas {} ⟨loomRules, loom.registry⟩ false ["Spinner".toList, "Weaver".toList]
      loom.resolution
      (ShowsNamed {} loomRules.builtIns "Spinner".toList "Generator".toList true) := by
  decide +kernel

end Document
end Docblock
