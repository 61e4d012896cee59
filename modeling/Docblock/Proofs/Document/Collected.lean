import Docblock.Document.Assembly
import Docblock.Proofs.Registry.Keyed
import Mathlib.Data.List.Forall2

/-!
# The types of a document

The names that a document is asked for lead to loaded types or the document fails with
the first one that does not. Of the types that are not left out each one is shown once,
where its first name stands: names that differ only in case, white space or separators
at their ends stand for one type.

Whether a type is left out is decided by the comment of its declaration alone, so it
does not depend on what has been resolved before.
-/

namespace Docblock.Document

open Documented Resolve Source

/-- Whether the comment of a declaration leaves it out: it is marked as ignored, or as
internal where that is left out. -/
def isLeftOut (settings : DocumentSettings) (rules : Rules) (raw : Declaration) : Bool :=
  let tags := tagsIn rules raw raw.comment
  Comment.isIgnored tags || hides settings (Comment.prose tags)

/-- Whether a type is left out does not depend on its methods. -/
theorem leftOut_documentType (settings : DocumentSettings) (rules : Rules) (raw : Declaration)
    (methods : List Documented.Method) :
    ((documentType rules raw methods).isIgnored ||
      hides settings (documentType rules raw methods).prose) = isLeftOut settings rules raw := by
  simp only [isLeftOut, documentType]

/-- Whether a name stands for a loaded type that is not left out. -/
def isRetained (settings : DocumentSettings) (resolver : Resolver) (name : Text) : Bool :=
  (resolver.registry.find? name).any (!isLeftOut settings resolver.rules ·)

/-- The first name for each key, in order. -/
def firstSpellings : List Text → List Text
  | [] => []
  | name :: rest =>
    name :: (firstSpellings rest).filter (ClassName.key · != ClassName.key name)

/-- The names of the types that a document shows, each in its first spelling. -/
def retained (settings : DocumentSettings) (resolver : Resolver) (names : List Text) :
    List Text :=
  (firstSpellings names).filter (isRetained settings resolver)

/-- Names with one key are retained together. -/
theorem isRetained_congr {settings : DocumentSettings} {resolver : Resolver} {name other : Text}
    (same : ClassName.key name = ClassName.key other) :
    isRetained settings resolver name = isRetained settings resolver other := by
  rw [isRetained, isRetained, Registry.find?, Registry.find?, same]

/-- The first spellings are names of the list. -/
theorem mem_of_mem_firstSpellings {names : List Text} {name : Text}
    (member : name ∈ firstSpellings names) : name ∈ names := by
  induction names with
  | nil => exact member
  | cons head rest inductionHypothesis =>
    rcases List.mem_cons.mp member with rfl | later
    · exact List.mem_cons_self
    · exact List.mem_cons_of_mem head (inductionHypothesis (List.mem_of_mem_filter later))

/-- Every name has its key among the first spellings. -/
theorem exists_firstSpelling {names : List Text} {name : Text} (member : name ∈ names) :
    ∃ first ∈ firstSpellings names, ClassName.key first = ClassName.key name := by
  induction names with
  | nil => cases member
  | cons head rest inductionHypothesis =>
    by_cases same : ClassName.key head = ClassName.key name
    · exact ⟨head, List.mem_cons_self, same⟩
    · have later : name ∈ rest := by
        rcases List.mem_cons.mp member with rfl | later
        · exact absurd rfl same
        · exact later
      obtain ⟨first, listed, equal⟩ := inductionHypothesis later
      refine ⟨first, List.mem_cons_of_mem head ?_, equal⟩
      exact List.mem_filter.mpr ⟨listed, by simpa [equal] using Ne.symm same⟩

/-- The first spellings have different keys. -/
theorem nodup_key_firstSpellings (names : List Text) :
    ((firstSpellings names).map ClassName.key).Nodup := by
  induction names with
  | nil => exact List.nodup_nil
  | cons head rest inductionHypothesis =>
    rw [firstSpellings, List.map_cons]
    refine List.nodup_cons.mpr ⟨?_, ?_⟩
    · intro member
      obtain ⟨other, listed, same⟩ := List.mem_map.mp member
      simpa [same] using (List.mem_filter.mp listed).2
    · exact inductionHypothesis.sublist ((List.filter_sublist).map ClassName.key)

/-- Nothing is shown exactly when no name stands for a type that is retained. -/
theorem retained_eq_nil_iff {settings : DocumentSettings} {resolver : Resolver}
    {names : List Text} :
    retained settings resolver names = [] ↔
      ∀ name ∈ names, isRetained settings resolver name = false := by
  rw [retained, List.filter_eq_nil_iff]
  constructor
  · intro nothing name member
    obtain ⟨first, listed, same⟩ := exists_firstSpelling member
    rw [← isRetained_congr same]
    exact Bool.eq_false_iff.mpr (nothing first listed)
  · intro nothing name member
    exact Bool.eq_false_iff.mp (nothing name (mem_of_mem_firstSpellings member))

/-- The first of some names is shown when its type is retained, and no later name for
the same type is. -/
theorem retained_cons (settings : DocumentSettings) (resolver : Resolver) (head : Text)
    (rest : List Text) :
    retained settings resolver (head :: rest) =
      if isRetained settings resolver head then
        head :: (retained settings resolver rest).filter
          (ClassName.key · != ClassName.key head)
      else retained settings resolver rest := by
  rw [retained, firstSpellings, List.filter_cons, List.filter_comm, retained]
  split
  · rfl
  · rename_i dropped
    refine List.filter_eq_self.mpr fun name member => ?_
    have kept := (List.mem_filter.mp member).2
    refine bne_iff_ne.mpr fun same => dropped ?_
    rw [← isRetained_congr same, kept]

/-- Of the retained names those whose keys are not in a list: a first name that is retained is
passed over when its key is in the list, and else stands for every later name with its key. -/
theorem filter_retained_cons {settings : DocumentSettings} {resolver : Resolver} {head : Text}
    (kept : isRetained settings resolver head = true) (rest keys : List Text) :
    (retained settings resolver (head :: rest)).filter
        (fun name => !keys.contains (ClassName.key name)) =
      if keys.contains (ClassName.key head) then
        (retained settings resolver rest).filter fun name => !keys.contains (ClassName.key name)
      else head :: (retained settings resolver rest).filter
        fun name => !(ClassName.key head :: keys).contains (ClassName.key name) := by
  rw [retained_cons, kept, if_pos rfl, List.filter_cons, List.filter_filter]
  split
  · rename_i new
    rw [if_neg (by simpa using new)]
    congr 2
    funext name
    rw [List.contains_cons, Bool.not_or, Bool.and_comm]
    rfl
  · rename_i repeated
    have known : keys.contains (ClassName.key head) = true := by simpa using repeated
    rw [if_pos known]
    congr 1
    funext name
    by_cases same : ClassName.key name = ClassName.key head
    · rw [same, known]
      rfl
    · rw [bne_iff_ne.mpr same, Bool.and_true]

section Loop

variable {settings : DocumentSettings} {resolver : Resolver} {state : Resolution}

/-- A name that stands for no loaded type fails to resolve. -/
theorem resolve_unknown (settled : Session.Settled resolver.rules ⟨resolver.registry, state⟩)
    {name : Text} (unknown : resolver.registry.has name = false) :
    (resolver.resolve name state).1 = .error (.unknownType (ClassName.clean name)) := by
  have absent : resolver.registry.find? name = none := by
    rwa [Registry.has, Option.isSome_eq_false_iff, Option.isNone_iff_eq_none] at unknown
  obtain ⟨entries, run⟩ := resolving_runs resolver settled.sound settled.idle name
  rw [Resolver.resolve]
  rcases answer : resolver.resolving name state with ⟨_ | entity, after⟩
  · rfl
  · rw [answer] at run
    cases run with
    | known found =>
      obtain ⟨raw, methods, loaded, -⟩ := settled.sound.origin _ _ found
      rw [Registry.find?, loaded] at absent
      cases absent
    | documented fresh loaded run =>
      rw [loaded] at absent
      cases absent

/-- A name that stands for a loaded type resolves to the documentation of that type,
which is finished from then on. -/
theorem resolve_loaded (settled : Session.Settled resolver.rules ⟨resolver.registry, state⟩)
    {name : Text} (loaded : resolver.registry.has name = true) :
    ∃ raw methods after, resolver.registry.find? name = some raw ∧
      resolver.resolve name state = (.ok (documentType resolver.rules raw methods), after) ∧
      Keyed.find? (ClassName.key name) after.finished =
        some (documentType resolver.rules raw methods) ∧
      Session.Settled resolver.rules ⟨resolver.registry, after⟩ ∧
      state.finished <+: after.finished := by
  obtain ⟨entries, run⟩ := resolving_runs resolver settled.sound settled.idle name
  have kept := run.kept_all settled.sound
    (Query.admissible (.resolve name) settled.idle)
  have next : Session.Settled resolver.rules
      ⟨resolver.registry, (resolver.resolving name state).2⟩ :=
    ⟨kept.sound, kept.extension.building.trans settled.idle⟩
  rcases answer : resolver.resolving name state with ⟨_ | entity, after⟩
  · rw [answer] at run
    cases run with
    | unknown fresh absent =>
      rw [Registry.has, absent] at loaded
      cases loaded
  · rw [answer] at run kept next
    have finished := run.find?_of_resolved
    obtain ⟨raw, methods, found, rfl⟩ := next.sound.origin _ _ finished
    refine ⟨raw, methods, after, found, ?_, finished, next, kept.extension.finished⟩
    rw [Resolver.resolve, answer]

/-- A notice leaves a resolver settled. -/
theorem settled_note (settled : Session.Settled resolver.rules ⟨resolver.registry, state⟩)
    (notice : Notice) : Session.Settled resolver.rules ⟨resolver.registry, state.note notice⟩ :=
  ⟨settled.sound.note notice, settled.idle⟩

/-- Collecting fails with the first name that stands for no loaded type. -/
theorem collect_unknown {names collected : List Text} {name : Text}
    (settled : Session.Settled resolver.rules ⟨resolver.registry, state⟩)
    (first : names.find? (!resolver.registry.has ·) = some name) :
    (collect settings resolver collected names state).1 =
      .error (.unknownType (ClassName.clean name)) := by
  induction names generalizing collected state with
  | nil => cases first
  | cons head rest inductionHypothesis =>
    rw [collect]
    cases loaded : resolver.registry.has head with
    | false =>
      rw [List.find?_cons_of_pos (by simp [loaded])] at first
      obtain rfl : head = name := Option.some.inj first
      have failed := resolve_unknown settled loaded
      rcases answer : resolver.resolve head state with ⟨failure | entity, after⟩
      · rw [answer] at failed
        rw [Except.error.inj failed]
      · rw [answer] at failed
        cases failed
    | true =>
      rw [List.find?_cons_of_neg (by simp [loaded])] at first
      obtain ⟨raw, methods, after, -, resolved, -, next, -⟩ := resolve_loaded settled loaded
      rw [resolved]
      simp only
      split
      · exact inductionHypothesis (settled_note next _) first
      split
      · exact inductionHypothesis next first
      · rw [inductionHypothesis next first]
        rfl

/-- The names of types that have been collected. -/
def AreCollected (registry : Registry) (collected : List Text) : Prop :=
  ∀ name ∈ collected, ∃ raw, Keyed.find? (Text.lower name) registry.entries = some raw ∧
    raw.name = name

/-- A loaded type has been collected exactly when its key has. -/
theorem mem_collected_iff {registry : Registry} (keyed : registry.IsKeyed)
    {collected : List Text} (known : AreCollected registry collected) {key : Text}
    {raw : Declaration} (found : Keyed.find? key registry.entries = some raw) :
    raw.name ∈ collected ↔ key ∈ collected.map Text.lower := by
  constructor
  · intro member
    exact List.mem_map.mpr ⟨raw.name, member, keyed.lower_name found⟩
  · intro member
    obtain ⟨name, listed, same⟩ := List.mem_map.mp member
    obtain ⟨other, there, named⟩ := known name listed
    rw [same, found] at there
    cases there
    rwa [named]

/-- Beside the types that have been collected another loaded type is. -/
theorem AreCollected.cons {registry : Registry} (keyed : registry.IsKeyed)
    {collected : List Text} (known : AreCollected registry collected) {key : Text}
    {raw : Declaration} (found : Keyed.find? key registry.entries = some raw) :
    AreCollected registry (raw.name :: collected) := by
  intro name member
  rcases List.mem_cons.mp member with rfl | earlier
  · exact ⟨raw, by rw [keyed.lower_name found]; exact found, rfl⟩
  · exact known name earlier

/-- Collecting loaded types takes those that are retained and have not been collected,
each once. The induction is on the names. A name whose key has been collected stands for
a type whose name has been collected, because declarations are kept under their names. -/
theorem collect_loaded (keyed : resolver.registry.IsKeyed) {names collected : List Text}
    (known : AreCollected resolver.registry collected)
    (settled : Session.Settled resolver.rules ⟨resolver.registry, state⟩)
    (loaded : ∀ name ∈ names, resolver.registry.has name = true) :
    ∃ entities after,
      collect settings resolver collected names state = (.ok entities, after) ∧
      Session.Settled resolver.rules ⟨resolver.registry, after⟩ ∧
      state.finished <+: after.finished ∧
      List.Forall₂ (fun name entity =>
          Keyed.find? (ClassName.key name) after.finished = some entity)
        ((retained settings resolver names).filter
          fun name => !(collected.map Text.lower).contains (ClassName.key name)) entities := by
  induction names generalizing collected state with
  | nil => exact ⟨[], state, rfl, settled, List.prefix_refl _, .nil⟩
  | cons head rest inductionHypothesis =>
    obtain ⟨headLoaded, restLoaded⟩ := List.forall_mem_cons.mp loaded
    obtain ⟨raw, methods, after, found, resolved, finished, next, extended⟩ :=
      resolve_loaded settled headLoaded
    rw [collect, resolved]
    simp only
    split
    · rename_i out
      rw [leftOut_documentType] at out
      have dropped : isRetained settings resolver head = false := by
        simp [isRetained, found, out]
      obtain ⟨entities, last, listed, lastSettled, further, shown⟩ :=
        inductionHypothesis known (settled_note next _) restLoaded
      rw [retained_cons, dropped]
      exact ⟨entities, last, listed, lastSettled, extended.trans further, shown⟩
    rename_i kept
    rw [leftOut_documentType] at kept
    have retainedHead : isRetained settings resolver head = true := by
      simp [isRetained, found, kept]
    rw [filter_retained_cons retainedHead]
    split
    · rename_i repeated
      have collectedKey :=
        (mem_collected_iff keyed known found).mp (List.contains_iff_mem.mp repeated)
      obtain ⟨entities, last, listed, lastSettled, further, shown⟩ :=
        inductionHypothesis known next restLoaded
      refine ⟨entities, last, listed, lastSettled, extended.trans further, ?_⟩
      rw [if_pos (List.contains_iff_mem.mpr collectedKey)]
      exact shown
    · rename_i new
      have newKey : ¬(collected.map Text.lower).contains (ClassName.key head) = true := by
        rw [List.contains_iff_mem, ← mem_collected_iff keyed known found]
        exact fun member => new (List.contains_iff_mem.mpr member)
      obtain ⟨entities, last, listed, lastSettled, further, shown⟩ :=
        inductionHypothesis (known.cons keyed found) next restLoaded
      have keyOfName : Text.lower raw.name = ClassName.key head := keyed.lower_name found
      rw [List.map_cons, keyOfName] at shown
      obtain ⟨more, grown⟩ := further
      refine ⟨documentType resolver.rules raw methods :: entities, last, ?_, lastSettled,
        extended.trans ⟨more, grown⟩, ?_⟩
      · have named : (documentType resolver.rules raw methods).name = raw.name := rfl
        rw [named, listed]
        rfl
      · rw [if_neg newKey]
        exact .cons (grown ▸ Keyed.find?_append_of_found finished more) shown

/-- The types that a document shows are those that the retained names stand for. -/
theorem collect_retained (settings : DocumentSettings) (keyed : resolver.registry.IsKeyed)
    {names : List Text}
    (settled : Session.Settled resolver.rules ⟨resolver.registry, state⟩)
    (loaded : ∀ name ∈ names, resolver.registry.has name = true) :
    ∃ entities after,
      collect settings resolver [] names state = (.ok entities, after) ∧
      Session.Settled resolver.rules ⟨resolver.registry, after⟩ ∧
      List.Forall₂ (fun name entity =>
          Keyed.find? (ClassName.key name) after.finished = some entity)
        (retained settings resolver names) entities := by
  have known : AreCollected resolver.registry [] := by simp [AreCollected]
  obtain ⟨entities, after, listed, last, -, shown⟩ :=
    collect_loaded keyed known settled loaded
  have whole : (retained settings resolver names).filter
      (fun name => !(([] : List Text).map Text.lower).contains (ClassName.key name)) =
      retained settings resolver names := List.filter_eq_self.mpr fun name _ => rfl
  rw [whole] at shown
  exact ⟨entities, after, listed, last, shown⟩

end Loop

/-- Of types that were collected the first name stands for one that was resolved. It is left out,
or it was collected before, or it is the first of them. -/
theorem collect_cons_cases {settings : DocumentSettings} {resolver : Resolver} {name : Text}
    {rest collected : List Text} {state : Resolution} {entities : List Entity}
    (listed : (collect settings resolver collected (name :: rest) state).1 = .ok entities) :
    ∃ entity after, resolver.resolve name state = (.ok entity, after) ∧
      ((collect settings resolver collected rest (after.note (.leftOut entity.name))).1 =
          .ok entities ∨
        (collect settings resolver collected rest after).1 = .ok entities ∨
        ∃ others, entities = entity :: others ∧ entity.name ∉ collected ∧
          (collect settings resolver (entity.name :: collected) rest after).1 = .ok others) := by
  rw [collect] at listed
  split at listed
  · cases listed
  · rename_i entity after resolved
    refine ⟨entity, after, resolved, ?_⟩
    split at listed
    · exact .inl listed
    · split at listed
      · exact .inr (.inl listed)
      · rename_i new
        obtain ⟨others, following, rfl⟩ := exists_of_map_eq_ok listed
        exact .inr (.inr ⟨others, rfl, by simpa using new, following⟩)

/-- Whatever is collected, no two types have one name, and none has that of a type that was
collected before. -/
theorem nodup_collect {settings : DocumentSettings} {resolver : Resolver}
    {names collected : List Text} {state : Resolution} {entities : List Entity}
    (listed : (collect settings resolver collected names state).1 = .ok entities) :
    (entities.map (·.name)).Nodup ∧ ∀ entity ∈ entities, entity.name ∉ collected := by
  induction names generalizing collected state entities with
  | nil =>
    cases listed
    simp
  | cons name rest inductionHypothesis =>
    obtain ⟨entity, after, -, leftOut | repeated | ⟨others, rfl, new, following⟩⟩ :=
      collect_cons_cases listed
    · exact inductionHypothesis leftOut
    · exact inductionHypothesis repeated
    · obtain ⟨distinct, apart⟩ := inductionHypothesis following
      constructor
      · rw [List.map_cons, List.nodup_cons]
        refine ⟨?_, distinct⟩
        intro again
        obtain ⟨other, inside, named⟩ := List.mem_map.mp again
        exact apart other inside (named ▸ List.mem_cons_self)
      · intro other member
        rcases List.mem_cons.mp member with rfl | inside
        · exact new
        · exact fun known => apart other inside (List.mem_cons_of_mem _ known)

/-- The name of a finished type becomes the key of every name it stands for. -/
theorem map_lower_name {rules : Rules} {session : Session} (keyed : session.registry.IsKeyed)
    (settled : Session.Settled rules session) {names : List Text} {entities : List Entity}
    (shown : List.Forall₂ (fun name entity =>
      Keyed.find? (ClassName.key name) session.resolution.finished = some entity)
      names entities) :
    (entities.map (·.name)).map Text.lower = names.map ClassName.key := by
  induction shown with
  | nil => rfl
  | cons found _ inductionHypothesis =>
    obtain ⟨raw, methods, loaded, rfl⟩ := settled.sound.origin _ _ found
    rw [List.map_cons, List.map_cons, List.map_cons, inductionHypothesis]
    exact congrArg (· :: _) (keyed.lower_name loaded)

end Docblock.Document
