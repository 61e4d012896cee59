import Docblock.Proofs.Resolution.Session
import Mathlib.Data.Set.Finite.Basic
import Mathlib.Logic.Relation
import Mathlib.Order.WellFounded

/-!
# Plain documentation

In a hierarchy without cycles a type can be documented by plain recursion: its
methods take the words they inherit from the plain documentation of its
ancestors. Nothing is kept, nothing is marked, and there is no order in which
types are documented. The recursion is well-founded because every type that is
looked up is an ancestor of the one that looks it up.

The resolver answers with the plain documentation, whatever it has been asked
before. So the order in which types are resolved never shows.
-/

namespace Docblock

open Resolve

/-- A loaded type names another loaded type as its parent or as one of its
interfaces. Both are given by the keys under which they are looked up. -/
def Registry.Needs (registry : Registry) (key above : Text) : Prop :=
  ∃ raw, Keyed.find? key registry.entries = some raw ∧
    ∃ name ∈ ancestors raw, name ≠ [] ∧ ClassName.key name = above ∧
      Keyed.has above registry.entries = true

/-- No loaded type is its own ancestor. -/
def Registry.Acyclic (registry : Registry) : Prop :=
  ∀ key, ¬ Relation.TransGen registry.Needs key key

/-- A hierarchy without cycles has no endless way upwards, because only finitely
many types are loaded. Keys under which nothing is loaded lead nowhere. -/
theorem Registry.Acyclic.wellFounded {registry : Registry} (acyclic : registry.Acyclic) :
    WellFounded (flip registry.Needs) := by
  let above (a b : { key : Text // key ∈ Keyed.keys registry.entries }) : Prop :=
    Relation.TransGen registry.Needs b.val a.val
  have transitive : IsTrans _ above := ⟨fun _ _ _ first second => second.trans first⟩
  have irreflexive : Std.Irrefl above := ⟨fun key => acyclic key.val⟩
  have grounded : WellFounded above := Finite.wellFounded_of_trans_of_irrefl above
  have accessible : ∀ key : { key : Text // key ∈ Keyed.keys registry.entries },
      Acc (flip registry.Needs) key.val := by
    intro key
    induction key using grounded.induction with
    | _ key inductionHypothesis =>
      refine Acc.intro _ fun other needs => ?_
      have member : other ∈ Keyed.keys registry.entries := by
        obtain ⟨_, _, _, _, _, rfl, present⟩ := needs
        exact Keyed.mem_keys_of_has present
      exact inductionHypothesis ⟨other, member⟩ (.single needs)
  refine ⟨fun key => Acc.intro _ fun other needs => ?_⟩
  obtain ⟨_, _, _, _, _, rfl, present⟩ := needs
  exact accessible ⟨_, Keyed.mem_keys_of_has present⟩

/-- A hierarchy in which every loaded ancestor has a smaller rank has no cycles. -/
theorem Registry.acyclic_of_rank {registry : Registry} (rank : Text → Nat)
    (smaller : ∀ entry ∈ registry.entries, ∀ name ∈ ancestors entry.2, name ≠ [] →
      Keyed.has (ClassName.key name) registry.entries = true →
      rank (ClassName.key name) < rank entry.1) :
    registry.Acyclic := by
  have decreases : ∀ key above, Relation.TransGen registry.Needs key above →
      rank above < rank key := by
    intro key above way
    have step : ∀ key above, registry.Needs key above → rank above < rank key := by
      rintro key _ ⟨raw, loaded, name, member, named, rfl, present⟩
      exact smaller (key, raw) (Keyed.mem_of_find? loaded) name member named present
    induction way with
    | single needs => exact step _ _ needs
    | tail _ needs inductionHypothesis => exact (step _ _ needs).trans inductionHypothesis
  exact fun key cycle => Nat.lt_irrefl _ (decreases key key cycle)

namespace Resolve

mutual

/-- The documentation of the type under a key. A method that asks for inherited
words takes them from the first ancestor that has a method of its name. -/
def plainEntity (rules : Rules) (registry : Registry)
    (grounded : WellFounded (flip registry.Needs)) (key : Text) : Option Documented.Entity :=
  match _loaded : Keyed.find? key registry.entries with
  | none => none
  | some raw =>
    some (documentType rules raw (raw.methods.filterMap fun member =>
      (keptTags? rules raw member).map fun tags =>
        documentMethod rules raw member tags
          (if Comment.inheritsWords tags then
            (ancestors raw).attach.findSome? fun (name : { name // name ∈ ancestors raw }) =>
              if _reached : name.val ≠ [] ∧ Keyed.has (ClassName.key name.val) registry.entries then
                plainMethod rules registry grounded member.name (ClassName.key name.val)
              else none
          else none)))
termination_by (grounded.wrap key, 0)
decreasing_by
  exact Prod.Lex.left _ _ ⟨raw, _loaded, name, name.property, _reached.1, rfl, _reached.2⟩

/-- The documentation of the first method of a name in the type under a key or
one of its parents. -/
def plainMethod (rules : Rules) (registry : Registry)
    (grounded : WellFounded (flip registry.Needs)) (method key : Text) :
    Option Documented.Method :=
  match _loaded : Keyed.find? key registry.entries with
  | none => none
  | some raw =>
    ((plainEntity rules registry grounded key).bind
        fun entity => entity.methods.find? (·.name == method)).or
      (match _above : (given raw.parent).map ClassName.clean with
      | none => none
      | some parent =>
        if _reached : parent ≠ [] ∧ Keyed.has (ClassName.key parent) registry.entries then
          plainMethod rules registry grounded method (ClassName.key parent)
        else none)
termination_by (grounded.wrap key, 1)
decreasing_by
  · exact Prod.Lex.right _ (by decide)
  · exact Prod.Lex.left _ _
      ⟨raw, _loaded, parent, parent_mem_ancestors _above _reached.1, _reached.1, rfl, _reached.2⟩

end

variable {rules : Rules} {registry : Registry}

/-- The documentation of the first method of a name in the type that a name stands
for or one of its parents. -/
def plainAlong (rules : Rules) (registry : Registry)
    (grounded : WellFounded (flip registry.Needs)) (method name : Text) :
    Option Documented.Method :=
  if name = [] then none else plainMethod rules registry grounded method (ClassName.key name)

/-- The method that a method takes inherited words from in plain documentation. -/
def plainInherited (rules : Rules) (registry : Registry)
    (grounded : WellFounded (flip registry.Needs)) (raw : Source.Declaration)
    (member : Source.Method) (tags : Comment.Tags) : Option Documented.Method :=
  if Comment.inheritsWords tags then
    (ancestors raw).findSome? (plainAlong rules registry grounded member.name)
  else none

/-- The methods of a type in plain documentation. -/
def plainMethods (rules : Rules) (registry : Registry)
    (grounded : WellFounded (flip registry.Needs)) (raw : Source.Declaration)
    (members : List Source.Method) : List Documented.Method :=
  members.filterMap fun member => (keptTags? rules raw member).map fun tags =>
    documentMethod rules raw member tags (plainInherited rules registry grounded raw member tags)

/-- A key under which nothing is loaded has no methods. -/
theorem plainMethod_of_absent (grounded : WellFounded (flip registry.Needs)) {key : Text}
    (absent : Keyed.find? key registry.entries = none) (method : Text) :
    plainMethod rules registry grounded method key = none := by
  rw [plainMethod]
  split
  · rfl
  · rename_i raw loaded
    rw [absent] at loaded
    exact nomatch loaded

/-- Looking up only names that stand for loaded types loses nothing. -/
theorem guarded_plainMethod (grounded : WellFounded (flip registry.Needs)) (method name : Text) :
    (if name ≠ [] ∧ Keyed.has (ClassName.key name) registry.entries then
      plainMethod rules registry grounded method (ClassName.key name) else none) =
      plainAlong rules registry grounded method name := by
  by_cases missing : name = []
  · simp [plainAlong, missing]
  · cases loaded : Keyed.find? (ClassName.key name) registry.entries with
    | none => simp [plainAlong, missing, Keyed.has, loaded, plainMethod_of_absent]
    | some raw => simp [plainAlong, missing, Keyed.has, loaded]

/-- Plain documentation of a type is its declaration with the plain documentation
of its methods. -/
theorem plainEntity_eq (grounded : WellFounded (flip registry.Needs)) (key : Text) :
    plainEntity rules registry grounded key =
      (Keyed.find? key registry.entries).map fun raw =>
        documentType rules raw (plainMethods rules registry grounded raw raw.methods) := by
  rw [plainEntity]
  split
  · rename_i absent
    simp [absent]
  · rename_i raw loaded
    simp only [loaded, Option.map_some, plainMethods, plainInherited, dite_eq_ite,
      guarded_plainMethod]
    have unattached (find : Text → Option Documented.Method) :
        ((ancestors raw).attach.findSome? fun name => find name.val) =
          (ancestors raw).findSome? find := by
      rw [List.findSome?_subtype fun _ _ => rfl, List.unattach_attach]
    simp only [unattached]

/-- The search along parents in plain documentation: the first method of the name
in the type, or else what the search from its parent finds. -/
theorem plainAlong_eq (grounded : WellFounded (flip registry.Needs)) (method : Text) {name : Text}
    (named : name ≠ []) :
    plainAlong rules registry grounded method name =
      (plainEntity rules registry grounded (ClassName.key name)).bind fun entity =>
        (entity.methods.find? (·.name == method)).or
          (entity.parent.bind (plainAlong rules registry grounded method)) := by
  rw [plainAlong, if_neg named, plainMethod]
  split
  · rename_i absent
    simp [plainEntity_eq, absent]
  · rename_i raw loaded
    simp only [plainEntity_eq, loaded, Option.map_some, Option.bind_some, documentType]
    congr 1
    split
    · rename_i top
      simp [top]
    · rename_i parent above
      simp only [above, Option.bind_some, dite_eq_ite, guarded_plainMethod]

/-- What plain documentation answers a task with. -/
def Task.plain (rules : Rules) (registry : Registry)
    (grounded : WellFounded (flip registry.Needs)) : (task : Task) → task.Answer
  | .resolve name => plainEntity rules registry grounded (ClassName.key name)
  | .walk method _ name => plainAlong rules registry grounded method name
  | .search method names => names.findSome? (plainAlong rules registry grounded method)
  | .inherit raw member tags => plainInherited rules registry grounded raw member tags
  | .document raw members => plainMethods rules registry grounded raw members

/-- A loaded type that a name stands for is an ancestor of all types that are
being documented. -/
def IsAbove (registry : Registry) (state : Resolution) (name : Text) : Prop :=
  Keyed.has (ClassName.key name) registry.entries = true →
    ∀ key ∈ state.building, Relation.TransGen registry.Needs key (ClassName.key name)

/-- A task looks up only ancestors of the types that are being documented, and a
walk only ancestors of those it has visited. -/
def Task.LooksAbove (registry : Registry) (state : Resolution) : Task → Prop
  | .resolve name => IsAbove registry state name
  | .walk _ visited name => name ≠ [] → IsAbove registry state name ∧
      (Keyed.has (ClassName.key name) registry.entries = true →
        ∀ earlier ∈ visited,
          Relation.TransGen registry.Needs (ClassName.key earlier) (ClassName.key name))
  | .search _ names => ∀ name ∈ names, name ≠ [] → IsAbove registry state name
  | .inherit raw _ _ => ∀ name ∈ ancestors raw, name ≠ [] → IsAbove registry state name
  | .document raw _ => ∀ name ∈ ancestors raw, name ≠ [] → IsAbove registry state name

/-- All finished types have their plain documentation. -/
def IsPlain (rules : Rules) (registry : Registry) (grounded : WellFounded (flip registry.Needs))
    (state : Resolution) : Prop :=
  ∀ key entity, Keyed.find? key state.finished = some entity →
    plainEntity rules registry grounded key = some entity

/-- The types that are being documented are the same after a run, so the names
above them are. -/
theorem IsAbove.extends {state after : Resolution} {name : Text}
    (above : IsAbove registry state name) (extension : Extends state after) :
    IsAbove registry after name := by
  intro present key member
  exact above present key (extension.building ▸ member)

/-- A type that has a plain documentation is loaded, and its parent is one of the
ancestors it needs. -/
theorem needs_parent {grounded : WellFounded (flip registry.Needs)} {key parent : Text}
    {entity : Documented.Entity} (plain : plainEntity rules registry grounded key = some entity)
    (above : entity.parent = some parent) (named : parent ≠ [])
    (present : Keyed.has (ClassName.key parent) registry.entries = true) :
    Keyed.has key registry.entries = true ∧ registry.Needs key (ClassName.key parent) := by
  rw [plainEntity_eq] at plain
  obtain ⟨raw, loaded, rfl⟩ := Option.map_eq_some_iff.mp plain
  exact ⟨Option.isSome_of_eq_some loaded,
    raw, loaded, parent, parent_mem_ancestors above named, named, rfl, present⟩

/-- The ancestors of a type that is entered are above all types that are then being
documented. -/
theorem Task.LooksAbove.entered {state : Resolution} {name : Text} {raw : Source.Declaration}
    (looksAbove : (Task.resolve name).LooksAbove registry state)
    (loaded : Keyed.find? (ClassName.key name) registry.entries = some raw) :
    (Task.document raw raw.methods).LooksAbove registry (state.enter (ClassName.key name)) := by
  have present : Keyed.has (ClassName.key name) registry.entries = true :=
    Option.isSome_of_eq_some loaded
  intro ancestor member named presentAbove key building
  have needs : registry.Needs (ClassName.key name) (ClassName.key ancestor) :=
    ⟨raw, loaded, ancestor, member, named, rfl, presentAbove⟩
  rcases List.mem_cons.mp building with rfl | building
  · exact .single needs
  · exact .tail (looksAbove present key building) needs

/-- The parent that a walk climbs to is above what the name before it was above. -/
theorem Task.LooksAbove.climbed {state after : Resolution} {method name parent : Text}
    {visited : List Text} {grounded : WellFounded (flip registry.Needs)}
    {entity : Documented.Entity}
    (looksAbove : (Task.walk method visited name).LooksAbove registry state) (named : name ≠ [])
    (extension : Extends state after)
    (plain : plainEntity rules registry grounded (ClassName.key name) = some entity)
    (above : entity.parent = some parent) :
    (Task.walk method (name :: visited) parent).LooksAbove registry after := by
  obtain ⟨nameAbove, visitedAbove⟩ := looksAbove named
  intro parentNamed
  constructor
  · intro present key building
    obtain ⟨presentName, needs⟩ := needs_parent plain above parentNamed present
    exact .tail (nameAbove presentName key (extension.building ▸ building)) needs
  · intro present earlier member
    obtain ⟨presentName, needs⟩ := needs_parent plain above parentNamed present
    rcases List.mem_cons.mp member with rfl | member
    · exact .single needs
    · exact .tail (visitedAbove presentName earlier member) needs

/-- A type that is finished with its plain documentation leaves all of them so. -/
theorem IsPlain.finish {grounded : WellFounded (flip registry.Needs)} {state : Resolution}
    {key : Text} {entity : Documented.Entity} (plain : IsPlain rules registry grounded state)
    (documented : plainEntity rules registry grounded key = some entity) :
    IsPlain rules registry grounded (state.finish key entity) := by
  intro other found stored
  by_cases same : other = key
  · subst same
    have equal : some entity = some found := (Keyed.find?_put_same _ _ _).symm.trans stored
    exact equal ▸ documented
  · exact plain other found ((Keyed.find?_put_other _ _ _ _ same).symm.trans stored)

/-- In a hierarchy without cycles a walk halts only where plain documentation has
nothing either: a type being documented or visited before would be its own
ancestor. -/
theorem plainAlong_of_halts (acyclic : registry.Acyclic) {state : Resolution}
    {method name : Text} {visited : List Text}
    (looksAbove : (Task.walk method visited name).LooksAbove registry state)
    (halts : Halts visited name state) :
    plainAlong rules registry acyclic.wellFounded method name = none := by
  by_cases missing : name = []
  · simp [plainAlong, missing]
  cases loaded : Keyed.find? (ClassName.key name) registry.entries with
  | none => rw [plainAlong, if_neg missing, plainMethod_of_absent _ loaded]
  | some raw =>
    have present : Keyed.has (ClassName.key name) registry.entries = true :=
      Option.isSome_of_eq_some loaded
    obtain ⟨above, visitedAbove⟩ := looksAbove missing
    rcases halts with gone | again | building
    · exact absurd gone missing
    · exact absurd (visitedAbove present name (List.contains_iff_mem.mp again)) (acyclic _)
    · have member : ClassName.key name ∈ state.building := List.contains_iff_mem.mp building
      exact absurd (above present _ member) (acyclic _)

/-- In a hierarchy without cycles every run that looks upwards answers with plain
documentation and finishes only types with their plain documentation. The induction
follows the rules. When a type is entered, its ancestors are above it and above all
types that are being documented; when a walk climbs, the parent is above what the
name was above. So the marks of types never decide an answer. -/
theorem Runs.plain (acyclic : registry.Acyclic) {task : Task} {state after : Resolution}
    {entries : List Entry} {answer : task.Answer}
    (run : Runs rules registry task state entries answer after)
    (sound : Sound rules registry state) (admissible : task.Admissible state)
    (plain : IsPlain rules registry acyclic.wellFounded state)
    (looksAbove : task.LooksAbove registry state) :
    answer = task.plain rules registry acyclic.wellFounded ∧
      IsPlain rules registry acyclic.wellFounded after := by
  induction run with
  | known found => exact ⟨(plain _ _ found).symm, plain⟩
  | @unknown name state fresh absent =>
    have absent : Keyed.find? (ClassName.key name) registry.entries = none := absent
    exact ⟨by simp [Task.plain, plainEntity_eq, absent], plain⟩
  | @documented name state after raw entries methods fresh loaded run inductionHypothesis =>
    have loaded : Keyed.find? (ClassName.key name) registry.entries = some raw := loaded
    have present : Keyed.has (ClassName.key name) registry.entries = true :=
      Option.isSome_of_eq_some loaded
    have outside : ClassName.key name ∉ state.building := by
      simpa [Task.Admissible, Resolution.isBuilding] using admissible
    obtain ⟨rfl, plainAfter⟩ := inductionHypothesis (sound.enter fresh present outside) trivial
      plain (Task.LooksAbove.entered looksAbove loaded)
    have entity : plainEntity rules registry acyclic.wellFounded (ClassName.key name) =
        some (documentType rules raw
          (plainMethods rules registry acyclic.wellFounded raw raw.methods)) := by
      simp [plainEntity_eq, loaded]
    exact ⟨entity.symm, plainAfter.finish entity⟩
  | halted halts => exact ⟨(plainAlong_of_halts acyclic looksAbove halts).symm, plain⟩
  | @stranded method name visited state after entries goes run inductionHypothesis =>
    have named : name ≠ [] := fun missing => goes (.inl missing)
    obtain ⟨unanswered, plainAfter⟩ := inductionHypothesis sound (admissible_of_not_halts goes)
      plain (looksAbove named).1
    have unanswered : none = plainEntity rules registry acyclic.wellFounded (ClassName.key name) :=
      unanswered
    exact ⟨by simp [Task.plain, plainAlong_eq _ _ named, ← unanswered], plainAfter⟩
  | @met method name visited state after entries entity found goes run has inductionHypothesis =>
    have named : name ≠ [] := fun missing => goes (.inl missing)
    obtain ⟨answered, plainAfter⟩ := inductionHypothesis sound (admissible_of_not_halts goes)
      plain (looksAbove named).1
    have answered : some entity =
        plainEntity rules registry acyclic.wellFounded (ClassName.key name) :=
      answered
    exact ⟨by simp [Task.plain, plainAlong_eq _ _ named, ← answered, has], plainAfter⟩
  | @ended method name visited state after entries entity goes run lacks top inductionHypothesis =>
    have named : name ≠ [] := fun missing => goes (.inl missing)
    obtain ⟨answered, plainAfter⟩ := inductionHypothesis sound (admissible_of_not_halts goes)
      plain (looksAbove named).1
    have answered : some entity =
        plainEntity rules registry acyclic.wellFounded (ClassName.key name) :=
      answered
    exact ⟨by simp [Task.plain, plainAlong_eq _ _ named, ← answered, lacks, top], plainAfter⟩
  | @climbed method name parent visited state after last entries others entity answer goes run
      lacks above further inductionHypothesis climb =>
    have named : name ≠ [] := fun missing => goes (.inl missing)
    have admitted := admissible_of_not_halts goes
    obtain ⟨answered, plainAfter⟩ := inductionHypothesis sound admitted plain (looksAbove named).1
    have answered : some entity =
        plainEntity rules registry acyclic.wellFounded (ClassName.key name) :=
      answered
    have kept := run.kept_all sound admitted
    have parentAbove :=
      Task.LooksAbove.climbed looksAbove named kept.extension answered.symm above
    obtain ⟨rfl, plainLast⟩ := climb kept.sound trivial plainAfter parentAbove
    exact ⟨by simp [Task.plain, plainAlong_eq _ _ named, ← answered, lacks, above], plainLast⟩
  | exhausted => exact ⟨rfl, plain⟩
  | @first method name rest state after entries found run inductionHypothesis =>
    have walkAbove : (Task.walk method [] name).LooksAbove registry state :=
      fun named => ⟨looksAbove name List.mem_cons_self named, by simp⟩
    obtain ⟨answered, plainAfter⟩ := inductionHypothesis sound trivial plain walkAbove
    have answered : some found =
        plainAlong rules registry acyclic.wellFounded method name := answered
    exact ⟨by simp [Task.plain, ← answered], plainAfter⟩
  | @next method name rest state after last entries others answer run further inductionHypothesis
      onward =>
    have walkAbove : (Task.walk method [] name).LooksAbove registry state :=
      fun named => ⟨looksAbove name List.mem_cons_self named, by simp⟩
    obtain ⟨answered, plainAfter⟩ := inductionHypothesis sound trivial plain walkAbove
    have answered : none = plainAlong rules registry acyclic.wellFounded method name := answered
    have kept := run.kept_all sound trivial
    have restAbove : (Task.search method rest).LooksAbove registry after :=
      fun other member named =>
        (looksAbove other (List.mem_cons_of_mem name member) named).extends kept.extension
    obtain ⟨rfl, plainLast⟩ := onward kept.sound trivial plainAfter restAbove
    exact ⟨by simp [Task.plain, ← answered], plainLast⟩
  | unasked own => exact ⟨by simp [Task.plain, plainInherited, own], plain⟩
  | inherited asks run inductionHypothesis =>
    obtain ⟨answered, plainAfter⟩ := inductionHypothesis sound trivial plain looksAbove
    exact ⟨by simpa [Task.plain, plainInherited, asks] using answered, plainAfter⟩
  | orphaned asks run inductionHypothesis =>
    obtain ⟨answered, plainAfter⟩ := inductionHypothesis sound trivial plain looksAbove
    exact ⟨by simpa [Task.plain, plainInherited, asks] using answered, plainAfter⟩
  | complete => exact ⟨rfl, plain⟩
  | dropped drops further inductionHypothesis =>
    obtain ⟨rfl, plainAfter⟩ := inductionHypothesis sound trivial plain looksAbove
    exact ⟨by simp [Task.plain, plainMethods, drops], plainAfter⟩
  | kept keeps run further inductionHypothesis onward =>
    obtain ⟨rfl, plainAfter⟩ := inductionHypothesis sound trivial plain looksAbove
    have kept := run.kept_all sound trivial
    obtain ⟨rfl, plainLast⟩ := onward kept.sound trivial plainAfter
      fun name member named => (looksAbove name member named).extends kept.extension
    exact ⟨by simp [Task.plain, plainMethods, keeps], plainLast⟩

end Resolve

/-- A task set by a question looks up anything: nothing is being documented. -/
theorem Query.looksAbove (query : Query) {registry : Registry} {state : Resolution}
    (idle : state.building = []) : query.task.LooksAbove registry state := by
  have above : ∀ name, IsAbove registry state name := by
    intro name _ key building
    simp [idle] at building
  cases query with
  | resolve name => exact above name
  | find method name => exact fun _ => ⟨above name, by simp⟩
  | findIn method names => exact fun name _ _ => above name

/-- In a hierarchy without cycles a resolver that has finished only plain
documentation answers every question with plain documentation. -/
theorem Resolver.ask_plain (resolver : Resolver) (acyclic : resolver.registry.Acyclic)
    (query : Query) {state : Resolution}
    (sound : Sound resolver.rules resolver.registry state) (idle : state.building = [])
    (plain : IsPlain resolver.rules resolver.registry acyclic.wellFounded state) :
    (resolver.ask query state).1 =
        query.task.plain resolver.rules resolver.registry acyclic.wellFounded ∧
      IsPlain resolver.rules resolver.registry acyclic.wellFounded
        (resolver.ask query state).2 := by
  obtain ⟨entries, run⟩ := resolver.ask_runs query sound idle
  exact run.plain acyclic sound (query.admissible idle) plain (query.looksAbove idle)

/-- In a hierarchy without cycles all that a resolver finishes has its plain
documentation, whatever it has been asked. -/
theorem Resolver.askAll_plain (resolver : Resolver) (acyclic : resolver.registry.Acyclic)
    (queries : List Query) {state : Resolution}
    (sound : Sound resolver.rules resolver.registry state) (idle : state.building = [])
    (plain : IsPlain resolver.rules resolver.registry acyclic.wellFounded state) :
    Sound resolver.rules resolver.registry (resolver.askAll queries state) ∧
      (resolver.askAll queries state).building = [] ∧
      IsPlain resolver.rules resolver.registry acyclic.wellFounded
        (resolver.askAll queries state) := by
  induction queries generalizing state with
  | nil => exact ⟨sound, idle, plain⟩
  | cons query rest inductionHypothesis =>
    obtain ⟨entries, kept⟩ := resolver.ask_kept query sound idle
    have next := (resolver.ask_plain acyclic query sound idle plain).2
    exact inductionHypothesis kept.sound (kept.extension.building.trans idle) next

/-- In a hierarchy without cycles all questions are answered with plain documentation. -/
theorem Resolver.ask_eq_plain (resolver : Resolver) (acyclic : resolver.registry.Acyclic)
    (query : Query)
    (queries : List Query) :
    (resolver.ask query (resolver.askAll queries {})).1 =
      query.task.plain resolver.rules resolver.registry acyclic.wellFounded := by
  have start := Session.settled_start resolver.rules resolver.registry
  have nothing : IsPlain resolver.rules resolver.registry acyclic.wellFounded {} := by
    intro key entity found
    simp [Keyed.find?] at found
  obtain ⟨sound, idle, finished⟩ :=
    resolver.askAll_plain acyclic queries start.sound start.idle nothing
  exact (resolver.ask_plain acyclic query sound idle finished).1

/-- In a hierarchy without cycles a loaded type is answered with its plain
documentation after whatever questions. So any two histories of questions lead to
the same documentation, all methods and parameters included. -/
theorem Resolver.resolve_after_any_queries (resolver : Resolver)
    (acyclic : resolver.registry.Acyclic) (name : Text)
    (loaded : resolver.registry.has name = true) (first second : List Query) :
    ∃ entity,
      plainEntity resolver.rules resolver.registry acyclic.wellFounded (ClassName.key name) =
        some entity ∧
      (resolver.resolve name (resolver.askAll first {})).1 = .ok entity ∧
      (resolver.resolve name (resolver.askAll second {})).1 = .ok entity := by
  have start := Session.settled_start resolver.rules resolver.registry
  have nothing : IsPlain resolver.rules resolver.registry acyclic.wellFounded {} := by
    intro key entity found
    simp [Keyed.find?] at found
  obtain ⟨raw, found⟩ := Option.isSome_iff_exists.mp loaded
  have found : Keyed.find? (ClassName.key name) resolver.registry.entries = some raw := found
  obtain ⟨entity, plain⟩ : ∃ entity, plainEntity resolver.rules resolver.registry
      acyclic.wellFounded (ClassName.key name) = some entity := by
    simp [plainEntity_eq, found]
  have answered : ∀ queries, (resolver.resolve name (resolver.askAll queries {})).1 =
      .ok entity := by
    intro queries
    obtain ⟨sound, idle, finished⟩ :=
      resolver.askAll_plain acyclic queries start.sound start.idle nothing
    have answer : (resolver.resolving name (resolver.askAll queries {})).1 = some entity :=
      (resolver.ask_plain acyclic (.resolve name) sound idle finished).1.trans plain
    simp only [Resolver.resolve]
    split
    · rename_i other after same
      rw [same] at answer
      simpa using answer
    · rename_i after same
      rw [same] at answer
      simp at answer
  exact ⟨entity, plain, answered first, answered second⟩

/-- A type whose method takes the words of its parent's method, in both orders of
resolving the two types. -/
def inheritingPair : Resolver where
  registry := {
    entries := [
      ("base".toList, {
        name := "Base".toList
        methods := [{ name := "run".toList, comment := "/** Runs. */".toList }] }),
      ("child".toList, {
        name := "Child".toList
        parent := some "\\Base".toList
        methods := [{ name := "run".toList, comment := "/** \x7b@inheritDoc\x7d */".toList }] })] }

/-- The parent in the pair has a smaller rank, so the pair has no cycle. -/
theorem inheritingPair_acyclic : inheritingPair.registry.Acyclic :=
  Registry.acyclic_of_rank (fun key => if key = "child".toList then 1 else 0) (by decide)

/-- The child of the pair has the same documentation after its parent was resolved
and after its own method was looked for. -/
theorem inheritingPair_child_after_any_queries :
    inheritingPair.registry.Acyclic ∧ inheritingPair.registry.has "CHILD".toList = true ∧
    ∃ entity,
      (inheritingPair.resolve "CHILD".toList
        (inheritingPair.askAll [.resolve "Base".toList] {})).1 = .ok entity ∧
      (inheritingPair.resolve "CHILD".toList
        (inheritingPair.askAll [.find "run".toList "Child".toList] {})).1 = .ok entity := by
  refine ⟨inheritingPair_acyclic, by decide, ?_⟩
  obtain ⟨entity, -, first, second⟩ :=
    inheritingPair.resolve_after_any_queries inheritingPair_acyclic "CHILD".toList (by decide)
      [.resolve "Base".toList] [.find "run".toList "Child".toList]
  exact ⟨entity, first, second⟩

end Docblock
