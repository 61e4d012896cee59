import Docblock.Proofs.Registry.Additions
import Docblock.Proofs.Resolution.Bounds

/-!
# Sessions of a resolver

A session is a registry to which declarations are added while a resolver is
asked for types and methods. Whatever is asked in whatever order, and however
the loaded types refer to each other, every question is answered by a finite
run, no type is entered while it is being documented, and a finished type stays
as it is.

Adding a declaration never changes which declaration a known name stands for, so
types that are finished stay the types of the registry.
-/

namespace Docblock

open Resolve

/-- What a resolver can be asked for. -/
inductive Query
  | resolve (name : Text)
  | find (method name : Text)
  | findIn (method : Text) (names : List Text)

/-- The task that a question sets. -/
def Query.task : Query → Task
  | .resolve name => .resolve name
  | .find method name => .walk method [] name
  | .findIn method names => .search method names

/-- The answer of a resolver to a question, and the resolution after it. -/
def Resolver.ask (resolver : Resolver) :
    (query : Query) → Resolution → query.task.Answer × Resolution
  | .resolve name, state => resolver.resolving name state
  | .find method name, state => resolver.find method name state
  | .findIn method names, state => resolver.findIn method names state

/-- The resolution after some questions. -/
def Resolver.askAll (resolver : Resolver) (queries : List Query) (state : Resolution) :
    Resolution :=
  queries.foldl (fun state query => (resolver.ask query state).2) state

/-- What can be done in a session: adding a declaration, asking a question, and
looking whether a type is being documented. -/
inductive Call
  | add (declaration : Source.Declaration)
  | ask (query : Query)
  | isBuilding (name : Text)

/-- A registry and what has been resolved from it. -/
structure Session where
  registry : Registry := {}
  resolution : Resolution := {}

namespace Session

/-- The session after a call. -/
def after (rules : Rules) (session : Session) : Call → Session
  | .add declaration =>
    let added := session.registry.add declaration
    { registry := added.1
      resolution :=
        { session.resolution with notices := session.resolution.notices ++ added.2 } }
  | .ask query =>
    { session with
      resolution := (Resolver.ask ⟨rules, session.registry⟩ query session.resolution).2 }
  | .isBuilding _ => session

/-- The session after some calls. -/
def afterAll (rules : Rules) (session : Session) (calls : List Call) : Session :=
  calls.foldl (after rules) session

/-- Between calls a session is sound and documents nothing. -/
structure Settled (rules : Rules) (session : Session) : Prop where
  sound : Sound rules session.registry session.resolution
  idle : session.resolution.building = []

end Session

/-- A task ends: it has a finite run to an answer and a state, it has no other run,
and no entry of the run is one into a type that is being documented. -/
def Resolve.Ends (rules : Rules) (registry : Registry) (task : Task) (state : Resolution)
    (answer : task.Answer) (after : Resolution) : Prop :=
  ∃ entries, Runs rules registry task state entries answer after ∧
    (∀ entry ∈ entries, entry.key ∉ entry.building) ∧
    ∀ others other last, Runs rules registry task state others other last →
      others = entries ∧ other = answer ∧ last = after

/-- Nothing has been resolved at the start of a session. -/
theorem Session.settled_start (rules : Rules) (registry : Registry) :
    Session.Settled rules { registry } where
  sound := by
    refine ⟨?_, ?_, ?_, List.nodup_nil⟩
    · intro key entity found
      simp [Keyed.find?] at found
    · intro key member
      simp at member
    · intro key member
      simp at member
  idle := rfl

/-- Every question to a resolver that documents nothing is answered by a run. -/
theorem Resolver.ask_runs (resolver : Resolver) (query : Query) {state : Resolution}
    (sound : Sound resolver.rules resolver.registry state) (idle : state.building = []) :
    ∃ entries, Runs resolver.rules resolver.registry query.task state entries
      (resolver.ask query state).1 (resolver.ask query state).2 := by
  cases query with
  | resolve name => exact resolving_runs resolver sound idle name
  | find method name => exact find_runs resolver sound idle method name
  | findIn method names => exact findIn_runs resolver sound idle method names

/-- A resolver that documents nothing may be asked anything. -/
theorem Query.admissible (query : Query) {state : Resolution} (idle : state.building = []) :
    query.task.Admissible state := by
  cases query with
  | resolve name => simp [Query.task, Task.Admissible, Resolution.isBuilding, idle]
  | find method name => trivial
  | findIn method names => trivial

/-- A question keeps the resolution sound and extends it. -/
theorem Resolver.ask_kept (resolver : Resolver) (query : Query) {state : Resolution}
    (sound : Sound resolver.rules resolver.registry state) (idle : state.building = []) :
    ∃ entries,
      Kept resolver.rules resolver.registry state entries (resolver.ask query state).2 := by
  obtain ⟨entries, run⟩ := resolver.ask_runs query sound idle
  exact ⟨entries, run.kept_all sound (query.admissible idle)⟩

/-- Every question to a resolver that documents nothing ends. -/
theorem Resolver.ask_ends (resolver : Resolver) (query : Query) {state : Resolution}
    (sound : Sound resolver.rules resolver.registry state) (idle : state.building = []) :
    Ends resolver.rules resolver.registry query.task state
      (resolver.ask query state).1 (resolver.ask query state).2 := by
  obtain ⟨entries, run⟩ := resolver.ask_runs query sound idle
  have kept := run.kept_all sound (query.admissible idle)
  exact ⟨entries, run, kept.once, fun _ _ _ second => run.deterministic second⟩

/-- A name that is taken keeps its declaration when another one is added. -/
theorem Registry.find?_add {registry : Registry} {key : Text} {raw : Source.Declaration}
    (found : Keyed.find? key registry.entries = some raw) (declaration : Source.Declaration) :
    Keyed.find? key (registry.add declaration).1.entries = some raw := by
  rw [find?_entries_add, found, Option.some_or]

namespace Session

variable {rules : Rules}

/-- Every call leaves a session settled and extends what has been finished. -/
theorem after_settled {session : Session} (settled : Settled rules session) (call : Call) :
    Settled rules (session.after rules call) ∧
      session.resolution.finished <+: (session.after rules call).resolution.finished := by
  cases call with
  | add declaration =>
    refine ⟨⟨⟨?_, ?_, ?_, ?_⟩, settled.idle⟩, List.prefix_refl _⟩
    · intro key entity found
      obtain ⟨raw, methods, loaded, same⟩ := settled.sound.origin key entity found
      exact ⟨raw, methods, Registry.find?_add loaded declaration, same⟩
    · exact settled.sound.apart
    · intro key member
      simp [after, settled.idle] at member
    · exact settled.sound.distinct
  | ask query =>
    obtain ⟨entries, kept⟩ :=
      Resolver.ask_kept ⟨rules, session.registry⟩ query settled.sound settled.idle
    exact ⟨⟨kept.sound, kept.extension.building.trans settled.idle⟩, kept.extension.finished⟩
  | isBuilding name => exact ⟨settled, List.prefix_refl _⟩

/-- All calls together leave a session settled and extend what has been finished. -/
theorem afterAll_settled {session : Session} (settled : Settled rules session)
    (calls : List Call) :
    Settled rules (session.afterAll rules calls) ∧
      session.resolution.finished <+: (session.afterAll rules calls).resolution.finished := by
  induction calls generalizing session with
  | nil => exact ⟨settled, List.prefix_refl _⟩
  | cons call rest inductionHypothesis =>
    obtain ⟨next, extended⟩ := after_settled settled call
    obtain ⟨last, further⟩ := inductionHypothesis next
    exact ⟨last, extended.trans further⟩

/-- A finished type is answered with as it is, and nothing else happens. -/
theorem resolve_finished (resolver : Resolver) {name : Text} {state : Resolution}
    {entity : Documented.Entity}
    (found : Keyed.find? (ClassName.key name) state.finished = some entity) :
    resolver.resolve name state = (.ok entity, state) := by
  have answered : resolver.resolving name state = (some entity, state) := by
    simp only [Resolver.resolving]
    cases resolver.registry.entries.length <;> simp [resolveWithin, found]
  simp [Resolver.resolve, answered]

/-- A name that has been resolved is finished after that. -/
theorem find?_of_resolve_ok {session : Session} (settled : Settled rules session) {name : Text}
    {entity : Documented.Entity}
    (resolved : (Resolver.resolve ⟨rules, session.registry⟩ name session.resolution).1 =
      .ok entity) :
    Keyed.find? (ClassName.key name)
      (session.after rules (.ask (.resolve name))).resolution.finished = some entity := by
  obtain ⟨entries, run⟩ :=
    resolving_runs ⟨rules, session.registry⟩ settled.sound settled.idle name
  rw [Resolver.resolve_eq_ok.mp resolved] at run
  exact run.find?_of_resolved

/-- Whatever is called in a session, in whatever order and on whatever registry:

* nothing is being documented between calls;
* every further question ends, and enters no type that is being documented;
* a finished type is loaded under its key and has the name of its declaration;
* finished types stay in their places whatever is called later;
* a name that was resolved once is answered with the same documentation ever
  after, under every spelling and without documenting anything. -/
theorem afterAll_invariant (rules : Rules) (registry : Registry) (calls : List Call) :
    let session := Session.afterAll rules { registry } calls
    session.resolution.building = [] ∧
    (∀ query : Query, Ends rules session.registry query.task session.resolution
      (Resolver.ask ⟨rules, session.registry⟩ query session.resolution).1
      (Resolver.ask ⟨rules, session.registry⟩ query session.resolution).2) ∧
    (∀ key entity, Keyed.find? key session.resolution.finished = some entity →
      ∃ raw, Keyed.find? key session.registry.entries = some raw ∧ entity.name = raw.name) ∧
    (∀ later, session.resolution.finished <+:
      (session.afterAll rules later).resolution.finished) ∧
    ∀ name other entity later,
      (Resolver.resolve ⟨rules, session.registry⟩ name session.resolution).1 = .ok entity →
      ClassName.key other = ClassName.key name →
      let last := (session.after rules (.ask (.resolve name))).afterAll rules later
      Resolver.resolve ⟨rules, last.registry⟩ other last.resolution =
        (.ok entity, last.resolution) := by
  intro session
  have settled : Settled rules session :=
    (afterAll_settled (settled_start rules registry) calls).1
  refine ⟨settled.idle, ?_, ?_, ?_, ?_⟩
  · intro query
    exact Resolver.ask_ends ⟨rules, session.registry⟩ query settled.sound settled.idle
  · intro key entity found
    obtain ⟨raw, methods, loaded, rfl⟩ := settled.sound.origin key entity found
    exact ⟨raw, loaded, rfl⟩
  · intro later
    exact (afterAll_settled settled later).2
  · intro name other entity later resolved same last
    have next := (after_settled settled (.ask (.resolve name))).1
    obtain ⟨more, extended⟩ := (afterAll_settled next later).2
    have kept : Keyed.find? (ClassName.key other) last.resolution.finished = some entity := by
      rw [same]
      exact extended ▸ Keyed.find?_append_of_found (find?_of_resolve_ok settled resolved) more
    exact resolve_finished _ kept

end Session
end Docblock
