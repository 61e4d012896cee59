import Docblock.Resolve.Resolver

/-!
# Runs of the resolver

The executable resolver bounds its recursion by two numbers, the depth of nested
resolutions and the length of a walk from parent to parent. Here the same rules
are stated without any bound. A run is a finite derivation from these rules, so
a task has a run exactly when the unbounded search for its answer ends.

A run lists the entries into types in the order in which they happen, each with
the types that are being documented at that moment. No rule forbids entering a
type a second time: that this never happens is proved, not assumed. What the
bounds of the executable resolver suffice for is shown in a module of its own.
-/

namespace Docblock.Resolve

/-- What is asked of a resolver: to resolve a name, to look for a method from
parent to parent or in several types, to find the words a method inherits, and
to document the methods of a type. -/
inductive Task
  | resolve (name : Text)
  | walk (method : Text) (visited : List Text) (name : Text)
  | search (method : Text) (names : List Text)
  | inherit (raw : Source.Declaration) (member : Source.Method) (tags : Comment.Tags)
  | document (raw : Source.Declaration) (members : List Source.Method)

/-- What a task is answered with. -/
abbrev Task.Answer : Task → Type
  | .resolve _ => Option Documented.Entity
  | .walk .. | .search .. | .inherit .. => Option Documented.Method
  | .document .. => List Documented.Method

/-- The start of documenting a type: its key, and the keys of the types that are
being documented already. -/
structure Entry where
  key : Text
  building : List Text

/-- A walk goes no further at a missing name, at a name it has visited and at a
type that is being documented. -/
def Halts (visited : List Text) (name : Text) (state : Resolution) : Prop :=
  name = [] ∨ visited.contains name = true ∨ state.isBuilding name = true

/-- The finite runs of a resolver. Each task has one group of rules, which say in
order how it starts, which tasks it leads to and what it leaves behind. A type
that is entered is marked until its methods are documented. -/
inductive Runs (rules : Rules) (registry : Registry) :
    (task : Task) → Resolution → List Entry → task.Answer → Resolution → Prop
  | known {name : Text} {state : Resolution} {entity : Documented.Entity}
      (found : Keyed.find? (ClassName.key name) state.finished = some entity) :
      Runs rules registry (.resolve name) state [] (some entity) state
  | unknown {name : Text} {state : Resolution}
      (fresh : Keyed.find? (ClassName.key name) state.finished = none)
      (absent : registry.find? name = none) :
      Runs rules registry (.resolve name) state [] none state
  | documented {name : Text} {state after : Resolution} {raw : Source.Declaration}
      {entries : List Entry} {methods : List Documented.Method}
      (fresh : Keyed.find? (ClassName.key name) state.finished = none)
      (loaded : registry.find? name = some raw)
      (run : Runs rules registry (.document raw raw.methods)
        (state.enter (ClassName.key name)) entries methods after) :
      Runs rules registry (.resolve name) state (⟨ClassName.key name, state.building⟩ :: entries)
        (some (documentType rules raw methods))
        (after.finish (ClassName.key name) (documentType rules raw methods))
  | halted {method name : Text} {visited : List Text} {state : Resolution}
      (halts : Halts visited name state) :
      Runs rules registry (.walk method visited name) state [] none state
  | stranded {method name : Text} {visited : List Text} {state after : Resolution}
      {entries : List Entry} (goes : ¬ Halts visited name state)
      (run : Runs rules registry (.resolve name) state entries none after) :
      Runs rules registry (.walk method visited name) state entries none
        (after.note (.lookupStopped method name))
  | met {method name : Text} {visited : List Text} {state after : Resolution}
      {entries : List Entry} {entity : Documented.Entity} {found : Documented.Method}
      (goes : ¬ Halts visited name state)
      (run : Runs rules registry (.resolve name) state entries (some entity) after)
      (has : entity.methods.find? (·.name == method) = some found) :
      Runs rules registry (.walk method visited name) state entries (some found) after
  | ended {method name : Text} {visited : List Text} {state after : Resolution}
      {entries : List Entry} {entity : Documented.Entity} (goes : ¬ Halts visited name state)
      (run : Runs rules registry (.resolve name) state entries (some entity) after)
      (lacks : entity.methods.find? (·.name == method) = none) (top : entity.parent = none) :
      Runs rules registry (.walk method visited name) state entries none after
  | climbed {method name parent : Text} {visited : List Text} {state after last : Resolution}
      {entries others : List Entry} {entity : Documented.Entity}
      {answer : Option Documented.Method} (goes : ¬ Halts visited name state)
      (run : Runs rules registry (.resolve name) state entries (some entity) after)
      (lacks : entity.methods.find? (·.name == method) = none)
      (above : entity.parent = some parent)
      (further : Runs rules registry (.walk method (name :: visited) parent) after others
        answer last) :
      Runs rules registry (.walk method visited name) state (entries ++ others) answer last
  | exhausted {method : Text} {state : Resolution} :
      Runs rules registry (.search method []) state [] none state
  | first {method name : Text} {rest : List Text} {state after : Resolution}
      {entries : List Entry} {found : Documented.Method}
      (run : Runs rules registry (.walk method [] name) state entries (some found) after) :
      Runs rules registry (.search method (name :: rest)) state entries (some found) after
  | next {method name : Text} {rest : List Text} {state after last : Resolution}
      {entries others : List Entry} {answer : Option Documented.Method}
      (run : Runs rules registry (.walk method [] name) state entries none after)
      (further : Runs rules registry (.search method rest) after others answer last) :
      Runs rules registry (.search method (name :: rest)) state (entries ++ others) answer last
  | unasked {raw : Source.Declaration} {member : Source.Method} {tags : Comment.Tags}
      {state : Resolution} (own : Comment.inheritsWords tags = false) :
      Runs rules registry (.inherit raw member tags) state [] none state
  | inherited {raw : Source.Declaration} {member : Source.Method} {tags : Comment.Tags}
      {state after : Resolution} {entries : List Entry} {found : Documented.Method}
      (asks : Comment.inheritsWords tags = true)
      (run : Runs rules registry (.search member.name (ancestors raw)) state entries
        (some found) after) :
      Runs rules registry (.inherit raw member tags) state entries (some found) after
  | orphaned {raw : Source.Declaration} {member : Source.Method} {tags : Comment.Tags}
      {state after : Resolution} {entries : List Entry}
      (asks : Comment.inheritsWords tags = true)
      (run : Runs rules registry (.search member.name (ancestors raw)) state entries none after) :
      Runs rules registry (.inherit raw member tags) state entries none
        (after.note (.nothingInherited raw.name member.name))
  | complete {raw : Source.Declaration} {state : Resolution} :
      Runs rules registry (.document raw []) state [] [] state
  | dropped {raw : Source.Declaration} {member : Source.Method} {rest : List Source.Method}
      {state after : Resolution} {entries : List Entry} {methods : List Documented.Method}
      (drops : keptTags? rules raw member = none)
      (further : Runs rules registry (.document raw rest) state entries methods after) :
      Runs rules registry (.document raw (member :: rest)) state entries methods after
  | kept {raw : Source.Declaration} {member : Source.Method} {rest : List Source.Method}
      {tags : Comment.Tags} {state after last : Resolution} {entries others : List Entry}
      {inherited : Option Documented.Method} {methods : List Documented.Method}
      (keeps : keptTags? rules raw member = some tags)
      (run : Runs rules registry (.inherit raw member tags) state entries inherited after)
      (further : Runs rules registry (.document raw rest) after others methods last) :
      Runs rules registry (.document raw (member :: rest)) state (entries ++ others)
        (documentMethod rules raw member tags inherited :: methods) last

variable {rules : Rules} {registry : Registry}

/-- A task has at most one run from a state. The rules of a task exclude each
other, and what they lead to is fixed by the runs they start with. -/
theorem Runs.deterministic {task : Task} {state after last : Resolution}
    {entries others : List Entry} {answer other : task.Answer}
    (first : Runs rules registry task state entries answer after)
    (second : Runs rules registry task state others other last) :
    others = entries ∧ other = answer ∧ last = after := by
  induction first generalizing others last <;> cases second <;> grind

/-- What holds of every state that a resolver comes to: finished types are those
of the registry as documented by the rules, and the types being documented are
loaded, unfinished and all different. -/
structure Sound (rules : Rules) (registry : Registry) (state : Resolution) : Prop where
  origin : ∀ key entity, Keyed.find? key state.finished = some entity →
    ∃ raw methods, Keyed.find? key registry.entries = some raw ∧
      entity = documentType rules raw methods
  apart : ∀ key ∈ state.building, Keyed.find? key state.finished = none
  loaded : ∀ key ∈ state.building, Keyed.has key registry.entries = true
  distinct : state.building.Nodup

/-- A later state with the same types being documented. Finished types stay in
their places; new ones come behind them. -/
structure Extends (state after : Resolution) : Prop where
  building : after.building = state.building
  finished : state.finished <+: after.finished

/-- Only a type that is not being documented may be resolved. -/
def Task.Admissible (state : Resolution) : Task → Prop
  | .resolve name => state.isBuilding name = false
  | _ => True

/-- Every state extends itself. -/
theorem Extends.refl (state : Resolution) : Extends state state :=
  ⟨rfl, List.prefix_refl _⟩

/-- Extensions follow on each other. -/
theorem Extends.trans {state after last : Resolution} (first : Extends state after)
    (second : Extends after last) : Extends state last :=
  ⟨second.building.trans first.building, first.finished.trans second.finished⟩

/-- A finished type keeps its documentation in every extension. -/
theorem Extends.find? {state after : Resolution} (extension : Extends state after) {key : Text}
    {entity : Documented.Entity} (found : Keyed.find? key state.finished = some entity) :
    Keyed.find? key after.finished = some entity := by
  obtain ⟨more, same⟩ := extension.finished
  exact same ▸ Keyed.find?_append_of_found found more

/-- A notice changes nothing that soundness speaks about. -/
theorem Sound.note {state : Resolution} (sound : Sound rules registry state) (notice : Notice) :
    Sound rules registry (state.note notice) :=
  ⟨sound.origin, sound.apart, sound.loaded, sound.distinct⟩

/-- Entering a loaded type that is neither finished nor being documented keeps a
state sound. -/
theorem Sound.enter {state : Resolution} (sound : Sound rules registry state) {key : Text}
    (fresh : Keyed.find? key state.finished = none)
    (loaded : Keyed.has key registry.entries = true) (outside : key ∉ state.building) :
    Sound rules registry (state.enter key) where
  origin := sound.origin
  apart := by
    intro other member
    rcases List.mem_cons.mp member with rfl | member
    · exact fresh
    · exact sound.apart other member
  loaded := by
    intro other member
    rcases List.mem_cons.mp member with rfl | member
    · exact loaded
    · exact sound.loaded other member
  distinct := List.nodup_cons.mpr ⟨outside, sound.distinct⟩

/-- Finishing the type that was entered last puts it behind all finished types
and takes its mark away. The state before entering is extended by it. -/
theorem Sound.finish {state after : Resolution} {key : Text} {raw : Source.Declaration}
    (sound : Sound rules registry after) (extension : Extends (state.enter key) after)
    (loaded : Keyed.find? key registry.entries = some raw) (methods : List Documented.Method) :
    Sound rules registry (after.finish key (documentType rules raw methods)) ∧
      Extends state (after.finish key (documentType rules raw methods)) := by
  have marked : after.building = key :: state.building := extension.building
  have fresh : Keyed.find? key after.finished = none := sound.apart key (by simp [marked])
  have outside : key ∉ state.building := (List.nodup_cons.mp (marked ▸ sound.distinct)).1
  have unmarked : (after.finish key (documentType rules raw methods)).building =
      state.building := by
    simp only [Resolution.finish, marked, List.filter_cons]
    simp only [ne_eq, not_true_eq_false, decide_false]
    exact List.filter_eq_self.mpr fun other member => by
      simpa using fun same : other = key => outside (same ▸ member)
  have stored : (after.finish key (documentType rules raw methods)).finished =
      after.finished ++ [(key, documentType rules raw methods)] :=
    Keyed.put_of_absent fresh _
  have inside : ∀ other ∈ state.building, other ∈ after.building := by
    intro other member
    simp [marked, member]
  refine ⟨⟨?_, ?_, ?_, ?_⟩, ⟨unmarked, ?_⟩⟩
  · intro other entity found
    rw [stored] at found
    cases earlier : Keyed.find? other after.finished with
    | some known =>
      rw [Keyed.find?_append_of_found earlier] at found
      exact sound.origin other entity (earlier.trans found)
    | none =>
      rw [Keyed.find?_append_of_absent earlier] at found
      by_cases same : key = other
      · subst same
        exact ⟨raw, methods, loaded, by simpa [Keyed.find?] using found.symm⟩
      · simp [Keyed.find?, same] at found
  · intro other member
    rw [unmarked] at member
    have different : key ≠ other := fun same => outside (same ▸ member)
    rw [stored, Keyed.find?_append_of_absent (sound.apart other (inside other member))]
    simp [Keyed.find?, different]
  · intro other member
    rw [unmarked] at member
    exact sound.loaded other (inside other member)
  · rw [unmarked]
    exact (List.nodup_cons.mp (marked ▸ sound.distinct)).2
  · rw [stored]
    exact extension.finished.trans (List.prefix_append _ _)

/-- What a run keeps: the state stays sound, it is extended, and no entry is one
into a type that is being documented. -/
structure Kept (rules : Rules) (registry : Registry) (state : Resolution)
    (entries : List Entry) (after : Resolution) : Prop where
  sound : Sound rules registry after
  extension : Extends state after
  once : ∀ entry ∈ entries, entry.key ∉ entry.building

/-- A task that leaves the state alone keeps it. -/
theorem Kept.refl {state : Resolution} (sound : Sound rules registry state) :
    Kept rules registry state [] state :=
  ⟨sound, .refl state, by simp⟩

/-- A notice after a run keeps what the run keeps. -/
theorem Kept.note {state after : Resolution} {entries : List Entry}
    (kept : Kept rules registry state entries after) (notice : Notice) :
    Kept rules registry state entries (after.note notice) :=
  ⟨kept.sound.note notice, ⟨kept.extension.building, kept.extension.finished⟩, kept.once⟩

/-- Two runs after each other keep what both of them keep. -/
theorem Kept.trans {state after last : Resolution} {entries others : List Entry}
    (first : Kept rules registry state entries after)
    (second : Kept rules registry after others last) :
    Kept rules registry state (entries ++ others) last where
  sound := second.sound
  extension := first.extension.trans second.extension
  once := by
    intro entry member
    rcases List.mem_append.mp member with member | member
    · exact first.once entry member
    · exact second.once entry member

/-- A name at which a walk goes on may be resolved. -/
theorem admissible_of_not_halts {visited : List Text} {name : Text} {state : Resolution}
    (goes : ¬ Halts visited name state) : (Task.resolve name).Admissible state := by
  simp only [Halts, not_or, Bool.not_eq_true] at goes
  exact goes.2.2

/-- Every run from a sound state keeps it. The induction follows the rules; the
only entry is made by a resolution, whose name is not being documented because a
walk has asked for that before. -/
theorem Runs.kept_all {task : Task} {state after : Resolution} {entries : List Entry}
    {answer : task.Answer} (run : Runs rules registry task state entries answer after)
    (sound : Sound rules registry state) (admissible : task.Admissible state) :
    Kept rules registry state entries after := by
  induction run with
  | known | unknown | halted | exhausted | unasked | complete => exact .refl sound
  | @documented name state after raw entries methods fresh loaded run kept =>
    have outside : ClassName.key name ∉ state.building := by
      simpa [Task.Admissible, Resolution.isBuilding] using admissible
    have present : Keyed.has (ClassName.key name) registry.entries = true :=
      Option.isSome_of_eq_some loaded
    have inner := kept (sound.enter fresh present outside) trivial
    obtain ⟨finished, extension⟩ := inner.sound.finish inner.extension loaded methods
    refine ⟨finished, extension, ?_⟩
    intro entry member
    rcases List.mem_cons.mp member with rfl | member
    · exact outside
    · exact inner.once entry member
  | stranded goes run kept => exact (kept sound (admissible_of_not_halts goes)).note _
  | met goes run has kept => exact kept sound (admissible_of_not_halts goes)
  | ended goes run lacks top kept => exact kept sound (admissible_of_not_halts goes)
  | climbed goes run lacks above further kept keptFurther =>
    have reached := kept sound (admissible_of_not_halts goes)
    exact reached.trans (keptFurther reached.sound trivial)
  | first run kept => exact kept sound trivial
  | next run further kept keptFurther =>
    have reached := kept sound trivial
    exact reached.trans (keptFurther reached.sound trivial)
  | inherited asks run kept => exact kept sound trivial
  | orphaned asks run kept => exact (kept sound trivial).note _
  | dropped drops further kept => exact kept sound trivial
  | kept keeps run further kept keptFurther =>
    have reached := kept sound trivial
    exact reached.trans (keptFurther reached.sound trivial)

/-- A type that has been resolved is finished. -/
theorem Runs.find?_of_resolved {name : Text} {state after : Resolution} {entries : List Entry}
    {entity : Documented.Entity}
    (run : Runs rules registry (.resolve name) state entries (some entity) after) :
    Keyed.find? (ClassName.key name) after.finished = some entity := by
  cases run with
  | known found => exact found
  | documented => exact Keyed.find?_put_same _ _ _

end Docblock.Resolve
