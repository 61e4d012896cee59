import Docblock.Proofs.Resolution.Runs
import Mathlib.Data.List.Nodup
import Mathlib.Data.List.Perm.Subperm

/-!
# The bounds of the resolver suffice

The executable resolver stops a nested resolution that is too deep and a walk
that is too long. Neither happens: the types being documented are loaded and all
different, so there are no more of them than loaded types; the names visited by
a walk are all different, and each but the first is the parent of a loaded type.
Hence whatever the executable resolver answers, it answers by a run.
-/

namespace Docblock.Resolve

variable {rules : Rules} {registry : Registry}

/-- The parents of the loaded types as walks meet them. -/
def parentNames (registry : Registry) : List Text :=
  registry.entries.filterMap fun entry => (given entry.2.parent).map ClassName.clean

/-- A way to resolve names that makes runs wherever at most `depth` loaded types
are not yet being documented. -/
def MakesRuns (rules : Rules) (registry : Registry) (depth : Nat) (resolve : Resolving) : Prop :=
  ∀ name state, Sound rules registry state → state.isBuilding name = false →
    registry.entries.length ≤ depth + state.building.length →
    ∃ entries, Runs rules registry (.resolve name) state entries
      (resolve name state).1 (resolve name state).2

/-- The parent of a finished type is one of the known parents. -/
theorem parent_mem_parentNames {state : Resolution} (sound : Sound rules registry state)
    {key parent : Text} {entity : Documented.Entity}
    (found : Keyed.find? key state.finished = some entity) (above : entity.parent = some parent) :
    parent ∈ parentNames registry := by
  obtain ⟨raw, methods, loaded, rfl⟩ := sound.origin key entity found
  exact List.mem_filterMap.mpr ⟨(key, raw), Keyed.mem_of_find? loaded, above⟩

/-- Different names that are the start of a walk or known parents are at most one
more than the loaded types. -/
theorem visited_length_le {start : Text} {visited : List Text} (distinct : visited.Nodup)
    (known : visited ⊆ start :: parentNames registry) :
    visited.length ≤ registry.entries.length + 1 := by
  have bound : visited.length ≤ (start :: parentNames registry).length :=
    (distinct.subperm known).length_le
  have parents : (parentNames registry).length ≤ registry.entries.length :=
    List.length_filterMap_le _ _
  simp only [List.length_cons] at bound
  omega

/-- There are no more types being documented than loaded ones. -/
theorem building_length_le {building : List Text} (distinct : building.Nodup)
    (loaded : ∀ key ∈ building, Keyed.has key registry.entries = true) :
    building.length ≤ registry.entries.length := by
  have known : building ⊆ Keyed.keys registry.entries :=
    fun key member => Keyed.mem_keys_of_has (loaded key member)
  simpa [Keyed.keys] using (distinct.subperm known).length_le

/-- The executable walk makes a run when its bound exceeds what can still be
visited. The induction is on the bound; the names visited are different, so the
bound is never used up before the walk halts. -/
theorem findAlong_runs {depth : Nat} {resolve : Resolving}
    (resolves : MakesRuns rules registry depth resolve) (method start : Text) (hops : Nat)
    (visited : List Text) (name : Text) (state : Resolution)
    (sound : Sound rules registry state)
    (room : registry.entries.length ≤ depth + state.building.length)
    (distinct : visited.Nodup) (known : visited ⊆ start :: parentNames registry)
    (reached : name ∈ start :: parentNames registry)
    (enough : registry.entries.length + 2 ≤ hops + visited.length) :
    ∃ entries, Runs rules registry (.walk method visited name) state entries
      (findAlong resolve method hops visited name state).1
      (findAlong resolve method hops visited name state).2 := by
  induction hops generalizing visited name state with
  | zero =>
    have bound := visited_length_le distinct known
    omega
  | succ hops inductionHypothesis =>
    by_cases halts : Halts visited name state
    · have stops : findAlong resolve method (hops + 1) visited name state = (none, state) :=
        if_pos halts
      rw [stops]
      exact ⟨[], .halted halts⟩
    · have goes : findAlong resolve method (hops + 1) visited name state = _ := if_neg halts
      have admissible := admissible_of_not_halts halts
      obtain ⟨entries, run⟩ := resolves name state sound admissible room
      rw [goes]
      rcases answer : resolve name state with ⟨_ | entity, after⟩
      · rw [answer] at run
        exact ⟨entries, .stranded halts run⟩
      rw [answer] at run
      have kept := run.kept_all sound admissible
      cases has : entity.methods.find? (·.name == method) with
      | some found => exact ⟨entries, by simpa [has] using Runs.met halts run has⟩
      | none =>
        cases above : entity.parent with
        | none => exact ⟨entries, by simpa [has, above] using Runs.ended halts run has above⟩
        | some parent =>
          have newName : name ∉ visited := fun member =>
            halts (.inr (.inl (List.contains_iff_mem.mpr member)))
          have further := parent_mem_parentNames kept.sound run.find?_of_resolved above
          obtain ⟨others, climb⟩ := inductionHypothesis (name :: visited) parent after kept.sound
            (by rw [kept.extension.building]; exact room)
            (List.nodup_cons.mpr ⟨newName, distinct⟩)
            (List.cons_subset.mpr ⟨reached, known⟩) (List.mem_cons_of_mem start further)
            (by simp only [List.length_cons]; omega)
          exact ⟨entries ++ others,
            by simpa [has, above] using Runs.climbed halts run has above climb⟩

/-- The executable search through several types makes a run. -/
theorem findAmong_runs {depth : Nat} {resolve : Resolving}
    (resolves : MakesRuns rules registry depth resolve) (method : Text) (names : List Text)
    (state : Resolution) (sound : Sound rules registry state)
    (room : registry.entries.length ≤ depth + state.building.length) :
    ∃ entries, Runs rules registry (.search method names) state entries
      (findAmong resolve (hopBound registry) method names state).1
      (findAmong resolve (hopBound registry) method names state).2 := by
  induction names generalizing state with
  | nil => exact ⟨[], .exhausted⟩
  | cons name rest inductionHypothesis =>
    obtain ⟨entries, run⟩ := findAlong_runs resolves method name (hopBound registry) [] name state
      sound room List.nodup_nil (List.nil_subset _) List.mem_cons_self
      (by simp [hopBound])
    simp only [findAmong]
    rcases answer : findAlong resolve method (hopBound registry) [] name state with
      ⟨_ | found, after⟩
    · rw [answer] at run
      have kept := run.kept_all sound trivial
      obtain ⟨others, further⟩ := inductionHypothesis after kept.sound
        (by rw [kept.extension.building]; exact room)
      exact ⟨entries ++ others, .next run further⟩
    · rw [answer] at run
      exact ⟨entries, .first run⟩

/-- The executable search for inherited words makes a run. -/
theorem inheritedFor_runs {depth : Nat} {resolve : Resolving}
    (resolves : MakesRuns rules registry depth resolve) (raw : Source.Declaration)
    (member : Source.Method) (tags : Comment.Tags) (state : Resolution)
    (sound : Sound rules registry state)
    (room : registry.entries.length ≤ depth + state.building.length) :
    ∃ entries, Runs rules registry (.inherit raw member tags) state entries
      (inheritedFor resolve (hopBound registry) raw member tags state).1
      (inheritedFor resolve (hopBound registry) raw member tags state).2 := by
  simp only [inheritedFor]
  split
  · rename_i asks
    obtain ⟨entries, run⟩ :=
      findAmong_runs resolves member.name (ancestors raw) state sound room
    rcases answer : findAmong resolve (hopBound registry) member.name (ancestors raw) state with
      ⟨_ | found, after⟩
    · rw [answer] at run
      exact ⟨entries, .orphaned asks run⟩
    · rw [answer] at run
      exact ⟨entries, .inherited asks run⟩
  · rename_i own
    exact ⟨[], .unasked (by simpa using own)⟩

/-- Documenting methods in the executable resolver makes a run. -/
theorem documentMethods_runs {depth : Nat} {resolve : Resolving}
    (resolves : MakesRuns rules registry depth resolve) (raw : Source.Declaration)
    (members : List Source.Method) (state : Resolution) (sound : Sound rules registry state)
    (room : registry.entries.length ≤ depth + state.building.length) :
    ∃ entries, Runs rules registry (.document raw members) state entries
      (documentMethods rules resolve (hopBound registry) raw members state).1
      (documentMethods rules resolve (hopBound registry) raw members state).2 := by
  induction members generalizing state with
  | nil => exact ⟨[], .complete⟩
  | cons member rest inductionHypothesis =>
    cases keeps : keptTags? rules raw member with
    | none =>
      obtain ⟨entries, further⟩ := inductionHypothesis state sound room
      exact ⟨entries, by simpa [documentMethods, keeps] using Runs.dropped keeps further⟩
    | some tags =>
      obtain ⟨entries, run⟩ := inheritedFor_runs resolves raw member tags state sound room
      have kept := run.kept_all sound trivial
      obtain ⟨others, further⟩ := inductionHypothesis _ kept.sound
        (by rw [kept.extension.building]; exact room)
      exact ⟨entries ++ others, by simpa [documentMethods, keeps] using Runs.kept keeps run further⟩

/-- The bounded resolver makes runs at every depth. At depth zero all loaded types
are being documented, so a name that is not finished is not loaded. -/
theorem resolveWithin_runs (rules : Rules) (registry : Registry) (depth : Nat) :
    MakesRuns rules registry depth (resolveWithin rules registry depth) := by
  induction depth with
  | zero =>
    intro name state sound outside room
    simp only [resolveWithin]
    cases found : Keyed.find? (ClassName.key name) state.finished with
    | some entity => exact ⟨[], .known found⟩
    | none =>
      cases loaded : registry.find? name with
      | none => exact ⟨[], .unknown found loaded⟩
      | some raw =>
        have present : Keyed.has (ClassName.key name) registry.entries = true :=
          Option.isSome_of_eq_some loaded
        have newKey : ClassName.key name ∉ state.building := by
          simpa [Resolution.isBuilding] using outside
        have entered := sound.enter found present newKey
        have bound := building_length_le entered.distinct entered.loaded
        simp only [Resolution.enter, List.length_cons] at bound
        omega
  | succ depth inductionHypothesis =>
    intro name state sound outside room
    cases found : Keyed.find? (ClassName.key name) state.finished with
    | some entity => exact ⟨[], by simpa [resolveWithin, found] using Runs.known found⟩
    | none =>
      cases loaded : registry.find? name with
      | none => exact ⟨[], by simpa [resolveWithin, found, loaded] using Runs.unknown found loaded⟩
      | some raw =>
        have present : Keyed.has (ClassName.key name) registry.entries = true :=
          Option.isSome_of_eq_some loaded
        have newKey : ClassName.key name ∉ state.building := by
          simpa [Resolution.isBuilding] using outside
        obtain ⟨entries, run⟩ := documentMethods_runs inductionHypothesis raw raw.methods
          (state.enter (ClassName.key name)) (sound.enter found present newKey)
          (by simp only [Resolution.enter, List.length_cons]; omega)
        exact ⟨_, by simpa [resolveWithin, found, loaded] using Runs.documented found loaded run⟩

/-- Between calls a resolver answers every name by a run. -/
theorem resolving_runs (resolver : Resolver) {state : Resolution}
    (sound : Sound resolver.rules resolver.registry state) (idle : state.building = [])
    (name : Text) :
    ∃ entries, Runs resolver.rules resolver.registry (.resolve name) state entries
      (resolver.resolving name state).1 (resolver.resolving name state).2 :=
  resolveWithin_runs resolver.rules resolver.registry _ name state sound
    (by simp [Resolution.isBuilding, idle]) (by simp [idle])

/-- Between calls a resolver answers every search for a method by a run. -/
theorem find_runs (resolver : Resolver) {state : Resolution}
    (sound : Sound resolver.rules resolver.registry state) (idle : state.building = [])
    (method name : Text) :
    ∃ entries, Runs resolver.rules resolver.registry (.walk method [] name) state entries
      (resolver.find method name state).1 (resolver.find method name state).2 :=
  findAlong_runs (resolveWithin_runs resolver.rules resolver.registry _) method name _ [] name state
    sound (by simp [idle]) List.nodup_nil (List.nil_subset _) List.mem_cons_self
    (by simp [hopBound])

/-- Between calls a resolver answers every search in several types by a run. -/
theorem findIn_runs (resolver : Resolver) {state : Resolution}
    (sound : Sound resolver.rules resolver.registry state) (idle : state.building = [])
    (method : Text) (names : List Text) :
    ∃ entries, Runs resolver.rules resolver.registry (.search method names) state entries
      (resolver.findIn method names state).1 (resolver.findIn method names state).2 :=
  findAmong_runs (resolveWithin_runs resolver.rules resolver.registry _) method names state sound
    (by simp [idle])

end Docblock.Resolve
