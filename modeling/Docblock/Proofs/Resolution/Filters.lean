import Docblock.Proofs.Resolution.Lineage
import Mathlib.Data.List.Find

/-!
# What a filter changes

A filter decides which methods are documented. It also hides methods from the search
for inherited words, so it can change the words of a method that it keeps. Here it is
said when it does not: two filters give a method the same documentation when it has
the same source under both, that source has the same source in turn, and so on up to
a method that inherits nothing. What is not inherited is the same under all filters.

A filter by name hides either all methods of a name or none, so under it a method has
the source that it has anyway. It only selects.
-/

namespace Docblock

open Resolve

namespace Resolve

/-- The same rules with another filter. -/
def Rules.filtered (rules : Rules) (filter : MemberFilter) : Rules := { rules with filter }

variable {rules others : Rules} {registry : Registry}

/-- A filter does not touch the tags of a comment. -/
@[simp] theorem Declared.tags_filtered (filter : MemberFilter) (declared : Declared) :
    declared.tags (rules.filtered filter) = declared.tags rules := rfl

/-- A filter does not touch how a parameter is documented, given the source of the method. -/
@[simp] theorem documentParameter_filtered (filter : MemberFilter) :
    documentParameter (rules.filtered filter) = documentParameter rules := rfl

/-- A filter does not touch the return type of a method, given its source. -/
@[simp] theorem documentReturnType_filtered (filter : MemberFilter) :
    documentReturnType (rules.filtered filter) = documentReturnType rules := rfl

/-- A filter does not touch how a method is documented, given its source. -/
@[simp] theorem documentMethod_filtered (filter : MemberFilter) (raw : Source.Declaration)
    (member : Source.Method) (tags : Comment.Tags) (inherited : Option Documented.Method) :
    documentMethod (rules.filtered filter) raw member tags inherited =
      documentMethod rules raw member tags inherited := by
  simp only [documentMethod, documentParameters, documentParameter_filtered,
    documentReturnType_filtered]
  rfl

/-- Two sets of rules give a method the same source, which has the same source in turn,
and so on up to a method without a source. -/
inductive SameSources (rules others : Rules) (registry : Registry)
    (grounded : WellFounded (flip registry.Needs)) : Declared → Prop
  | unsourced {declared : Declared}
      (first : declared.source? rules registry grounded = none)
      (second : declared.source? others registry grounded = none) :
      SameSources rules others registry grounded declared
  | sourced {declared source : Declared}
      (first : declared.source? rules registry grounded = some source)
      (second : declared.source? others registry grounded = some source)
      (onward : SameSources rules others registry grounded source) :
      SameSources rules others registry grounded declared

/-- A method is documented alike under two filters that give it the same sources. The
induction goes from source to source. -/
theorem SameSources.plain_eq {first second : MemberFilter}
    {grounded : WellFounded (flip registry.Needs)} {declared : Declared}
    (same : SameSources (rules.filtered first) (rules.filtered second) registry grounded
      declared) :
    declared.plain (rules.filtered first) registry grounded =
      declared.plain (rules.filtered second) registry grounded := by
  induction same with
  | unsourced first second =>
    rw [Declared.plain_eq, Declared.plain_eq, first, second, Option.map_none, Option.map_none,
      documentMethod_filtered, documentMethod_filtered, Declared.tags_filtered,
      Declared.tags_filtered]
  | sourced first second _ inductionHypothesis =>
    rw [Declared.plain_eq, Declared.plain_eq, first, second, Option.map_some, Option.map_some,
      inductionHypothesis, documentMethod_filtered, documentMethod_filtered,
      Declared.tags_filtered, Declared.tags_filtered]

/-- A method that does not ask for inherited words has the same sources under all
filters, namely none. -/
theorem sameSources_of_unasked (first second : MemberFilter)
    (grounded : WellFounded (flip registry.Needs)) {declared : Declared}
    (own : Comment.inheritsWords (declared.tags rules) = false) :
    SameSources (rules.filtered first) (rules.filtered second) registry grounded declared := by
  have unsourced (filter : MemberFilter) :
      declared.source? (rules.filtered filter) registry grounded = none := by
    rw [Declared.source?, if_neg]
    exact Bool.eq_false_iff.mp own
  exact .unsourced (unsourced first) (unsourced second)

/-- What of the documentation of a method is never inherited. -/
def frame (method : Documented.Method) : Documented.Method :=
  { method with
    prose := { isInternal := method.prose.isInternal }
    parameters := method.parameters.map fun parameter =>
      { name := parameter.name, default := parameter.default }
    returnType := none
    returnsBuiltIn := false }

/-- Two documentations of a method agree on what is never inherited and on all that the
comment of the method says itself. -/
structure AgreesOnOwn (tags : Comment.Tags) (one other : Documented.Method) : Prop where
  frame : frame one = frame other
  description : (Comment.prose tags).description ≠ [] →
    one.prose.description = other.prose.description
  exampleCode : (Comment.prose tags).exampleCode ≠ [] →
    one.prose.exampleCode = other.prose.exampleCode
  references : (Comment.prose tags).references ≠ [] →
    one.prose.references = other.prose.references
  deprecation : (Comment.prose tags).deprecation ≠ none →
    one.prose.deprecation = other.prose.deprecation
  parameters : ∀ name, Keyed.has name (Comment.parametersOf tags) = true →
    one.parameters.filter (·.name == name) = other.parameters.filter (·.name == name)
  returnType : Comment.returnTypeOf tags ≠ [] →
    one.returnType = other.returnType ∧ one.returnsBuiltIn = other.returnsBuiltIn

/-- A parameter keeps its name and its default value. -/
theorem documentParameter_frame (raw : Source.Declaration)
    (documented : Keyed Comment.ParameterTag) (inherited : Option Documented.Method)
    (parameter : Source.Parameter) :
    (documentParameter rules raw documented inherited parameter).name = parameter.name ∧
      (documentParameter rules raw documented inherited parameter).default =
        parameter.default := by
  simp only [documentParameter]
  split
  · exact ⟨rfl, rfl⟩
  · split <;> exact ⟨rfl, rfl⟩

/-- A parameter that the comment documents inherits nothing. -/
theorem documentParameter_of_has (raw : Source.Declaration)
    {documented : Keyed Comment.ParameterTag} (one other : Option Documented.Method)
    {parameter : Source.Parameter} (has : Keyed.has parameter.name documented = true) :
    documentParameter rules raw documented one parameter =
      documentParameter rules raw documented other parameter := by
  obtain ⟨entry, found⟩ := Option.isSome_iff_exists.mp has
  simp only [documentParameter, found]

/-- Whatever a method inherits, its documentation agrees on what is its own. -/
theorem documentMethod_agreesOnOwn (raw : Source.Declaration) (member : Source.Method)
    (tags : Comment.Tags) (one other : Option Documented.Method) :
    AgreesOnOwn tags (documentMethod rules raw member tags one)
      (documentMethod rules raw member tags other) where
  frame := by
    have internal (inherited : Option Documented.Method) :
        (filledProse (Comment.prose tags) inherited).isInternal =
          (Comment.prose tags).isInternal := by
      cases inherited <;> rfl
    have framed (inherited : Option Documented.Method) :
        (documentParameters rules raw member (Comment.parametersOf tags) inherited).map
            (fun parameter => ({ name := parameter.name, default := parameter.default } :
              Documented.Parameter)) =
          if member.parameters = [] then
            (Keyed.values (Comment.parametersOf tags)).map fun entry =>
              { name := entry.name, default := entry.default }
          else member.parameters.map fun parameter =>
            { name := parameter.name, default := parameter.default } := by
      rw [documentParameters]
      split
      · rw [List.map_map]
        rfl
      · rw [List.map_map]
        refine List.map_congr_left fun parameter _ => ?_
        have kept := @documentParameter_frame rules raw (Comment.parametersOf tags) inherited
          parameter
        rw [Function.comp_apply, kept.1, kept.2]
    simp only [Resolve.frame, documentMethod, internal, framed]
  description := by
    intro given
    cases one <;> cases other <;> simp [documentMethod, filledProse, given]
  exampleCode := by
    intro given
    cases one <;> cases other <;> simp [documentMethod, filledProse, given]
  references := by
    intro given
    cases one <;> cases other <;> simp [documentMethod, filledProse, given]
  deprecation := by
    intro given
    obtain ⟨notice, said⟩ := Option.ne_none_iff_exists'.mp given
    cases one <;> cases other <;> simp [documentMethod, filledProse, said]
  parameters := by
    intro name has
    simp only [documentMethod, documentParameters]
    split
    · rfl
    · rw [List.filter_map, List.filter_map]
      have named (inherited : Option Documented.Method) :
          ((·.name == name) ∘
            documentParameter rules raw (Comment.parametersOf tags) inherited) =
            fun parameter : Source.Parameter => parameter.name == name := by
        funext parameter
        rw [Function.comp_apply, (documentParameter_frame raw _ inherited parameter).1]
      rw [named, named]
      refine List.map_congr_left fun parameter member => ?_
      have same : parameter.name = name := by simpa using (List.mem_filter.mp member).2
      exact documentParameter_of_has raw one other (same ▸ has)
  returnType := by
    intro given
    have own (inherited : Option Documented.Method) :
        documentReturnType rules raw member tags inherited =
          some (qualified rules raw (Comment.returnTypeOf tags)) := by
      rw [documentReturnType, if_pos given]
    simp only [documentMethod, own, and_self]

/-- Under all filters the documentation of a method agrees on what is its own. -/
theorem Declared.plain_agreesOnOwn (first second : MemberFilter)
    (grounded : WellFounded (flip registry.Needs)) (declared : Declared) :
    AgreesOnOwn (declared.tags rules)
      (declared.plain (rules.filtered first) registry grounded)
      (declared.plain (rules.filtered second) registry grounded) := by
  rw [Declared.plain_eq, Declared.plain_eq, documentMethod_filtered, documentMethod_filtered]
  exact documentMethod_agreesOnOwn ..

/-- A filter that lists the same modifiers and selects by name. -/
def MemberFilter.selecting (filter : MemberFilter) (selects : Text → Bool) : MemberFilter :=
  { filter with selects }

/-- Selecting by name keeps of all methods those whose names are selected. -/
theorem Declared.isKept_selecting (filter : MemberFilter) (selects : Text → Bool)
    (declared : Declared) :
    declared.isKept (rules.filtered (filter.selecting selects)) =
      (selects declared.member.name &&
        declared.isKept (rules.filtered (filter.selecting fun _ => true))) := by
  have keeps : (filter.selecting selects).keeps declared.member.name
      (memberModifiers declared.raw declared.member) =
        (selects declared.member.name && (filter.selecting fun _ => true).keeps
          declared.member.name (memberModifiers declared.raw declared.member)) := by
    simp only [MemberFilter.keeps, MemberFilter.selecting, Bool.and_true]
    exact Bool.and_comm ..
  simp only [isKept, keptTags?, Rules.filtered, keeps]
  cases selects declared.member.name
  · simp
  · simp only [Bool.true_and]
    rfl

/-- A method whose name is selected has the sources that it has without selecting. A
method that it overrides has its name, so it is selected as well. The induction climbs
the hierarchy. -/
theorem sameSources_of_selects (filter : MemberFilter) (selects : Text → Bool)
    (grounded : WellFounded (flip registry.Needs)) {key : Text} {declared : Declared}
    (loaded : Keyed.find? key registry.entries = some declared.raw)
    (selected : selects declared.member.name = true) :
    SameSources (rules.filtered (filter.selecting fun _ => true))
      (rules.filtered (filter.selecting selects)) registry grounded declared := by
  induction key using grounded.transGen.induction generalizing declared with
  | _ key inductionHypothesis =>
  have same : declared.source? (rules.filtered (filter.selecting selects)) registry grounded =
      declared.source? (rules.filtered (filter.selecting fun _ => true)) registry grounded := by
    simp only [Declared.source?, Declared.tags_filtered]
    congr 1
    refine List.find?_congr fun above member => ?_
    have sameName := (Declared.of_mem_overridden loaded member).1
    rw [Declared.isKept_selecting filter selects, sameName, selected, Bool.true_and]
  cases found : declared.source? (rules.filtered (filter.selecting fun _ => true)) registry
    grounded with
  | none => exact .unsourced found (same.trans found)
  | some source =>
    have member : source ∈ declared.overridden registry grounded := by
      rw [Declared.source?] at found
      split at found
      · exact List.mem_of_find?_eq_some found
      · cases found
    obtain ⟨sameName, aboveKey, aboveLoaded, needs⟩ :=
      Declared.of_mem_overridden loaded member
    have above : Relation.TransGen (flip registry.Needs) aboveKey key :=
      Relation.transGen_swap.mpr needs
    exact .sourced found (same.trans found)
      (inductionHypothesis aboveKey above aboveLoaded (sameName ▸ selected))

/-- The documentation of a type with some of its methods. -/
theorem documentType_filter (raw : Source.Declaration) (methods : List Documented.Method)
    (p : Documented.Method → Bool) :
    { documentType rules raw methods with
      methods := (documentType rules raw methods).methods.filter p } =
      documentType rules raw (methods.filter p) := by
  simp only [documentType]

/-- The methods of a type that are documented, with their documentation. -/
def shownMethods (rules : Rules) (registry : Registry)
    (grounded : WellFounded (flip registry.Needs)) (raw : Source.Declaration) :
    List Documented.Method :=
  (raw.methods.filter fun member => Declared.isKept rules ⟨raw, member⟩).map fun member =>
    Declared.plain rules registry grounded ⟨raw, member⟩

/-- Selecting by name leaves of the methods of a type those whose names are selected, with
the same documentation. -/
theorem shownMethods_selecting (filter : MemberFilter) (selects : Text → Bool)
    (grounded : WellFounded (flip registry.Needs)) {key : Text} {raw : Source.Declaration}
    (loaded : Keyed.find? key registry.entries = some raw) :
    shownMethods (rules.filtered (filter.selecting selects)) registry grounded raw =
      (shownMethods (rules.filtered (filter.selecting fun _ => true)) registry grounded
        raw).filter (selects ·.name) := by
  rw [shownMethods, shownMethods, List.filter_map, List.filter_filter]
  have kept (member : Source.Method) :
      Declared.isKept (rules.filtered (filter.selecting selects)) ⟨raw, member⟩ =
        (selects member.name &&
          Declared.isKept (rules.filtered (filter.selecting fun _ => true)) ⟨raw, member⟩) :=
    Declared.isKept_selecting filter selects ⟨raw, member⟩
  simp only [kept]
  refine List.map_congr_left fun member listed => ?_
  have selected : selects member.name = true := by
    have both := (List.mem_filter.mp listed).2
    rw [Bool.and_eq_true] at both
    exact both.1
  exact (sameSources_of_selects filter selects grounded loaded selected).plain_eq.symm

end Resolve

/-- In a hierarchy without cycles a loaded type is answered with its plain documentation
after whatever questions. -/
theorem Resolver.resolve_plain (resolver : Resolver) (acyclic : resolver.registry.Acyclic)
    {name : Text} {raw : Source.Declaration}
    (loaded : resolver.registry.find? name = some raw) (queries : List Query) :
    (resolver.resolve name (resolver.askAll queries {})).1 =
      .ok (documentType resolver.rules raw
        (shownMethods resolver.rules resolver.registry acyclic.wellFounded raw)) := by
  have answer := resolver.ask_eq_plain acyclic (.resolve name) queries
  have loaded : Keyed.find? (ClassName.key name) resolver.registry.entries = some raw := loaded
  simp only [Resolver.ask, Query.task, Task.plain, plainEntity_eq, loaded, Option.map_some,
    plainMethods_eq] at answer
  exact Resolver.resolve_eq_ok.mpr answer

/-- The same resolver with another filter. -/
def Resolver.filtered (resolver : Resolver) (filter : MemberFilter) : Resolver :=
  { resolver with rules := resolver.rules.filtered filter }

/-- With another filter a loaded type is answered with the methods that the filter shows. -/
theorem Resolver.resolve_filtered (resolver : Resolver) (acyclic : resolver.registry.Acyclic)
    (filter : MemberFilter) {name : Text} {raw : Source.Declaration}
    (loaded : resolver.registry.find? name = some raw) (queries : List Query) :
    ((resolver.filtered filter).resolve name
        ((resolver.filtered filter).askAll queries {})).1 =
      .ok (documentType resolver.rules raw
        (shownMethods (resolver.rules.filtered filter) resolver.registry acyclic.wellFounded
          raw)) :=
  (resolver.filtered filter).resolve_plain acyclic loaded queries

/-- A method that is documented. -/
def Runners.stop : Source.Method := { name := "stop".toList, comment := "/** Stops. */".toList }

/-- A method that takes inherited words. -/
def Runners.heir (name : String) : Source.Method :=
  { name := name.toList, comment := "/** \x7b@inheritDoc\x7d */".toList }

/-- A type with a method that only its heirs may call and one that everyone may call. -/
def Runners.base : Source.Declaration where
  name := "Base".toList
  methods := [
    { name := "run".toList, comment := "/** Runs. */".toList, modifiers := ["protected".toList] },
    Runners.stop]

/-- A type that opens both methods of its parent to everyone and takes their words. -/
def Runners.child : Source.Declaration where
  name := "Child".toList
  parent := some "\\Base".toList
  methods := [Runners.heir "run", Runners.heir "stop"]

/-- The two types. -/
def runners : Resolver where
  registry := { entries := [("base".toList, Runners.base), ("child".toList, Runners.child)] }

/-- The parent has a smaller rank, so there is no cycle. -/
theorem runners_acyclic : runners.registry.Acyclic :=
  Registry.acyclic_of_rank (fun key => if key = "child".toList then 1 else 0) (by decide)

/-- A filter by name only selects: it leaves the documentation of a type as it is, apart
from the methods, of which it leaves those whose names are selected, in order and with
the same documentation. -/
theorem Resolver.resolve_selecting (resolver : Resolver) (acyclic : resolver.registry.Acyclic)
    (selects : Text → Bool) (name : Text) (loaded : resolver.registry.has name = true)
    (queries others : List Query) :
    let whole := resolver.filtered (resolver.rules.filter.selecting fun _ => true)
    let selecting := resolver.filtered (resolver.rules.filter.selecting selects)
    ∃ entity,
      (whole.resolve name (whole.askAll queries {})).1 = .ok entity ∧
      (selecting.resolve name (selecting.askAll others {})).1 =
        .ok { entity with methods := entity.methods.filter (selects ·.name) } := by
  obtain ⟨raw, found⟩ := Option.isSome_iff_exists.mp loaded
  have selected := @shownMethods_selecting resolver.rules _ resolver.rules.filter selects
    acyclic.wellFounded _ _ found
  have whole := resolver.resolve_filtered acyclic
    (resolver.rules.filter.selecting fun _ => true) found queries
  have selecting := resolver.resolve_filtered acyclic
    (resolver.rules.filter.selecting selects) found others
  rw [selected, ← documentType_filter] at selecting
  exact ⟨_, whole, selecting⟩

/-- Selecting the method `run` leaves of the child that method with its inherited words. -/
theorem runners_child_selecting_run :
    runners.registry.Acyclic ∧ runners.registry.has "Child".toList = true ∧
    ∃ entity,
      ((runners.filtered (runners.rules.filter.selecting fun _ => true)).resolve
        "Child".toList {}).1 = .ok entity ∧
      ((runners.filtered (runners.rules.filter.selecting (· == "run".toList))).resolve
        "Child".toList {}).1 =
          .ok { entity with methods := entity.methods.filter (·.name == "run".toList) } ∧
      entity.methods.map (fun method => (method.name, method.prose.description)) =
        [("run".toList, "Runs.".toList), ("stop".toList, "Stops.".toList)] := by
  refine ⟨runners_acyclic, by decide, ?_⟩
  obtain ⟨entity, whole, selected⟩ := runners.resolve_selecting runners_acyclic
    (· == "run".toList) "Child".toList (by decide) [] []
  refine ⟨entity, whole, selected, ?_⟩
  have described : ((runners.filtered (runners.rules.filter.selecting fun _ => true)).resolve
      "Child".toList {}).1.toOption.map (fun entity =>
        entity.methods.map fun method => (method.name, method.prose.description)) =
      some [("run".toList, "Runs.".toList), ("stop".toList, "Stops.".toList)] := by
    decide +kernel
  rw [show ((runners.filtered (runners.rules.filter.selecting fun _ => true)).resolve
    "Child".toList {}).1 = .ok entity from whole] at described
  exact Option.some.inj described

/-- The filter that shows the methods with one of some modifiers. -/
def showing (modifiers : List String) : MemberFilter where
  modifiers := some (modifiers.map String.toList)

/-- The method `stop` of the child overrides that of its parent. -/
theorem runners_stop_overridden :
    (⟨Runners.child, Runners.heir "stop"⟩ : Declared).overridden runners.registry
      runners_acyclic.wellFounded = [⟨Runners.base, Runners.stop⟩] := by
  have above : ancestors Runners.child = ["Base".toList] := by decide
  have loaded : Keyed.find? (ClassName.key "Base".toList) runners.registry.entries =
      some Runners.base := by decide
  have top : (given Runners.base.parent).map ClassName.clean = none := rfl
  rw [Declared.overridden, above, List.flatMap_singleton, methodsAlong,
    lineageOf_eq _ (by decide), loaded, Option.elim_some, top, Option.elim_none,
    List.flatMap_singleton]
  rfl

/-- A filter that keeps `stop` in the parent makes it the source of `stop` in the child. -/
theorem runners_stop_source {rules : Rules}
    (asks : Comment.inheritsWords
      (Declared.tags rules ⟨Runners.child, Runners.heir "stop"⟩) = true)
    (kept : Declared.isKept rules ⟨Runners.base, Runners.stop⟩ = true) :
    (⟨Runners.child, Runners.heir "stop"⟩ : Declared).source? rules runners.registry
      runners_acyclic.wellFounded = some ⟨Runners.base, Runners.stop⟩ := by
  rw [Declared.source?, if_pos asks, runners_stop_overridden, List.find?_cons_of_pos kept]

/-- Two filters that keep a method document it alike if it has the same sources under
both. In any case the documentation agrees on what the method does not inherit. -/
theorem Resolver.resolve_under_filters (resolver : Resolver)
    (acyclic : resolver.registry.Acyclic) (first second : MemberFilter) (name : Text)
    (raw : Source.Declaration) (loaded : resolver.registry.find? name = some raw)
    (queries others : List Query) :
    let one := resolver.filtered first
    let other := resolver.filtered second
    ∃ oneText otherText : Source.Method → Documented.Method,
      (one.resolve name (one.askAll queries {})).1 =
        .ok (documentType resolver.rules raw
          ((raw.methods.filter fun member => Declared.isKept one.rules ⟨raw, member⟩).map
            oneText)) ∧
      (other.resolve name (other.askAll others {})).1 =
        .ok (documentType resolver.rules raw
          ((raw.methods.filter fun member => Declared.isKept other.rules ⟨raw, member⟩).map
            otherText)) ∧
      ∀ member ∈ raw.methods,
        AgreesOnOwn (tagsIn resolver.rules raw member.comment) (oneText member)
          (otherText member) ∧
        (SameSources one.rules other.rules resolver.registry acyclic.wellFounded
            ⟨raw, member⟩ →
          oneText member = otherText member) := by
  refine ⟨_, _, resolver.resolve_filtered acyclic first loaded queries,
    resolver.resolve_filtered acyclic second loaded others, fun member _ => ⟨?_, ?_⟩⟩
  · exact Declared.plain_agreesOnOwn first second acyclic.wellFounded ⟨raw, member⟩
  · exact SameSources.plain_eq

/-- The method `stop` of the child is documented alike whether protected methods are shown or
not. -/
theorem runners_stop_under_filters :
    let one := runners.filtered (showing ["public", "protected"])
    let other := runners.filtered (showing ["public"])
    runners.registry.Acyclic ∧ runners.registry.find? "Child".toList = some Runners.child ∧
    ∃ oneText otherText : Source.Method → Documented.Method,
      (one.resolve "Child".toList {}).1 =
        .ok (documentType runners.rules Runners.child
          (Runners.child.methods.map oneText)) ∧
      (other.resolve "Child".toList {}).1 =
        .ok (documentType runners.rules Runners.child
          (Runners.child.methods.map otherText)) ∧
      oneText (Runners.heir "stop") = otherText (Runners.heir "stop") := by
  intro one other
  have loaded : runners.registry.find? "Child".toList = some Runners.child := by decide
  refine ⟨runners_acyclic, loaded, ?_⟩
  obtain ⟨oneText, otherText, shown, hidden, alike⟩ :=
    runners.resolve_under_filters runners_acyclic (showing ["public", "protected"])
      (showing ["public"]) "Child".toList Runners.child loaded [] []
  have oneKept : (Runners.child.methods.filter fun member =>
      Declared.isKept one.rules ⟨Runners.child, member⟩) = Runners.child.methods := by
    decide +kernel
  have otherKept : (Runners.child.methods.filter fun member =>
      Declared.isKept other.rules ⟨Runners.child, member⟩) = Runners.child.methods := by
    decide +kernel
  have same : SameSources one.rules other.rules runners.registry runners_acyclic.wellFounded
      ⟨Runners.child, Runners.heir "stop"⟩ :=
    .sourced (runners_stop_source (by decide +kernel) (by decide +kernel))
      (runners_stop_source (by decide +kernel) (by decide +kernel))
      (sameSources_of_unasked _ _ _ (by decide +kernel))
  rw [oneKept] at shown
  rw [otherKept] at hidden
  exact ⟨oneText, otherText, shown, hidden, (alike _ (by decide)).2 same⟩

/-- The method `run` of the child is shown with and without protected methods, but it takes the
words of its parent's method only if that one is shown. -/
theorem runners_run_loses_words :
    runners.registry.Acyclic ∧
    ((runners.filtered (showing ["public", "protected"])).resolve
        "Child".toList {}).1.toOption.map
      (fun entity => entity.methods.map fun method => (method.name, method.prose.description)) =
      some [("run".toList, "Runs.".toList), ("stop".toList, "Stops.".toList)] ∧
    ((runners.filtered (showing ["public"])).resolve "Child".toList {}).1.toOption.map
      (fun entity => entity.methods.map fun method => (method.name, method.prose.description)) =
      some [("run".toList, []), ("stop".toList, "Stops.".toList)] :=
  ⟨runners_acyclic, by decide +kernel, by decide +kernel⟩

end Docblock
