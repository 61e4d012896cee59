import Docblock.Proofs.Resolution.Filters
import Mathlib.Data.List.Forall2

/-!
# Which methods a type shows

A documented type shows the methods of its declaration that pass the filter and are not
to be ignored, each once and in the order of their declarations. The name, the owner and
the visibility of a method and the names and default values of its parameters are those of
the declaration, or of the comment if no parameter is declared. None of this is inherited,
so it holds in every hierarchy, cycles included, and whatever was asked before.

What a method says in words, and the types of its parameters, can be inherited. Of these
only the built-in classes are covered here: each is that of the type which is shown.
-/

namespace Docblock

open Resolve

/-- A method has a modifier if it is declared with it, in capitals or not. Besides, the
methods of an interface are abstract, and a method that is declared without a visibility is
public. -/
def Source.Method.HasModifier (raw : Source.Declaration) (member : Source.Method)
    (word : Text) : Prop :=
  word ∈ member.modifiers.map Text.lower ∨
  (word = "abstract".toList ∧ raw.kind = "interface".toList) ∨
  (word = "public".toList ∧ ∀ visibility ∈ visibilities,
    visibility ∉ member.modifiers.map Text.lower)

/-- A method is shown if one of its modifiers is listed, should any be listed, its name is
selected and its comment has no tag to ignore it. -/
structure Resolve.Admits (rules : Rules) (raw : Source.Declaration) (member : Source.Method) :
    Prop where
  modifiers : ∀ listed, rules.filter.modifiers = some listed →
    ∃ word ∈ listed, member.HasModifier raw word
  selected : rules.filter.selects member.name = true
  wanted : "ignore".toList ∉ Keyed.keys (tagsIn rules raw member.comment)

/-- The documentation of a method shows its declaration: it has its name, belongs to its
type, and has one of its modifiers as its visibility. Its parameters are the declared ones,
or those of the comment if there are none, with their names and default values. The
built-in class of a parameter is that of its type. -/
structure Resolve.Presents (rules : Rules) (raw : Source.Declaration) (member : Source.Method)
    (method : Documented.Method) : Prop where
  name : method.name = member.name
  owner : method.owner = raw.name
  visibility : method.visibility ∈ visibilities ∧ member.HasModifier raw method.visibility
  declared : member.parameters ≠ [] →
    method.parameters.map (fun parameter => (parameter.name, parameter.default)) =
      member.parameters.map fun parameter => (parameter.name, parameter.default)
  commented : member.parameters = [] →
    method.parameters.map (fun parameter => (parameter.name, parameter.default)) =
      (Keyed.values (Comment.parametersOf (tagsIn rules raw member.comment))).map
        fun entry => (entry.name, entry.default)
  builtIns : ∀ parameter ∈ method.parameters,
    parameter.builtIn = TypeName.firstBuiltIn? rules.builtIns parameter.type

namespace Resolve

variable {rules : Rules} {registry : Registry} {raw : Source.Declaration}
  {member : Source.Method}

/-- The modifiers that a method has are listed. -/
theorem mem_memberModifiers {word : Text} :
    word ∈ memberModifiers raw member ↔ member.HasModifier raw word := by
  have unseen : "abstract".toList ∉ visibilities := by decide
  simp only [memberModifiers, Source.Method.HasModifier]
  generalize member.modifiers.map Text.lower = declared, "abstract".toList = abstractWord,
    "public".toList = publicWord at *
  have listed (other : Text) :
      other ∈ (if raw.kind = "interface".toList then declared ++ [abstractWord] else declared) ↔
        other ∈ declared ∨ other = abstractWord ∧ raw.kind = "interface".toList := by
    split
    · rename_i inside
      simp only [List.mem_append, List.mem_singleton, inside, and_true]
    · rename_i outside
      simp only [outside, and_false, or_false]
  generalize (if raw.kind = "interface".toList then declared ++ [abstractWord] else declared) =
    words at listed
  split
  · rename_i seen
    obtain ⟨visibility, known, inWords⟩ := List.any_eq_true.mp seen
    have inDeclared : visibility ∈ declared := by
      rcases (listed visibility).mp (List.contains_iff_mem.mp inWords) with found | ⟨rfl, -⟩
      · exact found
      · exact absurd known unseen
    have visible : ¬ ∀ visibility ∈ visibilities, visibility ∉ declared :=
      fun hidden => hidden visibility known inDeclared
    rw [listed]
    simp only [visible, and_false, or_false]
  · rename_i hidden
    have invisible : ∀ visibility ∈ visibilities, visibility ∉ declared :=
      fun visibility known found => hidden (List.any_eq_true.mpr
        ⟨visibility, known, List.contains_iff_mem.mpr ((listed visibility).mpr (.inl found))⟩)
    rw [List.mem_append, List.mem_singleton, listed, or_assoc, and_iff_left invisible]

/-- A filter keeps what has a listed modifier, should any be listed, and a selected name. -/
theorem MemberFilter.keeps_iff (filter : MemberFilter) {name : Text} {modifiers : List Text} :
    filter.keeps name modifiers = true ↔
      (∀ listed, filter.modifiers = some listed → ∃ word ∈ listed, word ∈ modifiers) ∧
        filter.selects name = true := by
  rw [keeps, Bool.and_eq_true]
  refine and_congr_left' ?_
  cases filter.modifiers with
  | none => simp
  | some listed =>
    simp only [Option.some.injEq, forall_eq', List.any_eq_true, List.contains_iff_mem]
    exact exists_congr fun word => and_comm

/-- A method is shown exactly if it is documented with the tags of its comment. -/
theorem admits_iff : Admits rules raw member ↔ (keptTags? rules raw member).isSome := by
  have wanted : "ignore".toList ∉ Keyed.keys (tagsIn rules raw member.comment) ↔
      Comment.isIgnored (tagsIn rules raw member.comment) = false := by
    rw [← Bool.not_eq_true, Comment.isIgnored]
    exact not_congr ⟨Keyed.has_of_mem_keys, Keyed.mem_keys_of_has⟩
  have parts : Admits rules raw member ↔
      rules.filter.keeps member.name (memberModifiers raw member) = true ∧
        Comment.isIgnored (tagsIn rules raw member.comment) = false := by
    simp only [MemberFilter.keeps_iff, mem_memberModifiers, ← wanted]
    exact ⟨fun admits => ⟨⟨admits.modifiers, admits.selected⟩, admits.wanted⟩,
      fun ⟨⟨modifiers, selected⟩, wanted⟩ => ⟨modifiers, selected, wanted⟩⟩
  rw [parts, keptTags?]
  by_cases kept : rules.filter.keeps member.name (memberModifiers raw member) = true
  · cases ignored : Comment.isIgnored (tagsIn rules raw member.comment) <;> simp [kept, ignored]
  · simp [kept]

instance : DecidablePred (Admits rules raw) :=
  fun _ => decidable_of_iff _ admits_iff.symm

/-- The tags that a method is documented with are those of its comment. -/
theorem eq_tagsIn_of_kept {tags : Comment.Tags} (kept : keptTags? rules raw member = some tags) :
    tags = tagsIn rules raw member.comment := by
  rw [keptTags?] at kept
  split at kept
  · simp only [Option.ite_none_left_eq_some, Option.some.injEq] at kept
    exact kept.2.symm
  · cases kept

/-- A method is documented with the tags of its comment and whatever it inherits. -/
def IsDocumentedAs (rules : Rules) (raw : Source.Declaration) (member : Source.Method)
    (method : Documented.Method) : Prop :=
  ∃ inherited, method =
    documentMethod rules raw member (tagsIn rules raw member.comment) inherited

/-- The built-in class of a documented parameter is that of its type. -/
theorem documentParameter_builtIn (documented : Keyed Comment.ParameterTag)
    (inherited : Option Documented.Method) (parameter : Source.Parameter) :
    (documentParameter rules raw documented inherited parameter).builtIn =
      TypeName.firstBuiltIn? rules.builtIns
        (documentParameter rules raw documented inherited parameter).type := by
  simp only [documentParameter]
  split
  · rfl
  · split <;> rfl

/-- The visibility of a method is one of its modifiers: it has one of them in any case. -/
theorem find?_visibilities (raw : Source.Declaration) (member : Source.Method) :
    ∃ visibility ∈ visibilities, member.HasModifier raw visibility ∧
      visibilities.find? (memberModifiers raw member).contains = some visibility := by
  obtain ⟨visibility, found⟩ : ∃ visibility,
      visibilities.find? (memberModifiers raw member).contains = some visibility := by
    rw [← Option.isSome_iff_exists, List.find?_isSome]
    by_cases hidden : ∀ visibility ∈ visibilities,
        visibility ∉ member.modifiers.map Text.lower
    · exact ⟨"public".toList, by decide,
        List.contains_iff_mem.mpr (mem_memberModifiers.mpr (.inr (.inr ⟨rfl, hidden⟩)))⟩
    · push Not at hidden
      obtain ⟨visibility, known, declared⟩ := hidden
      exact ⟨visibility, known, List.contains_iff_mem.mpr (mem_memberModifiers.mpr (.inl declared))⟩
  have has : (memberModifiers raw member).contains visibility = true := List.find?_some found
  exact ⟨visibility, List.mem_of_find?_eq_some found,
    mem_memberModifiers.mp (List.contains_iff_mem.mp has), found⟩

/-- Whatever a method inherits, its documentation presents its declaration. -/
theorem IsDocumentedAs.presents {method : Documented.Method}
    (documented : IsDocumentedAs rules raw member method) :
    Presents rules raw member method := by
  obtain ⟨inherited, rfl⟩ := documented
  refine ⟨rfl, rfl, ?_, ?_, ?_, ?_⟩
  · obtain ⟨visibility, known, has, found⟩ := find?_visibilities raw member
    simp only [documentMethod, found, Option.getD_some]
    exact ⟨known, has⟩
  · intro declared
    simp only [documentMethod, documentParameters, if_neg declared, List.map_map]
    refine List.map_congr_left fun parameter _ => ?_
    have kept := @documentParameter_frame rules raw
      (Comment.parametersOf (tagsIn rules raw member.comment)) inherited parameter
    rw [Function.comp_apply, kept.1, kept.2]
  · intro undeclared
    simp only [documentMethod, documentParameters, if_pos undeclared, List.map_map]
    rfl
  · intro parameter shown
    simp only [documentMethod, documentParameters] at shown
    split at shown
    · obtain ⟨entry, -, rfl⟩ := List.mem_map.mp shown
      rfl
    · obtain ⟨declared, -, rfl⟩ := List.mem_map.mp shown
      exact documentParameter_builtIn _ inherited declared

/-- The documentation of a type shows the methods of the type that are admitted, in order,
each with whatever it inherits. -/
def IsShownAs (rules : Rules) (raw : Source.Declaration) (entity : Documented.Entity) : Prop :=
  ∃ methods, entity = documentType rules raw methods ∧
    List.Forall₂ (IsDocumentedAs rules raw) (raw.methods.filter (Admits rules raw)) methods

/-- All finished types are shown as they are declared. -/
def AllShown (rules : Rules) (registry : Registry) (state : Resolution) : Prop :=
  ∀ key entity, Keyed.find? key state.finished = some entity →
    ∃ raw, Keyed.find? key registry.entries = some raw ∧ IsShownAs rules raw entity

/-- A loaded type is answered with what is shown of it, and its methods with those that are
admitted. Of what a search finds nothing is said. -/
def Task.ShowsIn (rules : Rules) (registry : Registry) : (task : Task) → task.Answer → Prop
  | .resolve name, answer => ∀ raw, registry.find? name = some raw →
      ∃ entity, answer = some entity ∧ IsShownAs rules raw entity
  | .document raw members, methods =>
      List.Forall₂ (IsDocumentedAs rules raw) (members.filter (Admits rules raw)) methods
  | .walk .., _ | .search .., _ | .inherit .., _ => True

/-- A type that is finished as it is shown leaves all of them so. -/
theorem AllShown.finish {state : Resolution} {key : Text} {entity : Documented.Entity}
    (shown : AllShown rules registry state)
    (loaded : Keyed.find? key registry.entries = some raw) (fits : IsShownAs rules raw entity) :
    AllShown rules registry (state.finish key entity) := by
  intro other found stored
  by_cases same : other = key
  · subst same
    have equal : some entity = some found := (Keyed.find?_put_same _ _ _).symm.trans stored
    exact ⟨raw, loaded, Option.some.inj equal ▸ fits⟩
  · exact shown other found ((Keyed.find?_put_other _ _ _ _ same).symm.trans stored)

/-- Every run leaves all finished types shown as they are declared, and answers so. The
induction follows the rules; what a method inherits plays no part in it. -/
theorem Runs.shown_all {task : Task} {state after : Resolution} {entries : List Entry}
    {answer : task.Answer} (run : Runs rules registry task state entries answer after)
    (shown : AllShown rules registry state) :
    AllShown rules registry after ∧ task.ShowsIn rules registry answer := by
  induction run with
  | known found =>
    obtain ⟨raw, loaded, fits⟩ := shown _ _ found
    refine ⟨shown, fun other found => ⟨_, rfl, ?_⟩⟩
    obtain rfl : raw = other := Option.some.inj (loaded.symm.trans found)
    exact fits
  | unknown fresh absent =>
    refine ⟨shown, fun raw loaded => ?_⟩
    rw [absent] at loaded
    cases loaded
  | @documented name state after raw entries methods fresh loaded run inner =>
    obtain ⟨later, answered⟩ := inner shown
    have fits : IsShownAs rules raw (documentType rules raw methods) := ⟨methods, rfl, answered⟩
    refine ⟨later.finish loaded fits, fun other found => ⟨_, rfl, ?_⟩⟩
    obtain rfl : raw = other := Option.some.inj (loaded.symm.trans found)
    exact fits
  | halted | exhausted | unasked => exact ⟨shown, trivial⟩
  | stranded goes run inner => exact ⟨(inner shown).1, trivial⟩
  | met goes run has inner => exact ⟨(inner shown).1, trivial⟩
  | ended goes run lacks top inner => exact ⟨(inner shown).1, trivial⟩
  | climbed goes run lacks above further inner onward =>
    exact ⟨(onward (inner shown).1).1, trivial⟩
  | first run inner => exact ⟨(inner shown).1, trivial⟩
  | next run further inner onward => exact ⟨(onward (inner shown).1).1, trivial⟩
  | inherited asks run inner => exact ⟨(inner shown).1, trivial⟩
  | orphaned asks run inner => exact ⟨(inner shown).1, trivial⟩
  | complete => exact ⟨shown, .nil⟩
  | @dropped raw member rest state after entries methods drops further onward =>
    obtain ⟨later, answered⟩ := onward shown
    have omitted : ¬ Admits rules raw member := by simp [admits_iff, drops]
    refine ⟨later, ?_⟩
    simpa [Task.ShowsIn, omitted] using answered
  | @kept raw member rest tags state after last entries others inherited methods keeps run
      further inner onward =>
    obtain ⟨later, answered⟩ := onward (inner shown).1
    have admitted : Admits rules raw member := by simp [admits_iff, keeps]
    refine ⟨later, ?_⟩
    have documented : IsDocumentedAs rules raw member
        (documentMethod rules raw member tags inherited) :=
      ⟨inherited, by rw [eq_tagsIn_of_kept keeps]⟩
    simpa [Task.ShowsIn, admitted] using List.Forall₂.cons documented answered

end Resolve

/-- Every call of a session leaves all finished types shown as they are declared. -/
theorem Session.after_shown {rules : Rules} {session : Session} (settled : Settled rules session)
    (shown : AllShown rules session.registry session.resolution) (call : Call) :
    AllShown rules (session.after rules call).registry (session.after rules call).resolution := by
  cases call with
  | add declaration =>
    intro key entity found
    obtain ⟨raw, loaded, fits⟩ := shown key entity found
    exact ⟨raw, Registry.find?_add loaded declaration, fits⟩
  | ask query =>
    obtain ⟨entries, run⟩ :=
      Resolver.ask_runs ⟨rules, session.registry⟩ query settled.sound settled.idle
    exact (run.shown_all shown).1
  | isBuilding name => exact shown

/-- All calls together do. -/
theorem Session.afterAll_shown {rules : Rules} {session : Session}
    (settled : Settled rules session)
    (shown : AllShown rules session.registry session.resolution) (calls : List Call) :
    AllShown rules (session.afterAll rules calls).registry
      (session.afterAll rules calls).resolution := by
  induction calls generalizing session with
  | nil => exact shown
  | cons call rest inductionHypothesis =>
    exact inductionHypothesis (after_settled settled call).1 (after_shown settled shown call)

/-- **Which methods a type shows.** Whatever is called in a session, on whatever registry and
under whatever rules: a name that stands for a loaded type is answered with a type of the name
of its declaration. It shows the methods of the declaration that the rules admit, in order,
each once, and each presents its declaration. -/
theorem Session.resolve_presents (rules : Rules) (registry : Registry) (calls : List Call)
    (name : Text) (raw : Source.Declaration)
    (loaded : (Session.afterAll rules { registry } calls).registry.find? name = some raw) :
    let session := Session.afterAll rules { registry } calls
    ∃ entity,
      (Resolver.resolve ⟨rules, session.registry⟩ name session.resolution).1 = .ok entity ∧
      entity.name = raw.name ∧
      List.Forall₂ (Presents rules raw) (raw.methods.filter (Admits rules raw))
        entity.methods := by
  intro session
  have start := settled_start rules registry
  have nothing : AllShown rules registry {} := by
    intro key entity found
    simp [Keyed.find?] at found
  have shown := afterAll_shown start nothing calls
  have settled := (afterAll_settled start calls).1
  obtain ⟨entries, run⟩ := resolving_runs ⟨rules, session.registry⟩ settled.sound settled.idle name
  obtain ⟨entity, answered, methods, rfl, documented⟩ := (run.shown_all shown).2 raw loaded
  exact ⟨documentType rules raw methods, Resolver.resolve_eq_ok.mpr answered, rfl,
    documented.imp fun _ _ => IsDocumentedAs.presents⟩

/-- A type with a method that inherits its words and four more: one that is private, one that
rests, one that is to be ignored and one with a parameter in its comment alone. -/
def mill : Source.Declaration where
  name := "Mill".toList
  parent := some "Lathe".toList
  methods := [
    { name := "turn".toList, comment := "/** @inheritDoc */".toList
      modifiers := ["PROTECTED".toList], parameters := [{ name := "$speed".toList }] },
    { name := "oil".toList, modifiers := ["private".toList] },
    { name := "rest".toList },
    { name := "burn".toList, comment := "/** @ignore */".toList },
    { name := "halt".toList, comment := "/** @param int $after */".toList }]

/-- The mill and a type that it extends and that extends it. -/
def workshop : Registry where
  entries := [
    ("mill".toList, mill),
    ("lathe".toList, {
      name := "Lathe".toList
      parent := some "Mill".toList
      methods := [{ name := "turn".toList, comment := "/** @inheritDoc */".toList }] })]

/-- Only what is public or protected is shown, unless it is called rest. -/
def workshopRules : Rules where
  filter := {
    modifiers := some ["public".toList, "protected".toList]
    selects := (· ≠ "rest".toList) }

/-- The workshop after the lathe was asked for. -/
def workshopAsked : Session :=
  Session.afterAll workshopRules { registry := workshop } [.ask (.resolve "Lathe".toList)]

/-- The mill shows two methods, although it is its own ancestor and was documented on the
way to the lathe. -/
theorem workshop_mill_presents :
    workshopAsked.registry.find? "mill".toList = some mill ∧
    ∃ entity,
      (Resolver.resolve ⟨workshopRules, workshopAsked.registry⟩ "mill".toList
        workshopAsked.resolution).1 = .ok entity ∧
      entity.methods.map (fun method => (method.name, method.owner)) =
        [("turn".toList, "Mill".toList), ("halt".toList, "Mill".toList)] := by
  have loaded : workshopAsked.registry.find? "mill".toList = some mill := rfl
  refine ⟨loaded, ?_⟩
  obtain ⟨entity, answered, -, shown⟩ :=
    Session.resolve_presents workshopRules workshop [.ask (.resolve "Lathe".toList)]
      "mill".toList mill loaded
  refine ⟨entity, answered, ?_⟩
  have listed : List.Forall₂ (· = ·)
      ((mill.methods.filter (Admits workshopRules mill)).map fun member =>
        (member.name, mill.name))
      (entity.methods.map fun method => (method.name, method.owner)) := by
    simpa using shown.imp fun member method presents => ⟨presents.name.symm, presents.owner.symm⟩
  rw [List.forall₂_eq_eq_eq] at listed
  rw [← listed]
  decide +kernel

end Docblock
