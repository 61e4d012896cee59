import Docblock.Proofs.Comment.WellTyped
import Docblock.Proofs.Resolution.Ascent
import Docblock.Proofs.Resolution.Members

/-!
# Inherited words reach any distance

A method whose comment is nothing but the mark for inherited words takes them from the
nearest method of its name above it. If that one inherits in turn, the words come from
further up. Here it is said what of a method arrives at its heirs, however many types are
in between and whether or not they have the method: its words, its return type, and the types
and descriptions of those parameters that no heir on the way leaves out.

The line of descent goes from parent to parent. Types of the line that implement something
are not covered, because a method is looked for in interfaces first.
-/

namespace Docblock

open Resolve

/-- A type names another loaded type as its parent. A parent without a name is none. -/
def Registry.HasParent (registry : Registry) (raw parent : Source.Declaration) : Prop :=
  ∃ name, (given raw.parent).map ClassName.clean = some name ∧ name ≠ [] ∧
    registry.find? name = some parent

/-- A method declares a parameter of a name. -/
def Source.Method.Declares (member : Source.Method) (name : Text) : Prop :=
  ∃ parameter ∈ member.parameters, parameter.name = name

/-- All methods of a name in some types declare a parameter of a name. -/
def AllDeclare (method : Text) (types : List Source.Declaration) (name : Text) : Prop :=
  ∀ raw ∈ types, ∀ member ∈ raw.methods, member.name = method → member.Declares name

/-- The mark for inherited words as comments have it. -/
def inheritDoc : Text := "\x7b@inheritDoc\x7d".toList

/-- A type and its heirs, the youngest first. Each heir names the next type as its parent and
implements nothing. The type keeps its only method of a name, the origin, whose parameters
have different names. An heir has at most one method of this name, which it keeps and
comments with the mark for inherited words alone. -/
structure Resolver.Descent (resolver : Resolver) (method : Text)
    (heirs : List Source.Declaration) (base : Source.Declaration) (origin : Source.Method) :
    Prop where
  chain : List.IsChain resolver.registry.HasParent (heirs ++ [base])
  interfaces : ∀ raw ∈ heirs, raw.interfaces = []
  declared : base.methods.filter (·.name == method) = [origin]
  kept : Admits resolver.rules base origin
  distinct : (origin.parameters.map (·.name)).Nodup
  single : ∀ raw ∈ heirs, (raw.methods.filter (·.name == method)).length ≤ 1
  marked : ∀ raw ∈ heirs, ∀ member ∈ raw.methods, member.name = method →
    Admits resolver.rules raw member ∧ Comment.clean member.comment = inheritDoc

/-- A type is documented with exactly one method of a name. -/
def Resolver.ShowsOne (resolver : Resolver) (raw : Source.Declaration) (method : Text)
    (documented : Documented.Method) : Prop :=
  ∀ name, resolver.registry.find? name = some raw → ∃ entity, resolver.Documents name entity ∧
    entity.methods.filter (·.name == method) = [documented]

namespace Resolve

/-- What one method carries of another: its words, its return type if that is not empty, and
the types and descriptions of its parameters with a shared name. -/
structure Carries (source : Documented.Method) (shared : Text → Prop)
    (carried : Documented.Method) : Prop where
  description : carried.prose.description = source.prose.description
  exampleCode : carried.prose.exampleCode = source.prose.exampleCode
  references : carried.prose.references = source.prose.references
  deprecation : carried.prose.deprecation = source.prose.deprecation
  returnType : ∀ type, source.returnType = some type → type ≠ [] →
    carried.returnType = some type
  parameters : ∀ original ∈ source.parameters, shared original.name →
    (∃ shown ∈ carried.parameters, shown.name = original.name) ∧
    ∀ shown ∈ carried.parameters, shown.name = original.name →
      shown.type = original.type ∧ shown.description = original.description

variable {rules : Rules} {registry : Registry}

/-- What is carried for more shared names is carried for fewer. -/
theorem Carries.mono {source carried : Documented.Method} {shared fewer : Text → Prop}
    (carries : Carries source shared carried) (among : ∀ name, fewer name → shared name) :
    Carries source fewer carried :=
  { carries with
    parameters := fun original member common =>
      carries.parameters original member (among _ common) }

/-- A method whose parameters have different names carries all of itself. -/
theorem Carries.refl {source : Documented.Method}
    (distinct : (source.parameters.map (·.name)).Nodup) (shared : Text → Prop) :
    Carries source shared source where
  description := rfl
  exampleCode := rfl
  references := rfl
  deprecation := rfl
  returnType := fun _ same _ => same
  parameters := by
    intro original member _
    refine ⟨⟨original, member, rfl⟩, fun shown listed same => ?_⟩
    obtain rfl : shown = original := List.inj_on_of_nodup_map distinct listed member same
    exact ⟨rfl, rfl⟩

/-- The parameters of a method have different names in its documentation if they are declared
so. Those of a comment always have. -/
theorem nodup_parameterNames {raw : Source.Declaration} {member : Source.Method}
    {method : Documented.Method} (presents : Presents rules raw member method)
    (distinct : (member.parameters.map (·.name)).Nodup) :
    (method.parameters.map (·.name)).Nodup := by
  have names : method.parameters.map (·.name) =
      (method.parameters.map fun parameter => (parameter.name, parameter.default)).map
        Prod.fst := by
    rw [List.map_map]
    rfl
  rw [names]
  by_cases undeclared : member.parameters = []
  · rw [presents.commented undeclared, List.map_map]
    exact Comment.nodup_documentedNames ..
  · rw [presents.declared undeclared, List.map_map]
    exact distinct

/-- Plain documentation of a method presents its declaration. -/
theorem Declared.plain_presents (grounded : WellFounded (flip registry.Needs))
    (declared : Declared) :
    Presents rules declared.raw declared.member (declared.plain rules registry grounded) :=
  IsDocumentedAs.presents ⟨_, rfl⟩

/-- The tags of a comment that is nothing but the mark for inherited words. -/
def inheritTags : Comment.Tags := [(Comment.descriptionTag, .text inheritDoc)]

/-- A method whose comment is nothing but the mark has no other tags. -/
theorem Declared.tags_of_inheritDoc {declared : Declared}
    (marked : Comment.clean declared.member.comment = inheritDoc) :
    declared.tags rules = inheritTags := by
  have lines : Text.lines inheritDoc = [inheritDoc] := by decide +kernel
  have trimmed : Text.trim inheritDoc = inheritDoc := by decide +kernel
  have words : Text.words inheritDoc = [inheritDoc] := by decide +kernel
  have content : Text.trim (Comment.joiner Comment.descriptionTag ++ inheritDoc) = inheritDoc := by
    decide +kernel
  have read : Comment.TagState.addLine rules.builtIns declared.raw.scope {} inheritDoc =
      { tags := [(Comment.descriptionTag,
          .text (Comment.joiner Comment.descriptionTag ++ inheritDoc))] } := by
    simp only [Comment.TagState.addLine]
    rw [if_neg (by decide), trimmed, words]
    rfl
  rw [Declared.tags, tagsIn, Comment.tags, marked, Comment.tagsOfLines, lines, List.foldl_cons,
    List.foldl_nil, read]
  simp only [List.map_cons, List.map_nil, Comment.TagValue.trimmed, content]
  rfl

/-- A method with such a comment carries all that the method above it carries, apart from the
parameters that it does not declare. -/
theorem Carries.marked {source inherited : Documented.Method} {shared : Text → Prop}
    (carries : Carries source shared inherited) (raw : Source.Declaration)
    (member : Source.Method) :
    Carries source (fun name => shared name ∧ member.Declares name)
      (documentMethod rules raw member inheritTags (some inherited)) := by
  have silent : Comment.prose inheritTags = {} := by decide +kernel
  have unreturned : Comment.returnTypeOf inheritTags = [] := by decide +kernel
  have undocumented : Comment.parametersOf inheritTags = [] := rfl
  refine ⟨?_, ?_, ?_, ?_, ?_, ?_⟩
  · simpa [documentMethod, filledProse, silent] using carries.description
  · simpa [documentMethod, filledProse, silent] using carries.exampleCode
  · simpa [documentMethod, filledProse, silent] using carries.references
  · simpa [documentMethod, filledProse, silent] using carries.deprecation
  · intro type returned present
    have handed := carries.returnType type returned present
    have whole : given (some type) = some type := by simp [given, Option.filter, present]
    simp [documentMethod, documentReturnType, unreturned, handed, whole]
  · rintro original member' ⟨common, parameter, declared, same⟩
    obtain ⟨⟨inherits, listed, named⟩, agree⟩ := carries.parameters original member' common
    have declares : member.parameters ≠ [] := List.ne_nil_of_mem declared
    have parameters : (documentMethod rules raw member inheritTags (some inherited)).parameters =
        member.parameters.map (documentParameter rules raw [] (some inherited)) := by
      rw [documentMethod, documentParameters, if_neg declares, undocumented]
    rw [parameters]
    refine ⟨⟨_, List.mem_map_of_mem declared, (documentParameter_frame ..).1.trans same⟩, ?_⟩
    intro shown member'' sameName
    obtain ⟨other, -, rfl⟩ := List.mem_map.mp member''
    rw [(documentParameter_frame ..).1] at sameName
    obtain ⟨overridden, found⟩ : ∃ overridden,
        inherited.parameters.reverse.find? (·.name == other.name) = some overridden := by
      rw [← Option.isSome_iff_exists, List.find?_isSome]
      exact ⟨inherits, List.mem_reverse.mpr listed, by simp [named, sameName]⟩
    have inside : overridden ∈ inherited.parameters :=
      List.mem_reverse.mp (List.mem_of_find?_eq_some found)
    have called : overridden.name = original.name := by
      have met := List.find?_some found
      rw [beq_iff_eq.mp met, sameName]
    simp only [documentParameter, Keyed.find?, Option.bind_some, found, parameterWith]
    exact agree overridden inside called

end Resolve

section Descent

variable {resolver : Resolver} {method : Text} {heirs : List Source.Declaration}
  {base : Source.Declaration} {origin : Source.Method}

/-- Without its youngest heir a descent is a descent. -/
theorem Resolver.Descent.tail {raw : Source.Declaration}
    (descent : resolver.Descent method (raw :: heirs) base origin) :
    resolver.Descent method heirs base origin where
  chain := descent.chain.of_cons
  interfaces other member := descent.interfaces other (List.mem_cons_of_mem raw member)
  declared := descent.declared
  kept := descent.kept
  distinct := descent.distinct
  single other member := descent.single other (List.mem_cons_of_mem raw member)
  marked other member := descent.marked other (List.mem_cons_of_mem raw member)

/-- The declarations from a type upwards start with the chain of parents above it. -/
theorem lineageOf_chain {registry : Registry} (grounded : WellFounded (flip registry.Needs))
    {raw last : Source.Declaration} {between : List Source.Declaration}
    (chain : List.IsChain registry.HasParent (raw :: (between ++ [last]))) :
    ∃ above, ((given raw.parent).map ClassName.clean).elim [] (lineageOf registry grounded) =
      between ++ last :: above := by
  induction between generalizing raw with
  | nil =>
    obtain ⟨name, parent, named, found⟩ := (List.isChain_cons_cons.mp chain).1
    have loaded : Keyed.find? (ClassName.key name) registry.entries = some last := found
    rw [parent, Option.elim_some, lineageOf_eq _ named, loaded, Option.elim_some]
    exact ⟨_, rfl⟩
  | cons next rest inductionHypothesis =>
    obtain ⟨⟨name, parent, named, found⟩, further⟩ := List.isChain_cons_cons.mp chain
    have loaded : Keyed.find? (ClassName.key name) registry.entries = some next := found
    obtain ⟨above, same⟩ := inductionHypothesis further
    rw [parent, Option.elim_some, lineageOf_eq _ named, loaded, Option.elim_some, same]
    exact ⟨above, rfl⟩

/-- The youngest heir looks for inherited words in the heirs above it, then in the base, and
then further up. -/
theorem Resolver.Descent.overridden {raw : Source.Declaration}
    (descent : resolver.Descent method (raw :: heirs) base origin)
    (grounded : WellFounded (flip resolver.registry.Needs)) {member : Source.Method}
    (named : member.name = method) :
    ∃ above, Declared.overridden resolver.registry grounded ⟨raw, member⟩ =
      heirs.flatMap (methodsNamed method) ++ (methodsNamed method base ++ above) := by
  obtain ⟨above, upwards⟩ := lineageOf_chain grounded descent.chain
  obtain ⟨next, rest, front⟩ : ∃ next rest, heirs ++ [base] = next :: rest :=
    List.exists_cons_of_ne_nil (by simp)
  have chain := descent.chain
  rw [List.cons_append, front] at chain
  obtain ⟨parent, known, present, -⟩ := (List.isChain_cons_cons.mp chain).1
  have alone : ancestors raw = [parent] := by
    rw [ancestors, descent.interfaces raw List.mem_cons_self, known]
    simp [given, Option.filter, present]
  rw [known, Option.elim_some] at upwards
  refine ⟨above.flatMap (methodsNamed method), ?_⟩
  rw [Declared.overridden, alone, List.flatMap_singleton, methodsAlong, named, upwards,
    List.flatMap_append, List.flatMap_cons]

/-- The youngest heir takes inherited words from the method of an heir above it, or else from
the origin. -/
theorem Resolver.Descent.source? {raw : Source.Declaration}
    (descent : resolver.Descent method (raw :: heirs) base origin)
    (grounded : WellFounded (flip resolver.registry.Needs)) {member : Source.Method}
    (named : member.name = method)
    (tags : Declared.tags resolver.rules ⟨raw, member⟩ = inheritTags) :
    ∃ source, Declared.source? resolver.rules resolver.registry grounded ⟨raw, member⟩ =
        some source ∧
      (source = ⟨base, origin⟩ ∨ ∃ newer between, heirs = newer ++ source.raw :: between ∧
        source.member ∈ source.raw.methods ∧ source.member.name = method) := by
  obtain ⟨above, overridden⟩ := descent.overridden grounded named
  have asks : Comment.inheritsWords inheritTags = true := by decide +kernel
  have kept : Declared.isKept resolver.rules ⟨base, origin⟩ = true := admits_iff.mp descent.kept
  have last : methodsNamed method base = [⟨base, origin⟩] := by
    rw [methodsNamed, descent.declared, List.map_singleton]
  rw [Declared.source?, tags, if_pos asks, overridden, List.find?_append]
  cases nearest : (heirs.flatMap (methodsNamed method)).find? (·.isKept resolver.rules) with
  | none =>
    refine ⟨⟨base, origin⟩, ?_, .inl rfl⟩
    rw [Option.none_or, last, List.singleton_append, List.find?_cons_of_pos kept]
  | some source =>
    refine ⟨source, rfl, .inr ?_⟩
    obtain ⟨older, heir, among⟩ := List.mem_flatMap.mp (List.mem_of_find?_eq_some nearest)
    obtain ⟨other, selected, rfl⟩ := List.mem_map.mp among
    obtain ⟨newer, between, split⟩ := List.append_of_mem heir
    obtain ⟨listed, called⟩ := List.mem_filter.mp selected
    exact ⟨newer, between, split, listed, by simpa using called⟩

/-- Every heir with the method carries what the origin says, apart from the parameters that it
or an heir between them leaves out. The induction goes from the base down to the youngest
heir, which takes its words from one of those above it. -/
theorem Resolver.Descent.carries (descent : resolver.Descent method heirs base origin)
    (grounded : WellFounded (flip resolver.registry.Needs))
    {newer between : List Source.Declaration}
    {raw : Source.Declaration} (split : heirs = newer ++ raw :: between) {member : Source.Method}
    (listed : member ∈ raw.methods) (named : member.name = method) :
    Carries (Declared.plain resolver.rules resolver.registry grounded ⟨base, origin⟩)
      (AllDeclare method (raw :: between))
      (Declared.plain resolver.rules resolver.registry grounded ⟨raw, member⟩) := by
  induction heirs generalizing newer raw between member with
  | nil => simp at split
  | cons youngest rest inductionHypothesis =>
    cases newer with
    | cons first newer =>
      obtain ⟨rfl, further⟩ := List.cons_eq_cons.mp split
      exact inductionHypothesis descent.tail further listed named
    | nil =>
      obtain ⟨rfl, rfl⟩ := List.cons_eq_cons.mp split
      have marked := (descent.marked youngest List.mem_cons_self member listed named).2
      have tags : Declared.tags resolver.rules ⟨youngest, member⟩ = inheritTags :=
        Declared.tags_of_inheritDoc marked
      obtain ⟨source, taken, nearest⟩ := descent.source? grounded named tags
      rw [Declared.plain_eq grounded ⟨youngest, member⟩, taken, Option.map_some, tags]
      have own (name : Text) (all : AllDeclare method (youngest :: rest) name) :
          member.Declares name := all youngest List.mem_cons_self member listed named
      rcases nearest with rfl | ⟨newer, between, split, listed, named⟩
      · have distinct : ((Declared.plain resolver.rules resolver.registry grounded
            ⟨base, origin⟩).parameters.map (·.name)).Nodup :=
          nodup_parameterNames (Declared.plain_presents grounded ⟨base, origin⟩) descent.distinct
        exact ((Carries.refl distinct fun _ => True).marked youngest member).mono
          fun name all => ⟨trivial, own name all⟩
      · have reached := inductionHypothesis descent.tail split listed named
        refine (reached.marked youngest member).mono fun name all => ⟨?_, own name all⟩
        intro raw heir
        refine all raw (List.mem_cons_of_mem youngest ?_)
        rw [split]
        exact List.mem_append_right newer heir

/-- A type that keeps its only method of a name is documented with this method. -/
theorem Resolver.showsOne (acyclic : resolver.registry.Acyclic) {raw : Source.Declaration}
    {member : Source.Method} (alone : raw.methods.filter (·.name == method) = [member])
    (kept : Admits resolver.rules raw member) :
    resolver.ShowsOne raw method
      (Declared.plain resolver.rules resolver.registry acyclic.wellFounded ⟨raw, member⟩) := by
  intro name loaded
  refine ⟨_, fun queries => resolver.resolve_plain acyclic loaded queries, ?_⟩
  have isKept : Declared.isKept resolver.rules ⟨raw, member⟩ = true := admits_iff.mp kept
  have selected :
      (raw.methods.filter fun other => Declared.isKept resolver.rules ⟨raw, other⟩).filter
        (·.name == method) = [member] := by
    rw [List.filter_comm, alone]
    exact List.filter_cons_of_pos isKept
  have named : (fun documented : Documented.Method => documented.name == method) ∘
      (fun other => Declared.plain resolver.rules resolver.registry acyclic.wellFounded
        ⟨raw, other⟩) = fun other => other.name == method := rfl
  rw [documentType, shownMethods, List.filter_map, named, selected, List.map_singleton]

end Descent

/-- **Inherited words reach any distance.** In a hierarchy without cycles, let a type keep its
only method of a name, and let the types of a line of descent from it, of any length,
implement nothing and have at most one method of this name each, which is kept and has no
comment but the mark for inherited words. Then the type and each heir that has the method are
documented with exactly one, whatever was asked before. That of the heir carries the words of
that of the type, its return type if it is not empty, and the types and descriptions of those
parameters which the heir and all methods in between declare. -/
theorem Resolver.Descent.inherits (resolver : Resolver) (acyclic : resolver.registry.Acyclic)
    (method : Text) (heirs : List Source.Declaration) (base : Source.Declaration)
    (origin : Source.Method) (descent : resolver.Descent method heirs base origin) :
    ∃ source, resolver.ShowsOne base method source ∧
      ∀ newer raw between, heirs = newer ++ raw :: between →
        (∃ member ∈ raw.methods, member.name = method) →
        ∃ carried, resolver.ShowsOne raw method carried ∧
          Carries source (AllDeclare method (raw :: between)) carried := by
  refine ⟨_, Resolver.showsOne acyclic descent.declared descent.kept, ?_⟩
  rintro newer raw between split ⟨member, listed, named⟩
  have heir : raw ∈ heirs := by simp [split]
  have alone : raw.methods.filter (·.name == method) = [member] := by
    have among : member ∈ raw.methods.filter (·.name == method) :=
      List.mem_filter.mpr ⟨listed, beq_iff_eq.mpr named⟩
    obtain ⟨only, same⟩ := List.length_eq_one_iff.mp
      (Nat.le_antisymm (descent.single raw heir) (List.length_pos_of_mem among))
    rw [same, List.mem_singleton] at among
    rw [same, among]
  exact ⟨_, Resolver.showsOne acyclic alone (descent.marked raw heir member listed named).1,
    descent.carries acyclic.wellFounded split listed named⟩

/-- A method that rises, with two parameters, one of which is documented with a type. -/
def Tides.rise : Source.Method where
  name := "rise".toList
  comment := "/** Rises.\n * @param int $depth How deep.\n * @return bool\n */".toList
  parameters := [{ name := "$depth".toList }, { name := "$speed".toList }]

/-- The method in an heir, with the mark for inherited words as its comment. -/
def Tides.marked (parameters : List String) : Source.Method where
  name := "rise".toList
  comment := "/**\n * \x7b@inheritDoc\x7d\n */".toList
  parameters := parameters.map fun name => { name := name.toList }

/-- The type that all heirs descend from. It names a parent that is not loaded. -/
def Tides.sea : Source.Declaration where
  name := "Sea".toList
  parent := some "Ocean".toList
  methods := [Tides.rise]

/-- An heir without the method. -/
def Tides.bay : Source.Declaration where
  name := "Bay".toList
  parent := some "Sea".toList

/-- An heir that leaves out the second parameter. -/
def Tides.cove : Source.Declaration where
  name := "Cove".toList
  parent := some "\\Bay".toList
  methods := [Tides.marked ["$depth"]]

/-- The youngest heir, which has both parameters. -/
def Tides.creek : Source.Declaration where
  name := "Creek".toList
  parent := some "COVE".toList
  methods := [Tides.marked ["$depth", "$speed"]]

/-- The four types. -/
def tides : Resolver where
  registry := {
    entries := [
      ("creek".toList, Tides.creek),
      ("cove".toList, Tides.cove),
      ("bay".toList, Tides.bay),
      ("sea".toList, Tides.sea)] }

/-- Parents have smaller ranks, so there is no cycle. -/
theorem tides_acyclic : tides.registry.Acyclic :=
  Registry.acyclic_of_rank
    (fun key => if key = "creek".toList then 3 else if key = "cove".toList then 2
      else if key = "bay".toList then 1 else 0)
    (by decide)

/-- The creek descends from the sea over the cove and the bay. -/
theorem tides_descent :
    tides.Descent "rise".toList [Tides.creek, Tides.cove, Tides.bay] Tides.sea Tides.rise where
  chain := by
    refine .cons_cons ⟨"COVE".toList, ?_⟩ (.cons_cons ⟨"Bay".toList, ?_⟩
      (.cons_cons ⟨"Sea".toList, ?_⟩ (.singleton _))) <;> decide
  interfaces := by decide
  declared := by decide
  kept := by decide +kernel
  distinct := by decide
  single := by decide
  marked := by decide +kernel

/-- The method of the creek rises as that of the sea does, and its first parameter is an
integer as there. -/
theorem tides_creek_inherits :
    tides.registry.Acyclic ∧
    tides.Descent "rise".toList [Tides.creek, Tides.cove, Tides.bay] Tides.sea Tides.rise ∧
    ∃ carried, tides.ShowsOne Tides.creek "rise".toList carried ∧
      carried.prose.description = "Rises.".toList ∧
      carried.returnType = some "bool".toList ∧
      ∀ shown ∈ carried.parameters, shown.name = "$depth".toList →
        shown.type = "int".toList ∧ shown.description = "How deep.".toList := by
  refine ⟨tides_acyclic, tides_descent, ?_⟩
  obtain ⟨source, original, handed⟩ := Resolver.Descent.inherits tides tides_acyclic
    "rise".toList [Tides.creek, Tides.cove, Tides.bay] Tides.sea Tides.rise tides_descent
  obtain ⟨carried, shown, carries⟩ := handed [] Tides.creek [Tides.cove, Tides.bay] rfl
    ⟨_, List.mem_cons_self, rfl⟩
  obtain ⟨entity, documents, only⟩ := original "Sea".toList (by decide)
  have evaluated : (tides.resolve "Sea".toList {}).1.toOption.map (fun entity =>
      (entity.methods.filter (·.name == "rise".toList)).map fun method =>
        (method.prose.description, method.returnType, method.parameters.head?)) =
      some [("Rises.".toList, some "bool".toList, some
        { name := "$depth".toList, type := "int".toList
          description := "How deep.".toList })] := by
    decide +kernel
  rw [show (tides.resolve "Sea".toList {}).1 = .ok entity from documents []] at evaluated
  simp only [Except.toOption, Option.map_some, only, List.map_cons, List.map_nil,
    Option.some.injEq, List.cons.injEq, Prod.mk.injEq, and_true] at evaluated
  obtain ⟨described, returned, first⟩ := evaluated
  refine ⟨carried, shown, carries.description.trans described,
    carries.returnType _ returned (by decide), ?_⟩
  have declared : AllDeclare "rise".toList [Tides.creek, Tides.cove, Tides.bay]
      "$depth".toList := by
    unfold AllDeclare Source.Method.Declares
    decide
  have depth := carries.parameters _ (List.mem_of_mem_head? first) declared
  exact depth.2

end Docblock
