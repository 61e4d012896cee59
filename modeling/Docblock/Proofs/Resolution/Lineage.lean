import Docblock.Proofs.Resolution.Plain

/-!
# Where inherited words come from

A method that asks for inherited words takes them from a method of its name in an
ancestor: the interfaces of its type are tried in order, then the parent, and each
of these is followed upwards from parent to parent. In a hierarchy without cycles
the declared methods that this search may come to form a list. The list depends on
the declarations alone; the rules only decide which of its methods is the first
that is documented, and that one is the source of the inherited words.
-/

namespace Docblock.Resolve

variable {rules : Rules} {registry : Registry}

/-- The declarations from the one under a key upwards, from parent to parent. -/
def lineage (registry : Registry) (grounded : WellFounded (flip registry.Needs)) (key : Text) :
    List Source.Declaration :=
  match _loaded : Keyed.find? key registry.entries with
  | none => []
  | some raw =>
    raw :: (match _above : (given raw.parent).map ClassName.clean with
      | none => []
      | some parent =>
        if _reached : parent ≠ [] ∧ Keyed.has (ClassName.key parent) registry.entries then
          lineage registry grounded (ClassName.key parent)
        else [])
termination_by grounded.wrap key
decreasing_by
  exact ⟨raw, _loaded, parent, parent_mem_ancestors _above _reached.1, _reached.1, rfl, _reached.2⟩

/-- The declarations from the type that a name stands for upwards. -/
def lineageOf (registry : Registry) (grounded : WellFounded (flip registry.Needs)) (name : Text) :
    List Source.Declaration :=
  if name = [] then [] else lineage registry grounded (ClassName.key name)

/-- A key under which nothing is loaded has no lineage. -/
theorem lineage_of_absent (grounded : WellFounded (flip registry.Needs)) {key : Text}
    (absent : Keyed.find? key registry.entries = none) :
    lineage registry grounded key = [] := by
  rw [lineage]
  split
  · rfl
  · rename_i raw loaded
    rw [absent] at loaded
    exact nomatch loaded

/-- Following only names that stand for loaded types loses nothing. -/
theorem guarded_lineage (grounded : WellFounded (flip registry.Needs)) (name : Text) :
    (if name ≠ [] ∧ Keyed.has (ClassName.key name) registry.entries then
      lineage registry grounded (ClassName.key name) else []) =
      lineageOf registry grounded name := by
  by_cases missing : name = []
  · simp [lineageOf, missing]
  · cases loaded : Keyed.find? (ClassName.key name) registry.entries with
    | none => simp [lineageOf, missing, Keyed.has, loaded, lineage_of_absent]
    | some raw => simp [lineageOf, missing, Keyed.has, loaded]

/-- A lineage is a type with the lineage of its parent. -/
theorem lineageOf_eq (grounded : WellFounded (flip registry.Needs)) {name : Text}
    (named : name ≠ []) :
    lineageOf registry grounded name =
      (Keyed.find? (ClassName.key name) registry.entries).elim [] fun raw =>
        raw :: ((given raw.parent).map ClassName.clean).elim [] (lineageOf registry grounded) := by
  rw [lineageOf, if_neg named, lineage]
  split
  · rename_i absent
    simp [absent]
  · rename_i raw loaded
    rw [loaded, Option.elim_some]
    congr 1
    split
    · rename_i top
      simp [top]
    · rename_i parent above
      rw [above, Option.elim_some, dite_eq_ite, guarded_lineage]

/-- A method with the declaration it stands in. -/
structure Declared where
  raw : Source.Declaration
  member : Source.Method

/-- Whether a method is documented. -/
def Declared.isKept (rules : Rules) (declared : Declared) : Bool :=
  (keptTags? rules declared.raw declared.member).isSome

/-- The tags of the comment of a method. -/
def Declared.tags (rules : Rules) (declared : Declared) : Comment.Tags :=
  tagsIn rules declared.raw declared.member.comment

/-- A method that is documented is documented with the tags of its comment. -/
theorem Declared.keptTags?_eq (declared : Declared) :
    keptTags? rules declared.raw declared.member =
      if declared.isKept rules then some (declared.tags rules) else none := by
  by_cases shown : rules.filter.keeps declared.member.name
      (memberModifiers declared.raw declared.member) = true
  · by_cases ignored :
        Comment.isIgnored (tagsIn rules declared.raw declared.member.comment) = true <;>
      simp [isKept, tags, keptTags?, shown, ignored]
  · simp [isKept, keptTags?, shown]

/-- The methods of a name in a declaration. -/
def methodsNamed (method : Text) (raw : Source.Declaration) : List Declared :=
  (raw.methods.filter (·.name == method)).map (⟨raw, ·⟩)

/-- The methods of a name from a type upwards. -/
def methodsAlong (registry : Registry) (grounded : WellFounded (flip registry.Needs))
    (method name : Text) : List Declared :=
  (lineageOf registry grounded name).flatMap (methodsNamed method)

/-- The methods of the same name among the ancestors of a type, in the order in which
the search for inherited words comes to them. -/
def Declared.overridden (registry : Registry) (grounded : WellFounded (flip registry.Needs))
    (declared : Declared) : List Declared :=
  (ancestors declared.raw).flatMap (methodsAlong registry grounded declared.member.name)

/-- The method that a method takes inherited words from: if it asks for them, the first
one it overrides that is documented. -/
def Declared.source? (rules : Rules) (registry : Registry)
    (grounded : WellFounded (flip registry.Needs)) (declared : Declared) : Option Declared :=
  if Comment.inheritsWords (declared.tags rules) then
    (declared.overridden registry grounded).find? (·.isKept rules)
  else none

/-- Plain documentation of a method. -/
def Declared.plain (rules : Rules) (registry : Registry)
    (grounded : WellFounded (flip registry.Needs)) (declared : Declared) : Documented.Method :=
  documentMethod rules declared.raw declared.member (declared.tags rules)
    (plainInherited rules registry grounded declared.raw declared.member (declared.tags rules))

/-- The methods of a type in plain documentation are those of its declaration that are
kept. -/
theorem plainMethods_eq (grounded : WellFounded (flip registry.Needs))
    (raw : Source.Declaration) (members : List Source.Method) :
    plainMethods rules registry grounded raw members =
      (members.filter fun member => Declared.isKept rules ⟨raw, member⟩).map fun member =>
        Declared.plain rules registry grounded ⟨raw, member⟩ := by
  rw [plainMethods, ← List.filterMap_eq_map, List.filterMap_filter]
  congr 1
  funext member
  have kept := @Declared.keptTags?_eq rules ⟨raw, member⟩
  rw [kept]
  cases Declared.isKept rules ⟨raw, member⟩ <;> rfl

/-- The first method of a name in the plain documentation of a type is that of the
first declared one that is kept. -/
theorem find?_plainMethods (grounded : WellFounded (flip registry.Needs)) (method : Text)
    (raw : Source.Declaration) :
    (plainMethods rules registry grounded raw raw.methods).find? (·.name == method) =
      ((methodsNamed method raw).find? (·.isKept rules)).map
        (Declared.plain rules registry grounded) := by
  rw [plainMethods_eq, methodsNamed, List.find?_map, List.find?_map, List.find?_filter,
    List.find?_filter, Option.map_map]
  congr 1
  congr 1
  funext member
  exact decide_eq_decide.mpr and_comm

/-- The search from a type upwards finds the first method of the name that is kept. The
induction climbs the hierarchy. -/
theorem plainAlong_eq_find? (grounded : WellFounded (flip registry.Needs))
    (method name : Text) :
    plainAlong rules registry grounded method name =
      ((methodsAlong registry grounded method name).find? (·.isKept rules)).map
        (Declared.plain rules registry grounded) := by
  induction key : ClassName.key name using grounded.induction generalizing name with
  | _ key inductionHypothesis =>
  by_cases missing : name = []
  · simp [plainAlong, methodsAlong, lineageOf, missing]
  rw [plainAlong_eq _ _ missing, methodsAlong, lineageOf_eq _ missing, plainEntity_eq]
  cases loaded : Keyed.find? (ClassName.key name) registry.entries with
  | none => rfl
  | some raw =>
    simp only [Option.map_some, Option.bind_some, documentType, Option.elim_some,
      List.flatMap_cons, List.find?_append, Option.map_or, find?_plainMethods]
    congr 1
    cases above : (given raw.parent).map ClassName.clean with
    | none => rfl
    | some parent =>
      simp only [Option.bind_some, Option.elim_some]
      by_cases reached :
          parent ≠ [] ∧ Keyed.has (ClassName.key parent) registry.entries = true
      · refine inductionHypothesis (ClassName.key parent) ?_ parent rfl
        exact key ▸ ⟨raw, loaded, parent, parent_mem_ancestors above reached.1, reached.1, rfl,
          reached.2⟩
      · rw [← guarded_plainMethod, ← guarded_lineage, if_neg reached, if_neg reached]
        rfl

/-- The words that a method inherits are those of its source. -/
theorem plainInherited_eq (grounded : WellFounded (flip registry.Needs)) (declared : Declared) :
    plainInherited rules registry grounded declared.raw declared.member (declared.tags rules) =
      (declared.source? rules registry grounded).map (Declared.plain rules registry grounded) := by
  have along : plainAlong rules registry grounded declared.member.name =
      Option.map (Declared.plain rules registry grounded) ∘ fun name =>
        (methodsAlong registry grounded declared.member.name name).find? (·.isKept rules) :=
    funext (plainAlong_eq_find? grounded declared.member.name)
  rw [plainInherited, Declared.source?]
  by_cases asks : Comment.inheritsWords (declared.tags rules) = true
  · rw [if_pos asks, if_pos asks, Declared.overridden, List.find?_flatMap, List.map_findSome?,
      along]
  · rw [if_neg asks, if_neg asks, Option.map_none]

/-- Plain documentation of a method is made of its own declaration and comment and the
plain documentation of its source. -/
theorem Declared.plain_eq (grounded : WellFounded (flip registry.Needs)) (declared : Declared) :
    declared.plain rules registry grounded =
      documentMethod rules declared.raw declared.member (declared.tags rules)
        ((declared.source? rules registry grounded).map
          (Declared.plain rules registry grounded)) := by
  rw [plain, plainInherited_eq]

/-- Only a name that stands for a loaded type has a lineage. -/
theorem loaded_of_mem_lineageOf {grounded : WellFounded (flip registry.Needs)} {name : Text}
    {raw : Source.Declaration} (member : raw ∈ lineageOf registry grounded name) :
    name ≠ [] ∧ Keyed.has (ClassName.key name) registry.entries = true := by
  by_cases reached : name ≠ [] ∧ Keyed.has (ClassName.key name) registry.entries = true
  · exact reached
  · rw [← guarded_lineage, if_neg reached] at member
    cases member

/-- The declarations of a lineage are loaded, and each is needed by the one before. -/
theorem needs_of_mem_lineageOf {grounded : WellFounded (flip registry.Needs)} {name : Text}
    {raw : Source.Declaration} (member : raw ∈ lineageOf registry grounded name) :
    ∃ key, Keyed.find? key registry.entries = some raw ∧
      Relation.ReflTransGen registry.Needs (ClassName.key name) key := by
  induction same : ClassName.key name using grounded.induction generalizing name with
  | _ start inductionHypothesis =>
  obtain ⟨named, present⟩ := loaded_of_mem_lineageOf member
  obtain ⟨first, loaded⟩ := Option.isSome_iff_exists.mp present
  rw [lineageOf_eq _ named, loaded, Option.elim_some] at member
  rcases List.mem_cons.mp member with rfl | member
  · exact ⟨start, same ▸ loaded, .refl⟩
  · cases above : (given first.parent).map ClassName.clean with
    | none => simp [above] at member
    | some parent =>
      rw [above, Option.elim_some] at member
      obtain ⟨parentNamed, parentPresent⟩ := loaded_of_mem_lineageOf member
      have needs : registry.Needs start (ClassName.key parent) :=
        ⟨first, same ▸ loaded, parent, parent_mem_ancestors above parentNamed, parentNamed, rfl,
          parentPresent⟩
      obtain ⟨key, found, way⟩ := inductionHypothesis _ needs member rfl
      exact ⟨key, found, .head needs way⟩

/-- A method that another one overrides has its name and stands in a loaded type, which the
type of the other one needs. -/
theorem Declared.of_mem_overridden {grounded : WellFounded (flip registry.Needs)}
    {declared above : Declared} {key : Text}
    (loaded : Keyed.find? key registry.entries = some declared.raw)
    (member : above ∈ declared.overridden registry grounded) :
    above.member.name = declared.member.name ∧ ∃ aboveKey,
      Keyed.find? aboveKey registry.entries = some above.raw ∧
      Relation.TransGen registry.Needs key aboveKey := by
  obtain ⟨name, ancestor, along⟩ := List.mem_flatMap.mp member
  obtain ⟨raw, inLineage, named⟩ := List.mem_flatMap.mp along
  obtain ⟨method, selected, rfl⟩ := List.mem_map.mp named
  have sameName : method.name = declared.member.name := by
    simpa using (List.mem_filter.mp selected).2
  obtain ⟨missing, present⟩ := loaded_of_mem_lineageOf inLineage
  have needs : registry.Needs key (ClassName.key name) :=
    ⟨declared.raw, loaded, name, ancestor, missing, rfl, present⟩
  obtain ⟨aboveKey, found, way⟩ := needs_of_mem_lineageOf inLineage
  exact ⟨sameName, aboveKey, found, Relation.TransGen.head' needs way⟩

end Docblock.Resolve
