import Docblock.Proofs.Comment.WellTyped
import Mathlib.Data.List.Induction

/-!
# Entries apart from running text

Parameter lines and reference lines are entries of their own. They may stand anywhere in a
comment, also in the middle of a tag or of example code: what the other lines make is the same
without them, and what they make is the same without the other lines. A tag map is therefore
looked at through a class of names, and each step of the reading is followed in what is left
of the map.

The places of the two tags of entries among the others are not covered: they do depend on both
kinds of lines.
-/

namespace Docblock.Comment

/-- The tags under which entries are kept. -/
def isEntryTag (name : Text) : Bool := name == parameterTag || name == referenceTag

/-- The tags under which running text is kept. -/
def isRunningTag (name : Text) : Bool := !isEntryTag name

/-- Whether the first word of a line is one of the tags of entries. -/
def isEntryLine (line : Text) : Bool :=
  (Text.words line).head?.any fun word => word == '@' :: parameterTag || word == '@' :: referenceTag

/-- The parameter that a line documents, if it is a parameter line that says something. -/
def parameterIn? (builtIns : List Text) (scope : Scope) (line : Text) : Option ParameterTag :=
  if (Text.words line).head? = some ('@' :: parameterTag) then
    parameterOf? builtIns scope (Text.words line)
  else none

/-- The reference that a line makes, if it is a reference line that says something. -/
def referenceIn? (line : Text) : Option Text :=
  if (Text.words line).head? = some ('@' :: referenceTag) then referenceOf? (Text.words line)
  else none

/-- Documented parameters entered one after another. -/
def enterAll (documented : List ParameterTag) : Keyed ParameterTag :=
  documented.foldl (fun entries entry => Keyed.put entry.name entry entries) []

variable {builtIns : List Text} {scope : Scope}

/-- An entry line is a parameter line or a reference line. -/
theorem isEntryLine_iff {line : Text} :
    isEntryLine line = true ↔ kindOf line = .parameter ∨ kindOf line = .reference := by
  rw [kindOf_eq_parameter_iff, kindOf_eq_reference_iff, isEntryLine]
  cases (Text.words line).head? <;> simp

/-- A line that documents a parameter makes no reference. -/
theorem referenceIn?_eq_none {line : Text} {entry : ParameterTag}
    (documents : parameterIn? builtIns scope line = some entry) : referenceIn? line = none := by
  rw [parameterIn?] at documents
  split at documents
  · rename_i first
    rw [referenceIn?, first]
    exact if_neg (by decide)
  · cases documents

/-- One more parameter is entered into those before it. -/
theorem enterAll_concat (earlier : List ParameterTag) (entry : ParameterTag) :
    enterAll (earlier ++ [entry]) = Keyed.put entry.name entry (enterAll earlier) := by
  rw [enterAll, List.foldl_append]
  rfl

/-- The last of the parameters that were entered under a name is found. -/
theorem find?_enterAll (documented : List ParameterTag) (name : Text) :
    Keyed.find? name (enterAll documented) = documented.reverse.find? (·.name == name) := by
  induction documented using List.reverseRecOn with
  | nil => rfl
  | append_singleton earlier entry inductionHypothesis =>
    rw [enterAll_concat, List.reverse_append, List.reverse_singleton, List.singleton_append,
      List.find?_cons]
    cases same : entry.name == name with
    | true =>
      obtain rfl : entry.name = name := by simpa using same
      exact Keyed.find?_put_same _ _ _
    | false =>
      have different : name ≠ entry.name := Ne.symm (by simpa using same)
      rw [Keyed.find?_put_other _ _ _ _ different]
      exact inductionHypothesis

/-- The names under which parameters were entered are in the order in which they first came. -/
theorem keys_enterAll (documented : List ParameterTag) :
    Keyed.keys (enterAll documented) = (documented.map (·.name)).eraseDups := by
  induction documented using List.reverseRecOn with
  | nil => rfl
  | append_singleton earlier entry inductionHypothesis =>
    rw [enterAll_concat, Keyed.keys_put, inductionHypothesis, List.map_append,
      List.eraseDups_append]
    by_cases known : entry.name ∈ earlier.map (·.name)
    · have nothingNew : [entry.name].removeAll (earlier.map (·.name)) = [] := by
        rw [List.removeAll, List.filter_cons_of_neg (by simpa using known), List.filter_nil]
      rw [if_pos (List.mem_eraseDups.mpr known), List.map_singleton, nothingNew,
        List.eraseDups_nil, List.append_nil]
    · have allNew : [entry.name].removeAll (earlier.map (·.name)) = [entry.name] := by
        rw [List.removeAll, List.filter_cons_of_pos (by simpa using known), List.filter_nil]
      rw [if_neg (fun listed => known (List.mem_eraseDups.mp listed)), List.map_singleton, allNew]
      rfl

/-- The parameters of tags under which those that were documented are found, if any were. -/
theorem parametersOf_of_find? {tags : Tags} {documented : List ParameterTag}
    (found : Keyed.find? parameterTag tags =
      if documented = [] then none else some (.parameters (enterAll documented))) :
    parametersOf tags = enterAll documented := by
  rw [parametersOf, found]
  by_cases nothing : documented = []
  · rw [if_pos nothing, nothing]
    rfl
  · rw [if_neg nothing]

/-- The references of tags under which those that were made are found, if any were. -/
theorem referencesOf_of_find? {tags : Tags} {referred : List Text}
    (found : Keyed.find? referenceTag tags =
      if referred = [] then none else some (.references referred)) :
    referencesOf tags = referred := by
  rw [referencesOf, found]
  by_cases nothing : referred = []
  · rw [if_pos nothing, nothing]
  · rw [if_neg nothing]

/-- A tag that a line takes in hand is one of running text. -/
theorem isRunningTag_of_opening {line name : Text} (kind : kindOf line = .opening name) :
    isRunningTag name = true := by
  obtain ⟨notParameter, notReference⟩ := opens_running kind
  simp [isRunningTag, isEntryTag, notParameter, notReference]

namespace TagState

/-- What a reading leaves of its tags when only those of a class are looked at. -/
def only (keep : Text → Bool) (state : TagState) : TagState :=
  { state with tags := state.tags.filter (keep ·.1) }

@[simp]
theorem current_only (keep : Text → Bool) (state : TagState) :
    (state.only keep).current = state.current := rfl

section Steps

variable {keep : Text → Bool} {state : TagState}

/-- A tag that is looked at has the same running text. -/
theorem textOf_only {name : Text} (kept : keep name = true) (state : TagState) :
    textOf name (state.only keep).tags = textOf name state.tags := by
  rw [textOf, only, Keyed.find?_filter kept]
  rfl

/-- Extending a tag in hand that is looked at. -/
theorem only_extend (kept : keep state.current = true) (addition : Text) :
    (state.extend addition).only keep = (state.only keep).extend addition := by
  have same : Keyed.find? (state.only keep).current (state.only keep).tags =
      Keyed.find? state.current state.tags := Keyed.find?_filter kept _
  rw [extend, extend, same]
  split
  · simp [only, Keyed.filter_put_kept kept]
  · rfl

/-- Extending a tag in hand that is not looked at. -/
theorem tags_only_extend (dropped : keep state.current = false) (addition : Text) :
    ((state.extend addition).only keep).tags = (state.only keep).tags := by
  rw [extend]
  split
  · exact Keyed.filter_put_dropped dropped _ _
  · rfl

/-- Taking a tag in hand that is looked at. -/
theorem only_take {name : Text} (kept : keep name = true) (state : TagState)
    (words : List Text) :
    (state.take name words).only keep = (state.only keep).take name words := by
  rw [take, take, textOf_only kept]
  simp [only, Keyed.filter_put_kept kept]

/-- Adding a parameter when the tag of parameters is looked at. -/
theorem only_addParameter (kept : keep parameterTag = true) (state : TagState)
    (entry : ParameterTag) :
    (state.addParameter entry).only keep = (state.only keep).addParameter entry := by
  have same : parametersOf (state.only keep).tags = parametersOf state.tags := by
    rw [parametersOf, only, Keyed.find?_filter kept]
    rfl
  rw [addParameter, addParameter, same]
  simp [only, Keyed.filter_put_kept kept]

/-- Adding a reference when the tag of references is looked at. -/
theorem only_addReference (kept : keep referenceTag = true) (state : TagState)
    (reference : Text) :
    (state.addReference reference).only keep = (state.only keep).addReference reference := by
  have same : referencesOf (state.only keep).tags = referencesOf state.tags := by
    rw [referencesOf, only, Keyed.find?_filter kept]
    rfl
  rw [addReference, addReference, same]
  simp [only, Keyed.filter_put_kept kept]

end Steps

variable {state : TagState}

/-- The tag in hand is none of those of entries. -/
theorem IsSound.isEntryTag_current (sound : state.IsSound) :
    isEntryTag state.current = false := by
  obtain ⟨content, found⟩ := sound.current
  obtain ⟨notParameter, notReference⟩ := (sound.wellTyped.fits_of_find? found).other
  simp [isEntryTag, notParameter, notReference]

/-- An entry line adds the parameter or the reference that it holds, if it holds one. -/
theorem addLine_of_entry {line : Text} (entry : isEntryLine line = true) (state : TagState) :
    state.addLine builtIns scope line =
      (parameterIn? builtIns scope line).elim
        ((referenceIn? line).elim state state.addReference) state.addParameter := by
  rw [addLine_eq, parameterIn?, referenceIn?]
  simp only [← kindOf_eq_parameter_iff, ← kindOf_eq_reference_iff]
  rcases isEntryLine_iff.mp entry with kind | kind
  · simp [kind]
  · simp [kind]

/-- An entry line does nothing to running text. -/
theorem only_running_of_entry {line : Text} (entry : isEntryLine line = true) (state : TagState) :
    (state.addLine builtIns scope line).only isRunningTag = state.only isRunningTag := by
  have notParameters : isRunningTag parameterTag = false := by decide
  have notReferences : isRunningTag referenceTag = false := by decide
  rw [addLine_of_entry entry]
  cases parameterIn? builtIns scope line with
  | some entry => exact congrArg (TagState.mk _) (Keyed.filter_put_dropped notParameters _ _)
  | none =>
    cases referenceIn? line with
    | some reference => exact congrArg (TagState.mk _) (Keyed.filter_put_dropped notReferences _ _)
    | none => rfl

/-- Any other line does to running text what it does without the entries. -/
theorem only_running_of_other (sound : state.IsSound) {line : Text}
    (other : isEntryLine line = false) :
    (state.addLine builtIns scope line).only isRunningTag =
      (state.only isRunningTag).addLine builtIns scope line := by
  have current : isRunningTag state.current = true := by
    simp [isRunningTag, sound.isEntryTag_current]
  have examples : isRunningTag exampleTag = true := by decide
  rw [addLine_eq, addLine_eq]
  cases kind : kindOf line with
  | empty =>
    dsimp only
    rw [textOf_only examples, current_only]
    split
    · exact only_extend current _
    · rfl
  | plain => exact only_extend current _
  | parameter => simp [isEntryLine_iff.mpr (.inl kind)] at other
  | reference => simp [isEntryLine_iff.mpr (.inr kind)] at other
  | opening name => exact only_take (isRunningTag_of_opening kind) _ _

/-- An entry line does to the entries what it does without running text. -/
theorem only_entries_of_entry {line : Text} (entry : isEntryLine line = true)
    (state : TagState) :
    (state.addLine builtIns scope line).only isEntryTag =
      (state.only isEntryTag).addLine builtIns scope line := by
  rw [addLine_of_entry entry, addLine_of_entry entry]
  cases parameterIn? builtIns scope line with
  | some entry => exact only_addParameter rfl _ _
  | none =>
    cases referenceIn? line with
    | some reference => exact only_addReference rfl _ _
    | none => rfl

/-- Any other line does nothing to the entries. -/
theorem tags_only_entries_of_other (sound : state.IsSound) {line : Text}
    (other : isEntryLine line = false) :
    ((state.addLine builtIns scope line).only isEntryTag).tags = (state.only isEntryTag).tags := by
  have current := sound.isEntryTag_current
  rw [addLine_eq]
  cases kind : kindOf line with
  | empty =>
    dsimp only
    split
    · exact tags_only_extend current _
    · rfl
  | plain => exact tags_only_extend current _
  | parameter => simp [isEntryLine_iff.mpr (.inl kind)] at other
  | reference => simp [isEntryLine_iff.mpr (.inr kind)] at other
  | opening name =>
    have dropped : isEntryTag name = false := by
      simpa [isRunningTag] using isRunningTag_of_opening kind
    exact Keyed.filter_put_dropped dropped _ _

/-- What an entry line does to the tags does not depend on the tag in hand. -/
theorem tags_addLine_congr {line : Text} (entry : isEntryLine line = true) {other : TagState}
    (same : state.tags = other.tags) :
    (state.addLine builtIns scope line).tags = (other.addLine builtIns scope line).tags := by
  rw [addLine_of_entry entry, addLine_of_entry entry]
  cases parameterIn? builtIns scope line with
  | some entry => simp only [Option.elim_some, addParameter, same]
  | none =>
    cases referenceIn? line with
    | some reference => simp only [Option.elim_some, Option.elim_none, addReference, same]
    | none => exact same

/-- The running text of a reading is that of its other lines alone. -/
theorem only_running_addLines (sound : state.IsSound) (lines : List Text) :
    (lines.foldl (addLine builtIns scope) state).only isRunningTag =
      (lines.filter (!isEntryLine ·)).foldl (addLine builtIns scope) (state.only isRunningTag) := by
  induction lines generalizing state with
  | nil => rfl
  | cons line rest inductionHypothesis =>
    have after := (sound.addLine builtIns scope line).2
    rw [List.foldl_cons, inductionHypothesis after]
    cases entry : isEntryLine line with
    | true => rw [only_running_of_entry entry, List.filter_cons_of_neg (by simp [entry])]
    | false =>
      rw [only_running_of_other sound entry, List.filter_cons_of_pos (by simp [entry]),
        List.foldl_cons]

/-- The entries of a reading are those of its entry lines alone, whatever tag was in hand. -/
theorem tags_only_entries_addLines (sound : state.IsSound) {other : TagState}
    (same : (state.only isEntryTag).tags = (other.only isEntryTag).tags) (lines : List Text) :
    ((lines.foldl (addLine builtIns scope) state).only isEntryTag).tags =
      (((lines.filter isEntryLine).foldl (addLine builtIns scope) other).only isEntryTag).tags := by
  induction lines generalizing state other with
  | nil => exact same
  | cons line rest inductionHypothesis =>
    have after := (sound.addLine builtIns scope line).2
    rw [List.foldl_cons]
    cases entry : isEntryLine line with
    | true =>
      rw [List.filter_cons_of_pos entry, List.foldl_cons]
      refine inductionHypothesis after ?_
      rw [only_entries_of_entry entry, only_entries_of_entry entry]
      exact tags_addLine_congr entry same
    | false =>
      rw [List.filter_cons_of_neg (by simp [entry])]
      exact inductionHypothesis after ((tags_only_entries_of_other sound entry).trans same)

/-- What entry lines leave: the documented parameters, entered one after another, and the
references. The induction is on the lines from the last one. -/
theorem find?_addLines (lines : List Text) (entries : ∀ line ∈ lines, isEntryLine line = true) :
    let tags := (lines.foldl (addLine builtIns scope) {}).tags
    let documented := lines.filterMap (parameterIn? builtIns scope)
    let referred := lines.filterMap referenceIn?
    Keyed.find? parameterTag tags =
        (if documented = [] then none else some (.parameters (enterAll documented))) ∧
      Keyed.find? referenceTag tags =
        (if referred = [] then none else some (.references referred)) := by
  induction lines using List.reverseRecOn with
  | nil => exact ⟨rfl, rfl⟩
  | append_singleton earlier line inductionHypothesis =>
    obtain ⟨parameters, references⟩ := inductionHypothesis fun other member =>
      entries other (List.mem_append_left _ member)
    have isEntry := entries line (List.mem_append_right _ List.mem_cons_self)
    dsimp only at parameters references ⊢
    rw [List.foldl_append, List.foldl_cons, List.foldl_nil, addLine_of_entry isEntry,
      List.filterMap_append, List.filterMap_append]
    cases documents : parameterIn? builtIns scope line with
    | some entry =>
      rw [List.filterMap_cons_some documents,
        List.filterMap_cons_none (referenceIn?_eq_none documents)]
      refine ⟨?_, ?_⟩
      · rw [Option.elim_some, addParameter, Keyed.find?_put_same,
          parametersOf_of_find? parameters, ← enterAll_concat]
        simp
      · rw [Option.elim_some, addParameter, Keyed.find?_put_other _ _ _ _ (by decide), references]
        simp
    | none =>
      rw [List.filterMap_cons_none documents, List.filterMap_nil, List.append_nil]
      cases refers : referenceIn? line with
      | some reference =>
        rw [List.filterMap_cons_some refers]
        refine ⟨?_, ?_⟩
        · rw [Option.elim_none, Option.elim_some, addReference,
            Keyed.find?_put_other _ _ _ _ (by decide), parameters]
        · rw [Option.elim_none, Option.elim_some, addReference, Keyed.find?_put_same,
            referencesOf_of_find? references]
          simp
      | none =>
        rw [List.filterMap_cons_none refers, List.filterMap_nil, List.append_nil]
        exact ⟨parameters, references⟩

end TagState

/-- The tags of a class in a comment are those that the reading leaves of it, trimmed. -/
theorem filter_tagsOfLines (keep : Text → Bool) (lines : List Text) :
    (tagsOfLines builtIns scope lines).filter (keep ·.1) =
      ((lines.foldl (TagState.addLine builtIns scope) {}).only keep).tags.map
        fun (name, value) => (name, value.trimmed) := by
  rw [tagsOfLines, List.filter_map]
  rfl

/-- A tag of entries holds what the entry lines alone leave under it, trimmed. -/
theorem find?_tagsOfLines {name : Text} (ofEntries : isEntryTag name = true) (lines : List Text) :
    Keyed.find? name (tagsOfLines builtIns scope lines) =
      (Keyed.find? name ((lines.filter isEntryLine).foldl
        (TagState.addLine builtIns scope) {}).tags).map TagValue.trimmed := by
  calc Keyed.find? name (tagsOfLines builtIns scope lines)
    _ = Keyed.find? name ((tagsOfLines builtIns scope lines).filter (isEntryTag ·.1)) :=
        (Keyed.find?_filter ofEntries _).symm
    _ = (Keyed.find? name ((lines.foldl (TagState.addLine builtIns scope) {}).only
          isEntryTag).tags).map TagValue.trimmed := by
        rw [filter_tagsOfLines, Keyed.find?_mapValues]
    _ = _ := by
        rw [TagState.tags_only_entries_addLines TagState.IsSound.start rfl, TagState.only,
          Keyed.find?_filter ofEntries]

/-- References that lines make are trimmed already. -/
theorem map_trim_references (lines : List Text) :
    (lines.filterMap referenceIn?).map Text.trim = lines.filterMap referenceIn? := by
  refine List.map_congr_left (fun reference made => ?_) |>.trans (List.map_id _)
  obtain ⟨line, -, makes⟩ := List.mem_filterMap.mp made
  rw [referenceIn?] at makes
  split at makes
  · exact (isClear_of_referenceOf? makes).2.trimWhile_eq
  · cases makes

/-- **Entries stand apart from running text.** Without its parameter lines and reference lines a
comment has the same tags but for the two tags of entries, with the same contents and in the
same order, wherever those lines stood. The two tags of entries are those of their lines alone.
References are kept in the order of their lines; parameters are kept in the order in which they
were first documented, each as its last line has it. -/
theorem tagsOfLines_apart (builtIns : List Text) (scope : Scope) (lines : List Text) :
    let all := tagsOfLines builtIns scope lines
    let removed := lines.filter isEntryLine
    let documented := removed.filterMap (parameterIn? builtIns scope)
    let referred := removed.filterMap referenceIn?
    tagsOfLines builtIns scope (lines.filter (!isEntryLine ·)) =
      all.filter (isRunningTag ·.1) ∧
    all.filter (isEntryTag ·.1) =
      (tagsOfLines builtIns scope removed).filter (isEntryTag ·.1) ∧
    (∃ entries,
      Keyed.find? parameterTag all =
        (if documented = [] then none else some (.parameters entries)) ∧
      Keyed.keys entries = (documented.map (·.name)).eraseDups ∧
      ∀ name, Keyed.find? name entries =
        (documented.reverse.find? (·.name == name)).map ParameterTag.trimmed) ∧
    Keyed.find? referenceTag all =
      (if referred = [] then none else some (.references referred)) := by
  intro all removed documented referred
  obtain ⟨parameters, references⟩ :=
    @TagState.find?_addLines builtIns scope removed
      fun line listed => (List.mem_filter.mp listed).2
  have ofParameters : isEntryTag parameterTag = true := by decide
  have ofReferences : isEntryTag referenceTag = true := by decide
  refine ⟨?_, ?_, ⟨trimmedEntries (enterAll documented), ?_, ?_, ?_⟩, ?_⟩
  · rw [filter_tagsOfLines, TagState.only_running_addLines TagState.IsSound.start]
    rfl
  · rw [filter_tagsOfLines, filter_tagsOfLines,
      TagState.tags_only_entries_addLines TagState.IsSound.start rfl,
      TagState.tags_only_entries_addLines TagState.IsSound.start rfl removed, List.filter_filter]
  · rw [find?_tagsOfLines ofParameters, parameters, apply_ite (Option.map TagValue.trimmed)]
    rfl
  · rw [trimmedEntries, Keyed.keys_mapValues, keys_enterAll]
  · intro name
    rw [trimmedEntries, Keyed.find?_mapValues, find?_enterAll]
  · rw [find?_tagsOfLines ofReferences, references, apply_ite (Option.map TagValue.trimmed),
      Option.map_none, Option.map_some, TagValue.trimmed, map_trim_references]

end Docblock.Comment
