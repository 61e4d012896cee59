import Docblock.Proofs.Value.TextKeys
import Docblock.Value.Merge
import Mathlib.Data.List.Nodup

/-!
# Laying settings over settings

For settings that JSON can write, laying the same map over another one a second time changes
nothing. The keys that were there keep their places and the new ones follow in their order, also
in every map inside that both sides have. A list of built-in classes that both sides have, at
whatever depth, is the first list followed by the items of the second one that equal no earlier
item of either.

Equality of items is that of the document language, so the number one is not added where a truth
value is there already. Items that the first list repeats stay as they are.
-/

namespace Docblock.Value

section Joined

variable {items earlier more : List Value}

/-- The items of a list that equal no item of an earlier list and none before them. -/
def newItems (earlier : List Value) : List Value → List Value
  | [] => []
  | item :: rest =>
    if earlier.any (·.same item) then newItems (earlier ++ [item]) rest
    else item :: newItems (earlier ++ [item]) rest

/-- Joining a list with one more item in front. -/
theorem joined_cons (items : List Value) (item : Value) (rest : List Value) :
    joined items (item :: rest) =
      joined (if items.any (·.same item) then items else items ++ [item]) rest := rfl

/-- Nothing is joined to a list that has an equal item for each of the others. -/
theorem joined_eq_self (covered : ∀ item ∈ more, items.any (·.same item) = true) :
    joined items more = items := by
  induction more with
  | nil => rfl
  | cons item rest inductionHypothesis =>
    obtain ⟨first, others⟩ := List.forall_mem_cons.mp covered
    rw [joined_cons, if_pos first, inductionHypothesis others]

/-- Joined lists have an item for every one in the first list or equal to one in the other. -/
theorem any_joined {item : Value}
    (known : items.any (·.same item) = true ∨ (item ∈ more ∧ item.same item = true)) :
    (joined items more).any (·.same item) = true := by
  induction more generalizing items with
  | nil => exact known.resolve_right fun listed => by cases listed.1
  | cons next rest inductionHypothesis =>
    rw [joined_cons]
    apply inductionHypothesis
    rcases known with inside | ⟨listed, reflexive⟩
    · left
      split
      · exact inside
      · rw [List.any_append, inside, Bool.true_or]
    · rcases List.mem_cons.mp listed with rfl | later
      · left
        split
        · assumption
        · simp [reflexive]
      · exact .inr ⟨later, reflexive⟩

/-- Joining the same list again changes nothing. -/
theorem joined_joined (json : ∀ item ∈ more, IsJson item) :
    joined (joined items more) more = joined items more :=
  joined_eq_self fun item listed => any_joined (.inr ⟨listed, (json item listed).same_self⟩)

/-- Joining a list with itself changes nothing. -/
theorem joined_self (json : ∀ item ∈ items, IsJson item) : joined items items = items :=
  joined_eq_self fun item listed =>
    List.any_eq_true.mpr ⟨item, listed, (json item listed).same_self⟩

/-- What is joined to a list is what is new, when what came earlier is the list and items that
equal some of it. The induction is on the items to come; an item that is left out equals one
that stayed, and so does whatever equals it. -/
theorem joined_eq_append (jsonItems : ∀ item ∈ items, IsJson item)
    (jsonMore : ∀ item ∈ more, IsJson item) (within : ∀ item ∈ items, item ∈ earlier)
    (covered : ∀ item ∈ earlier, items.any (·.same item) = true) :
    joined items more = items ++ newItems earlier more := by
  induction more generalizing items earlier with
  | nil => rw [newItems, List.append_nil]; rfl
  | cons item rest inductionHypothesis =>
    obtain ⟨json, jsonRest⟩ := List.forall_mem_cons.mp jsonMore
    have known : earlier.any (·.same item) = items.any (·.same item) := by
      rw [Bool.eq_iff_iff, List.any_eq_true, List.any_eq_true]
      constructor
      · rintro ⟨before, listed, equal⟩
        obtain ⟨kept, inside, same⟩ := List.any_eq_true.mp (covered before listed)
        exact ⟨kept, inside, (jsonItems kept inside).same_trans json same equal⟩
      · rintro ⟨kept, inside, equal⟩
        exact ⟨kept, within kept inside, equal⟩
    rw [joined_cons, newItems, known]
    by_cases there : items.any (·.same item) = true
    · rw [if_pos there, if_pos there]
      refine inductionHypothesis jsonItems jsonRest
        (fun kept inside => List.mem_append_left _ (within kept inside)) ?_
      rw [List.forall_mem_append]
      exact ⟨covered, List.forall_mem_singleton.mpr there⟩
    · rw [if_neg there, if_neg there, List.append_cons items item (newItems _ rest)]
      refine inductionHypothesis ?_ jsonRest ?_ ?_
      · rw [List.forall_mem_append]
        exact ⟨jsonItems, List.forall_mem_singleton.mpr json⟩
      · rw [List.forall_mem_append]
        exact ⟨fun kept inside => List.mem_append_left _ (within kept inside),
          List.forall_mem_singleton.mpr (List.mem_append_right _ List.mem_cons_self)⟩
      · rw [List.forall_mem_append]
        refine ⟨fun before listed => ?_, List.forall_mem_singleton.mpr ?_⟩
        · rw [List.any_append, covered before listed, Bool.true_or]
        · simp [json.same_self]

/-- A list is joined with the items of another one that equal no earlier item. -/
theorem joined_eq (jsonItems : ∀ item ∈ items, IsJson item)
    (jsonMore : ∀ item ∈ more, IsJson item) :
    joined items more = items ++ newItems items more :=
  joined_eq_append jsonItems jsonMore (fun _ inside => inside) fun item inside =>
    List.any_eq_true.mpr ⟨item, inside, (jsonItems item inside).same_self⟩

end Joined

section Merged

variable {base update entries : Entries} {key value : Value} {name : Text}

/-- A value that is laid over nothing is itself. -/
theorem mergedValue_none (key value : Value) : mergedValue key none value = value := by
  cases value <;> rfl

/-- What stands under a text after a map was laid over another one: each value that the map has
there was laid over what was there before. The induction is on the entries of the map. -/
theorem find?_merged_under (name : Text) (base update : Entries) :
    find? (.text name) (merged base update) =
      (under name update).foldl (fun old value => some (mergedValue (.text name) old value))
        (find? (.text name) base) := by
  induction update generalizing base with
  | nil => rfl
  | cons entry rest inductionHypothesis =>
    obtain ⟨key, value⟩ := entry
    rw [merged, inductionHypothesis, under_cons]
    by_cases same : key = .text name
    · rw [if_pos same, same, find?_put, if_pos rfl]
      rfl
    · rw [if_neg same]
      by_cases named : ∃ other, key = .text other
      · obtain ⟨other, rfl⟩ := named
        rw [find?_put, if_neg fun equal => same (congrArg Value.text equal.symm)]
      · rw [find?_put_of_ne_text fun other equal => named ⟨other, equal⟩]

/-- The values after a map with distinct keys was laid over another one. -/
theorem find?_merged (distinct : (keys update).Nodup) (name : Text) :
    find? (.text name) (merged base update) =
      match find? (.text name) update with
      | some value => some (mergedValue (.text name) (find? (.text name) base) value)
      | none => find? (.text name) base := by
  rw [find?_merged_under, under_eq distinct]
  cases find? (.text name) update <;> rfl

/-- The keys after a map was laid over another one: those that were there keep their places, and
the new ones follow in their order. -/
theorem keys_merged (distinct : (keys update).Nodup)
    (named : ∀ key ∈ keys update, ∃ name, key = .text name) :
    keys (merged base update) = keys base ++ (keys update).filter (· ∉ keys base) := by
  induction update generalizing base with
  | nil => exact (List.append_nil _).symm
  | cons entry rest inductionHypothesis =>
    obtain ⟨key, value⟩ := entry
    obtain ⟨⟨first, rfl⟩, namedRest⟩ := List.forall_mem_cons.mp named
    obtain ⟨outside, others⟩ := List.nodup_cons.mp distinct
    have split : keys ((.text first, value) :: rest) = .text first :: keys rest := rfl
    rw [merged, inductionHypothesis others namedRest, keys_put, split, List.filter_cons]
    by_cases listed : Value.text first ∈ keys base
    · simp [listed]
    · have later : (keys rest).filter (· ∉ keys base ++ [.text first]) =
          (keys rest).filter (· ∉ keys base) := by
        refine List.filter_congr fun key inside => ?_
        have different : key ≠ .text first := fun same => outside (same ▸ inside)
        simp [different]
      rw [if_neg listed, later]
      simp [listed]

/-- Laying over values that are there already changes nothing. -/
theorem merged_eq_self (named : ∀ key ∈ keys update, ∃ name, key = .text name)
    (there : ∀ name value, (.text name, value) ∈ update → ∃ old,
      find? (.text name) base = some old ∧ mergedValue (.text name) (some old) value = old) :
    merged base update = base := by
  induction update with
  | nil => rfl
  | cons entry rest inductionHypothesis =>
    obtain ⟨key, value⟩ := entry
    obtain ⟨⟨first, rfl⟩, namedRest⟩ := List.forall_mem_cons.mp named
    obtain ⟨old, found, same⟩ := there first value List.mem_cons_self
    rw [merged, found, same, put_of_find? found]
    exact inductionHypothesis namedRest fun name value inside =>
      there name value (List.mem_cons_of_mem _ inside)

/-- Laying a map over another one again changes nothing, if this holds of each of its values. -/
theorem merged_merged_of_inner (distinct : (keys update).Nodup)
    (named : ∀ key ∈ keys update, ∃ name, key = .text name)
    (inner : ∀ entry ∈ update, ∀ key old,
      mergedValue key (some (mergedValue key old entry.2)) entry.2 = mergedValue key old entry.2) :
    merged (merged base update) update = merged base update := by
  refine merged_eq_self named fun name value inside => ?_
  refine ⟨mergedValue (.text name) (find? (.text name) base) value, ?_, inner _ inside _ _⟩
  rw [find?_merged distinct, find?_of_mem distinct inside]

/-- Laying a value over an old one again changes nothing. The induction is on the value; a map is
laid over another map, or stands in the place of what was no map and is then laid over itself. -/
theorem mergedValue_mergedValue (json : IsJson value) (key : Value) (old : Option Value) :
    mergedValue key (some (mergedValue key old value)) value = mergedValue key old value := by
  induction json generalizing key old with
  | null | flag | int | float | text => rfl
  | @list items inner =>
    have again (first : List Value) :
        mergedValue key (some (.list (if key.same additiveKey then joined first items else items)))
            (.list items) =
          .list (if key.same additiveKey then joined first items else items) := by
      by_cases additive : key.same additiveKey = true
      · simp only [mergedValue, if_pos additive, joined_joined inner]
      · simp only [mergedValue, if_neg additive]
    have self : mergedValue key (some (.list items)) (.list items) = .list items := by
      by_cases additive : key.same additiveKey = true
      · simp only [mergedValue, if_pos additive, joined_self inner]
      · simp only [mergedValue, if_neg additive]
    rcases old with _ | old
    · exact self
    · cases old with
      | list first => exact again first
      | _ => exact self
  | @map entries distinct named inner inductionHypothesis =>
    have again (base : Entries) : merged (merged base entries) entries = merged base entries :=
      merged_merged_of_inner distinct named inductionHypothesis
    have self : merged entries entries = entries := by
      refine merged_eq_self named fun name value inside => ?_
      refine ⟨value, find?_of_mem distinct inside, ?_⟩
      have laid := inductionHypothesis _ inside (.text name) none
      rwa [mergedValue_none] at laid
    rcases old with _ | old
    · exact congrArg Value.map self
    · cases old with
      | map base => exact congrArg Value.map (again base)
      | _ => exact congrArg Value.map self

end Merged

section Depth

variable {base update : Entries} {value inner : Value} {name : Text} {place : List Text}

/-- The value inside of a value to which some keys lead, one map after the other. -/
def at? : (place : List Text) → Value → Option Value
  | [], value => some value
  | name :: rest, .map entries => (find? (.text name) entries).bind (at? rest)
  | _ :: _, _ => none

/-- Only a map has a value under keys. -/
theorem exists_map_of_at? (reached : value.at? (place ++ [name]) = some inner) :
    ∃ entries, value = .map entries := by
  cases place <;> cases value <;> first | exact ⟨_, rfl⟩ | cases reached

/-- What stands under a key where both sides have a value is the one laid over the other. The
induction is on the keys that lead there; on the way both sides have maps. -/
theorem at?_merged (json : IsJson (.map update))
    (inBase : (Value.map base).at? (place ++ [name]) = some value)
    (inUpdate : (Value.map update).at? (place ++ [name]) = some inner) :
    (Value.map (merged base update)).at? (place ++ [name]) =
      some (mergedValue (.text name) (some value) inner) := by
  induction place generalizing base update with
  | nil =>
    cases json with
    | map distinct named _ =>
      have old : find? (.text name) base = some value := by simpa [at?] using inBase
      have new : find? (.text name) update = some inner := by simpa [at?] using inUpdate
      rw [List.nil_append, at?, find?_merged distinct, old, new]
      rfl
  | cons first rest inductionHypothesis =>
    obtain ⟨old, foundOld, insideOld⟩ := Option.bind_eq_some_iff.mp inBase
    obtain ⟨new, foundNew, insideNew⟩ := Option.bind_eq_some_iff.mp inUpdate
    obtain ⟨outer, rfl⟩ := exists_map_of_at? insideOld
    obtain ⟨laid, rfl⟩ := exists_map_of_at? insideNew
    cases json with
    | map distinct named json =>
      rw [List.cons_append, at?, find?_merged distinct, foundOld, foundNew]
      exact inductionHypothesis (json _ (mem_of_find? foundNew)) insideOld insideNew

/-- What a place in JSON holds is JSON. -/
theorem IsJson.of_at? (json : IsJson value) (reached : value.at? place = some inner) :
    IsJson inner := by
  induction place generalizing value with
  | nil =>
    rw [← Option.some.inj reached]
    exact json
  | cons name rest inductionHypothesis =>
    cases json with
    | map distinct named json =>
      obtain ⟨found, held, later⟩ := Option.bind_eq_some_iff.mp reached
      exact inductionHypothesis (json _ (mem_of_find? held)) later
    | _ => cases reached

/-- Laying one map of JSON over another one:

* laying it over the result again changes nothing;
* wherever both have a map, the keys of the first keep their places there and the new ones of
  the second follow in their order;
* wherever both have a list of built-in classes, it becomes the first list followed by the items
  of the second one that equal no earlier item. -/
theorem merged_lays_over (jsonBase : IsJson (.map base)) (jsonUpdate : IsJson (.map update)) :
    merged (merged base update) update = merged base update ∧
    (∀ place outer inner, (Value.map base).at? place = some (.map outer) →
      (Value.map update).at? place = some (.map inner) →
      (Value.map (merged base update)).at? place = some (.map (merged outer inner)) ∧
        keys (merged outer inner) = keys outer ++ (keys inner).filter (· ∉ keys outer)) ∧
    ∀ place items more,
      (Value.map base).at? (place ++ ["native_classes".toList]) = some (.list items) →
      (Value.map update).at? (place ++ ["native_classes".toList]) = some (.list more) →
      (Value.map (merged base update)).at? (place ++ ["native_classes".toList]) =
        some (.list (items ++ newItems items more)) := by
  refine ⟨?_, fun place outer inner inBase inUpdate => ⟨?_, ?_⟩,
    fun place items more inBase inUpdate => ?_⟩
  · exact Value.map.inj (mergedValue_mergedValue jsonUpdate .null (some (.map base)))
  · rcases List.eq_nil_or_concat place with rfl | ⟨front, last, rfl⟩
    · obtain rfl := Value.map.inj (Option.some.inj inBase)
      obtain rfl := Value.map.inj (Option.some.inj inUpdate)
      rfl
    · rw [List.concat_eq_append] at inBase inUpdate ⊢
      exact at?_merged jsonUpdate inBase inUpdate
  · cases jsonUpdate.of_at? inUpdate with
    | map distinct named _ => exact keys_merged distinct named
  · have additive : (Value.text "native_classes".toList).same additiveKey = true :=
      same_text_iff.mpr rfl
    cases jsonBase.of_at? inBase with
    | list jsonItems =>
      cases jsonUpdate.of_at? inUpdate with
      | list jsonMore =>
        rw [at?_merged jsonUpdate inBase inUpdate]
        simp only [mergedValue, if_pos additive, joined_eq jsonItems jsonMore]

end Depth

/-- The entries of an object with some fields. -/
def fieldsOf (fields : List (String × Value)) : Entries :=
  fields.map fun (name, value) => (.text name.toList, value)

/-- A list is one of JSON when its items are. -/
theorem isJson_list_iff {items : List Value} :
    IsJson (.list items) ↔ ∀ item ∈ items, IsJson item := by
  refine ⟨fun json => ?_, .list⟩
  cases json with
  | list inner => exact inner

/-- An object is one of JSON when its names are distinct and its values are ones of JSON. -/
theorem isJson_fieldsOf {fields : List (String × Value)} (distinct : (fields.map (·.1)).Nodup)
    (inner : ∀ field ∈ fields, IsJson field.2) : IsJson (.map (fieldsOf fields)) := by
  have names : keys (fieldsOf fields) = (fields.map (·.1)).map fun name => .text name.toList := by
    simp [keys, fieldsOf]
  refine .map ?_ ?_ ?_
  · rw [names]
    exact List.Nodup.map (fun first second same => String.toList_inj.mp (Value.text.inj same))
      distinct
  · rw [names]
    intro key listed
    obtain ⟨name, -, rfl⟩ := List.mem_map.mp listed
    exact ⟨_, rfl⟩
  · intro entry listed
    obtain ⟨field, inside, rfl⟩ := List.mem_map.mp listed
    exact inner field inside

/-- Settings with a list of built-in classes inside. -/
def innerSettings : Entries :=
  fieldsOf [("native_classes", .list [.flag true, .text "Closure".toList]), ("depth", .int 2)]

/-- Settings to be laid over them. In the list one is equal to true, one with a point is equal
to one, and a class is named twice. -/
def laidSettings : Entries :=
  fieldsOf [("strict", .null), ("native_classes", .list [.int 1, .text "Redis".toList,
    .float (Binary64.ofDecimal false 10 (-1)), .text "Redis".toList]), ("depth", .list [])]

/-- Laying the settings over each other inside of others. -/
theorem laidSettings_lay_over :
    let base := fieldsOf [("layout", .text "default".toList), ("sets", .map innerSettings)]
    let update := fieldsOf [("sets", .map laidSettings), ("layout", .null), ("new", .flag false)]
    IsJson (.map base) ∧ IsJson (.map update) ∧
    merged (merged base update) update = merged base update ∧
    (Value.map (merged base update)).at? ["sets".toList] =
      some (.map (merged innerSettings laidSettings)) ∧
    keys (merged innerSettings laidSettings) =
      [.text "native_classes".toList, .text "depth".toList, .text "strict".toList] ∧
    (Value.map (merged base update)).at? ["sets".toList, "native_classes".toList] =
      some (.list [.flag true, .text "Closure".toList, .text "Redis".toList]) := by
  intro base update
  have jsonInner : IsJson (.map innerSettings) := isJson_fieldsOf (by decide) <| by
    simp [isJson_list_iff, IsJson.flag, IsJson.text, IsJson.int]
  have jsonLaid : IsJson (.map laidSettings) := isJson_fieldsOf (by decide) <| by
    simp [isJson_list_iff, IsJson.null, IsJson.int, IsJson.text, IsJson.decimal]
  have jsonBase : IsJson (.map base) := isJson_fieldsOf (by decide) <| by
    simp [IsJson.text, jsonInner]
  have jsonUpdate : IsJson (.map update) := isJson_fieldsOf (by decide) <| by
    simp [IsJson.null, IsJson.flag, jsonLaid]
  obtain ⟨again, outer, additive⟩ := merged_lays_over jsonBase jsonUpdate
  obtain ⟨inside, names⟩ := outer ["sets".toList] innerSettings laidSettings rfl rfl
  have items := additive ["sets".toList] _ _ rfl rfl
  refine ⟨jsonBase, jsonUpdate, again, inside, ?_, ?_⟩
  · rw [names]
    decide +kernel
  · rw [show ["sets".toList, "native_classes".toList] =
      ["sets".toList] ++ ["native_classes".toList] from rfl, items]
    decide +kernel

end Docblock.Value
