import Docblock.Proofs.Loading.Registered
import Docblock.Yaml.Document
import Mathlib.Data.List.Forall2

/-!
# What becomes of a manifest

A manifest that reads as a document is registered as a whole, passed over, or ends the
loading. It is passed over when it holds no list of types. It ends the loading when it
holds one and the entry of a named type has a value of the wrong shape in it: a list of
interfaces, modifiers, methods or parameters that cannot be gone through, a method that
is no map, a parameter that is neither a text nor a map, or imports that are no map.
Methods and types without a name may have any shape inside.

A manifest that ends the loading has registered nothing. All of this holds of whatever
document a reader makes of the text, also where it has values of further kinds.
-/

namespace Docblock

open Source

namespace Manifest

/-- Whether a field can be gone through. -/
def hasItems (name : String) (entries : Entries) : Bool :=
  (Value.field name entries).items?.isSome

/-- Whether a field can be gone through and its items are of a kind. -/
def itemsAll (isOfKind : Value → Bool) (name : String) (entries : Entries) : Bool :=
  (Value.field name entries).items?.any (·.all isOfKind)

/-- Whether a value can be a parameter. -/
def isParameter : Value → Bool
  | .text _ | .map _ => true
  | _ => false

/-- Whether a map can be a method. -/
def isMethodMap (entries : Entries) : Bool :=
  hasItems "modifiers" entries && itemsAll isParameter "params" entries

/-- Whether a value can stand among the methods of a type. -/
def isMethod : Value → Bool
  | .map entries => !(Value.field "name" entries).isGiven || isMethodMap entries
  | _ => false

/-- Whether the imports are a map, if they are given. -/
def hasImports (entries : Entries) : Bool :=
  match Value.field "imports" entries with
  | .map _ => true
  | value => !value.isGiven

/-- Whether a map can be a type. -/
def isTypeMap (entries : Entries) : Bool :=
  hasItems "implements" entries &&
    (hasItems "modifiers" entries && (itemsAll isMethod "members" entries && hasImports entries))

/-- The maps with a name among some values. -/
def namedMaps : List Value → List Entries
  | [] => []
  | .map entries :: rest =>
    if (Value.field "name" entries).isGiven then entries :: namedMaps rest else namedMaps rest
  | _ :: rest => namedMaps rest

/-- The list of types of a document, if there is one. -/
def typesOf? : Value → Option (List Value)
  | .map entries =>
    match Value.field "types" entries with
    | .list items => some items
    | _ => none
  | _ => none

/-- Whether some data decide on a result: it is a value if they have the right shape and
a fault of shape if not. -/
def IsDecidedBy {α : Type} (shaped : Bool) (result : Except Failure α) : Prop :=
  if shaped then ∃ value, result = .ok value else ∃ fault, result = .error (.shape fault)

namespace IsDecidedBy

variable {α β : Type}

/-- A value needs no shape. -/
theorem pure (value : α) : IsDecidedBy true (Except.ok value : Except Failure α) := ⟨value, rfl⟩

/-- A choice between a value and a fault is decided by its condition. -/
theorem ite (shaped : Bool) (value : α) (fault : ShapeFault) :
    IsDecidedBy shaped (if shaped then .ok value else .error (.shape fault)) := by
  cases shaped <;> exact ⟨_, rfl⟩

/-- Of two steps in order the shapes for both decide. -/
theorem bind {first second : Bool} {result : Except Failure α} {next : α → Except Failure β}
    (decided : IsDecidedBy first result) (onward : ∀ value, IsDecidedBy second (next value)) :
    IsDecidedBy (first && second) (result >>= next) := by
  cases first with
  | true =>
    obtain ⟨value, rfl⟩ := decided
    exact onward value
  | false =>
    obtain ⟨fault, rfl⟩ := decided
    exact ⟨fault, rfl⟩

/-- A change of the value leaves the decision. -/
theorem map {shaped : Bool} {result : Except Failure α} (decided : IsDecidedBy shaped result)
    (change : α → β) : IsDecidedBy shaped (result.map change) := by
  cases shaped with
  | true =>
    obtain ⟨value, rfl⟩ := decided
    exact ⟨change value, rfl⟩
  | false =>
    obtain ⟨fault, rfl⟩ := decided
    exact ⟨fault, rfl⟩

/-- On the results for all items of a list the shapes of all of them decide. -/
theorem mapM {isOfKind : α → Bool} {make : α → Except Failure β}
    (decided : ∀ item, IsDecidedBy (isOfKind item) (make item)) (items : List α) :
    IsDecidedBy (items.all isOfKind) (items.mapM make) := by
  induction items with
  | nil => exact pure []
  | cons item rest inductionHypothesis =>
    rw [List.all_cons, List.mapM_cons]
    refine (decided item).bind fun value => ?_
    rw [← Bool.and_true (rest.all isOfKind)]
    exact inductionHypothesis.bind fun values => pure (value :: values)

end IsDecidedBy

section Fields

variable (entries : Entries)

/-- Whether a field is a list is decided by whether it can be gone through. -/
theorem listField_decided (name : String) :
    IsDecidedBy (hasItems name entries) (listField name entries) := by
  rw [hasItems, listField]
  cases (Value.field name entries).items? with
  | none => exact ⟨_, rfl⟩
  | some items => exact ⟨items, rfl⟩

/-- What is made of the items of a field is decided by the field and its items. -/
theorem listField_bind_decided {α : Type} {isOfKind : Value → Bool} (name : String)
    {make : List Value → Except Failure α}
    (decided : ∀ items : List Value, IsDecidedBy (items.all isOfKind) (make items)) :
    IsDecidedBy (itemsAll isOfKind name entries) (listField name entries >>= make) := by
  rw [itemsAll, listField]
  cases (Value.field name entries).items? with
  | none => exact ⟨_, rfl⟩
  | some items => exact decided items

/-- Modifiers are decided by whether they can be gone through. -/
theorem modifiersField_decided :
    IsDecidedBy (hasItems "modifiers" entries) (modifiersField entries) :=
  (listField_decided entries "modifiers").map _

/-- Parameters are decided by their shape. -/
theorem parameterOf_decided (value : Value) :
    IsDecidedBy (isParameter value) (parameterOf value) := by
  cases value <;> exact ⟨_, rfl⟩

/-- A method is decided by the shape of its map. -/
theorem methodOf_decided : IsDecidedBy (isMethodMap entries) (methodOf entries) := by
  have parameters : IsDecidedBy (itemsAll isParameter "params" entries)
      (listField "params" entries >>= fun items => items.mapM parameterOf) :=
    listField_bind_decided entries "params" (IsDecidedBy.mapM parameterOf_decided)
  refine (modifiersField_decided entries).bind fun modifiers => ?_
  rw [← Bool.and_true (itemsAll isParameter "params" entries), ← bind_assoc]
  exact parameters.bind fun parameters => IsDecidedBy.pure _

/-- Imports are decided by whether they are a map. -/
theorem importsOf_decided : IsDecidedBy (hasImports entries) (importsOf entries) := by
  rw [hasImports, importsOf]
  cases Value.field "imports" entries with
  | map imports => cases imports <;> exact ⟨_, rfl⟩
  | _ => exact IsDecidedBy.ite _ [] .noFields

end Fields

/-- The methods of a type are decided by the shapes of their values. -/
theorem methodsOf_decided (values : List Value) :
    IsDecidedBy (values.all isMethod) (methodsOf values) := by
  induction values with
  | nil => exact IsDecidedBy.pure []
  | cons value rest inductionHypothesis =>
    rw [List.all_cons]
    cases value with
    | map entries =>
      rw [isMethod, methodsOf]
      cases (Value.field "name" entries).isGiven with
      | false => simpa using inductionHypothesis
      | true =>
        rw [if_pos rfl, Bool.not_true, Bool.false_or, ← Bool.and_true (rest.all isMethod)]
        refine (methodOf_decided entries).bind fun method => ?_
        exact inductionHypothesis.bind fun methods => IsDecidedBy.pure _
    | _ => exact ⟨_, rfl⟩

/-- A type is decided by the shape of its map. -/
theorem declarationOf_decided (file : Option Text) (entries : Entries) :
    IsDecidedBy (isTypeMap entries) (declarationOf file entries) := by
  have members : IsDecidedBy (itemsAll isMethod "members" entries)
      (listField "members" entries >>= methodsOf) :=
    listField_bind_decided entries "members" methodsOf_decided
  refine (listField_decided entries "implements").bind fun interfaces => ?_
  refine (modifiersField_decided entries).bind fun modifiers => ?_
  rw [← bind_assoc]
  refine members.bind fun methods => ?_
  rw [← Bool.and_true (hasImports entries)]
  exact (importsOf_decided entries).bind fun imports => IsDecidedBy.pure _

/-- The types of a document are those of its named maps, in order. -/
theorem declarationsOf_eq (file : Option Text) (items : List Value) :
    declarationsOf file items = (namedMaps items).mapM (declarationOf file) := by
  induction items with
  | nil => rfl
  | cons item rest inductionHypothesis =>
    cases item with
    | map entries =>
      rw [declarationsOf, namedMaps, inductionHypothesis]
      split
      · rw [List.mapM_cons]
      · rfl
    | _ => exact inductionHypothesis

/-- The declarations of a document are those of its list of types. -/
theorem ofDocument_eq (path : Text) (document : Value) :
    ofDocument path document =
      match typesOf? document with
      | some items => (namedMaps items).mapM (declarationOf (some path))
      | none => .error (.manifestWithoutTypes path) := by
  cases document with
  | map entries =>
    rw [ofDocument, typesOf?]
    cases Value.field "types" entries with
    | list items => exact declarationsOf_eq (some path) items
    | _ => rfl
  | _ => rfl

/-- What is made of each item of a list is in the order of the items. -/
theorem forall₂_of_mapM {α β : Type} {make : α → Except Failure β} {items : List α}
    {values : List β} (made : items.mapM make = .ok values) :
    List.Forall₂ (fun item value => make item = .ok value) items values := by
  induction items generalizing values with
  | nil =>
    cases made
    exact .nil
  | cons item rest inductionHypothesis =>
    rw [List.mapM_cons] at made
    obtain ⟨value, first, others⟩ := exists_of_bind_eq_ok made
    obtain ⟨later, following, whole⟩ := exists_of_bind_eq_ok others
    cases whole
    exact .cons first (inductionHypothesis following)

end Manifest

namespace Loading

open Manifest

section Manifests

variable {reader : DocumentReader} {disk : Disk} {path : Path} {text : Text} {document : Value}

/-- The declarations of a manifest are those of its document. -/
theorem declarationsIn_manifest
    (named : Files.isDocumentName (path.names.getLast?.getD []) = true)
    (read : disk.text path = .ok text)
    (parsed : reader.read (withoutHeader text) = .ok document) :
    declarationsIn reader disk path = ofDocument path.toText document := by
  rw [declarationsIn, if_pos named, read]
  show (reader.read (withoutHeader text)).bind (ofDocument path.toText) = _
  rw [parsed]
  rfl

/-- A manifest whose types have the right shape is registered as a whole. -/
theorem loadFile_shaped {items : List Value} (state : Loading)
    (content : declarationsIn reader disk path = ofDocument path.toText document)
    (typed : typesOf? document = some items)
    (shaped : (namedMaps items).all isTypeMap = true) :
    ∃ found after, loadFile reader disk path state = (.ok found, after) ∧
      List.Forall₂ (fun entries declaration =>
        declarationOf (some path.toText) entries = .ok declaration) (namedMaps items) found ∧
      after.registry = found.foldl
        (fun registry declaration => (registry.add declaration).1) state.registry ∧
      Registry.Gains state.registry found after.registry := by
  have decided := IsDecidedBy.mapM (declarationOf_decided (some path.toText)) (namedMaps items)
  rw [shaped] at decided
  obtain ⟨found, made⟩ := decided
  have loaded : loadFile reader disk path state = (.ok found, state.addAll path found) := by
    rw [loadFile, content, ofDocument_eq, typed]
    simp only [made]
  exact ⟨found, _, loaded, forall₂_of_mapM made, Registry.fst_addAll state.registry found,
    loadFile_gains loaded⟩

/-- A manifest with a type of the wrong shape ends the loading. -/
theorem loadFile_misshapen {items : List Value} (state : Loading)
    (content : declarationsIn reader disk path = ofDocument path.toText document)
    (typed : typesOf? document = some items)
    (misshapen : (namedMaps items).all isTypeMap = false) :
    ∃ fault, loadFile reader disk path state = (.error (.shape fault), state) := by
  have decided := IsDecidedBy.mapM (declarationOf_decided (some path.toText)) (namedMaps items)
  rw [misshapen] at decided
  obtain ⟨fault, failed⟩ := decided
  refine ⟨fault, ?_⟩
  rw [loadFile, content, ofDocument_eq, typed]
  simp only [failed]
  rfl

end Manifests

/-- A day is no parameter, but the same characters in quotes are one. -/
example : ((Yaml.reader.read "[2020-01-01, '2020-01-01']".toList).toOption.bind
    Value.items?).map (·.map isParameter) = some [false, true] := by
  decide +kernel

/-- A manifest in the current folder. -/
def manifestPath : Path := { names := ["m.yml".toList] }

/-- A manifest that reads as it was written has types of which something is known by
reading its document. -/
theorem exists_types {content : Text} {holds : List Value → Bool}
    (plain : (Text.Utf8.decode? (Text.Utf8.encode content)).map Text.unifyNewlines =
      some content)
    (checked :
      ((Yaml.reader.read (withoutHeader content)).toOption.bind typesOf?).any holds = true) :
    (Disk.holding "m.yml".toList content).text manifestPath = .ok content ∧
      ∃ document items, Yaml.reader.read (withoutHeader content) = .ok document ∧
        typesOf? document = some items ∧ holds items = true := by
  refine ⟨Disk.text_holding (by decide) plain, ?_⟩
  cases parsed : Yaml.reader.read (withoutHeader content) with
  | error failure =>
    rw [parsed] at checked
    cases checked
  | ok document =>
    rw [parsed] at checked
    cases typed : typesOf? document with
    | none =>
      simp only [Except.toOption, Option.bind_some, typed] at checked
      cases checked
    | some items =>
      simp only [Except.toOption, Option.bind_some, typed] at checked
      exact ⟨document, items, rfl, typed, checked⟩

/-- A manifest with one type, which has a method. -/
def shapedManifest : Text :=
  "### PHPDocsMD:Signatures\ntypes:\n  - name: A\n    members:\n      - name: run\n".toList

/-- A manifest with one type, which has a text in the place of a method. -/
def misshapenManifest : Text :=
  "### PHPDocsMD:Signatures\ntypes:\n  - name: A\n    members: [x]\n".toList

end Loading
end Docblock
