import Docblock.Proofs.Loading.Manifests
import Docblock.Value.Equality

/-!
# Declarations written as a manifest

A declaration is written as a map with a field for everything it holds: texts as they
are, missing texts as null, names and modifiers as lists, imports as a map, methods and
parameters as maps of their own. Such a document is read back as the declarations it was
written from, apart from the file, which is the one it is read from.

Reading cleans class names, puts kinds and modifiers into lower case and adds dollar
signs to the names of parameters; it fills in a kind that is empty and passes over types
and methods without a name. So what is written has to be in that form already. The home
of a name and the order of the imports are not written and come back by themselves.
-/

namespace Docblock.Manifest

open Source

/-- A text, or null if it is missing. -/
def optionalValue : Option Text → Value
  | none => .null
  | some content => .text content

/-- A list of texts. -/
def textsValue (contents : List Text) : Value := .list (contents.map .text)

/-- The entries of a map with the given fields, in their order. -/
def entriesOf (fields : List (String × Value)) : Entries :=
  fields.map fun field => (.text field.1.toList, field.2)

/-- A parameter as it is written. -/
def parameterEntries (parameter : Parameter) : Entries :=
  entriesOf [
    ("name", .text parameter.name),
    ("type", optionalValue parameter.type),
    ("default", optionalValue parameter.default)]

/-- A method as it is written. -/
def methodEntries (method : Method) : Entries :=
  entriesOf [
    ("name", .text method.name),
    ("comment", .text method.comment),
    ("modifiers", textsValue method.modifiers),
    ("params", .list (method.parameters.map fun parameter => .map (parameterEntries parameter))),
    ("return_type", optionalValue method.returnType)]

/-- Imports as they are written. -/
def importEntries (imports : Keyed Text) : Entries :=
  imports.map fun entry => (.text entry.1, .text entry.2)

/-- A declaration as it is written. -/
def declarationEntries (declaration : Declaration) : Entries :=
  entriesOf [
    ("name", .text declaration.name),
    ("kind", .text declaration.kind),
    ("comment", .text declaration.comment),
    ("extends", optionalValue declaration.parent),
    ("implements", textsValue declaration.interfaces),
    ("modifiers", textsValue declaration.modifiers),
    ("imports", .map (importEntries declaration.scope.imports)),
    ("members", .list (declaration.methods.map fun method => .map (methodEntries method)))]

/-- The document of some declarations. -/
def document (declarations : List Declaration) : Value :=
  .map (entriesOf [
    ("types", .list (declarations.map fun declaration => .map (declarationEntries declaration)))])

/-- Whether a class name is one that reading leaves alone. -/
def IsClean (name : Text) : Prop := name ≠ [] ∧ ClassName.clean name = name

/-- Whether a word is one that reading leaves alone. -/
def IsLower (word : Text) : Prop := word ≠ [] ∧ Text.lower word = word

instance (name : Text) : Decidable (IsClean name) :=
  inferInstanceAs (Decidable (name ≠ [] ∧ ClassName.clean name = name))

instance (word : Text) : Decidable (IsLower word) :=
  inferInstanceAs (Decidable (word ≠ [] ∧ Text.lower word = word))

/-- Whether a method is one that reading leaves alone. -/
structure IsPlainMethod (method : Method) : Prop where
  named : method.name ≠ []
  modifiers : ∀ word ∈ method.modifiers, IsLower word
  parameters : ∀ parameter ∈ method.parameters, parameter.name.head? = some '$'

/-- Whether a declaration is one that reading leaves alone. Its imports are a map, so no
alias stands in them twice. -/
structure IsPlain (declaration : Declaration) : Prop where
  name : IsClean declaration.name
  space : declaration.scope.space = ClassName.home declaration.name
  kind : IsLower declaration.kind
  parent : ∀ name, declaration.parent = some name → IsClean name
  interfaces : ∀ name ∈ declaration.interfaces, IsClean name
  modifiers : ∀ word ∈ declaration.modifiers, IsLower word
  imports : (Keyed.keys declaration.scope.imports).Nodup
  methods : ∀ method ∈ declaration.methods, IsPlainMethod method

section Fields

/-- Text keys are equal as values when they are equal as texts. -/
theorem same_text (first second : Text) :
    (Value.text first).same (.text second) = (first == second) := by
  rw [Value.same, Value.sameScalar] <;> intros <;> contradiction

/-- A field of a written map is the first one of its name. -/
@[simp]
theorem field_entriesOf_cons (name key : String) (value : Value)
    (rest : List (String × Value)) :
    Value.field name (entriesOf ((key, value) :: rest)) =
      if key = name then value else Value.field name (entriesOf rest) := by
  rw [Value.field, Value.field, Value.find?, Value.find?, entriesOf, List.map_cons,
    List.find?_cons, same_text]
  by_cases named : key = name
  · simp [named]
  · have apart : (key.toList == name.toList) = false :=
      beq_eq_false_iff_ne.mpr fun same => named (String.toList_inj.mp same)
    rw [if_neg named, apart]
    rfl

/-- A written list has its items, also when it is empty. -/
@[simp]
theorem items?_list (items : List Value) : (Value.list items).items? = some items := by
  cases items <;> rfl

/-- A text that is not empty is given. -/
theorem isGiven_text {content : Text} (nonempty : content ≠ []) :
    (Value.text content).isGiven = true := by
  cases content with
  | nil => exact absurd rfl nonempty
  | cons => rfl

variable {entries : Entries} {name : String}

/-- A list of texts is read as its items. -/
theorem listField_texts {contents : List Text}
    (written : Value.field name entries = textsValue contents) :
    listField name entries = .ok (contents.map .text) := by
  rw [listField, written, textsValue, items?_list]

/-- A list of values is read as these values. -/
theorem listField_list {items : List Value} (written : Value.field name entries = .list items) :
    listField name entries = .ok items := by
  rw [listField, written, items?_list]

/-- A text is read as it is, also when it is empty. -/
theorem textField_text {content : Text} (written : Value.field name entries = .text content) :
    textField name entries = content := by
  rw [textField, written]
  by_cases empty : content = []
  · rw [empty]
    rfl
  · rw [if_pos (isGiven_text empty)]
    rfl

/-- A text that may be missing is read as it is. -/
theorem optionalField_optionalValue {content : Option Text}
    (written : Value.field name entries = optionalValue content) :
    optionalField name entries = content := by
  rw [optionalField, written]
  cases content <;> rfl

/-- Texts that reading leaves alone come back from a list of them. -/
theorem map_text {contents : List Text} {read : Text → Text}
    (fixed : ∀ content ∈ contents, read content = content) :
    (contents.map Value.text).map (fun item => read item.toText) = contents := by
  rw [List.map_map]
  exact (List.map_congr_left fixed).trans (List.map_id contents)

/-- Modifiers in lower case are read as they are. -/
theorem modifiersField_texts {words : List Text}
    (written : Value.field "modifiers" entries = textsValue words)
    (lower : ∀ word ∈ words, IsLower word) : modifiersField entries = .ok words := by
  rw [modifiersField, listField_texts written]
  exact congrArg Except.ok (map_text fun word member => (lower word member).2)

end Fields

/-- A parameter with its dollar sign is read back. -/
theorem parameterOf_entries {parameter : Parameter} (marked : parameter.name.head? = some '$') :
    parameterOf (.map (parameterEntries parameter)) = .ok parameter := by
  have name : textField "name" (parameterEntries parameter) = parameter.name :=
    textField_text (by simp [parameterEntries])
  have type : optionalField "type" (parameterEntries parameter) = parameter.type :=
    optionalField_optionalValue (by simp [parameterEntries])
  have default : optionalField "default" (parameterEntries parameter) = parameter.default :=
    optionalField_optionalValue (by simp [parameterEntries])
  rw [parameterOf, name, type, default, parameterName, if_pos marked]

/-- What is read back item by item is read back as a list. -/
theorem mapM_written {α : Type} {write : α → Value} {read : Value → Except Failure α}
    {items : List α} (each : ∀ item ∈ items, read (write item) = .ok item) :
    (items.map write).mapM read = .ok items := by
  induction items with
  | nil => rfl
  | cons item rest inductionHypothesis =>
    have onward := inductionHypothesis fun other member =>
      each other (List.mem_cons_of_mem _ member)
    rw [List.map_cons, List.mapM_cons, each item List.mem_cons_self, onward]
    rfl

/-- A method is read back. -/
theorem methodOf_entries {method : Method} (plain : IsPlainMethod method) :
    methodOf (methodEntries method) = .ok method := by
  have modifiers : modifiersField (methodEntries method) = .ok method.modifiers :=
    modifiersField_texts (by simp [methodEntries]) plain.modifiers
  have listed : listField "params" (methodEntries method) =
      .ok (method.parameters.map fun parameter => .map (parameterEntries parameter)) :=
    listField_list (by simp [methodEntries])
  have parameters : (method.parameters.map fun parameter =>
      Value.map (parameterEntries parameter)).mapM parameterOf = .ok method.parameters :=
    mapM_written fun parameter member => parameterOf_entries (plain.parameters parameter member)
  have name : (Value.field "name" (methodEntries method)).toText = method.name := by
    simp [methodEntries, Value.toText]
  have comment : textField "comment" (methodEntries method) = method.comment :=
    textField_text (by simp [methodEntries])
  have returnType : optionalField "return_type" (methodEntries method) = method.returnType :=
    optionalField_optionalValue (by simp [methodEntries])
  rw [methodOf, modifiers, listed]
  show (List.mapM parameterOf _ >>= _) = _
  rw [parameters, name, comment, returnType]
  rfl

/-- The methods of a type are read back. -/
theorem methodsOf_entries {methods : List Method}
    (plain : ∀ method ∈ methods, IsPlainMethod method) :
    methodsOf (methods.map fun method => .map (methodEntries method)) = .ok methods := by
  induction methods with
  | nil => rfl
  | cons method rest inductionHypothesis =>
    have onward := inductionHypothesis fun other member =>
      plain other (List.mem_cons_of_mem _ member)
    have first := plain method List.mem_cons_self
    have named : (Value.field "name" (methodEntries method)).isGiven = true := by
      simpa [methodEntries] using isGiven_text first.named
    rw [List.map_cons, methodsOf, if_pos named, methodOf_entries first, onward]
    rfl

/-- Entering entries with new and distinct keys appends them. -/
theorem foldl_put {known written : Keyed Text}
    (distinct : (Keyed.keys (known ++ written)).Nodup) :
    (importEntries written).foldl
      (fun keyed entry => Keyed.put entry.1.toText entry.2.toText keyed) known =
        known ++ written := by
  induction written generalizing known with
  | nil => simp [importEntries]
  | cons entry rest inductionHypothesis =>
    obtain ⟨short, full⟩ := entry
    have absent : Keyed.find? short known = none := by
      rw [← Option.not_isSome_iff_eq_none]
      intro present
      have member : short ∈ Keyed.keys known := Keyed.mem_keys_of_has present
      rw [Keyed.keys, List.map_append] at distinct
      exact (List.nodup_append.mp distinct).2.2 short member short (by simp) rfl
    have regrouped : known ++ (short, full) :: rest = known ++ [(short, full)] ++ rest := by simp
    rw [regrouped] at distinct ⊢
    rw [← inductionHypothesis distinct, ← Keyed.put_of_absent absent]
    rfl

/-- Imports are read back. -/
theorem importsOf_entries {entries : Entries} {imports : Keyed Text}
    (written : Value.field "imports" entries = .map (importEntries imports))
    (distinct : (Keyed.keys imports).Nodup) : importsOf entries = .ok imports := by
  simp only [importsOf, written]
  cases imports with
  | nil => rfl
  | cons entry rest => exact congrArg Except.ok (@foldl_put [] _ distinct)

/-- A declaration is read back, with the file it is read from. -/
theorem declarationOf_entries {declaration : Declaration} (plain : IsPlain declaration)
    (file : Option Text) :
    declarationOf file (declarationEntries declaration) = .ok { declaration with file } := by
  have name : (Value.field "name" (declarationEntries declaration)).toText = declaration.name := by
    simp [declarationEntries, Value.toText]
  have kind : textField "kind" (declarationEntries declaration) = declaration.kind :=
    textField_text (by simp [declarationEntries])
  have comment : textField "comment" (declarationEntries declaration) = declaration.comment :=
    textField_text (by simp [declarationEntries])
  have parent : Value.field "extends" (declarationEntries declaration) =
      optionalValue declaration.parent := by simp [declarationEntries]
  have interfaces : listField "implements" (declarationEntries declaration) =
      .ok (declaration.interfaces.map .text) := listField_texts (by simp [declarationEntries])
  have modifiers : modifiersField (declarationEntries declaration) = .ok declaration.modifiers :=
    modifiersField_texts (by simp [declarationEntries]) plain.modifiers
  have imports : importsOf (declarationEntries declaration) = .ok declaration.scope.imports :=
    importsOf_entries (by simp [declarationEntries]) plain.imports
  have members : listField "members" (declarationEntries declaration) =
      .ok (declaration.methods.map fun method => .map (methodEntries method)) :=
    listField_list (by simp [declarationEntries])
  have methods := methodsOf_entries plain.methods
  have readKind : Text.lower (if declaration.kind = [] then "class".toList else declaration.kind) =
      declaration.kind := by rw [if_neg plain.kind.1, plain.kind.2]
  have readParent : (if (optionalValue declaration.parent).isGiven then
      some (ClassName.clean (optionalValue declaration.parent).toText) else none) =
        declaration.parent := by
    cases given : declaration.parent with
    | none => rfl
    | some parent =>
      obtain ⟨nonempty, clean⟩ := plain.parent parent given
      rw [optionalValue, if_pos (isGiven_text nonempty), Value.toText, clean]
  have readInterfaces : (declaration.interfaces.map Value.text).map
      (fun item => ClassName.clean item.toText) = declaration.interfaces :=
    map_text fun interface member => (plain.interfaces interface member).2
  simp only [declarationOf, name, kind, comment, parent, interfaces, modifiers, imports, members,
    methods, bind, Except.bind, pure, Except.pure, readKind, readParent, readInterfaces,
    plain.name.2, ← plain.space]

/-- A declaration in another file. -/
def withFile (path : Text) (declaration : Declaration) : Declaration :=
  { declaration with file := some path }

/-- Declarations are read back in order. -/
theorem declarationsOf_entries {declarations : List Declaration}
    (plain : ∀ declaration ∈ declarations, IsPlain declaration) (path : Text) :
    declarationsOf (some path)
      (declarations.map fun declaration => .map (declarationEntries declaration)) =
        .ok (declarations.map (withFile path)) := by
  induction declarations with
  | nil => rfl
  | cons declaration rest inductionHypothesis =>
    have onward := inductionHypothesis fun other member =>
      plain other (List.mem_cons_of_mem _ member)
    have first := plain declaration List.mem_cons_self
    have named : (Value.field "name" (declarationEntries declaration)).isGiven = true := by
      simpa [declarationEntries] using isGiven_text first.name.1
    rw [List.map_cons, declarationsOf, if_pos named, declarationOf_entries first, onward]
    rfl

/-- Declarations are read back from their document. -/
theorem ofDocument_document {declarations : List Declaration}
    (plain : ∀ declaration ∈ declarations, IsPlain declaration) (path : Text) :
    ofDocument path (document declarations) = .ok (declarations.map (withFile path)) := by
  simp only [ofDocument, document, field_entriesOf_cons, if_true]
  exact declarationsOf_entries plain path

end Docblock.Manifest

namespace Docblock.Loading

open Source Manifest

/-- Declarations that were written as a manifest are loaded from it. -/
theorem loadFile_document {reader : DocumentReader} {disk : Disk} {path : Path}
    {text : Text} {declarations : List Declaration} (state : Loading)
    (named : Files.isDocumentName (path.names.getLast?.getD []) = true)
    (read : disk.text path = .ok text)
    (written : reader.read (withoutHeader text) = .ok (document declarations))
    (plain : ∀ declaration ∈ declarations, IsPlain declaration) :
    loadFile reader disk path state =
      (.ok (declarations.map (withFile path.toText)),
        state.addAll path (declarations.map (withFile path.toText))) := by
  have found : declarationsIn reader disk path = .ok (declarations.map (withFile path.toText)) := by
    rw [declarationsIn, if_pos named, read]
    show (reader.read (withoutHeader text)).bind (ofDocument path.toText) = _
    rw [written]
    exact ofDocument_document plain path.toText
  rw [loadFile, found]

/-- Declarations that reading leaves alone come back from a manifest in order, with the
file they are read from in the place of their own and everything else as it was: from
the document they are written as, and from a file with any text that reads as this
document. Nothing else is registered, and nothing is passed over. -/
theorem written_declarations {declarations : List Declaration}
    (plain : ∀ declaration ∈ declarations, IsPlain declaration) :
    (∀ path, ofDocument path (document declarations) =
      .ok (declarations.map (withFile path))) ∧
    ∀ (reader : DocumentReader) (disk : Disk) (path : Path) (text : Text) (state : Loading),
      Files.isDocumentName (path.names.getLast?.getD []) = true →
      disk.text path = .ok text →
      reader.read (withoutHeader text) = .ok (document declarations) →
      loadFile reader disk path state =
        (.ok (declarations.map (withFile path.toText)),
          state.addAll path (declarations.map (withFile path.toText))) := by
  constructor
  · exact ofDocument_document plain
  · intro reader disk path text state named read written
    exact loadFile_document state named read written plain

/-- A class with a value in every field. -/
def fullClass : Declaration where
  name := "Shop\\Cart".toList
  scope := { space := "Shop".toList, imports := [("Item".toList, "Store\\Item".toList)] }
  comment := "/** A cart. */".toList
  parent := some "Shop\\Base".toList
  interfaces := ["Countable".toList]
  modifiers := ["final".toList]
  methods := [{
    name := "add".toList
    modifiers := ["public".toList]
    parameters := [{ name := "$item".toList, default := some [] }]
    returnType := some "int".toList }]

/-- The manifest of that class. -/
def fullManifest : Text :=
  [ "### PHPDocsMD:Signatures",
    "types:",
    "  - name: Shop\\Cart",
    "    kind: class",
    "    comment: /** A cart. */",
    "    extends: Shop\\Base",
    "    implements: [Countable]",
    "    modifiers: [final]",
    "    imports:",
    "      Item: Store\\Item",
    "    members:",
    "      - name: add",
    "        comment: \"\"",
    "        modifiers: [public]",
    "        params:",
    "          - name: $item",
    "            type: null",
    "            default: \"\"",
    "        return_type: int"].flatMap fun line => line.toList ++ ['\n']

/-- Reading leaves that class alone. -/
theorem fullClass_isPlain : IsPlain fullClass where
  name := by decide +kernel
  space := by decide +kernel
  kind := by decide +kernel
  parent := by
    intro name given
    cases given
    decide +kernel
  interfaces := by decide +kernel
  modifiers := by decide +kernel
  imports := by decide
  methods := by
    intro method member
    rw [List.mem_singleton.mp member]
    exact ⟨by decide, by decide +kernel, by decide⟩

/-- The manifest of that class reads as the document it is written as, and the class is
loaded from it. -/
theorem fullManifest_loaded :
    Yaml.reader.read (withoutHeader fullManifest) = .ok (document [fullClass]) ∧
    (loadFile Yaml.reader (Disk.holding "m.yml".toList fullManifest) manifestPath {}).1 =
      .ok [{ fullClass with file := some "m.yml".toList }] := by
  have plain : ∀ declaration ∈ [fullClass], IsPlain declaration := by
    intro declaration member
    rw [List.mem_singleton.mp member]
    exact fullClass_isPlain
  have named : Files.isDocumentName (manifestPath.names.getLast?.getD []) = true := by
    decide +kernel
  have read : (Disk.holding "m.yml".toList fullManifest).text manifestPath = .ok fullManifest :=
    Disk.text_holding (by decide) (by decide +kernel)
  have written : Yaml.reader.read (withoutHeader fullManifest) = .ok (document [fullClass]) := by
    decide +kernel
  refine ⟨written, ?_⟩
  rw [(written_declarations plain).2 _ _ _ _ {} named read written]
  rfl

end Docblock.Loading
