import Docblock.Proofs.Loading.Registered
import Docblock.Proofs.Text.Spaced
import Docblock.Proofs.Value.Merging
import Docblock.Run
import Docblock.Yaml.Document

/-!
# Settings that are lists

A setting that is a list may be written as a text with commas. Its items are found as those of a
list are: they are trimmed, and blank ones are left out. So white space around the commas does
not matter, and what has been found once is found again.

A text on the command line therefore selects what a list in the configuration does. Where the
text is empty, the command line says nothing, and where the list is empty, so does the
configuration: in both cases what the defaults say remains.
-/

namespace Docblock.Options

section Items

variable {items found : List Text} {written : Text}

/-- The items of a text with commas are what stands between the commas alone. -/
theorem splitText_eq (s : Text) : splitText s = trimmedItems (Text.splitOn ',' s) := by
  rw [splitText, trimmedItems, trimmedItems, Text.map_trim_splitSpaced (by decide)]

/-- An empty text has no items. -/
theorem splitText_nil : splitText [] = [] := by
  rw [splitText_eq]
  rfl

/-- Items without commas that are written with commas between them are found as they are. -/
theorem splitText_of_isSpaced (spaced : Text.IsSpaced ',' items written)
    (plain : ∀ item ∈ items, ',' ∉ item) : splitText written = trimmedItems items := by
  cases items with
  | nil =>
    cases spaced
    exact splitText_nil
  | cons item rest =>
    rw [splitText_eq, trimmedItems, trimmedItems,
      spaced.map_trim_splitOn (by decide) (List.cons_ne_nil item rest) plain]

/-- Items that were trimmed and are not blank stay as they are. -/
theorem trimmedItems_trimmedItems (items : List Text) :
    trimmedItems (trimmedItems items) = trimmedItems items := by
  have trimmed : (trimmedItems items).map Text.trim = trimmedItems items := by
    refine (List.map_congr_left fun item listed => ?_).trans (List.map_id _)
    obtain ⟨first, -, rfl⟩ := List.mem_map.mp (List.mem_of_mem_filter listed)
    exact Text.trim_trim first
  rw [trimmedItems, trimmed]
  exact List.filter_eq_self.mpr fun item listed => (List.mem_filter.mp listed).2

/-- The items of a list of texts. -/
theorem splitList_texts (items : List Text) :
    splitList (.list (items.map .text)) = .ok (trimmedItems items) := by
  have kept : Value.toText ∘ Value.text = id := rfl
  rw [splitList, List.map_map, kept, List.map_id]

/-- What has been found is found again. -/
theorem splitList_again {value : Value} (split : splitList value = .ok found) :
    splitList (.list (found.map .text)) = .ok found := by
  rw [splitList_texts]
  have done (items : List Text) (same : trimmedItems items = found) :
      trimmedItems found = found := by
    rw [← same, trimmedItems_trimmedItems]
  cases value with
  | null =>
    cases split
    rfl
  | list items => rw [done _ (Except.ok.inj split)]
  | text s => rw [done _ (Except.ok.inj split)]
  | _ => cases split

end Items

/-- A setting that is a list and may be given on the command line. -/
inductive ListSetting
  | visibility | ignored

namespace ListSetting

/-- The name of a setting in the configuration. -/
def name : ListSetting → String
  | visibility => "visibility"
  | ignored => "ignore"

/-- A command line with a text for a setting, or with none. -/
def give (setting : ListSetting) (written : Option Text) (arguments : CommandLine.Arguments) :
    CommandLine.Arguments :=
  match setting with
  | visibility => { arguments with visibility := written }
  | ignored => { arguments with ignored := written }

/-- What a setting is in the end. -/
def selected (setting : ListSetting) (options : Options) : List Text :=
  match setting with
  | visibility => options.visibility
  | ignored => options.ignored

/-- What is selected for the items of a setting. -/
def orDefault (setting : ListSetting) (found : List Text) : List Text :=
  match setting with
  | visibility => if found = [] then defaultVisibility else found
  | ignored => found

end ListSetting

section Entered

variable {setting : ListSetting} {first second entries : Entries}

/-- Maps with the same values under all texts but one. -/
def SameBut (name : Text) (first second : Entries) : Prop :=
  ∀ other, other ≠ name → Value.find? (.text other) first = Value.find? (.text other) second

/-- The value of a key after one was laid over it, or over that of another key. -/
theorem find?_overlay (name : String) (value : Option Value) (entries : Entries) (other : Text) :
    Value.find? (.text other) (overlay name value entries) =
      (if other = name.toList then value else none).or (Value.find? (.text other) entries) := by
  cases value with
  | none => simp [overlay]
  | some value =>
    rw [overlay, Value.find?_put]
    split <;> rfl

/-- What the command line sets of a list is a list of the items of its text. -/
theorem find?_overridden (setting : ListSetting) (written : Option Text)
    (arguments : CommandLine.Arguments) (entries : Entries) :
    Value.find? (.text setting.name.toList) (overridden (setting.give written arguments) entries) =
      (givenList written).or (Value.find? (.text setting.name.toList) entries) := by
  cases setting <;> simp [overridden, find?_overlay, ListSetting.name, ListSetting.give]

/-- The command line sets other values without regard to a list. -/
theorem SameBut.overridden (same : SameBut setting.name.toList first second)
    (written other : Option Text) (arguments : CommandLine.Arguments) :
    SameBut setting.name.toList (overridden (setting.give written arguments) first)
      (overridden (setting.give other arguments) second) := by
  intro key different
  have equal := same key different
  cases setting <;>
    simp only [ListSetting.name] at different <;>
    simp only [Options.overridden, find?_overlay, ListSetting.give, equal, if_neg different]

/-- Settings are the same when lists select the same in them and their other values are the
same. -/
theorem ofEntries_congr {found others : List Text} (same : SameBut setting.name.toList first second)
    (here : splitList (Value.field setting.name first) = .ok found)
    (there : splitList (Value.field setting.name second) = .ok others)
    (selected : setting.orDefault found = setting.orDefault others) :
    ofEntries first = ofEntries second := by
  -- the values are read under texts, and only one of these is the name of the setting
  have fields (other : String) (different : other.toList ≠ setting.name.toList) :
      Value.field other first = Value.field other second := by
    rw [Value.field, Value.field, same _ different]
  have guesses : Value.find? (.text "guess_return_type".toList) first =
      Value.find? (.text "guess_return_type".toList) second :=
    same _ (by cases setting <;> decide)
  cases setting with
  | visibility =>
    have chosen : (if found = [] then defaultVisibility else found) =
        if others = [] then defaultVisibility else others := selected
    simp only [ListSetting.name] at fields here there
    simp (disch := decide) only [ofEntries, bind, Except.bind, here, there, fields, guesses, chosen]
  | ignored =>
    obtain rfl : found = others := selected
    simp only [ListSetting.name] at fields here there
    simp (disch := decide) only [ofEntries, here, there, fields, guesses]

/-- What is selected for the items of a setting, if the settings can be read. -/
theorem selected_ofEntries {found : List Text} {options : Options}
    (read : ofEntries entries = .ok options)
    (split : splitList (Value.field setting.name entries) = .ok found) :
    setting.selected options = setting.orDefault found := by
  cases setting <;> simp only [ListSetting.name] at split <;>
    simp only [ofEntries, bind, Except.bind, split] at read
  all_goals
    split at read
    · cases read
    · split at read
      · cases read
      · cases read
        rfl

end Entered

section Configuration

variable {setting : ListSetting} {given listed : Entries}

/-- The entries of a configuration document. One without content has none. -/
inductive Holds : Value → Entries → Prop
  | map (entries : Entries) : Holds (.map entries) entries
  | empty {document : Value} (nothing : document.isGiven = false) : Holds document []

/-- The configuration at a path has these entries. -/
def Configures (reader : DocumentReader) (disk : Disk) (path : Option Text)
    (entries : Entries) : Prop :=
  ∃ value, document reader disk path = .ok value ∧ Holds value entries

/-- A configuration has a list of texts for a setting, and otherwise what another one has. -/
structure ListSetting.IsListed (setting : ListSetting) (items : List Text)
    (given listed : Entries) : Prop where
  entered : Value.under setting.name.toList listed = [.list (items.map .text)]
  others (name : Text) : name ≠ setting.name.toList →
    Value.under name given = Value.under name listed

/-- The entries of a document are laid over the defaults. -/
theorem Holds.configured_eq {document : Value} (holds : Holds document given) :
    configured document = .ok (Value.merged defaults given) := by
  cases holds with
  | empty nothing => simp [configured, nothing, Value.merged]
  | map =>
    cases given with
    | nil => rfl
    | cons entry rest => rfl

/-- A run is set by its configuration, laid over the defaults, and by the command line. -/
theorem ofArguments_eq {reader : DocumentReader} {disk : Disk} {configuration : Option Text}
    (configures : Configures reader disk configuration given) (setting : ListSetting)
    (written : Option Text) (arguments : CommandLine.Arguments) :
    ofArguments reader disk (setting.give written { arguments with configuration }) =
      ofEntries (overridden (setting.give written arguments) (Value.merged defaults given)) := by
  obtain ⟨value, read, holds⟩ := configures
  have asked : (setting.give written { arguments with configuration }).configuration =
      configuration := by
    cases setting <;> rfl
  have others : overridden (setting.give written { arguments with configuration }) =
      overridden (setting.give written arguments) := by
    cases setting <;> rfl
  rw [ofArguments, asked, read, others]
  show (configured value).bind _ = _
  rw [holds.configured_eq]
  rfl

/-- The list of a setting takes the place of the default. -/
theorem find?_merged_list {items : List Value}
    (entered : Value.under setting.name.toList listed = [.list items]) (base : Entries) :
    Value.find? (.text setting.name.toList) (Value.merged base listed) = some (.list items) := by
  have plain : (Value.text setting.name.toList).same Value.additiveKey = false := by
    cases setting <;> decide
  rw [Value.find?_merged_under, entered, List.foldl_cons, List.foldl_nil]
  rcases Value.find? (.text setting.name.toList) base with _ | old
  · rfl
  · cases old <;> simp [Value.mergedValue, plain]

/-- The configurations are the same, over the defaults, but for the setting. -/
theorem ListSetting.IsListed.sameBut {items : List Text}
    (isListed : setting.IsListed items given listed) :
    SameBut setting.name.toList (Value.merged defaults given) (Value.merged defaults listed) := by
  intro other different
  rw [Value.find?_merged_under, Value.find?_merged_under, isListed.others other different]

/-- What a setting without any entry selects is what it selects without items. -/
theorem splitList_defaults (setting : ListSetting) :
    ∃ found, splitList (Value.field setting.name defaults) = .ok found ∧
      setting.orDefault found = setting.orDefault [] := by
  cases setting with
  | visibility => exact ⟨defaultVisibility, rfl, rfl⟩
  | ignored => exact ⟨[], rfl, rfl⟩

/-- What a text selects on the command line, over a configuration that may have anything for the
setting unless the text is empty. -/
theorem splitList_overridden {items : List Text} {written : Text}
    (spaced : Text.IsSpaced ',' items written) (plain : ∀ item ∈ items, ',' ∉ item)
    (unset : written = [] → Value.under setting.name.toList given = [])
    (arguments : CommandLine.Arguments) :
    ∃ found, splitList (Value.field setting.name
        (overridden (setting.give (some written) arguments) (Value.merged defaults given))) =
          .ok found ∧
      setting.orDefault found = setting.orDefault (trimmedItems items) := by
  have read := splitText_of_isSpaced spaced plain
  rw [Value.field, find?_overridden]
  by_cases empty : written = []
  -- an empty text is not given, and what it would have selected is what the defaults select
  · subst empty
    obtain ⟨found, split, same⟩ := splitList_defaults setting
    refine ⟨found, ?_, ?_⟩
    · rw [Value.find?_merged_under, unset rfl]
      exact split
    · rw [same, ← read, splitText_nil]
  · refine ⟨trimmedItems items, ?_, rfl⟩
    have laid : givenList (some written) = some (.list ((trimmedItems items).map .text)) := by
      simp [givenList, empty, read]
    rw [laid, Option.some_or, Option.getD_some, splitList_texts, trimmedItems_trimmedItems]

end Configuration

/-- Items without commas select the same whether they are written with commas between them, each
with any white space around it, or listed; and what is found in a setting is found again in its
own result. So a text on the command line and a list in the configuration select the same, where
the configurations are otherwise the same. If the text is empty, the command line says nothing,
and then the configuration beside it must say nothing for the setting, too. -/
theorem written_items_selected {items : List Text} {written : Text}
    (spaced : Text.IsSpaced ',' items written) (plain : ∀ item ∈ items, ',' ∉ item) :
    (splitList (.text written) = .ok (trimmedItems items) ∧
      splitList (.list (items.map .text)) = .ok (trimmedItems items)) ∧
    (∀ value found, splitList value = .ok found → splitList (.list (found.map .text)) = .ok found) ∧
    ∀ (setting : ListSetting) (arguments : CommandLine.Arguments) (configuration : Option Text)
      (reader : DocumentReader) (disk other : Disk) (given listed : Entries),
      Configures reader disk arguments.configuration given →
      Configures reader other configuration listed →
      setting.IsListed items given listed →
      (written = [] → Value.under setting.name.toList given = []) →
      ofArguments reader disk (setting.give (some written) arguments) =
          ofArguments reader other (setting.give none { arguments with configuration }) ∧
        ∀ options, ofArguments reader disk (setting.give (some written) arguments) = .ok options →
          setting.selected options = setting.orDefault (trimmedItems items) := by
  refine ⟨⟨?_, splitList_texts items⟩, fun value found => splitList_again, ?_⟩
  · rw [splitList, splitText_of_isSpaced spaced plain]
  intro setting arguments configuration reader disk other given listed here there isListed unset
  obtain ⟨found, split, same⟩ := splitList_overridden spaced plain unset arguments
  have listing : Value.field setting.name
      (overridden (setting.give none arguments) (Value.merged defaults listed)) =
        .list (items.map .text) := by
    rw [Value.field, find?_overridden, find?_merged_list isListed.entered]
    rfl
  have first : ofArguments reader disk (setting.give (some written) arguments) =
      ofEntries (overridden (setting.give (some written) arguments)
        (Value.merged defaults given)) := ofArguments_eq here setting (some written) arguments
  rw [first, ofArguments_eq there]
  constructor
  · refine ofEntries_congr (isListed.sameBut.overridden _ _ arguments) split ?_ same
    rw [listing, splitList_texts]
  · intro options read
    rw [selected_ofEntries read split, same]

/-- A disk with one file has that file as its configuration. -/
theorem configures_holding {content : Text} {entries : Entries}
    (plain : (Text.Utf8.decode? (Text.Utf8.encode content)).map Text.unifyNewlines = some content)
    (read : Yaml.reader.read content = .ok (.map entries)) :
    Configures Yaml.reader (Disk.holding "c.yml".toList content) (some "c.yml".toList) entries := by
  refine ⟨.map entries, ?_, .map entries⟩
  have path : Path.ofText "c.yml".toList = { names := ["c.yml".toList] } := by decide +kernel
  have filled : (some "c.yml".toList).filter (· ≠ []) = some "c.yml".toList := rfl
  rw [document, filled]
  show ((Disk.holding "c.yml".toList content).text (Path.ofText "c.yml".toList)).bind _ = _
  rw [path, Disk.text_holding (by decide) plain]
  exact read

/-- Items among which one is blank, one is empty and one has a blank inside. -/
def spreadItems : List Text := ["public", " ", "final static", ""].map String.toList

/-- The items with commas between them and white space of several kinds around these. -/
def spreadText : Text := "public\t,  ,\u00a0final static ,".toList

/-- On the command line the text selects what the list does in the configuration, also when the
configuration beside the text says something else. -/
theorem spreadText_selected :
    let given := Value.fieldsOf
      [("visibility", .text "protected".toList), ("ignore", .list [.text "vendor".toList])]
    let listed := Value.fieldsOf
      [("ignore", .list [.text "vendor".toList]), ("visibility", .list (spreadItems.map .text))]
    let disk := Disk.holding "c.yml".toList "visibility: protected\nignore: [vendor]\n".toList
    let other := Disk.holding "c.yml".toList
      "ignore: [vendor]\nvisibility: [public, ' ', final static, '']\n".toList
    let arguments : CommandLine.Arguments := { configuration := some "c.yml".toList }
    Text.IsSpaced ',' spreadItems spreadText ∧ (∀ item ∈ spreadItems, ',' ∉ item) ∧
    Configures Yaml.reader disk arguments.configuration given ∧
    Configures Yaml.reader other arguments.configuration listed ∧
    ListSetting.visibility.IsListed spreadItems given listed ∧
    splitList (.text spreadText) = .ok ["public".toList, "final static".toList] ∧
    ofArguments Yaml.reader disk { arguments with visibility := some spreadText } =
      ofArguments Yaml.reader other arguments ∧
    ∃ options, ofArguments Yaml.reader other arguments = .ok options ∧
      options.visibility = ["public".toList, "final static".toList] := by
  intro given listed disk other arguments
  have spaced : Text.IsSpaced ',' spreadItems ("public".toList ++ ['\t'] ++ ',' :: ([' '] ++
      ([' '] ++ [] ++ ',' :: (['\u00a0'] ++
        ("final static".toList ++ [' '] ++ ',' :: ([] ++ [])))))) :=
    .more _ (Text.forall_mem rfl) (Text.forall_mem rfl) (List.cons_ne_nil _ _) <|
    .more _ (Text.forall_mem rfl) (Text.forall_mem rfl) (List.cons_ne_nil _ _) <|
    .more _ (Text.forall_mem rfl) (Text.forall_mem rfl) (List.cons_ne_nil _ _) <| .last _
  have plain : ∀ item ∈ spreadItems, ',' ∉ item := by decide
  have here : Configures Yaml.reader disk arguments.configuration given :=
    configures_holding (by decide +kernel) (by decide +kernel)
  have there : Configures Yaml.reader other arguments.configuration listed :=
    configures_holding (by decide +kernel) (by decide +kernel)
  have isListed : ListSetting.visibility.IsListed spreadItems given listed := by
    refine ⟨by decide +kernel, fun name different => ?_⟩
    have unnamed : Value.text "visibility".toList ≠ .text name := fun same =>
      different (Value.text.inj same).symm
    simp only [given, listed, Value.fieldsOf, List.map_cons, List.map_nil, Value.under_cons,
      if_neg unnamed]
  obtain ⟨⟨split, -⟩, -, selects⟩ := written_items_selected spaced plain
  obtain ⟨same, chosen⟩ :=
    selects .visibility arguments _ Yaml.reader disk other given listed here there isListed
      fun empty => absurd empty (by decide)
  refine ⟨spaced, plain, here, there, isListed, split, same, ?_⟩
  have result : ofArguments Yaml.reader other arguments =
      ofEntries (overridden arguments (Value.merged defaults listed)) :=
    ofArguments_eq there .visibility none arguments
  have readable : (ofArguments Yaml.reader other arguments).toOption.isSome = true := by
    rw [result]
    decide +kernel
  cases read : ofArguments Yaml.reader other arguments with
  | error failure =>
    rw [read] at readable
    cases readable
  | ok options => exact ⟨options, rfl, chosen options (same.trans read)⟩

end Docblock.Options
