import Docblock.CommandLine.Arguments
import Docblock.MemberTable.Catalogue
import Docblock.Pattern.OfText
import Docblock.Pattern.Search
import Docblock.Selection

/-!
# A run of the program

A run follows a command line in a file tree. Its settings are checked before any
source is read: the configuration, then the layout of the member tables. The sources
are loaded next and the target is looked up. The pattern for method names is read
after that, and the document is assembled and written.

A run ends with a document, with a failure that is reported, or with one that is not
because it shows a setting that nobody should have given.
-/

namespace Docblock

namespace Options

/-- The configuration document at a path; none without a path. -/
def document (reader : DocumentReader) (disk : Disk) (path : Option Text) :
    Except Failure Value :=
  match path.filter (· ≠ []) with
  | none => .ok .null
  | some path => (disk.text (Path.ofText path)).bind reader.read

/-- Lays a value over the entry of a name. -/
def overlay (name : String) (value : Option Value) (entries : Entries) : Entries :=
  match value with
  | none => entries
  | some value => Value.put (.text name.toList) value entries

/-- A text that is given and not empty. -/
def givenText (text : Option Text) : Option Value := (text.filter (· ≠ [])).map .text

/-- The items of a text with commas that is given and not empty. -/
def givenList (text : Option Text) : Option Value :=
  (text.filter (· ≠ [])).map fun s => .list ((splitText s).map .text)

/-- A switch that is set. -/
def givenSwitch (isSet : Bool) : Option Value := if isSet then some (.flag true) else none

/-- Lays what a command line sets over the entries of a configuration. -/
def overridden (arguments : CommandLine.Arguments) (entries : Entries) : Entries :=
  overlay "no_internal" (givenSwitch arguments.leavesOutInternal)
    (overlay "include_see" (givenSwitch arguments.showsReferences)
      (overlay "ignore" (givenList arguments.ignored)
        (overlay "table_generator" (givenText arguments.layout)
          (overlay "method_regex" (givenText arguments.methodPattern)
            (overlay "visibility" (givenList arguments.visibility) entries)))))

/-- The settings that a command line asks for. -/
def ofArguments (reader : DocumentReader) (disk : Disk) (arguments : CommandLine.Arguments) :
    Except Failure Options := do
  let entries ← configured (← document reader disk arguments.configuration)
  ofEntries (overridden arguments entries)

/-- Which method names the pattern in the settings selects; all without a pattern. -/
def selectsOf : Value → Except Failure (Text → Bool)
  | .text pattern =>
    if pattern = [] then .ok fun _ => true
    else
      match Pattern.ofText pattern with
      | .ok pattern => .ok pattern.occursIn
      | .error fault => .error (.pattern fault)
  | value => if value.isGiven then .error (.shape .notAPattern) else .ok fun _ => true

/-- The rules under which declarations become documentation, given which method
names are selected. -/
def rules (options : Options) (selects : Text → Bool) : Resolve.Rules :=
  { filter := { modifiers := some options.visibility, selects }
    builtIns := options.builtIns
    guessesReturnTypes := options.guessesReturnTypes }

/-- The settings of the document. -/
def documentSettings (options : Options) : DocumentSettings :=
  { showsReferences := options.showsReferences
    leavesOutInternal := options.leavesOutInternal
    template := options.template }

end Options

namespace Run

/-- A document with the file tree it is written to. -/
structure Written where
  disk : Disk
  shown : Text := []

/-- A step of a run: it adds notices and may fail. -/
abbrev Step (α : Type) := Except Failure α × List Notice

/-- Loads the given sources in order. -/
def loadSources (reader : DocumentReader) (disk : Disk) (ignored : List Text) :
    List Text → Loading → Except Failure Unit × Loading
  | [], state => (.ok (), state)
  | source :: rest, state =>
    match Loading.loadPath reader disk ignored (Path.ofText source) state with
    | (.ok _, after) => loadSources reader disk ignored rest after
    | (.error failure, after) => (.error failure, after)

/-- Writes a document to a file, or shows it if there is none. -/
def write (disk : Disk) (output : Option Text) (document : Text) : Step Written :=
  match output with
  | none => (.ok { disk, shown := document }, [])
  | some output =>
    let path := Path.ofText output
    match (disk.makeFoldersTo path).bind (·.write path (Text.Utf8.encode document)) with
    | .ok disk => (.ok { disk }, [.written path.toText])
    | .error fault => (.error (.file fault), [])

/-- Assembles and writes the document for a selection of loaded types. -/
def document (disk : Disk) (arguments : CommandLine.Arguments) (options : Options)
    (layout : Layout) (selection : Selection) (loading : Loading) : Step Written :=
  match Options.selectsOf options.methodPattern with
  | .error failure => (.error failure, loading.notices)
  | .ok selects =>
    let resolver : Resolver := { rules := options.rules selects, registry := loading.registry }
    match Document.assemble options.documentSettings resolver selection.isSingle
      selection.names { layout } { notices := loading.notices } with
    | (.error failure, _, state) => (.error failure, state.notices)
    | (.ok text, _, state) =>
      let written := write disk arguments.output text
      (written.1, state.notices ++ written.2)

/-- Loads what a run needs and writes its document, given the settings. -/
def withOptions (reader : DocumentReader) (disk : Disk) (arguments : CommandLine.Arguments)
    (options : Options) (layout : Layout) (notices : List Notice) : Step Written :=
  match loadSources reader disk options.ignored arguments.sources { notices } with
  | (.error failure, loading) => (.error failure, loading.notices)
  | (.ok (), loading) =>
    match Selection.ofTarget reader disk options.ignored arguments.target loading with
    | (.error failure, loading) => (.error failure, loading.notices)
    | (.ok selection, loading) => document disk arguments options layout selection loading

/-- Follows a command line. -/
def follow (reader : DocumentReader) (disk : Disk) (arguments : CommandLine.Arguments) :
    Step Written :=
  match Options.ofArguments reader disk arguments with
  | .error failure => (.error failure, [])
  | .ok options =>
    match Layout.ofSlug options.layout with
    | .error failure => (.error failure, [])
    | .ok (layout, notices) => withOptions reader disk arguments options layout notices

/-- How a run ends: its status, what it shows, its log, the failure that it reports and
the file tree it leaves. -/
structure Outcome where
  status : Nat
  shown : Text := []
  log : List Text := []
  failure : Option Failure := none
  disk : Disk

/-- The lines of the log. -/
def logOf (isVerbose : Bool) (notices : List Notice) : List Text :=
  (notices.filter (Notice.isShown isVerbose)).map Notice.logLine

end Run

/-- Runs the program with the words of a command line. A failure that is not reported
has no outcome. -/
def run (reader : DocumentReader) (disk : Disk) (words : List Text) :
    Except Failure Run.Outcome :=
  match CommandLine.read words with
  | .error .help => .ok { status := 0, disk }
  | .error .rejected => .ok { status := 2, disk }
  | .ok arguments =>
    match Run.follow reader disk arguments with
    | (.ok written, notices) =>
      .ok {
        status := 0
        shown := written.shown
        log := Run.logOf arguments.isVerbose notices
        disk := written.disk }
    | (.error failure, notices) =>
      if failure.isReported then
        .ok {
          status := 1
          log := Run.logOf arguments.isVerbose notices
          failure := some failure
          disk }
      else .error failure

end Docblock
