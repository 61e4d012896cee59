import Docblock.Text.Quoted

/-!
# Failures

Everything that can end an operation early, by its cause. The causes that are
about documentation have a wording that users see. Those that come from the
surroundings (files, encodings, shapes of foreign data) are told apart only as
far as an answer can show it.
-/

namespace Docblock

/-- What is wrong with a file or a path. -/
inductive FileFault
  | missing | notDirectory | isDirectory | alreadyExists | endlessLinks
deriving DecidableEq, Repr

/-- How a document value has another shape than its place asks for: what should
have items has none, what should have fields has none, a name or a pattern is no
text, or a list is neither written out nor separated by commas. -/
inductive ShapeFault
  | noItems | noFields | notAName | notAPattern | notAList
deriving DecidableEq, Repr

/-- What is wrong with a text that has fields to fill in. -/
inductive TemplateFault
  | unknownField | numberedField | malformed | noSuchMember | notAnIndex
deriving DecidableEq, Repr

/-- What is wrong with a pattern: it does not read, a repetition asks for more rounds
than can be counted, or it asks for two exclusive alphabets. -/
inductive PatternFault
  | malformed | tooManyRounds | exclusiveAlphabets
deriving DecidableEq, Repr

/-- The cause of an early end. -/
inductive Failure
  | unknownType (name : Text)
  | nothingToDocument
  | layoutModuleMissing (name missing : Text) (holder : Option Text)
  | notALayout (slug : Text)
  | unfinishedLayout (slug : Text)
  | emptyModuleName
  | relativeModuleName
  | manifestWithoutTypes (path : Text)
  | shape (fault : ShapeFault)
  | template (fault : TemplateFault)
  | pattern (fault : PatternFault)
  | badDocument
  | badNumber
  | badEncoding
  | file (fault : FileFault)
deriving DecidableEq, Repr

namespace Failure

/-- The wording of a file fault. -/
def fileMessage : FileFault → Text
  | .missing => "No such file or directory".toList
  | .notDirectory => "Not a directory".toList
  | .isDirectory => "Is a directory".toList
  | .alreadyExists => "File exists".toList
  | .endlessLinks => "Too many levels of symbolic links".toList

/-- The name of the contract that every table layout fulfils. -/
def contractName : Text := "phpdocs_md.table_generator.TableGenerator".toList

/-- The wording of a failure. -/
def message : Failure → Text
  | .unknownType name => "Unknown class, interface or trait: ".toList ++ name
  | .nothingToDocument => "No classes found".toList
  | .layoutModuleMissing name missing holder =>
    "Cannot import table generator module ".toList ++ Text.quoted name ++
      ": No module named ".toList ++ Text.quoted missing ++
      (match holder with
      | some outer => "; ".toList ++ Text.quoted outer ++ " is not a package".toList
      | none => [])
  | .notALayout slug =>
    "The table generator ".toList ++ Text.quoted slug ++ " should be a subclass of ".toList ++
      contractName ++ ".".toList
  | .unfinishedLayout slug =>
    "The table generator ".toList ++ Text.quoted slug ++
      " does not implement the render contract.".toList
  | .emptyModuleName => "Empty module name".toList
  | .relativeModuleName => "The module name is relative".toList
  | .manifestWithoutTypes path => "Signature manifest without a 'types' list: ".toList ++ path
  | .shape _ => "A value has the wrong shape".toList
  | .template _ => "The address template cannot be filled in".toList
  | .pattern _ => "The method pattern is malformed".toList
  | .badDocument => "The document is malformed".toList
  | .badNumber => "A number has no digits".toList
  | .badEncoding => "The file is not valid UTF-8".toList
  | .file fault => fileMessage fault

/-- Whether the command line reports a failure as an error of the run. All other
failures show that a setting has a value nobody should have given it. -/
def isReported : Failure → Bool
  | .unknownType _ | .nothingToDocument | .layoutModuleMissing .. | .notALayout _
  | .unfinishedLayout _ | .pattern .malformed | .badDocument
  | .file _ => true
  | .emptyModuleName | .relativeModuleName | .manifestWithoutTypes _ | .shape _ | .template _
  | .pattern _ | .badNumber | .badEncoding => false

/-- Whether a failure says that a source could not be read. Such a source is
passed over; any other failure ends the loading. -/
def isAboutReading : Failure → Bool
  | .file _ | .badEncoding | .badDocument | .badNumber | .manifestWithoutTypes _ => true
  | _ => false

end Failure

section Success

variable {ε α β : Type}

/-- What ends well after a change ended well before it. -/
theorem exists_of_map_eq_ok {result : Except ε α} {change : α → β} {final : β}
    (ended : result.map change = .ok final) :
    ∃ value, result = .ok value ∧ change value = final := by
  cases result with
  | error failure => cases ended
  | ok value => exact ⟨value, rfl, Except.ok.inj ended⟩

/-- What ends well in two steps ends well in each of them. -/
theorem exists_of_bind_eq_ok {result : Except ε α} {next : α → Except ε β} {final : β}
    (ended : result >>= next = .ok final) :
    ∃ value, result = .ok value ∧ next value = .ok final := by
  cases result with
  | error failure => cases ended
  | ok value => exact ⟨value, rfl, ended⟩

end Success

end Docblock
