import Docblock.Text.Quoted

/-!
# Notices

What happens on the way to the documentation and is worth a line in the log.
Every notice has a level, the part of the program it comes from and a wording.
-/

namespace Docblock

/-- How urgent a notice is. -/
inductive Level
  | debug | info | warning
deriving DecidableEq, Repr

/-- Something worth a line in the log. -/
inductive Notice
  | duplicate (name : Text) (file kept : Option Text)
  | unreadable (path : Text)
  | loaded (count : Nat) (path : Text)
  | resolved (name : Text) (count : Nat)
  | nothingInherited (owner method : Text)
  | lookupStopped (method name : Text)
  | leftOut (name : Text)
  | unknownSkipped (name : Text)
  | unknownLayout (slug : Text)
  | written (path : Text)
deriving DecidableEq, Repr

namespace Notice

/-- How urgent each notice is. -/
def level : Notice → Level
  | .duplicate .. | .unreadable _ | .unknownSkipped _ | .unknownLayout _ => .warning
  | .leftOut _ | .written _ => .info
  | .loaded .. | .resolved .. | .nothingInherited .. | .lookupStopped .. => .debug

/-- The part of the program that a notice comes from, as the log names it. -/
def origin : Notice → Text
  | .duplicate .. | .unreadable _ | .loaded .. => "phpdocs_md.signature_registry".toList
  | .resolved .. | .nothingInherited .. => "phpdocs_md.class_resolver".toList
  | .lookupStopped .. => "phpdocs_md.function_finder".toList
  | .leftOut _ => "phpdocs_md.document_assembler".toList
  | .unknownSkipped _ | .written _ => "phpdocs_md.run_generation".toList
  | .unknownLayout _ => "phpdocs_md.build_table_generator".toList

/-- The path of a file, or the word for no file. -/
def fileName (file : Option Text) : Text := file.getD "None".toList

/-- The wording of a notice. -/
def message : Notice → Text
  | .duplicate name file kept =>
    "Duplicate declaration of ".toList ++ name ++ " in ".toList ++ fileName file ++
      ", keeping ".toList ++ fileName kept
  | .unreadable path => "Skipping unreadable source ".toList ++ path
  | .loaded count path =>
    "Loaded ".toList ++ Text.ofNat count ++ " declarations from ".toList ++ path
  | .resolved name count =>
    "Resolved ".toList ++ name ++ " with ".toList ++ Text.ofNat count ++ " members".toList
  | .nothingInherited owner method =>
    "No inherited docs found for ".toList ++ owner ++ "::".toList ++ method
  | .lookupStopped method name =>
    "Stopping lookup of ".toList ++ method ++ " at unknown ".toList ++ name
  | .leftOut name => "Skipping ".toList ++ name
  | .unknownSkipped name => "Skipping unknown type ".toList ++ name
  | .unknownLayout slug =>
    "Unknown table generator ".toList ++ Text.quoted slug ++ ", using the default".toList
  | .written path => "Wrote documentation to ".toList ++ path

/-- The word for a level in the log. -/
def levelWord : Level → Text
  | .debug => "DEBUG".toList
  | .info => "INFO".toList
  | .warning => "WARNING".toList

/-- The line of a notice in the log. -/
def logLine (notice : Notice) : Text :=
  levelWord notice.level ++ ' ' :: notice.origin ++ ": ".toList ++ notice.message

/-- Whether a notice is written to the log of a run. -/
def isShown (verbose : Bool) (notice : Notice) : Bool := verbose || notice.level == .warning

end Notice
end Docblock
