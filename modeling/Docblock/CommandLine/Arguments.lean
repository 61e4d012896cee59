import Docblock.CommandLine.Word

/-!
# What a command line asks for

A command line names one target and any options before or after it. An option with a
value takes it from its own word or from the next one, which has to be plain. Letters
of options without a value may be joined in one word. Two hyphens end the options:
what follows them is plain.

A command line is rejected as a whole. Words too many are noticed only at its end, so
that a request for help among them counts.
-/

namespace Docblock.CommandLine

/-- What a command line asks for. -/
structure Arguments where
  target : Text := []
  sources : List Text := []
  ignored : Option Text := none
  visibility : Option Text := none
  methodPattern : Option Text := none
  layout : Option Text := none
  showsReferences : Bool := false
  leavesOutInternal : Bool := false
  configuration : Option Text := none
  output : Option Text := none
  isVerbose : Bool := false
deriving Repr

/-- Why a command line is not followed: it is rejected, or it asks for help. -/
inductive Refusal
  | rejected | help
deriving DecidableEq, Repr

namespace Arguments

/-- Sets an option, with its value if it has one. -/
def set (arguments : Arguments) (option : Flag) (value : Text) : Except Refusal Arguments :=
  match option with
  | .source => .ok { arguments with sources := arguments.sources ++ [value] }
  | .ignore => .ok { arguments with ignored := some value }
  | .visibility => .ok { arguments with visibility := some value }
  | .methodPattern => .ok { arguments with methodPattern := some value }
  | .layout => .ok { arguments with layout := some value }
  | .references => .ok { arguments with showsReferences := true }
  | .noInternal => .ok { arguments with leavesOutInternal := true }
  | .configuration => .ok { arguments with configuration := some value }
  | .output => .ok { arguments with output := some value }
  | .verbose => .ok { arguments with isVerbose := true }
  | .help => .error .help

/-- Sets options in order. -/
def setAll (arguments : Arguments) (settings : List (Flag × Text)) :
    Except Refusal Arguments :=
  settings.foldlM (fun arguments setting => arguments.set setting.1 setting.2) arguments

end Arguments

/-- What a word with options asks for: settings, an option that still needs a value,
and whether a letter in it is unknown. -/
structure Request where
  settings : List (Flag × Text) := []
  needing : Option Flag := none
  hasUnknown : Bool := false

namespace Request

/-- A request for an option without a value in its word. -/
def ofOption (option : Flag) : Request :=
  if option.takesValue then { needing := some option } else { settings := [(option, [])] }

/-- A request for an option and then for others. -/
def after (option : Flag) (request : Request) : Request :=
  { request with settings := (option, []) :: request.settings }

/-- What the letters joined in a word ask for, given the first of them and the text
behind it. Letters without a value go before others, and no equals sign or hyphen
stands behind them. -/
def ofLetters (option : Flag) : Text → Except Refusal Request
  | [] => .ok (ofOption option)
  | c :: rest =>
    if option.takesValue then
      .ok { settings := [(option, if c = '=' then rest else c :: rest)] }
    else if c = '=' ∨ c = '-' then .error .rejected
    else
      match Flag.ofLetter? c with
      | none => .ok { settings := [(option, [])], hasUnknown := true }
      | some next => (ofLetters next rest).map (after option)

/-- What an option by its long name asks for, given the text behind the name. -/
def ofLong (option : Flag) : Text → Except Refusal Request
  | [] => .ok (ofOption option)
  | _ :: value =>
    if option.takesValue then .ok { settings := [(option, value)] } else .error .rejected

end Request

/-- How far the words have been read: what they ask for, a request that waits for the
value of its last option, whether a target is among them, whether it was the last
word, and whether there are words too many. -/
structure Progress where
  arguments : Arguments := {}
  waiting : Option (Request × Flag) := none
  hasTarget : Bool := false
  endsWithTarget : Bool := false
  hasExtra : Bool := false

namespace Progress

/-- Takes a plain word: the target, or a word too many. -/
def plain (progress : Progress) (s : Text) : Progress :=
  if progress.hasTarget then { progress with hasExtra := true, endsWithTarget := false }
  else
    { progress with
      arguments := { progress.arguments with target := s }
      hasTarget := true
      endsWithTarget := true }

/-- Takes a word that is no option. -/
def extra (progress : Progress) : Progress :=
  { progress with hasExtra := true, endsWithTarget := false }

/-- Takes what a word asks for, with the value that it waited for if it did. -/
def grant (progress : Progress) (request : Request) (value : List (Flag × Text)) :
    Except Refusal Progress :=
  (progress.arguments.setAll (request.settings ++ value)).map fun arguments =>
    { progress with
      arguments
      waiting := none
      endsWithTarget := false
      hasExtra := progress.hasExtra || request.hasUnknown }

/-- Takes a request, which may have to wait for a value. -/
def follow (progress : Progress) (request : Request) : Except Refusal Progress :=
  match request.needing with
  | none => progress.grant request []
  | some option => .ok { progress with waiting := some (request, option) }

/-- Takes a word. -/
def take (progress : Progress) (word : Word) : Except Refusal Progress :=
  match progress.waiting, word with
  | some (request, option), .plain value => progress.grant request [(option, value)]
  | some _, _ => .error .rejected
  | none, .plain s => .ok (progress.plain s)
  | none, .unknown => .ok progress.extra
  | none, .long option behind => (Request.ofLong option behind).bind progress.follow
  | none, .short option behind => (Request.ofLetters option behind).bind progress.follow

end Progress

/-- Reads what follows two hyphens: the target, or nothing if the target was the word
before them. -/
def readBehind (behind : List Text) (progress : Progress) : Except Refusal Progress :=
  match progress.hasTarget, behind with
  | false, s :: more =>
    let named := progress.plain s
    .ok { named with hasExtra := named.hasExtra || !more.isEmpty }
  | false, [] => .error .rejected
  | true, [] => .ok { progress with hasExtra := progress.hasExtra || !progress.endsWithTarget }
  | true, _ :: _ => .error .rejected

/-- What a command line asks for, given its words. -/
def read (words : List Text) : Except Refusal Arguments :=
  let ending := "--".toList
  match (words.takeWhile (· != ending)).mapM Word.ofText? with
  | none => .error .rejected
  | some options => do
    let progress ← options.foldlM Progress.take {}
    if progress.waiting.isSome then throw .rejected
    let progress ←
      match words.dropWhile (· != ending) with
      | [] => pure progress
      | _ :: behind => readBehind behind progress
    if progress.hasTarget && !progress.hasExtra then pure progress.arguments
    else throw .rejected

end Docblock.CommandLine
