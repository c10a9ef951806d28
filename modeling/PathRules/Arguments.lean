import PathRules.Text

/-!
# Command line arguments

A run takes one path, the list of changed files, and options. Arguments are read from left to
right. A value that stands apart from its option, and the path, are only looked at when the next
option or path comes or the arguments end; what is wrong with an argument that nobody knows is
said before that. The first finding ends the reading.
-/

namespace PathRules

inductive ReportFormat where
  | text | json
  deriving DecidableEq, Repr

def ReportFormat.ofName? (name : Text) : Option ReportFormat :=
  if name = Text.of "text" then some .text
  else if name = Text.of "json" then some .json
  else none

structure Arguments where
  changedFiles : Text
  config : Option Text := none
  rulesDir : Option Text := none
  extension : Option Text := none
  output : ReportFormat := .text
  deriving DecidableEq, Repr

namespace Arguments

inductive UsageError where
  /-- No list of changed files. -/
  | missingArgument
  /-- An option that nobody knows, or one path too many. -/
  | unknownArgument
  /-- A value that is missing or not allowed. -/
  | invalidValue
  /-- An option given twice. -/
  | conflict
  /-- A value for an option that takes none. -/
  | surplusValue
  deriving DecidableEq, Repr

inductive Stop where
  | help
  | version
  | usage (error : UsageError)
  deriving DecidableEq, Repr

inductive Setting where
  | config | rulesDir | extension | output
  deriving DecidableEq, Repr

inductive Flag where
  | setting (setting : Setting)
  /-- An option without a value, which ends the reading. -/
  | stop (stop : Stop)
  deriving DecidableEq, Repr

def Flag.ofName? (name : Text) : Option Flag :=
  if name = Text.of "config" then some (.setting .config)
  else if name = Text.of "rules-dir" then some (.setting .rulesDir)
  else if name = Text.of "extension" then some (.setting .extension)
  else if name = Text.of "output" then some (.setting .output)
  else if name = Text.of "help" then some (.stop .help)
  else if name = Text.of "version" then some (.stop .version)
  else none

/-- The options by their letters. -/
def Flag.ofLetter? : Char → Option Flag
  | 'C' => some (.setting .config)
  | 'o' => some (.setting .output)
  | 'h' => some (.stop .help)
  | 'V' => some (.stop .version)
  | _ => none

/-- What was read but not looked at. -/
inductive Pending where
  | nothing
  /-- An option that stands apart from its value, which may still be missing. -/
  | setting (setting : Setting) (value : Option Text)
  | path (path : Text)
  deriving DecidableEq, Repr

structure Progress where
  changedFiles : Option Text := none
  config : Option Text := none
  rulesDir : Option Text := none
  extension : Option Text := none
  output : Option ReportFormat := none
  pending : Pending := .nothing
  /-- Whether all further arguments are paths. -/
  onlyPaths : Bool := false
  deriving DecidableEq, Repr

namespace Progress

def has (progress : Progress) : Setting → Bool
  | .config => progress.config.isSome
  | .rulesDir => progress.rulesDir.isSome
  | .extension => progress.extension.isSome
  | .output => progress.output.isSome

def hasPath (progress : Progress) : Bool :=
  progress.changedFiles.isSome || match progress.pending with
    | .path _ => true
    | _ => false

/-- The state with the value of an option. A path may not be empty. -/
def set (progress : Progress) (setting : Setting) (value : Text) : Except Stop Progress :=
  if progress.has setting then .error (.usage .conflict)
  else match setting with
    | .config =>
      if value.isEmpty then .error (.usage .invalidValue)
      else .ok { progress with config := some value }
    | .rulesDir =>
      if value.isEmpty then .error (.usage .invalidValue)
      else .ok { progress with rulesDir := some value }
    | .extension => .ok { progress with extension := some value }
    | .output =>
      match ReportFormat.ofName? value with
      | some format => .ok { progress with output := some format }
      | none => .error (.usage .invalidValue)

/-- Looks at what is pending. -/
def settle (progress : Progress) : Except Stop Progress :=
  let settled := { progress with pending := .nothing }
  match progress.pending with
  | .nothing => .ok settled
  | .setting _ none => .error (.usage .invalidValue)
  | .setting setting (some value) => settled.set setting value
  | .path path =>
    if path.isEmpty then .error (.usage .invalidValue)
    else .ok { settled with changedFiles := some path }

def addPath (progress : Progress) (path : Text) : Except Stop Progress :=
  if progress.hasPath then .error (.usage .unknownArgument)
  else do
    let settled ← progress.settle
    pure { settled with pending := .path path }

def addFlag (progress : Progress) (flag : Flag) (attached : Option Text) : Except Stop Progress :=
  match flag, attached with
  | .stop _, some _ => .error (.usage .surplusValue)
  | .stop stop, none => do
    let _ ← progress.settle
    .error stop
  | .setting setting, some value => do
    let settled ← progress.settle
    settled.set setting value
  | .setting setting, none => do
    let settled ← progress.settle
    pure { settled with pending := .setting setting none }

/-- An argument that starts with two dashes, after these. -/
def addLong (progress : Progress) (word : Text) : Except Stop Progress :=
  let name := word.takeWhile (· != '=')
  let attached := match word.dropWhile (· != '=') with
    | [] => none
    | _ :: value => some value
  match Flag.ofName? name with
  | some flag => progress.addFlag flag attached
  | none => .error (.usage .unknownArgument)

/-- An argument that starts with one dash, after it: a letter, and the value of its option if it
takes one. -/
def addShort (progress : Progress) (letter : Char) (rest : Text) : Except Stop Progress :=
  match Flag.ofLetter? letter with
  | none => .error (.usage .unknownArgument)
  | some (.stop stop) => progress.addFlag (.stop stop) none
  | some flag =>
    progress.addFlag flag <| match rest with
      | [] => none
      | '=' :: value => some value
      | value => some value

def add (progress : Progress) (argument : Text) : Except Stop Progress :=
  if progress.onlyPaths then progress.addPath argument
  else match argument with
    | ['-', '-'] => .ok { progress with onlyPaths := true }
    | '-' :: '-' :: word => progress.addLong word
    | '-' :: letter :: rest => progress.addShort letter rest
    | _ =>
      match progress.pending with
      | .setting setting none => .ok { progress with pending := .setting setting (some argument) }
      | _ => progress.addPath argument

/-- The end of the arguments. The configuration may also come from the environment. -/
def finish (progress : Progress) (environment : Option Text) : Except Stop Arguments := do
  let settled ← progress.settle
  let settled ← match settled.config, environment with
    | none, some value => settled.set .config value
    | _, _ => pure settled
  match settled.changedFiles with
  | none => .error (.usage .missingArgument)
  | some changedFiles =>
    pure {
      changedFiles
      config := settled.config
      rulesDir := settled.rulesDir
      extension := settled.extension
      output := settled.output.getD .text }

end Progress

/-- Reads the arguments of a run, and the value that the environment gives for the configuration. -/
def parse (arguments : List Text) (environment : Option Text) : Except Stop Arguments := do
  let progress ← arguments.foldlM Progress.add {}
  progress.finish environment

end Arguments
end PathRules
