import PathRules.Arguments
import PathRules.ChangedFiles
import PathRules.Config
import PathRules.Log
import PathRules.Report.Json
import PathRules.Report.Markdown
import PathRules.Selection

/-!
# A run of the program

A run reads its arguments, finds and reads the configuration, reads the changed files, selects
the rules, and reports them. The first stage that fails ends it: then nothing is reported but
the fault.
-/

namespace PathRules.Session

/-- The list of changed files at a path, or on standard input if the path is `-`. -/
def readChangedFiles (path : Text) : Plan (List Text) := do
  let content ←
    if Path.same path ChangedFiles.inputPath then do
      match Text.ofUtf8? (← Plan.request .input) with
      | some text => pure text
      | none => .fail (.io path .invalidUtf8)
    else Plan.readText path
  let files := ChangedFiles.parse content
  Plan.note (.changedFilesRead files.length path)
  pure files

def configuration (explicit : Option Text) : Plan Config := do
  match ← Config.locate explicit (← Plan.request .workingDirectory) with
  | some path =>
    Plan.note (.loadingConfig path)
    Config.load path
  | none =>
    Plan.note .defaultConfig
    pure {}

def report : ReportFormat → List MatchedRule → Text
  | .text => Report.markdown
  | .json => Report.json

/-- What a run does once its arguments are read; the value is its report. -/
def program (arguments : Arguments) : Plan Text := do
  let config ← configuration arguments.config
  Plan.note .matchingStarts
  let location ← .ofExcept (config.rules.override arguments.rulesDir arguments.extension)
  let files ← readChangedFiles arguments.changedFiles
  let rules ← Selection.matchRules files location
  Plan.note (.matchingDone files.length rules.length)
  pure (report arguments.output rules)

/-! ### Outcomes -/

inductive Ending where
  /-- The arguments ask for nothing to run, or cannot be read. -/
  | stopped (stop : Arguments.Stop)
  | failed (fault : Fault)
  | reported (report : Text)
  deriving DecidableEq, Repr

structure Outcome where
  notices : List Notice
  ending : Ending

def version : Text := Text.of "0.1.0"

/-- How the program is called. What is wrong with the arguments, which would stand above, is left
out. -/
def usage : Text := Text.of "Usage: rulematch [OPTIONS] <CHANGED_FILES>\n"

/-- The help text. Its words are the program's own, its layout is simplified: a value that the
environment gives is not shown, and long lines are not broken. -/
def help : Text :=
  Text.of "Print the rules whose `paths:` globs match a list of changed files\n\n" ++ usage ++
  Text.of "\nArguments:\n" ++
  Text.of "  <CHANGED_FILES>  File listing changed paths, one per line (\"-\" for stdin)\n" ++
  Text.of "\nOptions:\n" ++
  Text.of "  -C, --config <CONFIG>  Use specific config file [env: RULEMATCH_CONFIG=]\n" ++
  Text.of "      --rules-dir <DIR>  Directory containing rule documents " ++
  Text.of "[default: .claude/rules]\n" ++
  Text.of "      --extension <EXT>  Extension of rule documents [default: md]\n" ++
  Text.of "  -o, --output <OUTPUT>  Output format [default: text] " ++
  Text.of "[possible values: text, json]\n" ++
  Text.of "  -h, --help             Print help\n" ++
  Text.of "  -V, --version          Print version\n"

namespace Outcome

def exitCode (outcome : Outcome) : Nat :=
  match outcome.ending with
  | .stopped .help => 0
  | .stopped .version => 0
  | .stopped (.usage _) => 2
  | .failed fault => fault.exitCode
  | .reported _ => 0

def stdout (outcome : Outcome) : Text :=
  match outcome.ending with
  | .stopped .help => help
  | .stopped .version => Text.of "rulematch " ++ version ++ ['\n']
  | .stopped (.usage _) => []
  | .failed _ => []
  | .reported report => report

def faultLine (fault : Fault) : Text := Text.of "rulematch: " ++ fault.message ++ ['\n']

/-- What the program writes on its error stream at the end. -/
def closing (outcome : Outcome) : Text :=
  match outcome.ending with
  | .stopped (.usage _) => usage
  | .failed fault => faultLine fault
  | _ => []

/-- What the program writes on its error stream, the log apart. -/
def stderr (outcome : Outcome) : Text :=
  (outcome.notices.filterMap Notice.warning?).flatMap (· ++ ['\n']) ++ outcome.closing

def errorStream (outcome : Outcome) (setting : Text) : List Log.Piece :=
  outcome.notices.flatMap (Log.pieces (Log.directives setting)) ++ [.said outcome.closing]

def log (outcome : Outcome) (setting : Text) : List Text :=
  (outcome.notices.filter (Log.allowedBy (Log.directives setting))).map Notice.logLine

end Outcome

/-- A run on a disk. The environment may name a configuration file. -/
def run (disk : Disk) (arguments : List Text) (environment : Option Text) : Outcome :=
  match Arguments.parse arguments environment with
  | .error stop => ⟨[], .stopped stop⟩
  | .ok arguments =>
    let record := (program arguments).run disk
    match record.result with
    | .ok report => ⟨record.notices, .reported report⟩
    | .error fault => ⟨record.notices, .failed fault⟩

end PathRules.Session
