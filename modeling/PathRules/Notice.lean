import PathRules.Glob.Matcher

/-!
# Notices

What a run reports on the way, as data. Every notice has a level, an origin and a line for the
log; a key that no configuration knows is also announced on the error stream.
-/

namespace PathRules

/-- The weight of a notice, the heaviest first. -/
inductive Level where
  | error | warn | info | debug | trace
  deriving DecidableEq, Repr

namespace Level

def name : Level → Text
  | .error => Text.of "ERROR"
  | .warn => Text.of "WARN"
  | .info => Text.of "INFO"
  | .debug => Text.of "DEBUG"
  | .trace => Text.of "TRACE"

/-- The place of a level, the heaviest first. -/
def rank : Level → Nat
  | .error => 1
  | .warn => 2
  | .info => 3
  | .debug => 4
  | .trace => 5

end Level

inductive Notice where
  /-- The search for a configuration ended at the root of a repository. -/
  | repositoryRoot (dir : Text)
  | loadingConfig (path : Text)
  | defaultConfig
  /-- A configuration holds a key without a meaning. -/
  | unknownKey (config : Text) (key : Text)
  | matchingStarts
  | changedFilesRead (count : Nat) (path : Text)
  | rulesDirectoryMissing (dir : Text)
  | documentsFound (count : Nat) (dir : Text)
  /-- A rule document declares no glob. -/
  | noPatterns (document : Text)
  | matched (document glob file : Text)
  /-- A glob does not compile. -/
  | globRejected (error : Glob.CompileError)
  | matchingDone (changedFiles rules : Nat)
  deriving DecidableEq, Repr

namespace Notice

def level : Notice → Level
  | .globRejected _ => .warn
  | .matchingStarts => .trace
  | _ => .debug

/-- The part of the program that a notice comes from, by the name that log settings call it. -/
def origin : Notice → Text
  | .repositoryRoot _ => Text.of "rulematch::config"
  | .loadingConfig _ => Text.of "rulematch::cmd_match"
  | .defaultConfig => Text.of "rulematch::cmd_match"
  | .unknownKey .. => Text.of "rulematch::config"
  | .matchingStarts => Text.of "rulematch::cmd_match"
  | .changedFilesRead .. => Text.of "rulematch::changes"
  | .rulesDirectoryMissing _ => Text.of "rulematch::rules"
  | .documentsFound .. => Text.of "rulematch::rules"
  | .noPatterns _ => Text.of "rulematch::rules"
  | .matched .. => Text.of "rulematch::rules"
  | .globRejected _ => Text.of "rulematch::pattern::glob"
  | .matchingDone .. => Text.of "rulematch::cmd_match"

def message : Notice → Text
  | .repositoryRoot dir => Text.of "no config found up to repository root " ++ dir
  | .loadingConfig path => Text.of "loading config from " ++ path
  | .defaultConfig => Text.of "no config found, using defaults"
  | .unknownKey _ key => Text.of "ignoring unknown config key " ++ key
  | .matchingStarts => Text.of "match command starting"
  | .changedFilesRead count path =>
    Text.of "read " ++ Text.ofNat count ++ Text.of " changed files from " ++ path
  | .rulesDirectoryMissing dir => Text.of "rules directory " ++ dir ++ Text.of " not found"
  | .documentsFound count dir =>
    Text.of "found " ++ Text.ofNat count ++ Text.of " rule documents in " ++ dir
  | .noPatterns document => document ++ Text.of ": no paths declared, skipping"
  | .matched document glob file =>
    document ++ Text.of ": '" ++ glob ++ Text.of "' matched " ++ file
  | .globRejected error => error.message
  | .matchingDone changedFiles rules =>
    Text.ofNat changedFiles ++ Text.of " changed files, " ++ Text.ofNat rules ++
      Text.of " rules matched"

/-- The line for the error stream about a key without a meaning. -/
def unknownKeyWarning (config key : Text) : Text :=
  Text.of "rulematch: warning: " ++ config ++ Text.of ": unrecognized field `" ++ key ++
    Text.of "` (ignored)"

/-- The line for the error stream, if the notice has one. -/
def warning? : Notice → Option Text
  | .unknownKey config key => some (unknownKeyWarning config key)
  | _ => none

/-- Whether a character steers a terminal: bell, backspace, form feed, escape and delete. -/
def steersTerminal (c : Char) : Bool :=
  c.toNat == 0x07 || c.toNat == 0x08 || c.toNat == 0x0C || c.toNat == 0x1B || c.toNat == 0x7F

/-- A character as the log shows it. What steers a terminal is spelled out, and so are the control
characters beyond ASCII. -/
def spelled (c : Char) : Text :=
  let digits := [Text.hexDigit (c.toNat / 16), Text.hexDigit (c.toNat % 16)]
  if steersTerminal c then ['\\', 'x'] ++ digits
  else if 0x80 ≤ c.toNat && c.toNat ≤ 0x9F then ['\\', 'u', '\x7b'] ++ digits ++ ['\x7d']
  else [c]

def logLine (notice : Notice) : Text :=
  notice.level.name ++ ' ' :: notice.message.flatMap spelled

end Notice
end PathRules
