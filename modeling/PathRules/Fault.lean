import PathRules.Text

/-!
# Faults

What can end a run early, as causes. One function words each of them, and `Fault.exitCode` gives
the code that the program ends with.
-/

namespace PathRules

inductive ConfigProblem where
  /-- The file that was asked for is not there. -/
  | fileNotFound (path : Text)
  /-- The text is no configuration table, or its version is no integer. -/
  | unreadableToml
  | missingVersion
  | unsupportedVersion (version : Int)
  | rulesNotTable
  /-- The value of this key of the rules table is no string. -/
  | notString (key : Text)
  /-- The extension consists of dots only. -/
  | emptyExtension
  /-- A problem in the caller's words. -/
  | worded (message : Text)
  deriving DecidableEq, Repr

inductive ArgumentProblem where
  /-- The extension consists of dots only. -/
  | namesNoExtension (extension : Text)
  /-- A problem in the caller's words. -/
  | worded (message : Text)
  deriving DecidableEq, Repr

inductive ReadProblem where
  | notFound
  | notDirectory
  | isDirectory
  /-- The path, or one of its names, is longer than a disk knows. -/
  | nameTooLong
  /-- The path holds the character zero. -/
  | zeroInPath
  /-- The content is not UTF-8. -/
  | invalidUtf8
  /-- A problem in the words of the system. -/
  | worded (message : Text)
  deriving DecidableEq, Repr

inductive Fault where
  /-- A configuration that is missing or wrong. -/
  | config (problem : ConfigProblem) (path : Option Text)
  | argument (problem : ArgumentProblem)
  /-- A path that cannot be read. -/
  | io (path : Text) (problem : ReadProblem)
  deriving DecidableEq, Repr

def supportedVersion : Int := 1

def ConfigProblem.message : ConfigProblem → Text
  | .fileNotFound path => Text.of "config file not found: " ++ path
  | .unreadableToml => Text.of "TOML parse error"
  | .missingVersion => Text.of "missing required field: version"
  | .unsupportedVersion version =>
    Text.of "unsupported config version " ++ Text.ofInt version ++ Text.of " (supported: " ++
      Text.ofInt supportedVersion ++ Text.of ")\n  Upgrade rulematch to use this config."
  | .rulesNotTable => Text.of "`rules` must be a table"
  | .notString key => Text.of "`rules." ++ key ++ Text.of "` must be a string"
  | .emptyExtension => Text.of "`rules.extension` must not be empty"
  | .worded message => message

def ArgumentProblem.message : ArgumentProblem → Text
  | .namesNoExtension extension =>
    Text.of "--extension \"" ++ extension ++ Text.of "\" names no file extension"
  | .worded message => message

def ReadProblem.message : ReadProblem → Text
  | .notFound => Text.of "No such file or directory (os error 2)"
  | .notDirectory => Text.of "Not a directory (os error 20)"
  | .isDirectory => Text.of "Is a directory (os error 21)"
  | .nameTooLong => Text.of "File name too long (os error 36)"
  | .zeroInPath => Text.of "file name contained an unexpected NUL byte"
  | .invalidUtf8 => Text.of "stream did not contain valid UTF-8"
  | .worded message => message

namespace Fault

def message : Fault → Text
  | .config problem _ => Text.of "config error: " ++ problem.message
  | .argument problem => Text.of "argument error: " ++ problem.message
  | .io path problem => Text.of "io error: " ++ path ++ Text.of ": " ++ problem.message

def exitCode : Fault → Nat
  | .config .. => 2
  | .argument _ => 2
  | .io .. => 3

def path? : Fault → Option Text
  | .config _ path => path
  | .argument _ => none
  | .io path _ => some path

end Fault
end PathRules
