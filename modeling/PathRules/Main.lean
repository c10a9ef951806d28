import PathRules.Session

/-!
# The command

Carries the plan of a run out on the machine: answers its requests from the file system and
standard input, and writes notices as they come.
-/

namespace PathRules.Command

/-- The problem that a failed operation tells of. -/
def problemOf : IO.Error → ReadProblem
  | .noFileOrDirectory .. => .notFound
  | .inappropriateType _ 20 _ => .notDirectory
  | .inappropriateType _ 21 _ => .isDirectory
  | .invalidArgument _ 36 _ => .nameTooLong
  | error => .worded (toString error).toList

def attempt {α : Type} (operation : IO α) : IO (Except ReadProblem α) := do
  match ← operation.toBaseIO with
  | .ok value => pure (.ok value)
  | .error error => pure (.error (problemOf error))

def answer : (request : Request) → IO request.Answer
  | .workingDirectory => do pure (← IO.currentDir).toString.toList
  | .isFile path => do
    let metadata ← attempt ((← IO.currentDir) / String.ofList path).metadata
    pure (metadata.toOption.any (·.type == .file))
  | .isDirectory path => do
    pure (!path.isEmpty && (← ((← IO.currentDir) / String.ofList path).isDir))
  | .has path => do ((← IO.currentDir) / String.ofList path).pathExists
  | .names dir => attempt do
    let entries ← ((← IO.currentDir) / String.ofList dir).readDir
    pure (entries.toList.map (·.fileName.toList))
  | .read path => attempt (IO.FS.readBinFile (String.ofList path))
  | .input => do (← IO.getStdin).readBinToEnd

/-- Writes on the error stream what a notice leaves there. -/
def announce (directives : List Log.Directive) (notice : Notice) : IO Unit :=
  (Log.pieces directives notice).forM fun piece => IO.eprint (String.ofList piece.text)

/-- Carries out a plan. -/
def perform {α : Type} (directives : List Log.Directive) : Plan α → IO (Except Fault α)
  | .done value => pure (.ok value)
  | .fail fault => pure (.error fault)
  | .report notice next => do
    announce directives notice
    perform directives next
  | .ask request next => do perform directives (next (← answer request))

def run (arguments : List String) : IO UInt32 := do
  let environment ← IO.getEnv "RULEMATCH_CONFIG"
  let directives := Log.directives ((← IO.getEnv "RULEMATCH_LOG").getD "").toList
  let ending ←
    match Arguments.parse (arguments.map String.toList) (environment.map String.toList) with
    | .error stop => pure (Session.Ending.stopped stop)
    | .ok arguments =>
      match ← perform directives (Session.program arguments) with
      | .ok report => pure (.reported report)
      | .error fault => pure (.failed fault)
  let outcome : Session.Outcome := ⟨[], ending⟩
  IO.print (String.ofList outcome.stdout)
  IO.eprint (String.ofList outcome.closing)
  pure outcome.exitCode.toUInt32

end PathRules.Command

def main (arguments : List String) : IO UInt32 := PathRules.Command.run arguments
