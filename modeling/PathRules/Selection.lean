import PathRules.Document
import PathRules.Plan
import PathRules.RulesLocation

/-!
# Selecting rules

The documents of a directory are listed in the order of their names, each is matched against the
changed files, and the ones that match are kept. The documents may be divided into pieces that
are worked on apart, each with a cache of its own.
-/

namespace PathRules.Selection

def filesAmong (dir : Text) : List Text → Plan (List Text)
  | [] => pure []
  | name :: names => do
    let isFile ← Plan.request (.isFile (Path.join dir name))
    let rest ← filesAmong dir names
    pure (if isFile then name :: rest else rest)

/-- The paths of the files of a directory that have the extension, in the order of their names.
What is no directory holds none. -/
def discover (dir extension : Text) : Plan (List Text) := do
  if !(← Plan.request (.isDirectory dir)) then
    Plan.note (.rulesDirectoryMissing dir)
    pure []
  else
    match ← Plan.request (.names dir) with
    | .error problem => .fail (.io dir problem)
    | .ok names =>
      let candidates := names.filter fun name => Path.extension? name == some extension
      let chosen ← filesAmong dir candidates
      let paths := (chosen.mergeSort Text.le).map (Path.join dir)
      Plan.note (.documentsFound paths.length dir)
      pure paths

def load (path : Text) : Plan Document := do
  pure ⟨path, ← Plan.readText path⟩

def noteRejected : List Glob.CompileError → Plan Unit
  | [] => pure ()
  | error :: errors => do
    Plan.note (.globRejected error)
    noteRejected errors

/-- The document at a path, if it matches, and the cache after it. -/
def matchDocument (files : List Text) (cache : Glob.Cache) (path : Text) :
    Plan (Option MatchedRule × Glob.Cache) := do
  let document ← load path
  if document.patterns.isEmpty then
    Plan.note (.noPatterns path)
    pure (none, cache)
  else
    let search := document.firstMatch files cache
    noteRejected search.rejected
    match search.found with
    | none => pure (none, search.cache)
    | some (glob, file) =>
      Plan.note (.matched path glob file)
      pure (some document.toMatchedRule, search.cache)

/-- The documents of one piece that match, starting from a cache. -/
def matchPiece (files : List Text) (cache : Glob.Cache) : List Text → Plan (List MatchedRule)
  | [] => pure []
  | path :: paths => do
    let (rule?, cache) ← matchDocument files cache path
    let rules ← matchPiece files cache paths
    pure (rule?.toList ++ rules)

/-- The documents of all pieces that match, each piece starting from an empty cache. -/
def matchPieces (files : List Text) : List (List Text) → Plan (List MatchedRule)
  | [] => pure []
  | piece :: pieces => do
    let rules ← matchPiece files .empty piece
    let later ← matchPieces files pieces
    pure (rules ++ later)

/-- The rules at a place that match a list of changed files, the documents being divided as told.
Without changed files no rule matches, and nothing is read. -/
def matchRulesIn (divide : List Text → List (List Text)) (files : List Text)
    (location : RulesLocation) : Plan (List MatchedRule) := do
  if files.isEmpty then pure []
  else
    let paths ← discover location.dir location.extension
    matchPieces files (divide paths)

/-- The rules at a place that match a list of changed files, each document being a piece of its
own. -/
def matchRules (files : List Text) (location : RulesLocation) : Plan (List MatchedRule) :=
  matchRulesIn (·.map ([·])) files location

end PathRules.Selection
