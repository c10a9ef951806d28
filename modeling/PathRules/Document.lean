import PathRules.Frontmatter
import PathRules.Glob.Cache

/-!
# Rule documents

A rule document is a text at a path. It matches a list of changed files if one of the globs that
it declares accepts one of them; `search` finds the first such pair, globs before files.
-/

namespace PathRules

structure Document where
  path : Text
  content : Text
  deriving DecidableEq, Repr

structure MatchedRule where
  path : Text
  body : Text
  deriving DecidableEq, Repr

namespace Document

def patterns (document : Document) : List Text := Frontmatter.patterns document.content

def body (document : Document) : Text := Frontmatter.body document.content

def toMatchedRule (document : Document) : MatchedRule := ⟨document.path, document.body⟩

/-- What a search leaves: the pair found, the cache after it, and the globs rejected on the way. -/
structure Search where
  found : Option (Text × Text)
  cache : Glob.Cache
  rejected : List Glob.CompileError

/-- The first glob that accepts a file, with the first file that it accepts. -/
def search (files : List Text) (cache : Glob.Cache) : List Text → Search
  | [] => ⟨none, cache, []⟩
  | glob :: globs =>
    let look := cache.lookup glob
    match look.matcher.bind fun matcher => files.find? matcher.accepts with
    | some file => ⟨some (glob, file), look.cache, look.report.toList⟩
    | none =>
      let later := search files look.cache globs
      { later with rejected := look.report.toList ++ later.rejected }

/-- The first glob of the document that accepts a changed file, with that file. -/
def firstMatch (document : Document) (files : List Text) (cache : Glob.Cache) : Search :=
  search files cache document.patterns

/-- Whether a glob of the document accepts a changed file, and the cache after the search. -/
def isMatched (document : Document) (files : List Text) (cache : Glob.Cache) : Bool × Glob.Cache :=
  let first := document.firstMatch files cache
  (first.found.isSome, first.cache)

end Document
end PathRules
