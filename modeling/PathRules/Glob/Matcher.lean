import PathRules.Glob.Source
import PathRules.Glob.Frontier

/-!
# Compiled globs

A glob compiles unless it holds too many wildcards. The matcher accepts the paths that its
tokens cover, and keeps the glob and its regular expression source for those who ask.
-/

namespace PathRules.Glob

/-- The number of wildcards from which on a glob counts as too large to compile. The engine's own
limit is on the bytes of the compiled form (`sizeLimit`); this number only estimates it, and the
literals do not count. No general result depends on its value. -/
def wildcardLimit : Nat := 10000

inductive CompileError where
  /-- The compiled form of the glob would be too large. -/
  | tooLarge (glob : Text)
  deriving DecidableEq, Repr

/-- The bytes that a compiled glob may take in the engine. -/
def sizeLimit : Nat := 10 * 1024 * 1024

def CompileError.message : CompileError → Text
  | .tooLarge glob =>
    Text.of "glob '" ++ glob ++ Text.of "' could not be compiled: " ++
      Text.of "Compiled regex exceeds size limit of " ++ Text.ofNat sizeLimit ++ Text.of " bytes."

structure Matcher where
  glob : Text
  tokens : List Token
  tokens_eq : tokens = scan glob
  deriving DecidableEq

namespace Matcher

def source (m : Matcher) : Text := sourceOf m.tokens

/-- Whether the whole path matches the glob. -/
def accepts (m : Matcher) (path : Text) : Bool := covers m.tokens path

end Matcher

/-- Compiles a glob unless it is too large, the one way in which a glob can fail to compile. How
large it becomes is estimated by its wildcards, see `wildcardLimit`. -/
def compile (glob : Text) : Except CompileError Matcher :=
  if (scan glob).countP Token.isWildcard < wildcardLimit then .ok ⟨glob, scan glob, rfl⟩
  else .error (.tooLarge glob)

end PathRules.Glob
