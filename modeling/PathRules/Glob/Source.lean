import PathRules.Glob.Token

/-!
# Regular expression source of a glob

Each token is written as one expression, and the whole is anchored at both ends. Characters that
carry meaning in the expression dialect are escaped, so that a literal is read back as itself.
-/

namespace PathRules.Glob

/-- The characters that carry meaning in an expression. -/
def metaCharacters : List Char :=
  ['.', '+', '^', '$', '\x7b', '\x7d', '(', ')', '|', '\\', '[', ']']

def Token.source : Token → Text
  | .directories => ['(', '?', ':', '.', '+', '/', ')', '?']
  | .anything => ['.', '*']
  | .run => ['[', '^', '/', ']', '*']
  | .single => ['[', '^', '/', ']']
  | .literal c => if c ∈ metaCharacters then ['\\', c] else [c]

/-- The anchored expression of a list of tokens. -/
def sourceOf (tokens : List Token) : Text := '^' :: tokens.flatMap Token.source ++ ['$']

def source (glob : Text) : Text := sourceOf (scan glob)

end PathRules.Glob
