import PathRules.Text

/-!
# Glob tokens

A glob is read from left to right into tokens, the longest wildcard first. `Token.Fits` says
which pieces of a path a token stands for, and `Covers` that a path can be cut into one piece
for each token.
-/

namespace PathRules.Glob

inductive Token where
  /-- `**/`: zero or more directories. -/
  | directories
  /-- `**`: anything within a line. -/
  | anything
  /-- `*`: anything within a path segment. -/
  | run
  /-- `?`: one character within a path segment. -/
  | single
  /-- The character itself. -/
  | literal (c : Char)
  deriving DecidableEq, Repr

def Token.isWildcard : Token → Bool
  | .literal _ => false
  | _ => true

/-- The tokens of a glob. Every text is a glob: what is no wildcard stands for itself. -/
def scan : Text → List Token
  | '*' :: '*' :: '/' :: glob => .directories :: scan glob
  | '*' :: '*' :: glob => .anything :: scan glob
  | '*' :: glob => .run :: scan glob
  | '?' :: glob => .single :: scan glob
  | c :: glob => .literal c :: scan glob
  | [] => []

def Token.text : Token → Text
  | .directories => ['*', '*', '/']
  | .anything => ['*', '*']
  | .run => ['*']
  | .single => ['?']
  | .literal c => [c]

/-- The tokens of a glob spell it. -/
theorem flatMap_text_scan (glob : Text) : (scan glob).flatMap Token.text = glob := by
  fun_induction scan glob <;> simp_all [Token.text]

/-! ### What tokens stand for -/

/-- A character that `**` may run over: any but the line feed. -/
def inLine (c : Char) : Bool := c != '\n'

/-- A character that `*` may run over: any but the separator. -/
def inSegment (c : Char) : Bool := c != '/'

/-- The pieces of a path that a token stands for. -/
def Token.Fits : Token → Text → Prop
  | .directories, piece =>
    piece = [] ∨ ∃ u : Text, u ≠ [] ∧ (∀ c ∈ u, inLine c) ∧ piece = u ++ ['/']
  | .anything, piece => ∀ c ∈ piece, inLine c
  | .run, piece => ∀ c ∈ piece, inSegment c
  | .single, piece => ∃ c, inSegment c ∧ piece = [c]
  | .literal c, piece => piece = [c]

/-- The path is a sequence of pieces, one for each token, that fit their tokens. -/
inductive Covers : List Token → Text → Prop where
  | nil : Covers [] []
  | cons {token : Token} {tokens : List Token} {piece rest : Text} :
      token.Fits piece → Covers tokens rest → Covers (token :: tokens) (piece ++ rest)

end PathRules.Glob
