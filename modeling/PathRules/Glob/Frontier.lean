import PathRules.Glob.Marks
import PathRules.Glob.Token

/-!
# Places reached in a path

A glob is matched by moving a set of places through the path, one token at a time. A place is
told by the number of characters before it, and a set of places is a number: its bit `n` says
whether the place after `n` characters is in the set. So all places move at once, and matching a
long path takes a few operations on long numbers for each token, however many ways there are to
cut the path.
-/

namespace PathRules.Glob

/-- A set of places in a path, each told by the number of characters before it. -/
abbrev Places := Nat

def Places.start : Places := 1

/-! ### Moving by characters -/

def eat (marked : Nat) (places : Places) : Places := (places &&& marked) <<< 1

/-- The places after the character, one by one, if there are at most so many places. -/
def eatFew (path : Array Char) (c : Char) (limit : Nat) (places : Places) : Option Places :=
  if places = 0 then some 0
  else match limit with
    | 0 => none
    | limit + 1 => do
      let last := places.log2
      let others ← eatFew path c limit (places ^^^ 1 <<< last)
      some (if path[last]?.any (· == c) then others ||| 1 <<< (last + 1) else others)

/-- Moves places on by marked characters. Here a mark stands for as many marked characters in a row
as the width says, and each round doubles the width. -/
def stretch : (rounds width marked : Nat) → Places → Places
  | 0, _, _, places => places
  | rounds + 1, width, marked, places =>
    stretch rounds (2 * width) (marked &&& marked >>> width)
      (places ||| (places &&& marked) <<< width)

/-- The places after any number of marked characters of a path of the length. -/
def spread (length marked : Nat) (places : Places) : Places :=
  stretch (length.log2 + 1) 1 marked places

/-! ### Moving by tokens -/

/-- What is known of a path before any token moves through it. -/
structure Terrain where
  path : Text
  characters : Array Char
  length : Nat
  /-- The characters that wildcards may run over, marked once a token asks for them. -/
  inLine : Thunk Nat
  inSegment : Thunk Nat
  separators : Thunk Nat

def Terrain.of (path : Text) : Terrain where
  path
  characters := path.toArray
  length := path.length
  inLine := marks Glob.inLine path
  inSegment := marks Glob.inSegment path
  separators := marks (· == '/') path

/-- The places reached in a path, and the letters that were looked for at many places at once. -/
structure Frontier (path : Text) where
  places : Places := .start
  letters : List (Char × Nat) := []
  /-- The places of a letter are marked. -/
  letters_sound : ∀ letter ∈ letters, letter.2 = marks (· == letter.1) path := by simp

namespace Frontier

variable {path : Text}

/-- Up to how many places are looked at one by one. -/
def fewPlaces : Nat := 8

def eatLetter (characters : Array Char) (frontier : Frontier path) (c : Char) : Frontier path :=
  match eatFew characters c fewPlaces frontier.places with
  | some places => { frontier with places }
  | none =>
    match frontier.letters.find? (·.1 == c) with
    | some letter => { frontier with places := eat letter.2 frontier.places }
    | none =>
      let marked := marks (· == c) path
      { places := eat marked frontier.places
        letters := (c, marked) :: frontier.letters
        letters_sound := by
          simp only [List.mem_cons, forall_eq_or_imp]
          exact ⟨rfl, frontier.letters_sound⟩ }

def move (terrain : Terrain) (frontier : Frontier path) : Token → Frontier path
  | .directories =>
    let inLine := terrain.inLine.get
    let inside := spread terrain.length inLine (eat inLine frontier.places)
    { frontier with places := frontier.places ||| eat terrain.separators.get inside }
  | .anything =>
    { frontier with places := spread terrain.length terrain.inLine.get frontier.places }
  | .run => { frontier with places := spread terrain.length terrain.inSegment.get frontier.places }
  | .single => { frontier with places := eat terrain.inSegment.get frontier.places }
  | .literal c => eatLetter terrain.characters frontier c

/-- The frontier after a piece that fits the token. Where no place is left, none is sought. -/
def advance (terrain : Terrain) (frontier : Frontier path) (token : Token) : Frontier path :=
  if frontier.places = 0 then frontier else frontier.move terrain token

end Frontier

def covers (tokens : List Token) (path : Text) : Bool :=
  let start : Frontier path := {}
  (tokens.foldl (Frontier.advance (Terrain.of path)) start).places.testBit path.length

end PathRules.Glob
