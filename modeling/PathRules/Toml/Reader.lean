import PathRules.Text

/-!
# Readers

A reader takes something from the front of a text, or fails. Where one of several readings is
tried, a failed one takes nothing.
-/

namespace PathRules.Toml

/-- Takes a value from the front of a text. -/
abbrev Reader := StateT Text Option

namespace Reader

def refuse {α : Type} : Reader α := fun _ => none

def one (p : Char → Bool) : Reader Char
  | c :: s => if p c then some (c, s) else none
  | [] => none

def word (w : Text) : Reader Unit := fun s => (w.isPrefixOf? s).map ((), ·)

def char (c : Char) : Reader Unit := word [c]

def span (p : Char → Bool) : Reader Text := fun s => some (s.takeWhile p, s.dropWhile p)

def atEnd : Reader Unit := fun s => if s.isEmpty then some ((), s) else none

/-- The character that comes next, which stays. -/
def peek : Reader (Option Char) := fun s => some (s.head?, s)

/-- A reading, if there is one. -/
def maybe {α : Type} (reader : Reader α) : Reader (Option α) := fun s =>
  match reader s with
  | some (value, rest) => some (some value, rest)
  | none => some (none, s)

/-- Readings in a row, at most as many as `fuel` has characters. -/
def inRow {α : Type} (reader : Reader α) : (fuel : Text) → Reader (List α)
  | [] => pure []
  | _ :: fuel => fun s =>
    match reader s with
    | some (value, rest) =>
      (inRow reader fuel rest).map fun (values, rest) => (value :: values, rest)
    | none => some ([], s)

/-- As many readings in a row as there are, each of which takes at least one character. -/
def many {α : Type} (reader : Reader α) : Reader (List α) := fun s => inRow reader s s

/-- Readings with a separator between any two of them, at least one. -/
def separated {α β : Type} (reader : Reader α) (separator : Reader β) : Reader (List α) := do
  let first ← reader
  let rest ← many (do let _ ← separator; reader)
  pure (first :: rest)

/-- The first of two readings that there is. -/
def either {α : Type} (first second : Reader α) : Reader α := fun s =>
  match first s with
  | some result => some result
  | none => second s

def check {α : Type} (reader : Reader α) (p : α → Bool) : Reader α := do
  let value ← reader
  if p value then pure value else refuse

end Reader
end PathRules.Toml
