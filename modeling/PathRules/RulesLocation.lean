import PathRules.Fault

/-!
# Where rule documents are

Rule documents are the files of one directory that have one extension. The command line may
override either.
-/

namespace PathRules

structure RulesLocation where
  /-- The directory that holds them. -/
  dir : Text := Text.of ".claude/rules"
  /-- Their extension, without the dot before it. -/
  extension : Text := Text.of "md"
  deriving DecidableEq, Repr

namespace RulesLocation

/-- The place of rule documents where nothing is configured. -/
def standard : RulesLocation := {}

/-- The rule documents of a directory, with the usual extension. -/
def inDirectory (dir : Text) : RulesLocation := { dir }

/-- An extension without the dots in front of it, if anything is left. -/
def normalizeExtension (extension : Text) : Option Text :=
  match extension.dropWhile (· == '.') with
  | [] => none
  | c :: rest => some (c :: rest)

/-- The place with another directory and extension, where they are given. -/
def override (location : RulesLocation) (dir extension : Option Text) :
    Except Fault RulesLocation :=
  let moved := { location with dir := dir.getD location.dir }
  match extension with
  | none => .ok moved
  | some extension =>
    match normalizeExtension extension with
    | some normal => .ok { moved with extension := normal }
    | none => .error (.argument (.namesNoExtension extension))

end RulesLocation
end PathRules
