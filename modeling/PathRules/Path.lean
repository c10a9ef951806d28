import PathRules.Text

/-!
# Paths as text

Paths are taken as they are written: joining, going up and comparing work on the text, without a
look at any disk.
-/

namespace PathRules.Path

def isAbsolute (path : Text) : Bool := path.head? == some '/'

def join (dir name : Text) : Text :=
  if dir.isEmpty || dir.getLast? == some '/' then dir ++ name else dir ++ '/' :: name

/-! ### Components -/

/-- Whether a segment is a component: an empty one is not, nor is `.` unless a relative path
starts with it. -/
def isComponent (atStart : Bool) (segment : Text) : Bool :=
  !segment.isEmpty && (atStart || segment != ['.'])

/-- The components of a path, apart from the root that an absolute path starts from. -/
def components (path : Text) : List Text :=
  match Text.split '/' path with
  | [] => []
  | first :: rest => [first].filter (isComponent true) ++ rest.filter (isComponent false)

/-- Whether two paths have the same components. -/
def same (a b : Text) : Bool := isAbsolute a == isAbsolute b && components a == components b

/-! ### Going up -/

/-- How long the starts of a path are that end with a component among the segments, the longest
first, in front of the lengths found so far. So many characters stand in front of the segments. -/
def startLengths (found : List Nat) (passed : Nat) (atStart : Bool) : List Text → List Nat
  | [] => found
  | segment :: rest =>
    let stop := passed + segment.length
    let found := if isComponent atStart segment then stop :: found else found
    startLengths found (stop + 1) false rest

/-- How long the ancestors of a path are; each is a start of it. -/
def ancestorLengths (path : Text) : List Nat :=
  path.length :: match path with
    | '/' :: rest => (startLengths [1] 1 false (Text.split '/' rest)).tail
    | _ => (startLengths [0] 0 true (Text.split '/' path)).tail

/-- The path itself and then, one component shorter each, the paths above it, down to the root or
the empty path. -/
def ancestors (path : Text) : List Text := (ancestorLengths path).map path.take

/-! ### Names -/

/-- What follows the last dot of a file name; none if there is no dot, or none but at the start. -/
def extension? (name : Text) : Option Text :=
  match name.reverse.dropWhile (· != '.') with
  | [] => none
  | [_] => none
  | _ => some (name.reverse.takeWhile (· != '.')).reverse

example : ancestors "a//b/./c/".toList = ["a//b/./c/", "a//b", "a", ""].map String.toList := by
  decide
example : ancestors "/a/b".toList = ["/a/b", "/a", "/"].map String.toList := by decide
example : ancestors "./a".toList = ["./a", ".", ""].map String.toList := by decide
example : extension? "x.y.md".toList = some "md".toList := by decide
example : extension? ".md".toList = none ∧ extension? "x.".toList = some [] := by decide

end PathRules.Path
