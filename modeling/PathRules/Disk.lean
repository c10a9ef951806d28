import PathRules.Path
import PathRules.Fault

/-!
# Disks

A disk is a tree of files and directories, seen from a working directory. A path is followed
segment by segment: what it goes through must be a directory, `..` leads to the directory above,
and a path that ends in `/` or `/.` names a directory. Paths and names that are too long name
nothing.
-/

namespace PathRules

/-- A file with its bytes, or a directory with its named entries. -/
inductive Node where
  | file (bytes : ByteArray)
  | directory (entries : List (Text × Node))

namespace Node

def isFile : Node → Bool
  | .file _ => true
  | .directory _ => false

def isDirectory : Node → Bool
  | .file _ => false
  | .directory _ => true

/-- The entries of a directory; a file has none. -/
def entries : Node → List (Text × Node)
  | .file _ => []
  | .directory entries => entries

def entry? (node : Node) (name : Text) : Option Node := node.entries.lookup name

/-- The node with another entry under the name, in place of the one there. -/
def setEntry (node : Node) (name : Text) (entry : Node) : Node :=
  if (node.entry? name).isSome then
    .directory (node.entries.map fun old => if old.1 = name then (name, entry) else old)
  else .directory (node.entries ++ [(name, entry)])

def dropEntry (node : Node) (name : Text) : Node :=
  .directory (node.entries.filter fun old => old.1 ≠ name)

/-- The node with a file at the place that the names lead to. Directories that are missing on the
way are made. -/
def writeFile (bytes : ByteArray) : List Text → Node → Node
  | [], _ => .file bytes
  | name :: names, node =>
    node.setEntry name (writeFile bytes names ((node.entry? name).getD (.directory [])))

/-- The node with a directory at the place that the names lead to, made where it is missing, as are
the directories on the way. -/
def makeDirectory : List Text → Node → Node
  | [], node => node
  | name :: names, node =>
    node.setEntry name (makeDirectory names ((node.entry? name).getD (.directory [])))

/-- The node without what the names lead to. -/
def remove : List Text → Node → Node
  | [], node => node
  | [name], node => node.dropEntry name
  | name :: names, node =>
    match node.entry? name with
    | some entry => node.setEntry name (remove names entry)
    | none => node

end Node

/-- A tree of files, the names that lead from its root to the working directory, and what standard
input holds. -/
structure Disk where
  root : Node
  workingDirectory : List Text
  input : ByteArray := ByteArray.empty

namespace Disk

/-- How many bytes a name may have. -/
def maxNameLength : Nat := 255

/-- How many bytes a path may have. -/
def maxPathLength : Nat := 4095

/-- Follows segments from the last one of a chain of directories, each inside the one after it. -/
def follow : List Node → List Text → Except ReadProblem Node
  | [], _ => .error .notFound
  | node :: _, [] => .ok node
  | node :: above, segment :: rest =>
    if !node.isDirectory then .error .notDirectory
    else if segment.isEmpty || segment = ['.'] then follow (node :: above) rest
    else if segment = ['.', '.'] then
      match above with
      | [] => follow [node] rest
      | _ => follow above rest
    else if maxNameLength < Text.byteLength segment then .error .nameTooLong
    else match node.entry? segment with
      | none => .error .notFound
      | some entry => follow (entry :: node :: above) rest

/-- What a path names. A relative path starts at the working directory. -/
def find (disk : Disk) (path : Text) : Except ReadProblem Node :=
  if path.contains '\x00' then .error .zeroInPath
  else if path.isEmpty then .error .notFound
  else if maxPathLength < Text.byteLength path then .error .nameTooLong
  else if Path.isAbsolute path then follow [disk.root] (Text.split '/' path)
  else follow [disk.root] (disk.workingDirectory ++ Text.split '/' path)

def workingPath (disk : Disk) : Text := '/' :: Text.join '/' disk.workingDirectory

def isFile (disk : Disk) (path : Text) : Bool :=
  match disk.find path with
  | .ok node => node.isFile
  | .error _ => false

def isDirectory (disk : Disk) (path : Text) : Bool :=
  match disk.find path with
  | .ok node => node.isDirectory
  | .error _ => false

def has (disk : Disk) (path : Text) : Bool :=
  match disk.find path with
  | .ok _ => true
  | .error _ => false

def read (disk : Disk) (path : Text) : Except ReadProblem ByteArray :=
  match disk.find path with
  | .ok (.file bytes) => .ok bytes
  | .ok (.directory _) => .error .isDirectory
  | .error problem => .error problem

/-- The names in the directory that the path names, each once, in no particular order. -/
def names (disk : Disk) (path : Text) : Except ReadProblem (List Text) :=
  match disk.find path with
  | .ok (.directory entries) => .ok (entries.map Prod.fst).eraseDups
  | .ok (.file _) => .error .notDirectory
  | .error problem => .error problem

end Disk
end PathRules
