import PathRules.Proofs.Config.Lookup

/-!
# Lookup within a repository

The search for a configuration file goes up from a directory and ends at the root of the repository
that the directory belongs to. `locate_within_repository` says what it finds, and that nothing above
this root has a part in it.
-/

namespace PathRules.Config

variable {disk other : Disk}

/-- The directories up to and including the first that is the root of a repository. -/
def withinRepository (disk : Disk) : List Text → List Text
  | [] => []
  | dir :: dirs =>
    if disk.has (Path.join dir repositoryMark) then [dir] else dir :: withinRepository disk dirs

/-- Two disks agree on whether a directory holds a configuration file, and on whether it is the root
of a repository. -/
structure AgreeAt (disk other : Disk) (dir : Text) : Prop where
  file : other.isFile (Path.join dir fileName) = disk.isFile (Path.join dir fileName)
  mark : other.has (Path.join dir repositoryMark) = disk.has (Path.join dir repositoryMark)

/-- A search looks only at the directories within the repository. -/
theorem search_congr {path : Text} {lengths : List Nat}
    (agree : ∀ dir ∈ withinRepository disk (lengths.map path.take), AgreeAt disk other dir) :
    ((search path lengths).run other).result = ((search path lengths).run disk).result := by
  induction lengths with
  | nil => rfl
  | cons length lengths ih =>
    rw [List.map_cons, withinRepository] at agree
    have here : AgreeAt disk other (path.take length) := by
      apply agree
      split <;> exact List.mem_cons_self
    unfold search
    rw [Plan.result_isFile_bind here.file, Plan.result_isFile_bind rfl]
    split
    · rfl
    · rw [Plan.result_has_bind here.mark, Plan.result_has_bind rfl]
      split
      · rfl
      · next unmarked =>
        rw [if_neg unmarked] at agree
        exact ih fun dir member => agree dir (List.mem_cons_of_mem _ member)

/-- Without a path the lookup never fails: it finds the file of the first directory that holds one,
from the given directory upwards, unless the root of a repository comes before it; and two disks
that agree up to this root have the same answer. With a path it finds this file, or fails naming
it. -/
theorem locate_within_repository (disk : Disk) (dir : Text) :
    (∃ found, ((locate none dir).run disk).result = .ok found ∧
      ∀ file, found = some file ↔
        ∃ holder, Nearest disk (Path.ancestors dir) holder ∧ file = Path.join holder fileName) ∧
    (∀ other : Disk,
      (∀ above ∈ withinRepository disk (Path.ancestors dir), AgreeAt disk other above) →
      ((locate none dir).run other).result = ((locate none dir).run disk).result) ∧
    ∀ path, ((locate (some path) dir).run disk).result =
      if disk.isFile path then .ok (some path)
      else .error (.config (.fileNotFound path) (some path)) := by
  refine ⟨search_result disk dir (Path.ancestorLengths dir), ?_, ?_⟩
  · intro other agree
    exact search_congr agree
  · intro path
    unfold locate
    dsimp only
    rw [Plan.result_isFile_bind rfl]
    split <;> rfl

/-- A disk with a repository, and a configuration file beside it if asked for. -/
def repositoryDisk (beside : List (Text × Node)) : Disk where
  root := .directory (("repository".toList, .directory [
    (".git".toList, .directory []), ("nested".toList, .directory [])]) :: beside)
  workingDirectory := []

/-- A configuration file above the root of the repository is not found. -/
theorem locate_within_repository_below_file :
    let disk := repositoryDisk [("rulematch.toml".toList, .file ByteArray.empty)]
    disk.isFile "/rulematch.toml".toList = true ∧
      ((locate none "/repository/nested".toList).run disk).result =
        ((locate none "/repository/nested".toList).run (repositoryDisk [])).result := by
  refine ⟨by decide +kernel, (locate_within_repository _ _).2.1 _ ?_⟩
  have within : withinRepository (repositoryDisk []) (Path.ancestors "/repository/nested".toList) =
      ["/repository/nested".toList, "/repository".toList] := by decide +kernel
  rw [within]
  intro dir member
  simp only [List.mem_cons, List.not_mem_nil, or_false] at member
  rcases member with rfl | rfl
  · constructor <;> decide +kernel
  · constructor <;> decide +kernel

end PathRules.Config
