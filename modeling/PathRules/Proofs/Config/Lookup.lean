import PathRules.Config
import PathRules.Proofs.Plan.Result

/-!
# Lookup of the configuration file

The file of a run is the one asked for, or else the one nearest to the working directory:
`locate_eq_ok` and `locate_eq_error` say which file is found, and when the lookup fails.
-/

namespace PathRules.Config

variable {disk : Disk}

/-- The first of the directories that holds a configuration file, unless the root of a repository
comes before it. -/
def Nearest (disk : Disk) (dirs : List Text) (dir : Text) : Prop :=
  ∃ before after, dirs = before ++ dir :: after ∧
    disk.isFile (Path.join dir fileName) = true ∧
    ∀ other ∈ before, disk.isFile (Path.join other fileName) = false ∧
      disk.has (Path.join other repositoryMark) = false

theorem nearest_cons_of_isFile {dir nearest : Text} {dirs : List Text}
    (isFile : disk.isFile (Path.join dir fileName) = true) :
    Nearest disk (dir :: dirs) nearest ↔ nearest = dir := by
  constructor
  · rintro ⟨before, after, cut, _, passed⟩
    cases before with
    | nil => exact (List.cons.inj cut).1.symm
    | cons first before =>
      have same := (List.cons.inj cut).1
      subst first
      have absent := (passed dir (by simp)).1
      rw [isFile] at absent
      cases absent
  · rintro rfl
    exact ⟨[], dirs, rfl, isFile, by simp⟩

theorem nearest_cons_of_not_isFile {dir nearest : Text} {dirs : List Text}
    (notFile : disk.isFile (Path.join dir fileName) = false) :
    Nearest disk (dir :: dirs) nearest ↔
      disk.has (Path.join dir repositoryMark) = false ∧ Nearest disk dirs nearest := by
  constructor
  · rintro ⟨before, after, cut, isFile, passed⟩
    cases before with
    | nil =>
      have same := (List.cons.inj cut).1
      subst dir
      rw [isFile] at notFile
      cases notFile
    | cons first before =>
      obtain ⟨same, rest⟩ := List.cons.inj cut
      subst first
      exact ⟨(passed dir (by simp)).2, before, after, rest, isFile,
        fun other member => passed other (List.mem_cons_of_mem _ member)⟩
  · rintro ⟨noMark, before, after, rest, isFile, passed⟩
    refine ⟨dir :: before, after, by rw [rest, List.cons_append], isFile, ?_⟩
    intro other member
    rcases List.mem_cons.mp member with rfl | member
    · exact ⟨notFile, noMark⟩
    · exact passed other member

/-- The search never fails, and finds the file of the nearest directory. -/
theorem search_result (disk : Disk) (path : Text) (lengths : List Nat) :
    ∃ found, ((search path lengths).run disk).result = .ok found ∧
      ∀ file, found = some file ↔
        ∃ dir, Nearest disk (lengths.map path.take) dir ∧ file = Path.join dir fileName := by
  induction lengths with
  | nil =>
    refine ⟨none, rfl, fun file => ?_⟩
    simp [Nearest]
  | cons length lengths ih =>
    unfold search
    rw [List.map_cons]
    cases isFile : disk.isFile (Path.join (path.take length) fileName) with
    | true =>
      rw [Plan.result_isFile_bind isFile]
      refine ⟨_, rfl, fun file => ?_⟩
      simp [nearest_cons_of_isFile isFile, eq_comm]
    | false =>
      rw [Plan.result_isFile_bind isFile]
      simp only [Bool.false_eq_true, if_false, nearest_cons_of_not_isFile isFile]
      cases mark : disk.has (Path.join (path.take length) repositoryMark) with
      | true =>
        rw [Plan.result_has_bind mark]
        exact ⟨none, rfl, fun file => by simp⟩
      | false =>
        rw [Plan.result_has_bind mark]
        simpa using ih

/-- The configuration file of a run, if it has one. -/
inductive ChosenFile (disk : Disk) : (explicit file : Option Text) → Prop where
  | asked {path : Text} : disk.isFile path = true → ChosenFile disk (some path) (some path)
  | nearest {dir : Text} : Nearest disk (Path.ancestors disk.workingPath) dir →
      ChosenFile disk none (some (Path.join dir fileName))
  | none : (∀ dir, ¬ Nearest disk (Path.ancestors disk.workingPath) dir) →
      ChosenFile disk none none

theorem chosenFile_none_iff {found file : Option Text}
    (finds : ∀ file, found = some file ↔
      ∃ dir, Nearest disk (Path.ancestors disk.workingPath) dir ∧ file = Path.join dir fileName) :
    ChosenFile disk none file ↔ found = file := by
  constructor
  · intro chosen
    cases chosen with
    | nearest nearest => exact (finds _).mpr ⟨_, nearest, rfl⟩
    | none absent =>
      cases found with
      | none => rfl
      | some path =>
        obtain ⟨dir, nearest, _⟩ := (finds path).mp rfl
        exact absurd nearest (absent dir)
  · rintro rfl
    cases found with
    | none =>
      refine .none fun dir nearest => ?_
      have absent := (finds _).mpr ⟨dir, nearest, rfl⟩
      cases absent
    | some path =>
      obtain ⟨dir, nearest, rfl⟩ := (finds path).mp rfl
      exact .nearest nearest

theorem locate_some_result (disk : Disk) (path dir : Text) :
    ((locate (some path) dir).run disk).result =
      if disk.isFile path then .ok (some path)
      else .error (.config (.fileNotFound path) (some path)) := by
  unfold locate
  dsimp only
  rw [Plan.result_isFile_bind rfl]
  split <;> rfl

theorem locate_none_eq (dir : Text) : locate none dir = search dir (Path.ancestorLengths dir) := rfl

theorem locate_eq_ok {explicit file : Option Text} :
    ((locate explicit disk.workingPath).run disk).result = .ok file ↔
      ChosenFile disk explicit file := by
  cases explicit with
  | some path =>
    rw [locate_some_result]
    constructor
    · intro found
      split at found
      · next isFile =>
        rw [← Except.ok.inj found]
        exact .asked isFile
      · cases found
    · rintro ⟨isFile⟩
      exact if_pos isFile
  | none =>
    obtain ⟨found, result, finds⟩ := search_result disk disk.workingPath
      (Path.ancestorLengths disk.workingPath)
    rw [locate_none_eq, result, Except.ok.injEq]
    exact (chosenFile_none_iff finds).symm

theorem locate_eq_error {explicit : Option Text} {fault : Fault} :
    ((locate explicit disk.workingPath).run disk).result = .error fault ↔
      ∃ path, explicit = some path ∧ disk.isFile path = false ∧
        fault = .config (.fileNotFound path) (some path) := by
  cases explicit with
  | some path =>
    rw [locate_some_result]
    constructor
    · intro failed
      split at failed
      · cases failed
      · next missing =>
        exact ⟨path, rfl, eq_false_of_ne_true missing, (Except.error.inj failed).symm⟩
    · rintro ⟨other, same, missing, rfl⟩
      obtain rfl := Option.some.inj same
      exact if_neg (ne_true_of_eq_false missing)
  | none =>
    obtain ⟨found, result, _⟩ := search_result disk disk.workingPath
      (Path.ancestorLengths disk.workingPath)
    rw [locate_none_eq, result]
    simp

theorem search_warnings (disk : Disk) (path : Text) (lengths : List Nat) :
    ((search path lengths).run disk).warnings = [] := by
  induction lengths with
  | nil => rfl
  | cons length lengths ih =>
    unfold search
    refine Plan.warnings_bind_eq_nil (Plan.warnings_request _) fun isFile => ?_
    split
    · rfl
    · refine Plan.warnings_bind_eq_nil (Plan.warnings_request _) fun mark => ?_
      split
      · exact Plan.warnings_bind_eq_nil (Plan.warnings_note _) fun _ => rfl
      · exact ih

theorem locate_warnings (disk : Disk) (explicit : Option Text) (dir : Text) :
    ((locate explicit dir).run disk).warnings = [] := by
  unfold locate
  cases explicit with
  | some path =>
    refine Plan.warnings_bind_eq_nil (Plan.warnings_request _) fun isFile => ?_
    split <;> rfl
  | none => exact search_warnings disk dir _

end PathRules.Config
