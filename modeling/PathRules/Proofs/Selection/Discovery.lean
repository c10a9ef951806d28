import PathRules.Proofs.Plan.Result
import PathRules.Proofs.Text.ByteOrder
import PathRules.Selection
import Mathlib.Data.List.TakeWhile

/-!
# Discovery of rule documents

`discover_result` names what discovery lists, `mem_ruleNames` says which names these are, and
`ruleNames_ascending` that they come in the byte order of the names, each once.
-/

namespace PathRules

theorem nodup_eraseDups {α : Type} [BEq α] [LawfulBEq α] : ∀ items : List α, items.eraseDups.Nodup
  | [] => by simp
  | item :: items => by
    rw [List.eraseDups_cons, List.nodup_cons, List.mem_eraseDups]
    exact ⟨by simp, nodup_eraseDups _⟩
termination_by items => items.length
decreasing_by exact Nat.lt_succ_of_le (List.length_filter_le _ _)

theorem Path.ne_dot_of_mem_reverse {text : Text} (noDot : '.' ∉ text) :
    ∀ c ∈ text.reverse, (c != '.') = true := by
  simpa only [bne_iff_ne, ne_eq, List.forall_mem_ne', List.mem_reverse] using noDot

theorem Path.extension?_append (stem : Text) {extension : Text} (noDot : '.' ∉ extension) :
    Path.extension? (stem ++ '.' :: extension) = if stem = [] then none else some extension := by
  have letters := ne_dot_of_mem_reverse noDot
  have mirrored : (stem ++ '.' :: extension).reverse =
      extension.reverse ++ '.' :: stem.reverse := by simp
  unfold Path.extension?
  rw [mirrored, List.dropWhile_append_of_pos letters, List.takeWhile_append_of_pos letters]
  rcases List.eq_nil_or_concat stem with rfl | ⟨front, last, rfl⟩
  · simp
  · simp

theorem Path.extension?_eq_some_iff {name extension : Text} :
    Path.extension? name = some extension ↔
      '.' ∉ extension ∧ ∃ stem, stem ≠ [] ∧ name = stem ++ '.' :: extension := by
  constructor
  · intro found
    by_cases dotted : '.' ∈ name
    · obtain ⟨after, before, cut, noDot⟩ :=
        List.eq_append_cons_of_mem (List.mem_reverse.mpr dotted)
      have parts : name = before.reverse ++ '.' :: after.reverse := by
        rw [← List.reverse_reverse name, cut]
        simp
      have last : '.' ∉ after.reverse := fun member => noDot (List.mem_reverse.mp member)
      rw [parts, extension?_append _ last] at found
      split at found
      · cases found
      · next nonempty =>
        have same := Option.some.inj found
        subst extension
        exact ⟨last, before.reverse, nonempty, parts⟩
    · have nothing : name.reverse.dropWhile (· != '.') = [] :=
        List.dropWhile_eq_nil_iff.mpr (ne_dot_of_mem_reverse dotted)
      unfold Path.extension? at found
      rw [nothing] at found
      cases found
  · rintro ⟨noDot, stem, nonempty, rfl⟩
    rw [extension?_append stem noDot, if_neg nonempty]

theorem Disk.names_nodup {disk : Disk} {dir : Text} {names : List Text}
    (listed : disk.names dir = .ok names) : names.Nodup := by
  unfold Disk.names at listed
  split at listed
  · have same := Except.ok.inj listed
    subst names
    exact nodup_eraseDups _
  · cases listed
  · cases listed

theorem Disk.isDirectory_iff (disk : Disk) (path : Text) :
    disk.isDirectory path = true ↔ ∃ names, disk.names path = .ok names := by
  unfold Disk.isDirectory Disk.names
  cases disk.find path with
  | error problem => simp
  | ok node => cases node <;> simp [Node.isDirectory]

namespace Selection

/-- A name of a file of the directory that has the extension. -/
structure IsRuleFile (disk : Disk) (location : RulesLocation) (name : Text) : Prop where
  listed : ∃ names, disk.names location.dir = .ok names ∧ name ∈ names
  isFile : disk.isFile (Path.join location.dir name) = true
  dotless : '.' ∉ location.extension
  ending : ∃ stem, stem ≠ [] ∧ name = stem ++ '.' :: location.extension

theorem IsRuleFile.mem_names {disk : Disk} {location : RulesLocation} {name : Text}
    {names : List Text} (isFile : IsRuleFile disk location name)
    (listing : disk.names location.dir = .ok names) : name ∈ names := by
  obtain ⟨others, listed, present⟩ := isFile.listed
  rwa [Except.ok.inj (listing.symm.trans listed)]

/-- The names of the rule documents at a place, in order. -/
def ruleNames (disk : Disk) (location : RulesLocation) : List Text :=
  match disk.names location.dir with
  | .error _ => []
  | .ok names =>
    ((names.filter fun name => Path.extension? name == some location.extension).filter fun name =>
      disk.isFile (Path.join location.dir name)).mergeSort Text.le

theorem mem_ruleNames {disk : Disk} {location : RulesLocation} {name : Text} :
    name ∈ ruleNames disk location ↔ IsRuleFile disk location name := by
  unfold ruleNames
  constructor
  · intro member
    split at member
    · cases member
    · next names listed =>
      simp only [List.mem_mergeSort, List.mem_filter, beq_iff_eq] at member
      obtain ⟨⟨present, ending⟩, isFile⟩ := member
      obtain ⟨dotless, stem⟩ := Path.extension?_eq_some_iff.mp ending
      exact ⟨⟨names, listed, present⟩, isFile, dotless, stem⟩
  · rintro ⟨⟨names, listed, present⟩, isFile, dotless, stem⟩
    have ending := Path.extension?_eq_some_iff.mpr ⟨dotless, stem⟩
    simp [listed, present, isFile, ending]

theorem ruleNames_ascending (disk : Disk) (location : RulesLocation) :
    Text.Ascending (ruleNames disk location) := by
  unfold ruleNames
  split
  · exact List.Pairwise.nil
  · next names listed =>
    have different := Disk.names_nodup listed
    exact Text.pairwise_bytes_mergeSort ((different.filter _).filter _)

/-! ### What discovery lists -/

theorem filesAmong_result (disk : Disk) (dir : Text) (names : List Text) :
    ((filesAmong dir names).run disk).result =
      .ok (names.filter fun name => disk.isFile (Path.join dir name)) := by
  induction names with
  | nil => rfl
  | cons name names ih =>
    unfold filesAmong
    rw [Plan.result_request_bind, Plan.result_bind_ok ih]
    rw [List.filter_cons]
    rfl

theorem filesAmong_warnings (disk : Disk) (dir : Text) (names : List Text) :
    ((filesAmong dir names).run disk).warnings = [] := by
  induction names with
  | nil => rfl
  | cons name names ih =>
    unfold filesAmong
    refine Plan.warnings_bind_eq_nil (Plan.warnings_request _) fun isFile => ?_
    exact Plan.warnings_bind_eq_nil ih fun rest => rfl

/-- Discovery never fails, and lists the paths of the rule documents. -/
theorem discover_result (disk : Disk) (location : RulesLocation) :
    ((discover location.dir location.extension).run disk).result =
      .ok ((ruleNames disk location).map (Path.join location.dir)) := by
  have isDirectory := disk.isDirectory_iff location.dir
  unfold discover ruleNames
  cases listed : disk.names location.dir with
  | error problem =>
    have answered : disk.answer (.isDirectory location.dir) = false := by
      rw [Disk.answer, ← Bool.not_eq_true, isDirectory, listed]
      simp
    rw [Plan.result_request_bind, answered]
    rfl
  | ok names =>
    have answered : disk.answer (.isDirectory location.dir) = true :=
      isDirectory.mpr ⟨names, listed⟩
    have told : disk.answer (.names location.dir) = .ok names := listed
    rw [Plan.result_request_bind, answered]
    simp only [Bool.not_true, Bool.false_eq_true, if_false]
    rw [Plan.result_request_bind, told]
    dsimp only
    rw [Plan.result_bind_ok (filesAmong_result _ _ _), Plan.result_note_bind]
    rfl

theorem discover_warnings (disk : Disk) (dir extension : Text) :
    ((discover dir extension).run disk).warnings = [] := by
  unfold discover
  refine Plan.warnings_bind_eq_nil (Plan.warnings_request _) fun isDirectory => ?_
  split
  · exact Plan.warnings_bind_eq_nil (Plan.warnings_note _) fun _ => rfl
  · refine Plan.warnings_bind_eq_nil (Plan.warnings_request _) fun answer => ?_
    split
    · rfl
    · refine Plan.warnings_bind_eq_nil (filesAmong_warnings _ _ _) fun chosen => ?_
      exact Plan.warnings_bind_eq_nil (Plan.warnings_note _) fun _ => rfl

end Selection
end PathRules
