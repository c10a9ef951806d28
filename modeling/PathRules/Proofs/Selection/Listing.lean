import PathRules.Proofs.Disk.Entries
import PathRules.Proofs.Disk.Rearranged
import PathRules.Proofs.Selection.Discovery

/-!
# Listing of rule documents

Discovery lists the files of a directory that have the extension, in the byte order of their names
and in whatever order the directory itself lists them (`discover_lists_rule_files`).
-/

namespace PathRules

namespace Selection

variable {disk other : Disk} {location : RulesLocation}

theorem ruleNames_of_rearranged (alike : disk.Rearranged other) :
    ruleNames other location = ruleNames disk location := by
  apply (ruleNames_ascending other location).eq_of_mem_iff (ruleNames_ascending disk location)
  intro name
  rw [mem_ruleNames, mem_ruleNames]
  constructor
  · rintro ⟨listed, isFile, dotless, ending⟩
    exact ⟨alike.mem_names.mpr listed, (alike.isFile _).trans isFile, dotless, ending⟩
  · rintro ⟨listed, isFile, dotless, ending⟩
    exact ⟨alike.mem_names.mp listed, (alike.isFile _).symm.trans isFile, dotless, ending⟩

theorem isRuleFile_iff_entry {entries : List (Text × Node)} {name : Text}
    (held : disk.find location.dir = .ok (.directory entries)) (proper : Path.IsName name) :
    IsRuleFile disk location name ↔
      Text.byteLength (Path.join location.dir name) ≤ Disk.maxPathLength ∧
      (∃ bytes, entries.lookup name = some (.file bytes)) ∧
      '.' ∉ location.extension ∧ ∃ stem, stem ≠ [] ∧ name = stem ++ '.' :: location.extension := by
  have listing : disk.names location.dir = .ok (entries.map Prod.fst).eraseDups := by
    unfold Disk.names
    rw [held]
  constructor
  · rintro ⟨_, file, dotless, ending⟩
    obtain ⟨short, entry⟩ := (Disk.isFile_join held proper).mp file
    exact ⟨short, entry, dotless, ending⟩
  · rintro ⟨short, ⟨bytes, entry⟩, dotless, ending⟩
    have member : name ∈ entries.map Prod.fst := mem_keys_iff.mpr ⟨_, entry⟩
    have file := (Disk.isFile_join held proper).mpr ⟨short, bytes, entry⟩
    exact ⟨⟨_, listing, List.mem_eraseDups.mpr member⟩, file, dotless, ending⟩

theorem ruleNames_of_no_directory (missing : disk.isDirectory location.dir = false) :
    ruleNames disk location = [] := by
  have unlisted : ¬ ∃ names, disk.names location.dir = .ok names := by
    rw [← Disk.isDirectory_iff, missing]
    exact Bool.false_ne_true
  unfold ruleNames
  split
  · rfl
  · next names listed => exact absurd ⟨names, listed⟩ unlisted

/-- Discovery succeeds with the paths of the files in the directory that have the extension, in the
strict byte order of their names. These are the entries of the directory that are files, as far as
their paths are not too long to be followed. Where no directory is, there are none, and the order of
entries has no part in it. -/
theorem discover_lists_rule_files (disk : Disk) (location : RulesLocation) :
    ∃ names : List Text,
      ((discover location.dir location.extension).run disk).result =
        .ok (names.map (Path.join location.dir)) ∧
      Text.Ascending names ∧
      (∀ name, name ∈ names ↔ IsRuleFile disk location name) ∧
      (∀ entries name, disk.find location.dir = .ok (.directory entries) → Path.IsName name →
        (name ∈ names ↔ Text.byteLength (Path.join location.dir name) ≤ Disk.maxPathLength ∧
          (∃ bytes, entries.lookup name = some (.file bytes)) ∧
          '.' ∉ location.extension ∧
          ∃ stem, stem ≠ [] ∧ name = stem ++ '.' :: location.extension)) ∧
      (disk.isDirectory location.dir = false → names = []) ∧
      ∀ other : Disk, disk.Rearranged other →
        ((discover location.dir location.extension).run other).result =
          .ok (names.map (Path.join location.dir)) := by
  refine ⟨ruleNames disk location, discover_result disk location, ruleNames_ascending disk location,
    fun name => mem_ruleNames, ?_, ruleNames_of_no_directory, ?_⟩
  · intro entries name held proper
    exact mem_ruleNames.trans (isRuleFile_iff_entry held proper)
  · intro other alike
    rw [discover_result, ruleNames_of_rearranged alike]

/-- A disk with one directory for rule documents. -/
def diskOfRules (entries : List (Text × Node)) : Disk where
  root := .directory [("rules".toList, .directory entries)]
  workingDirectory := []

def mixedEntries : List (Text × Node) := [
  ("é.md".toList, .file ByteArray.empty),
  ("sub.md".toList, .directory [("deep.md".toList, .file ByteArray.empty)]),
  (".md".toList, .file ByteArray.empty),
  ("amd".toList, .file ByteArray.empty),
  ("a.b.md".toList, .file ByteArray.empty)]

theorem discover_lists_rule_files_among_others :
    let place : RulesLocation := ⟨"rules/".toList, "md".toList⟩
    let outcome (disk : Disk) := ((discover place.dir place.extension).run disk).result
    ∃ names : List Text,
      outcome (diskOfRules mixedEntries) = .ok (names.map (Path.join place.dir)) ∧
      outcome (diskOfRules mixedEntries.reverse) = .ok (names.map (Path.join place.dir)) ∧
      outcome ⟨.directory [], [], ByteArray.empty⟩ = .ok [] ∧
      Text.Ascending names ∧ "a.b.md".toList ∈ names ∧ "é.md".toList ∈ names ∧
      "sub.md".toList ∉ names ∧ ".md".toList ∉ names ∧ "amd".toList ∉ names := by
  intro place outcome
  obtain ⟨names, listed, ascending, _, entries, _, order⟩ :=
    discover_lists_rule_files (diskOfRules mixedEntries) place
  obtain ⟨absent, none_listed, _, _, _, missing, _⟩ :=
    discover_lists_rule_files ⟨.directory [], [], ByteArray.empty⟩ place
  have held : (diskOfRules mixedEntries).find place.dir = .ok (.directory mixedEntries) := rfl
  have each (name : Text) (proper : Path.IsName name) := entries mixedEntries name held proper
  have reversed : (diskOfRules mixedEntries).Rearranged (diskOfRules mixedEntries.reverse) := by
    refine ⟨.directory (.refl _) fun name entry other found found_other => ?_, rfl, rfl⟩
    obtain ⟨_, rfl⟩ := Prod.mk.inj (List.mem_singleton.mp (mem_of_lookup found))
    obtain ⟨_, rfl⟩ := Prod.mk.inj (List.mem_singleton.mp (mem_of_lookup found_other))
    exact Node.rearranged_of_perm (by decide) (List.reverse_perm mixedEntries).symm
  refine ⟨names, listed, order _ reversed, ?_, ascending, ?_, ?_, ?_, ?_, ?_⟩
  · have nothing := missing rfl
    subst nothing
    exact none_listed
  · refine (each _ (by constructor <;> decide)).mpr ⟨by decide, ⟨_, rfl⟩, by decide, ?_⟩
    exact ⟨"a.b".toList, by decide, rfl⟩
  · refine (each _ (by constructor <;> decide)).mpr ⟨by decide, ⟨_, rfl⟩, by decide, ?_⟩
    exact ⟨"é".toList, by decide, rfl⟩
  · intro member
    obtain ⟨_, ⟨bytes, entry⟩, _⟩ := (each _ (by constructor <;> decide)).mp member
    cases entry
  · intro member
    obtain ⟨_, _, _, stem, nonempty, same⟩ := (each _ (by constructor <;> decide)).mp member
    exact nonempty (List.self_eq_append_left.mp same)
  · intro member
    obtain ⟨_, _, _, stem, _, same⟩ := (each _ (by constructor <;> decide)).mp member
    have dotted : '.' ∈ "amd".toList := by
      rw [same]
      exact List.mem_append_right _ List.mem_cons_self
    exact absurd dotted (by decide)

end Selection
end PathRules
