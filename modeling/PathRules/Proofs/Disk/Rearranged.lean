import PathRules.Disk
import PathRules.Proofs.Text.Keyed
import Mathlib.Data.List.Forall2

/-!
# Order of entries

Two disks that differ in nothing but the order in which directories list their entries have the
same files at all paths (`Disk.Rearranged.isFile`), and the same names in every directory
(`Disk.Rearranged.mem_names`).
-/

namespace PathRules

/-- Two trees that hold the same, in whatever order their directories list it. -/
inductive Node.Rearranged : Node → Node → Prop where
  | file (bytes : ByteArray) : Rearranged (.file bytes) (.file bytes)
  | directory {entries others : List (Text × Node)}
      (names : (entries.map Prod.fst).Perm (others.map Prod.fst))
      (below : ∀ name entry other, entries.lookup name = some entry →
        others.lookup name = some other → Rearranged entry other) :
      Rearranged (.directory entries) (.directory others)

namespace Node

theorem Rearranged.isDirectory {node other : Node} (alike : node.Rearranged other) :
    node.isDirectory = other.isDirectory := by
  cases alike <;> rfl

theorem Rearranged.isFile {node other : Node} (alike : node.Rearranged other) :
    node.isFile = other.isFile := by
  cases alike <;> rfl

theorem Rearranged.refl : ∀ node : Node, node.Rearranged node
  | .file bytes => .file bytes
  | .directory entries => .directory (.refl _) fun name entry other found found_other => by
    obtain rfl := Option.some.inj (found.symm.trans found_other)
    have member := mem_of_lookup found
    exact refl entry
termination_by node => sizeOf node
decreasing_by
  have smaller := List.sizeOf_lt_of_mem member
  simp only [Prod.mk.sizeOf_spec, directory.sizeOf_spec] at smaller ⊢
  omega

theorem rearranged_of_perm {entries others : List (Text × Node)}
    (once : (entries.map Prod.fst).Nodup) (same : entries.Perm others) :
    Rearranged (.directory entries) (.directory others) := by
  refine .directory (same.map Prod.fst) ?_
  intro name entry other found found_other
  rw [← lookup_perm once same, found] at found_other
  obtain rfl := Option.some.inj found_other
  exact .refl entry

theorem Rearranged.entry? {node other : Node} (alike : node.Rearranged other) (name : Text) :
    Option.Rel Rearranged (node.entry? name) (other.entry? name) := by
  cases alike with
  | file bytes => exact .none
  | @directory entries others names below =>
    have listed : (∃ entry, entries.lookup name = some entry) ↔
        ∃ entry, others.lookup name = some entry := by
      rw [← mem_keys_iff, ← mem_keys_iff, names.mem_iff]
    unfold Node.entry? Node.entries
    cases found : entries.lookup name with
    | some entry =>
      obtain ⟨entry_other, found_other⟩ := listed.mp ⟨entry, found⟩
      rw [found_other]
      exact .some (below name entry entry_other found found_other)
    | none =>
      cases found_other : others.lookup name with
      | none => exact .none
      | some entry =>
        obtain ⟨entry, found_too⟩ := listed.mpr ⟨entry, found_other⟩
        rw [found] at found_too
        cases found_too

end Node

namespace Disk

/-- What two look-ups find, up to the order of entries. -/
inductive FoundAlike : Except ReadProblem Node → Except ReadProblem Node → Prop where
  | error (problem : ReadProblem) : FoundAlike (.error problem) (.error problem)
  | ok {node other : Node} (alike : node.Rearranged other) : FoundAlike (.ok node) (.ok other)

theorem follow_rearranged {chain others : List Node}
    (alike : List.Forall₂ Node.Rearranged chain others) (segments : List Text) :
    FoundAlike (follow chain segments) (follow others segments) := by
  induction segments generalizing chain others with
  | nil =>
    cases alike with
    | nil => exact .error _
    | cons first _ => exact .ok first
  | cons segment rest ih =>
    cases alike with
    | nil => exact .error _
    | @cons node other above above_other first later =>
      have whole := List.Forall₂.cons first later
      unfold follow
      rw [first.isDirectory]
      split
      · exact .error _
      split
      · exact ih whole
      split
      · cases later with
        | nil => exact ih whole
        | cons second later => exact ih (.cons second later)
      split
      · exact .error _
      have entries := first.entry? segment
      generalize node.entry? segment = found at entries ⊢
      generalize other.entry? segment = found_other at entries ⊢
      cases entries with
      | none => exact .error _
      | some entry => exact ih (.cons entry whole)

/-- Two disks that hold the same, in whatever order their directories list it. -/
structure Rearranged (disk other : Disk) : Prop where
  root : disk.root.Rearranged other.root
  workingDirectory : disk.workingDirectory = other.workingDirectory
  input : disk.input = other.input

namespace Rearranged

variable {disk other : Disk} (alike : disk.Rearranged other)
include alike

theorem find (path : Text) : FoundAlike (disk.find path) (other.find path) := by
  have chain : List.Forall₂ Node.Rearranged [disk.root] [other.root] := .cons alike.root .nil
  unfold Disk.find
  rw [alike.workingDirectory]
  repeat' split
  all_goals first
    | exact .error _
    | exact follow_rearranged chain _

theorem isFile (path : Text) : disk.isFile path = other.isFile path := by
  have found := alike.find path
  unfold Disk.isFile
  generalize disk.find path = answer at found ⊢
  generalize other.find path = answer_other at found ⊢
  cases found with
  | error problem => rfl
  | ok nodes => exact nodes.isFile

theorem mem_names {path name : Text} :
    (∃ names, disk.names path = .ok names ∧ name ∈ names) ↔
      ∃ names, other.names path = .ok names ∧ name ∈ names := by
  have found := alike.find path
  unfold Disk.names
  generalize disk.find path = answer at found ⊢
  generalize other.find path = answer_other at found ⊢
  cases found with
  | error problem => simp
  | ok nodes =>
    cases nodes with
    | file bytes => simp
    | directory names below =>
      have same := names.mem_iff (a := name)
      simp [List.mem_eraseDups, -List.mem_map, same]

end Rearranged
end Disk
end PathRules
