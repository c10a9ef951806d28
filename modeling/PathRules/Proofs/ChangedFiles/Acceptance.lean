import PathRules.ChangedFiles
import PathRules.Proofs.Document.Search
import PathRules.Proofs.Glob.Meaning
import PathRules.Proofs.Text.Splitting

/-!
# Globs on listed paths

A path that a list of changed files yields holds no line feed, so a compiled glob accepts just the
listed paths that it stands for (`accepts_listed_iff`).
-/

namespace PathRules

theorem Text.trim_subset (s : Text) : trim s ⊆ s := by
  intro c member
  unfold trim trimEnd at member
  have kept := (List.dropWhile_suffix _).subset (List.mem_reverse.mp member)
  have started := List.mem_reverse.mp kept
  exact (List.dropWhile_suffix _).subset started

namespace ChangedFiles

variable {content path : Text}

theorem mem_parse_iff :
    path ∈ parse content ↔ path ≠ [] ∧ ∃ line ∈ Text.lines content, Text.trim line = path := by
  unfold parse
  rw [List.mem_filter, List.mem_map]
  simp [and_comm]

theorem one_line_of_mem_parse (listed : path ∈ parse content) : '\n' ∉ path := by
  obtain ⟨_, line, member, rfl⟩ := mem_parse_iff.mp listed
  intro within
  exact Text.not_mem_of_mem_split member (Text.trim_subset line within)

theorem denotes_double_star (path : Text) : Glob.Denotes ['*', '*'] path := by
  have whole := Glob.Denotes.anything path (by simp) .nil
  rwa [List.append_nil] at whole

/-- A compiled glob accepts the listed paths that it stands for; so a document with the glob `**`
matches as soon as any path is listed. -/
theorem accepts_listed_iff (content : Text) :
    (∀ path ∈ parse content, ∀ glob m, Glob.compile glob = .ok m →
      (m.accepts path = true ↔ Glob.Denotes glob path)) ∧
    ∀ (document : Document) (cache : Glob.Cache), ['*', '*'] ∈ document.patterns →
      ((document.firstMatch (parse content) cache).found.isSome = true ↔ parse content ≠ []) := by
  have alike : ∀ path ∈ parse content, ∀ glob m, Glob.compile glob = .ok m →
      (m.accepts path = true ↔ Glob.Denotes glob path) := by
    intro path listed glob m compiled
    rw [Glob.accepts_iff_covers compiled]
    exact Glob.covers_scan_iff (one_line_of_mem_parse listed)
  refine ⟨alike, fun document cache declared => ?_⟩
  rw [Document.firstMatch_isSome]
  constructor
  · rintro ⟨_, _, _, _, file, listed, _⟩ nothing
    rw [nothing] at listed
    cases listed
  · intro some_listed
    obtain ⟨file, listed⟩ := List.exists_mem_of_ne_nil _ some_listed
    have compiled : Glob.compile ['*', '*'] = .ok ⟨_, _, rfl⟩ := rfl
    have accepted := (alike file listed _ _ compiled).mpr (denotes_double_star file)
    exact ⟨_, declared, _, compiled, file, listed, accepted⟩

theorem accepts_listed_over_carriage_return :
    "a\r/b".toList ∈ parse " a\r/b\u0085\r\n\n".toList ∧
      (∃ m, Glob.compile "*/**".toList = .ok m ∧ m.accepts "a\r/b".toList = true) ∧
      ∃ document : Document, ['*', '*'] ∈ document.patterns ∧
        (document.firstMatch (parse " a\r/b\u0085\r\n\n".toList) .empty).found.isSome = true := by
  have listed : "a\r/b".toList ∈ parse " a\r/b\u0085\r\n\n".toList := by decide
  obtain ⟨alike, by_double_star⟩ := accepts_listed_iff " a\r/b\u0085\r\n\n".toList
  have compiled : Glob.compile "*/**".toList = .ok ⟨_, _, rfl⟩ := rfl
  have denoted : Glob.Denotes "*/**".toList "a\r/b".toList :=
    .run ['a', '\r'] (by decide) (by decide) (.literal (by decide) (by decide)
      (denotes_double_star ['b']))
  have declared : ['*', '*'] ∈ (Document.mk [] "---\npaths:\n- **\n---\n".toList).patterns := by
    decide
  exact ⟨listed, ⟨_, compiled, (alike _ listed _ _ compiled).mpr denoted⟩, _, declared,
    (by_double_star _ _ declared).mpr (List.ne_nil_of_mem listed)⟩

end ChangedFiles
end PathRules
