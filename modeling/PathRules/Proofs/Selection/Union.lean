import PathRules.Proofs.Selection.Division

/-!
# Selection and the list of changed files

Where all rule documents can be read, selection keeps those of them that match
(`matchRulesIn_eq_selected`). So more changed files select more rules, and two lists together
select what either of them selects (`union_selects_either`).
-/

namespace PathRules

namespace Document

variable {document : Document} {files others : List Text}

theorem Matches.mono (doesMatch : document.Matches files) (subset : files ⊆ others) :
    document.Matches others := by
  obtain ⟨glob, declared, matcher, compiled, file, member, accepted⟩ := doesMatch
  exact ⟨glob, declared, matcher, compiled, file, subset member, accepted⟩

theorem matches_append_iff :
    document.Matches (files ++ others) ↔ document.Matches files ∨ document.Matches others := by
  constructor
  · rintro ⟨glob, declared, matcher, compiled, file, member, accepted⟩
    rcases List.mem_append.mp member with member | member
    · exact .inl ⟨glob, declared, matcher, compiled, file, member, accepted⟩
    · exact .inr ⟨glob, declared, matcher, compiled, file, member, accepted⟩
  · rintro (doesMatch | doesMatch)
    · exact doesMatch.mono (List.subset_append_left files others)
    · exact doesMatch.mono (List.subset_append_right files others)

end Document

namespace Selection

variable {disk : Disk} {location : RulesLocation} {files others : List Text} {path : Text}

/-! ### Documents that match -/

theorem matchesAt_iff {content : Text} (read : disk.textAt path = .ok content) :
    MatchesAt disk files path ↔ (Document.mk path content).Matches files := by
  constructor
  · rintro ⟨other, again, doesMatch⟩
    obtain rfl := Except.ok.inj (read.symm.trans again)
    exact doesMatch
  · exact fun doesMatch => ⟨content, read, doesMatch⟩

theorem not_matchesAt_of_unread {problem : ReadProblem}
    (unread : disk.textAt path = .error problem) : ¬ MatchesAt disk files path := by
  rintro ⟨content, read, _⟩
  rw [unread] at read
  cases read

instance (disk : Disk) (files : List Text) (path : Text) : Decidable (MatchesAt disk files path) :=
  match text : disk.textAt path with
  | .ok _ => decidable_of_iff _ (matchesAt_iff text).symm
  | .error _ => isFalse (not_matchesAt_of_unread text)

theorem MatchesAt.mono (doesMatch : MatchesAt disk files path) (subset : files ⊆ others) :
    MatchesAt disk others path := by
  obtain ⟨content, read, doesMatch⟩ := doesMatch
  exact ⟨content, read, doesMatch.mono subset⟩

theorem matchesAt_append_iff :
    MatchesAt disk (files ++ others) path ↔
      MatchesAt disk files path ∨ MatchesAt disk others path := by
  cases read : disk.textAt path with
  | error problem => simp [not_matchesAt_of_unread read]
  | ok content =>
    rw [matchesAt_iff read, matchesAt_iff read, matchesAt_iff read]
    exact Document.matches_append_iff

/-! ### What is selected -/

/-- All rule documents at a place can be read. -/
def AllReadable (disk : Disk) (location : RulesLocation) : Prop :=
  ∀ name, IsRuleFile disk location name →
    ∃ content, disk.textAt (Path.join location.dir name) = .ok content

/-- The document at a path as a rule, if it can be read. -/
def candidateAt? (disk : Disk) (path : Text) : Option MatchedRule :=
  (disk.textAt path).toOption.map fun content => (Document.mk path content).toMatchedRule

/-- The rule documents at a place, in the order of their names. -/
def candidates (disk : Disk) (location : RulesLocation) : List MatchedRule :=
  (rulePaths disk location).filterMap (candidateAt? disk)

def selected (disk : Disk) (location : RulesLocation) (files : List Text) : List MatchedRule :=
  (candidates disk location).filter fun rule => MatchesAt disk files rule.path

theorem candidateAt?_of_read {content : Text} (read : disk.textAt path = .ok content) :
    candidateAt? disk path = some (Document.mk path content).toMatchedRule := by
  rw [candidateAt?, read]
  rfl

theorem ruleAt_of_read {content : Text} (read : disk.textAt path = .ok content) :
    ruleAt disk files path =
      .ok (if MatchesAt disk files path then candidateAt? disk path else none) := by
  rw [candidateAt?_of_read read]
  simp only [matchesAt_iff read, ruleAt, read]

theorem selectFrom_eq_filter {paths : List Text}
    (readable : ∀ path ∈ paths, ∃ content, disk.textAt path = .ok content) :
    selectFrom disk files paths = .ok ((paths.filterMap (candidateAt? disk)).filter fun rule =>
      MatchesAt disk files rule.path) := by
  induction paths with
  | nil => rfl
  | cons path paths ih =>
    obtain ⟨⟨content, read⟩, readable⟩ := List.forall_mem_cons.mp readable
    have candidate := candidateAt?_of_read read
    rw [selectFrom_cons_ok (ruleAt_of_read read), ih readable, List.filterMap_cons, candidate,
      List.filter_cons]
    by_cases doesMatch : MatchesAt disk files path
    · simp [doesMatch, Except.map, Document.toMatchedRule]
    · simp [doesMatch, Except.map, Document.toMatchedRule]

theorem readable_rulePaths (readable : AllReadable disk location) :
    ∀ path ∈ rulePaths disk location, ∃ content, disk.textAt path = .ok content := by
  intro path member
  obtain ⟨name, isFile, rfl⟩ := mem_rulePaths.mp member
  exact readable name isFile

/-- Where all documents can be read, selection keeps those that match, however they are divided. -/
theorem matchRulesIn_eq_selected (readable : AllReadable disk location)
    {divide : List Text → List (List Text)} (divides : ∀ paths, (divide paths).flatten = paths)
    (files : List Text) :
    ((matchRulesIn divide files location).run disk).result =
      .ok (selected disk location files) := by
  by_cases nothing : files = []
  · subst nothing
    have unmatched (rule : MatchedRule) : ¬ MatchesAt disk [] rule.path := by
      rintro ⟨_, _, _, _, _, _, file, member, _⟩
      cases member
    rw [matchRulesIn_nil, selected, List.filter_eq_nil_iff.mpr fun rule _ => by
      simpa using unmatched rule]
  · rw [matchRulesIn_result nothing (divides _), selectFrom_eq_filter (readable_rulePaths readable)]
    rfl

theorem paths_of_readable {paths : List Text}
    (readable : ∀ path ∈ paths, ∃ content, disk.textAt path = .ok content) :
    (paths.filterMap (candidateAt? disk)).map MatchedRule.path = paths := by
  induction paths with
  | nil => rfl
  | cons path paths ih =>
    obtain ⟨⟨content, read⟩, readable⟩ := List.forall_mem_cons.mp readable
    have candidate := candidateAt?_of_read read
    simp [candidate, ih readable, Document.toMatchedRule]

theorem mem_selected {rule : MatchedRule} :
    rule ∈ selected disk location files ↔
      rule ∈ candidates disk location ∧ MatchesAt disk files rule.path := by
  simp [selected]

theorem selected_append :
    selected disk location (files ++ others) = (candidates disk location).filter fun rule =>
      rule ∈ selected disk location files ∨ rule ∈ selected disk location others := by
  refine List.filter_congr fun rule member => ?_
  simp only [mem_selected, matchesAt_append_iff, member, true_and]

theorem selected_sublist (subset : files ⊆ others) :
    (selected disk location files).Sublist (selected disk location others) := by
  refine List.monotone_filter_right _ fun rule doesMatch => ?_
  have matched : MatchesAt disk files rule.path := of_decide_eq_true doesMatch
  exact decide_eq_true (matched.mono subset)

theorem selected_congr (same : ∀ file, file ∈ files ↔ file ∈ others) :
    selected disk location files = selected disk location others := by
  refine List.filter_congr fun rule _ => ?_
  rw [decide_eq_decide]
  exact ⟨fun matched => matched.mono fun file => (same file).mp,
    fun matched => matched.mono fun file => (same file).mpr⟩

/-- Where all rule documents can be read, two lists of changed files together select the documents
that either of them selects. More files lose no rule, and neither order nor repetition counts. -/
theorem union_selects_either (readable : AllReadable disk location) :
    ∃ select : List Text → List MatchedRule,
      (∀ files divide, (∀ paths, (divide paths).flatten = paths) →
        ((matchRulesIn divide files location).run disk).result = .ok (select files)) ∧
      ((discover location.dir location.extension).run disk).result =
        .ok ((candidates disk location).map MatchedRule.path) ∧
      (∀ files others, select (files ++ others) =
        (candidates disk location).filter fun rule =>
          rule ∈ select files ∨ rule ∈ select others) ∧
      (∀ files others, files ⊆ others → (select files).Sublist (select others)) ∧
      ∀ files others, (∀ file, file ∈ files ↔ file ∈ others) → select files = select others := by
  refine ⟨selected disk location, ?_, ?_, ?_, ?_, ?_⟩
  · exact fun files divide divides => matchRulesIn_eq_selected readable divides files
  · rw [candidates, paths_of_readable (readable_rulePaths readable)]
    exact discover_result disk location
  · exact fun files others => selected_append
  · exact fun files others => selected_sublist
  · exact fun files others => selected_congr

/-- A directory with three rule documents. -/
def readableDisk : Disk where
  root := .directory [("docs".toList, .directory [
    ("c.md".toList, .file "No globs.".toUTF8),
    ("b.md".toList, .file "---\npaths:\n- '*.py'\n- '**/é?.rs'\n---\nSecond.".toUTF8),
    ("a.md".toList, .file "---\npaths:\n- '*.txt'\n---\nFirst.".toUTF8)])]
  workingDirectory := []

theorem allReadable_readableDisk :
    AllReadable readableDisk ⟨"docs".toList, "md".toList⟩ := by
  intro name isFile
  have listing : readableDisk.names "docs".toList =
      .ok ["c.md".toList, "b.md".toList, "a.md".toList] := by rfl
  have present := isFile.mem_names listing
  have decoded : ∀ name ∈ ["c.md".toList, "b.md".toList, "a.md".toList],
      (readableDisk.textAt (Path.join "docs".toList name)).toOption.isSome = true := by
    decide +kernel
  cases read : readableDisk.textAt (Path.join "docs".toList name) with
  | ok content => exact ⟨content, rfl⟩
  | error problem =>
    have failed := decoded name present
    rw [read] at failed
    cases failed

theorem union_selects_either_of_two :
    let place : RulesLocation := ⟨"docs".toList, "md".toList⟩
    let outcome (files : List Text) := ((matchRules files place).run readableDisk).result
    AllReadable readableDisk place ∧ ∃ rules later,
      outcome ["a.txt".toList] = .ok rules ∧ outcome ["x/éa.rs".toList] = .ok later ∧
      outcome ["a.txt".toList, "x/éa.rs".toList] =
        .ok ((candidates readableDisk place).filter fun rule => rule ∈ rules ∨ rule ∈ later) := by
  intro place outcome
  obtain ⟨select, selects, _, union, _⟩ := union_selects_either allReadable_readableDisk
  have each (files : List Text) : outcome files = .ok (select files) :=
    selects files (·.map ([·])) List.flatMap_singleton'
  refine ⟨allReadable_readableDisk, _, _, each ["a.txt".toList], each ["x/éa.rs".toList], ?_⟩
  rw [each, ← union]
  rfl

end Selection
end PathRules
