import PathRules.Proofs.Arguments.Environment
import PathRules.Proofs.ChangedFiles.Acceptance
import PathRules.Proofs.Session.Stages

/-!
# What a run prints

A run that gets to the end prints the rules that apply to its changed files, and no others
(`success_prints_selection`). Where the rule documents are is settled by the options, then by the
configuration, then by what is usual.
-/

namespace PathRules

namespace Session

open Config (ChosenFile)
open Selection (IsSelection rulePaths selectFrom)

variable {disk : Disk}

/-- What the configuration of a run sets: what its file declares, or nothing without a file. -/
inductive Configured (disk : Disk) (explicit : Option Text) :
    (dir extension : Option Text) → Prop where
  | usual : ChosenFile disk explicit none → Configured disk explicit none none
  | file {path content : Text} {dir extension : Option Text} :
      ChosenFile disk explicit (some path) → disk.textAt path = .ok content →
      Config.Declares content dir extension → Configured disk explicit dir extension

theorem configured_of_result {explicit : Option Text} {config : Config}
    (done : ((configuration explicit).run disk).result = .ok config) :
    ∃ dir extension, Configured disk explicit dir extension ∧
      config.rules = ⟨dir.getD RulesLocation.standard.dir,
        extension.getD RulesLocation.standard.extension⟩ := by
  rcases configuration_eq_ok.mp done with ⟨absent, rfl⟩ | ⟨path, chosen, loaded⟩
  · exact ⟨none, none, .usual absent, rfl⟩
  · obtain ⟨content, text, read⟩ := Config.load_eq_ok.mp loaded
    obtain ⟨dir, extension, declares, same⟩ := Config.read_ok read
    exact ⟨dir, extension, .file chosen text declares, same⟩

/-- The place of the rule documents. For each of its parts an option comes before the configuration,
and the configuration before what is usual. -/
def placeOf (flags : Arguments) (dir extension : Option Text) : RulesLocation where
  dir := (flags.rulesDir.or dir).getD (Text.of ".claude/rules")
  extension :=
    ((flags.extension.map RulesLocation.stripDots).or extension).getD (Text.of "md")

theorem placeOf_of_override {flags : Arguments} {dir extension : Option Text}
    {rules location : RulesLocation}
    (configured : rules = ⟨dir.getD RulesLocation.standard.dir,
      extension.getD RulesLocation.standard.extension⟩)
    (overridden : rules.override flags.rulesDir flags.extension = .ok location) :
    location = placeOf flags dir extension := by
  rw [RulesLocation.override_eq_ok overridden, configured]
  unfold placeOf
  cases flags.rulesDir <;> cases flags.extension <;> rfl

theorem reported_of_success {arguments : List Text} {environment : Option Text}
    {given : Arguments} (parsed : Arguments.parse arguments environment = .ok given)
    (success : (run disk arguments environment).exitCode = 0) :
    ∃ text, ((program given).run disk).result = .ok text ∧
      (run disk arguments environment).stdout = text := by
  unfold run at success ⊢
  rw [parsed] at success ⊢
  dsimp only at success ⊢
  cases ended : ((program given).run disk).result with
  | ok text => exact ⟨text, rfl, rfl⟩
  | error fault =>
    rw [ended] at success
    cases fault <;> cases success

/-- A run that matches and succeeds prints the rules at the place that its options and its
configuration give, as far as their documents match the changed files: the lines of the list that
are not blank, trimmed. -/
theorem success_prints_selection {arguments : List Text} {environment : Option Text}
    {given : Arguments} (parsed : Arguments.parse arguments environment = .ok given)
    (success : (run disk arguments environment).exitCode = 0) :
    ∃ flags dir extension text rules,
      Arguments.parse arguments none = .ok flags ∧
      Configured disk (flags.config.or environment) dir extension ∧
      changedText disk flags.changedFiles = .ok text ∧
      (∀ path, path ∈ ChangedFiles.parse text ↔
        path ≠ [] ∧ ∃ line ∈ Text.lines text, Text.trim line = path) ∧
      IsSelection disk (placeOf flags dir extension) (ChangedFiles.parse text) rules ∧
      (run disk arguments environment).stdout = match flags.output with
        | .text => Report.markdown rules
        | .json => Report.json rules := by
  obtain ⟨flags, unaided, rfl⟩ := Arguments.parse_environment parsed
  obtain ⟨printed, ended, stdout⟩ := reported_of_success parsed success
  obtain ⟨config, location, files, rules, configured, overridden, read, matched, rfl⟩ :=
    program_eq_ok.mp ended
  obtain ⟨dir, extension, declared, same⟩ := configured_of_result configured
  obtain ⟨text, changed, rfl⟩ := readChangedFiles_eq_ok.mp read
  have place : location = placeOf flags dir extension := placeOf_of_override same overridden
  subst place
  refine ⟨flags, dir, extension, text, rules, unaided, declared, changed, ?_, ?_, ?_⟩
  · exact fun _ => ChangedFiles.mem_parse_iff
  · exact matchRules_eq_ok matched
  · rw [stdout]
    cases flags.output <;> rfl

/-- A directory with two documents, and a list of changed files on standard input. -/
def sampleDisk : Disk where
  root := .directory [("docs".toList, .directory [
    ("a.txt".toList, .file "---\npaths:\n- '*.rs'\n---\nFirst.".toUTF8),
    ("b.md".toList, .file "---\npaths:\n- '*.rs'\n---\nSecond.".toUTF8)])]
  workingDirectory := []
  input := "src/lib.rs\n\tmain.rs \r\n\n".toUTF8

theorem success_prints_selection_of_sample :
    let arguments := ["--rules-dir=docs".toList, "--extension=.txt".toList, "-".toList]
    ∃ flags dir extension text rules,
      Arguments.parse arguments none = .ok flags ∧
      Configured sampleDisk (flags.config.or none) dir extension ∧
      changedText sampleDisk flags.changedFiles = .ok text ∧
      (∀ path, path ∈ ChangedFiles.parse text ↔
        path ≠ [] ∧ ∃ line ∈ Text.lines text, Text.trim line = path) ∧
      IsSelection sampleDisk (placeOf flags dir extension) (ChangedFiles.parse text) rules ∧
      (run sampleDisk arguments none).stdout = (match flags.output with
        | .text => Report.markdown rules
        | .json => Report.json rules) ∧
      ChangedFiles.parse text = ["src/lib.rs".toList, "main.rs".toList] ∧
      rules = [⟨"docs/a.txt".toList, "First.".toList⟩] := by
  intro arguments
  have parsed : Arguments.parse arguments none =
      .ok ⟨['-'], none, some "docs".toList, some ".txt".toList, .text⟩ := by
    with_unfolding_all rfl
  have success : (run sampleDisk arguments none).exitCode = 0 := by decide +kernel
  obtain ⟨flags, dir, extension, text, rules, unaided, configured, changed, listed, selection,
    stdout⟩ := success_prints_selection parsed success
  obtain rfl := Except.ok.inj (unaided.symm.trans parsed)
  have given : changedText sampleDisk ['-'] = .ok "src/lib.rs\n\tmain.rs \r\n\n".toList := by
    decide +kernel
  obtain rfl := Except.ok.inj (changed.symm.trans given)
  have files : ChangedFiles.parse "src/lib.rs\n\tmain.rs \r\n\n".toList =
      ["src/lib.rs".toList, "main.rs".toList] := by decide +kernel
  have selected : selectFrom sampleDisk ["src/lib.rs".toList, "main.rs".toList]
      (rulePaths sampleDisk ⟨"docs".toList, "txt".toList⟩) =
        .ok [⟨"docs/a.txt".toList, "First.".toList⟩] := by decide +kernel
  refine ⟨_, dir, extension, _, rules, unaided, configured, changed, listed, selection, stdout,
    files, ?_⟩
  rw [files] at selection
  exact selection.unique (Selection.isSelection_of_selectFrom selected)

end Session
end PathRules
