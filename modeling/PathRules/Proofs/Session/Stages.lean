import PathRules.Proofs.Config.Lookup
import PathRules.Proofs.Config.Settings
import PathRules.Proofs.Selection.Division
import PathRules.Session

/-!
# Stages of a run

What each stage gives, and when it fails: `configuration_eq_ok`, `readChangedFiles_eq_ok`,
`matchRules_eq_ok` and their counterparts. Only the reading of the configuration warns of anything
(`program_warnings`).
-/

namespace PathRules

namespace Session

open Config (ChosenFile)
open Selection

variable {disk : Disk} {explicit : Option Text}

/-! ### The configuration -/

theorem configuration_of_lost {fault : Fault}
    (lost : ((Config.locate explicit disk.workingPath).run disk).result = .error fault) :
    ((configuration explicit).run disk).result = .error fault := by
  unfold configuration
  rw [Plan.result_request_bind]
  exact Plan.result_bind_error lost

theorem configuration_of_none (absent : ChosenFile disk explicit none) :
    ((configuration explicit).run disk).result = .ok {} := by
  have located := Config.locate_eq_ok.mpr absent
  unfold configuration
  rw [Plan.result_request_bind]
  exact Plan.result_bind_ok located

theorem configuration_of_some {path : Text} (chosen : ChosenFile disk explicit (some path)) :
    ((configuration explicit).run disk).result = ((Config.load path).run disk).result := by
  have located := Config.locate_eq_ok.mpr chosen
  unfold configuration
  rw [Plan.result_request_bind]
  exact Plan.result_bind_ok located

theorem configuration_eq_ok {config : Config} :
    ((configuration explicit).run disk).result = .ok config ↔
      (ChosenFile disk explicit none ∧ config = {}) ∨
      ∃ path, ChosenFile disk explicit (some path) ∧
        ((Config.load path).run disk).result = .ok config := by
  constructor
  · intro done
    cases located : ((Config.locate explicit disk.workingPath).run disk).result with
    | error fault =>
      rw [configuration_of_lost located] at done
      cases done
    | ok file =>
      have chosen := Config.locate_eq_ok.mp located
      cases file with
      | none =>
        rw [configuration_of_none chosen] at done
        exact .inl ⟨chosen, (Except.ok.inj done).symm⟩
      | some path =>
        rw [configuration_of_some chosen] at done
        exact .inr ⟨path, chosen, done⟩
  · rintro (⟨absent, rfl⟩ | ⟨path, chosen, loaded⟩)
    · exact configuration_of_none absent
    · rw [configuration_of_some chosen, loaded]

theorem configuration_eq_error {fault : Fault} :
    ((configuration explicit).run disk).result = .error fault ↔
      (∃ path, explicit = some path ∧ disk.isFile path = false ∧
        fault = .config (.fileNotFound path) (some path)) ∨
      ∃ path, ChosenFile disk explicit (some path) ∧
        ((Config.load path).run disk).result = .error fault := by
  constructor
  · intro failed
    cases located : ((Config.locate explicit disk.workingPath).run disk).result with
    | error other =>
      rw [configuration_of_lost located] at failed
      have same := Except.error.inj failed
      subst same
      exact .inl (Config.locate_eq_error.mp located)
    | ok file =>
      have chosen := Config.locate_eq_ok.mp located
      cases file with
      | none =>
        rw [configuration_of_none chosen] at failed
        cases failed
      | some path =>
        rw [configuration_of_some chosen] at failed
        exact .inr ⟨path, chosen, failed⟩
  · rintro (lost | ⟨path, chosen, broken⟩)
    · exact configuration_of_lost (Config.locate_eq_error.mpr lost)
    · rw [configuration_of_some chosen, broken]

/-- The warnings of a run that is asked to use a configuration file: one for each key without a
meaning that the chosen file holds. -/
inductive Warned (disk : Disk) (explicit : Option Text) : (warnings : List Text) → Prop where
  | nothing : (∀ path, ¬ ChosenFile disk explicit (some path)) → Warned disk explicit []
  | keys {path : Text} : ChosenFile disk explicit (some path) →
      Warned disk explicit
        ((Config.unknownKeysAt disk path).map (Notice.unknownKeyWarning path))

theorem configuration_warnings (disk : Disk) (explicit : Option Text) :
    Warned disk explicit ((configuration explicit).run disk).warnings := by
  have quiet := Config.locate_warnings disk explicit disk.workingPath
  have answered : disk.answer .workingDirectory = disk.workingPath := rfl
  unfold configuration
  rw [Plan.warnings_request_bind, answered]
  cases located : ((Config.locate explicit disk.workingPath).run disk).result with
  | error fault =>
    rw [Plan.warnings_bind_error located, quiet]
    refine .nothing fun path chosen => ?_
    rw [Config.locate_eq_ok.mpr chosen] at located
    cases located
  | ok file =>
    rw [Plan.warnings_bind_ok located, quiet, List.nil_append]
    cases file with
    | none =>
      refine .nothing fun path chosen => ?_
      rw [Config.locate_eq_ok.mpr chosen] at located
      cases located
    | some path =>
      dsimp only
      rw [Plan.warnings_bind_ok (Plan.result_note _), Config.load_warnings]
      exact .keys (Config.locate_eq_ok.mp located)

/-! ### The changed files -/

/-- The text of the list of changed files at a path; `-` stands for standard input. -/
def changedText (disk : Disk) (path : Text) : Except ReadProblem Text :=
  if Path.same path ChangedFiles.inputPath then
    match Text.ofUtf8? disk.input with
    | some text => .ok text
    | none => .error .invalidUtf8
  else disk.textAt path

theorem readChangedFiles_result (disk : Disk) (path : Text) :
    ((readChangedFiles path).run disk).result =
      ((changedText disk path).map ChangedFiles.parse).mapError (.io path) := by
  unfold readChangedFiles changedText
  split
  · dsimp only
    rw [Plan.result_request_bind]
    have answered : disk.answer .input = disk.input := rfl
    rw [answered]
    cases Text.ofUtf8? disk.input <;> rfl
  · cases text : disk.textAt path with
    | error problem =>
      rw [Plan.result_bind_error (Plan.readText_of_unreadable text)]
      rfl
    | ok content =>
      rw [Plan.result_bind_ok (Plan.readText_of_readable text)]
      rfl

theorem readChangedFiles_eq_ok {path : Text} {files : List Text} :
    ((readChangedFiles path).run disk).result = .ok files ↔
      ∃ text, changedText disk path = .ok text ∧ files = ChangedFiles.parse text := by
  rw [readChangedFiles_result]
  cases changedText disk path with
  | error problem => simp [Except.map, mapError_error]
  | ok text => simp [Except.map, mapError_ok, eq_comm]

theorem readChangedFiles_eq_error {path : Text} {fault : Fault} :
    ((readChangedFiles path).run disk).result = .error fault ↔
      ∃ problem, changedText disk path = .error problem ∧ fault = .io path problem := by
  rw [readChangedFiles_result]
  cases changedText disk path with
  | error problem => simp [Except.map, mapError_error, eq_comm]
  | ok text => simp [Except.map, mapError_ok]

/-! ### The rules -/

theorem matchRules_result {files : List Text} (some_changed : files ≠ [])
    (location : RulesLocation) :
    ((matchRules files location).run disk).result =
      selectFrom disk files (rulePaths disk location) :=
  matchRulesIn_result some_changed (List.flatMap_singleton' _)

/-- Without changed files nothing is selected, and no document is looked at. -/
theorem isSelection_nil (disk : Disk) (location : RulesLocation) :
    IsSelection disk location [] [] := by
  refine ⟨[], .nil, fun name => ?_, .nil⟩
  simp only [List.not_mem_nil, false_iff, not_and]
  rintro _ ⟨content, _, glob, _, matcher, _, file, member, _⟩
  cases member

theorem matchRules_eq_ok {files : List Text} {location : RulesLocation}
    {rules : List MatchedRule}
    (matched : ((matchRules files location).run disk).result = .ok rules) :
    IsSelection disk location files rules := by
  by_cases nothing : files = []
  · subst files
    rw [matchRules, matchRulesIn_nil] at matched
    have same := Except.ok.inj matched
    subst rules
    exact isSelection_nil disk location
  · rw [matchRules_result nothing] at matched
    exact isSelection_of_selectFrom matched

/-! ### The whole program -/

variable {given : Arguments}

theorem program_eq_ok {text : Text} :
    ((program given).run disk).result = .ok text ↔
      ∃ config location files rules,
        ((configuration given.config).run disk).result = .ok config ∧
        config.rules.override given.rulesDir given.extension = .ok location ∧
        ((readChangedFiles given.changedFiles).run disk).result = .ok files ∧
        ((matchRules files location).run disk).result = .ok rules ∧
        text = report given.output rules := by
  unfold program
  simp only [Plan.result_bind_eq_ok, Plan.result_note_bind, Plan.result_ofExcept, Plan.run_pure,
    Except.ok.injEq, eq_comm (a := text)]
  constructor
  · rintro ⟨config, configured, location, located, files, read, rules, matched, same⟩
    exact ⟨config, location, files, rules, configured, located, read, matched, same⟩
  · rintro ⟨config, location, files, rules, configured, located, read, matched, same⟩
    exact ⟨config, configured, location, located, files, read, rules, matched, same⟩

theorem program_eq_error {fault : Fault} :
    ((program given).run disk).result = .error fault ↔
      ((configuration given.config).run disk).result = .error fault ∨
      ∃ config, ((configuration given.config).run disk).result = .ok config ∧
        (config.rules.override given.rulesDir given.extension = .error fault ∨
        ∃ location, config.rules.override given.rulesDir given.extension = .ok location ∧
          (((readChangedFiles given.changedFiles).run disk).result = .error fault ∨
          ∃ files, ((readChangedFiles given.changedFiles).run disk).result = .ok files ∧
            ((matchRules files location).run disk).result = .error fault)) := by
  unfold program
  simp [Plan.result_bind_eq_error]

/-! ### Warnings -/

theorem noteRejected_warnings (errors : List Glob.CompileError) :
    ((noteRejected errors).run disk).warnings = [] := by
  induction errors with
  | nil => rfl
  | cons error errors ih =>
    unfold noteRejected
    exact Plan.warnings_bind_eq_nil (Plan.warnings_note _) fun _ => ih

theorem matchDocument_warnings (disk : Disk) (files : List Text) (cache : Glob.Cache)
    (path : Text) : ((matchDocument files cache path).run disk).warnings = [] := by
  unfold matchDocument load
  have loaded : ((Plan.readText path >>= fun content => pure (Document.mk path content)).run
      disk).warnings = [] :=
    Plan.warnings_bind_eq_nil (Plan.warnings_readText path) fun _ => rfl
  refine Plan.warnings_bind_eq_nil loaded fun document => ?_
  split
  · exact Plan.warnings_bind_eq_nil (Plan.warnings_note _) fun _ => rfl
  · refine Plan.warnings_bind_eq_nil (noteRejected_warnings _) fun _ => ?_
    split
    · rfl
    · exact Plan.warnings_bind_eq_nil (Plan.warnings_note _) fun _ => rfl

theorem matchPiece_warnings (disk : Disk) (files : List Text) (cache : Glob.Cache)
    (paths : List Text) : ((matchPiece files cache paths).run disk).warnings = [] := by
  induction paths generalizing cache with
  | nil => rfl
  | cons path paths ih =>
    unfold matchPiece
    refine Plan.warnings_bind_eq_nil (matchDocument_warnings disk files cache path) fun found => ?_
    exact Plan.warnings_bind_eq_nil (ih found.2) fun _ => rfl

theorem matchPieces_warnings (disk : Disk) (files : List Text) (pieces : List (List Text)) :
    ((matchPieces files pieces).run disk).warnings = [] := by
  induction pieces with
  | nil => rfl
  | cons piece pieces ih =>
    unfold matchPieces
    refine Plan.warnings_bind_eq_nil (matchPiece_warnings disk files .empty piece) fun rules => ?_
    exact Plan.warnings_bind_eq_nil ih fun _ => rfl

theorem matchRules_warnings (disk : Disk) (files : List Text) (location : RulesLocation) :
    ((matchRules files location).run disk).warnings = [] := by
  unfold matchRules matchRulesIn
  split
  · rfl
  · refine Plan.warnings_bind_eq_nil (discover_warnings _ _ _) fun paths => ?_
    exact matchPieces_warnings disk files _

theorem readChangedFiles_warnings (disk : Disk) (path : Text) :
    ((readChangedFiles path).run disk).warnings = [] := by
  have noted (content : Text) : ((do
      let files := ChangedFiles.parse content
      Plan.note (.changedFilesRead files.length path)
      pure files : Plan (List Text)).run disk).warnings = [] :=
    Plan.warnings_bind_eq_nil (Plan.warnings_note _) fun _ => rfl
  unfold readChangedFiles
  split
  · refine Plan.warnings_bind_eq_nil (Plan.warnings_request _) fun answer => ?_
    split
    · exact noted _
    · rfl
  · exact Plan.warnings_bind_eq_nil (Plan.warnings_readText path) noted

/-- Only the configuration gives rise to warnings. -/
theorem program_warnings (disk : Disk) (given : Arguments) :
    Warned disk given.config ((program given).run disk).warnings := by
  have warned := configuration_warnings disk given.config
  unfold program
  rw [Plan.warnings_bind_of_nil]
  · exact warned
  · intro config
    refine Plan.warnings_bind_eq_nil (Plan.warnings_note _) fun _ => ?_
    refine Plan.warnings_bind_eq_nil (Plan.warnings_ofExcept _) fun location => ?_
    refine Plan.warnings_bind_eq_nil (readChangedFiles_warnings disk _) fun files => ?_
    refine Plan.warnings_bind_eq_nil (matchRules_warnings disk files location) fun rules => ?_
    exact Plan.warnings_bind_eq_nil (Plan.warnings_note _) fun _ => rfl

end Session
end PathRules
