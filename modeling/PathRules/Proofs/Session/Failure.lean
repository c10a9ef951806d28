import PathRules.Proofs.Session.Stages

/-!
# How a run fails

A run goes through stages, and the first one that fails decides how it ends, whatever would come
after (`run_of_first`). `outcome_by_first_failure` says what that leaves: the code, and what
stands on the two streams.
-/

namespace PathRules.Session

open Config (ChosenFile)
open Selection

variable {disk : Disk} {given : Arguments} {arguments : List Text} {environment : Option Text}

/-! ### Stages and their failures -/

/-- The stages of a run, in their order. -/
inductive Stage where
  | arguments | lookup | configuration | overrides | changedFiles | matching
  deriving DecidableEq, Repr

namespace Stage

def place : Stage → Nat
  | .arguments => 0
  | .lookup => 1
  | .configuration => 2
  | .overrides => 3
  | .changedFiles => 4
  | .matching => 5

end Stage

/-- The place of the rule documents that the stages before the matching settle. -/
def Located (disk : Disk) (given : Arguments) (location : RulesLocation) : Prop :=
  ∃ config, ((configuration given.config).run disk).result = .ok config ∧
    config.rules.override given.rulesDir given.extension = .ok location

/-- A stage after the reading of the arguments fails with a fault. -/
inductive Breaks (disk : Disk) (given : Arguments) : Stage → Fault → Prop where
  /-- The configuration file that is asked for is not there. -/
  | lost {path : Text} : given.config = some path → disk.isFile path = false →
      Breaks disk given .lookup (.config (.fileNotFound path) (some path))
  | unreadable {path : Text} {problem : ReadProblem} :
      ChosenFile disk given.config (some path) → disk.textAt path = .error problem →
      Breaks disk given .configuration (.io path problem)
  | wrong {path content : Text} {problem : ConfigProblem} :
      ChosenFile disk given.config (some path) → disk.textAt path = .ok content →
      (Config.read content).result = .error problem →
      Breaks disk given .configuration (.config problem (some path))
  /-- The extension that is asked for consists of dots. -/
  | dots {extension : Text} : given.extension = some extension →
      RulesLocation.stripDots extension = [] →
      Breaks disk given .overrides (.argument (.namesNoExtension extension))
  | unlisted {problem : ReadProblem} : changedText disk given.changedFiles = .error problem →
      Breaks disk given .changedFiles (.io given.changedFiles problem)
  /-- There are changed files, and a rule document cannot be read. -/
  | undecodable {location : RulesLocation} {text name : Text} {problem : ReadProblem} :
      Located disk given location → changedText disk given.changedFiles = .ok text →
      ChangedFiles.parse text ≠ [] → IsRuleFile disk location name →
      disk.textAt (Path.join location.dir name) = .error problem →
      Breaks disk given .matching (.io (Path.join location.dir name) problem)

/-- What a stage fails with. -/
inductive Failure where
  | usage (error : Arguments.UsageError)
  | fault (fault : Fault)
  deriving DecidableEq, Repr

/-- A stage of a run fails. -/
inductive Fails (disk : Disk) (arguments : List Text) (environment : Option Text) :
    Stage → Failure → Prop where
  | usage {error : Arguments.UsageError} :
      Arguments.parse arguments environment = .error (.usage error) →
      Fails disk arguments environment .arguments (.usage error)
  | fault {given : Arguments} {stage : Stage} {fault : Fault} :
      Arguments.parse arguments environment = .ok given → Breaks disk given stage fault →
      Fails disk arguments environment stage (.fault fault)

/-- A stage fails, and none before it does. -/
def FailsFirst (disk : Disk) (arguments : List Text) (environment : Option Text) (stage : Stage)
    (failure : Failure) : Prop :=
  Fails disk arguments environment stage failure ∧
    ∀ earlier other, Fails disk arguments environment earlier other →
      stage.place ≤ earlier.place

/-! ### What a stage does unless it fails -/

theorem configuration_breaks {fault : Fault} :
    ((configuration given.config).run disk).result = .error fault ↔
      Breaks disk given .lookup fault ∨ Breaks disk given .configuration fault := by
  rw [configuration_eq_error]
  constructor
  · rintro (⟨path, asked, absent, rfl⟩ | ⟨path, chosen, failed⟩)
    · exact .inl (.lost asked absent)
    · rcases Config.load_eq_error.mp failed with
        ⟨problem, unread, rfl⟩ | ⟨content, problem, text, refused, rfl⟩
      · exact .inr (.unreadable chosen unread)
      · exact .inr (.wrong chosen text refused)
  · rintro (broken | broken)
    · cases broken with
      | lost asked absent => exact .inl ⟨_, asked, absent, rfl⟩
    · cases broken with
      | unreadable chosen unread =>
        exact .inr ⟨_, chosen, Config.load_eq_error.mpr (.inl ⟨_, unread, rfl⟩)⟩
      | wrong chosen text refused =>
        exact .inr ⟨_, chosen, Config.load_eq_error.mpr (.inr ⟨_, _, text, refused, rfl⟩)⟩

theorem overrides_breaks (rules : RulesLocation) {fault : Fault} :
    rules.override given.rulesDir given.extension = .error fault ↔
      Breaks disk given .overrides fault := by
  rw [RulesLocation.override_eq_error]
  constructor
  · rintro ⟨extension, asked, dots, rfl⟩
    exact .dots asked dots
  · intro broken
    cases broken with
    | dots asked dots => exact ⟨_, asked, dots, rfl⟩

theorem changedFiles_breaks {fault : Fault} :
    ((readChangedFiles given.changedFiles).run disk).result = .error fault ↔
      Breaks disk given .changedFiles fault := by
  rw [readChangedFiles_eq_error]
  constructor
  · rintro ⟨problem, unread, rfl⟩
    exact .unlisted unread
  · intro broken
    cases broken with
    | unlisted unread => exact ⟨_, unread, rfl⟩

theorem Located.unique {location other : RulesLocation} (located : Located disk given location)
    (moved : Located disk given other) : location = other := by
  obtain ⟨config, configured, overridden⟩ := located
  obtain ⟨another, again, replaced⟩ := moved
  have same := Except.ok.inj (configured.symm.trans again)
  subst another
  exact Except.ok.inj (overridden.symm.trans replaced)

theorem matching_breaks {location : RulesLocation} {text : Text} {fault : Fault}
    (one : AtMostOneUndecodable disk location) (located : Located disk given location)
    (changed : changedText disk given.changedFiles = .ok text) :
    ((matchRules (ChangedFiles.parse text) location).run disk).result = .error fault ↔
      Breaks disk given .matching fault := by
  constructor
  · intro failed
    by_cases nothing : ChangedFiles.parse text = []
    · rw [nothing, matchRules, matchRulesIn_nil] at failed
      cases failed
    · rw [matchRules_result nothing] at failed
      obtain ⟨path, member, broken⟩ := selectFrom_eq_error failed
      obtain ⟨name, isFile, rfl⟩ := mem_rulePaths.mp member
      obtain ⟨problem, unread, rfl⟩ := ruleAt_eq_error.mp broken
      exact .undecodable located changed nothing isFile unread
  · intro broken
    cases broken with
    | undecodable settled listed some_changed isFile unread =>
      have sameText := Except.ok.inj (changed.symm.trans listed)
      have samePlace := located.unique settled
      subst sameText samePlace
      rw [matchRules_result some_changed]
      exact selectFrom_of_unreadable one isFile unread

/-! ### The first failure -/

theorem program_of_first {stage : Stage} {fault : Fault}
    (one : ∀ location, Located disk given location → AtMostOneUndecodable disk location)
    (broken : Breaks disk given stage fault)
    (first : ∀ earlier other, Breaks disk given earlier other → stage.place ≤ earlier.place) :
    ((program given).run disk).result = .error fault := by
  have passed (earlier : Stage) (before : earlier.place < stage.place) (other : Fault) :
      ¬ Breaks disk given earlier other := fun broke =>
    absurd (first earlier other broke) (Nat.not_le.mpr before)
  -- A stage is reached if those before it pass, and what it fails with is then the end.
  have configured (before : Stage.configuration.place < stage.place) :
      ∃ config, ((configuration given.config).run disk).result = .ok config :=
    exists_ok_of_no_error fun other failed => (configuration_breaks.mp failed).elim
      (passed .lookup (Nat.lt_trans (by decide) before) other) (passed .configuration before other)
  have overridden (before : Stage.overrides.place < stage.place) (config : Config) :
      ∃ location, config.rules.override given.rulesDir given.extension = .ok location :=
    exists_ok_of_no_error fun other failed =>
      passed .overrides before other ((overrides_breaks config.rules).mp failed)
  rw [program_eq_error]
  cases stage with
  | arguments => cases broken
  | lookup => exact .inl (configuration_breaks.mpr (.inl broken))
  | configuration => exact .inl (configuration_breaks.mpr (.inr broken))
  | overrides =>
    obtain ⟨config, done⟩ := configured (by decide)
    exact .inr ⟨config, done, .inl ((overrides_breaks config.rules).mpr broken)⟩
  | changedFiles =>
    obtain ⟨config, done⟩ := configured (by decide)
    obtain ⟨location, moved⟩ := overridden (by decide) config
    exact .inr ⟨config, done, .inr ⟨location, moved, .inl (changedFiles_breaks.mpr broken)⟩⟩
  | matching =>
    obtain ⟨config, done⟩ := configured (by decide)
    obtain ⟨location, moved⟩ := overridden (by decide) config
    obtain ⟨files, read⟩ := exists_ok_of_no_error fun other failed =>
      passed .changedFiles (by decide) other (changedFiles_breaks.mp failed)
    obtain ⟨text, changed, rfl⟩ := readChangedFiles_eq_ok.mp read
    have located : Located disk given location := ⟨config, done, moved⟩
    have failed := (matching_breaks (one location located) located changed).mpr broken
    exact .inr ⟨config, done, .inr ⟨location, moved, .inr ⟨_, read, failed⟩⟩⟩

theorem program_of_no_failure
    (one : ∀ location, Located disk given location → AtMostOneUndecodable disk location)
    (unbroken : ∀ stage fault, ¬ Breaks disk given stage fault) :
    ∃ report, ((program given).run disk).result = .ok report := by
  refine exists_ok_of_no_error fun fault failed => ?_
  rcases program_eq_error.mp failed with failed | ⟨config, done, failed | ⟨location, moved, rest⟩⟩
  · exact (configuration_breaks.mp failed).elim (unbroken _ _) (unbroken _ _)
  · exact unbroken _ _ ((overrides_breaks config.rules).mp failed)
  · rcases rest with failed | ⟨files, read, failed⟩
    · exact unbroken _ _ (changedFiles_breaks.mp failed)
    · obtain ⟨text, changed, rfl⟩ := readChangedFiles_eq_ok.mp read
      have located : Located disk given location := ⟨config, done, moved⟩
      exact unbroken _ _ ((matching_breaks (one location located) located changed).mp failed)

theorem exists_first {stage : Stage} {failure : Failure}
    (fails : Fails disk arguments environment stage failure) :
    ∃ stage failure, FailsFirst disk arguments environment stage failure := by
  induction place : stage.place using Nat.strong_induction_on generalizing stage failure with
  | _ bound ih =>
    by_cases sooner : ∃ earlier other, Fails disk arguments environment earlier other ∧
        earlier.place < bound
    · obtain ⟨earlier, other, failed, before⟩ := sooner
      exact ih _ before failed rfl
    · refine ⟨stage, failure, fails, fun earlier other failed => ?_⟩
      rw [place]
      exact Nat.not_lt.mp fun before => sooner ⟨earlier, other, failed, before⟩

theorem run_of_fault {fault : Fault}
    (parsed : Arguments.parse arguments environment = .ok given)
    (ended : ((program given).run disk).result = .error fault) :
    run disk arguments environment = ⟨((program given).run disk).notices, .failed fault⟩ := by
  unfold run
  rw [parsed]
  dsimp only
  rw [ended]

/-- Where a run looks for rule documents, at most one of them is not UTF-8. -/
def AtMostOneUnreadable (disk : Disk) (arguments : List Text) (environment : Option Text) : Prop :=
  ∀ given location, Arguments.parse arguments environment = .ok given →
    Located disk given location → AtMostOneUndecodable disk location

/-- How a run ends that fails. -/
def Failure.ending : Failure → Ending
  | .usage error => .stopped (.usage error)
  | .fault cause => .failed cause

theorem exitCode_of_no_failure (one : AtMostOneUnreadable disk arguments environment)
    (sound : ∀ stage failure, ¬ Fails disk arguments environment stage failure) :
    (run disk arguments environment).exitCode = 0 := by
  unfold run
  cases parsed : Arguments.parse arguments environment with
  | error stop =>
    cases stop with
    | help => rfl
    | version => rfl
    | usage error => exact absurd (.usage parsed) (sound _ _)
  | ok given =>
    obtain ⟨text, ended⟩ := program_of_no_failure (fun location => one given location parsed)
      fun stage fault broken => sound _ _ (.fault parsed broken)
    dsimp only
    rw [ended]
    rfl

/-! ### What a failure leaves -/

/-- The failure is one of usage, of the configuration or of an argument. -/
def Failure.InRequest : Failure → Prop
  | .usage _ => True
  | .fault (.config ..) => True
  | .fault (.argument _) => True
  | .fault (.io ..) => False

/-- The failure is one of reading a file. -/
def Failure.InReading : Failure → Prop
  | .fault (.io ..) => True
  | _ => False

/-- What a run that fails leaves on its error stream, the log apart: how the program is called, or
the warnings so far and one line that tells of the fault. -/
inductive Reported (disk : Disk) (arguments : List Text) (environment : Option Text) :
    Failure → Text → Prop where
  | usage {error : Arguments.UsageError} :
      Reported disk arguments environment (.usage error) Session.usage
  | fault {given : Arguments} {warnings : List Text} {fault : Fault} :
      Arguments.parse arguments environment = .ok given → Warned disk given.config warnings →
      Reported disk arguments environment (.fault fault)
        (warnings.flatMap (· ++ ['\n']) ++ (Text.of "rulematch: " ++ fault.message ++ ['\n']))

theorem run_of_first {stage : Stage} {failure : Failure}
    (one : AtMostOneUnreadable disk arguments environment)
    (first : FailsFirst disk arguments environment stage failure) :
    (run disk arguments environment).ending = failure.ending ∧
      Reported disk arguments environment failure (run disk arguments environment).stderr := by
  obtain ⟨fails, earliest⟩ := first
  cases fails with
  | usage parsed =>
    unfold run
    rw [parsed]
    exact ⟨rfl, .usage⟩
  | fault parsed broken =>
    have ended := program_of_first (fun location => one _ location parsed) broken
      fun earlier other broke => earliest _ _ (.fault parsed broke)
    rw [run_of_fault parsed ended]
    exact ⟨rfl, .fault parsed (program_warnings disk _)⟩

theorem flatMap_pieces (directives : List Log.Directive) (notice : Notice) :
    (Log.pieces directives notice).flatMap Log.Piece.saying =
      notice.warning?.toList.flatMap (· ++ ['\n']) := by
  unfold Log.pieces
  split <;> cases notice.warning? <;> simp [Log.Piece.saying]

/-- Without the log, the error stream is the same under every setting of it. -/
theorem saying_errorStream (outcome : Outcome) (setting : Text) :
    (outcome.errorStream setting).flatMap Log.Piece.saying = outcome.stderr := by
  unfold Outcome.errorStream Outcome.stderr
  rw [List.flatMap_append]
  congr 1
  · induction outcome.notices with
    | nil => rfl
    | cons notice notices ih =>
      rw [List.flatMap_cons, List.flatMap_append, ih, flatMap_pieces, List.filterMap_cons]
      cases notice.warning? <;> simp
  · simp [Log.Piece.saying]

theorem outcome_of_ending {outcome : Outcome} {failure : Failure}
    (ending : outcome.ending = failure.ending) :
    outcome.stdout = [] ∧
      (outcome.exitCode = 2 ∧ failure.InRequest ∧ ¬ failure.InReading ∨
        outcome.exitCode = 3 ∧ failure.InReading ∧ ¬ failure.InRequest) := by
  unfold Outcome.stdout Outcome.exitCode
  rw [ending]
  cases failure with
  | usage error => exact ⟨rfl, .inl ⟨rfl, trivial, id⟩⟩
  | fault fault =>
    cases fault with
    | config => exact ⟨rfl, .inl ⟨rfl, trivial, id⟩⟩
    | argument => exact ⟨rfl, .inl ⟨rfl, trivial, id⟩⟩
    | io => exact ⟨rfl, .inr ⟨rfl, trivial, id⟩⟩

theorem codes_of_first {stage : Stage} {failure : Failure}
    (one : AtMostOneUnreadable disk arguments environment)
    (first : FailsFirst disk arguments environment stage failure) :
    ((run disk arguments environment).exitCode = 2 ↔ failure.InRequest) ∧
      ((run disk arguments environment).exitCode = 3 ↔ failure.InReading) := by
  obtain ⟨_, ⟨code, inRequest, notReading⟩ | ⟨code, inReading, notRequest⟩⟩ :=
    outcome_of_ending (run_of_first one first).1
  · simp [code, inRequest, notReading]
  · simp [code, inReading, notRequest]

/-- A run succeeds if no stage fails. Otherwise it prints nothing, and the first stage that fails
decides the code and what the error stream tells, whatever else would fail. -/
theorem outcome_by_first_failure (one : AtMostOneUnreadable disk arguments environment) :
    let outcome := run disk arguments environment
    (outcome.exitCode = 0 ∨ outcome.exitCode = 2 ∨ outcome.exitCode = 3) ∧
    (outcome.exitCode = 0 ↔ ∀ stage failure, ¬ Fails disk arguments environment stage failure) ∧
    (outcome.exitCode ≠ 0 → outcome.stdout = [] ∧
      ∃ stage failure, FailsFirst disk arguments environment stage failure) ∧
    (∀ stage failure, FailsFirst disk arguments environment stage failure →
      Reported disk arguments environment failure outcome.stderr ∧
      (outcome.exitCode = 2 ↔ failure.InRequest) ∧
      (outcome.exitCode = 3 ↔ failure.InReading)) ∧
    ∀ setting, (outcome.errorStream setting).flatMap Log.Piece.saying = outcome.stderr := by
  intro outcome
  by_cases sound : ∀ stage failure, ¬ Fails disk arguments environment stage failure
  · have code : outcome.exitCode = 0 := exitCode_of_no_failure one sound
    refine ⟨.inl code, ⟨fun _ => sound, fun _ => code⟩, ?_, ?_, saying_errorStream outcome⟩
    · exact fun failed => absurd code failed
    · exact fun stage failure first => absurd first.1 (sound stage failure)
  · obtain ⟨stage, failure, fails⟩ : ∃ stage failure,
        Fails disk arguments environment stage failure := by simpa using sound
    obtain ⟨earliest, cause, first⟩ := exists_first fails
    obtain ⟨silent, codes⟩ := outcome_of_ending (run_of_first one first).1
    have failed : outcome.exitCode = 2 ∨ outcome.exitCode = 3 := codes.imp And.left And.left
    refine ⟨.inr failed, ⟨fun code => ?_, fun none => absurd none sound⟩, fun _ => ?_, ?_,
      saying_errorStream outcome⟩
    · rcases failed with failed | failed <;> rw [code] at failed <;> cases failed
    · exact ⟨silent, earliest, cause, first⟩
    · intro stage failure first
      exact ⟨(run_of_first one first).2, codes_of_first one first⟩

/-- A directory with a rule document that is not UTF-8. -/
def brokenDisk : Disk where
  root := .directory [("docs".toList, .directory [("a.md".toList, .file ⟨#[0xff]⟩)])]
  workingDirectory := []
  input := "main.rs\n".toUTF8

theorem atMostOneUndecodable_brokenDisk :
    AtMostOneUndecodable brokenDisk ⟨"docs".toList, "md".toList⟩ := by
  have listing : brokenDisk.names "docs".toList = .ok ["a.md".toList] := by rfl
  exact .of_only "a.md".toList fun name isFile _ => List.mem_singleton.mp (isFile.mem_names listing)

theorem broken_document_fails_run :
    let arguments := ["--rules-dir=docs".toList, "-".toList]
    (run brokenDisk arguments none).exitCode = 3 ∧
      ∃ stage failure, FailsFirst brokenDisk arguments none stage failure ∧
        failure.InReading := by
  intro arguments
  have code : (run brokenDisk arguments none).exitCode = 3 := by decide +kernel
  have parsed : Arguments.parse arguments none =
      .ok ⟨['-'], none, some "docs".toList, none, .text⟩ := by
    with_unfolding_all rfl
  have one : AtMostOneUnreadable brokenDisk arguments none := by
    intro given location again located
    have same := Except.ok.inj (parsed.symm.trans again)
    subst given
    have usual : Located brokenDisk ⟨['-'], none, some "docs".toList, none, .text⟩
        ⟨"docs".toList, "md".toList⟩ := ⟨{}, by with_unfolding_all rfl, by with_unfolding_all rfl⟩
    obtain rfl := located.unique usual
    exact atMostOneUndecodable_brokenDisk
  obtain ⟨_, _, failed, reported, _⟩ := outcome_by_first_failure one
  obtain ⟨_, stage, failure, first⟩ := failed (by rw [code]; decide)
  exact ⟨code, stage, failure, first, (reported stage failure first).2.2.mp code⟩

end PathRules.Session
