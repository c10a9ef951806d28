import PathRules.Proofs.Arguments.ConfigOption
import PathRules.Proofs.Config.Reading
import PathRules.Proofs.Session.Stages

/-!
# What a run takes from its configuration

Of its configuration a run takes the directory, unless an option gives one, and the extension,
unless an option gives one. `configs_run_alike` compares runs that are asked to use two files: if
these agree on what is taken, they print the same and end with the same code.
-/

namespace PathRules

theorem RulesLocation.override_congr {location other : RulesLocation}
    {dir extension : Option Text} (sameDir : dir = none → location.dir = other.dir)
    (sameExtension : extension = none → location.extension = other.extension) :
    location.override dir extension = other.override dir extension := by
  have moved : dir.getD location.dir = dir.getD other.dir := by
    cases dir with
    | some dir => rfl
    | none => exact sameDir rfl
  unfold override
  rw [moved]
  cases extension with
  | some extension => rfl
  | none => rw [sameExtension rfl]

namespace Session

variable {disk : Disk} {a b : Text} {first second : Config}

/-- A file that can be loaded is there to be found, at a path that is not empty. -/
theorem isFile_of_load (loaded : ((Config.load a).run disk).result = .ok first) :
    disk.isFile a = true ∧ a ≠ [] := by
  obtain ⟨content, text, _⟩ := Config.load_eq_ok.mp loaded
  unfold Disk.textAt Disk.read at text
  cases found : disk.find a with
  | error problem => simp [found] at text
  | ok node =>
    cases node with
    | directory entries => simp [found] at text
    | file bytes =>
      refine ⟨by simp [Disk.isFile, found, Node.isFile], ?_⟩
      rintro rfl
      simp [Disk.find] at found

/-- The configurations agree on what no option gives. -/
def Agree (given : Arguments) (first second : Config) : Prop :=
  (given.rulesDir = none → first.rules.dir = second.rules.dir) ∧
    (given.extension = none → first.rules.extension = second.rules.extension)

theorem configuration_of_load {given : Arguments} (asked : given.config = some a)
    (loaded : ((Config.load a).run disk).result = .ok first) :
    ((configuration given.config).run disk).result = .ok first := by
  obtain ⟨isFile, _⟩ := isFile_of_load loaded
  rw [asked, configuration_of_some (.asked isFile), loaded]

theorem program_withConfig {given : Arguments} (asked : given.config = some a)
    (loaded : ((Config.load a).run disk).result = .ok first)
    (other : ((Config.load b).run disk).result = .ok second)
    (agree : Agree given first second) :
    ((program (given.withConfig b)).run disk).result = ((program given).run disk).result := by
  have configured := configuration_of_load asked loaded
  have reconfigured : ((configuration (given.withConfig b).config).run disk).result = .ok second :=
    configuration_of_load rfl other
  have overridden : first.rules.override given.rulesDir given.extension =
      second.rules.override given.rulesDir given.extension :=
    RulesLocation.override_congr agree.1 agree.2
  unfold program
  rw [Plan.result_bind_ok configured, Plan.result_bind_ok reconfigured, Plan.result_note_bind,
    Plan.result_note_bind, overridden]
  rfl

theorem ending_of_parse {arguments : List Text} {environment : Option Text} {given : Arguments}
    (parsed : Arguments.parse arguments environment = .ok given) :
    (run disk arguments environment).ending = match ((program given).run disk).result with
      | .ok report => .reported report
      | .error fault => .failed fault := by
  unfold run
  rw [parsed]
  dsimp only
  cases ((program given).run disk).result <;> rfl

theorem ending_of_stop {arguments : List Text} {environment : Option Text} {stop : Arguments.Stop}
    (stopped : Arguments.parse arguments environment = .error stop) :
    (run disk arguments environment).ending = .stopped stop := by
  unfold run
  rw [stopped]

/-- Two runs that are asked to use one and another file print the same and end with the same code,
if the files agree on what the options leave open. The files are asked for where options are read,
that is, not after `--`. -/
theorem configs_run_alike {before after : List Text} {environment : Option Text}
    (options : Arguments.optionsEnd ∉ before)
    (loaded : ((Config.load a).run disk).result = .ok first)
    (other : ((Config.load b).run disk).result = .ok second)
    (agree : ∀ given, Arguments.parse (before ++ Arguments.configOption a :: after) environment =
      .ok given → Agree given first second) :
    let outcome (path : Text) :=
      run disk (before ++ Arguments.configOption path :: after) environment
    (outcome a).stdout = (outcome b).stdout ∧ (outcome a).exitCode = (outcome b).exitCode := by
  intro outcome
  have ending : (outcome b).ending = (outcome a).ending := by
    obtain ⟨_, some_a⟩ := isFile_of_load loaded
    obtain ⟨_, some_b⟩ := isFile_of_load other
    obtain ⟨alike, asks⟩ :=
      Arguments.parse_configOption options some_a some_b after environment
    cases parsed : Arguments.parse (before ++ Arguments.configOption a :: after) environment with
    | error stop =>
      rw [parsed] at alike
      exact (ending_of_stop alike).trans (ending_of_stop parsed).symm
    | ok given =>
      have same := program_withConfig (asks given parsed) loaded other (agree given parsed)
      rw [parsed] at alike
      rw [ending_of_parse alike, ending_of_parse parsed, same]
  constructor
  · unfold Outcome.stdout
    rw [ending]
  · unfold Outcome.exitCode
    rw [ending]

/-! ### Two configurations -/

def plainConfig : Text := "# Nothing but the version.\r\n\tversion=0x1".toList

def otherConfig : Text :=
  "rules.dir = 'elsewhere'\nrules.extension = '..md' # dots\nversion = 1\nx = 2\n".toList

def otherRules : Toml.Table :=
  [("dir".toList, .string "elsewhere".toList), ("extension".toList, .string "..md".toList)]

def otherTable : Toml.Table :=
  [("rules".toList, .table otherRules), ("version".toList, .integer 1), ("x".toList, .integer 2)]

theorem parse_otherConfig : Toml.parse otherConfig = some otherTable := by decide +kernel

theorem settle_otherTable : Config.settle otherTable = some otherTable := by
  have rules := Config.settles_rules otherRules (by decide +kernel) rfl (by decide +kernel)
  refine Config.settle_of_sorted ?_ (by decide +kernel)
  rw [otherTable, ← Text.of_eq "rules"]
  exact .cons rules (.cons ⟨rfl, rfl⟩ (.cons ⟨rfl, rfl⟩ .nil))

theorem read_otherConfig :
    (Config.read otherConfig).result = .ok ⟨1, "elsewhere".toList, "md".toList⟩ := by
  have version : Config.readVersion otherTable = .ok 1 := by decide +kernel
  unfold Config.read
  rw [parse_otherConfig]
  dsimp only
  rw [version]
  dsimp only
  rw [settle_otherTable]
  decide +kernel

/-- A directory with a rule document and two configurations, which differ in where they look for
it. -/
def configsDisk : Disk where
  root := .directory [
    ("plain.toml".toList, .file (String.ofList plainConfig).toUTF8),
    ("other.toml".toList, .file (String.ofList otherConfig).toUTF8),
    ("docs".toList, .directory [
      ("a.md".toList, .file "---\npaths:\n- '*.rs'\n---\nFirst.".toUTF8)])]
  workingDirectory := []
  input := "main.rs\n".toUTF8

theorem configs_run_alike_beside_directory :
    let outcome (path : Text) := run configsDisk
      (["-".toList] ++ Arguments.configOption path :: ["--rules-dir=docs".toList]) none
    ((outcome "plain.toml".toList).stdout = (outcome "other.toml".toList).stdout ∧
      (outcome "plain.toml".toList).exitCode = (outcome "other.toml".toList).exitCode) ∧
    (outcome "plain.toml".toList).exitCode = 0 := by
  intro outcome
  have plain : ((Config.load "plain.toml".toList).run configsDisk).result =
      .ok ⟨1, ".claude/rules".toList, "md".toList⟩ := by decide +kernel
  have other : ((Config.load "other.toml".toList).run configsDisk).result =
      .ok ⟨1, "elsewhere".toList, "md".toList⟩ := by
    have text : configsDisk.textAt "other.toml".toList = .ok otherConfig := by decide +kernel
    exact Config.load_eq_ok.mpr ⟨otherConfig, text, read_otherConfig⟩
  refine ⟨configs_run_alike (by decide) plain other ?_, by decide +kernel⟩
  intro given parsed
  have whole : Arguments.parse (["-".toList] ++ Arguments.configOption "plain.toml".toList ::
      ["--rules-dir=docs".toList]) none =
        .ok ⟨['-'], some "plain.toml".toList, some "docs".toList, none, .text⟩ := by
    with_unfolding_all rfl
  obtain rfl := Except.ok.inj (whole.symm.trans parsed)
  exact ⟨nofun, fun _ => rfl⟩

end Session
end PathRules
