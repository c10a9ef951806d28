import PathRules.Proofs.Arguments.ConfigOption

/-!
# The configuration from the environment

The environment may give the configuration, and nothing else. If the arguments ask for no
configuration, it counts for an option in front of them (`parse_of_not_asksConfig`), and if they do,
it does not count (`parse_of_asksConfig`). This holds of all arguments, also of those that cannot be
read.
-/

namespace PathRules.Arguments

theorem Progress.finish_eq_ok {progress : Progress} {environment : Option Text}
    {given : Arguments} :
    progress.finish environment = .ok given ↔
      ∃ settled changedFiles, progress.settle = .ok settled ∧
        settled.changedFiles = some changedFiles ∧
        (settled.config = none → environment ≠ some []) ∧
        given = {
          changedFiles
          config := settled.config.or environment
          rulesDir := settled.rulesDir
          extension := settled.extension
          output := settled.output.getD .text } := by
  unfold Progress.finish
  cases settling : progress.settle with
  | error stop => simp [bind, Except.bind]
  | ok settled =>
    obtain ⟨changed, config, rulesDir, extension, output, pending, onlyPaths⟩ := settled
    cases config with
    | some path => cases changed <;> simp [bind, Except.bind, pure, Except.pure, eq_comm]
    | none =>
      cases environment with
      | none => cases changed <;> simp [bind, Except.bind, pure, Except.pure, eq_comm]
      | some value =>
        cases value <;> cases changed <;>
          simp [bind, Except.bind, pure, Except.pure, eq_comm, Progress.set, Progress.has]

/-- The environment gives nothing but the configuration, and only if no option does. -/
theorem parse_environment {arguments : List Text} {environment : Option Text} {given : Arguments}
    (parsed : parse arguments environment = .ok given) :
    ∃ flags, parse arguments none = .ok flags ∧
      given = { flags with config := flags.config.or environment } := by
  unfold parse at parsed ⊢
  cases progressed : arguments.foldlM Progress.add {} with
  | error stop =>
    rw [progressed] at parsed
    cases parsed
  | ok progress =>
    rw [progressed] at parsed
    obtain ⟨settled, changedFiles, settling, changed, _, rfl⟩ := Progress.finish_eq_ok.mp parsed
    refine ⟨_, Progress.finish_eq_ok.mpr ⟨settled, changedFiles, settling, changed, ?_, rfl⟩, ?_⟩
    · simp
    · simp

/-- The environment has no part in a reading that gives the configuration. -/
theorem Progress.finish_of_hasConfig {progress : Progress} (given : progress.HasConfig)
    (environment : Option Text) : progress.finish environment = progress.finish none := by
  unfold Progress.finish
  cases settling : progress.settle with
  | error stop => rfl
  | ok settled =>
    have found := (Progress.settle_eq_ok_iff.mp settling).config_iff.mpr given
    obtain ⟨changedFiles, config, rulesDir, extension, output, pending, onlyPaths⟩ := settled
    obtain ⟨path, rfl⟩ := Option.ne_none_iff_exists'.mp found
    rfl

/-- Otherwise the environment counts for a configuration that was read. -/
theorem Progress.finish_of_not_hasConfig {progress : Progress} (without : ¬ progress.HasConfig)
    {value : Text} (something : value ≠ []) :
    progress.finish (some value) = (progress.withConfig value).finish none := by
  have decided : progress.Decided [] := by simpa [Decided, Asked, AsksConfig] using .inr without
  unfold Progress.finish
  rw [Progress.settle_withConfig decided]
  cases settling : progress.settle with
  | error stop => rfl
  | ok settled =>
    have settles := Progress.settle_eq_ok_iff.mp settling
    have absent : settled.config = none :=
      Decidable.byContradiction fun found => without (settles.config_iff.mp found)
    obtain ⟨changedFiles, config, rulesDir, extension, output, pending, onlyPaths⟩ := settled
    obtain rfl : config = none := absent
    obtain ⟨c, rest, rfl⟩ := List.exists_cons_of_ne_nil something
    rfl

theorem parse_of_asksConfig {arguments : List Text} (asks : AsksConfig arguments)
    (environment : Option Text) : parse arguments environment = parse arguments none := by
  unfold parse
  cases read : arguments.foldlM Progress.add {} with
  | error stop => rfl
  | ok progress =>
    have given : progress.HasConfig := by
      rwa [Progress.foldlM_asked_iff read, Progress.asked_start]
    exact Progress.finish_of_hasConfig given environment

theorem parse_of_not_asksConfig {arguments : List Text} (asksNot : ¬ AsksConfig arguments)
    {value : Text} (something : value ≠ []) :
    parse arguments (some value) = parse (configOption value :: arguments) none := by
  have unasked : ¬ ({} : Progress).Asked arguments := by rwa [Progress.asked_start]
  have admitted : Setting.config.admits value = true := by simpa [Setting.admits] using something
  have set : ({} : Progress).set .config value = .ok (({} : Progress).withConfig value) :=
    Progress.set_eq_ok_iff.mpr ⟨rfl, admitted, rfl⟩
  have first : ({} : Progress).add (configOption value) =
      .ok (({} : Progress).withConfig value) := by
    rw [Progress.add_configOption rfl]
    exact set
  unfold parse
  rw [List.foldlM_cons, first]
  change _ = (arguments.foldlM Progress.add (({} : Progress).withConfig value) >>= _)
  rw [Progress.foldlM_withConfig (.inr unasked)]
  cases read : arguments.foldlM Progress.add {} with
  | error stop => rfl
  | ok progress =>
    have without : ¬ progress.HasConfig := by rwa [Progress.foldlM_asked_iff read]
    exact Progress.finish_of_not_hasConfig without something

end PathRules.Arguments
