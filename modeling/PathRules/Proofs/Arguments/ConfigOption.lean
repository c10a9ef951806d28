import PathRules.Proofs.Arguments.Steps

/-!
# The option that names the configuration

Whether arguments ask for a configuration can be seen of them before they are read
(`foldlM_asked_iff`). Nothing but the configuration depends on the value of `--config`:
`foldlM_withConfig` says so of the arguments around the option, and `parse_configOption` of whole
arguments.
-/

namespace PathRules.Arguments

/-- The argument that asks for the configuration at a path. -/
def configOption (path : Text) : Text := "--config=".toList ++ path

/-- The argument after which there are no more options. -/
def optionsEnd : Text := ['-', '-']

def withConfig (given : Arguments) (path : Text) : Arguments := { given with config := some path }

/-! ### Arguments that ask for a configuration -/

/-- The argument is the option for the configuration, by its name or by its letter. -/
def NamesConfig (argument : Text) : Prop :=
  argument = "--config".toList ∨ "--config=".toList <+: argument ∨ "-C".toList <+: argument

instance : DecidablePred NamesConfig := fun _ => inferInstanceAs (Decidable (_ ∨ _ ∨ _))

/-- The option for the configuration is among the arguments, where options are read. -/
def AsksConfig (arguments : List Text) : Prop :=
  ∃ argument ∈ arguments.takeWhile (· ≠ optionsEnd), NamesConfig argument

instance : DecidablePred AsksConfig := fun _ => inferInstanceAs (Decidable (∃ _ ∈ _, _))

theorem asksConfig_cons {argument : Text} {arguments : List Text} :
    AsksConfig (argument :: arguments) ↔
      argument ≠ optionsEnd ∧ (NamesConfig argument ∨ AsksConfig arguments) := by
  unfold AsksConfig
  rw [List.takeWhile_cons]
  by_cases ends : argument = optionsEnd <;> simp [ends]

theorem eq_takeWhile_or_assigned (word : Text) :
    word = word.takeWhile (· != '=') ∨
      ∃ value, word = word.takeWhile (· != '=') ++ '=' :: value := by
  have whole : word.takeWhile (· != '=') ++ word.dropWhile (· != '=') = word :=
    List.takeWhile_append_dropWhile
  have first := List.head?_dropWhile_not (· != '=') word
  cases behind : word.dropWhile (· != '=') with
  | nil =>
    rw [behind, List.append_nil] at whole
    exact .inl whole.symm
  | cons c value =>
    rw [behind] at first whole
    have same : c = '=' := by simpa using first
    rw [same] at whole
    exact .inr ⟨value, whole.symm⟩

theorem namesConfig_iff {argument : Text} :
    NamesConfig argument ↔ ∃ attached, wordOf argument = .flag (.setting .config) attached := by
  constructor
  · rintro (rfl | ⟨value, rfl⟩ | ⟨rest, rfl⟩)
    · exact ⟨_, wordOf_option .config⟩
    · exact ⟨_, wordOf_assigned .config value⟩
    · have named : Setting.config.letter? = some 'C' := rfl
      exact ⟨_, wordOf_letter named rest⟩
  · rintro ⟨attached, option⟩
    rcases named_of_wordOf option with ⟨word, rfl, name⟩ | ⟨letter, rest, rfl, named⟩
    · rcases eq_takeWhile_or_assigned word with whole | ⟨value, whole⟩
      · rw [whole, name]
        exact .inl rfl
      · rw [whole, name]
        exact .inr (.inl ⟨value, rfl⟩)
    · cases named
      exact .inr (.inr ⟨rest, rfl⟩)

theorem NamesConfig.ne_optionsEnd {argument : Text} (named : NamesConfig argument) :
    argument ≠ optionsEnd := by
  rintro rfl
  exact absurd named (by decide)

namespace Progress

variable {progress next settled : Progress} {argument path : Text}

def withConfig (progress : Progress) (path : Text) : Progress :=
  { progress with config := some path }

/-! ### Whether a configuration was asked for -/

/-- The option for the configuration was read, although its value may still be missing. -/
def HasConfig (progress : Progress) : Prop :=
  progress.config ≠ none ∨ ∃ value, progress.pending = .setting .config value

theorem Settles.config_iff (settles : progress.Settles settled) :
    settled.config ≠ none ↔ progress.HasConfig := by
  unfold HasConfig
  cases settles with
  | nothing pending => simp [pending]
  | @value setting value pending _ _ =>
    rw [put_config, pending]
    cases setting <;> simp
  | path pending _ => simp [pending]

/-- One more argument asks for a configuration just if it is the option for it. -/
theorem Step.hasConfig_iff (step : Step progress argument next) :
    next.HasConfig ↔
      progress.HasConfig ∨ progress.onlyPaths = false ∧ NamesConfig argument := by
  rw [namesConfig_iff]
  cases step with
  | ends _ word => simp [HasConfig, word]
  | value _ word pending => simp [HasConfig, word, pending]
  | path plain settles =>
    rw [← settles.config_iff]
    have unnamed : ¬ (progress.onlyPaths = false ∧
        ∃ attached, wordOf argument = .flag (.setting .config) attached) := by
      rintro ⟨options, _, word⟩
      rw [plain options] at word
      cases word
    simp [HasConfig, unnamed]
  | @option setting _ options word settles =>
    rw [← settles.config_iff]
    simp [HasConfig, options, word]
  | @attached setting value _ options word settles =>
    rw [← settles.config_iff]
    unfold HasConfig
    rw [put_config, put_pending, settles.pending]
    cases setting <;> simp [options, word]

/-- A configuration is asked for, by what was read or by what follows. -/
def Asked (progress : Progress) (arguments : List Text) : Prop :=
  progress.HasConfig ∨ progress.onlyPaths = false ∧ AsksConfig arguments

theorem asked_start (arguments : List Text) :
    ({} : Progress).Asked arguments ↔ AsksConfig arguments := by
  simp [Asked, HasConfig]

theorem Step.asked_iff (step : Step progress argument next) (arguments : List Text) :
    next.Asked arguments ↔ progress.Asked (argument :: arguments) := by
  have ends := step.onlyPaths_iff
  rw [wordOf_eq_optionsEnd_iff] at ends
  unfold Asked
  rw [step.hasConfig_iff, asksConfig_cons, ← Bool.not_eq_true next.onlyPaths, ends]
  by_cases last : argument = ['-', '-']
  · -- What follows `--` is no option, and `--` itself is not the one for the configuration.
    have unnamed : ¬ NamesConfig ['-', '-'] := by decide
    simp [last, optionsEnd, unnamed]
  · have other : argument ≠ optionsEnd := last
    simp only [last, other, or_false, Bool.not_eq_true, ne_eq, not_false_eq_true, true_and]
    rw [or_assoc, ← and_or_left]

theorem foldlM_asked_iff {arguments : List Text}
    (done : arguments.foldlM add progress = .ok next) :
    next.HasConfig ↔ progress.Asked arguments := by
  have kept : next.Asked [] ↔ progress.Asked arguments :=
    holds_of_foldlM (P := fun state rest => state.Asked rest ↔ progress.Asked arguments)
      (fun _ _ _ rest step alike => (step.asked_iff rest).trans alike) Iff.rfl done
  rw [← kept]
  simp [Asked, AsksConfig]

theorem Step.config_ne_none (step : Step progress argument next) (given : progress.config ≠ none) :
    next.config ≠ none := by
  cases step with
  | ends _ _ => exact given
  | value _ _ _ => exact given
  | path _ settles => exact settles.config_iff.mpr (.inl given)
  | option _ _ settles => exact settles.config_iff.mpr (.inl given)
  | attached _ _ settles =>
    rw [put_config]
    split
    · exact Option.some_ne_none _
    · exact settles.config_iff.mpr (.inl given)

theorem foldlM_config_ne_none {arguments : List Text} (given : progress.config ≠ none)
    (done : arguments.foldlM add progress = .ok next) : next.config ≠ none :=
  holds_of_foldlM (P := fun state _ => state.config ≠ none)
    (fun _ _ _ _ step given => step.config_ne_none given) given done

/-! ### Reading beside another configuration -/

/-- Nothing more is said of the configuration: it is given already, or not asked for. -/
def Decided (progress : Progress) (arguments : List Text) : Prop :=
  progress.config ≠ none ∨ ¬ progress.Asked arguments

variable {arguments : List Text}

theorem Step.decided (step : Step progress argument next)
    (decided : progress.Decided (argument :: arguments)) : next.Decided arguments := by
  rcases decided with given | unasked
  · exact .inl (step.config_ne_none given)
  · exact .inr (by rwa [step.asked_iff])

theorem set_withConfig (progress : Progress) {setting : Setting}
    (kept : progress.config ≠ none ∨ setting ≠ .config) (value path : Text) :
    (progress.withConfig path).set setting value =
      (progress.set setting value).map (·.withConfig path) := by
  rw [set_eq, set_eq]
  by_cases other : setting = .config
  · have given := kept.resolve_right (not_not_intro other)
    obtain ⟨config, asked⟩ := Option.ne_none_iff_exists'.mp given
    simp [other, has, asked, withConfig, Except.map]
  · have same : (progress.withConfig path).has setting = progress.has setting := by
      cases setting <;> first | exact absurd rfl other | rfl
    have put : (progress.withConfig path).put setting value =
        (progress.put setting value).withConfig path := by
      cases setting <;> first | exact absurd rfl other | rfl
    rw [same, put]
    split
    · rfl
    · split <;> rfl

theorem settle_withConfig (decided : progress.Decided arguments) (path : Text) :
    (progress.withConfig path).settle = progress.settle.map (·.withConfig path) := by
  have same : (progress.withConfig path).pending = progress.pending := rfl
  unfold settle
  rw [same]
  dsimp only
  split
  · rfl
  · rfl
  · next setting value pending =>
    refine set_withConfig { progress with pending := .nothing } ?_ value path
    refine decided.imp_right fun unasked => ?_
    rintro rfl
    exact unasked (.inl (.inr ⟨_, pending⟩))
  · split <;> rfl

theorem addPath_withConfig (decided : progress.Decided arguments) (path : Text) :
    (progress.withConfig path).addPath argument =
      (progress.addPath argument).map (·.withConfig path) := by
  have same : (progress.withConfig path).hasPath = progress.hasPath := rfl
  unfold addPath
  rw [same, settle_withConfig decided]
  split
  · rfl
  · cases progress.settle <;> rfl

theorem addFlag_withConfig (decided : progress.Decided arguments) {flag : Flag}
    (kept : progress.config ≠ none ∨ flag ≠ .setting .config) (attached : Option Text)
    (path : Text) :
    (progress.withConfig path).addFlag flag attached =
      (progress.addFlag flag attached).map (·.withConfig path) := by
  have settling := settle_withConfig decided path
  unfold addFlag
  rw [settling]
  cases done : progress.settle with
  | error stop => cases flag <;> cases attached <;> rfl
  | ok settled =>
    cases flag with
    | stop stop => cases attached <;> rfl
    | setting setting =>
      cases attached with
      | none => rfl
      | some value =>
        refine set_withConfig settled (kept.imp (fun given => ?_) fun other same => ?_) value path
        · exact (settle_eq_ok_iff.mp done).config_iff.mpr (.inl given)
        · exact other (congrArg Flag.setting same)

/-- An argument is read alike beside any configuration, unless it is the one that gives it. -/
theorem add_withConfig (decided : progress.Decided (argument :: arguments)) (path : Text) :
    (progress.withConfig path).add argument =
      (progress.add argument).map (·.withConfig path) := by
  cases reading : progress.onlyPaths with
  | true =>
    have rereading : (progress.withConfig path).onlyPaths = true := reading
    rw [add_of_onlyPaths reading, add_of_onlyPaths rereading]
    exact addPath_withConfig decided path
  | false =>
    have rereading : (progress.withConfig path).onlyPaths = false := reading
    have same : (progress.withConfig path).pending = progress.pending := rfl
    rw [add_eq_addWord reading, add_eq_addWord rereading]
    cases word : wordOf argument with
    | optionsEnd => rfl
    | unknown => rfl
    | flag flag attached =>
      refine addFlag_withConfig decided (decided.imp_right fun unasked => ?_) attached path
      rintro rfl
      have named : NamesConfig argument := namesConfig_iff.mpr ⟨attached, word⟩
      exact unasked (.inr ⟨reading, asksConfig_cons.mpr ⟨named.ne_optionsEnd, .inl named⟩⟩)
    | plain =>
      rw [addWord, addWord, same]
      split
      · rfl
      · exact addPath_withConfig decided path

theorem foldlM_withConfig (decided : progress.Decided arguments) (path : Text) :
    arguments.foldlM add (progress.withConfig path) =
      (arguments.foldlM add progress).map (·.withConfig path) := by
  induction arguments generalizing progress with
  | nil => rfl
  | cons argument arguments ih =>
    rw [List.foldlM_cons, List.foldlM_cons, add_withConfig decided]
    cases first : progress.add argument with
    | error stop => rfl
    | ok middle => exact ih ((step_of_add first).decided decided)

theorem finish_withConfig (given : progress.config ≠ none) (environment : Option Text)
    (path : Text) :
    (progress.withConfig path).finish environment =
      (progress.finish environment).map (·.withConfig path) := by
  have decided : progress.Decided [] := .inl given
  unfold finish
  rw [settle_withConfig decided]
  cases done : progress.settle with
  | error stop => rfl
  | ok settled =>
    have found := (settle_eq_ok_iff.mp done).config_iff.mpr (.inl given)
    obtain ⟨changedFiles, config, rulesDir, extension, output, pending, onlyPaths⟩ := settled
    obtain ⟨asked, rfl⟩ := Option.ne_none_iff_exists'.mp found
    cases changedFiles <;> rfl

/-! ### The option itself -/

theorem Step.onlyPaths_eq_false (step : Step progress argument next)
    (options : progress.onlyPaths = false) (other : optionsEnd ≠ argument) :
    next.onlyPaths = false := by
  have goesOn : argument ≠ ['-', '-'] := other.symm
  rw [← Bool.not_eq_true, step.onlyPaths_iff, options, wordOf_eq_optionsEnd_iff]
  simp [goesOn]

theorem foldlM_onlyPaths (options : progress.onlyPaths = false) (others : optionsEnd ∉ arguments)
    (done : arguments.foldlM add progress = .ok next) : next.onlyPaths = false := by
  refine (holds_of_foldlM (P := fun state rest => state.onlyPaths = false ∧ optionsEnd ∉ rest)
    (fun _ _ _ rest step kept => ?_) ⟨options, others⟩ done).1
  obtain ⟨options, others⟩ := kept
  obtain ⟨other, others⟩ := List.ne_and_not_mem_of_not_mem_cons others
  exact ⟨step.onlyPaths_eq_false options other, others⟩

theorem add_configOption (options : progress.onlyPaths = false) (path : Text) :
    progress.add (configOption path) =
      progress.settle >>= fun settled => settled.set .config path := by
  have long : progress.add (configOption path) = progress.addLong ("config=".toList ++ path) := by
    unfold add
    rw [options, if_neg Bool.false_ne_true]
    rfl
  have name : ("config=".toList ++ path).takeWhile (· != '=') = Text.of "config" := by
    rw [Text.of_eq]
    rfl
  have attached : ("config=".toList ++ path).dropWhile (· != '=') = '=' :: path := rfl
  have flag : Flag.ofName? (Text.of "config") = some (.setting .config) := if_pos rfl
  rw [long]
  unfold addLong
  dsimp only
  rw [name, attached, flag]
  rfl

theorem set_otherConfig (progress : Progress) {a b : Text} (some_a : a ≠ []) (some_b : b ≠ []) :
    progress.set .config b = (progress.set .config a).map (·.withConfig b) := by
  have admits {path : Text} (something : path ≠ []) : Setting.config.admits path = true := by
    simpa [Setting.admits] using something
  rw [set_eq, set_eq, admits some_a, admits some_b]
  cases progress.has .config <;> rfl

/-- From the option on, only the configuration tells one path from another. -/
theorem foldlM_otherOption (options : progress.onlyPaths = false) {a b : Text} (some_a : a ≠ [])
    (some_b : b ≠ []) (after : List Text) (environment : Option Text) :
    ((configOption b :: after).foldlM add progress >>= fun last => last.finish environment) =
      ((configOption a :: after).foldlM add progress >>= fun last => last.finish environment).map
        (·.withConfig b) := by
  rw [List.foldlM_cons, List.foldlM_cons, add_configOption options, add_configOption options]
  cases progress.settle with
  | error stop => rfl
  | ok settled =>
    change (settled.set .config b >>= _) >>= _ = ((settled.set .config a >>= _) >>= _).map _
    rw [set_otherConfig settled some_a some_b]
    cases set : settled.set .config a with
    | error stop => rfl
    | ok first =>
      obtain ⟨_, _, rfl⟩ := set_eq_ok_iff.mp set
      have given : (settled.put .config a).config ≠ none := Option.some_ne_none a
      change after.foldlM add ((settled.put .config a).withConfig b) >>= _ =
        (after.foldlM add (settled.put .config a) >>= _).map _
      rw [foldlM_withConfig (.inl given)]
      cases read : after.foldlM add (settled.put .config a) with
      | error stop => rfl
      | ok last => exact finish_withConfig (foldlM_config_ne_none given read) environment b

end Progress

theorem parse_append (before after : List Text) (environment : Option Text) :
    parse (before ++ after) environment = before.foldlM Progress.add {} >>= fun progress =>
      after.foldlM Progress.add progress >>= fun progress => progress.finish environment := by
  unfold parse
  rw [List.foldlM_append, bind_assoc]

/-- Arguments that ask for another configuration are read alike but for it. -/
theorem parse_otherOption {before : List Text} {a b : Text} (options : optionsEnd ∉ before)
    (some_a : a ≠ []) (some_b : b ≠ []) (after : List Text) (environment : Option Text) :
    parse (before ++ configOption b :: after) environment =
      (parse (before ++ configOption a :: after) environment).map (·.withConfig b) := by
  rw [parse_append, parse_append]
  cases first : before.foldlM Progress.add {} with
  | error stop => rfl
  | ok progress =>
    have optional : progress.onlyPaths = false := Progress.foldlM_onlyPaths rfl options first
    exact Progress.foldlM_otherOption optional some_a some_b after environment

theorem parse_configOption {before : List Text} {a b : Text} (options : optionsEnd ∉ before)
    (some_a : a ≠ []) (some_b : b ≠ []) (after : List Text) (environment : Option Text) :
    parse (before ++ configOption b :: after) environment =
        (parse (before ++ configOption a :: after) environment).map (·.withConfig b) ∧
      ∀ given, parse (before ++ configOption a :: after) environment = .ok given →
        given.config = some a := by
  refine ⟨parse_otherOption options some_a some_b after environment, fun given parsed => ?_⟩
  -- For the option itself the arguments are read as they are, with its configuration.
  have same := parse_otherOption options some_a some_a after environment
  rw [parsed] at same
  rw [Except.ok.inj same]
  rfl

end PathRules.Arguments
