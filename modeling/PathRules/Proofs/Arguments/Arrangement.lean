import PathRules.Proofs.Arguments.Environment
import PathRules.Proofs.Text.Keyed

/-!
# Arranging arguments

What a run is given can be written in many ways: the options in any order, each in one of up to
five spellings, and the path among them or behind `--`. `parse_written` says that all of them are
read as what is written, and what the environment adds to any arguments.
-/

namespace PathRules

def ReportFormat.name : ReportFormat → Text
  | .text => "text".toList
  | .json => "json".toList

theorem ReportFormat.ofName?_eq_some_iff {name : Text} {format : ReportFormat} :
    ofName? name = some format ↔ name = format.name := by
  unfold ofName?
  simp only [Text.of_eq]
  constructor
  · intro named
    split_ifs at named <;> cases named <;> assumption
  · rintro rfl
    cases format <;> decide

theorem ReportFormat.name_injective {format other : ReportFormat}
    (same : format.name = other.name) : format = other := by
  have known := ReportFormat.ofName?_eq_some_iff.mpr same
  rw [ReportFormat.ofName?_eq_some_iff.mpr rfl] at known
  exact Option.some.inj known

namespace Arguments

/-! ### Writing -/

/-- How an option with a value may be written: by its name or its letter, and with the value
attached or apart. Apart stands no value that looks like an option, and right behind the letter none
that starts with `=`. -/
inductive Spelled (setting : Setting) (value : Text) : List Text → Prop where
  | assigned : Spelled setting value [setting.option ++ '=' :: value]
  | apart : StandsAlone value → Spelled setting value [setting.option, value]
  | letterApart {letter : Char} : setting.letter? = some letter → StandsAlone value →
      Spelled setting value [['-', letter], value]
  | letterAssigned {letter : Char} : setting.letter? = some letter →
      Spelled setting value ['-' :: letter :: '=' :: value]
  | letterJoined {letter : Char} : setting.letter? = some letter → value.head? ≠ some '=' →
      Spelled setting value ['-' :: letter :: value]

/-- Options in a row, each in a spelling of its own. -/
inductive SpelledAll : List (Setting × Text) → List Text → Prop where
  | nil : SpelledAll [] []
  | cons {setting : Setting} {value : Text} {options : List (Setting × Text)}
      {words rest : List Text} : Spelled setting value words → SpelledAll options rest →
      SpelledAll ((setting, value) :: options) (words ++ rest)

/-- The options ask for what a run is given, in any order and each at most once. The format that is
usual may be left out. -/
structure Asks (given : Arguments) (options : List (Setting × Text)) : Prop where
  once : (options.map Prod.fst).Nodup
  config : options.lookup .config = given.config
  rulesDir : options.lookup .rulesDir = given.rulesDir
  extension : options.lookup .extension = given.extension
  output : (options.lookup .output).getD ReportFormat.text.name = given.output.name

/-- Arguments that say what a run is given: the path stands among the options, if it does not look
like one of them, or behind them and `--`. -/
inductive Written (given : Arguments) : List Text → Prop where
  | among {before after : List (Setting × Text)} {front back : List Text} :
      given.Asks (before ++ after) → SpelledAll before front → SpelledAll after back →
      StandsAlone given.changedFiles → Written given (front ++ given.changedFiles :: back)
  | last {options : List (Setting × Text)} {words : List Text} :
      given.Asks options → SpelledAll options words →
      Written given (words ++ [optionsEnd, given.changedFiles])

structure PathsNonempty (given : Arguments) : Prop where
  changedFiles : given.changedFiles ≠ []
  config : given.config ≠ some []
  rulesDir : given.rulesDir ≠ some []

theorem Asks.admits {given : Arguments} {options : List (Setting × Text)}
    (asks : given.Asks options) (paths : given.PathsNonempty) {setting : Setting} {value : Text}
    (member : (setting, value) ∈ options) : setting.admits value = true := by
  have found := (lookup_eq_some_iff_mem asks.once).mpr member
  cases setting with
  | config =>
    have given_config : given.config = some value := asks.config.symm.trans found
    have something : value ≠ [] := fun same => paths.config (same ▸ given_config)
    simpa [Setting.admits] using something
  | rulesDir =>
    have given_rulesDir : given.rulesDir = some value := asks.rulesDir.symm.trans found
    have something : value ≠ [] := fun same => paths.rulesDir (same ▸ given_rulesDir)
    simpa [Setting.admits] using something
  | extension => rfl
  | output =>
    have named := asks.output
    rw [found] at named
    have known : ReportFormat.ofName? value = some given.output :=
      ReportFormat.ofName?_eq_some_iff.mpr named
    exact Option.isSome_iff_exists.mpr ⟨_, known⟩

theorem Asks.forall_admits {given : Arguments} {options : List (Setting × Text)}
    (asks : given.Asks options) (paths : given.PathsNonempty) :
    ∀ option ∈ options, option.1.admits option.2 = true :=
  fun _ member => asks.admits paths member

theorem nonempty_of_letter {setting : Setting} {letter : Char} {value : Text}
    (named : setting.letter? = some letter) (admitted : setting.admits value = true) :
    value ≠ [] := by
  rintro rfl
  cases setting with
  | config => cases admitted
  | output => simp [Setting.admits, ReportFormat.ofName?, Text.of_eq] at admitted
  | rulesDir | extension => cases named

namespace Progress

variable {progress settled after last : Progress} {setting : Setting} {value : Text}

/-! ### The values that were read -/

def value? (progress : Progress) : Setting → Option Text
  | .config => progress.config
  | .rulesDir => progress.rulesDir
  | .extension => progress.extension
  | .output => progress.output.map ReportFormat.name

theorem has_eq_isSome (progress : Progress) (setting : Setting) :
    progress.has setting = (progress.value? setting).isSome := by
  cases setting <;> simp [has, value?]

theorem value?_put (admitted : setting.admits value = true) (other : Setting) :
    (progress.put setting value).value? other =
      if other = setting then some value else progress.value? other := by
  cases setting with
  | output =>
    obtain ⟨format, named⟩ := Option.isSome_iff_exists.mp admitted
    have same := ReportFormat.ofName?_eq_some_iff.mp named
    have read : (ReportFormat.ofName? value).map ReportFormat.name = some value := by
      rw [named, Option.map_some, ← same]
    cases other with
    | output => exact read
    | _ => rfl
  | _ => cases other <;> rfl

def putAll (progress : Progress) (options : List (Setting × Text)) : Progress :=
  options.foldl (fun progress option => progress.put option.1 option.2) progress

theorem putAll_keeps {α : Type} {field : Progress → α}
    (kept : ∀ progress setting value, field (put progress setting value) = field progress)
    (progress : Progress) (options : List (Setting × Text)) :
    field (progress.putAll options) = field progress := by
  unfold putAll
  induction options generalizing progress with
  | nil => rfl
  | cons option options ih => rw [List.foldl_cons, ih, kept]

theorem putAll_changedFiles (progress : Progress) (options : List (Setting × Text)) :
    (progress.putAll options).changedFiles = progress.changedFiles :=
  putAll_keeps put_changedFiles progress options

theorem putAll_onlyPaths (progress : Progress) (options : List (Setting × Text)) :
    (progress.putAll options).onlyPaths = progress.onlyPaths :=
  putAll_keeps put_onlyPaths progress options

theorem putAll_append (progress : Progress) (before after : List (Setting × Text)) :
    progress.putAll (before ++ after) = (progress.putAll before).putAll after :=
  List.foldl_append

/-- The path has no part in the options. -/
theorem putAll_path (progress : Progress) (path : Option Text)
    (options : List (Setting × Text)) :
    ({ progress with changedFiles := path } : Progress).putAll options =
      { progress.putAll options with changedFiles := path } := by
  unfold putAll
  induction options generalizing progress with
  | nil => rfl
  | cons option options ih =>
    obtain ⟨setting, value⟩ := option
    rw [List.foldl_cons, List.foldl_cons, ← ih]
    cases setting <;> rfl

theorem value?_path (progress : Progress) (path : Option Text) (setting : Setting) :
    ({ progress with changedFiles := path } : Progress).value? setting =
      progress.value? setting := by
  cases setting <;> rfl

theorem value?_putAll {options : List (Setting × Text)} (once : (options.map Prod.fst).Nodup)
    (admitted : ∀ option ∈ options, option.1.admits option.2 = true) (other : Setting) :
    (progress.putAll options).value? other =
      (options.lookup other).or (progress.value? other) := by
  induction options generalizing progress with
  | nil => rfl
  | cons option options ih =>
    obtain ⟨setting, value⟩ := option
    obtain ⟨new, once⟩ := List.nodup_cons.mp once
    obtain ⟨admitted_first, admitted⟩ := List.forall_mem_cons.mp admitted
    show ((progress.put setting value).putAll options).value? other = _
    rw [ih once admitted, value?_put admitted_first, List.lookup_cons]
    by_cases same : other = setting
    · have absent : options.lookup setting = none :=
        Option.eq_none_iff_forall_ne_some.mpr fun _ found => new (mem_keys_iff.mpr ⟨_, found⟩)
      simp [same, absent]
    · have different : (other == setting) = false := beq_eq_false_iff_ne.mpr same
      simp [same, different]

/-! ### From one settled state to another -/

/-- Words lead from a state to another one, up to what is pending before and after them. -/
def Leads (settled : Progress) (words : List Text) (after : Progress) : Prop :=
  ∀ progress : Progress, progress.Settles settled →
    ∃ next, words.foldlM add progress = .ok next ∧ next.Settles after

theorem leads_nil (settled : Progress) : Leads settled [] settled :=
  fun progress settles => ⟨progress, rfl, settles⟩

theorem Leads.append {words others : List Text} (first : Leads settled words after)
    (second : Leads after others last) : Leads settled (words ++ others) last := by
  intro progress settles
  obtain ⟨middle, done, settles⟩ := first progress settles
  obtain ⟨next, redone, settles⟩ := second middle settles
  refine ⟨next, ?_, settles⟩
  rw [List.foldlM_append, done]
  exact redone

theorem leads_single {argument : Text} (step : ∀ progress : Progress, progress.Settles settled →
    ∃ next, progress.add argument = .ok next ∧ next.Settles after) :
    Leads settled [argument] after := by
  intro progress settles
  obtain ⟨next, done, settles⟩ := step progress settles
  refine ⟨next, ?_, settles⟩
  rw [List.foldlM_cons, done]
  rfl

theorem settles_self (quiet : progress.pending = .nothing) : progress.Settles progress := by
  have same : { progress with pending := .nothing } = progress := by rw [← quiet]
  have settles := Settles.nothing quiet
  rwa [same] at settles

/-! ### Options -/

section OneOption

variable {argument : Text} (reading : settled.onlyPaths = false)
  (unset : settled.has setting = false) (admitted : setting.admits value = true)
include reading unset admitted

theorem leads_attached (word : wordOf argument = .flag (.setting setting) (some value)) :
    Leads settled [argument] (settled.put setting value) := by
  refine leads_single fun progress settles => ⟨settled.put setting value, ?_, ?_⟩
  · have set : settled.set setting value = .ok (settled.put setting value) :=
      set_eq_ok_iff.mpr ⟨unset, admitted, rfl⟩
    rw [add_eq_addWord (settles.onlyPaths.symm.trans reading), word, addWord, addFlag,
      settle_eq_ok_iff.mpr settles]
    exact set
  · exact settles_self (by rw [put_pending, settles.pending])

theorem leads_apart (word : wordOf argument = .flag (.setting setting) none)
    (alone : StandsAlone value) : Leads settled [argument, value] (settled.put setting value) := by
  intro progress settles
  -- The option waits for its value, and the value for the next argument or the end.
  let waiting : Progress := { settled with pending := .setting setting none }
  let found : Progress := { settled with pending := .setting setting (some value) }
  have first : progress.add argument = .ok waiting := by
    rw [add_eq_addWord (settles.onlyPaths.symm.trans reading), word, addWord, addFlag,
      settle_eq_ok_iff.mpr settles]
    rfl
  have second : waiting.add value = .ok found := by
    have still : waiting.onlyPaths = false := reading
    rw [add_eq_addWord still, wordOf_of_standsAlone alone]
    rfl
  have quiet : { found with pending := .nothing } = settled := by rw [← settles.pending]
  refine ⟨found, ?_, ?_⟩
  · rw [List.foldlM_cons, first]
    show ([value].foldlM add waiting) = _
    rw [List.foldlM_cons, second]
    rfl
  · have pending : found.pending = .setting setting (some value) := rfl
    have settles := Settles.value pending unset admitted
    rwa [quiet] at settles

theorem leads_spelled {words : List Text} (spelled : Spelled setting value words) :
    Leads settled words (settled.put setting value) := by
  cases spelled with
  | assigned => exact leads_attached reading unset admitted (wordOf_assigned setting value)
  | apart alone => exact leads_apart reading unset admitted (wordOf_option setting) alone
  | letterApart named alone =>
    exact leads_apart reading unset admitted (wordOf_letter named []) alone
  | letterAssigned named =>
    exact leads_attached reading unset admitted (wordOf_letter named ('=' :: value))
  | letterJoined named free =>
    have joined := wordOf_letter named value
    rw [joined?_of_head? (nonempty_of_letter named admitted) free] at joined
    exact leads_attached reading unset admitted joined

end OneOption

theorem leads_options {options : List (Setting × Text)} {words : List Text}
    (spelled : SpelledAll options words) (reading : settled.onlyPaths = false)
    (once : (options.map Prod.fst).Nodup)
    (admitted : ∀ option ∈ options, option.1.admits option.2 = true)
    (unset : ∀ option ∈ options, settled.value? option.1 = none) :
    Leads settled words (settled.putAll options) := by
  induction spelled generalizing settled with
  | nil => exact leads_nil settled
  | @cons setting value options words rest spelled _ ih =>
    obtain ⟨new, once⟩ := List.nodup_cons.mp once
    obtain ⟨admitted_first, admitted⟩ := List.forall_mem_cons.mp admitted
    obtain ⟨unset_first, unset⟩ := List.forall_mem_cons.mp unset
    have free : settled.has setting = false := by rw [has_eq_isSome, unset_first]; rfl
    have still : (settled.put setting value).onlyPaths = false := by rw [put_onlyPaths, reading]
    -- The others are still free, as no option is asked for twice.
    have still_unset : ∀ option ∈ options, (settled.put setting value).value? option.1 = none := by
      intro option member
      have other : option.1 ≠ setting := fun same => new (List.mem_map.mpr ⟨option, member, same⟩)
      rw [value?_put admitted_first, if_neg other, unset option member]
    exact (leads_spelled reading free admitted_first spelled).append
      (ih still once admitted still_unset)

/-! ### The path -/

theorem hasPath_of_settles (settles : progress.Settles settled)
    (pathless : settled.changedFiles = none) : progress.hasPath = false := by
  unfold hasPath
  cases settles with
  | nothing pending =>
    have none_read : progress.changedFiles = none := pathless
    simp [pending, none_read]
  | value pending _ _ =>
    rw [put_changedFiles] at pathless
    have none_read : progress.changedFiles = none := pathless
    simp [pending, none_read]
  | path pending _ => cases pathless

/-- With all values there, an argument that stands alone is the path. -/
theorem addWord_plain_of_settles (settles : progress.Settles settled) (argument : Text) :
    progress.addWord argument .plain = progress.addPath argument := by
  cases settles with
  | nothing pending => rw [addWord, pending]
  | value pending _ _ => rw [addWord, pending]
  | path pending _ => rw [addWord, pending]

theorem leads_path {path : Text} (pathless : settled.changedFiles = none) (something : path ≠ [])
    (plain : settled.onlyPaths = false → StandsAlone path) :
    Leads settled [path] { settled with changedFiles := some path } := by
  refine leads_single fun progress settles => ⟨{ settled with pending := .path path }, ?_, ?_⟩
  · have pathAdded : progress.addPath path = .ok { settled with pending := .path path } := by
      unfold addPath
      rw [hasPath_of_settles settles pathless, settle_eq_ok_iff.mpr settles]
      rfl
    rw [← pathAdded]
    cases reading : progress.onlyPaths with
    | true => exact add_of_onlyPaths reading path
    | false =>
      have alone := plain (settles.onlyPaths.trans reading)
      rw [add_eq_addWord reading, wordOf_of_standsAlone alone, addWord_plain_of_settles settles]
  · have pending : ({ settled with pending := .path path } : Progress).pending = .path path := rfl
    have quiet : ({ settled with pending := .nothing, changedFiles := some path } : Progress) =
        { settled with changedFiles := some path } := by rw [← settles.pending]
    have settles := Settles.path pending something
    rwa [quiet] at settles

theorem leads_ends (reading : settled.onlyPaths = false) :
    Leads settled [optionsEnd] { settled with onlyPaths := true } := by
  refine leads_single fun progress settles => ⟨{ progress with onlyPaths := true }, ?_, ?_⟩
  · rw [add_eq_addWord (settles.onlyPaths.symm.trans reading)]
    rfl
  · cases settles with
    | nothing pending => exact .nothing pending
    | @value setting value pending unset admitted =>
      let ended : Progress := { progress with onlyPaths := true }
      have pending : ended.pending = .setting setting (some value) := pending
      have unset : ended.has setting = false := by cases setting <;> exact unset
      have settles := Settles.value pending unset admitted
      cases setting <;> exact settles
    | path pending something => exact .path pending something

/-! ### The end -/

/-- What was read is what a run is given. -/
structure Records (settled : Progress) (given : Arguments) : Prop where
  changedFiles : settled.changedFiles = some given.changedFiles
  config : settled.config = given.config
  rulesDir : settled.rulesDir = given.rulesDir
  extension : settled.extension = given.extension
  output : settled.output.getD .text = given.output

theorem records_of_asks {given : Arguments} {options : List (Setting × Text)}
    (asks : given.Asks options) (path : settled.changedFiles = some given.changedFiles)
    (values : ∀ setting, settled.value? setting = options.lookup setting) :
    settled.Records given where
  changedFiles := path
  config := (values .config).trans asks.config
  rulesDir := (values .rulesDir).trans asks.rulesDir
  extension := (values .extension).trans asks.extension
  output := by
    have named := asks.output
    have read : settled.output.map ReportFormat.name = options.lookup .output := values .output
    rw [← read, Option.getD_map] at named
    exact ReportFormat.name_injective named

theorem finish_of_records {given : Arguments} (settles : progress.Settles settled)
    (recorded : settled.Records given) : progress.finish none = .ok given := by
  refine finish_eq_ok.mpr
    ⟨settled, _, settle_eq_ok_iff.mpr settles, recorded.changedFiles, by simp, ?_⟩
  rw [recorded.config, recorded.rulesDir, recorded.extension, recorded.output]
  simp

/-! ### Whole arguments -/

section Whole

variable {given : Arguments}

theorem value?_start (setting : Setting) : ({} : Progress).value? setting = none := by
  cases setting <;> rfl

theorem value?_putAll_start {options : List (Setting × Text)}
    (once : (options.map Prod.fst).Nodup)
    (admitted : ∀ option ∈ options, option.1.admits option.2 = true) (setting : Setting) :
    (({} : Progress).putAll options).value? setting = options.lookup setting := by
  rw [value?_putAll once admitted, value?_start, Option.or_none]

theorem leads_last {options : List (Setting × Text)} {words : List Text}
    (paths : given.PathsNonempty) (asks : given.Asks options)
    (spelled : SpelledAll options words) :
    ∃ settled, Leads {} (words ++ [optionsEnd, given.changedFiles]) settled ∧
      settled.Records given := by
  have admitted := asks.forall_admits paths
  let read : Progress := ({} : Progress).putAll options
  let ended : Progress := { read with onlyPaths := true }
  let pathed : Progress := { ended with changedFiles := some given.changedFiles }
  have reading : read.onlyPaths = false := putAll_onlyPaths {} options
  have pathless : ended.changedFiles = none := putAll_changedFiles {} options
  have first : Leads {} words read :=
    leads_options spelled rfl asks.once admitted fun _ _ => value?_start _
  have second : Leads read [optionsEnd] ended := leads_ends reading
  have third : Leads ended [given.changedFiles] pathed :=
    leads_path pathless paths.changedFiles fun stillReading => Bool.noConfusion stillReading
  refine ⟨pathed, first.append (second.append third), records_of_asks asks rfl fun setting => ?_⟩
  rw [← value?_putAll_start asks.once admitted]
  cases setting <;> rfl

theorem leads_among {before after : List (Setting × Text)} {front back : List Text}
    (paths : given.PathsNonempty) (asks : given.Asks (before ++ after))
    (spelled_before : SpelledAll before front) (spelled_after : SpelledAll after back)
    (alone : StandsAlone given.changedFiles) :
    ∃ settled, Leads {} (front ++ given.changedFiles :: back) settled ∧ settled.Records given := by
  have admitted := asks.forall_admits paths
  obtain ⟨admitted_before, admitted_after⟩ := List.forall_mem_append.mp admitted
  have once := asks.once
  rw [List.map_append, List.nodup_append] at once
  obtain ⟨once_before, once_after, apart⟩ := once
  let read : Progress := ({} : Progress).putAll before
  let pathed : Progress := { read with changedFiles := some given.changedFiles }
  have reading : read.onlyPaths = false := putAll_onlyPaths {} before
  have pathless : read.changedFiles = none := putAll_changedFiles {} before
  have unset : ∀ option ∈ after, pathed.value? option.1 = none := by
    intro option member
    rw [value?_path, value?_putAll_start once_before admitted_before]
    refine Option.eq_none_iff_forall_ne_some.mpr fun _ found => ?_
    exact apart _ (mem_keys_iff.mpr ⟨_, found⟩) _ (List.mem_map.mpr ⟨option, member, rfl⟩) rfl
  have first : Leads {} front read :=
    leads_options spelled_before rfl once_before admitted_before fun _ _ => value?_start _
  have second : Leads read [given.changedFiles] pathed :=
    leads_path pathless paths.changedFiles fun _ => alone
  have third : Leads pathed back (pathed.putAll after) :=
    leads_options spelled_after reading once_after admitted_after unset
  have path : (pathed.putAll after).changedFiles = some given.changedFiles :=
    putAll_changedFiles pathed after
  refine ⟨_, first.append (second.append third), records_of_asks asks path fun setting => ?_⟩
  rw [putAll_path, value?_path, ← putAll_append, value?_putAll_start asks.once admitted]

theorem leads_written {words : List Text} (paths : given.PathsNonempty)
    (written : given.Written words) :
    ∃ settled, Leads {} words settled ∧ settled.Records given := by
  cases written with
  | among asks before after alone => exact leads_among paths asks before after alone
  | last asks spelled => exact leads_last paths asks spelled

end Whole

end Progress

/-- Whatever is given to a run, all arguments that say so are read as just that. Whether they ask
for a configuration decides what the environment adds, to these and to any other arguments: an
option in front of them, or nothing. -/
theorem parse_written :
    (∀ given words, PathsNonempty given → Written given words →
      parse words none = .ok given ∧ (AsksConfig words ↔ given.config ≠ none)) ∧
    ∀ words value, value ≠ [] →
      (AsksConfig words → parse words (some value) = parse words none) ∧
      (¬ AsksConfig words →
        parse words (some value) = parse (configOption value :: words) none) := by
  refine ⟨fun given words paths written => ?_, fun words value something => ?_⟩
  · obtain ⟨settled, leads, recorded⟩ := Progress.leads_written paths written
    obtain ⟨progress, read, settles⟩ := leads {} (Progress.settles_self rfl)
    constructor
    · unfold parse
      rw [read]
      exact Progress.finish_of_records settles recorded
    · have asked := Progress.foldlM_asked_iff read
      rw [← settles.config_iff, recorded.config, Progress.asked_start] at asked
      exact asked.symm
  · exact ⟨fun asks => parse_of_asksConfig asks _,
      fun asksNot => parse_of_not_asksConfig asksNot something⟩

/-- Values that look like options, and a path that looks like the option for the configuration. -/
theorem parse_written_of_odd_values :
    let given : Arguments :=
      ⟨"-".toList, some "--output".toList, some "--".toList, some "=".toList, .json⟩
    let words := ["-C--output".toList, "--extension".toList, "=".toList, "-".toList,
      "-ojson".toList, "--rules-dir=--".toList]
    let others := ["--".toList, "--config=x".toList]
    PathsNonempty given ∧ Written given words ∧ parse words none = .ok given ∧
      AsksConfig words ∧ parse words (some "y".toList) = .ok given ∧ ¬ AsksConfig others ∧
      parse others (some "y".toList) = parse (configOption "y".toList :: others) none := by
  intro given words others
  have paths : PathsNonempty given := ⟨by decide, by decide, by decide⟩
  have asks : given.Asks ([(.config, "--output".toList), (.extension, "=".toList)] ++
      [(.output, "json".toList), (.rulesDir, "--".toList)]) := ⟨by decide, rfl, rfl, rfl, rfl⟩
  have front : SpelledAll [(.config, "--output".toList), (.extension, "=".toList)]
      ["-C--output".toList, "--extension".toList, "=".toList] :=
    .cons (.letterJoined rfl (by decide)) (.cons (.apart (.inl (by decide))) .nil)
  have back : SpelledAll [(.output, "json".toList), (.rulesDir, "--".toList)]
      ["-ojson".toList, "--rules-dir=--".toList] :=
    .cons (.letterJoined rfl (by decide)) (.cons .assigned .nil)
  have written : Written given words := .among asks front back (.inr rfl)
  have something : "y".toList ≠ [] := by decide
  obtain ⟨readBack, environment⟩ := parse_written
  obtain ⟨parsed, asked⟩ := readBack given words paths written
  have asksConfig : AsksConfig words := asked.mpr (by decide)
  refine ⟨paths, written, parsed, asksConfig, ?_, by decide, ?_⟩
  · rw [(environment words _ something).1 asksConfig, parsed]
  · exact (environment others _ something).2 (by decide)

end Arguments
end PathRules
