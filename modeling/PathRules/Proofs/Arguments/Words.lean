import PathRules.Arguments
import Mathlib.Tactic.SplitIfs

/-!
# Single arguments

Where options are read, an argument is looked at by itself, and only then at what is pending.
`wordOf` says what an argument is by itself, and `add_eq_addWord` that the reading goes by it.
-/

namespace PathRules.Arguments

/-! ### Names and letters -/

/-- The name of an option, which stands after two dashes. -/
def Setting.name : Setting → Text
  | .config => "config".toList
  | .rulesDir => "rules-dir".toList
  | .extension => "extension".toList
  | .output => "output".toList

/-- The letter of an option, which stands after one dash. -/
def Setting.letter? : Setting → Option Char
  | .config => some 'C'
  | .output => some 'o'
  | .rulesDir | .extension => none

theorem Flag.ofName?_eq_setting_iff {name : Text} {setting : Setting} :
    Flag.ofName? name = some (.setting setting) ↔ name = setting.name := by
  unfold Flag.ofName?
  simp only [Text.of_eq]
  constructor
  · intro named
    split_ifs at named <;> cases named <;> assumption
  · rintro rfl
    cases setting <;> decide

theorem Flag.ofLetter?_eq_setting_iff {letter : Char} {setting : Setting} :
    Flag.ofLetter? letter = some (.setting setting) ↔ setting.letter? = some letter := by
  unfold Flag.ofLetter?
  constructor
  · intro named
    split at named <;> cases named <;> rfl
  · intro named
    cases setting <;> cases named <;> rfl

/-! ### What an argument is by itself -/

inductive Word where
  /-- `--`, after which there are no more options. -/
  | optionsEnd
  | flag (flag : Flag) (attached : Option Text)
  | unknown
  /-- A value or a path. -/
  | plain
  deriving DecidableEq, Repr

/-- What follows the first `=`, if there is one. -/
def assigned? (word : Text) : Option Text :=
  match word.dropWhile (· != '=') with
  | [] => none
  | _ :: value => some value

/-- What follows the letter of an option, without one `=` in front. -/
def joined? : Text → Option Text
  | [] => none
  | '=' :: value => some value
  | value => some value

def wordOf : Text → Word
  | ['-', '-'] => .optionsEnd
  | '-' :: '-' :: word =>
    match Flag.ofName? (word.takeWhile (· != '=')) with
    | some flag => .flag flag (assigned? word)
    | none => .unknown
  | '-' :: letter :: rest =>
    match Flag.ofLetter? letter with
    | none => .unknown
    | some (.stop stop) => .flag (.stop stop) none
    | some flag => .flag flag (joined? rest)
  | _ => .plain

/-- An argument that is a value or a path by itself. -/
def StandsAlone (argument : Text) : Prop := argument.head? ≠ some '-' ∨ argument = ['-']

theorem wordOf_long {word : Text} (something : word ≠ []) :
    wordOf ('-' :: '-' :: word) = match Flag.ofName? (word.takeWhile (· != '=')) with
      | some flag => .flag flag (assigned? word)
      | none => .unknown := by
  rw [wordOf]
  exact something

theorem wordOf_short {letter : Char} (short : letter ≠ '-') (rest : Text) :
    wordOf ('-' :: letter :: rest) = match Flag.ofLetter? letter with
      | none => .unknown
      | some (.stop stop) => .flag (.stop stop) none
      | some flag => .flag flag (joined? rest) := by
  rw [wordOf]
  · exact fun same _ => short same
  · exact short

theorem wordOf_plain {argument : Text}
    (plain : ∀ letter rest, argument ≠ '-' :: letter :: rest) : wordOf argument = .plain := by
  rw [wordOf]
  · exact plain '-' []
  · exact fun word => plain '-' word
  · exact plain

theorem wordOf_eq_optionsEnd_iff {argument : Text} :
    wordOf argument = .optionsEnd ↔ argument = ['-', '-'] := by
  constructor
  · intro ends
    unfold wordOf at ends
    split at ends
    · rfl
    · split at ends <;> cases ends
    · split at ends <;> cases ends
    · cases ends
  · rintro rfl
    rfl

theorem wordOf_of_standsAlone {argument : Text} (alone : StandsAlone argument) :
    wordOf argument = .plain := by
  refine wordOf_plain fun letter rest => ?_
  rintro rfl
  rcases alone with free | same
  · exact free rfl
  · cases same

/-- An option is named after two dashes, up to a `=`, or by its letter after one. -/
theorem named_of_wordOf {argument : Text} {setting : Setting} {attached : Option Text}
    (option : wordOf argument = .flag (.setting setting) attached) :
    (∃ word, argument = '-' :: '-' :: word ∧ word.takeWhile (· != '=') = setting.name) ∨
      ∃ letter rest, argument = '-' :: letter :: rest ∧ setting.letter? = some letter := by
  unfold wordOf at option
  split at option
  · cases option
  · next word _ =>
    split at option
    · next found =>
      cases option
      exact .inl ⟨word, rfl, Flag.ofName?_eq_setting_iff.mp found⟩
    · cases option
  · next letter rest _ _ =>
    split at option
    · cases option
    · cases option
    · next found =>
      cases option
      exact .inr ⟨letter, rest, rfl, Flag.ofLetter?_eq_setting_iff.mp found⟩
  · cases option

/-- The reading of an argument, by what it is. -/
def Progress.addWord (progress : Progress) (argument : Text) : Word → Except Stop Progress
  | .optionsEnd => .ok { progress with onlyPaths := true }
  | .flag flag attached => progress.addFlag flag attached
  | .unknown => .error (.usage .unknownArgument)
  | .plain =>
    match progress.pending with
    | .setting setting none => .ok { progress with pending := .setting setting (some argument) }
    | _ => progress.addPath argument

theorem Progress.add_of_onlyPaths {progress : Progress} (ended : progress.onlyPaths = true)
    (argument : Text) : progress.add argument = progress.addPath argument := by
  unfold add
  rw [if_pos ended]

/-- Where options are read, an argument is read as what it is by itself. -/
theorem Progress.add_eq_addWord {progress : Progress} (options : progress.onlyPaths = false)
    (argument : Text) : progress.add argument = progress.addWord argument (wordOf argument) := by
  have notEnded : ¬ progress.onlyPaths = true := by rw [options]; exact Bool.false_ne_true
  unfold add
  rw [if_neg notEnded]
  split
  · rfl
  · next word notEnd =>
    rw [wordOf_long notEnd]
    unfold addLong
    dsimp only
    cases Flag.ofName? (word.takeWhile (· != '=')) <;> rfl
  · next letter rest _ short =>
    rw [wordOf_short short]
    unfold addShort
    cases Flag.ofLetter? letter with
    | none => rfl
    | some flag => cases flag <;> rfl
  · next notShort =>
    rw [wordOf_plain notShort]
    rfl

/-! ### Options -/

def Setting.option (setting : Setting) : Text := '-' :: '-' :: setting.name

theorem wordOf_option (setting : Setting) :
    wordOf setting.option = .flag (.setting setting) none := by
  have name : setting.name.takeWhile (· != '=') = setting.name := by cases setting <;> rfl
  have nothing : assigned? setting.name = none := by cases setting <;> rfl
  have something : setting.name ≠ [] := by cases setting <;> decide
  rw [Setting.option, wordOf_long something, name, Flag.ofName?_eq_setting_iff.mpr rfl, nothing]

theorem wordOf_assigned (setting : Setting) (value : Text) :
    wordOf (setting.option ++ '=' :: value) = .flag (.setting setting) (some value) := by
  have name : (setting.name ++ '=' :: value).takeWhile (· != '=') = setting.name := by
    cases setting <;> rfl
  have attached : assigned? (setting.name ++ '=' :: value) = some value := by
    cases setting <;> rfl
  show wordOf ('-' :: '-' :: (setting.name ++ '=' :: value)) = _
  rw [wordOf_long (by simp), name, Flag.ofName?_eq_setting_iff.mpr rfl, attached]

theorem wordOf_letter {setting : Setting} {letter : Char} (named : setting.letter? = some letter)
    (rest : Text) : wordOf ('-' :: letter :: rest) = .flag (.setting setting) (joined? rest) := by
  have short : letter ≠ '-' := by
    rintro rfl
    cases setting <;> cases named
  rw [wordOf_short short, Flag.ofLetter?_eq_setting_iff.mpr named]

theorem joined?_of_head? {value : Text} (something : value ≠ []) (free : value.head? ≠ some '=') :
    joined? value = some value := by
  unfold joined?
  split
  · exact absurd rfl something
  · exact absurd rfl free
  · rfl

end PathRules.Arguments
