import PathRules.Proofs.Arguments.Words
import PathRules.Proofs.Outcomes

/-!
# Reading step by step

What one more argument may do to what was read before it. `Settles` says what becomes of what is
pending, `Step` what reading an argument leads to; a reading that goes on takes such a step
(`step_of_add`). What is kept by every step holds in the end (`holds_of_foldlM`).
-/

namespace PathRules.Arguments

/-- Whether an option may have the value: a path may not be empty, and a format has a name. -/
def Setting.admits : Setting → Text → Bool
  | .config, value | .rulesDir, value => !value.isEmpty
  | .extension, _ => true
  | .output, value => (ReportFormat.ofName? value).isSome

namespace Progress

variable {progress next settled : Progress}

/-! ### Values of options -/

def put (progress : Progress) (setting : Setting) (value : Text) : Progress :=
  match setting with
  | .config => { progress with config := some value }
  | .rulesDir => { progress with rulesDir := some value }
  | .extension => { progress with extension := some value }
  | .output => { progress with output := ReportFormat.ofName? value }

theorem set_eq (progress : Progress) (setting : Setting) (value : Text) :
    progress.set setting value =
      if progress.has setting then .error (.usage .conflict)
      else if setting.admits value then .ok (progress.put setting value)
      else .error (.usage .invalidValue) := by
  unfold set
  congr 1
  cases setting with
  | config | rulesDir => cases value <;> rfl
  | extension => rfl
  | output =>
    unfold Setting.admits put
    dsimp only
    split
    · next named => simp [named]
    · next unnamed => simp [unnamed]

theorem set_eq_ok_iff {setting : Setting} {value : Text} :
    progress.set setting value = .ok next ↔
      progress.has setting = false ∧ setting.admits value = true ∧
        next = progress.put setting value := by
  rw [set_eq]
  cases progress.has setting <;> cases setting.admits value <;> simp [eq_comm]

@[simp] theorem put_changedFiles (progress : Progress) (setting : Setting) (value : Text) :
    (progress.put setting value).changedFiles = progress.changedFiles := by
  cases setting <;> rfl

@[simp] theorem put_pending (progress : Progress) (setting : Setting) (value : Text) :
    (progress.put setting value).pending = progress.pending := by
  cases setting <;> rfl

@[simp] theorem put_onlyPaths (progress : Progress) (setting : Setting) (value : Text) :
    (progress.put setting value).onlyPaths = progress.onlyPaths := by
  cases setting <;> rfl

theorem put_config (progress : Progress) (setting : Setting) (value : Text) :
    (progress.put setting value).config =
      if setting = .config then some value else progress.config := by
  cases setting <;> rfl

/-! ### What is pending -/

inductive Settles (progress : Progress) : Progress → Prop where
  | nothing : progress.pending = .nothing → Settles progress { progress with pending := .nothing }
  | value {setting : Setting} {value : Text} :
      progress.pending = .setting setting (some value) → progress.has setting = false →
      setting.admits value = true →
      Settles progress ({ progress with pending := .nothing }.put setting value)
  | path {path : Text} : progress.pending = .path path → path ≠ [] →
      Settles progress { progress with pending := .nothing, changedFiles := some path }

theorem settle_eq_ok_iff : progress.settle = .ok settled ↔ progress.Settles settled := by
  constructor
  · intro done
    unfold settle at done
    dsimp only at done
    split at done
    · next nothing =>
      rw [← Except.ok.inj done]
      exact .nothing nothing
    · cases done
    · next pending =>
      obtain ⟨new, admitted, rfl⟩ := set_eq_ok_iff.mp done
      exact .value pending new admitted
    · next pending =>
      split at done
      · cases done
      · next something =>
        rw [← Except.ok.inj done]
        exact .path pending (by simpa using something)
  · intro settles
    unfold settle
    cases settles with
    | nothing nothing => rw [nothing]
    | value pending new admitted =>
      rw [pending]
      exact set_eq_ok_iff.mpr ⟨new, admitted, rfl⟩
    | path pending something =>
      rw [pending]
      simp [something]

theorem Settles.pending (settles : progress.Settles settled) : settled.pending = .nothing := by
  cases settles <;> simp

theorem Settles.onlyPaths (settles : progress.Settles settled) :
    settled.onlyPaths = progress.onlyPaths := by
  cases settles <;> simp

/-! ### One more argument -/

inductive Step (progress : Progress) (argument : Text) : Progress → Prop where
  | ends : progress.onlyPaths = false → wordOf argument = .optionsEnd →
      Step progress argument { progress with onlyPaths := true }
  | value {setting : Setting} : progress.onlyPaths = false → wordOf argument = .plain →
      progress.pending = .setting setting none →
      Step progress argument { progress with pending := .setting setting (some argument) }
  | path {settled : Progress} : (progress.onlyPaths = false → wordOf argument = .plain) →
      progress.Settles settled → Step progress argument { settled with pending := .path argument }
  | option {setting : Setting} {settled : Progress} : progress.onlyPaths = false →
      wordOf argument = .flag (.setting setting) none → progress.Settles settled →
      Step progress argument { settled with pending := .setting setting none }
  | attached {setting : Setting} {value : Text} {settled : Progress} :
      progress.onlyPaths = false → wordOf argument = .flag (.setting setting) (some value) →
      progress.Settles settled → Step progress argument (settled.put setting value)

variable {argument : Text}

theorem step_of_addPath (plain : progress.onlyPaths = false → wordOf argument = .plain)
    (done : progress.addPath argument = .ok next) : Step progress argument next := by
  unfold addPath at done
  split at done
  · cases done
  · obtain ⟨settled, settling, done⟩ := bind_ok done
    rw [← Except.ok.inj done]
    exact .path plain (settle_eq_ok_iff.mp settling)

theorem step_of_addFlag {flag : Flag} {attached : Option Text}
    (options : progress.onlyPaths = false) (word : wordOf argument = .flag flag attached)
    (done : progress.addFlag flag attached = .ok next) : Step progress argument next := by
  unfold addFlag at done
  split at done
  · cases done
  · obtain ⟨_, _, done⟩ := bind_ok done
    cases done
  · obtain ⟨settled, settling, done⟩ := bind_ok done
    obtain ⟨_, _, rfl⟩ := set_eq_ok_iff.mp done
    exact .attached options word (settle_eq_ok_iff.mp settling)
  · obtain ⟨settled, settling, done⟩ := bind_ok done
    rw [← Except.ok.inj done]
    exact .option options word (settle_eq_ok_iff.mp settling)

theorem step_of_add (done : progress.add argument = .ok next) : Step progress argument next := by
  cases reading : progress.onlyPaths with
  | true =>
    rw [add_of_onlyPaths reading] at done
    exact step_of_addPath (by simp [reading]) done
  | false =>
    rw [add_eq_addWord reading] at done
    cases word : wordOf argument with
    | optionsEnd =>
      rw [word] at done
      rw [← Except.ok.inj done]
      exact .ends reading word
    | flag flag attached =>
      rw [word] at done
      exact step_of_addFlag reading word done
    | unknown =>
      rw [word] at done
      cases done
    | plain =>
      rw [word, addWord] at done
      split at done
      · next waiting =>
        rw [← Except.ok.inj done]
        exact .value reading word waiting
      · exact step_of_addPath (fun _ => word) done

/-- Only `--` ends the options, and they do not begin again. -/
theorem Step.onlyPaths_iff (step : Step progress argument next) :
    next.onlyPaths = true ↔ progress.onlyPaths = true ∨ wordOf argument = .optionsEnd := by
  cases step with
  | ends _ word => simp [word]
  | value _ word _ => simp [word]
  | path plain settles =>
    rw [settles.onlyPaths]
    refine ⟨.inl, fun either => ?_⟩
    cases reading : progress.onlyPaths with
    | true => rfl
    | false => simp [reading, plain reading] at either
  | option _ word settles => simp [word, settles.onlyPaths]
  | attached _ word settles => simp [word, settles.onlyPaths]

/-! ### All arguments -/

/-- What every step keeps, of the state and of what is still to be read, holds in the end. -/
theorem holds_of_foldlM {P : Progress → List Text → Prop}
    (keeps : ∀ progress argument next arguments, Step progress argument next →
      P progress (argument :: arguments) → P next arguments)
    {arguments : List Text} (holds : P progress arguments)
    (done : arguments.foldlM add progress = .ok next) : P next [] := by
  refine foldlM_keeps (m := Except _) (fun progress argument next arguments added => ?_) holds done
  exact keeps progress argument next arguments (step_of_add added)

end Progress
end PathRules.Arguments
