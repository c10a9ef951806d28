import PathRules.Plan
import PathRules.Proofs.Outcomes

/-!
# Results and warnings of plans

A plan in two parts ends as its second part does, unless the first one fails, and its warnings are
those of the parts in a row. What later modules know of a plan, they know by these laws.
-/

namespace PathRules

/-- The text of the file that a path names on the disk. -/
def Disk.textAt (disk : Disk) (path : Text) : Except ReadProblem Text :=
  match disk.read path with
  | .error problem => .error problem
  | .ok bytes =>
    match Text.ofUtf8? bytes with
    | some text => .ok text
    | none => .error .invalidUtf8

theorem Disk.textAt_of_isFile {disk : Disk} {path : Text} {problem : ReadProblem}
    (isFile : disk.isFile path = true) (failed : disk.textAt path = .error problem) :
    problem = .invalidUtf8 := by
  unfold Disk.isFile at isFile
  unfold Disk.textAt Disk.read at failed
  cases found : disk.find path with
  | error other => simp [found] at isFile
  | ok node =>
    cases node with
    | directory entries => simp [found, Node.isFile] at isFile
    | file bytes =>
      simp only [found] at failed
      split at failed
      · cases failed
      · exact (Except.error.inj failed).symm

/-- The warnings among the notices of a run. -/
def Record.warnings {α : Type} (record : Record α) : List Text :=
  record.notices.filterMap Notice.warning?

namespace Plan

variable {α β : Type} {disk : Disk}

/-! ### Results -/

theorem result_bind_ok {plan : Plan α} {next : α → Plan β} {value : α}
    (first : (plan.run disk).result = .ok value) :
    ((plan >>= next).run disk).result = ((next value).run disk).result := by
  rw [run_bind, Record.andThen, first]

theorem result_bind_error {plan : Plan α} {next : α → Plan β} {fault : Fault}
    (first : (plan.run disk).result = .error fault) :
    ((plan >>= next).run disk).result = .error fault := by
  rw [run_bind, Record.andThen, first]

theorem result_bind_eq_ok {plan : Plan α} {next : α → Plan β} {value : β} :
    ((plan >>= next).run disk).result = .ok value ↔
      ∃ middle, (plan.run disk).result = .ok middle ∧
        ((next middle).run disk).result = .ok value := by
  cases first : (plan.run disk).result with
  | error fault => simp [result_bind_error first]
  | ok middle => simp [result_bind_ok first]

theorem result_bind_eq_error {plan : Plan α} {next : α → Plan β} {fault : Fault} :
    ((plan >>= next).run disk).result = .error fault ↔
      (plan.run disk).result = .error fault ∨
        ∃ middle, (plan.run disk).result = .ok middle ∧
          ((next middle).run disk).result = .error fault := by
  cases first : (plan.run disk).result with
  | error other => simp [result_bind_error first]
  | ok middle => simp [result_bind_ok first]

@[simp] theorem result_note (notice : Notice) :
    ((Plan.note notice).run disk).result = .ok () := rfl

theorem run_ofExcept (ending : Except Fault α) :
    (Plan.ofExcept ending).run disk = ⟨[], ending⟩ := by
  cases ending <;> rfl

@[simp] theorem result_ofExcept (ending : Except Fault α) :
    ((Plan.ofExcept ending).run disk).result = ending := by
  rw [run_ofExcept]

@[simp] theorem result_request_bind (request : Request) (next : request.Answer → Plan β) :
    ((Plan.request request >>= next).run disk).result =
      ((next (disk.answer request)).run disk).result := rfl

theorem result_isFile_bind {path : Text} {answer : Bool} (answered : disk.isFile path = answer)
    (next : Bool → Plan β) :
    ((Plan.request (.isFile path) >>= next).run disk).result =
      ((next answer).run disk).result := by
  subst answered
  rfl

theorem result_has_bind {path : Text} {answer : Bool} (answered : disk.has path = answer)
    (next : Bool → Plan β) :
    ((Plan.request (.has path) >>= next).run disk).result = ((next answer).run disk).result := by
  subst answered
  rfl

@[simp] theorem result_note_bind (notice : Notice) (next : Unit → Plan β) :
    ((Plan.note notice >>= next).run disk).result = ((next ()).run disk).result := rfl

theorem result_readText (path : Text) :
    ((readText path).run disk).result = (disk.textAt path).mapError (.io path) := by
  unfold readText Disk.textAt
  rw [result_request_bind]
  simp only [Disk.answer]
  cases disk.read path with
  | error problem => rfl
  | ok bytes =>
    dsimp only
    cases Text.ofUtf8? bytes <;> rfl

theorem readText_of_readable {path content : Text} (text : disk.textAt path = .ok content) :
    ((readText path).run disk).result = .ok content := by
  rw [result_readText, text]
  rfl

theorem readText_of_unreadable {path : Text} {problem : ReadProblem}
    (unread : disk.textAt path = .error problem) :
    ((readText path).run disk).result = .error (.io path problem) := by
  rw [result_readText, unread]
  rfl

/-! ### Warnings -/

theorem warnings_bind (plan : Plan α) (next : α → Plan β) :
    ((plan >>= next).run disk).warnings = (plan.run disk).warnings ++
      match (plan.run disk).result with
      | .ok value => ((next value).run disk).warnings
      | .error _ => [] := by
  rw [run_bind]
  unfold Record.andThen Record.warnings
  cases (plan.run disk).result <;> simp

theorem warnings_bind_ok {plan : Plan α} {next : α → Plan β} {value : α}
    (first : (plan.run disk).result = .ok value) :
    ((plan >>= next).run disk).warnings =
      (plan.run disk).warnings ++ ((next value).run disk).warnings := by
  rw [warnings_bind, first]

theorem warnings_bind_error {plan : Plan α} {next : α → Plan β} {fault : Fault}
    (first : (plan.run disk).result = .error fault) :
    ((plan >>= next).run disk).warnings = (plan.run disk).warnings := by
  rw [warnings_bind, first]
  simp

@[simp] theorem warnings_request (request : Request) :
    ((Plan.request request).run disk).warnings = [] := rfl

@[simp] theorem warnings_request_bind (request : Request) (next : request.Answer → Plan β) :
    ((Plan.request request >>= next).run disk).warnings =
      ((next (disk.answer request)).run disk).warnings := rfl

@[simp] theorem warnings_ofExcept (ending : Except Fault α) :
    ((Plan.ofExcept ending).run disk).warnings = [] := by
  rw [run_ofExcept]
  rfl

@[simp] theorem warnings_note (notice : Notice) :
    ((Plan.note notice).run disk).warnings = notice.warning?.toList := by
  cases told : notice.warning? <;> simp [Record.warnings, Plan.note, run, told]

/-- Parts without warnings make a whole without warnings. -/
theorem warnings_bind_eq_nil {plan : Plan α} {next : α → Plan β}
    (first : (plan.run disk).warnings = [])
    (second : ∀ value, ((next value).run disk).warnings = []) :
    ((plan >>= next).run disk).warnings = [] := by
  rw [warnings_bind, first]
  split
  · exact second _
  · rfl

/-- A whole warns as its first part does, if the second part does not warn. -/
theorem warnings_bind_of_nil {plan : Plan α} {next : α → Plan β}
    (second : ∀ value, ((next value).run disk).warnings = []) :
    ((plan >>= next).run disk).warnings = (plan.run disk).warnings := by
  rw [warnings_bind]
  split
  · rw [second, List.append_nil]
  · rw [List.append_nil]

theorem warnings_readText (path : Text) : ((readText path).run disk).warnings = [] := by
  unfold readText
  apply warnings_bind_eq_nil (warnings_request _)
  intro answer
  split
  · rfl
  · split <;> rfl

end Plan
end PathRules
