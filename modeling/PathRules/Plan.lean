import PathRules.Disk
import PathRules.Notice

/-!
# Plans

A plan is a program that asks about files and goes on with the answers, reports notices on the
way, and ends with a value or a fault. It does nothing by itself: `Plan.run` answers its
requests from a disk, and a command line can carry it out on the real one. `run_bind` says that
a plan in two parts runs the second part after the first.
-/

namespace PathRules

/-- What a plan may ask. -/
inductive Request where
  | workingDirectory
  | isFile (path : Text)
  | isDirectory (path : Text)
  | has (path : Text)
  | names (dir : Text)
  | read (path : Text)
  /-- The content of standard input. -/
  | input

@[reducible] def Request.Answer : Request → Type
  | .workingDirectory => Text
  | .isFile _ => Bool
  | .isDirectory _ => Bool
  | .has _ => Bool
  | .names _ => Except ReadProblem (List Text)
  | .read _ => Except ReadProblem ByteArray
  | .input => ByteArray

def Disk.answer (disk : Disk) : (request : Request) → request.Answer
  | .workingDirectory => disk.workingPath
  | .isFile path => disk.isFile path
  | .isDirectory path => disk.isDirectory path
  | .has path => disk.has path
  | .names dir => disk.names dir
  | .read path => disk.read path
  | .input => disk.input

/-- A program over files that ends with a value or a fault. -/
inductive Plan (α : Type) where
  | done (value : α)
  | fail (fault : Fault)
  | report (notice : Notice) (next : Plan α)
  | ask (request : Request) (next : request.Answer → Plan α)

/-- What running a plan leaves: the notices in order, and how it ended. -/
structure Record (α : Type) where
  notices : List Notice
  result : Except Fault α

/-- A record, followed by the one of what goes on with its value. -/
def Record.andThen {α β : Type} (record : Record α) (next : α → Record β) : Record β :=
  match record.result with
  | .ok value => ⟨record.notices ++ (next value).notices, (next value).result⟩
  | .error fault => ⟨record.notices, .error fault⟩

namespace Plan

protected def bind {α β : Type} (plan : Plan α) (next : α → Plan β) : Plan β :=
  match plan with
  | .done value => next value
  | .fail fault => .fail fault
  | .report notice rest => .report notice (rest.bind next)
  | .ask request rest => .ask request fun answer => (rest answer).bind next

instance : Monad Plan where
  pure := .done
  bind := Plan.bind

def run {α : Type} (disk : Disk) : Plan α → Record α
  | .done value => ⟨[], .ok value⟩
  | .fail fault => ⟨[], .error fault⟩
  | .report notice next =>
    let record := next.run disk
    ⟨notice :: record.notices, record.result⟩
  | .ask request next => (next (disk.answer request)).run disk

theorem run_bind {α β : Type} (disk : Disk) (plan : Plan α) (next : α → Plan β) :
    (plan >>= next).run disk = (plan.run disk).andThen fun value => (next value).run disk := by
  change (plan.bind next).run disk = _
  induction plan with
  | done => rfl
  | fail => rfl
  | report notice rest ih =>
    simp only [Plan.bind, run, ih, Record.andThen]
    split <;> rfl
  | ask request rest ih => exact ih _

@[simp] theorem run_pure {α : Type} (disk : Disk) (value : α) :
    (pure value : Plan α).run disk = ⟨[], .ok value⟩ := rfl

def request (request : Request) : Plan request.Answer := .ask request .done

def note (notice : Notice) : Plan Unit := .report notice (.done ())

def ofExcept {α : Type} : Except Fault α → Plan α
  | .ok value => .done value
  | .error fault => .fail fault

def readText (path : Text) : Plan Text := do
  match ← request (.read path) with
  | .error problem => .fail (.io path problem)
  | .ok bytes =>
    match Text.ofUtf8? bytes with
    | some text => pure text
    | none => .fail (.io path .invalidUtf8)

end Plan
end PathRules
