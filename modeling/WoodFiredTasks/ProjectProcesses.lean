import WoodFiredTasks.Services.ProjectService
import WoodFiredTasks.SharedCalls

set_option autoImplicit false

/-! # Processes that change projects

`createProject` and `updateProject` in any number of processes on one database. `updateProject`
reads the row, looks up a new name and writes in three segments; an overwrite of a charter is one
transaction, so one segment, and any other update is followed by a read of the row. -/

namespace WoodFiredTasks

open ProjectService

inductive ProjectCall where
  | createProject (input : CreateProjectInput)
  | updateProject (id : Nat) (input : UpdateProjectInput) (actor : ProjectUpdateActor)
  deriving DecidableEq

/-- Where a process stands in a call. -/
inductive ProjectPoint where
  | start (call : ProjectCall)
  | insertRow (input : CreateProjectInput)
  | createdReload (id : Nat)
  | nameCheck (id : Nat) (existing : Project) (input : UpdateProjectInput)
      (actor : ProjectUpdateActor)
  | updateWrite (id : Nat) (existing : Project) (input : UpdateProjectInput)
      (actor : ProjectUpdateActor)
  | updatedReload (id : Nat)
  deriving DecidableEq

namespace ProjectPoint

/-- The program up to the next point, or to the end of the call. -/
def segment : ProjectPoint → M (Option ProjectPoint)
  | .start (.createProject input) =>
    ProjectService.readCreate input >>= fun _ => pure (some (.insertRow input))
  | .start (.updateProject id input actor) =>
    ProjectService.readUpdate id input >>= fun existing =>
      pure (some (.nameCheck id existing input actor))
  | .insertRow input =>
    ProjectRepository.insert input >>= fun id => pure (some (.createdReload id))
  | .createdReload id => ProjectRepository.reloadCreated id >>= fun _ => pure none
  | .nameCheck id existing input actor =>
    checkName existing input >>= fun _ => pure (some (.updateWrite id existing input actor))
  | .updateWrite id existing input actor =>
    match charterOverwrite existing input with
    | some (new, prior) => overwrite id new prior input actor >>= fun _ => pure none
    | none => ProjectRepository.updateRow id input >>= fun _ => pure (some (.updatedReload id))
  | .updatedReload id => ProjectRepository.reloadUpdated id >>= fun _ => pure none

/-- What the write of `updateProject` leaves behind: an overwrite has its snapshot. -/
def written (now : Nat) (db : Db) (id : Nat) (existing : Project) (input : UpdateProjectInput)
    (actor : ProjectUpdateActor) : Db :=
  match charterOverwrite existing input with
  | some (new, prior) =>
    (db.appendCharter (snapshot id new prior actor) now).applyProjectUpdate id input
  | none => db.applyProjectUpdate id input

/-- What the segment from a point does to the database when it ends normally. -/
def Effect (now : Nat) (db db' : Db) : ProjectPoint → Prop
  | .insertRow input => db' = db.insertProject input
  | .updateWrite id existing input actor => db' = written now db id existing input actor
  | _ => db' = db

theorem leaves_segment (point : ProjectPoint) :
    Leaves point.segment fun v _ db => point.Effect v.now v.db db := by
  -- what is left to say of a segment that ends with one more point
  have hthen : ∀ {α : Type} {p : M α} {f : α → Option ProjectPoint} {Q : View → Db → Prop},
      Spec p (fun v _ db => Q v db) Unchanged →
      Leaves (p >>= fun a => pure (f a)) fun v _ db => Q v db := by
    intro α p f Q hp
    refine hp.leavesThen.post ?_
    intro v _ db h
    exact h.choose_spec.1
  cases point with
  | start call =>
    cases call with
    | createProject input => exact hthen (ProjectService.readCreate_spec input)
    | updateProject id input actor =>
      exact hthen ((ProjectService.readUpdate_spec id input).post fun _ _ _ h => h.2)
  | insertRow input => exact hthen ((insert_spec input).post fun _ _ _ h => h.2)
  | createdReload id => exact hthen (reloadCreated_spec id)
  | nameCheck id existing input actor => exact hthen (checkName_spec existing input)
  | updateWrite id existing input actor =>
    simp only [segment, Effect, written]
    cases charterOverwrite existing input with
    | none => exact hthen (updateRow_spec id input)
    | some pair =>
      obtain ⟨new, prior⟩ := pair
      exact hthen (overwrite_spec id new prior input actor)
  | updatedReload id => exact hthen ((reloadUpdated_spec id).post fun _ _ _ h => h.2)

end ProjectPoint

/-- The calls that change projects. -/
def projectCalls : Repertoire ProjectCall ProjectPoint where
  start := .start
  segment := ProjectPoint.segment

/-- Processes that change projects, on one database. -/
abbrev ProjectSys := Shared Nat ProjectPoint

abbrev ProjectAction := Shared.Action Nat ProjectCall

end WoodFiredTasks
