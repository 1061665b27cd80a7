import WoodFiredTasks.Services.ProjectService
import WoodFiredTasks.Services.TaskService
import WoodFiredTasks.Services.WsjfRescore

set_option autoImplicit false

/-! # The task tools

The handlers of `create_task` and `update_task` of `src/mcp/tools/task-tools.ts`, between the scope
check in front of them and the answer they format. A submission is put through the gate on a text
that each handler builds by its own rule, and the score that comes out is handed to the service. -/

namespace WoodFiredTasks

/-- `ProjectService.getProject`. -/
def ProjectService.getProject (id : Nat) : M Project :=
  ProjectRepository.findById id >>= fun
    | some project => pure project
    | none => raise (.notFound "Project" id.repr)

namespace TaskTools

open TaskService (autoSource)

/-- `parts.filter((s) => typeof s === 'string').join('\n')`. -/
def joinTexts (parts : List (Option String)) : String := "\n".intercalate (parts.filterMap id)

/-- `sourceText` of `create_task`. -/
def createSourceText (input : CreateTaskInput) : String :=
  joinTexts [some input.title, input.description, input.acceptanceCriteria]

/-- `sourceText` of `update_task`: `updates[field] ?? existing[field]`, so that a field that is set
    to null falls back on the stored one. -/
def updateSourceText (updates : UpdateTaskInput) (existing : Task) : String :=
  joinTexts [some (updates.title.getD existing.title),
    updates.description.join.or existing.description,
    updates.acceptanceCriteria.join.or existing.acceptanceCriteria]

/-- `submissionToWsjfWrite`. -/
def submissionToWsjfWrite (env : Env) (submission : ScoreSubmission)
    (charter : Option ValueCharter) (sourceText : String)
    (trigger : Option WsjfHistoryTrigger) : Except Err WsjfWriteDTO :=
  match validateScoreSubmission env submission { charter, sourceText := some sourceText } with
  | .error errors => .error (.validation [("wsjf", errors.map .text)])
  | .ok components =>
    .ok
      { toPerComponent := components
        classifications := some submission.classification
        features := some submission.features
        evidence := some submission.classification.evidence
        source := some autoSource
        trigger := trigger }

/-- The gate of a handler: the charter of the project is read for it. -/
def gateSubmission (projectId : Nat) (submission : ScoreSubmission) (sourceText : String)
    (trigger : Option WsjfHistoryTrigger) : M WsjfWriteDTO := do
  let project ← ProjectService.getProject projectId
  let env ← Prog.gets fun w => w.env
  raiseError (submissionToWsjfWrite env submission project.valueCharter sourceText trigger)

/-- The input that `create_task` hands to the service. -/
def createTaskInput (input : CreateTaskInput) (submission : Option ScoreSubmission)
    (wsjfTrigger : Option WsjfHistoryTrigger) (actorUserId : Option Nat) : M CreateTaskInput := do
  let input := { input with createdByUserId := actorUserId, assigneeUserId := none }
  match submission with
  | none => pure input
  | some submission =>
    gateSubmission input.projectId submission (createSourceText input)
      (some (wsjfTrigger.getD .singleCreate)) >>= fun wsjf => pure { input with wsjf := some wsjf }

/-- `create_task`. -/
def createTask (bypass : Listener) (input : CreateTaskInput) (submission : Option ScoreSubmission)
    (wsjfTrigger : Option WsjfHistoryTrigger) (actorUserId : Option Nat) : M Task :=
  createTaskInput input submission wsjfTrigger actorUserId >>= TaskService.createTask bypass

/-- The updates that `update_task` hands to the service. `resolveAssigneeUserId` looks an e-mail
    address up among the users. -/
def updateTaskInput (resolveAssigneeUserId : Option String → Option Nat) (id : Nat)
    (updates : UpdateTaskInput) (submission : Option ScoreSubmission) : M UpdateTaskInput := do
  let updates := { updates with assigneeUserId := updates.assignee.map resolveAssigneeUserId }
  match submission with
  | none => pure updates
  | some submission =>
    requireTask id >>= fun existing =>
      gateSubmission existing.projectId submission (updateSourceText updates existing) none >>=
        fun wsjf => pure { updates with wsjf := some (some wsjf) }

/-- `update_task`. -/
def updateTask (bypass : Listener) (resolveAssigneeUserId : Option String → Option Nat) (id : Nat)
    (updates : UpdateTaskInput) (submission : Option ScoreSubmission) (actorUserId : Option Nat) :
    M Task :=
  updateTaskInput resolveAssigneeUserId id updates submission >>= fun updates =>
    TaskService.updateTask bypass id updates .user (actorUserId.map Nat.repr)

/-! ## What the gate has seen -/

/-- A submission that passes has the components of the gate. -/
theorem submissionToWsjfWrite_ok {env : Env} {submission : ScoreSubmission}
    {charter : Option ValueCharter} {sourceText : String} {trigger : Option WsjfHistoryTrigger}
    {w : WsjfWriteDTO}
    (h : submissionToWsjfWrite env submission charter sourceText trigger = .ok w) :
    validateScoreSubmission env submission { charter, sourceText := some sourceText } =
      .ok w.toPerComponent := by
  unfold submissionToWsjfWrite at h
  split at h
  · cases h
  · rename_i components hgate
    obtain rfl := Except.ok.inj h
    exact hgate

theorem getProject_spec (id : Nat) : Spec (ProjectService.getProject id)
    (fun v project db => v.db.projects.find? id = some project ∧ db = v.db) Unchanged :=
  Spec.queryOr (fun _ => rfl) rfl

theorem gateSubmission_spec (projectId : Nat) (submission : ScoreSubmission) (sourceText : String)
    (trigger : Option WsjfHistoryTrigger) :
    Spec (gateSubmission projectId submission sourceText trigger)
      (fun v w db => validateScoreSubmission v.env submission
        { charter := v.db.charter? projectId, sourceText := some sourceText } =
          .ok w.toPerComponent ∧ db = v.db) Unchanged := by
  refine (Spec.bindUnchanged (getProject_spec projectId) fun project =>
    Spec.bindUnchanged (Spec.gets _ View.env fun _ => rfl) fun env =>
      Spec.raiseError _).post ?_
  intro v w db h
  obtain ⟨project, hfound, _, rfl, hgate, hdb⟩ := h
  rw [Db.charter?, hfound]
  exact ⟨submissionToWsjfWrite_ok hgate, hdb⟩

/-- `create_task` hands on the components that the gate computes from its own text. -/
theorem createTaskInput_spec (input : CreateTaskInput) (submission : ScoreSubmission)
    (wsjfTrigger : Option WsjfHistoryTrigger) (actorUserId : Option Nat) :
    Spec (createTaskInput input (some submission) wsjfTrigger actorUserId)
      (fun v handed db => (∃ w, handed.wsjf = some w ∧ validateScoreSubmission v.env submission
        { charter := v.db.charter? input.projectId
          sourceText := some (createSourceText input) } = .ok w.toPerComponent) ∧ db = v.db)
      Unchanged := by
  refine (Spec.bindUnchanged (gateSubmission_spec _ submission _ _) fun w =>
    Spec.pure _).post ?_
  intro v handed db h
  obtain ⟨w, hgate, rfl, hdb⟩ := h
  exact ⟨⟨w, rfl, hgate⟩, hdb⟩

/-- `update_task` hands on those of its text, on the row and the charter as they are stored. -/
theorem updateTaskInput_spec (resolveAssigneeUserId : Option String → Option Nat) (id : Nat)
    (updates : UpdateTaskInput) (submission : ScoreSubmission) :
    Spec (updateTaskInput resolveAssigneeUserId id updates (some submission))
      (fun v handed db => (∃ row w, v.db.tasks.find? id = some row ∧
        handed.wsjf = some (some w) ∧ validateScoreSubmission v.env submission
          { charter := v.db.charter? row.projectId
            sourceText := some (updateSourceText updates row.inflate) } = .ok w.toPerComponent) ∧
        db = v.db) Unchanged := by
  refine (Spec.bindUnchanged (requireTask_spec id) fun existing =>
    Spec.bindUnchanged (gateSubmission_spec existing.projectId submission _ none) fun w =>
      Spec.pure _).post ?_
  intro v handed db h
  obtain ⟨_, ⟨row, hrow, rfl⟩, w, hgate, rfl, hdb⟩ := h
  exact ⟨⟨row, w, hrow, rfl, hgate⟩, hdb⟩

end TaskTools

end WoodFiredTasks
