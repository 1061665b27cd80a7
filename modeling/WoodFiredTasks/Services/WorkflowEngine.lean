import WoodFiredTasks.Services.TaskService

set_option autoImplicit false

/-! # The workflow engine

`src/services/workflow-engine.ts`: when a task becomes done, complete its parent if all of the
parent's children are done, and unblock the tasks all of whose blockers are done. The engine
makes these changes through `updateTask`, whose `task.status_changed` event calls the engine
again; `cascadeDepth` bounds that recursion. The model's recursion is on fuel besides, and
`Cascade.lean` shows that six units are never used up. -/

namespace WoodFiredTasks

namespace WorkflowEngine

/-- `MAX_CASCADE_DEPTH`. -/
def maxCascadeDepth : Nat := 5

/-- `cascadeDepth++; try { p } finally { cascadeDepth-- }`. -/
def deeper (p : M Unit) : M Unit :=
  Prog.bracket (fun w => { w with cascadeDepth := w.cascadeDepth + 1 })
    (fun w => { w with cascadeDepth := w.cascadeDepth - 1 }) p

/-- `if (this.cascadeDepth >= MAX_CASCADE_DEPTH) return;` and then `p`. -/
def unlessTooDeep (p : M Unit) : M Unit :=
  Prog.withState fun w => if maxCascadeDepth ≤ w.cascadeDepth then pure () else p

section Handlers

/-- `taskService.updateTask(id, { status }, 'workflow')`, with the engine's own listener. -/
def updateStatus (listener : Listener) (id : Nat) (status : TaskStatus) : M Unit :=
  TaskService.updateTask listener id { status := some status } .workflow none >>= fun _ => pure ()

variable (listener : Listener)

/-- The two-step or one-step move of a parent to done. -/
def completeParent (parentId : Nat) (parent : Task) : M Unit :=
  match parent.status with
  | .open =>
    if .inProgress ∈ validStatusTransitions .open then
      updateStatus listener parentId .inProgress >>= fun _ =>
        if .done ∈ validStatusTransitions .inProgress then updateStatus listener parentId .done
        else pure ()
    else pure ()
  | .inProgress =>
    if .done ∈ validStatusTransitions .inProgress then updateStatus listener parentId .done
    else pure ()
  | _ => pure ()

/-- `handleParentAutoComplete`. -/
def handleParentAutoComplete (task : Task) : M Unit :=
  match presentId task.parentTaskId with
  | none => pure ()
  | some parentId => unlessTooDeep <|
    TaskRepository.findChildren parentId >>= fun siblings =>
      if siblings.all Task.isDone then
        TaskRepository.findById parentId >>= fun
          | none => pure ()
          | some parent =>
            if parent.isDone then pure ()
            else deeper (completeParent listener parentId parent)
      else pure ()

/-- `allBlockers.every(…)`, which reads one blocker after the other until one is not done. -/
def everyBlockerDone : List Dependency → M Bool
  | [] => pure true
  | blocker :: rest =>
    TaskRepository.findById blocker.taskId >>= fun blockerTask =>
      if blockerTask.any Task.isDone then everyBlockerDone rest else pure false

/-- The body of the loop of `handleDependencyAutoUnblock`. -/
def unblockDependent (dep : Dependency) : M Unit :=
  TaskRepository.findById dep.blocksTaskId >>= fun
    | none => pure ()
    | some blockedTask =>
      if blockedTask.status = .blocked then
        DependencyRepository.findBlockingTask dep.blocksTaskId >>= fun allBlockers =>
          everyBlockerDone allBlockers >>= fun allBlockersDone =>
            if allBlockersDone then deeper (updateStatus listener dep.blocksTaskId .open)
            else pure ()
      else pure ()

/-- `handleDependencyAutoUnblock`. -/
def handleDependencyAutoUnblock (task : Task) : M Unit :=
  unlessTooDeep <|
    DependencyRepository.findByTaskId task.id >>= fun dependenciesWhereThisBlocks =>
      Prog.forEach dependenciesWhereThisBlocks (unblockDependent listener)

/-- The body of `processCascade`'s `try`. -/
def cascadeBody (task : Task) : M Unit :=
  if task.isDone then
    Prog.withState fun w =>
      if maxCascadeDepth ≤ w.cascadeDepth then
        Prog.modify fun w => { w with depthLimitHit := true }
      else if w.cascadeError.isSome then pure ()
      else
        handleParentAutoComplete listener task >>= fun _ =>
          handleDependencyAutoUnblock listener task
  else pure ()

/-- `this.cascadeError = error`. -/
def recordError (error : Err) : M Unit :=
  Prog.modify fun w => { w with cascadeError := some error }

/-- `processCascade`. -/
def processCascade (event : BusEvent) : M Unit :=
  Prog.tryCatch (cascadeBody listener event.data) recordError

/-- `this.cascadeError = null`. -/
def clearError : M Unit := Prog.modify fun w => { w with cascadeError := none }

/-- The end of the cascade's transaction: an error swallowed on the way is thrown again. -/
def rethrow : M Unit :=
  Prog.withState fun w =>
    match w.cascadeError with
    | some err => clearError >>= fun _ => raise err
    | none => pure ()

/-- The cascade with its database transaction and its event buffer. -/
def cascadeTx (event : BusEvent) : M Unit :=
  runInTransaction (transaction (processCascade listener event >>= fun _ => rethrow))

/-- `handleStatusChanged`, given the listener that the cascade's own events reach. -/
def handle (event : BusEvent) : M Unit :=
  Prog.withState fun w =>
    if w.cascadeDepth = 0 then
      Prog.tryCatch (cascadeTx listener event) fun _ => clearError
    else processCascade listener event

end Handlers

/-- A handler, subscribed to `task.status_changed` only. -/
def onStatusChanged (handler : Listener) : Listener := fun event =>
  if event.eventType = .taskStatusChanged then handler event else pure ()

/-- `handleStatusChanged`, with fuel for the recursion through the event bus. -/
def handleStatusChanged : Nat → Listener
  | 0 => fun _ => pure ()
  | fuel + 1 => handle (onStatusChanged (handleStatusChanged fuel))

/-- The engine as the program subscribes it. -/
def engine : Listener := onStatusChanged (handleStatusChanged (maxCascadeDepth + 1))

end WorkflowEngine

end WoodFiredTasks
