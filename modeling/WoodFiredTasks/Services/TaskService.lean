import WoodFiredTasks.Events.EventBus
import WoodFiredTasks.Schemas.TaskSchema
import WoodFiredTasks.Services.DependencyService
import WoodFiredTasks.Services.EvidenceValidation
import WoodFiredTasks.Services.Wsjf

set_option autoImplicit false

/-! # The task service

The calls of `src/services/task.service.ts`. A call that runs several statements outside a
transaction is put together from one program per statement or transaction, so that its pieces
can also be run with other processes' statements in between: `updateTask` is
`readUpdate`, `writeUpdate`, `resizeAfterUpdate`, `announceUpdate`, and `claimTask` is
`claimRead` and then `claimFresh` or a renewal. -/

namespace WoodFiredTasks

namespace TaskService

/-! ## Sizing and scoring -/

/-- The source map of a size-only write. -/
def autoSource : WsjfSource := ⟨.auto, .auto, .auto, .auto⟩

/-- `assertMinutesTierConsistency`. -/
def assertMinutesTierConsistency (estimatedMinutes : Option Nat) (wsjf : Option WsjfWriteDTO) :
    Except Err Unit :=
  match estimatedMinutes, wsjf with
  | some minutes, some w =>
    if (w.source.map (·.jobSize)) = some .auto ∨ minutesToTier (some minutes) = w.jobSize then .ok ()
    else
      let tier := (minutesToTier (some minutes)).toNat
      let given := w.jobSize.toNat
      .error (.validation [("wsjf", [.text
        (s!"estimated_minutes {minutes} maps to job-size tier {tier}, " ++
          s!"but the supplied wsjf.jobSize is {given}. These disagree: " ++
          "either correct estimated_minutes so minutesToTier matches the tier, " ++
          s!"or set wsjf.jobSize to {tier}.")])])
  | _, _ => .ok ()

/-- The manual gate of creates and updates. -/
def assertManualScore (wsjf : Option WsjfWriteDTO) : Except Err Unit :=
  match wsjf with
  | some w =>
    let errors := validateManualScore w.toPerComponent
    if w.manual = true ∧ errors ≠ [] then .error (.validation [("wsjf", errors.map .text)])
    else .ok ()
  | none => .ok ()

/-- The history record of a size-only write. -/
def autoSizeRecord (task : Task) (jobSize : Fib) (prevWsjfScore : Option ℚ)
    (trigger : WsjfHistoryTrigger := .autoSize) : WsjfHistoryRecord where
  taskId := task.id
  projectId := task.projectId
  trigger := trigger
  jobSize := some jobSize
  prevWsjfScore := prevWsjfScore
  source := some autoSource

/-- The transaction of `autoSizeTask`: the size and its history row. -/
def autoSizeWrite (taskId : Nat) (existing : Task) (jobSize : Fib)
    (trigger : WsjfHistoryTrigger := .autoSize) : M Task :=
  transaction do
    let updated ← TaskRepository.writeAutoJobSize taskId jobSize autoSource
    appendHistory (autoSizeRecord updated jobSize existing.wsjf.currentScore trigger)
    pure updated

/-- `autoSizeTask`. -/
def autoSizeTask (taskId : Nat) (jobSize : Fib) (trigger : WsjfHistoryTrigger := .autoSize) :
    M Task := do
  let existing ← requireTask taskId
  autoSizeWrite taskId existing jobSize trigger

/-! ## Creating and deleting -/

/-- The gate on `decomp-*` tags. -/
def assertDecomposeSized (input : CreateTaskInput) : Except Err Unit :=
  match input.tags.find? fun tag => "decomp-".toList.isPrefixOf tag.toList with
  | some tag =>
    if input.wsjf.isNone then
      .error (.validation [("wsjf_submission", [.text
        (s!"Task carries the decompose tag '{tag}' but no 'wsjf_submission'. " ++
          "Decompose-materialized tasks MUST be sized: re-run decompose Step 8 to " ++
          "produce a 'wsjf_submission' for this task before creating it.")])])
    else .ok ()
  | none => .ok ()

/-- Everything `createTask` checks on its input alone, before any statement. -/
def checkCreate (env : Env) (input : CreateTaskInput) : Except Err Unit := do
  TaskSchema.parse (TaskSchema.createTask env input)
  assertDecomposeSized input

/-- `projectRepo.findById` and the parent checks of `createTask`. -/
def checkCreateReferences (input : CreateTaskInput) : M Unit := do
  let project ← query fun db => db.projects.find? input.projectId
  match project with
  | none => raise (.business s!"Project with id {input.projectId} does not exist")
  | some _ =>
    match input.parentTaskId with
    | none => pure ()
    | some parentId => do
      let parentTask ← TaskRepository.findById parentId
      match parentTask with
      | none => raise (.business s!"Parent task with id {parentId} does not exist")
      | some parent =>
        if parent.projectId ≠ input.projectId then
          raise (.business "Parent task must be in the same project")
        else pure ()

/-- `createDto`: the status is always `open`. -/
def CreateTaskInput.dto (input : CreateTaskInput) : CreateTaskDTO where
  title := input.title
  description := input.description
  status := .open
  priority := input.priority
  projectId := input.projectId
  parentTaskId := input.parentTaskId
  estimatedMinutes := input.estimatedMinutes
  assignee := input.assignee
  createdBy := input.createdBy
  dueDate := input.dueDate
  createdByUserId := input.createdByUserId
  assigneeUserId := input.assigneeUserId
  acceptanceCriteria := input.acceptanceCriteria
  wsjf := input.wsjf

/-- Everything `createTask` does before it writes. -/
def readCreate (input : CreateTaskInput) : M Unit := do
  let env ← Prog.gets fun w => w.env
  raiseError (checkCreate env input)
  checkCreateReferences input
  raiseError (assertMinutesTierConsistency input.estimatedMinutes input.wsjf)
  raiseError (assertManualScore input.wsjf)

/-- The insertion of a row without a score. -/
def createRow (input : CreateTaskInput) : M Task :=
  TaskRepository.create (CreateTaskInput.dto input) input.tags

/-- The insertion of a scored row, with its history row in the same transaction. -/
def createScored (input : CreateTaskInput) (w : WsjfWriteDTO) : M Task :=
  let trigger := if w.manual then .manual else w.trigger.getD .create
  transaction do
    let created ← createRow input
    appendHistory (w.record created.id created.projectId trigger none)
    pure created

/-- The insertion: a row without a score is sized right after. -/
def createWrite (input : CreateTaskInput) : M Task :=
  match input.wsjf with
  | some w => createScored input w
  | none => do
    let created ← createRow input
    autoSizeTask created.id (minutesToTier input.estimatedMinutes)

/-- The event of a created or deleted task. -/
def announceTask (bypass : Listener) (eventType : EventType) (task : Task) : M Task := do
  let now ← Prog.gets fun w => w.now
  emit bypass { eventType := eventType, timestamp := now, data := task, source := .user }
  pure task

/-- `createTask`. -/
def createTask (bypass : Listener) (input : CreateTaskInput) : M Task := do
  readCreate input
  let task ← createWrite input
  announceTask bypass .taskCreated task

/-- `deleteTask`. -/
def deleteTask (bypass : Listener) (id : Nat) : M Unit := do
  let existing ← requireTask id
  let _ ← announceTask bypass .taskDeleted existing
  TaskRepository.delete id

/-! ## Updating -/

/-- What `updateTask` checks on its input alone. -/
def checkUpdate (env : Env) (input : UpdateTaskInput) : Except Err Unit := do
  TaskSchema.parse (TaskSchema.updateTask env input)
  if input.blockedBy.isSome ∧ input.status ≠ some .blocked then
    .error (.validation [("blocked_by", [.text
      ("blocked_by is only valid together with status: 'blocked'. " ++
        "To add dependency edges without blocking, use the dependency surface " ++
        "(add_dependency / dep-add) instead.")])])
  else .ok ()

/-- The anti-fabrication gate. -/
def checkEvidence (env : Env) (existing : Task) (input : UpdateTaskInput)
    (callerId : Option String) : Except Err Unit :=
  match input.verificationEvidence.join with
  | some evidence =>
    let violations := validateVerificationEvidence env evidence
      { taskAssignee := existing.assignee
        taskAssigneeUserId := existing.assigneeUserId.map Nat.repr
        callerId := callerId }
    if env.strictEvidence = true ∧ violations ≠ [] then
      .error (.validation [("verification_evidence", violations.map .text)])
    else .ok ()
  | none => .ok ()

/-- `nextStatus`: the new status, if the update changes it. -/
def nextStatus (existing : Task) (input : UpdateTaskInput) : Option TaskStatus :=
  input.status.filter (· ≠ existing.status)

/-- The transition check. -/
def checkTransition (existing : Task) (input : UpdateTaskInput) : Except Err Unit :=
  match nextStatus existing input with
  | none => .ok ()
  | some next =>
    if next ∈ validStatusTransitions existing.status then .ok ()
    else
      let current := existing.status.text
      let wanted := next.text
      let valid := ", ".intercalate ((validStatusTransitions existing.status).map TaskStatus.text)
      .error (.business
        s!"Invalid status transition from '{current}' to '{wanted}'. Valid transitions: {valid}")

/-- `isClosingTransition`. -/
def isClosingTransition (existing : Task) (input : UpdateTaskInput) : Bool :=
  nextStatus existing input = some .done || nextStatus existing input = some .closed

/-- `updatesForRepo`: a closing transition without evidence, of a row without evidence, stores
    the explicit `NOT_VERIFIED` marker. -/
def updatesForRepo (existing : Task) (input : UpdateTaskInput) : UpdateTaskDTO :=
  { input.toUpdateTaskDTO with
    verificationEvidence :=
      if isClosingTransition existing input ∧ input.verificationEvidence = none ∧
          existing.verificationEvidence = none then
        some (some { verdict := .notVerified })
      else input.verificationEvidence }

/-- The checks of `updateTask` against the row it has read. -/
def checkExisting (env : Env) (existing : Task) (input : UpdateTaskInput)
    (callerId : Option String) : Except Err Unit := do
  checkEvidence env existing input callerId
  checkTransition existing input
  assertMinutesTierConsistency input.estimatedMinutes.join input.wsjf.join
  assertManualScore input.wsjf.join

/-- The validation of `updateTask` and its read of the row. -/
def readUpdate (id : Nat) (input : UpdateTaskInput) (callerId : Option String) : M Task := do
  let env ← Prog.gets fun w => w.env
  raiseError (checkUpdate env input)
  let existing ← requireTask id
  raiseError (checkExisting env existing input callerId)
  pure existing

/-- What `readUpdate` returns is the row, and it has passed the checks. -/
theorem readUpdate_spec (id : Nat) (input : UpdateTaskInput) (callerId : Option String) :
    Spec (readUpdate id input callerId)
      (fun v t db => ((∃ row, v.db.tasks.find? id = some row ∧ t = row.inflate) ∧
        checkUpdate v.env input = .ok () ∧ checkExisting v.env t input callerId = .ok ()) ∧
        db = v.db) Unchanged := by
  have henv : Spec (Prog.gets fun w => w.env : M Env) (fun v a db => a = v.env ∧ db = v.db)
    Unchanged := Spec.gets _ View.env fun _ => rfl
  refine (Spec.bindUnchanged henv fun env => Spec.bindUnchanged (Spec.raiseError _) fun _ =>
    Spec.bindUnchanged (requireTask_spec id) fun existing =>
      Spec.bindUnchanged (Spec.raiseError _) fun _ => Spec.pure existing).post ?_
  rintro v t _ ⟨_, rfl, _, hinput, existing, hrow, _, hexisting, rfl, rfl⟩
  exact ⟨⟨hrow, hinput, hexisting⟩, rfl⟩

/-- `performWrite`. -/
def performWrite (existing : Task) (id : Nat) (input : UpdateTaskInput) : M Task :=
  match input.wsjf.join with
  | some w =>
    let trigger := if w.manual then .manual else .update
    transaction do
      let updated ← TaskRepository.update id (updatesForRepo existing input)
      appendHistory (w.record updated.id updated.projectId trigger existing.wsjf.currentScore)
      pure updated
  | none => TaskRepository.update id (updatesForRepo existing input)

/-- The edges of an atomic block: those that are there already are skipped. -/
def addBlockers (id : Nat) (blockerIds : List Nat) : M Unit := do
  let blockers ← DependencyService.getBlockers id
  let alreadyBlocking := blockers.map (·.taskId)
  Prog.forEach blockerIds.eraseDups fun blockerId =>
    if blockerId ∈ alreadyBlocking then pure ()
    else DependencyService.addDependency blockerId id >>= fun _ => pure ()

/-- The write of `updateTask`, with the edges of `blocked_by` in the same transaction. -/
def writeUpdate (existing : Task) (id : Nat) (input : UpdateTaskInput) : M Task :=
  match input.blockedBy with
  | some blockerIds =>
    transaction do
      addBlockers id blockerIds
      performWrite existing id input
  | none => performWrite existing id input

/-- The row written by an update, with what else the call wrote in the same transaction. -/
def Updated (db : Db) (now : Nat) (existing : Task) (id : Nat) (input : UpdateTaskInput) (db' : Db) :
    Prop :=
  ∃ row, db.tasks.find? id = some row ∧
    db.updateTaskError id (updatesForRepo existing input) = none ∧
    (db.applyUpdate id (updatesForRepo existing input) (input.status.map fun _ => row.status) now
      ).SameTasks db' ∧ (db.DependenciesAcyclic → db'.DependenciesAcyclic)

/-- Edges added before the update are not seen by it. -/
theorem Updated.of_edgesAdded {db db' db'' : Db} {now id : Nat} {existing : Task}
    {input : UpdateTaskInput} (hedges : db.EdgesAdded db')
    (h : Updated db' now existing id input db'') : Updated db now existing id input db'' := by
  obtain ⟨row, hrow, hcheck, hsame, hacyclic⟩ := h
  obtain ⟨htasks, hacyclic'⟩ := hedges
  exact ⟨row, htasks.tasks ▸ hrow, (htasks.updateTaskError _ _).symm.trans hcheck,
    htasks.writeTask.trans hsame, hacyclic ∘ hacyclic'⟩

theorem updatesForRepo_status (existing : Task) (input : UpdateTaskInput) :
    (updatesForRepo existing input).status = input.status := rfl

theorem appendHistory_spec (record : WsjfHistoryRecord) : Spec (appendHistory record)
    (fun v _ db => v.db.EdgesAdded db) Unchanged := by
  refine (Spec.statement _ _ _).post ?_
  rintro v _ _ ⟨-, -, rfl⟩
  exact ⟨⟨rfl, rfl, rfl, rfl, rfl⟩, id⟩

theorem performWrite_spec (existing : Task) (id : Nat) (input : UpdateTaskInput) :
    Spec (performWrite existing id input)
      (fun v _ db => Updated v.db v.now existing id input db) Unchanged := by
  have hupdate : Spec (TaskRepository.update id (updatesForRepo existing input))
      (fun v _ db => Updated v.db v.now existing id input db) Unchanged := by
    refine (TaskRepository.update_spec id _).post ?_
    rintro v t _ ⟨row, hrow, hcheck, -, rfl⟩
    refine ⟨row, hrow, hcheck, .refl _, fun h => h.mono fun a b hab => ?_⟩
    rwa [Db.applyUpdate, Db.edges_writeTask] at hab
  rw [performWrite]
  rcases input.wsjf.join with _ | w
  · exact hupdate
  · refine Spec.transaction ((hupdate.bind fun updated => (appendHistory_spec _).bind fun _ =>
      Spec.pure (E := Unchanged) updated).post ?_)
    rintro v _ _ ⟨_, db', ⟨row, hrow, hcheck, hsame, hacyclic⟩, _, db'', ⟨hsame', hacyclic'⟩, -, rfl⟩
    exact ⟨row, hrow, hcheck, hsame.trans hsame', hacyclic' ∘ hacyclic⟩

theorem addBlockers_spec (id : Nat) (blockerIds : List Nat) : Spec (addBlockers id blockerIds)
    (fun v _ db => v.db.EdgesAdded db) fun _ _ => True := by
  have hbody : ∀ (skip : List Nat) (blockerId : Nat),
      Spec (if blockerId ∈ skip then pure ()
        else DependencyService.addDependency blockerId id >>= fun _ => pure ())
        (fun v _ db => v.db.EdgesAdded db) fun _ _ => True := by
    intro skip blockerId
    split
    · exact (Spec.pure ()).post fun _ _ _ ⟨_, hdb⟩ => hdb ▸ .refl _
    · refine ((DependencyService.addDependency_edgesAdded blockerId id).bind fun _ =>
        Spec.pure (E := Unchanged) ()).conseq ?_ fun _ _ _ => trivial
      rintro v _ _ ⟨_, db', h, -, rfl⟩
      exact h
  refine (Spec.bind (Spec.query fun db => db.blockers id) fun blockers =>
    Spec.forEach Db.EdgesAdded.refl
    Db.EdgesAdded.trans _ (hbody (blockers.map (·.taskId)))).conseq ?_ fun _ _ _ => trivial
  rintro v _ db ⟨_, _, ⟨-, rfl⟩, h⟩
  exact h

/-- The write of `updateTask`, which happens as a whole or not at all. -/
theorem writeUpdate_spec (existing : Task) (id : Nat) (input : UpdateTaskInput) :
    Spec (writeUpdate existing id input)
      (fun v _ db => Updated v.db v.now existing id input db) Unchanged := by
  rw [writeUpdate]
  rcases input.blockedBy with _ | blockerIds
  · exact performWrite_spec existing id input
  · refine Spec.transaction (((addBlockers_spec id blockerIds).bind fun _ =>
      performWrite_spec existing id input).post ?_)
    rintro v t db ⟨_, db', hedges, h⟩
    exact h.of_edgesAdded hedges

/-- Does the update change the minutes of a row whose size is still derived from them? -/
def needsResize (existing : Task) (input : UpdateTaskInput) : Bool :=
  input.estimatedMinutes.any (· ≠ existing.estimatedMinutes) &&
    existing.wsjf.source.any (·.jobSize = .auto)

/-- The recomputation of the size after the write. -/
def resizeAfterUpdate (existing : Task) (id : Nat) (input : UpdateTaskInput) (updated : Task) :
    M Task :=
  if needsResize existing input then
    autoSizeTask id (minutesToTier input.estimatedMinutes.join)
  else pure updated

/-- The row sized by `autoSizeWrite`. -/
def Resized (db : Db) (now id : Nat) (jobSize : Fib) (db' : Db) : Prop :=
  (db.tasks.find? id).isSome = true ∧
    (db.writeTask id (Task.autoJobSize jobSize autoSource now)
      (Task.autoJobSize_id jobSize autoSource now)).SameTasks db' ∧
    (db.DependenciesAcyclic → db'.DependenciesAcyclic)

theorem autoSizeWrite_spec (id : Nat) (existing : Task) (jobSize : Fib)
    (trigger : WsjfHistoryTrigger) : Spec (autoSizeWrite id existing jobSize trigger)
      (fun v _ db => Resized v.db v.now id jobSize db) Unchanged := by
  refine Spec.transaction (((TaskRepository.writeAutoJobSize_spec id jobSize autoSource).bind
    fun updated => (appendHistory_spec _).bind fun _ => Spec.pure (E := Unchanged) updated).post ?_)
  rintro v _ _ ⟨_, _, ⟨row, hrow, -, rfl⟩, _, db, ⟨hsame, hacyclic⟩, -, rfl⟩
  refine ⟨by rw [hrow]; rfl, hsame, fun h => hacyclic (h.mono fun a b hab => ?_)⟩
  rwa [Db.edges_writeTask] at hab

theorem autoSizeTask_spec (id : Nat) (jobSize : Fib) (trigger : WsjfHistoryTrigger) :
    Spec (autoSizeTask id jobSize trigger) (fun v _ db => Resized v.db v.now id jobSize db)
      Unchanged := by
  refine (Spec.bindUnchanged (requireTask_spec id) fun existing =>
    autoSizeWrite_spec id existing jobSize trigger).post ?_
  rintro v _ db ⟨_, -, h⟩
  exact h

/-- The recomputation writes the size of the row or nothing. -/
theorem resizeAfterUpdate_spec (existing : Task) (id : Nat) (input : UpdateTaskInput)
    (updated : Task) : Spec (resizeAfterUpdate existing id input updated)
    (fun v _ db => db = v.db ∨
      Resized v.db v.now id (minutesToTier input.estimatedMinutes.join) db) Unchanged := by
  rw [resizeAfterUpdate]
  split
  · exact (autoSizeTask_spec id _ _).post fun _ _ _ h => .inr h
  · exact (Spec.pure updated).post fun _ _ _ h => .inl h.2

/-- The `task.updated` event of an update. -/
def updatedEvent (now : Nat) (updated : Task) (source : EventSource) : BusEvent where
  eventType := .taskUpdated
  timestamp := now
  data := updated
  source := source

/-- The `task.status_changed` event of an update. -/
def statusChangedEvent (now : Nat) (updated : Task) (source : EventSource) (fromStatus toStatus :
    TaskStatus) : BusEvent where
  eventType := .taskStatusChanged
  timestamp := now
  data := updated
  source := source
  fromStatus := some fromStatus
  toStatus := some toStatus

/-- The events of `updateTask`. -/
def announceUpdate (bypass : Listener) (existing updated : Task) (input : UpdateTaskInput)
    (source : EventSource) : M Unit := do
  let now ← Prog.gets fun w => w.now
  emit bypass (updatedEvent now updated source)
  match nextStatus existing input with
  | some next => emit bypass (statusChangedEvent now updated source existing.status next)
  | none => pure ()

/-- `updateTask`. -/
def updateTask (bypass : Listener) (id : Nat) (input : UpdateTaskInput) (source : EventSource)
    (callerId : Option String) : M Task := do
  let existing ← readUpdate id input callerId
  let written ← writeUpdate existing id input
  let updated ← resizeAfterUpdate existing id input written
  announceUpdate bypass existing updated input source
  pure updated

/-! ## Claiming -/

/-- Which of the two conditional updates a claim comes to. -/
inductive ClaimPath where
  | renewal | fresh
  deriving DecidableEq, Repr

/-- JavaScript's truth of a nullable text: NULL and the empty text are false. -/
def truthy (value : Option String) : Bool := value.any (· ≠ "")

/-- The checks of `claimTask` on the row it has read. -/
def claimDecision (taskId : Nat) (assignee : String) (existing : Task) : Except Err ClaimPath :=
  if existing.status = .inProgress ∧ existing.assignee = some assignee then .ok .renewal
  else if existing.status ≠ .open then
    let status := existing.status.text
    .error (.business s!"Task {taskId} cannot be claimed: status is '{status}', must be 'open'")
  else if truthy existing.assignee then
    let holder := existing.assignee.getD ""
    .error (.business s!"Task {taskId} is already claimed by '{holder}'")
  else .ok .fresh

/-- The read of `claimTask` and the checks on it. -/
def claimRead (taskId : Nat) (assignee : String) : M ClaimPath := do
  let existing ← requireTask taskId
  raiseError (claimDecision taskId assignee existing)

/-- The fresh claim. -/
def claimFresh (taskId : Nat) (assignee : String) (assigneeUserId : Option Nat) : M Task :=
  TaskRepository.claimTask taskId assignee assigneeUserId >>= fun
    | some claimed => pure claimed
    | none => raise (.business s!"Task {taskId} is already claimed (concurrent claim detected)")

/-- The error of a renewal that lost a race. -/
def renewalError (taskId : Nat) : Err :=
  .business s!"Task {taskId} claim could not be renewed (claim changed concurrently)"

/-- The renewal. -/
def claimRenew (taskId : Nat) (assignee : String) : M Task :=
  TaskRepository.renewClaim taskId assignee >>= fun
    | some renewed => pure renewed
    | none => raise (renewalError taskId)

/-- The event of a successful claim. -/
def announceClaim (bypass : Listener) (task : Task) (source : EventSource) : M Task := do
  let now ← Prog.gets fun w => w.now
  emit bypass { eventType := .taskClaimed, timestamp := now, data := task, source := source }
  pure task

/-- The conditional update that the checks have chosen. -/
def claimBy (path : ClaimPath) (taskId : Nat) (assignee : String) (assigneeUserId : Option Nat) :
    M Task :=
  match path with
  | .renewal => claimRenew taskId assignee
  | .fresh => claimFresh taskId assignee assigneeUserId

/-- `claimTask`. -/
def claimTask (bypass : Listener) (taskId : Nat) (assignee : String) (source : EventSource)
    (assigneeUserId : Option Nat) : M Task := do
  let path ← claimRead taskId assignee
  let task ← claimBy path taskId assignee assigneeUserId
  announceClaim bypass task source

/-- The event comes after everything that can fail. -/
theorem claimTask_eq (bypass : Listener) (taskId : Nat) (assignee : String) (source : EventSource)
    (user : Option Nat) : claimTask bypass taskId assignee source user =
      (claimRead taskId assignee >>= fun path => claimBy path taskId assignee user) >>= fun task =>
        announceClaim bypass task source := by
  rw [Prog.bind_assoc]
  rfl

theorem claimRead_spec (taskId : Nat) (assignee : String) : Spec (claimRead taskId assignee)
    (fun v path db => (∃ row, v.db.tasks.find? taskId = some row ∧
      claimDecision taskId assignee row.inflate = .ok path) ∧ db = v.db) Unchanged := by
  refine (Spec.bindUnchanged (requireTask_spec taskId) fun existing => Spec.raiseError _).post ?_
  rintro v path db ⟨existing, ⟨row, hrow, rfl⟩, hpath, rfl⟩
  exact ⟨⟨row, hrow, hpath⟩, rfl⟩

/-- A fresh claim changes the row only when it is granted. -/
theorem claimFresh_spec (taskId : Nat) (assignee : String) (user : Option Nat) :
    Spec (claimFresh taskId assignee user)
      (fun v t db => ∃ row, v.db.tasks.find? taskId = some row ∧
        row.assignee = none ∧ row.status = .open ∧
        t = (row.claim assignee user v.now).inflate ∧
        db = v.db.writeTask taskId (Task.claim assignee user v.now)
          (Task.claim_id assignee user v.now)) Unchanged := by
  refine ((TaskRepository.claimTask_spec taskId assignee user).bind
    (R := fun claimed v t db => claimed = some t ∧ db = v.db)
    (F := fun claimed v db => claimed = none ∧ db = v.db) fun claimed => ?_).conseq ?_ ?_
  · cases claimed with
    | none => exact (Spec.raise _).conseq (fun _ _ _ h => h) fun _ _ h => ⟨rfl, h⟩
    | some t => exact (Spec.pure t).post fun _ _ _ ⟨ht, hdb⟩ => ⟨ht ▸ rfl, hdb⟩
  · rintro v t _ ⟨_, _, h, rfl, rfl⟩
    rcases h with ⟨ht, -⟩ | ⟨row, hrow, hassignee, hstatus, ht, rfl⟩
    · cases ht
    · exact ⟨row, hrow, hassignee, hstatus, Option.some.inj ht, rfl⟩
  · rintro v _ (h | ⟨_, _, h, rfl, rfl⟩)
    · exact h
    · rcases h with ⟨-, hdb, -⟩ | ⟨row, -, -, -, ht, -⟩
      · exact hdb
      · cases ht

/-- The row of a task as it is returned by a claim. -/
structure Claimed (db : Db) (taskId : Nat) (assignee : String) (t : Task) : Prop where
  stored : ∃ row, db.tasks.find? taskId = some row ∧ t = row.inflate
  id : t.id = taskId
  assignee : t.assignee = some assignee
  status : t.status = .inProgress

/-- A claim of either kind that ends normally returns the stored row, which is claimed by the
    assignee. -/
theorem claimBy_spec (path : ClaimPath) (taskId : Nat) (assignee : String) (user : Option Nat) :
    Spec (claimBy path taskId assignee user)
      (fun v t db => Claimed db taskId assignee t ∧ db.idempotencyKeys = v.db.idempotencyKeys)
      fun v db => db.idempotencyKeys = v.db.idempotencyKeys := by
  have hunchanged : ∀ (v : View) (db : Db), Unchanged v db →
      db.idempotencyKeys = v.db.idempotencyKeys := fun v db h => congrArg Db.idempotencyKeys h
  cases path with
  | fresh =>
    refine (claimFresh_spec taskId assignee user).conseq ?_ hunchanged
    rintro v t _ ⟨row, hrow, -, -, rfl, rfl⟩
    refine ⟨⟨⟨row.claim assignee user v.now, ?_, rfl⟩, ?_, rfl, rfl⟩, Db.writeTask_idempotencyKeys⟩
    · rw [Db.find?_writeTask_self, hrow, Option.map_some]
    · exact (Table.find?_eq_some.1 hrow).2
  | renewal =>
    -- a renewal may throw between its UPDATE and the reload, so the row may be renewed all the same
    have hreload : ∀ changed : Bool, Spec (if changed then TaskRepository.findById taskId
        else pure none) (fun v t db => (t = if changed then
          (v.db.tasks.find? taskId).map Task.inflate else none) ∧ db = v.db) Unchanged := by
      intro changed
      cases changed with
      | false => exact Spec.pure none
      | true => exact TaskRepository.findById_spec taskId
    have hreturn : ∀ t : Option Task, Spec (match t with
        | some renewed => pure renewed
        | none => raise (renewalError taskId)) (fun v t' db => t = some t' ∧ db = v.db)
        Unchanged := by
      intro t
      cases t with
      | none => exact Spec.raise _
      | some t => exact (Spec.pure t).post fun _ _ _ h => ⟨h.1 ▸ rfl, h.2⟩
    refine (((TaskRepository.renewUpdate_spec taskId assignee).bind hreload).bind
      hreturn).conseq ?_ ?_
    · rintro v t _ ⟨_, _, ⟨changed, db', hrenew, hread, rfl⟩, ht, rfl⟩
      rcases hrenew with ⟨rfl, -⟩ | ⟨rfl, row, hrow, hassignee, hstatus, rfl⟩
      · subst hread
        cases ht
      · rw [if_pos rfl, Db.find?_writeTask_self, hrow, Option.map_some, Option.map_some] at hread
        obtain rfl := Option.some.inj (hread.symm.trans ht)
        refine ⟨⟨⟨row.renew v.now, ?_, rfl⟩, ?_, hassignee, hstatus⟩, Db.writeTask_idempotencyKeys⟩
        · rw [Db.find?_writeTask_self, hrow, Option.map_some]
        · exact (Table.find?_eq_some.1 hrow).2
    · have hkeys : ∀ (v : View) (changed : Bool) (db : Db), ((changed = false ∧ db = v.db) ∨
          changed = true ∧ ∃ row, v.db.tasks.find? taskId = some row ∧ row.assignee = some assignee ∧
            row.status = .inProgress ∧
            db = v.db.writeTask taskId (Task.renew v.now) (Task.renew_id v.now)) →
          db.idempotencyKeys = v.db.idempotencyKeys := by
        rintro v changed db (⟨-, rfl⟩ | ⟨-, row, -, -, -, rfl⟩)
        · rfl
        · exact Db.writeTask_idempotencyKeys
      rintro v db ((h | ⟨changed, db', hrenew, h⟩) | ⟨_, _, ⟨changed, db', hrenew, -, rfl⟩, h⟩)
      · exact hunchanged v db h
      · exact (congrArg Db.idempotencyKeys h).trans (hkeys v changed db' hrenew)
      · exact (congrArg Db.idempotencyKeys h).trans (hkeys v changed _ hrenew)

/-- What the reads of `createTask` establish. -/
def ReferencesOk (db : Db) (input : CreateTaskInput) : Prop :=
  (db.projects.find? input.projectId).isSome = true ∧
    ∀ parentId, input.parentTaskId = some parentId →
      ∃ parent, db.tasks.find? parentId = some parent ∧ parent.projectId = input.projectId

theorem checkCreateReferences_spec (input : CreateTaskInput) : Spec (checkCreateReferences input)
    (fun v _ db => ReferencesOk v.db input ∧ db = v.db) Unchanged := by
  refine (Spec.bindUnchanged (Spec.query _) (R := fun project v _ db => project.isSome = true ∧
    (∀ parentId, input.parentTaskId = some parentId →
      ∃ parent, v.db.tasks.find? parentId = some parent ∧ parent.projectId = input.projectId) ∧
    db = v.db) fun project => ?_).post ?_
  · cases project with
    | none => exact Spec.raise _
    | some project =>
      simp only
      rcases hparent : input.parentTaskId with _ | parentId
      · exact (Spec.pure ()).post fun _ _ _ h => ⟨rfl, (fun _ hid => nomatch hid), h.2⟩
      · refine (Spec.bindUnchanged (TaskRepository.findById_spec parentId)
          (R := fun parent v _ db => (∃ t, parent = some t ∧ t.projectId = input.projectId) ∧
            db = v.db) fun parent => ?_).post ?_
        · cases parent with
          | none => exact Spec.raise _
          | some parent =>
            simp only
            split
            · exact Spec.raise _
            · rename_i hproject
              exact (Spec.pure ()).post fun _ _ _ h => ⟨⟨parent, rfl, not_not.1 hproject⟩, h.2⟩
        · rintro v _ db ⟨parent, rfl, ⟨t, ht, hproject⟩, hdb⟩
          obtain ⟨row, hrow, rfl⟩ := Option.map_eq_some_iff.1 ht
          refine ⟨rfl, fun id hid => ?_, hdb⟩
          obtain rfl := Option.some.inj hid
          exact ⟨row, hrow, hproject⟩
  · rintro v _ db ⟨project, rfl, hproject, hparent, hdb⟩
    exact ⟨⟨hproject, hparent⟩, hdb⟩

/-- What the reads and checks of `createTask` establish. -/
theorem readCreate_spec (input : CreateTaskInput) : Spec (readCreate input)
    (fun v _ db => (ReferencesOk v.db input ∧ checkCreate v.env input = .ok ()) ∧ db = v.db)
    Unchanged := by
  have henv : Spec (Prog.gets fun w => w.env : M Env) (fun v a db => a = v.env ∧ db = v.db)
    Unchanged := Spec.gets _ View.env fun _ => rfl
  refine (Spec.bindUnchanged henv fun env => Spec.bindUnchanged (Spec.raiseError _) fun _ =>
    Spec.bindUnchanged (checkCreateReferences_spec input) fun _ =>
      Spec.bindUnchanged (Spec.raiseError _) fun _ => Spec.raiseError _).post ?_
  rintro v _ _ ⟨_, rfl, _, hcheck, _, hrefs, _, -, -, rfl⟩
  exact ⟨⟨hrefs, hcheck⟩, rfl⟩

/-- The row inserted by `createTask`, with its history row if it is scored. -/
def Inserted (db : Db) (now : Nat) (input : CreateTaskInput) (db' : Db) : Prop :=
  db.insertTaskError ((CreateTaskInput.dto input).row input.tags 0 0) = none ∧
    (db.insertTask (CreateTaskInput.dto input) input.tags now).SameTasks db' ∧
    (db.DependenciesAcyclic → db'.DependenciesAcyclic)

theorem createRow_spec (input : CreateTaskInput) : Spec (createRow input)
    (fun v t db => t = ((CreateTaskInput.dto input).row input.tags v.now v.db.tasks.next).inflate ∧
      Inserted v.db v.now input db) Unchanged := by
  refine (TaskRepository.create_spec _ _).post ?_
  rintro v t _ ⟨hcheck, rfl, rfl⟩
  exact ⟨rfl, hcheck, .refl _, fun h => h⟩

theorem createScored_spec (input : CreateTaskInput) (w : WsjfWriteDTO) :
    Spec (createScored input w) (fun v _ db => Inserted v.db v.now input db) Unchanged := by
  refine Spec.transaction (((createRow_spec input).bind fun created =>
    (appendHistory_spec _).bind fun _ => Spec.pure (E := Unchanged) created).post ?_)
  rintro v _ _ ⟨_, _, ⟨-, hcheck, hsame, hacyclic⟩, _, db, ⟨hsame', hacyclic'⟩, -, rfl⟩
  exact ⟨hcheck, hsame.trans hsame', hacyclic' ∘ hacyclic⟩

end TaskService

end WoodFiredTasks
