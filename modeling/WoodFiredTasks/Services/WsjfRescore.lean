import WoodFiredTasks.Repositories.ProjectRepository
import WoodFiredTasks.Services.ScoreGate

set_option autoImplicit false

/-! # The rescore of a project

`rescore` of `src/services/wsjf-rescore.service.ts` and the run record of
`src/repositories/wsjf-rescore.repository.ts`. Every submission is assessed on the row that is read
for it; the changed rows are then written in one transaction, each with its history row. -/

namespace WoodFiredTasks

/-! ## The run record -/

/-- The INSERT of `open`. -/
def Db.openRun (db : Db) (projectId : Nat) (charterVersion : Option ℚ) (actorType actorId : Option String)
    (now : Nat) : Db :=
  { db with
    rescoreRuns := db.rescoreRuns.insert
      (fun id => ⟨id, projectId, datetimeNow now, charterVersion, actorType, actorId, none, none, none,
        none⟩) fun _ => rfl }

/-- The UPDATE of `finalize`. -/
def Db.finalizeRun (db : Db) (runId tasksEvaluated tasksChanged tasksSkippedLocked : Nat)
    (summary : String) : Db :=
  { db with
    rescoreRuns := db.rescoreRuns.modify runId
      (fun r => { r with
        tasksEvaluated := some tasksEvaluated
        tasksChanged := some tasksChanged
        tasksSkippedLocked := some tasksSkippedLocked
        summary := some summary }) fun _ => rfl }

namespace WsjfRescoreRepository

/-- `open`. -/
def openRun (projectId : Nat) (charterVersion : Option ℚ) (actorType actorId : Option String) :
    M Nat :=
  statement (fun db => if (db.projects.find? projectId).isNone then some foreignKeyError else none)
    (fun db => db.rescoreRuns.next) fun now db =>
      db.openRun projectId charterVersion actorType actorId now

/-- `finalize`. -/
def finalizeRun (runId tasksEvaluated tasksChanged tasksSkippedLocked : Nat) (summary : String) :
    M Unit :=
  statement (fun _ => none) (fun _ => ()) fun _ db =>
    db.finalizeRun runId tasksEvaluated tasksChanged tasksSkippedLocked summary

end WsjfRescoreRepository

/-! ## Assessing a submission -/

/-- `componentsOf`. -/
def WsjfColumns.components? (w : WsjfColumns) : Option WsjfComponents :=
  match w.value, w.timeCriticality, w.riskOpportunity, w.jobSize with
  | some value, some timeCriticality, some riskOpportunity, some jobSize =>
    some ⟨value, timeCriticality, riskOpportunity, jobSize⟩
  | _, _, _, _ => none

theorem WsjfColumns.currentScore_eq (w : WsjfColumns) :
    w.currentScore = w.components?.map computeWsjf := by
  unfold currentScore components?
  split <;> simp_all

theorem WsjfColumns.components?_eq_some {w : WsjfColumns} {c : WsjfComponents} :
    w.components? = some c ↔ w.value = some c.value ∧ w.timeCriticality = some c.timeCriticality ∧
      w.riskOpportunity = some c.riskOpportunity ∧ w.jobSize = some c.jobSize := by
  unfold components?
  constructor
  · intro h
    split at h
    · obtain rfl := Option.some.inj h
      simp_all
    · cases h
  · intro h
    obtain ⟨hvalue, htime, hrisk, hsize⟩ := h
    rw [hvalue, htime, hrisk, hsize]

/-- One classification that is written back. -/
structure RescoreSubmission where
  taskId : Nat
  submission : ScoreSubmission
  deriving DecidableEq, Repr

structure RescoreActor where
  actorType : Option String := none
  actorId : Option String := none
  deriving DecidableEq, Repr

/-- The new component, or the old one where it is locked. -/
def keepLocked (locked : Bool) (prev new : Fib) : Fib := if locked then prev else new

/-- The lock merge. -/
def mergeLocked (locked : Option WsjfLocks) (prev new : WsjfComponents) : WsjfComponents :=
  match locked with
  | none => new
  | some l =>
    { value := keepLocked l.value prev.value new.value
      timeCriticality := keepLocked l.timeCriticality prev.timeCriticality new.timeCriticality
      riskOpportunity := keepLocked l.riskOpportunity prev.riskOpportunity new.riskOpportunity
      jobSize := keepLocked l.jobSize prev.jobSize new.jobSize }

/-- The keys of the locked components. -/
def lockedKeys (locked : Option WsjfLocks) : List String :=
  match locked with
  | none => []
  | some l =>
    [("value", l.value), ("timeCriticality", l.timeCriticality),
      ("riskOpportunity", l.riskOpportunity), ("jobSize", l.jobSize)].filterMap fun (key, set) =>
        if set then some key else none

/-- An assessed submission: what will be written if it changes anything. -/
structure Pending where
  task : Task
  components : WsjfComponents
  skippedLocked : List String
  locked : Option WsjfLocks
  submission : ScoreSubmission
  changed : Bool
  prevWsjfScore : ℚ
  newWsjfScore : ℚ

/-- `sourceTextOf`. -/
def sourceTextOf (task : Task) : String :=
  "\n".intercalate [task.title, task.description.getD ""]

/-- A task and what is wrong with its submission. -/
abbrev RescoreError := Nat × List String

/-- What is made of a submission, on the row that was read for it. -/
def assess (env : Env) (projectId : Nat) (charter : Option ValueCharter) (s : RescoreSubmission)
    (task : Option Task) : Except RescoreError Pending :=
  let id := s.taskId
  match task.filter fun t => t.projectId == projectId with
  | none => .error (id, [s!"task {id} is not a task in project {projectId}"])
  | some task =>
    match task.wsjf.components? with
    | none =>
      .error (id, [s!"task {id} is unscored; rescore only re-evaluates scored tasks"])
    | some prev =>
      match validateScoreSubmission env s.submission
        { charter, sourceText := some (sourceTextOf task) } with
      | .error errors => .error (id, errors)
      | .ok computed =>
        let merged := mergeLocked task.wsjf.locked prev computed
        .ok
          { task
            components := merged
            skippedLocked := lockedKeys task.wsjf.locked
            locked := task.wsjf.locked
            submission := s.submission
            changed := merged != prev
            prevWsjfScore := computeWsjf prev
            newWsjfScore := computeWsjf merged }

/-- What an assessed submission consists of. -/
theorem assess_ok {env : Env} {projectId : Nat} {charter : Option ValueCharter}
    {s : RescoreSubmission} {task : Option Task} {p : Pending}
    (h : assess env projectId charter s task = .ok p) :
    ∃ prev, task = some p.task ∧ p.task.projectId = projectId ∧
      p.task.wsjf.components? = some prev ∧
      p.components = mergeLocked p.locked prev
        (serverComponents p.submission.classification p.submission.features charter) ∧
      checkComponentContradictions
        (serverComponents p.submission.classification p.submission.features charter) = [] ∧
      p.locked = p.task.wsjf.locked ∧ p.submission = s.submission ∧
      p.prevWsjfScore = computeWsjf prev ∧ p.newWsjfScore = computeWsjf p.components := by
  unfold assess at h
  dsimp only at h
  split at h
  · cases h
  · rename_i t hfilter
    split at h
    · cases h
    · rename_i prev hprev
      split at h
      · cases h
      · rename_i computed hgate
        obtain ⟨hcomputed, hconsistent⟩ := validateScoreSubmission_ok hgate
        obtain ⟨htask, hproject⟩ := Option.filter_eq_some_iff.1 hfilter
        obtain rfl := Except.ok.inj h
        subst hcomputed
        exact ⟨prev, htask, by simpa using hproject, hprev, rfl, hconsistent, rfl, rfl, rfl, rfl⟩

/-- An assessed submission changes something when its components are not the stored ones. -/
theorem assess_changed {env : Env} {projectId : Nat} {charter : Option ValueCharter}
    {s : RescoreSubmission} {task : Option Task} {p : Pending}
    (h : assess env projectId charter s task = .ok p) :
    ∃ prev, p.task.wsjf.components? = some prev ∧ p.changed = (p.components != prev) := by
  unfold assess at h
  dsimp only at h
  split at h
  · cases h
  · split at h
    · cases h
    · rename_i prev hprev
      split at h
      · cases h
      · obtain rfl := Except.ok.inj h
        exact ⟨prev, hprev, rfl⟩

/-- The submission of an assessed row has passed the gate. -/
theorem assess_gate {env : Env} {projectId : Nat} {charter : Option ValueCharter}
    {s : RescoreSubmission} {task : Option Task} {p : Pending}
    (h : assess env projectId charter s task = .ok p) :
    ∃ computed, validateScoreSubmission env s.submission
      { charter, sourceText := some (sourceTextOf p.task) } = .ok computed := by
  unfold assess at h
  dsimp only at h
  split at h
  · cases h
  · split at h
    · cases h
    · split at h
      · cases h
      · rename_i computed hgate
        obtain rfl := Except.ok.inj h
        exact ⟨computed, hgate⟩

/-! ## Writing -/

/-- The score that is written. -/
def Pending.write (p : Pending) : WsjfWriteDTO where
  toPerComponent := p.components
  evidence := some p.submission.classification.evidence
  features := some p.submission.features
  classifications := some p.submission.classification
  locked := p.locked
  source := p.task.wsjf.source

/-- The history row that goes with it. -/
def Pending.record (p : Pending) (projectId : Nat) (actor : RescoreActor)
    (charterVersion : Option ℚ) (runId : Nat) : WsjfHistoryRecord where
  taskId := p.task.id
  projectId := projectId
  trigger := .rescore
  value := some p.components.value
  timeCriticality := some p.components.timeCriticality
  riskOpportunity := some p.components.riskOpportunity
  jobSize := some p.components.jobSize
  wsjfScore := some p.newWsjfScore
  prevWsjfScore := some p.prevWsjfScore
  classifications := some p.submission.classification
  features := some p.submission.features
  evidence := some p.submission.classification.evidence
  source := p.task.wsjf.source
  locked := p.locked
  actorType := actor.actorType
  actorId := actor.actorId
  charterVersion := charterVersion
  rescoreRunId := some runId

structure RescoreTaskResult where
  taskId : Nat
  changed : Bool
  skippedLocked : List String
  components : WsjfComponents
  prevWsjfScore : ℚ
  newWsjfScore : ℚ

def Pending.result (p : Pending) : RescoreTaskResult where
  taskId := p.task.id
  changed := p.changed
  skippedLocked := p.skippedLocked
  components := p.components
  prevWsjfScore := p.prevWsjfScore
  newWsjfScore := p.newWsjfScore

structure RescoreRunSummary where
  runId : Nat
  projectId : Nat
  tasksEvaluated : Nat
  tasksChanged : Nat
  tasksSkippedLocked : Nat
  results : List RescoreTaskResult
  errors : List RescoreError

/-- The submissions that were assessed. -/
def assessed (outcomes : List (Except RescoreError Pending)) : List Pending :=
  outcomes.filterMap fun
    | .ok p => some p
    | .error _ => none

theorem mem_assessed {outcomes : List (Except RescoreError Pending)} {p : Pending} :
    p ∈ assessed outcomes ↔ .ok p ∈ outcomes := by
  simp only [assessed, List.mem_filterMap]
  constructor
  · intro h
    obtain ⟨outcome, houtcome, hsome⟩ := h
    cases outcome with
    | error e => cases hsome
    | ok q => exact Option.some.inj hsome ▸ houtcome
  · exact fun h => ⟨.ok p, h, rfl⟩

/-- The submissions that were turned down. -/
def rejected (outcomes : List (Except RescoreError Pending)) : List RescoreError :=
  outcomes.filterMap fun
    | .ok _ => none
    | .error e => some e

namespace WsjfRescoreService

/-- The assessment of the submissions, one after the other. -/
def evaluate (projectId : Nat) (charter : Option ValueCharter) :
    List RescoreSubmission → M (List (Except RescoreError Pending))
  | [] => pure []
  | s :: rest => do
    let task ← TaskRepository.findById s.taskId
    let env ← Prog.gets fun w => w.env
    let outcomes ← evaluate projectId charter rest
    pure (assess env projectId charter s task :: outcomes)

/-- The write of one changed row. -/
def writeOne (projectId : Nat) (actor : RescoreActor) (charterVersion : Option ℚ) (runId : Nat)
    (p : Pending) : M Unit := do
  let _ ← TaskRepository.update p.task.id { wsjf := some (some p.write) }
  appendHistory (p.record projectId actor charterVersion runId)

/-- The transaction of `rescore`; the id of the run. -/
def writeRun (projectId : Nat) (actor : RescoreActor) (charterVersion : Option ℚ)
    (pending : List Pending) : M Nat :=
  let changed := pending.filter (·.changed)
  let evaluated := pending.length
  let changedCount := changed.length
  let skipped := (pending.filter fun p => p.skippedLocked != []).length
  transaction do
    let id ← WsjfRescoreRepository.openRun projectId charterVersion actor.actorType actor.actorId
    Prog.forEach changed (writeOne projectId actor charterVersion id)
    WsjfRescoreRepository.finalizeRun id evaluated changedCount skipped
      (s!"rescored project {projectId}: {evaluated} evaluated, " ++
        s!"{changedCount} changed, {skipped} with locked components preserved")
    pure id

/-- The version that a run and its rows are recorded under. -/
def charterVersion (charter : Option ValueCharter) : Option ℚ :=
  charter.map fun c => (c.interviewVersion : ℚ)

/-- `projects.findById`, or the error. -/
def requireProject (projectId : Nat) : M Project :=
  ProjectRepository.findById projectId >>= fun
    | some project => pure project
    | none => raise (.business s!"Project with id {projectId} does not exist")

/-- `rescore`. -/
def rescore (projectId : Nat) (submissions : List RescoreSubmission) (actor : RescoreActor := {}) :
    M RescoreRunSummary := do
  let project ← requireProject projectId
  let outcomes ← evaluate projectId project.valueCharter submissions
  let pending := assessed outcomes
  let runId ← writeRun projectId actor (charterVersion project.valueCharter) pending
  pure
    { runId
      projectId
      tasksEvaluated := pending.length
      tasksChanged := (pending.filter (·.changed)).length
      tasksSkippedLocked := (pending.filter fun p => p.skippedLocked != []).length
      results := pending.map Pending.result
      errors := rejected outcomes }

end WsjfRescoreService

end WoodFiredTasks
