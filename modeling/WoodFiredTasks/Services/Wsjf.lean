import WoodFiredTasks.World

set_option autoImplicit false

/-! # WSJF scoring

The part of `src/services/wsjf.service.ts` that creates and updates use, and the append-only
history (`src/repositories/wsjf-history.repository.ts`). -/

namespace WoodFiredTasks

/-- `minutesToTier`. -/
def minutesToTier : Option Nat → Fib
  | none => .three
  | some minutes =>
    if minutes ≤ 15 then .one
    else if minutes ≤ 30 then .two
    else if minutes ≤ 60 then .three
    else if minutes ≤ 240 then .five
    else if minutes ≤ 960 then .eight
    else .thirteen

/-- `computeWsjf`. -/
def computeWsjf (c : WsjfComponents) : ℚ :=
  (c.value.toNat + c.timeCriticality.toNat + c.riskOpportunity.toNat : ℚ) / max (c.jobSize.toNat : ℚ) 1

/-- `checkComponentContradictions`. -/
def checkComponentContradictions (c : WsjfComponents) : List String :=
  if c.jobSize = .one ∧ c.value = .thirteen then
    ["contradiction: jobSize=1 (trivial effort) but value=13 (max business value)"]
  else []

/-- `validateManualScore`: its errors. The components are Fibonacci tiers by their type. -/
def validateManualScore (c : WsjfComponents) : List String := checkComponentContradictions c

/-- `currentWsjfScore`: the score of a row, if all four components are set. -/
def WsjfColumns.currentScore (w : WsjfColumns) : Option ℚ :=
  match w.value, w.timeCriticality, w.riskOpportunity, w.jobSize with
  | some value, some timeCriticality, some riskOpportunity, some jobSize =>
    some (computeWsjf ⟨value, timeCriticality, riskOpportunity, jobSize⟩)
  | _, _, _, _ => none

/-- What is appended to the history, without the key and the instant. -/
structure WsjfHistoryRecord where
  taskId : Nat
  projectId : Nat
  trigger : WsjfHistoryTrigger
  value : Option Fib := none
  timeCriticality : Option Fib := none
  riskOpportunity : Option Fib := none
  jobSize : Option Fib
  wsjfScore : Option ℚ := none
  prevWsjfScore : Option ℚ
  classifications : Option WsjfClassification := none
  features : Option WsjfFeatures := none
  evidence : Option WsjfEvidence := none
  source : Option WsjfSource := none
  locked : Option WsjfLocks := none
  actorType : Option String := none
  actorId : Option String := none
  charterVersion : Option ℚ := none
  rescoreRunId : Option Nat := none

/-- The history row of a record. -/
def WsjfHistoryRecord.row (r : WsjfHistoryRecord) (now id : Nat) : WsjfHistoryRow where
  id := id
  taskId := r.taskId
  projectId := r.projectId
  changedAt := datetimeNow now
  trigger := r.trigger
  value := r.value
  timeCriticality := r.timeCriticality
  riskOpportunity := r.riskOpportunity
  jobSize := r.jobSize
  wsjfScore := r.wsjfScore
  prevWsjfScore := r.prevWsjfScore
  classifications := r.classifications
  features := r.features
  evidence := r.evidence
  source := r.source
  locked := r.locked
  actorType := r.actorType
  actorId := r.actorId
  charterVersion := r.charterVersion
  rescoreRunId := r.rescoreRunId

@[simp] theorem WsjfHistoryRecord.row_id (r : WsjfHistoryRecord) (now id : Nat) :
    (r.row now id).id = id := rfl

/-- The database with one more history row. -/
def Db.appendHistory (db : Db) (record : WsjfHistoryRecord) (now : Nat) : Db :=
  { db with wsjfHistory := db.wsjfHistory.insert (record.row now) (record.row_id now) }

/-- `WsjfHistoryRepository.append`. -/
def appendHistory (record : WsjfHistoryRecord) : M Unit :=
  statement (fun _ => none) (fun _ => ()) fun now db => db.appendHistory record now

/-- The record that `appendWsjfHistory` builds for a full score. -/
def WsjfWriteDTO.record (w : WsjfWriteDTO) (taskId projectId : Nat) (trigger : WsjfHistoryTrigger)
    (prevWsjfScore : Option ℚ) : WsjfHistoryRecord where
  taskId := taskId
  projectId := projectId
  trigger := trigger
  value := some w.value
  timeCriticality := some w.timeCriticality
  riskOpportunity := some w.riskOpportunity
  jobSize := some w.jobSize
  wsjfScore := some (computeWsjf w.toPerComponent)
  prevWsjfScore := prevWsjfScore
  classifications := w.classifications
  features := w.features
  evidence := w.evidence
  source := w.source
  locked := w.locked
  charterVersion := w.features.bind (·.charterVersion)

end WoodFiredTasks
