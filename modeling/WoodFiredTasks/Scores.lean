import WoodFiredTasks.Services.TaskService
import WoodFiredTasks.Services.WsjfRescore

set_option autoImplicit false

/-! # Scores and their history

What the score properties look at: the nine score columns of a task and the task's rows in
`wsjf_score_history`, oldest first. For every statement that writes there is what it leaves of the
two. The history only grows, except that a deleted task takes its rows along. -/

namespace WoodFiredTasks

/-- The score columns of a task, if there is such a task. -/
def Db.wsjf? (db : Db) (t : Nat) : Option WsjfColumns := (db.tasks.find? t).map (·.wsjf)

/-- The history rows of a task, oldest first. -/
def Db.rowsOf (db : Db) (t : Nat) : List WsjfHistoryRow :=
  db.wsjfHistory.rows.filter fun h => h.taskId == t

/-- The four component columns. -/
def WsjfColumns.components (w : WsjfColumns) : PerComponent (Option Fib) :=
  ⟨w.value, w.timeCriticality, w.riskOpportunity, w.jobSize⟩

/-- No Cost-of-Delay component is set. -/
def WsjfColumns.Unscored (w : WsjfColumns) : Prop :=
  w.value = none ∧ w.timeCriticality = none ∧ w.riskOpportunity = none

instance (w : WsjfColumns) : Decidable w.Unscored := inferInstanceAs (Decidable (_ ∧ _ ∧ _))

/-- The four components that a history row records. -/
def WsjfHistoryRow.components (h : WsjfHistoryRow) : PerComponent (Option Fib) :=
  ⟨h.value, h.timeCriticality, h.riskOpportunity, h.jobSize⟩

/-- The four components of a row, if it has all of them. -/
def WsjfHistoryRow.components? (h : WsjfHistoryRow) : Option WsjfComponents :=
  match h.value, h.timeCriticality, h.riskOpportunity, h.jobSize with
  | some value, some timeCriticality, some riskOpportunity, some jobSize =>
    some ⟨value, timeCriticality, riskOpportunity, jobSize⟩
  | _, _, _, _ => none

/-- The score columns after an update. -/
def UpdateTaskDTO.newWsjf (dto : UpdateTaskDTO) (w : WsjfColumns) : WsjfColumns :=
  match dto.wsjf with
  | none => w
  | some none => {}
  | some (some w') => w'.columns

/-- The score columns after a size-only write. -/
def WsjfColumns.sized (w : WsjfColumns) (jobSize : Fib) (source : WsjfSource) : WsjfColumns :=
  { w with jobSize := some jobSize, source := some source }

/-- The score columns of a new row. -/
def CreateTaskDTO.newWsjf (dto : CreateTaskDTO) : WsjfColumns :=
  match dto.wsjf with
  | none => {}
  | some w => w.columns

/-! ## What the statements leave -/

section Statements

variable {db : Db} {t id now : Nat}

theorem Db.wsjf?_eq_some {w : WsjfColumns} :
    db.wsjf? t = some w ↔ ∃ row, db.tasks.find? t = some row ∧ row.wsjf = w :=
  Option.map_eq_some_iff

theorem Db.wsjf?_of_find? {row : Task} (h : db.tasks.find? t = some row) :
    db.wsjf? t = some row.wsjf := by
  simp [wsjf?, h]

/-- There is no task with the id that the next one gets. -/
theorem Db.wsjf?_next : db.wsjf? db.tasks.next = none := by
  rw [wsjf?, Option.map_eq_none_iff, Table.find?_eq_none]
  intro row hrow
  exact (db.tasks.below row hrow).ne

theorem Db.wsjf?_writeTask {f : Task → Task} {hf : ∀ t, (f t).id = t.id} :
    (db.writeTask id f hf).wsjf? t =
      if t = id then (db.tasks.find? t).map fun r => (f r).wsjf else db.wsjf? t := by
  rw [wsjf?, find?_writeTask, wsjf?, Option.map_map]
  by_cases h : t = id
  · simp only [if_pos h]
    rfl
  · simp only [if_neg h]
    rfl

/-- A write that leaves the score columns alone. -/
theorem Db.wsjf?_writeTask_of_eq {f : Task → Task} {hf : ∀ t, (f t).id = t.id}
    (hwsjf : ∀ r, (f r).wsjf = r.wsjf) : (db.writeTask id f hf).wsjf? t = db.wsjf? t := by
  rw [wsjf?_writeTask, wsjf?]
  split <;> simp [hwsjf]

theorem Db.wsjf?_applyUpdate {updates : UpdateTaskDTO} {current : Option TaskStatus} :
    (db.applyUpdate id updates current now).wsjf? t =
      if t = id then (db.wsjf? t).map updates.newWsjf else db.wsjf? t := by
  rw [applyUpdate, wsjf?_writeTask, wsjf?, Option.map_map]
  rfl

theorem Db.wsjf?_autoJobSize {jobSize : Fib} {source : WsjfSource} :
    (db.writeTask id (Task.autoJobSize jobSize source now)
      (Task.autoJobSize_id jobSize source now)).wsjf? t =
      if t = id then (db.wsjf? t).map fun w => w.sized jobSize source else db.wsjf? t := by
  rw [wsjf?_writeTask, wsjf?, Option.map_map]
  rfl

theorem Db.wsjf?_insertTask {dto : CreateTaskDTO} {tags : List String} :
    (db.insertTask dto tags now).wsjf? t =
      if t = db.tasks.next then some dto.newWsjf else db.wsjf? t := by
  rw [wsjf?, find?_insertTask, wsjf?]
  by_cases h : t = db.tasks.next
  · simp [h]
    rfl
  · simp [h]

@[simp] theorem Db.wsjf?_appendHistory {record : WsjfHistoryRecord} :
    (db.appendHistory record now).wsjf? t = db.wsjf? t := rfl

@[simp] theorem Db.wsjfHistory_applyUpdate {updates : UpdateTaskDTO}
    {current : Option TaskStatus} :
    (db.applyUpdate id updates current now).wsjfHistory = db.wsjfHistory :=
  writeTask_wsjfHistory

@[simp] theorem Db.wsjfHistory_insertTask {dto : CreateTaskDTO} {tags : List String} :
    (db.insertTask dto tags now).wsjfHistory = db.wsjfHistory := rfl

@[simp] theorem Db.mem_appendHistory {record : WsjfHistoryRecord} {h : WsjfHistoryRow} :
    h ∈ (db.appendHistory record now).wsjfHistory.rows ↔
      h ∈ db.wsjfHistory.rows ∨ h = record.row now db.wsjfHistory.next := by
  simp [appendHistory]

theorem Db.rowsOf_appendHistory {record : WsjfHistoryRecord} :
    (db.appendHistory record now).rowsOf t =
      if record.taskId = t then db.rowsOf t ++ [record.row now db.wsjfHistory.next]
      else db.rowsOf t := by
  have hrow : (record.row now db.wsjfHistory.next).taskId = record.taskId := rfl
  simp only [rowsOf, appendHistory, Table.insert, List.filter_append]
  split
  · rename_i h
    simp [hrow, h]
  · rename_i h
    simp [hrow, h]

theorem Db.rowsOf_congr {db' : Db} (h : db'.wsjfHistory = db.wsjfHistory) :
    db'.rowsOf t = db.rowsOf t := by
  rw [rowsOf, h, rowsOf]

end Statements

/-! ## Rows that match their columns -/

/-- The newest history row of the task, if there is one, records what is in the columns. -/
def Db.Covered (db : Db) (t : Nat) : Prop :=
  ∀ h w, (db.rowsOf t).getLast? = some h → db.wsjf? t = some w → h.components = w.components

section Covered

variable {db db' : Db} {t now : Nat}

/-- Neither the columns nor the rows have changed. -/
theorem Db.Covered.congr (h : db.Covered t) (hwsjf : db'.wsjf? t = db.wsjf? t)
    (hrows : db'.rowsOf t = db.rowsOf t) : db'.Covered t := by
  intro row w hrow hw
  rw [hrows] at hrow
  rw [hwsjf] at hw
  exact h row w hrow hw

/-- A new row that records the columns covers the task. -/
theorem Db.covered_appendHistory {record : WsjfHistoryRecord} (ht : record.taskId = t)
    (hrecord : ∀ w, db.wsjf? t = some w →
      (record.row now db.wsjfHistory.next).components = w.components) :
    (db.appendHistory record now).Covered t := by
  intro row w hrow hw
  rw [rowsOf_appendHistory, if_pos ht, List.getLast?_append, List.getLast?_singleton,
    Option.some_or] at hrow
  obtain rfl := Option.some.inj hrow
  exact hrecord w hw

theorem Db.Covered.appendHistory_ne {record : WsjfHistoryRecord} (h : db.Covered t)
    (ht : record.taskId ≠ t) : (db.appendHistory record now).Covered t := by
  refine h.congr rfl ?_
  rw [rowsOf_appendHistory, if_neg ht]

end Covered

end WoodFiredTasks
