import WoodFiredTasks.Lib.Table
import WoodFiredTasks.Services.Errors
import WoodFiredTasks.Types.Task

set_option autoImplicit false

/-! # The database

The tables the task calls read and write (`src/db/migrations`), as one value. Foreign keys are
enforced (`PRAGMA foreign_keys = ON`), so a statement may be refused by a constraint; the INNER
JOIN with `projects` that every task query carries can never hide a row and is left out.

`statusWrites` is not a table. Every UPDATE of a task goes through `writeTask`, which notes
there each change of a status together with the task rows right after it; it is part of the
value so that a rollback takes its entries back with everything else. -/

namespace WoodFiredTasks

/-- A row of `wsjf_score_history`. -/
structure WsjfHistoryRow where
  id : Nat
  taskId : Nat
  projectId : Nat
  changedAt : Stamp
  trigger : WsjfHistoryTrigger
  value : Option Fib
  timeCriticality : Option Fib
  riskOpportunity : Option Fib
  jobSize : Option Fib
  wsjfScore : Option ℚ
  prevWsjfScore : Option ℚ
  classifications : Option WsjfClassification
  features : Option WsjfFeatures
  evidence : Option WsjfEvidence
  source : Option WsjfSource
  locked : Option WsjfLocks
  actorType : Option String
  actorId : Option String
  charterVersion : Option ℚ
  rescoreRunId : Option Nat

/-- A row of `project_charter_history`: a charter and the version that replaced it. -/
structure CharterHistoryRow where
  id : Nat
  projectId : Nat
  interviewVersion : Nat
  charter : ValueCharter
  changeKind : Option String
  actorType : Option String
  actorId : Option String
  changedAt : Stamp
  deriving DecidableEq, Repr

/-- A row of `wsjf_rescore_run`. -/
structure RescoreRunRow where
  id : Nat
  projectId : Nat
  triggeredAt : Stamp
  charterVersion : Option ℚ
  actorType : Option String
  actorId : Option String
  tasksEvaluated : Option Nat
  tasksChanged : Option Nat
  tasksSkippedLocked : Option Nat
  summary : Option String
  deriving DecidableEq, Repr

/-- A row of `idempotency_keys`; `createdAt` is the default `datetime('now')`, in seconds. -/
structure IdempotencyKey where
  key : String
  response : Task
  createdAt : Nat
  deriving DecidableEq

/-- One change of a task's status, with the task rows it left behind. -/
structure StatusWrite where
  id : Nat
  fromStatus : TaskStatus
  toStatus : TaskStatus
  tasks : List Task

structure Db where
  projects : Table Project Project.id
  /-- Ids of the rows of `users`. -/
  users : List Nat
  tasks : Table Task Task.id
  dependencies : Table Dependency Dependency.id
  wsjfHistory : Table WsjfHistoryRow WsjfHistoryRow.id
  charterHistory : Table CharterHistoryRow CharterHistoryRow.id
  rescoreRuns : Table RescoreRunRow RescoreRunRow.id
  idempotencyKeys : List IdempotencyKey
  statusWrites : List StatusWrite

/-- The migrated database before any call. -/
def Db.empty : Db where
  projects := .empty
  users := []
  tasks := .empty
  dependencies := .empty
  wsjfHistory := .empty
  charterHistory := .empty
  rescoreRuns := .empty
  idempotencyKeys := []
  statusWrites := []

/-- The database with one project and nothing else. -/
def Db.oneProject : Db :=
  { Db.empty with
    projects := Table.empty.insert (fun id => { id, name := "project" }) fun _ => rfl }

/-- Two databases that differ at most in their dependency edges and their histories. -/
structure Db.SameTasks (db db' : Db) : Prop where
  projects : db'.projects = db.projects
  users : db'.users = db.users
  tasks : db'.tasks = db.tasks
  idempotencyKeys : db'.idempotencyKeys = db.idempotencyKeys
  statusWrites : db'.statusWrites = db.statusWrites

theorem Db.SameTasks.refl (db : Db) : db.SameTasks db := ⟨rfl, rfl, rfl, rfl, rfl⟩

theorem Db.SameTasks.trans {a b c : Db} (h : a.SameTasks b) (h' : b.SameTasks c) : a.SameTasks c :=
  ⟨h'.projects.trans h.projects, h'.users.trans h.users, h'.tasks.trans h.tasks,
    h'.idempotencyKeys.trans h.idempotencyKeys, h'.statusWrites.trans h.statusWrites⟩

/-! ## Task rows -/

/-- `UPDATE tasks SET … WHERE id = ?`: rewrite one row and note the change of its status. -/
def Db.writeTask (db : Db) (id : Nat) (f : Task → Task) (hf : ∀ t, (f t).id = t.id) : Db :=
  match db.tasks.find? id with
  | none => db
  | some t =>
    let tasks := db.tasks.modify id f hf
    { db with
      tasks
      statusWrites :=
        if (f t).status = t.status then db.statusWrites
        else db.statusWrites ++ [⟨id, t.status, (f t).status, tasks.rows⟩] }

/-- The status of a task, if there is such a task. -/
def Db.status? (db : Db) (id : Nat) : Option TaskStatus := (db.tasks.find? id).map (·.status)

/-- The parent of a task, if there is such a task and it has one. -/
def Db.parent? (db : Db) (id : Nat) : Option Nat := (db.tasks.find? id).bind (·.parentTaskId)

/-- The project of a task, if there is such a task. -/
def Db.project? (db : Db) (id : Nat) : Option Nat := (db.tasks.find? id).map (·.projectId)

/-- The rows whose parent is `id`. -/
def Db.children (db : Db) (id : Nat) : List Task :=
  db.tasks.rows.filter fun t => t.parentTaskId == some id

/-- The ids of a set of tasks and of all tasks reached from them through `parent_task_id`: what
    `ON DELETE CASCADE` removes with them. The fuel is the number of rows. -/
def Db.subtreeOf (db : Db) : Nat → List Nat → List Nat
  | 0, ids => ids
  | fuel + 1, ids =>
    Db.subtreeOf db fuel <| ids ++ (db.tasks.rows.filter fun t =>
      t.parentTaskId.any (· ∈ ids) && !(t.id ∈ ids)).map (·.id)

/-- `DELETE FROM tasks WHERE id = ?`, with the rows of other tables that go with the tasks. -/
def Db.deleteTask (db : Db) (id : Nat) : Db :=
  let gone := db.subtreeOf db.tasks.rows.length [id]
  { db with
    tasks := db.tasks.filter fun t => !(t.id ∈ gone)
    dependencies := db.dependencies.filter fun d => !(d.taskId ∈ gone) && !(d.blocksTaskId ∈ gone)
    wsjfHistory := db.wsjfHistory.filter fun h => !(h.taskId ∈ gone) }

section DeleteTask

variable {db : Db}

theorem Db.subset_subtreeOf (fuel : Nat) (ids : List Nat) : ids ⊆ db.subtreeOf fuel ids := by
  induction fuel generalizing ids with
  | zero => exact fun _ h => h
  | succ fuel ih => exact fun i hi => ih _ (List.mem_append_left _ hi)

/-- The children of the tasks are among them. -/
def Db.ChildClosed (db : Db) (ids : List Nat) : Prop :=
  ∀ t ∈ db.tasks.rows, ∀ p, t.parentTaskId = some p → p ∈ ids → t.id ∈ ids

theorem Db.subtreeOf_of_closed {ids : List Nat} (h : db.ChildClosed ids) (fuel : Nat) :
    db.subtreeOf fuel ids = ids := by
  have hnone : (db.tasks.rows.filter fun t =>
      t.parentTaskId.any (· ∈ ids) && !(t.id ∈ ids)) = [] := by
    refine List.filter_eq_nil_iff.2 fun t ht hnew => ?_
    simp only [Bool.and_eq_true, Option.any_eq_true, decide_eq_true_eq, Bool.not_eq_true',
      decide_eq_false_iff_not] at hnew
    obtain ⟨⟨p, hp, hmem⟩, hid⟩ := hnew
    exact hid (h t ht p hp hmem)
  induction fuel with
  | zero => rfl
  | succ fuel ih => rw [subtreeOf, hnone, List.map_nil, List.append_nil, ih]

/-- Each round adds a row or finds none to add, so as many rounds as rows reach all children. -/
theorem Db.childClosed_subtreeOf (fuel : Nat) (ids : List Nat)
    (h : (db.tasks.rows.filter fun t => !(t.id ∈ ids)).length ≤ fuel) :
    db.ChildClosed (db.subtreeOf fuel ids) := by
  induction fuel generalizing ids with
  | zero =>
    intro t ht _ _ _
    have hnil := List.length_eq_zero_iff.1 (Nat.le_zero.1 h)
    rw [subtreeOf]
    simpa using List.filter_eq_nil_iff.1 hnil t ht
  | succ fuel ih =>
    by_cases hclosed : db.ChildClosed ids
    · rwa [subtreeOf_of_closed hclosed]
    · rw [subtreeOf]
      refine ih _ (Nat.le_of_lt_succ (lt_of_lt_of_le ?_ h))
      simp only [ChildClosed, not_forall, exists_prop] at hclosed
      obtain ⟨t, ht, p, hp, hmem, hid⟩ := hclosed
      generalize hnew : (db.tasks.rows.filter fun t =>
        t.parentTaskId.any (· ∈ ids) && !(t.id ∈ ids)).map (·.id) = new
      have htnew : t.id ∈ new := by
        rw [← hnew]
        refine List.mem_map.2 ⟨t, List.mem_filter.2 ⟨ht, ?_⟩, rfl⟩
        simp [hp, hmem, hid]
      have hsub : (db.tasks.rows.filter fun t => !(t.id ∈ ids ++ new)) =
          (db.tasks.rows.filter fun t => !(t.id ∈ ids)).filter fun t => !(t.id ∈ new) := by
        rw [List.filter_filter]
        refine List.filter_congr fun u _ => ?_
        simp [Bool.and_comm]
      rw [hsub, List.length_filter_lt_length_iff_exists]
      exact ⟨t, List.mem_filter.2 ⟨ht, by simpa using hid⟩, by simpa using htnew⟩

/-- What is left after a deletion: the rows outside the subtree, whose parents are left too. -/
theorem Db.find?_deleteTask {id j : Nat} {t : Task}
    (h : (db.deleteTask id).tasks.find? j = some t) :
    db.tasks.find? j = some t ∧ ∀ p u, t.parentTaskId = some p → db.tasks.find? p = some u →
      (db.deleteTask id).tasks.find? p = some u := by
  rw [deleteTask, Table.find?_filter] at h
  obtain ⟨hj, hleft⟩ := Option.filter_eq_some_iff.1 h
  refine ⟨hj, fun p u hp hu => ?_⟩
  obtain ⟨ht, rfl⟩ := Table.find?_eq_some.1 hj
  obtain ⟨-, rfl⟩ := Table.find?_eq_some.1 hu
  have hclosed := db.childClosed_subtreeOf db.tasks.rows.length [id] (List.length_filter_le _ _)
  rw [deleteTask, Table.find?_filter, hu, Option.filter_some, if_pos]
  simp only [Bool.not_eq_true', decide_eq_false_iff_not] at hleft ⊢
  exact fun hgone => hleft (hclosed t ht _ hp hgone)

end DeleteTask

section WriteTask

variable {db : Db} {id j : Nat} {f : Task → Task} {hf : ∀ t, (f t).id = t.id}

theorem Db.writeTask_of_none (h : db.tasks.find? id = none) : db.writeTask id f hf = db := by
  simp only [writeTask, h]

theorem Db.writeTask_tasks {t : Task} (h : db.tasks.find? id = some t) :
    (db.writeTask id f hf).tasks = db.tasks.modify id f hf := by
  simp only [writeTask, h]

theorem Db.writeTask_log {t : Task} (h : db.tasks.find? id = some t) :
    (db.writeTask id f hf).statusWrites =
      if (f t).status = t.status then db.statusWrites
      else db.statusWrites ++ [⟨id, t.status, (f t).status, (db.tasks.modify id f hf).rows⟩] := by
  simp only [writeTask, h]

@[simp] theorem Db.writeTask_projects : (db.writeTask id f hf).projects = db.projects := by
  unfold writeTask
  split <;> rfl

@[simp] theorem Db.writeTask_users : (db.writeTask id f hf).users = db.users := by
  unfold writeTask
  split <;> rfl

@[simp] theorem Db.writeTask_dependencies :
    (db.writeTask id f hf).dependencies = db.dependencies := by
  unfold writeTask
  split <;> rfl

@[simp] theorem Db.writeTask_wsjfHistory :
    (db.writeTask id f hf).wsjfHistory = db.wsjfHistory := by
  unfold writeTask
  split <;> rfl

@[simp] theorem Db.writeTask_idempotencyKeys :
    (db.writeTask id f hf).idempotencyKeys = db.idempotencyKeys := by
  unfold writeTask
  split <;> rfl

@[simp] theorem Db.writeTask_next : (db.writeTask id f hf).tasks.next = db.tasks.next := by
  unfold writeTask
  split <;> rfl

/-- Reading after a write: the written row is rewritten, the others are as before. -/
theorem Db.find?_writeTask : (db.writeTask id f hf).tasks.find? j =
    (db.tasks.find? j).map fun r => if j = id then f r else r := by
  rcases h : db.tasks.find? id with _ | t
  · rw [writeTask_of_none h]
    rcases hj : db.tasks.find? j with _ | r
    · rfl
    · have hne : j ≠ id := by
        rintro rfl
        rw [h] at hj
        cases hj
      simp [hne]
  · rw [writeTask_tasks h, Table.find?_modify]

/-- Only the function's value at the written row matters. -/
theorem Db.writeTask_congr {g : Task → Task} {hg : ∀ t, (g t).id = t.id}
    (h : ∀ t, db.tasks.find? id = some t → f t = g t) :
    db.writeTask id f hf = db.writeTask id g hg := by
  rcases hfind : db.tasks.find? id with _ | t
  · rw [writeTask_of_none hfind, writeTask_of_none hfind]
  · have htasks : db.tasks.modify id f hf = db.tasks.modify id g hg := Table.modify_congr h
    simp only [writeTask, hfind, h t hfind, htasks]

theorem Db.SameTasks.writeTask {db' : Db} (h : db.SameTasks db') :
    (db.writeTask id f hf).SameTasks (db'.writeTask id f hf) := by
  rcases hfind : db.tasks.find? id with _ | t
  · rwa [Db.writeTask_of_none hfind, Db.writeTask_of_none (h.tasks ▸ hfind)]
  · have hfind' : db'.tasks.find? id = some t := h.tasks ▸ hfind
    refine ⟨?_, ?_, ?_, ?_, ?_⟩
    · simpa using h.projects
    · simpa using h.users
    · rw [Db.writeTask_tasks hfind, Db.writeTask_tasks hfind', h.tasks]
    · simpa using h.idempotencyKeys
    · rw [Db.writeTask_log hfind, Db.writeTask_log hfind', h.tasks, h.statusWrites]

/-- Writing a row as it is changes nothing. -/
theorem Db.writeTask_eq_self (h : ∀ t, db.tasks.find? id = some t → f t = t) :
    db.writeTask id f hf = db := by
  rcases hfind : db.tasks.find? id with _ | t
  · exact writeTask_of_none hfind
  · simp only [writeTask, hfind, h t hfind, if_true, Table.modify_eq_self h]

theorem Db.find?_writeTask_self :
    (db.writeTask id f hf).tasks.find? id = (db.tasks.find? id).map f := by
  rw [find?_writeTask]
  simp

theorem Db.find?_writeTask_ne (h : j ≠ id) :
    (db.writeTask id f hf).tasks.find? j = db.tasks.find? j := by
  rw [find?_writeTask]
  simp [h]

end WriteTask

end WoodFiredTasks
