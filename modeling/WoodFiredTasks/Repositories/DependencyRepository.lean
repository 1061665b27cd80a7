import WoodFiredTasks.Repositories.TaskRepository

set_option autoImplicit false

/-! # The dependency repository

The SQL of `src/repositories/dependency.repository.ts`. -/

namespace WoodFiredTasks

/-- The edges of `task_dependencies` out of a task. -/
def Db.blocks (db : Db) (taskId : Nat) : List Dependency :=
  db.dependencies.rows.filter fun d => d.taskId == taskId

/-- The edges of `task_dependencies` into a task. -/
def Db.blockers (db : Db) (taskId : Nat) : List Dependency :=
  db.dependencies.rows.filter fun d => d.blocksTaskId == taskId

/-- The edge set of `task_dependencies`. -/
def Db.edges (db : Db) : List (Nat × Nat) :=
  db.dependencies.rows.map fun d => (d.taskId, d.blocksTaskId)

/-- Why SQLite would refuse the INSERT of an edge: a missing task, a self-loop
    (`CHECK(task_id != blocks_task_id)`) or a repeated edge. -/
def Db.insertDependencyError (db : Db) (taskId blocksTaskId : Nat) : Option Err :=
  if taskId = blocksTaskId then some checkError
  else if (taskId, blocksTaskId) ∈ db.edges then some uniqueError
  else if (db.tasks.find? taskId).isNone || (db.tasks.find? blocksTaskId).isNone then
    some foreignKeyError
  else none

/-- The row that `create` inserts. -/
def newDependency (taskId blocksTaskId now id : Nat) : Dependency :=
  ⟨id, taskId, blocksTaskId, .iso now⟩

@[simp] theorem newDependency_id (taskId blocksTaskId now id : Nat) :
    (newDependency taskId blocksTaskId now id).id = id := rfl

/-- The database with one more edge. -/
def Db.insertDependency (db : Db) (taskId blocksTaskId now : Nat) : Db :=
  { db with
    dependencies := db.dependencies.insert (newDependency taskId blocksTaskId now)
      (newDependency_id taskId blocksTaskId now) }

/-- The database without an edge. -/
def Db.deleteDependency (db : Db) (taskId blocksTaskId : Nat) : Db :=
  { db with
    dependencies := db.dependencies.filter fun d =>
      !(d.taskId == taskId && d.blocksTaskId == blocksTaskId) }

namespace DependencyRepository

/-- `create`. -/
def create (taskId blocksTaskId : Nat) : M Nat :=
  statement (fun db => db.insertDependencyError taskId blocksTaskId)
    (fun db => db.dependencies.next) fun now db => db.insertDependency taskId blocksTaskId now

/-- `findAll`. -/
def findAll : M (List Dependency) := query fun db => db.dependencies.rows

/-- `findByTaskId`: the edges out of a task. -/
def findByTaskId (taskId : Nat) : M (List Dependency) := query fun db => db.blocks taskId

/-- `findBlockingTask`: the edges into a task. -/
def findBlockingTask (taskId : Nat) : M (List Dependency) := query fun db => db.blockers taskId

/-- `delete`: was there such an edge? -/
def delete (taskId blocksTaskId : Nat) : M Bool :=
  statement (fun _ => none) (fun db => decide ((taskId, blocksTaskId) ∈ db.edges)) fun _ db =>
    db.deleteDependency taskId blocksTaskId

end DependencyRepository

section Lemmas

variable {db : Db} {t u a b now id : Nat} {f : Task → Task} {hf : ∀ t, (f t).id = t.id}

@[simp] theorem Db.edges_writeTask : (db.writeTask id f hf).edges = db.edges := by simp [edges]
@[simp] theorem Db.blocks_writeTask : (db.writeTask id f hf).blocks t = db.blocks t := by
  simp [blocks]
@[simp] theorem Db.blockers_writeTask : (db.writeTask id f hf).blockers t = db.blockers t := by
  simp [blockers]

theorem Db.mem_edges_insertDependency :
    (a, b) ∈ (db.insertDependency t u now).edges ↔ (a, b) ∈ db.edges ∨ (a = t ∧ b = u) := by
  simp only [edges, insertDependency, newDependency, Table.insert, List.map_append, List.mem_append,
    List.map_cons, List.map_nil, List.mem_singleton, Prod.mk.injEq]

/-- Deleting an edge that is not there changes nothing. -/
theorem Db.deleteDependency_eq_self (h : (a, b) ∉ db.edges) : db.deleteDependency a b = db := by
  rw [deleteDependency, Table.filter_eq_self]
  intro d hd
  by_contra hc
  simp only [Bool.not_eq_true', Bool.not_eq_false, Bool.and_eq_true, beq_iff_eq] at hc
  exact h (List.mem_map.2 ⟨d, hd, Prod.ext hc.1 hc.2⟩)

theorem Db.mem_edges_of_deleteDependency (h : (a, b) ∈ (db.deleteDependency t u).edges) :
    (a, b) ∈ db.edges := by
  obtain ⟨d, hd, heq⟩ := List.mem_map.1 h
  exact List.mem_map.2 ⟨d, (Table.mem_filter.1 hd).1, heq⟩

theorem Db.mem_edges_of_deleteTask (h : (a, b) ∈ (db.deleteTask id).edges) :
    (a, b) ∈ db.edges := by
  obtain ⟨d, hd, heq⟩ := List.mem_map.1 h
  exact List.mem_map.2 ⟨d, (Table.mem_filter.1 hd).1, heq⟩

end Lemmas

end WoodFiredTasks
