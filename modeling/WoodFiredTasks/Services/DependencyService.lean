import WoodFiredTasks.Lib.Acyclic
import WoodFiredTasks.Repositories.DependencyRepository
import WoodFiredTasks.Utils.CycleDetector

set_option autoImplicit false

/-! # The dependency service

`src/services/dependency.service.ts`. The four statements of `addDependency` (two existence
reads, the read of the whole edge set with the cycle check on it, the INSERT) are separate
programs, because nothing but an enclosing transaction ties them together. -/

namespace WoodFiredTasks

/-- `findById` or `throw new NotFoundError('Task', id)`. -/
def requireTask (id : Nat) : M Task :=
  TaskRepository.findById id >>= fun
    | some task => pure task
    | none => raise (.notFound "Task" id.repr)

theorem requireTask_spec (id : Nat) : Spec (requireTask id)
    (fun v t db => (∃ row, v.db.tasks.find? id = some row ∧ t = row.inflate) ∧ db = v.db)
    Unchanged := by
  refine (Spec.queryOr (fun _ => rfl) rfl).post ?_
  rintro v t db ⟨ht, hdb⟩
  obtain ⟨row, hrow, rfl⟩ := Option.map_eq_some_iff.1 ht
  exact ⟨⟨row, hrow, rfl⟩, hdb⟩

/-- A row that is there is read if no statement throws. -/
theorem requireTask_succeeds (id : Nat) :
    Succeeds (fun v => (v.db.tasks.find? id).isSome = true) (requireTask id) := by
  intro w hfaults hrow
  refine Succeeds.queryOr (fun _ => rfl) w hfaults ?_
  show ((w.db.tasks.find? id).map Task.inflate).isSome = true
  rw [Option.isSome_map]
  exact hrow

namespace DependencyService

/-- `CreateDependencySchema`: the field errors of a request for the edge. -/
def createDependencyIssues (taskId blocksTaskId : Nat) : List (String × Message) :=
  let fields :=
    (if taskId = 0 then [("task_id", Message.text "Task ID must be a positive integer")] else [])
      ++ (if blocksTaskId = 0 then
        [("blocks_task_id", Message.text "Blocks task ID must be a positive integer")] else [])
  if fields.isEmpty then
    if taskId = blocksTaskId then [("", .text "A task cannot depend on itself")] else []
  else fields

/-- The schema check of `addDependency`. -/
def validate (taskId blocksTaskId : Nat) : Except Err Unit :=
  match createDependencyIssues taskId blocksTaskId with
  | [] => .ok ()
  | issues => .error (.validation (.ofIssues issues))

/-- The decision of `addDependency` on the edges it has read. -/
def cycleCheck (existing : List Dependency) (taskId blocksTaskId : Nat) : Except Err Unit :=
  let detector := CycleDetector.ofEdges (existing.map fun d => (d.taskId, d.blocksTaskId))
  if (CycleDetector.wouldCreateCycle detector taskId blocksTaskId).1 then
    .error (.business s!"Cannot add dependency: Task {taskId} blocking Task {blocksTaskId} would create a circular dependency")
  else .ok ()

/-- The third statement of `addDependency`: the read of all edges, and the check on them. -/
def checkCycle (taskId blocksTaskId : Nat) : M Unit :=
  DependencyRepository.findAll >>= fun existing =>
    raiseError (cycleCheck existing taskId blocksTaskId)

/-- `addDependency`; the new edge's id. -/
def addDependency (taskId blocksTaskId : Nat) : M Nat := do
  raiseError (validate taskId blocksTaskId)
  let _ ← requireTask taskId
  let _ ← requireTask blocksTaskId
  checkCycle taskId blocksTaskId
  DependencyRepository.create taskId blocksTaskId

/-- `removeDependency`. -/
def removeDependency (taskId blocksTaskId : Nat) : M Unit := do
  let deleted ← DependencyRepository.delete taskId blocksTaskId
  if deleted then pure ()
  else raise (.notFound "Dependency" s!"{taskId}->{blocksTaskId}")

/-- `getBlockers`. -/
def getBlockers (taskId : Nat) : M (List Dependency) := DependencyRepository.findBlockingTask taskId

end DependencyService

/-- No directed cycle in `task_dependencies`. -/
def Db.DependenciesAcyclic (db : Db) : Prop := Acyclic fun a b => (a, b) ∈ db.edges

/-- The check on a list of edges passes when they have no cycle together with the new one. -/
theorem DependencyService.cycleCheck_iff {existing : List Dependency} {taskId blocksTaskId : Nat} :
    cycleCheck existing taskId blocksTaskId = .ok () ↔
      Acyclic fun a b => (a, b) ∈ existing.map (fun d => (d.taskId, d.blocksTaskId)) ∨
        (a = taskId ∧ b = blocksTaskId) := by
  rw [Acyclic, ← not_exists, ← CycleDetector.wouldCreateCycle_iff, cycleCheck]
  split
  · rename_i hcycle
    exact iff_of_false (fun h => nomatch h) (not_not.2 hcycle)
  · rename_i hno
    exact iff_of_true rfl hno

/-- An INSERT closes no cycle exactly when the check passes on the edges that are there at that
    moment. -/
theorem Db.acyclic_insertDependency_iff {db : Db} {taskId blocksTaskId now : Nat} :
    (db.insertDependency taskId blocksTaskId now).DependenciesAcyclic ↔
      DependencyService.cycleCheck db.dependencies.rows taskId blocksTaskId = .ok () := by
  rw [DependencyService.cycleCheck_iff, DependenciesAcyclic]
  simp only [mem_edges_insertDependency]
  rfl

/-- What adding edges in a transaction does: only edges are added, and no cycle is closed. -/
def Db.EdgesAdded (db db' : Db) : Prop :=
  db.SameTasks db' ∧ (db.DependenciesAcyclic → db'.DependenciesAcyclic)

theorem Db.EdgesAdded.refl (db : Db) : db.EdgesAdded db := ⟨.refl db, id⟩

theorem Db.EdgesAdded.trans {a b c : Db} (h : a.EdgesAdded b) (h' : b.EdgesAdded c) :
    a.EdgesAdded c := ⟨h.1.trans h'.1, h'.2 ∘ h.2⟩

namespace DependencyService

theorem checkCycle_spec (taskId blocksTaskId : Nat) : Spec (checkCycle taskId blocksTaskId)
    (fun v _ db => cycleCheck v.db.dependencies.rows taskId blocksTaskId = .ok () ∧ db = v.db)
    Unchanged := by
  refine (Spec.bindUnchanged (Spec.query _) fun _ => Spec.raiseError _).post ?_
  rintro v _ db ⟨_, rfl, hcheck, hdb⟩
  exact ⟨hcheck, hdb⟩

/-- Without other writers in between, the edge that is added was checked against all edges. -/
theorem addDependency_spec (taskId blocksTaskId : Nat) : Spec (addDependency taskId blocksTaskId)
    (fun v _ db => db = v.db.insertDependency taskId blocksTaskId v.now ∧
      cycleCheck v.db.dependencies.rows taskId blocksTaskId = .ok ()) Unchanged := by
  refine (Spec.bindUnchanged (Spec.raiseError _) fun _ =>
    Spec.bindUnchanged (requireTask_spec taskId) fun _ =>
      Spec.bindUnchanged (requireTask_spec blocksTaskId) fun _ =>
        Spec.bindUnchanged (checkCycle_spec taskId blocksTaskId) fun _ => Spec.statement _ _ _).post ?_
  rintro v _ db ⟨_, -, _, -, _, -, _, hcheck, -, -, hdb⟩
  exact ⟨hdb, hcheck⟩

theorem addDependency_edgesAdded (taskId blocksTaskId : Nat) :
    Spec (addDependency taskId blocksTaskId) (fun v _ db => v.db.EdgesAdded db) Unchanged := by
  refine (addDependency_spec taskId blocksTaskId).post ?_
  rintro v _ _ ⟨rfl, hcheck⟩
  exact ⟨⟨rfl, rfl, rfl, rfl, rfl⟩, fun _ => Db.acyclic_insertDependency_iff.2 hcheck⟩

theorem removeDependency_spec (taskId blocksTaskId : Nat) :
    Spec (removeDependency taskId blocksTaskId)
      (fun v _ db => db = v.db.deleteDependency taskId blocksTaskId) Unchanged := by
  refine ((Spec.statement _ _ _).bind (R := fun deleted v _ db => deleted = true ∧ db = v.db)
    (F := fun deleted v db => deleted = false ∧ db = v.db) fun deleted => ?_).conseq ?_ ?_
  · cases deleted with
    | false => exact (Spec.raise _).conseq (fun _ _ _ h => h) fun _ _ h => ⟨rfl, h⟩
    | true => exact (Spec.pure ()).post fun _ _ _ h => ⟨rfl, h.2⟩
  · rintro v _ _ ⟨_, _, ⟨-, -, rfl⟩, -, rfl⟩
    rfl
  · rintro v _ (h | ⟨_, _, ⟨-, hdeleted, rfl⟩, rfl, rfl⟩)
    · exact h
    · exact Db.deleteDependency_eq_self (of_decide_eq_false hdeleted.symm)

end DependencyService

end WoodFiredTasks
