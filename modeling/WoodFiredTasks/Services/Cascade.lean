import WoodFiredTasks.Repositories.DependencyRepository

set_option autoImplicit false

/-! # What a cascade does

The workflow engine is re-entered through the event bus for every task it completes. Here its
effect is stated as a recursion on the database alone: `cascade n` completes the parent of a
done task if the engine would, cascades from there with one level less, and then unblocks the
task's dependents, one after the other. That the engine computes this function is shown in
`CascadeRefinement.lean`; this module is about the function.

All completions come before all unblockings (`cascade_eq`), and an unblocking changes no set of
done tasks, so every decision of the second phase is made on the same set of done tasks. -/

namespace WoodFiredTasks

/-! ## Status-only updates -/

/-- The row after a status-only update: `completed_at` follows the status, and a closing
    transition without evidence stores the `NOT_VERIFIED` marker. -/
def Task.withStatus (now : Nat) (s : TaskStatus) (t : Task) : Task :=
  { t with
    status := s
    completedAt := completedAtAfter s (some t.status) now t.completedAt
    verificationEvidence :=
      if t.status ≠ s ∧ (s = .done ∨ s = .closed) ∧ t.verificationEvidence = none then
        some { verdict := .notVerified }
      else t.verificationEvidence
    updatedAt := datetimeNow now }

section WithStatus

variable (now : Nat) (s : TaskStatus) (t : Task)

@[simp] theorem Task.withStatus_id : (t.withStatus now s).id = t.id := rfl
@[simp] theorem Task.withStatus_status : (t.withStatus now s).status = s := rfl
@[simp] theorem Task.withStatus_parentTaskId :
    (t.withStatus now s).parentTaskId = t.parentTaskId := rfl
@[simp] theorem Task.withStatus_createdAt : (t.withStatus now s).createdAt = t.createdAt := rfl
@[simp] theorem Task.withStatus_assignee : (t.withStatus now s).assignee = t.assignee := rfl

end WithStatus

/-- The database after a status-only update of one task. -/
def Db.setStatus (db : Db) (now id : Nat) (s : TaskStatus) : Db :=
  db.writeTask id (Task.withStatus now s) (Task.withStatus_id now s)

section SetStatus

variable {db : Db} {now id j : Nat} {s : TaskStatus}

theorem Db.find?_setStatus : (db.setStatus now id s).tasks.find? j =
    (db.tasks.find? j).map fun r => if j = id then r.withStatus now s else r :=
  find?_writeTask

theorem Db.status?_setStatus : (db.setStatus now id s).status? j =
    if j = id then (db.status? j).map fun _ => s else db.status? j := by
  rw [status?, find?_setStatus, status?]
  rcases db.tasks.find? j with _ | r
  · simp
  · by_cases h : j = id <;> simp [h]

@[simp] theorem Db.blocks_setStatus : (db.setStatus now id s).blocks j = db.blocks j :=
  blocks_writeTask

@[simp] theorem Db.blockers_setStatus : (db.setStatus now id s).blockers j = db.blockers j :=
  blockers_writeTask

end SetStatus

/-! ## The cascade as a function -/

section Cascade

variable (env : Env) (now : Nat)

/-- The statuses from which the engine completes a parent. -/
def Task.completable (t : Task) : Bool := t.status == .open || t.status == .inProgress

/-- The parent that the engine completes when a child of it has become done: all children on
    the first page are done and the parent is open or in progress. -/
def nextParent (db : Db) (parentTaskId : Option Nat) : Option Task :=
  (presentId parentTaskId).bind fun parentId =>
    if (TaskRepository.childrenPage env db parentId {}).all Task.isDone then
      (db.tasks.find? parentId).filter Task.completable
    else none

/-- Complete a parent, in two steps if it is open. -/
def Db.complete (db : Db) (parent : Task) : Db :=
  (if parent.status = .open then db.setStatus now parent.id .inProgress else db).setStatus now
    parent.id .done

/-- All blockers of a task are done. -/
def Db.unblocked (db : Db) (id : Nat) : Bool :=
  (db.blockers id).all fun blocker => db.status? blocker.taskId == some .done

/-- Unblock the target of one edge if all its blockers are done. -/
def Db.unblockOne (db : Db) (dep : Dependency) : Db :=
  if db.status? dep.blocksTaskId = some .blocked ∧ db.unblocked dep.blocksTaskId = true then
    db.setStatus now dep.blocksTaskId .open
  else db

/-- Unblock the dependents of a task. -/
def Db.unblockAll (db : Db) (id : Nat) : Db := (db.blocks id).foldl (Db.unblockOne now) db

/-- The cascade from a done task, with `n` levels left. -/
def cascade : Nat → Db → Nat → Option Nat → Db
  | 0, db, _, _ => db
  | n + 1, db, id, parentTaskId =>
    let db' := match nextParent env db parentTaskId with
      | none => db
      | some parent => cascade n (db.complete now parent) parent.id parent.parentTaskId
    db'.unblockAll now id

/-- Does that cascade come to the depth limit? -/
def hitsDepthLimit : Nat → Db → Option Nat → Bool
  | 0, _, _ => true
  | n + 1, db, parentTaskId =>
    match nextParent env db parentTaskId with
    | none => false
    | some parent => hitsDepthLimit n (db.complete now parent) parent.parentTaskId

end Cascade

/-! ## The two phases -/

section Phases

variable {env : Env} {now : Nat}

variable (env now) in
/-- The parents that a cascade completes, in this order. -/
def completions : Nat → Db → Option Nat → List Nat
  | 0, _, _ => []
  | n + 1, db, parentTaskId =>
    match nextParent env db parentTaskId with
    | none => []
    | some parent => parent.id :: completions n (db.complete now parent) parent.parentTaskId

variable (env now) in
/-- The first phase: all completions. -/
def completeAll : Nat → Db → Option Nat → Db
  | 0, db, _ => db
  | n + 1, db, parentTaskId =>
    match nextParent env db parentTaskId with
    | none => db
    | some parent => completeAll n (db.complete now parent) parent.parentTaskId

variable (env now) in
/-- The tasks whose dependents are unblocked in the second phase, the last one first. -/
def unblockers : Nat → Db → Nat → Option Nat → List Nat
  | 0, _, _, _ => []
  | n + 1, db, id, parentTaskId =>
    id :: match nextParent env db parentTaskId with
    | none => []
    | some parent => unblockers n (db.complete now parent) parent.id parent.parentTaskId

theorem nextParent_eq_some {db : Db} {parentTaskId : Option Nat} {parent : Task}
    (h : nextParent env db parentTaskId = some parent) :
    parentTaskId = some parent.id ∧ db.tasks.find? parent.id = some parent ∧
      parent.completable = true ∧
      (TaskRepository.childrenPage env db parent.id {}).all Task.isDone = true := by
  obtain ⟨parentId, hid, hparent⟩ := Option.bind_eq_some_iff.1 h
  obtain ⟨rfl, -⟩ := Option.filter_eq_some_iff.1 hid
  split at hparent
  · rename_i hall
    obtain ⟨hfind, hc⟩ := Option.filter_eq_some_iff.1 hparent
    obtain ⟨-, rfl⟩ := Table.find?_eq_some.1 hfind
    exact ⟨rfl, hfind, hc, hall⟩
  · cases hparent

theorem Task.completable_iff {t : Task} :
    t.completable = true ↔ t.status = .open ∨ t.status = .inProgress := by
  simp [completable]

@[simp] theorem Db.blocks_complete {db : Db} {parent : Task} {j : Nat} :
    (db.complete now parent).blocks j = db.blocks j := by
  unfold complete
  split <;> simp

@[simp] theorem Db.blockers_complete {db : Db} {parent : Task} {j : Nat} :
    (db.complete now parent).blockers j = db.blockers j := by
  unfold complete
  split <;> simp

theorem Db.status?_complete {db : Db} {parent : Task} {j : Nat}
    (h : db.tasks.find? parent.id = some parent) :
    (db.complete now parent).status? j = if j = parent.id then some .done else db.status? j := by
  have hsome : db.status? parent.id = some parent.status := by rw [status?, h, Option.map_some]
  rw [complete, status?_setStatus]
  by_cases hj : j = parent.id
  · subst hj
    rw [if_pos rfl, if_pos rfl]
    split
    · rw [status?_setStatus, if_pos rfl, hsome]
      rfl
    · rw [hsome]
      rfl
  · rw [if_neg hj, if_neg hj]
    split
    · rw [status?_setStatus, if_neg hj]
    · rfl

theorem Db.unblocked_congr {db db' : Db} {j : Nat} (hblockers : db'.blockers j = db.blockers j)
    (hdone : ∀ i, db'.status? i = some .done ↔ db.status? i = some .done) :
    db'.unblocked j = db.unblocked j := by
  rw [unblocked, unblocked, hblockers]
  refine congrArg (List.all _) (funext fun blocker => ?_)
  rw [Bool.eq_iff_iff, beq_iff_eq, beq_iff_eq]
  exact hdone blocker.taskId

section UnblockOne

variable {db : Db} {dep : Dependency} {j : Nat}

theorem Db.status?_unblockOne : (db.unblockOne now dep).status? j =
    if dep.blocksTaskId = j ∧ db.status? j = some .blocked ∧ db.unblocked j = true then some .open
    else db.status? j := by
  unfold unblockOne
  split
  · rename_i h
    rw [status?_setStatus]
    by_cases hj : j = dep.blocksTaskId
    · subst hj
      rw [if_pos rfl, if_pos ⟨rfl, h⟩, h.1]
      rfl
    · rw [if_neg hj, if_neg fun h' => hj h'.1.symm]
  · rename_i h
    rw [if_neg]
    rintro ⟨rfl, h'⟩
    exact h h'

@[simp] theorem Db.blocks_unblockOne : (db.unblockOne now dep).blocks j = db.blocks j := by
  unfold unblockOne
  split <;> simp

@[simp] theorem Db.blockers_unblockOne : (db.unblockOne now dep).blockers j = db.blockers j := by
  unfold unblockOne
  split <;> simp

theorem Db.done_unblockOne :
    (db.unblockOne now dep).status? j = some .done ↔ db.status? j = some .done := by
  rw [status?_unblockOne]
  split
  · rename_i h
    simp [h.2.1]
  · exact Iff.rfl

@[simp] theorem Db.unblocked_unblockOne : (db.unblockOne now dep).unblocked j = db.unblocked j :=
  unblocked_congr blockers_unblockOne fun _ => done_unblockOne

end UnblockOne

/-- A pass over edges unblocks the targets that it can unblock, whatever their order. -/
theorem Db.status?_foldl_unblockOne (deps : List Dependency) (db : Db) (j : Nat) :
    (deps.foldl (Db.unblockOne now) db).status? j =
      if (∃ dep ∈ deps, dep.blocksTaskId = j) ∧ db.status? j = some .blocked ∧
        db.unblocked j = true then some .open
      else db.status? j := by
  induction deps generalizing db with
  | nil => simp
  | cons dep rest ih =>
    rw [List.foldl_cons, ih, unblocked_unblockOne, status?_unblockOne]
    by_cases hcan : db.status? j = some .blocked ∧ db.unblocked j = true
    · by_cases hdep : dep.blocksTaskId = j <;> simp [hcan, hdep]
    · have hkeep : ∀ {p : Prop}, ¬ (p ∧ db.status? j = some .blocked ∧ db.unblocked j = true) :=
        fun h => hcan h.2
      rw [if_neg (c := dep.blocksTaskId = j ∧ _) hkeep, if_neg hkeep, if_neg hkeep]

theorem Db.blocks_foldl_unblockOne (deps : List Dependency) (db : Db) (j : Nat) :
    (deps.foldl (Db.unblockOne now) db).blocks j = db.blocks j := by
  induction deps generalizing db with
  | nil => rfl
  | cons dep rest ih => rw [List.foldl_cons, ih, blocks_unblockOne]

theorem Db.blockers_foldl_unblockOne (deps : List Dependency) (db : Db) (j : Nat) :
    (deps.foldl (Db.unblockOne now) db).blockers j = db.blockers j := by
  induction deps generalizing db with
  | nil => rfl
  | cons dep rest ih => rw [List.foldl_cons, ih, blockers_unblockOne]

/-- The second phase: the dependents of each task of a list, from its end to its start. -/
def Db.unblockDependents (now : Nat) (db : Db) (ids : List Nat) : Db :=
  ids.foldr (fun id db => db.unblockAll now id) db

theorem Db.unblockDependents_eq (db : Db) (ids : List Nat) :
    db.unblockDependents now ids =
      (ids.reverse.flatMap db.blocks).foldl (Db.unblockOne now) db := by
  induction ids with
  | nil => rfl
  | cons id rest ih =>
    rw [unblockDependents, List.foldr_cons, ← unblockDependents, ih, unblockAll,
      blocks_foldl_unblockOne, List.reverse_cons, List.flatMap_append, List.foldl_append]
    simp

/-- The cascade is its two phases, one after the other. -/
theorem cascade_eq (n : Nat) (db : Db) (id : Nat) (parentTaskId : Option Nat) :
    cascade env now n db id parentTaskId =
      (completeAll env now n db parentTaskId).unblockDependents now
        (unblockers env now n db id parentTaskId) := by
  induction n generalizing db id parentTaskId with
  | zero => rfl
  | succ n ih =>
    rw [cascade, completeAll, unblockers]
    rcases nextParent env db parentTaskId with _ | parent
    · rfl
    · simp only [ih]
      rfl

/-- Without the depth limit the tasks whose dependents are unblocked are the task itself and
    everything completed. -/
theorem unblockers_eq {n : Nat} {db : Db} {id : Nat} {parentTaskId : Option Nat}
    (h : hitsDepthLimit env now n db parentTaskId = false) :
    unblockers env now n db id parentTaskId = id :: completions env now n db parentTaskId := by
  induction n generalizing db id parentTaskId with
  | zero => cases h
  | succ n ih =>
    rw [hitsDepthLimit] at h
    rw [unblockers, completions]
    rcases hnext : nextParent env db parentTaskId with _ | parent
    · rfl
    · rw [hnext] at h
      simp only [ih h]

theorem status?_completeAll (n : Nat) (db : Db) (parentTaskId : Option Nat) (j : Nat) :
    (completeAll env now n db parentTaskId).status? j =
      if j ∈ completions env now n db parentTaskId then some .done else db.status? j := by
  induction n generalizing db parentTaskId with
  | zero => simp [completeAll, completions]
  | succ n ih =>
    rw [completeAll, completions]
    rcases hnext : nextParent env db parentTaskId with _ | parent
    · simp
    · obtain ⟨-, hfind, -⟩ := nextParent_eq_some hnext
      simp only [ih, Db.status?_complete hfind, List.mem_cons]
      by_cases hj : j = parent.id
      · simp [hj]
      · simp [hj]

theorem blocks_completeAll (n : Nat) (db : Db) (parentTaskId : Option Nat) (j : Nat) :
    (completeAll env now n db parentTaskId).blocks j = db.blocks j := by
  induction n generalizing db parentTaskId with
  | zero => rfl
  | succ n ih =>
    rw [completeAll]
    rcases nextParent env db parentTaskId with _ | parent
    · rfl
    · simp only [ih, Db.blocks_complete]

theorem blockers_completeAll (n : Nat) (db : Db) (parentTaskId : Option Nat) (j : Nat) :
    (completeAll env now n db parentTaskId).blockers j = db.blockers j := by
  induction n generalizing db parentTaskId with
  | zero => rfl
  | succ n ih =>
    rw [completeAll]
    rcases nextParent env db parentTaskId with _ | parent
    · rfl
    · simp only [ih, Db.blockers_complete]

/-- What is completed was open or in progress before. -/
theorem status?_of_mem_completions {n : Nat} {db : Db} {parentTaskId : Option Nat} {j : Nat}
    (h : j ∈ completions env now n db parentTaskId) :
    db.status? j = some .open ∨ db.status? j = some .inProgress := by
  induction n generalizing db parentTaskId with
  | zero => simp [completions] at h
  | succ n ih =>
    rw [completions] at h
    rcases hnext : nextParent env db parentTaskId with _ | parent
    · simp [hnext] at h
    · obtain ⟨-, hfind, hc, -⟩ := nextParent_eq_some hnext
      rw [hnext] at h
      have hparent : db.status? parent.id = some parent.status := by
        rw [Db.status?, hfind, Option.map_some]
      by_cases hj : j = parent.id
      · rw [hj, hparent]
        exact (Task.completable_iff.1 hc).imp (congrArg some) (congrArg some)
      · have hrest := ih ((List.mem_cons.1 h).resolve_left hj)
        rwa [Db.status?_complete hfind, if_neg hj] at hrest

/-- One of the tasks blocks `j`. -/
def Db.DependsOn (db : Db) (ids : List Nat) (j : Nat) : Prop :=
  ∃ i ∈ ids, ∃ dep ∈ db.blocks i, dep.blocksTaskId = j

instance (db : Db) (ids : List Nat) (j : Nat) : Decidable (db.DependsOn ids j) :=
  inferInstanceAs (Decidable (∃ i ∈ ids, ∃ dep ∈ db.blocks i, dep.blocksTaskId = j))

/-- **The statuses after a cascade**: the completed tasks are done; a blocked task that depends
    on one of the unblockers is open if all its blockers are done by now; nothing else has
    changed. -/
theorem status?_cascade (n : Nat) (db : Db) (id : Nat) (parentTaskId : Option Nat) (j : Nat) :
    (cascade env now n db id parentTaskId).status? j =
      if j ∈ completions env now n db parentTaskId then some .done
      else if db.DependsOn (unblockers env now n db id parentTaskId) j ∧
          db.status? j = some .blocked ∧
          (completeAll env now n db parentTaskId).unblocked j = true then some .open
      else db.status? j := by
  have hedges : (∃ dep ∈ (unblockers env now n db id parentTaskId).reverse.flatMap
      (completeAll env now n db parentTaskId).blocks, dep.blocksTaskId = j) ↔
      db.DependsOn (unblockers env now n db id parentTaskId) j := by
    simp only [List.mem_flatMap, List.mem_reverse, blocks_completeAll, Db.DependsOn]
    constructor
    · rintro ⟨dep, ⟨i, hi, hdep⟩, hj⟩
      exact ⟨i, hi, dep, hdep, hj⟩
    · rintro ⟨i, hi, dep, hdep, hj⟩
      exact ⟨dep, ⟨i, hi, hdep⟩, hj⟩
  rw [cascade_eq, Db.unblockDependents_eq, Db.status?_foldl_unblockOne, status?_completeAll]
  simp only [hedges]
  by_cases hj : j ∈ completions env now n db parentTaskId
  · simp [hj]
  · simp [hj]

/-- The second phase makes nothing done and takes nothing out of done. -/
theorem done_cascade (n : Nat) (db : Db) (id : Nat) (parentTaskId : Option Nat) (j : Nat) :
    (cascade env now n db id parentTaskId).status? j = some .done ↔
      (completeAll env now n db parentTaskId).status? j = some .done := by
  rw [status?_cascade, status?_completeAll]
  by_cases hj : j ∈ completions env now n db parentTaskId
  · simp [hj]
  · rw [if_neg hj, if_neg hj]
    split
    · rename_i h
      simp [h.2.1]
    · exact Iff.rfl

theorem unblocked_cascade (n : Nat) (db : Db) (id : Nat) (parentTaskId : Option Nat) (j : Nat) :
    (cascade env now n db id parentTaskId).unblocked j =
      (completeAll env now n db parentTaskId).unblocked j := by
  refine Db.unblocked_congr ?_ (done_cascade n db id parentTaskId)
  rw [cascade_eq, Db.unblockDependents_eq, Db.blockers_foldl_unblockOne]

/-! ## Induction over the writes of a cascade -/

section Induction

variable {I : Db → Prop}

theorem Db.complete_induction (hstep : ∀ (db : Db) id row s, I db →
      db.tasks.find? id = some row → s ∈ validStatusTransitions row.status →
      I (db.setStatus now id s))
    {db : Db} {parent : Task} (h : I db) (hfind : db.tasks.find? parent.id = some parent)
    (hc : parent.completable = true) : I (db.complete now parent) := by
  rw [complete]
  rcases Task.completable_iff.1 hc with hs | hs
  · rw [if_pos hs]
    refine hstep _ _ (parent.withStatus now .inProgress) _ (hstep _ _ parent _ h hfind ?_) ?_ ?_
    · rw [hs]
      decide
    · rw [find?_setStatus, hfind, Option.map_some, if_pos rfl]
    · rw [Task.withStatus_status]
      decide
  · rw [if_neg (by simp [hs])]
    refine hstep _ _ parent _ h hfind ?_
    rw [hs]
    decide

theorem Db.unblockOne_induction (hstep : ∀ (db : Db) id row s, I db →
      db.tasks.find? id = some row → s ∈ validStatusTransitions row.status →
      I (db.setStatus now id s))
    {db : Db} {dep : Dependency} (h : I db) : I (db.unblockOne now dep) := by
  unfold unblockOne
  split
  · rename_i hblocked
    obtain ⟨row, hrow, hs⟩ := Option.map_eq_some_iff.1 hblocked.1
    refine hstep _ _ row _ h hrow ?_
    rw [hs]
    decide
  · exact h

/-- What every legal status update keeps, a cascade keeps. -/
theorem cascade_induction (hstep : ∀ (db : Db) id row s, I db →
      db.tasks.find? id = some row → s ∈ validStatusTransitions row.status →
      I (db.setStatus now id s))
    {n : Nat} {db : Db} {id : Nat} {parentTaskId : Option Nat} (h : I db) :
    I (cascade env now n db id parentTaskId) := by
  have hpass : ∀ (deps : List Dependency) db, I db → I (deps.foldl (Db.unblockOne now) db) := by
    intro deps
    induction deps with
    | nil => exact fun _ h => h
    | cons dep rest ih => exact fun db h => ih _ (Db.unblockOne_induction hstep h)
  induction n generalizing db id parentTaskId with
  | zero => exact h
  | succ n ih =>
    rw [cascade]
    refine hpass _ _ ?_
    rcases hnext : nextParent env db parentTaskId with _ | parent
    · exact h
    · obtain ⟨-, hfind, hc, -⟩ := nextParent_eq_some hnext
      exact ih (Db.complete_induction hstep h hfind hc)

/-- A part of a row that status updates leave alone is left alone by a cascade. -/
theorem map_find?_cascade {β : Type} (f : Task → β) (hf : ∀ s t, f (Task.withStatus now s t) = f t)
    (n : Nat) (db : Db) (id : Nat) (parentTaskId : Option Nat) (j : Nat) :
    ((cascade env now n db id parentTaskId).tasks.find? j).map f = (db.tasks.find? j).map f := by
  refine cascade_induction (I := fun db' => (db'.tasks.find? j).map f = (db.tasks.find? j).map f)
    (fun db' i row s h hrow _ => ?_) rfl
  rw [← h, Db.find?_setStatus]
  rcases db'.tasks.find? j with _ | t
  · rfl
  · by_cases hj : j = i <;> simp [hj, hf]

theorem parent?_cascade (n : Nat) (db : Db) (id : Nat) (parentTaskId : Option Nat) (j : Nat) :
    (cascade env now n db id parentTaskId).parent? j = db.parent? j := by
  have h : ((cascade env now n db id parentTaskId).tasks.find? j).map Task.parentTaskId =
      (db.tasks.find? j).map Task.parentTaskId :=
    map_find?_cascade Task.parentTaskId (fun _ _ => rfl) n db id parentTaskId j
  have hjoin : ∀ t : Option Task, (t.bind fun t => t.parentTaskId) = (t.map Task.parentTaskId).join :=
    fun t => by cases t <;> rfl
  rw [Db.parent?, Db.parent?, hjoin, hjoin, h]

theorem project?_cascade (n : Nat) (db : Db) (id : Nat) (parentTaskId : Option Nat) (j : Nat) :
    (cascade env now n db id parentTaskId).project? j = db.project? j :=
  map_find?_cascade Task.projectId (fun _ _ => rfl) n db id parentTaskId j

end Induction

/-! ## The writes of a cascade -/

theorem Db.setStatus_log {db : Db} {id : Nat} {s : TaskStatus} {row : Task}
    (h : db.tasks.find? id = some row) (hne : row.status ≠ s) :
    (db.setStatus now id s).statusWrites =
      db.statusWrites ++ [⟨id, row.status, s, (db.setStatus now id s).tasks.rows⟩] := by
  rw [setStatus, writeTask_log h, Task.withStatus_status, if_neg (Ne.symm hne), writeTask_tasks h]

theorem Db.find?_complete {db : Db} {parent : Task} {j : Nat} (hj : j ≠ parent.id) :
    (db.complete now parent).tasks.find? j = db.tasks.find? j := by
  unfold complete
  rw [setStatus, find?_writeTask_ne hj]
  split
  · rw [setStatus, find?_writeTask_ne hj]
  · rfl

/-- The last write of a completion is the one into done. -/
theorem Db.complete_log {db : Db} {parent : Task} (now : Nat) (h : db.tasks.find? parent.id = some parent)
    (hc : parent.completable = true) :
    ∃ first : List StatusWrite, (∀ e ∈ first, e.toStatus = .inProgress) ∧
      (db.complete now parent).statusWrites = db.statusWrites ++ (first ++
        [⟨parent.id, .inProgress, .done, (db.complete now parent).tasks.rows⟩]) := by
  rcases Task.completable_iff.1 hc with hs | hs
  · have hmid : (db.setStatus now parent.id .inProgress).tasks.find? parent.id =
        some (parent.withStatus now .inProgress) := by
      rw [find?_setStatus, h, Option.map_some, if_pos rfl]
    refine ⟨[⟨parent.id, .open, .inProgress,
      (db.setStatus now parent.id .inProgress).tasks.rows⟩], by simp, ?_⟩
    rw [complete, if_pos hs, setStatus_log hmid (by simp), setStatus_log h (by simp [hs]), hs,
      List.append_assoc]
    rfl
  · refine ⟨[], by simp, ?_⟩
    rw [complete, if_neg (by simp [hs]), setStatus_log h (by simp [hs]), hs, List.nil_append]

theorem Db.unblockOne_log (db : Db) (now : Nat) (dep : Dependency) :
    ∃ new : List StatusWrite, (∀ e ∈ new, e.toStatus = .open) ∧
      (db.unblockOne now dep).statusWrites = db.statusWrites ++ new := by
  unfold unblockOne
  split
  · rename_i h
    obtain ⟨row, hrow, hs⟩ := Option.map_eq_some_iff.1 h.1
    exact ⟨_, by simp, setStatus_log hrow (by simp [hs])⟩
  · exact ⟨[], by simp, (List.append_nil _).symm⟩

/-- The second phase writes no done. -/
theorem Db.unblockAll_log (db : Db) (now id : Nat) :
    ∃ new : List StatusWrite, (∀ e ∈ new, e.toStatus = .open) ∧
      (db.unblockAll now id).statusWrites = db.statusWrites ++ new := by
  rw [unblockAll]
  generalize db.blocks id = deps
  induction deps generalizing db with
  | nil => exact ⟨[], by simp, (List.append_nil _).symm⟩
  | cons dep rest ih =>
    obtain ⟨new, hnew, hlog⟩ := db.unblockOne_log now dep
    obtain ⟨new', hnew', hlog'⟩ := ih (db.unblockOne now dep)
    refine ⟨new ++ new', ?_, ?_⟩
    · intro e he
      exact (List.mem_append.1 he).elim (hnew e) (hnew' e)
    · rw [List.foldl_cons, hlog', hlog, List.append_assoc]

end Phases

end WoodFiredTasks
