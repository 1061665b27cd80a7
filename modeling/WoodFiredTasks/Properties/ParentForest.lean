import WoodFiredTasks.Lib.Runs
import WoodFiredTasks.TaskChanges

set_option autoImplicit false

/-! # The parent relation

`createTask` checks that the parent exists and is in the project of the new task, and a new task
is nobody's parent. `updateTask` writes any parent that exists. So the parent relation is a
forest inside the projects in a run whose updates choose a parent in the task's own project that
is neither the task nor a descendant of it. -/

namespace WoodFiredTasks

open TaskService

/-- No task is its own ancestor, and every parent is there and in the project of its child. -/
structure Db.ParentForest (db : Db) : Prop where
  acyclic : Acyclic fun id parentId => db.parent? id = some parentId
  sameProject : ∀ id parentId, db.parent? id = some parentId →
    ∃ projectId, db.project? id = some projectId ∧ db.project? parentId = some projectId

/-- What the reads of `createTask` have established for the insertion: the parent is an old task,
    and in the right project if it is still there. -/
def Point.ParentRead (db : Db) : Point → Prop
  | .insertTask input => ∀ parentId, input.parentTaskId = some parentId →
    parentId < db.tasks.next ∧ ∀ projectId, db.project? parentId = some projectId →
      projectId = input.projectId
  | _ => True

/-- The task and the new parent of an update that a step writes. -/
def Sys.reparentOf (s : Sys) : Action → Option (Nat × Nat)
  | .step p _ =>
    match s.procs p with
    | some (.updateWrite _ id input _) => input.parentTaskId.join.map fun parentId => (id, parentId)
    | _ => none
  | _ => none

/-- A new parent is in the project of the task, and neither the task nor a descendant of it. -/
def ReparentsInForest (s : Sys) (a : Action) : Prop :=
  ∀ move ∈ s.reparentOf a, s.db.project? move.2 = s.db.project? move.1 ∧
    ¬ Relation.ReflTransGen (fun id parentId => s.db.parent? id = some parentId) move.2 move.1

section Changes

variable {env : Env} {now : Nat} {db db' : Db} {point : Point}

theorem Db.parent?_eq_some {id parentId : Nat} :
    db.parent? id = some parentId ↔
      ∃ row, db.tasks.find? id = some row ∧ row.parentTaskId = some parentId :=
  Option.bind_eq_some_iff

theorem Db.parent?_writeTask {id j : Nat} {f : Task → Task} {hf : ∀ t, (f t).id = t.id} :
    (db.writeTask id f hf).parent? j =
      if j = id then (db.tasks.find? id).bind fun t => (f t).parentTaskId else db.parent? j := by
  rw [Db.parent?, Db.find?_writeTask]
  by_cases hj : j = id
  · subst hj
    rw [if_pos rfl]
    rcases db.tasks.find? j with _ | t <;> simp
  · rw [if_neg hj, Db.parent?]
    rcases db.tasks.find? j with _ | t <;> simp [hj]

/-- The forest depends on the parents and the projects only. -/
theorem Db.ParentForest.of_eq (h : db.ParentForest) (hparent : ∀ j, db'.parent? j = db.parent? j)
    (hproject : ∀ j, db'.project? j = db.project? j) : db'.ParentForest := by
  refine ⟨h.acyclic.mono fun x y hxy => (hparent x) ▸ hxy, fun id parentId hid => ?_⟩
  rw [hproject, hproject]
  exact h.sameProject id parentId ((hparent id) ▸ hid)

/-- A write of a row that keeps its parent and its project keeps the forest. -/
theorem Db.ParentForest.writeTask {id : Nat} {f : Task → Task} {hf : ∀ t, (f t).id = t.id}
    (h : db.ParentForest) (hparent : ∀ t, (f t).parentTaskId = t.parentTaskId)
    (hproject : ∀ t, (f t).projectId = t.projectId) : (db.writeTask id f hf).ParentForest := by
  refine h.of_eq (fun j => ?_) fun j => Db.project?_writeTask hproject
  rw [Db.parent?_writeTask]
  split
  · rename_i hj
    simp only [hj, hparent, Db.parent?]
  · rfl

theorem Db.SameTasks.parentForest (h : db.SameTasks db') (hdb : db.ParentForest) :
    db'.ParentForest :=
  hdb.of_eq (fun j => by rw [Db.parent?, Db.parent?, h.tasks]) fun j => by
    rw [Db.project?, Db.project?, h.tasks]

/-- Parents come before the next id, so a new task is nobody's parent. -/
theorem Db.ParentForest.parent_lt (h : db.ParentForest) {id parentId : Nat}
    (hid : db.parent? id = some parentId) : parentId < db.tasks.next := by
  obtain ⟨projectId, -, hp⟩ := h.sameProject id parentId hid
  obtain ⟨row, hrow, -⟩ := Db.project?_eq_some.1 hp
  exact Table.lt_next_of_find? hrow

/-- A write that gives one row another parent keeps the forest if that parent is in the row's
    project and no descendant of the row. -/
theorem Db.ParentForest.setParent {id : Nat} {f : Task → Task} {hf : ∀ t, (f t).id = t.id}
    {new : Option Nat} (h : db.ParentForest) (hproject : ∀ t, (f t).projectId = t.projectId)
    (hnew : ∀ t, (f t).parentTaskId = new)
    (hok : ∀ p, new = some p → db.project? p = db.project? id ∧
      ¬ Relation.ReflTransGen (fun id parentId => db.parent? id = some parentId) p id) :
    (db.writeTask id f hf).ParentForest := by
  have hsub : ∀ x y, (db.writeTask id f hf).parent? x = some y →
      db.parent? x = some y ∨ (x = id ∧ new = some y ∧ (db.project? id).isSome = true) := by
    intro x y hxy
    rw [Db.parent?_writeTask] at hxy
    split at hxy
    · rename_i hx
      obtain ⟨t, ht, hy⟩ := Option.bind_eq_some_iff.1 hxy
      refine .inr ⟨hx, (hnew t).symm.trans hy, ?_⟩
      rw [Db.project?, ht]
      rfl
    · exact .inl hxy
  constructor
  · cases new with
    | none => exact h.acyclic.mono fun x y hxy => (hsub x y hxy).resolve_right (by simp)
    | some p =>
      refine h.acyclic.insert (hok p rfl).2 fun x y hxy => (hsub x y hxy).imp_right ?_
      rintro ⟨hx, hy, -⟩
      exact ⟨hx, (Option.some.inj hy).symm⟩
  · intro x y hxy
    rw [Db.project?_writeTask hproject, Db.project?_writeTask hproject]
    rcases hsub x y hxy with hold | ⟨rfl, hy, hrow⟩
    · exact h.sameProject x y hold
    · obtain ⟨q, hq⟩ := Option.isSome_iff_exists.1 hrow
      exact ⟨q, hq, (hok y hy).1.trans hq⟩

/-- A new task keeps the forest if its parent is in its project. -/
theorem Db.ParentForest.insertTask {dto : CreateTaskDTO} {tags : List String} (h : db.ParentForest)
    (hparent : ∀ p, presentId dto.parentTaskId = some p → db.project? p = some dto.projectId) :
    (db.insertTask dto tags now).ParentForest := by
  have hproject : ∀ j, (db.insertTask dto tags now).project? j =
      if j = db.tasks.next then some dto.projectId else db.project? j := by
    intro j
    rw [Db.project?, Db.find?_insertTask]
    split <;> rfl
  have hsub : ∀ x y, (db.insertTask dto tags now).parent? x = some y → db.parent? x = some y ∨
      (x = db.tasks.next ∧ presentId dto.parentTaskId = some y) := by
    intro x y hxy
    rw [Db.parent?, Db.find?_insertTask] at hxy
    split at hxy
    · rename_i hx
      exact .inr ⟨hx, hxy⟩
    · exact .inl hxy
  have hlt : ∀ {p q}, db.project? p = some q → p < db.tasks.next := by
    intro p q hp
    obtain ⟨row, hrow, -⟩ := Db.project?_eq_some.1 hp
    exact Table.lt_next_of_find? hrow
  constructor
  · rcases hnew : presentId dto.parentTaskId with _ | p
    · exact h.acyclic.mono fun x y hxy => (hsub x y hxy).resolve_right (by simp [hnew])
    · refine h.acyclic.insert (a := db.tasks.next) (b := p) (fun hpath => ?_) fun x y hxy =>
        (hsub x y hxy).imp_right ?_
      · rcases Relation.ReflTransGen.cases_tail hpath with heq | ⟨x, -, hx⟩
        · exact (hlt (hparent p hnew)).ne heq.symm
        · exact (h.parent_lt hx).ne rfl
      · rintro ⟨hx, hy⟩
        exact ⟨hx, (Option.some.inj (hnew.symm.trans hy)).symm⟩
  · intro x y hxy
    rw [hproject, hproject]
    rcases hsub x y hxy with hold | ⟨rfl, hy⟩
    · obtain ⟨q, hx, hy⟩ := h.sameProject x y hold
      rw [if_neg (hlt hx).ne, if_neg (hlt hy).ne]
      exact ⟨q, hx, hy⟩
    · rw [if_pos rfl, if_neg (hlt (hparent y hy)).ne]
      exact ⟨dto.projectId, rfl, hparent y hy⟩

/-- A deletion takes the children along, so every parent that is needed is left. -/
theorem Db.ParentForest.deleteTask {id : Nat} (h : db.ParentForest) :
    (db.deleteTask id).ParentForest := by
  have hsub : ∀ x y, (db.deleteTask id).parent? x = some y → db.parent? x = some y := by
    intro x y hxy
    obtain ⟨row, hrow, hy⟩ := Db.parent?_eq_some.1 hxy
    exact Db.parent?_eq_some.2 ⟨row, (Db.find?_deleteTask hrow).1, hy⟩
  refine ⟨h.acyclic.mono hsub, fun x y hxy => ?_⟩
  obtain ⟨q, hx, hy⟩ := h.sameProject x y (hsub x y hxy)
  obtain ⟨row, hrow, hparent⟩ := Db.parent?_eq_some.1 hxy
  obtain ⟨hold, hleft⟩ := Db.find?_deleteTask hrow
  obtain ⟨u, hu, huq⟩ := Db.project?_eq_some.1 hy
  refine ⟨q, Db.project?_eq_some.2 ⟨row, hrow, ?_⟩,
    Db.project?_eq_some.2 ⟨u, hleft y u hparent hu, huq⟩⟩
  rw [Db.project?, hold] at hx
  exact Option.some.inj hx

/-- Every change of the tasks keeps the forest, an update if it chooses a parent in the forest. -/
theorem Point.TaskChange.parentForest (h : point.TaskChange env now db db')
    (hread : point.ParentRead db)
    (hmove : ∀ existing id input source parentId, point = .updateWrite existing id input source →
      input.parentTaskId = some (some parentId) → db.project? parentId = db.project? id ∧
        ¬ Relation.ReflTransGen (fun id parentId => db.parent? id = some parentId) parentId id)
    (hdb : db.ParentForest) : db'.ParentForest := by
  cases h with
  | same h => exact h.parentForest hdb
  | claim => exact hdb.writeTask (fun _ => rfl) fun _ => rfl
  | renew => exact hdb.writeTask (fun _ => rfl) fun _ => rfl
  | @update existing id input source row db' hrow hcheck h =>
    refine h.parentForest ?_
    have hparent : ∀ t current, ((updatesForRepo existing input).apply current now t).parentTaskId =
        input.parentTaskId.getD t.parentTaskId := fun _ _ => rfl
    rcases hinput : input.parentTaskId with _ | new
    · exact hdb.writeTask (fun t => by rw [hparent, hinput]; rfl) fun _ => rfl
    · have hnew : ∀ t current,
          ((updatesForRepo existing input).apply current now t).parentTaskId = new := by
        intro t current
        rw [hparent, hinput]
        rfl
      refine hdb.setParent (fun _ => rfl) (fun t => hnew t _) ?_
      rintro p rfl
      exact hmove existing id input source p rfl hinput
  | resize h => exact h.parentForest (hdb.writeTask (fun _ => rfl) fun _ => rfl)
  | release => exact hdb.writeTask (fun _ => rfl) fun _ => rfl
  | cascade =>
    exact hdb.of_eq (fun j => parent?_cascade _ _ _ _ j) fun j => project?_cascade _ _ _ _ j
  | @insert input db' hcheck h =>
    refine h.parentForest (hdb.insertTask fun p hp => ?_)
    have hparent : input.parentTaskId = some p := (Option.filter_eq_some_iff.1 hp).1
    have hexists : db.parentOk (presentId (CreateTaskInput.dto input).parentTaskId) = true :=
      Db.parentOk_of_insertTaskError hcheck
    rw [hp] at hexists
    obtain ⟨u, hu⟩ := Option.isSome_iff_exists.1 hexists
    have hq : db.project? p = some u.projectId := by rw [Db.project?, hu]; rfl
    rw [hq, (hread p hparent).2 _ hq]
    rfl
  | delete => exact hdb.deleteTask

end Changes

/-! ## Runs -/

/-- The forest, and what the pending insertions have read of it. -/
structure Sys.ForestInv (s : Sys) : Prop where
  forest : s.db.ParentForest
  read : ∀ p point, s.procs p = some point → point.ParentRead s.db

theorem Point.ParentRead.mono {db db' : Db} {point : Point} (h : point.ParentRead db)
    (hdb : db.KeepsProjects db') : point.ParentRead db' := by
  cases point with
  | insertTask input =>
    intro parentId hparent
    obtain ⟨hlt, hproject⟩ := h parentId hparent
    exact ⟨hlt.trans_le hdb.next, fun q hq => hproject q (hdb.project parentId hlt q hq)⟩
  | _ => trivial

/-- The read of the parent comes right before the insertion. -/
theorem Point.Effect.parentRead {env : Env} {now : Nat} {db db' : Db} {point point' : Point}
    (h : point.Effect env now db db' (some point')) : point'.ParentRead db' := by
  cases point' with
  | insertTask input =>
    cases point with
    | start call =>
      cases call with
      | createTask input' =>
        obtain ⟨rfl, hnext, ⟨-, hparent⟩, -⟩ := h
        cases hnext
        intro parentId hid
        obtain ⟨parent, hrow, hproject⟩ := hparent parentId hid
        refine ⟨Table.lt_next_of_find? hrow, fun q hq => ?_⟩
        rw [Db.project?, hrow] at hq
        exact (Option.some.inj hq).symm.trans hproject
      | sweep timeoutMinutes =>
        obtain ⟨-, claims, hnext, -⟩ := h
        cases claims <;> cases hnext
      | claimTask =>
        obtain ⟨-, path, hnext⟩ := h
        cases hnext
      | updateTask =>
        obtain ⟨-, row, -, hnext, -⟩ := h
        cases hnext
      | addDependency => cases h.2
      | removeDependency => cases h.2
      | deleteTask => cases h.2
    | claimUpdate path =>
      cases path with
      | fresh => cases h.1
      | renewal => cases h.1
    | renewReload => cases h.2
    | updateWrite existing id input source =>
      obtain ⟨-, written, hnext⟩ := h
      have := Option.some.inj hnext
      unfold afterWrite at this
      split at this <;> cases this
    | sizeRead =>
      obtain ⟨-, existing, hnext⟩ := h
      cases hnext
    | sizeWrite =>
      obtain ⟨-, hnext | ⟨_, _, _, _, -, hnext⟩⟩ := h <;> cases hnext
    | announce => cases h.1
    | release timeoutMinutes claim rest =>
      rcases h with ⟨-, hnext⟩ | ⟨hnext, -⟩
      · cases rest <;> cases hnext
      · cases hnext
    | releaseReload timeoutMinutes claim rest =>
      obtain ⟨-, hnext⟩ := h
      cases rest <;> cases hnext
    | blockedTaskRead => cases h.2
    | cycleCheck => cases h.2.1
    | insertEdge => cases h.1
    | insertTask => obtain ⟨-, hnext | ⟨_, _, hnext⟩⟩ := h <;> cases hnext
    | deleteRow => cases h.2
  | _ => trivial

theorem Sys.ForestInv.step {s : Sys} {a : Action} (h : s.ForestInv) (hmove : ReparentsInForest s a) :
    (s.step a).ForestInv := by
  constructor
  · refine Sys.step_tasks h.forest (fun _ h => ⟨h.1, h.2⟩) (fun _ h => ⟨h.1, h.2⟩)
      fun p env point db' ha hpoint hchange => ?_
    refine hchange.parentForest (h.read p point hpoint) fun existing id input source parentId hp hq => ?_
    refine hmove (id, parentId) ?_
    subst ha hp
    simp only [Sys.reparentOf, hpoint, hq, Option.join_some, Option.map_some, Option.mem_some_iff]
  · exact Sys.step_points (P := fun _ db point => point.ParentRead db) h.read (fun _ _ _ => trivial)
      (fun _ hread => hread.mono (s.keepsProjects_step a))
      fun _ _ _ _ _ _ _ heffect _ => heffect.parentRead

/-- **Main theorem.** From the empty database, the parent relation is a forest inside the projects
    in every state of every run whose updates choose a parent in the project of the task that is
    neither the task nor a descendant of it. -/
theorem parents_forest {now : Nat} {actions : List Action}
    (h : RunOk Sys.step ReparentsInForest (Sys.quiet .empty now) actions) :
    Always Sys.step (fun s => s.db.ParentForest) (Sys.quiet .empty now) actions := by
  refine (h.always (I := Sys.ForestInv) (fun s a hs ha => hs.step ha) ?_).mono fun s hs => hs.forest
  refine ⟨⟨fun x hcycle => ?_, fun _ _ hid => nomatch hid⟩, fun _ _ hpoint => nomatch hpoint⟩
  obtain ⟨y, hxy, -⟩ := Relation.TransGen.head'_iff.1 hcycle
  cases hxy

/-- The call that creates a task of project 1. -/
def createCall (parentTaskId : Option Nat) : Call :=
  .createTask { title := "task", projectId := 1, createdBy := "user", parentTaskId := parentTaskId }

/-- The update of the parent alone. -/
def parentUpdate (parentTaskId : Nat) : UpdateTaskInput :=
  { parentTaskId := some (some parentTaskId) }

/-- Project 1 gets a task. -/
def firstTask : List Action :=
  [.addProject "project", .call 1 (createCall none), .step 1 .undisturbed, .step 1 .undisturbed,
    .step 1 .undisturbed, .step 1 .undisturbed]

/-- A second task is created and then put under the first. -/
def secondTaskMoved : List Action :=
  firstTask ++ [.call 1 (createCall none), .step 1 .undisturbed, .step 1 .undisturbed,
    .step 1 .undisturbed, .step 1 .undisturbed, .call 1 (.updateTask 2 (parentUpdate 1) .user none),
    .step 1 .undisturbed, .step 1 .undisturbed]

/-- The first task has no parent, so nothing comes back from it to the second. -/
theorem parents_forest_moved : Always Sys.step (fun s => s.db.ParentForest)
    (Sys.quiet .empty 0) secondTaskMoved := by
  refine parents_forest (RunOk.mono (C := fun s a => ∀ move ∈ s.reparentOf a,
    s.db.project? move.2 = s.db.project? move.1 ∧ s.db.parent? move.2 = none ∧ move.2 ≠ move.1)
    (by decide +kernel) fun s a h move hmem => ⟨(h move hmem).1, fun hpath => ?_⟩)
  obtain ⟨-, hroot, hne⟩ := h move hmem
  rcases Relation.ReflTransGen.cases_head hpath with heq | ⟨x, hx, -⟩
  · exact hne heq
  · rw [hroot] at hx
    cases hx

/-- A task becomes its own parent. -/
theorem parents_selfLoop : ¬ ((Sys.quiet .empty 0).run
    (firstTask ++ [.call 1 (.updateTask 1 (parentUpdate 1) .user none), .step 1 .undisturbed,
      .step 1 .undisturbed])).db.ParentForest := by
  intro h
  exact h.acyclic 1 (.single (by decide +kernel))

end WoodFiredTasks
