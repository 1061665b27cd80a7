import WoodFiredTasks.ProcessSteps

set_option autoImplicit false

/-! # What a step can do to the tasks

Most invariants of runs are about the rows of `tasks` and the log of their status writes.
`Point.TaskChange` lists what the segment from a point can do to these, whatever else it writes
(edges, score history), so that such an invariant is proved by one case for each kind of write. -/

namespace WoodFiredTasks

open TaskService

/-- What the segment from a point may do to the tasks, and with what the row was found. -/
inductive Point.TaskChange (env : Env) (now : Nat) (db : Db) : Point → Db → Prop where
  | same {point db'} (h : db.SameTasks db') : TaskChange env now db point db'
  | claim {taskId assignee user source row} (hrow : db.tasks.find? taskId = some row)
      (hassignee : row.assignee = none) (hstatus : row.status = .open) :
      TaskChange env now db (.claimUpdate .fresh taskId assignee user source)
        (db.writeTask taskId (Task.claim assignee user now) (Task.claim_id assignee user now))
  | renew {taskId assignee user source row} (hrow : db.tasks.find? taskId = some row)
      (hassignee : row.assignee = some assignee) (hstatus : row.status = .inProgress) :
      TaskChange env now db (.claimUpdate .renewal taskId assignee user source)
        (db.writeTask taskId (Task.renew now) (Task.renew_id now))
  | update {existing id input source row db'} (hrow : db.tasks.find? id = some row)
      (hcheck : db.updateTaskError id (updatesForRepo existing input) = none)
      (h : (db.applyUpdate id (updatesForRepo existing input) (input.status.map fun _ => row.status)
        now).SameTasks db') : TaskChange env now db (.updateWrite existing id input source) db'
  | resize {sizing taskId existing jobSize db'}
      (h : (db.writeTask taskId (Task.autoJobSize jobSize autoSource now)
        (Task.autoJobSize_id jobSize autoSource now)).SameTasks db') :
      TaskChange env now db (.sizeWrite sizing taskId existing jobSize) db'
  | release {timeoutMinutes claim rest row} (hrow : db.tasks.find? claim.id = some row)
      (hassignee : row.assignee ≠ none) (hstatus : row.status = .inProgress) :
      TaskChange env now db (.release timeoutMinutes claim rest)
        (db.writeTask claim.id (Task.release now) (Task.release_id now))
  | cascade {existing updated input source} (hchanged : (nextStatus existing input).isSome = true)
      (hdone : updated.status = .done) :
      TaskChange env now db (.announce existing updated input source)
        (cascade env now WorkflowEngine.maxCascadeDepth db updated.id updated.parentTaskId)
  | insert {input db'}
      (hcheck : db.insertTaskError ((CreateTaskInput.dto input).row input.tags 0 0) = none)
      (h : (db.insertTask (CreateTaskInput.dto input) input.tags now).SameTasks db') :
      TaskChange env now db (.insertTask input) db'
  | delete {id} : TaskChange env now db (.deleteRow id) (db.deleteTask id)

/-- Every effect is one of these changes. -/
theorem Point.Effect.taskChange {env : Env} {now : Nat} {db db' : Db} {point : Point}
    {next : Option Point} (h : point.Effect env now db db' next) :
    point.TaskChange env now db db' := by
  have hread : db' = db → point.TaskChange env now db db' := by
    rintro rfl
    exact .same (.refl _)
  cases point with
  | start call =>
    cases call with
    | removeDependency taskId blocksTaskId =>
      rw [h.1]
      exact .same ⟨rfl, rfl, rfl, rfl, rfl⟩
    | _ => exact hread h.1
  | claimUpdate path =>
    cases path with
    | fresh =>
      obtain ⟨-, row, hrow, hassignee, hstatus, rfl⟩ := h
      exact .claim hrow hassignee hstatus
    | renewal =>
      obtain ⟨-, row, hrow, hassignee, hstatus, rfl⟩ := h
      exact .renew hrow hassignee hstatus
  | updateWrite =>
    obtain ⟨⟨row, hrow, hcheck, hsame, -⟩, -⟩ := h
    exact .update hrow hcheck hsame
  | sizeWrite => exact .resize h.1.2.1
  | announce =>
    obtain ⟨-, rfl | ⟨hchanged, hdone, rfl⟩⟩ := h
    · exact .same (.refl _)
    · exact .cascade hchanged hdone
  | release =>
    obtain ⟨rfl, -⟩ | ⟨-, row, hrow, hassignee, hstatus, rfl⟩ := h
    · exact .same (.refl _)
    · exact .release hrow hassignee hstatus
  | insertEdge =>
    obtain ⟨-, -, rfl⟩ := h
    exact .same ⟨rfl, rfl, rfl, rfl, rfl⟩
  | insertTask => exact .insert h.1.1 h.1.2.1
  | deleteRow =>
    rw [h.1]
    exact .delete
  | renewReload => exact hread h.1
  | sizeRead => exact hread h.1
  | releaseReload => exact hread h.1
  | blockedTaskRead => exact hread h.1
  | cycleCheck => exact hread h.1

/-- A property of databases that every such change keeps is kept by every step. -/
theorem Sys.step_tasks {I : Db → Prop} {s : Sys} {a : Action} (h : I s.db)
    (hproject : ∀ name, I s.db → I (s.db.addProject name))
    (huser : ∀ id, I s.db → I { s.db with users := s.db.users ++ [id] })
    (hchange : ∀ p env point db', a = .step p env → s.procs p = some point →
      point.TaskChange env s.now s.db db' → I s.db → I db') : I (s.step a).db :=
  Sys.step_db hproject huser (fun p env point db' _ ha hpoint heffect =>
    hchange p env point db' ha hpoint heffect.taskChange) h

/-! ## Properties of all rows -/

/-- Every task has the property. -/
def Db.AllTasks (Q : Task → Prop) (db : Db) : Prop := ∀ t row, db.tasks.find? t = some row → Q row

section AllTasks

variable {Q : Task → Prop} {db db' : Db}

theorem Db.AllTasks.sameTasks (h : db.AllTasks Q) (hsame : db.SameTasks db') : db'.AllTasks Q := by
  intro t row hrow
  rw [hsame.tasks] at hrow
  exact h t row hrow

theorem Db.AllTasks.writeTask {id : Nat} {f : Task → Task} {hf : ∀ t, (f t).id = t.id}
    (h : db.AllTasks Q) (hwrite : ∀ row, db.tasks.find? id = some row → Q row → Q (f row)) :
    (db.writeTask id f hf).AllTasks Q := by
  intro t row hrow
  rw [Db.find?_writeTask] at hrow
  obtain ⟨old, hold, hnew⟩ := Option.map_eq_some_iff.1 hrow
  split at hnew
  · rename_i hid
    exact hnew ▸ hwrite old (hid ▸ hold) (h t old hold)
  · exact hnew ▸ h t old hold

theorem Db.AllTasks.insertTask {dto : CreateTaskDTO} {tags : List String} {now : Nat}
    (h : db.AllTasks Q) (hnew : ∀ id, Q (dto.row tags now id)) :
    (db.insertTask dto tags now).AllTasks Q := by
  intro t row hrow
  rw [Db.find?_insertTask] at hrow
  split at hrow
  · exact Option.some.inj hrow ▸ hnew _
  · exact h t row hrow

theorem Db.AllTasks.deleteTask {id : Nat} (h : db.AllTasks Q) : (db.deleteTask id).AllTasks Q :=
  fun t row hrow => h t row (Db.find?_deleteTask hrow).1

theorem Db.allTasks_empty : Db.empty.AllTasks Q := fun _ _ hrow => nomatch hrow

end AllTasks

/-! ## The claim on a row -/

/-- How the assignee and the status of a row `r` have come to be those of `r'`. -/
inductive Point.ClaimChange (t : Nat) (r r' : Task) : Point → Prop where
  | kept {point} (hassignee : r'.assignee = r.assignee) (hstatus : r'.status = r.status) :
      ClaimChange t r r' point
  | claimed {assignee user source} (hfree : r.assignee = none ∧ r.status = .open)
      (hheld : r'.assignee = some assignee ∧ r'.status = .inProgress) :
      ClaimChange t r r' (.claimUpdate .fresh t assignee user source)
  | updated {existing input source} (hassignee : r'.assignee = input.assignee.getD r.assignee)
      (hstatus : r'.status = input.status.getD r.status) :
      ClaimChange t r r' (.updateWrite existing t input source)
  | released {timeoutMinutes claim rest} (hid : claim.id = t)
      (hfree : r'.assignee = none ∧ r'.status = .open) :
      ClaimChange t r r' (.release timeoutMinutes claim rest)
  | cascaded {existing updated input source} (hdone : updated.status = .done)
      (hassignee : r'.assignee = r.assignee) :
      ClaimChange t r r' (.announce existing updated input source)

/-- A row with an old id was there before, and what the change did to the claim on it. -/
theorem Point.TaskChange.claimChange {env : Env} {now : Nat} {db db' : Db} {point : Point}
    (h : point.TaskChange env now db db') {t : Nat} (ht : t < db.tasks.next) {r' : Task}
    (hr' : db'.tasks.find? t = some r') :
    ∃ r, db.tasks.find? t = some r ∧ point.ClaimChange t r r' := by
  -- a write of one row: the row itself, or another one, which is as it was
  have hwrite : ∀ {id : Nat} {f : Task → Task} {hf : ∀ t, (f t).id = t.id},
      (db.writeTask id f hf).tasks.find? t = some r' →
      ∃ r, db.tasks.find? t = some r ∧ ((t = id ∧ r' = f r) ∨ r' = r) := by
    intro id f hf hfind
    rw [Db.find?_writeTask] at hfind
    obtain ⟨r, hr, hr'⟩ := Option.map_eq_some_iff.1 hfind
    refine ⟨r, hr, ?_⟩
    split at hr'
    · rename_i hid
      exact .inl ⟨hid, hr'.symm⟩
    · exact .inr hr'.symm
  cases h with
  | same h =>
    rw [h.tasks] at hr'
    exact ⟨r', hr', .kept rfl rfl⟩
  | claim hrow hassignee hstatus =>
    obtain ⟨r, hr, ⟨rfl, rfl⟩ | rfl⟩ := hwrite hr'
    · cases hrow.symm.trans hr
      exact ⟨_, hr, .claimed ⟨hassignee, hstatus⟩ ⟨rfl, rfl⟩⟩
    · exact ⟨r', hr, .kept rfl rfl⟩
  | renew =>
    obtain ⟨r, hr, ⟨rfl, rfl⟩ | rfl⟩ := hwrite hr'
    · exact ⟨r, hr, .kept rfl rfl⟩
    · exact ⟨r', hr, .kept rfl rfl⟩
  | update hrow hcheck h =>
    rw [h.tasks] at hr'
    obtain ⟨r, hr, ⟨rfl, rfl⟩ | rfl⟩ := hwrite hr'
    · exact ⟨r, hr, .updated rfl rfl⟩
    · exact ⟨r', hr, .kept rfl rfl⟩
  | resize h =>
    rw [h.tasks] at hr'
    obtain ⟨r, hr, ⟨rfl, rfl⟩ | rfl⟩ := hwrite hr'
    · exact ⟨r, hr, .kept rfl rfl⟩
    · exact ⟨r', hr, .kept rfl rfl⟩
  | release =>
    obtain ⟨r, hr, ⟨rfl, rfl⟩ | rfl⟩ := hwrite hr'
    · exact ⟨r, hr, .released rfl ⟨rfl, rfl⟩⟩
    · exact ⟨r', hr, .kept rfl rfl⟩
  | @cascade existing updated input source hchanged hdone =>
    have hmap : ((WoodFiredTasks.cascade env now WorkflowEngine.maxCascadeDepth db updated.id
        updated.parentTaskId).tasks.find? t).map Task.assignee =
        (db.tasks.find? t).map Task.assignee := map_find?_cascade Task.assignee (fun _ _ => rfl) ..
    rw [hr', Option.map_some] at hmap
    obtain ⟨r, hr, hassignee⟩ := Option.map_eq_some_iff.1 hmap.symm
    exact ⟨r, hr, .cascaded hdone hassignee.symm⟩
  | insert hcheck h =>
    rw [h.tasks, Db.find?_insertTask, if_neg ht.ne] at hr'
    exact ⟨r', hr', .kept rfl rfl⟩
  | delete => exact ⟨r', (Db.find?_deleteTask hr').1, .kept rfl rfl⟩

/-- The same for a step of the whole. -/
theorem Sys.claimChange_step {s : Sys} {a : Action} {t : Nat} (ht : t < s.db.tasks.next) {r' : Task}
    (hr' : (s.step a).db.tasks.find? t = some r') :
    ∃ r, s.db.tasks.find? t = some r ∧ ((r'.assignee = r.assignee ∧ r'.status = r.status) ∨
      ∃ p env point, a = .step p env ∧ s.procs p = some point ∧ point.ClaimChange t r r') := by
  refine Sys.step_tasks (I := fun db => ∀ r', db.tasks.find? t = some r' →
    ∃ r, s.db.tasks.find? t = some r ∧ ((r'.assignee = r.assignee ∧ r'.status = r.status) ∨
      ∃ p env point, a = .step p env ∧ s.procs p = some point ∧ point.ClaimChange t r r'))
    (fun r' hr' => ⟨r', hr', .inl ⟨rfl, rfl⟩⟩) (fun _ h => h) (fun _ h => h)
    (fun p env point db' ha hpoint hchange _ r' hr' => ?_) r' hr'
  obtain ⟨r, hr, hclaim⟩ := hchange.claimChange ht hr'
  exact ⟨r, hr, .inr ⟨p, env, point, ha, hpoint, hclaim⟩⟩

/-! ## Ids and projects

Ids are not used twice, and no write moves a task to another project, so what a read says about
the project of a task stays true as long as the task is there. -/

theorem Db.project?_eq_some {db : Db} {id projectId : Nat} :
    db.project? id = some projectId ↔
      ∃ row, db.tasks.find? id = some row ∧ row.projectId = projectId :=
  Option.map_eq_some_iff

theorem Db.project?_writeTask {db : Db} {id j : Nat} {f : Task → Task} {hf : ∀ t, (f t).id = t.id}
    (hproject : ∀ t, (f t).projectId = t.projectId) :
    (db.writeTask id f hf).project? j = db.project? j := by
  rw [Db.project?, Db.find?_writeTask, Db.project?]
  rcases db.tasks.find? j with _ | t
  · rfl
  · by_cases hj : j = id <;> simp [hj, hproject]

/-- The ids handed out so far, and what the projects of these tasks are. -/
structure Db.KeepsProjects (db db' : Db) : Prop where
  next : db.tasks.next ≤ db'.tasks.next
  project : ∀ id < db.tasks.next, ∀ projectId, db'.project? id = some projectId →
    db.project? id = some projectId

theorem Db.KeepsProjects.refl (db : Db) : db.KeepsProjects db := ⟨le_rfl, fun _ _ _ h => h⟩

theorem Db.KeepsProjects.of_eq {db db' : Db} (hnext : db'.tasks.next = db.tasks.next)
    (hproject : ∀ j, db'.project? j = db.project? j) : db.KeepsProjects db' :=
  ⟨hnext.ge, fun id _ _ h => hproject id ▸ h⟩

theorem Db.KeepsProjects.sameTasks {a b c : Db} (h : a.KeepsProjects b) (h' : b.SameTasks c) :
    a.KeepsProjects c := by
  refine ⟨h'.tasks ▸ h.next, fun id hid q hq => h.project id hid q ?_⟩
  rwa [Db.project?, ← h'.tasks]

theorem Db.next_cascade (env : Env) (now n : Nat) (db : Db) (id : Nat) (parentTaskId : Option Nat) :
    (cascade env now n db id parentTaskId).tasks.next = db.tasks.next := by
  refine cascade_induction (I := fun db' => db'.tasks.next = db.tasks.next)
    (fun db' i row s h _ _ => ?_) rfl
  rw [← h, Db.setStatus, Db.writeTask_next]

theorem Point.TaskChange.keepsProjects {env : Env} {now : Nat} {db db' : Db} {point : Point}
    (h : point.TaskChange env now db db') : db.KeepsProjects db' := by
  have hwrite : ∀ {id : Nat} {f : Task → Task} {hf : ∀ t, (f t).id = t.id},
      (∀ t, (f t).projectId = t.projectId) → db.KeepsProjects (db.writeTask id f hf) := fun hproject =>
    .of_eq Db.writeTask_next fun _ => Db.project?_writeTask hproject
  cases h with
  | same h => exact (Db.KeepsProjects.refl db).sameTasks h
  | claim => exact hwrite fun _ => rfl
  | renew => exact hwrite fun _ => rfl
  | update hrow hcheck h =>
    refine Db.KeepsProjects.sameTasks ?_ h
    exact hwrite fun _ => rfl
  | resize h =>
    refine Db.KeepsProjects.sameTasks ?_ h
    exact hwrite fun _ => rfl
  | release => exact hwrite fun _ => rfl
  | cascade => exact .of_eq (Db.next_cascade ..) fun j => project?_cascade _ _ _ _ j
  | @insert input db' hcheck h =>
    refine Db.KeepsProjects.sameTasks ⟨Nat.le_succ _, fun id hid q hq => ?_⟩ h
    rwa [Db.project?, Db.find?_insertTask, if_neg hid.ne] at hq
  | @delete id =>
    refine ⟨le_rfl, fun j _ q hq => ?_⟩
    obtain ⟨row, hrow, hq⟩ := Db.project?_eq_some.1 hq
    exact Db.project?_eq_some.2 ⟨row, (Db.find?_deleteTask hrow).1, hq⟩

theorem Sys.keepsProjects_step (s : Sys) (a : Action) : s.db.KeepsProjects (s.step a).db :=
  Sys.step_tasks (I := fun db => s.db.KeepsProjects db) (.refl _)
    (fun _ h => ⟨h.1, h.2⟩) (fun _ h => ⟨h.1, h.2⟩)
    fun _ _ _ _ _ _ hchange _ => hchange.keepsProjects

end WoodFiredTasks
