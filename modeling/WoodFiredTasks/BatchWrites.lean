import WoodFiredTasks.ScoreWrites

set_option autoImplicit false

/-! # The writes of a batch rescore

`rescore` assesses every submission on the row that is stored before the batch, opens a run and
writes the changed rows in one transaction. So a failure leaves nothing behind, and what a batch
writes is a function of the submissions that pass (`runState`). -/

namespace WoodFiredTasks

/-- The row after its write. -/
def Pending.rewrite (p : Pending) (now : Nat) (t : Task) : Task :=
  UpdateTaskDTO.apply { wsjf := some (some p.write) } none now t

namespace WsjfRescoreService

/-! ## What a batch writes -/

/-- The submissions that pass, as they are assessed on a database. -/
def pendingOf (env : Env) (db : Db) (projectId : Nat) (submissions : List RescoreSubmission) :
    List Pending :=
  assessed (submissions.map fun s => assess env projectId (db.charter? projectId) s
    ((db.tasks.find? s.taskId).map Task.inflate))

/-- The database after the write of one row. -/
def writtenOne (projectId : Nat) (actor : RescoreActor) (version : Option ℚ) (runId now : Nat)
    (db : Db) (p : Pending) : Db :=
  (db.applyUpdate p.task.id { wsjf := some (some p.write) } none now).appendHistory
    (p.record projectId actor version runId) now

/-- The database after the loop over the changed rows. -/
def writtenAll (projectId : Nat) (actor : RescoreActor) (version : Option ℚ) (runId now : Nat)
    (changed : List Pending) (db : Db) : Db :=
  changed.foldl (writtenOne projectId actor version runId now) db

/-- The database after the transaction. -/
def runState (projectId : Nat) (actor : RescoreActor) (version : Option ℚ) (pending : List Pending)
    (now : Nat) (db : Db) : Db :=
  let changed := pending.filter (·.changed)
  let evaluated := pending.length
  let changedCount := changed.length
  let skipped := (pending.filter fun p => p.skippedLocked != []).length
  let runId := db.rescoreRuns.next
  (writtenAll projectId actor version runId now changed
      (db.openRun projectId version actor.actorType actor.actorId now)).finalizeRun runId evaluated
    changedCount skipped
    (s!"rescored project {projectId}: {evaluated} evaluated, " ++
      s!"{changedCount} changed, {skipped} with locked components preserved")

section Programs

variable (projectId : Nat) (actor : RescoreActor) (version : Option ℚ)

theorem writeOne_state (runId : Nat) (p : Pending) :
    Spec (writeOne projectId actor version runId p)
      (fun v _ db => db = writtenOne projectId actor version runId v.now v.db p)
      fun _ _ => True := by
  refine ((TaskRepository.update_spec p.task.id _).bind fun _ =>
    Spec.statement _ _ _).conseq ?_ fun _ _ _ => trivial
  intro v _ db h
  obtain ⟨_, _, ⟨row, hrow, -, -, rfl⟩, -, -, rfl⟩ := h
  rfl

theorem writeAll_state (runId : Nat) (changed : List Pending) :
    Spec (Prog.forEach changed (writeOne projectId actor version runId))
      (fun v _ db => db = writtenAll projectId actor version runId v.now changed v.db)
      fun _ _ => True := by
  induction changed with
  | nil => exact (Spec.pure _).post fun _ _ _ h => h.2
  | cons p rest ih =>
    refine ((writeOne_state projectId actor version runId p).bind fun _ => ih).conseq ?_
      fun _ _ _ => trivial
    intro v _ db h
    obtain ⟨_, _, rfl, rfl⟩ := h
    rfl

theorem writeRun_state (pending : List Pending) :
    Spec (writeRun projectId actor version pending)
      (fun v runId db => runId = v.db.rescoreRuns.next ∧
        db = runState projectId actor version pending v.now v.db) Unchanged := by
  refine Spec.transaction (E := fun _ _ => True) (((Spec.statement _ _ _).bind fun runId =>
    (writeAll_state projectId actor version runId _).bind fun _ =>
      (Spec.statement _ _ _).bind fun _ => Spec.pure (E := Unchanged) runId).conseq ?_
        fun _ _ _ => trivial)
  intro v _ db h
  obtain ⟨runId, _, ⟨-, rfl, rfl⟩, _, _, rfl, _, _, ⟨-, -, rfl⟩, rfl, rfl⟩ := h
  exact ⟨rfl, rfl⟩

/-- What is reported of a batch. -/
structure Reports (pending : List Pending) (runId : Nat) (s : RescoreRunSummary) : Prop where
  runId : s.runId = runId
  tasksEvaluated : s.tasksEvaluated = pending.length
  tasksChanged : s.tasksChanged = (pending.filter (·.changed)).length

/-- **The batch.** It writes the state that its passed submissions give, or nothing. -/
theorem rescore_state (submissions : List RescoreSubmission) :
    Spec (rescore projectId submissions actor)
      (fun v s db => (v.db.projects.find? projectId).isSome = true ∧
        Reports (pendingOf v.env v.db projectId submissions) v.db.rescoreRuns.next s ∧
        db = runState projectId actor (charterVersion (v.db.charter? projectId))
          (pendingOf v.env v.db projectId submissions) v.now v.db) Unchanged := by
  have hwrite : ∀ (version : Option ℚ) (pending : List Pending) (summary : Nat → RescoreRunSummary),
      Spec (writeRun projectId actor version pending >>= fun runId => pure (summary runId))
        (fun v s db => s = summary v.db.rescoreRuns.next ∧
          db = runState projectId actor version pending v.now v.db) Unchanged := by
    intro version pending summary
    refine ((writeRun_state projectId actor version pending).bind
      fun runId => Spec.pure (E := fun _ _ => False) (summary runId)).conseq ?_ ?_
    · intro v s db h
      obtain ⟨_, _, ⟨rfl, rfl⟩, rfl, rfl⟩ := h
      exact ⟨rfl, rfl⟩
    · intro v db h
      obtain h | ⟨_, _, -, h⟩ := h
      · exact h
      · exact h.elim
  refine (Spec.bindUnchanged (requireProject_spec projectId) fun project =>
    Spec.bindUnchanged (evaluate_spec projectId project.valueCharter submissions) fun outcomes =>
      hwrite _ _ _).post ?_
  intro v s db h
  obtain ⟨project, hfound, _, rfl, rfl, rfl⟩ := h
  have hcharter : v.db.charter? projectId = project.valueCharter := by
    rw [Db.charter?, hfound]
    rfl
  rw [pendingOf, hcharter]
  exact ⟨by rw [hfound]; rfl, ⟨rfl, rfl, rfl⟩, rfl⟩

end Programs

/-! ## The rows that a batch writes -/

section Written

variable {projectId : Nat} {actor : RescoreActor} {version : Option ℚ} {runId now : Nat}
  {changed : List Pending} {p : Pending} {db : Db}

theorem find?_writtenOne (j : Nat) :
    (writtenOne projectId actor version runId now db p).tasks.find? j =
      (db.tasks.find? j).map fun r => if j = p.task.id then p.rewrite now r else r :=
  Db.find?_writeTask

theorem writtenOne_wsjfHistory : (writtenOne projectId actor version runId now db p).wsjfHistory =
    db.wsjfHistory.insert ((p.record projectId actor version runId).row now)
      ((p.record projectId actor version runId).row_id now) := by
  rw [writtenOne, Db.appendHistory]
  simp only [Db.wsjfHistory_applyUpdate]

theorem writtenOne_rescoreRuns :
    (writtenOne projectId actor version runId now db p).rescoreRuns = db.rescoreRuns := by
  rw [writtenOne, Db.appendHistory, Db.applyUpdate, Db.writeTask]
  split <;> rfl

theorem writtenAll_rescoreRuns :
    (writtenAll projectId actor version runId now changed db).rescoreRuns = db.rescoreRuns := by
  induction changed generalizing db with
  | nil => rfl
  | cons p rest ih => exact ih.trans writtenOne_rescoreRuns

/-- A row that no submission changes is left as it is. -/
theorem find?_writtenAll_of_notMem {j : Nat} (h : j ∉ changed.map (·.task.id)) :
    (writtenAll projectId actor version runId now changed db).tasks.find? j = db.tasks.find? j := by
  induction changed generalizing db with
  | nil => rfl
  | cons p rest ih =>
    simp only [List.map_cons, List.mem_cons, not_or] at h
    show (writtenAll _ _ _ _ _ rest (writtenOne _ _ _ _ _ db p)).tasks.find? j = _
    rw [ih h.2, find?_writtenOne]
    simp [h.1]

/-- Where no two submissions change one row, each row is written once. -/
theorem find?_writtenAll_of_mem (hnodup : (changed.map (·.task.id)).Nodup) (hp : p ∈ changed) :
    (writtenAll projectId actor version runId now changed db).tasks.find? p.task.id =
      (db.tasks.find? p.task.id).map (p.rewrite now) := by
  induction changed generalizing db with
  | nil => cases hp
  | cons q rest ih =>
    simp only [List.map_cons, List.nodup_cons] at hnodup
    show (writtenAll _ _ _ _ _ rest (writtenOne _ _ _ _ _ db q)).tasks.find? p.task.id = _
    rcases List.mem_cons.1 hp with rfl | hrest
    · rw [find?_writtenAll_of_notMem hnodup.1, find?_writtenOne]
      simp
    · have hne : p.task.id ≠ q.task.id := by
        intro h
        exact hnodup.1 (h ▸ List.mem_map_of_mem hrest)
      rw [ih hnodup.2 hrest, find?_writtenOne]
      simp [hne]

/-- One history row for each change, in their order. -/
theorem history_writtenAll :
    (writtenAll projectId actor version runId now changed db).wsjfHistory.rows =
      db.wsjfHistory.rows ++ (changed.zipIdx db.wsjfHistory.next).map fun x =>
        (x.1.record projectId actor version runId).row now x.2 := by
  induction changed generalizing db with
  | nil => simp [writtenAll]
  | cons p rest ih =>
    show (writtenAll _ _ _ _ _ rest (writtenOne _ _ _ _ _ db p)).wsjfHistory.rows = _
    rw [ih, writtenOne_wsjfHistory]
    simp [Table.insert]

end Written

section RunState

variable {projectId : Nat} {actor : RescoreActor} {version : Option ℚ} {now : Nat}
  {pending : List Pending} {db : Db}

theorem runState_tasks : (runState projectId actor version pending now db).tasks =
    (writtenAll projectId actor version db.rescoreRuns.next now (pending.filter (·.changed))
      (db.openRun projectId version actor.actorType actor.actorId now)).tasks := rfl

theorem runState_wsjfHistory : (runState projectId actor version pending now db).wsjfHistory =
    (writtenAll projectId actor version db.rescoreRuns.next now (pending.filter (·.changed))
      (db.openRun projectId version actor.actorType actor.actorId now)).wsjfHistory := rfl

/-- The run has a key of its own, whatever the batch. -/
theorem runState_next :
    (runState projectId actor version pending now db).rescoreRuns.next = db.rescoreRuns.next + 1 := by
  rw [runState, Db.finalizeRun, Table.next_modify, writtenAll_rescoreRuns]
  rfl

theorem find?_runState_run :
    ∃ run, (runState projectId actor version pending now db).rescoreRuns.find? db.rescoreRuns.next =
        some run ∧ run.tasksEvaluated = some pending.length ∧
      run.tasksChanged = some (pending.filter (·.changed)).length := by
  rw [runState, Db.finalizeRun]
  simp only [Table.find?_modify, writtenAll_rescoreRuns, Db.openRun, Table.find?_insert]
  exact ⟨_, rfl, by simp, by simp⟩

theorem find?_runState_otherRun {id : Nat} (h : id ≠ db.rescoreRuns.next) :
    (runState projectId actor version pending now db).rescoreRuns.find? id =
      db.rescoreRuns.find? id := by
  rw [runState, Db.finalizeRun]
  simp only [Table.find?_modify, writtenAll_rescoreRuns, Db.openRun, Table.find?_insert]
  simp [h]

end RunState

end WsjfRescoreService

end WoodFiredTasks
