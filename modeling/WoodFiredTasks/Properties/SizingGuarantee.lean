import WoodFiredTasks.BatchWrites
import WoodFiredTasks.Lib.Runs
import WoodFiredTasks.ScoringCalls

set_option autoImplicit false

/-! # Every open task has a size

The router of models reads `wsjf_job_size`, so every task that is not done or closed is to have
one. Two segments can leave a row without: the INSERT of a task that brings no score, which is sized
by a transaction of its own after it, and an UPDATE that clears the score of a task or opens one
again that has no size. All other writes keep the guarantee, and so does every place where a call may
be cut off. -/

namespace WoodFiredTasks

open TaskService

/-- The row has a size, or needs none because the task is done or closed. -/
def Task.routable (t : Task) : Bool :=
  t.wsjf.jobSize.isSome || t.status == .done || t.status == .closed

/-- Every task that is not done or closed has a size. -/
def Db.Routable (db : Db) : Prop := db.AllTasks fun t => t.routable = true

/-- The boot sweep would find nothing to do. -/
theorem Db.routable_iff {db : Db} : db.Routable ↔ db.sizeCandidates = [] := by
  rw [sizeCandidates, List.map_eq_nil_iff, List.filter_eq_nil_iff]
  have hone : ∀ t : Task, t.routable = true ↔
      ¬ (t.wsjf.jobSize.isNone && t.status != .done && t.status != .closed) = true := by
    intro t
    rw [Task.routable]
    simp [or_iff_not_imp_left, Option.isSome_iff_ne_none]
  constructor
  · intro h t ht
    exact (hone t).1 (h t.id t (Table.find?_key ht))
  · intro h id t ht
    exact (hone t).2 (h t (Table.find?_eq_some.1 ht).1)

/-! ## Rows -/

theorem Task.routable_iff {t : Task} : t.routable = true ↔
    t.wsjf.jobSize.isSome = true ∨ t.status = .done ∨ t.status = .closed := by
  simp [routable, or_assoc]

theorem Task.routable_of_size {t : Task} (h : t.wsjf.jobSize.isSome = true) : t.routable = true := by
  rw [routable, h]
  rfl

/-- A task that is at work has a size. -/
theorem Task.size_of_routable (t : Task) (h : t.routable = true) (hdone : t.status ≠ .done)
    (hclosed : t.status ≠ .closed) : t.wsjf.jobSize.isSome = true :=
  (routable_iff.1 h).resolve_right fun h => h.elim hdone hclosed

/-- The row after an update. -/
theorem Task.routable_apply (t : Task) (dto : UpdateTaskDTO) (current : Option TaskStatus) (now : Nat) :
    (dto.apply current now t).routable = ((dto.newWsjf t.wsjf).jobSize.isSome ||
      dto.status.getD t.status == .done || dto.status.getD t.status == .closed) := rfl

/-! ## Steps -/

/-- The segment leaves no task without a size that is not done or closed: an insertion brings a
    score, and an update clears none and opens nothing that has no size. -/
def ScoringPoint.sizedOk (_ : Env) (db : Db) : ScoringPoint → Bool
  | .task (.insertTask input) => input.wsjf.isSome
  | .task (.updateWrite _ id input _) => (db.tasks.find? id).all fun row =>
    (input.newWsjf row.wsjf).jobSize.isSome ||
      input.status.getD row.status == .done || input.status.getD row.status == .closed
  | _ => true

abbrev ScoringSys.SizedOk := ScoringSys.SegmentOk ScoringPoint.sizedOk

section Steps

variable {env : Env} {now : Nat} {db db' : Db} {point : Point}

/-- A cascade completes tasks and opens blocked ones; it writes no size. -/
theorem Db.Routable.cascade (h : db.Routable) (n id : Nat) (parentTaskId : Option Nat) :
    (cascade env now n db id parentTaskId).Routable := by
  intro t row' hrow'
  have hwsjf : ((WoodFiredTasks.cascade env now n db id parentTaskId).tasks.find? t).map Task.wsjf =
      (db.tasks.find? t).map Task.wsjf := map_find?_cascade Task.wsjf (fun _ _ => rfl) ..
  have hstatus : (WoodFiredTasks.cascade env now n db id parentTaskId).status? t = _ :=
    status?_cascade n db id parentTaskId t
  rw [hrow', Option.map_some] at hwsjf
  rw [Db.status?, hrow', Option.map_some] at hstatus
  obtain ⟨row, hrow, hsame⟩ := Option.map_eq_some_iff.1 hwsjf.symm
  have hrouted := h t row hrow
  rw [Task.routable_iff, ← hsame]
  split at hstatus
  · exact .inr (.inl (Option.some.inj hstatus))
  · split at hstatus
    · rename_i hopened
      have hblocked : row.status = .blocked := by
        have hrowStatus := hopened.2.1
        rw [Db.status?, hrow] at hrowStatus
        exact Option.some.inj hrowStatus
      refine .inl (Task.size_of_routable _ hrouted ?_ ?_)
      · rw [hblocked]
        decide
      · rw [hblocked]
        decide
    · rw [Db.status?, hrow] at hstatus
      rw [Option.some.inj hstatus]
      exact Task.routable_iff.1 hrouted

/-- A change to the tasks that meets the condition keeps the guarantee. -/
theorem Db.Routable.taskChange (h : db.Routable) (hchange : point.TaskChange env now db db')
    (hok : (ScoringPoint.task point).sizedOk env db = true) : db'.Routable := by
  cases hchange with
  | same hsame => exact h.sameTasks hsame
  | @claim _ _ _ _ row hrow _ hstatus =>
    refine h.writeTask fun row' hrow' hrouted => Task.routable_of_size ?_
    obtain rfl := Option.some.inj (hrow.symm.trans hrow')
    show row.wsjf.jobSize.isSome = true
    exact Task.size_of_routable row hrouted (by rw [hstatus]; decide) (by rw [hstatus]; decide)
  | renew => exact h.writeTask fun _ _ hrouted => hrouted
  | @update existing id input source row db' hrow _ hsame =>
    refine Db.AllTasks.sameTasks (h.writeTask fun row' hrow' _ => ?_) hsame
    have hall : (db.tasks.find? id).all _ = true := hok
    rw [hrow', Option.all_some] at hall
    exact hall
  | resize hsame =>
    exact Db.AllTasks.sameTasks (h.writeTask fun _ _ _ => Task.routable_of_size rfl) hsame
  | @release _ _ _ row hrow _ hstatus =>
    refine h.writeTask fun row' hrow' hrouted => Task.routable_of_size ?_
    obtain rfl := Option.some.inj (hrow.symm.trans hrow')
    show row.wsjf.jobSize.isSome = true
    exact Task.size_of_routable row hrouted (by rw [hstatus]; decide) (by rw [hstatus]; decide)
  | cascade => exact h.cascade _ _ _
  | @insert input db' _ hsame =>
    refine Db.AllTasks.sameTasks (h.insertTask fun id => Task.routable_of_size ?_) hsame
    obtain ⟨w, hw⟩ := Option.isSome_iff_exists.1 hok
    rw [CreateTaskDTO.row_wsjf]
    show ((input.wsjf.map WsjfWriteDTO.columns).getD {}).jobSize.isSome = true
    rw [hw]
    rfl
  | delete => exact h.deleteTask

/-- A segment that has not met the condition leaves a task without a size. -/
theorem Point.Effect.sizedOk {next : Option Point} (h : point.Effect env now db db' next)
    (hrouted : db'.Routable) : (ScoringPoint.task point).sizedOk env db = true := by
  cases point with
  | insertTask input =>
    obtain ⟨⟨-, hsame, -⟩, -⟩ := h
    have hrow : db'.tasks.find? db.tasks.next =
        some ((CreateTaskInput.dto input).row input.tags now db.tasks.next) := by
      rw [hsame.tasks, Db.find?_insertTask, if_pos rfl]
    have hsize := Task.size_of_routable _ (hrouted _ _ hrow)
      (fun h => nomatch h) (fun h => nomatch h)
    show input.wsjf.isSome = true
    cases hw : input.wsjf with
    | some w => rfl
    | none =>
      have hcolumns : ((CreateTaskInput.dto input).row input.tags now db.tasks.next).wsjf = {} := by
        rw [CreateTaskDTO.row_wsjf]
        show (input.wsjf.map WsjfWriteDTO.columns).getD {} = {}
        rw [hw]
        rfl
      rw [hcolumns] at hsize
      cases hsize
  | updateWrite existing id input source =>
    obtain ⟨⟨row, hrow, -, hsame, -⟩, -⟩ := h
    have hrow' : db'.tasks.find? id = some ((updatesForRepo existing input).apply
        (input.status.map fun _ => row.status) now row) := by
      rw [hsame.tasks, Db.applyUpdate, Db.find?_writeTask_self, hrow]
      rfl
    have hafter := hrouted id _ hrow'
    show (db.tasks.find? id).all _ = true
    rw [hrow, Option.all_some]
    exact hafter
  | _ => rfl

/-- The rows that a batch writes have a size. -/
theorem Db.Routable.writtenAll (h : db.Routable) (projectId : Nat) (actor : RescoreActor)
    (version : Option ℚ) (runId : Nat) (changed : List Pending) :
    (WsjfRescoreService.writtenAll projectId actor version runId now changed db).Routable := by
  induction changed generalizing db with
  | nil => exact h
  | cons p rest ih =>
    have hone : (WsjfRescoreService.writtenOne projectId actor version runId now db p).Routable :=
      Db.AllTasks.writeTask h fun _ _ _ => Task.routable_of_size rfl
    exact ih hone

/-- The sweep writes sizes and nothing else of a row. -/
theorem backfillRow_routable (candidate : SizeCandidate) : Leaves (backfillRow candidate)
    fun v _ db => v.db.Routable → db.Routable := by
  have hsize := ((autoSizeTask_spec candidate.id (minutesToTier candidate.estimatedMinutes)
    .bootSweep).leaves).bindPublishes fun _ => publishes_pure true
  constructor
  · intro w a w' hw hr hrouted
    rw [backfillRow, Prog.run_tryCatch] at hr
    split at hr
    · rename_i hbody
      cases hr
      obtain ⟨_, ⟨-, hsame, -⟩, -⟩ := hsize.ok hw hbody
      exact Db.AllTasks.sameTasks (Db.AllTasks.writeTask hrouted fun _ _ _ =>
        Task.routable_of_size rfl) hsame
    · rename_i hbody
      cases hr
      have hdb := hsize.error hw hbody
      exact hdb.symm ▸ hrouted
  · intro w e w' hw hr
    rw [backfillRow, Prog.run_tryCatch] at hr
    split at hr
    · cases hr
    · cases hr

/-- A segment that meets the condition keeps the guarantee, and one that keeps it meets the
    condition. -/
theorem leaves_routable (point : ScoringPoint) : Leaves point.segment fun v _ db =>
    v.db.Routable → (db.Routable ↔ point.sizedOk v.env v.db = true) := by
  cases point with
  | task point =>
    refine ((leaves_segment point).bindPublishes fun next =>
      publishes_pure (next.map ScoringPoint.task)).post ?_
    intro v _ db h hrouted
    obtain ⟨next, heffect, -⟩ := h
    exact ⟨fun hdb => heffect.sizedOk hdb, fun hok => hrouted.taskChange heffect.taskChange hok⟩
  | project point =>
    refine ((ProjectPoint.leaves_segment point).bindPublishes fun next =>
      publishes_pure (next.map ScoringPoint.project)).post ?_
    intro v _ db h hrouted
    obtain ⟨next, heffect, -⟩ := h
    refine ⟨fun _ => rfl, fun _ t row hrow => hrouted t row ?_⟩
    rwa [← (ProjectPoint.Effect.sameScores heffect).tasks]
  | rescore projectId submissions actor =>
    refine (WsjfRescoreService.rescore_state projectId actor submissions).leavesThen.post ?_
    intro v _ db h hrouted
    obtain ⟨_, ⟨-, -, rfl⟩, -⟩ := h
    have hopened : ∀ version actorType actorId,
        (v.db.openRun projectId version actorType actorId v.now).Routable := fun _ _ _ => hrouted
    exact ⟨fun _ => rfl, fun _ => (hopened _ _ _).writtenAll projectId actor _ _ _⟩
  | findCandidates =>
    refine (Spec.query fun db => db.sizeCandidates).leavesThen.post ?_
    intro v _ db h hrouted
    obtain ⟨_, ⟨-, rfl⟩, -⟩ := h
    exact ⟨fun _ => rfl, fun _ => hrouted⟩
  | backfill rest =>
    cases rest with
    | nil =>
      refine (Spec.pure none).leaves.post ?_
      intro v _ db h hrouted
      obtain ⟨-, rfl⟩ := h
      exact ⟨fun _ => rfl, fun _ => hrouted⟩
    | cons candidate rest =>
      refine ((backfillRow_routable candidate).bindPublishes fun _ =>
        publishes_pure (some (ScoringPoint.backfill rest))).post ?_
      intro v _ db h hrouted
      obtain ⟨_, hkept, -⟩ := h
      exact ⟨fun _ => rfl, fun _ => hkept hrouted⟩

end Steps

/-! ## Runs -/

section Runs

variable {s : ScoringSys} {a : ScoringAction}

/-- A step does nothing to the database, or it is a segment that keeps the guarantee exactly if it
    meets the condition. -/
theorem ScoringSys.step_routable (h : s.db.Routable) :
    (s.step a).db = s.db ∨ ((s.step a).db.Routable ↔ s.SizedOk a) := by
  obtain hdb | ⟨p, env, point, next, db', rfl, hpoint, heffect, hstep⟩ :=
    Shared.step_cases (r := scoringCalls) (s := s) (a := a)
      (E := fun point env _ db _ db' => db.Routable → (db'.Routable ↔ point.sizedOk env db = true))
      leaves_routable
  · exact .inl hdb
  · right
    have hdb : (s.step (.step p env)).db = db' := by
      rw [ScoringSys.step, hstep]
      rfl
    rw [hdb, heffect h]
    show _ ↔ (s.procs ()).all _ = true
    rw [hpoint, Option.all_some]

theorem ScoringSys.routable_step (h : s.db.Routable) (hok : s.SizedOk a) :
    (s.step a).db.Routable := by
  obtain hdb | hiff := ScoringSys.step_routable (a := a) h
  · rwa [hdb]
  · exact hiff.2 hok

/-- A step that writes without meeting the condition breaks the guarantee. -/
theorem ScoringSys.sizedOk_of_routable_step (h : s.db.Routable) (h' : (s.step a).db.Routable) :
    (s.step a).db = s.db ∨ s.SizedOk a := by
  obtain hdb | hiff := ScoringSys.step_routable (a := a) h
  · exact .inl hdb
  · exact .inr (hiff.1 h')

end Runs

/-- **Main theorem.** In every state of a run of the calls that write sizes, crashes and throws
    included, every task that is not done or closed has a size, if every insertion brings a score
    and no update takes the size of such a task away or opens a task without one. -/
theorem tasks_routable (users : List Nat) (now : Nat) (actions : List ScoringAction)
    (hrun : RunOk ScoringSys.step ScoringSys.SizedOk (.initial users now) actions) :
    Always ScoringSys.step (fun s => s.db.Routable) (.initial users now) actions :=
  hrun.always (fun _ _ h hok => ScoringSys.routable_step h hok) Db.allTasks_empty

/-- A scored task that is cut off behind its insertion, taken on and swept. -/
def sizedRun : List ScoringAction :=
  createProjectSteps ++
    scoringSteps (.task (.createTask
      (scoredInput none (some { toPerComponent := ⟨.two, .three, .five, .two⟩ })))) 2 ++
    .crash () :: scoringSteps (.task (.updateTask 1 { status := some .inProgress } .user none)) 3 ++
    scoringSteps .backfillJobSizes 2

theorem tasks_routable_sample :
    Always ScoringSys.step (fun s => s.db.Routable) (.initial [] 0) sizedRun :=
  tasks_routable [] 0 sizedRun (by decide +kernel)

/-- A task without a score, cut off between its insertion and its sizing. -/
def cutCreateRun : List ScoringAction :=
  createProjectSteps ++
    scoringSteps (.task (.createTask (scoredInput none none))) 2 ++ [.crash ()]

/-- A sized task whose score is cleared. -/
def clearedRun : List ScoringAction :=
  createProjectSteps ++
    scoringSteps (.task (.createTask
      (scoredInput none (some { toPerComponent := ⟨.two, .three, .five, .two⟩ })))) 2 ++
    scoringSteps (.task (.updateTask 1 { wsjf := some none } .user none)) 3

/-- Both leave an open task without a size. -/
theorem tasks_unsized :
    ¬ (∀ (users : List Nat) (now : Nat) (actions : List ScoringAction),
      (actions.foldl ScoringSys.step (.initial users now)).db.Routable) ∧
    ¬ (clearedRun.foldl ScoringSys.step (.initial [] 0)).db.Routable := by
  have hcut : (cutCreateRun.foldl ScoringSys.step (.initial [] 0)).db.sizeCandidates =
      [⟨1, none⟩] := by
    decide +kernel
  have hcleared : (clearedRun.foldl ScoringSys.step (.initial [] 0)).db.sizeCandidates =
      [⟨1, none⟩] := by
    decide +kernel
  constructor
  · intro h
    have hnone := Db.routable_iff.1 (h [] 0 cutCreateRun)
    rw [hcut] at hnone
    cases hnone
  · intro h
    rw [Db.routable_iff, hcleared] at h
    cases h

end WoodFiredTasks
