import Mathlib.Data.Finset.Card
import WoodFiredTasks.BatchWrites

set_option autoImplicit false

/-! # A batch rescore against its specification

What a batch writes is a function of the submissions that pass. Two things keep it from its
specification. The run is opened even if no submission has passed. And nothing joins two
submissions for one task: both are judged against the same row, counted and written, each with a
history row that names the score before the batch. -/

namespace WoodFiredTasks

/-! ## What is compared -/

/-- The stored components of a task, if it has all four. -/
def Db.components? (db : Db) (id : Nat) : Option WsjfComponents :=
  (db.wsjf? id).bind WsjfColumns.components?

/-- The components that are locked. -/
def WsjfColumns.lockedComponents (w : WsjfColumns) : PerComponent (Option Fib) :=
  let kept := fun (lock : WsjfLocks → Bool) (c : Option Fib) => if w.locked.any lock then c else none
  ⟨kept (·.value) w.value, kept (·.timeCriticality) w.timeCriticality,
    kept (·.riskOpportunity) w.riskOpportunity, kept (·.jobSize) w.jobSize⟩

/-- A merge keeps the locked components. -/
theorem lockedComponents_merge {w w' : WsjfColumns} {prev new : WsjfComponents}
    (hprev : w.components? = some prev) (hlocked : w'.locked = w.locked)
    (hmerged : w'.components? = some (mergeLocked w.locked prev new)) :
    w'.lockedComponents = w.lockedComponents := by
  obtain ⟨hvalue, htime, hrisk, hsize⟩ := WsjfColumns.components?_eq_some.1 hprev
  obtain ⟨hvalue', htime', hrisk', hsize'⟩ := WsjfColumns.components?_eq_some.1 hmerged
  simp only [WsjfColumns.lockedComponents, hlocked, hvalue, htime, hrisk, hsize, hvalue', htime',
    hrisk', hsize']
  cases w.locked with
  | none => rfl
  | some l =>
    simp only [Option.any_some, mergeLocked, keepLocked, PerComponent.mk.injEq]
    refine ⟨?_, ?_, ?_, ?_⟩ <;> · split <;> rfl

/-! ## The row of a passed submission -/

/-- What a submission was assessed on: a row with its four components. -/
structure Pending.OnRow (p : Pending) (row : Task) (prev : WsjfComponents) : Prop where
  stored : row.wsjf.components? = some prev
  merged : ∃ new, p.components = mergeLocked row.wsjf.locked prev new
  locked : p.locked = row.wsjf.locked
  prevWsjfScore : p.prevWsjfScore = computeWsjf prev
  changed : p.changed = true ↔ p.components ≠ prev

/-- The row after the batch, if it has no other submission. -/
def Pending.after (p : Pending) (now : Nat) (row : Task) : Task :=
  if p.changed then p.rewrite now row else row

section OnRow

variable {p : Pending} {row : Task} {prev : WsjfComponents} {now : Nat}

theorem Pending.OnRow.components_after (h : p.OnRow row prev) :
    (p.after now row).wsjf.components? = some p.components := by
  unfold Pending.after
  split
  · rfl
  · rename_i hchanged
    rw [h.changed, not_not] at hchanged
    rw [h.stored, hchanged]

theorem Pending.OnRow.locked_after (h : p.OnRow row prev) :
    (p.after now row).wsjf.locked = row.wsjf.locked := by
  unfold Pending.after
  split
  · exact h.locked
  · rfl

theorem Pending.OnRow.lockedComponents_after (h : p.OnRow row prev) :
    (p.after now row).wsjf.lockedComponents = row.wsjf.lockedComponents := by
  obtain ⟨new, hnew⟩ := h.merged
  exact lockedComponents_merge h.stored h.locked_after (hnew ▸ h.components_after)

/-- The row changes exactly when its components do. -/
theorem Pending.OnRow.after_ne (h : p.OnRow row prev) :
    p.after now row ≠ row ↔ p.components ≠ prev := by
  constructor
  · intro hne heq
    refine hne (if_neg ?_)
    rw [h.changed]
    exact fun hcomponents => hcomponents heq
  · intro hcomponents heq
    have hstored : (p.after now row).wsjf.components? = some p.components := h.components_after
    rw [heq, h.stored] at hstored
    exact hcomponents (Option.some.inj hstored).symm

end OnRow

namespace WsjfRescoreService

/-- A passed submission was assessed on a stored row. -/
theorem onRow_of_mem_pendingOf {env : Env} {db : Db} {projectId : Nat}
    {submissions : List RescoreSubmission} {p : Pending}
    (h : p ∈ pendingOf env db projectId submissions) :
    ∃ row prev, db.tasks.find? p.task.id = some row ∧ p.OnRow row prev := by
  obtain ⟨s, -, hassess⟩ := List.mem_map.1 (mem_assessed.1 h)
  obtain ⟨prev, htask, -, hprev, hmerged, -, hlocked, -, hscore, -⟩ := assess_ok hassess
  obtain ⟨prev', hprev', hchanged⟩ := assess_changed hassess
  obtain rfl := Option.some.inj (hprev.symm.trans hprev')
  obtain ⟨row, hrow, hinflate⟩ := Option.map_eq_some_iff.1 htask
  have hwsjf : row.wsjf = p.task.wsjf := by
    rw [← hinflate]
    rfl
  have hid : p.task.id = s.taskId := by
    rw [← hinflate]
    exact (Table.find?_eq_some.1 hrow).2
  refine ⟨row, prev, hid ▸ hrow, ?_, ⟨serverComponents p.submission.classification
    p.submission.features (db.charter? projectId), ?_⟩, ?_, hscore, ?_⟩
  · rw [hwsjf, hprev]
  · rw [hmerged, hlocked, hwsjf]
  · rw [hlocked, hwsjf]
  · rw [hchanged, bne_iff_ne]

/-! ## The specification -/

/-- What a batch is to do, given the submissions that pass and what is reported. -/
structure RescoreSpec (db : Db) (pending : List Pending) (s : RescoreRunSummary) (db' : Db) :
    Prop where
  /-- A batch without a valid submission writes nothing. -/
  nothing : pending = [] → db' = db
  /-- Any other opens one run, which records what was counted. -/
  run : pending ≠ [] → db.rescoreRuns.find? s.runId = none ∧
    ∃ run, db'.rescoreRuns.find? s.runId = some run ∧
      run.tasksEvaluated = some s.tasksEvaluated ∧ run.tasksChanged = some s.tasksChanged
  otherRuns : ∀ id, id ≠ s.runId → db'.rescoreRuns.find? id = db.rescoreRuns.find? id
  /-- A task is written exactly when a valid submission gives it other components. -/
  written : ∀ id, db'.tasks.find? id ≠ db.tasks.find? id ↔
    ∃ p ∈ pending, p.task.id = id ∧ db.components? id ≠ some p.components
  merged : ∀ p ∈ pending, db'.components? p.task.id = some p.components
  /-- Locks and locked components stay. -/
  locked : ∀ id row, db.tasks.find? id = some row → ∃ row', db'.tasks.find? id = some row' ∧
    row'.wsjf.locked = row.wsjf.locked ∧ row'.wsjf.lockedComponents = row.wsjf.lockedComponents
  /-- One new history row for each written task, about the row before and after. -/
  history : ∃ added, db'.wsjfHistory.rows = db.wsjfHistory.rows ++ added ∧
    (added.map (·.taskId)).Nodup ∧
    (∀ id, id ∈ added.map (·.taskId) ↔ db'.tasks.find? id ≠ db.tasks.find? id) ∧
    ∀ h ∈ added, h.rescoreRunId = some s.runId ∧
      h.prevWsjfScore = (db.components? h.taskId).map computeWsjf ∧
      h.components? = db'.components? h.taskId
  /-- The counts are of distinct tasks. -/
  evaluated : s.tasksEvaluated = (pending.map (·.task.id)).toFinset.card
  changed : ∃ ids : Finset Nat, (∀ id, id ∈ ids ↔ db'.tasks.find? id ≠ db.tasks.find? id) ∧
    s.tasksChanged = ids.card

/-- There is a valid submission, and no task has two. -/
def OnePerTask (pending : List Pending) : Prop :=
  pending ≠ [] ∧ (pending.map (·.task.id)).Nodup

section Separate

variable {projectId : Nat} {actor : RescoreActor} {version : Option ℚ} {now : Nat}
  {pending : List Pending} {p : Pending} {db : Db}

/-- A submission that changes its row is the only one for it. -/
theorem eq_of_mem_changed (hnodup : (pending.map (·.task.id)).Nodup) (hp : p ∈ pending)
    (h : p.task.id ∈ (pending.filter (·.changed)).map (·.task.id)) : p.changed = true := by
  obtain ⟨q, hq, hid⟩ := List.mem_map.1 h
  obtain ⟨hqmem, hchanged⟩ := List.mem_filter.1 hq
  obtain rfl := List.inj_on_of_nodup_map hnodup hqmem hp hid
  exact hchanged

theorem find?_runState_of_mem (hnodup : (pending.map (·.task.id)).Nodup) (hp : p ∈ pending) :
    (runState projectId actor version pending now db).tasks.find? p.task.id =
      (db.tasks.find? p.task.id).map (p.after now) := by
  rw [runState_tasks]
  by_cases hchanged : p.changed = true
  · have hafter : p.after now = p.rewrite now := by
      funext row
      exact if_pos hchanged
    rw [find?_writtenAll_of_mem ((List.filter_sublist.map _).nodup hnodup)
      (List.mem_filter.2 ⟨hp, hchanged⟩), hafter]
    rfl
  · have hafter : p.after now = id := by
      funext row
      exact if_neg hchanged
    rw [find?_writtenAll_of_notMem fun h => hchanged (eq_of_mem_changed hnodup hp h), hafter,
      Option.map_id]
    rfl

theorem find?_runState_of_notMem {id : Nat} (h : id ∉ pending.map (·.task.id)) :
    (runState projectId actor version pending now db).tasks.find? id = db.tasks.find? id := by
  rw [runState_tasks, find?_writtenAll_of_notMem]
  · rfl
  · exact fun hmem => h ((List.filter_sublist.map _).subset hmem)

end Separate

section Meets

variable {projectId : Nat} {actor : RescoreActor} {version : Option ℚ} {now : Nat}
  {pending : List Pending} {db : Db} {s : RescoreRunSummary}

/-- The submissions were assessed on the rows of a database. -/
def AssessedOn (db : Db) (pending : List Pending) : Prop :=
  ∀ p ∈ pending, ∃ row prev, db.tasks.find? p.task.id = some row ∧ p.OnRow row prev

theorem components?_of_find? {id : Nat} {row : Task} (h : db.tasks.find? id = some row) :
    db.components? id = row.wsjf.components? := by
  rw [Db.components?, Db.wsjf?_of_find? h]
  rfl

/-- The components that a batch leaves where no task has two submissions. -/
theorem merged_runState (hassessed : AssessedOn db pending)
    (hnodup : (pending.map (·.task.id)).Nodup) {p : Pending} (hp : p ∈ pending) :
    (runState projectId actor version pending now db).components? p.task.id = some p.components := by
  obtain ⟨row, prev, hrow, hon⟩ := hassessed p hp
  have hfind : (runState projectId actor version pending now db).tasks.find? p.task.id =
      some (p.after now row) := by
    rw [find?_runState_of_mem hnodup hp, hrow]
    rfl
  rw [components?_of_find? hfind, hon.components_after]

theorem written_runState (hassessed : AssessedOn db pending)
    (hnodup : (pending.map (·.task.id)).Nodup) (id : Nat) :
    (runState projectId actor version pending now db).tasks.find? id ≠ db.tasks.find? id ↔
      ∃ p ∈ pending, p.task.id = id ∧ db.components? id ≠ some p.components := by
  have hone : ∀ p ∈ pending,
      ((runState projectId actor version pending now db).tasks.find? p.task.id ≠
        db.tasks.find? p.task.id ↔ db.components? p.task.id ≠ some p.components) := by
    intro p hp
    obtain ⟨row, prev, hrow, hon⟩ := hassessed p hp
    rw [find?_runState_of_mem hnodup hp, components?_of_find? hrow, hon.stored, hrow]
    simp only [Option.map_some, ne_eq, Option.some.injEq]
    rw [← ne_eq, hon.after_ne]
    exact not_congr eq_comm
  constructor
  · intro hne
    by_cases hmem : id ∈ pending.map (·.task.id)
    · obtain ⟨p, hp, rfl⟩ := List.mem_map.1 hmem
      exact ⟨p, hp, rfl, (hone p hp).1 hne⟩
    · exact absurd (find?_runState_of_notMem hmem) hne
  · intro h
    obtain ⟨p, hp, rfl, hne⟩ := h
    exact (hone p hp).2 hne

/-- The tasks with a changing submission are those that are written. -/
theorem mem_changed_iff (hassessed : AssessedOn db pending)
    (hnodup : (pending.map (·.task.id)).Nodup) (id : Nat) :
    id ∈ (pending.filter (·.changed)).map (·.task.id) ↔
      (runState projectId actor version pending now db).tasks.find? id ≠ db.tasks.find? id := by
  rw [written_runState hassessed hnodup]
  simp only [List.mem_map, List.mem_filter, and_assoc]
  refine exists_congr fun p => and_congr_right fun hp => ?_
  obtain ⟨row, prev, hrow, hon⟩ := hassessed p hp
  rw [and_comm, hon.changed]
  refine and_congr_right fun hid => ?_
  rw [← hid, components?_of_find? hrow, hon.stored, ne_eq, ne_eq, Option.some.injEq]
  exact not_congr eq_comm

theorem locked_runState (hassessed : AssessedOn db pending)
    (hnodup : (pending.map (·.task.id)).Nodup) {id : Nat} {row : Task}
    (hrow : db.tasks.find? id = some row) :
    ∃ row', (runState projectId actor version pending now db).tasks.find? id = some row' ∧
      row'.wsjf.locked = row.wsjf.locked ∧
      row'.wsjf.lockedComponents = row.wsjf.lockedComponents := by
  by_cases hmem : id ∈ pending.map (·.task.id)
  · obtain ⟨p, hp, rfl⟩ := List.mem_map.1 hmem
    obtain ⟨row', prev, hrow', hon⟩ := hassessed p hp
    obtain rfl := Option.some.inj (hrow.symm.trans hrow')
    refine ⟨p.after now row, ?_, hon.locked_after, hon.lockedComponents_after⟩
    rw [find?_runState_of_mem hnodup hp, hrow]
    rfl
  · exact ⟨row, (find?_runState_of_notMem hmem).trans hrow, rfl, rfl⟩

theorem history_runState (hassessed : AssessedOn db pending)
    (hnodup : (pending.map (·.task.id)).Nodup) :
    ∃ added, (runState projectId actor version pending now db).wsjfHistory.rows =
        db.wsjfHistory.rows ++ added ∧ (added.map (·.taskId)).Nodup ∧
      (∀ id, id ∈ added.map (·.taskId) ↔
        (runState projectId actor version pending now db).tasks.find? id ≠ db.tasks.find? id) ∧
      ∀ h ∈ added, h.rescoreRunId = some db.rescoreRuns.next ∧
        h.prevWsjfScore = (db.components? h.taskId).map computeWsjf ∧
        h.components? = (runState projectId actor version pending now db).components? h.taskId := by
  have hids : (((pending.filter (·.changed)).zipIdx db.wsjfHistory.next).map fun x =>
      (x.1.record projectId actor version db.rescoreRuns.next).row now x.2).map (·.taskId) =
        (pending.filter (·.changed)).map (·.task.id) := by
    conv_rhs => rw [← List.zipIdx_map_fst db.wsjfHistory.next (pending.filter (·.changed))]
    rw [List.map_map, List.map_map]
    rfl
  refine ⟨_, runState_wsjfHistory ▸ history_writtenAll, ?_, fun id => ?_, fun h hh => ?_⟩
  · exact hids ▸ (List.filter_sublist.map _).nodup hnodup
  · rw [← mem_changed_iff hassessed hnodup]
    exact iff_of_eq (congrArg (id ∈ ·) hids)
  · obtain ⟨⟨p, key⟩, hx, rfl⟩ := List.mem_map.1 hh
    have hp : p ∈ pending := List.mem_of_mem_filter (List.fst_mem_of_mem_zipIdx hx)
    obtain ⟨row, prev, hrow, hon⟩ := hassessed p hp
    refine ⟨rfl, ?_, (merged_runState hassessed hnodup hp).symm⟩
    show some p.prevWsjfScore = (db.components? p.task.id).map computeWsjf
    rw [components?_of_find? hrow, hon.stored, hon.prevWsjfScore]
    rfl

/-- A batch with one valid submission for each of its tasks does what it should. -/
theorem rescoreSpec_of_onePerTask (hassessed : AssessedOn db pending) (hone : OnePerTask pending)
    (hs : Reports pending db.rescoreRuns.next s) :
    RescoreSpec db pending s (runState projectId actor version pending now db) where
  nothing h := absurd h hone.1
  run _ := by
    rw [hs.runId, hs.tasksEvaluated, hs.tasksChanged]
    refine ⟨?_, find?_runState_run⟩
    rw [Table.find?_eq_none]
    exact fun r hr => (db.rescoreRuns.below r hr).ne
  otherRuns id hid := find?_runState_otherRun (hs.runId ▸ hid)
  written := written_runState hassessed hone.2
  merged _ hp := merged_runState hassessed hone.2 hp
  locked _ _ hrow := locked_runState hassessed hone.2 hrow
  history := hs.runId ▸ history_runState hassessed hone.2
  evaluated := by
    rw [hs.tasksEvaluated, List.toFinset_card_of_nodup hone.2, List.length_map]
  changed := by
    refine ⟨((pending.filter (·.changed)).map (·.task.id)).toFinset, fun id => ?_, ?_⟩
    · rw [List.mem_toFinset, mem_changed_iff hassessed hone.2]
    · rw [hs.tasksChanged, List.toFinset_card_of_nodup ((List.filter_sublist.map _).nodup hone.2),
        List.length_map]

/-- Any other batch opens a run for nothing, or counts a task twice. -/
theorem onePerTask_of_rescoreSpec (hs : Reports pending db.rescoreRuns.next s)
    (h : RescoreSpec db pending s (runState projectId actor version pending now db)) :
    OnePerTask pending := by
  constructor
  · intro hnil
    have hnext := congrArg (fun db => db.rescoreRuns.next) (h.nothing hnil)
    simp only [runState_next] at hnext
    omega
  · have hcard := h.evaluated
    rw [hs.tasksEvaluated, ← List.length_map (f := (·.task.id))] at hcard
    exact Multiset.toFinset_card_eq_card_iff_nodup.1 hcard.symm

end Meets

/-! ## A batch on the database -/

section Runs

variable (projectId : Nat) (actor : RescoreActor) (version : Option ℚ)

/-- The rows of the submissions are there. -/
def RowsThere (pending : List Pending) (v : View) : Prop :=
  ∀ p ∈ pending, (v.db.tasks.find? p.task.id).isSome = true

theorem rowsThere_writtenOne {pending : List Pending} {v : View} (h : RowsThere pending v)
    (runId now : Nat) (q : Pending) :
    RowsThere pending { v with db := writtenOne projectId actor version runId now v.db q } := by
  intro p hp
  show ((writtenOne _ _ _ _ _ v.db q).tasks.find? p.task.id).isSome = true
  rw [find?_writtenOne, Option.isSome_map]
  exact h p hp

theorem writeAll_succeeds (runId : Nat) (changed : List Pending) :
    Succeeds (RowsThere changed) (Prog.forEach changed (writeOne projectId actor version runId)) := by
  induction changed with
  | nil => exact Succeeds.pure _
  | cons p rest ih =>
    have hone : Succeeds (RowsThere (p :: rest)) (writeOne projectId actor version runId p) := by
      have hupdate : Succeeds (RowsThere (p :: rest))
          (TaskRepository.update p.task.id { wsjf := some (some p.write) }) := by
        intro w hfaults hw
        have hrow := hw p List.mem_cons_self
        refine TaskRepository.update_succeeds p.task.id _ w hfaults ⟨hrow, ?_⟩
        rw [Db.updateTaskError, if_neg (by simpa using Option.isSome_iff_ne_none.1 hrow)]
        rfl
      exact hupdate.bind (R := fun _ _ => True) (TaskRepository.update_spec _ _)
        (fun _ => Succeeds.statement fun _ _ => rfl) fun _ _ _ _ _ => trivial
    refine hone.bind (R := fun _ => RowsThere rest) (writeOne_state projectId actor version runId p)
      (fun _ => ih) ?_
    intro v _ db hv hdb
    rw [hdb]
    exact rowsThere_writtenOne projectId actor version
      (fun q hq => hv q (List.mem_cons_of_mem _ hq)) runId v.now p

theorem writeRun_succeeds (pending : List Pending) :
    Succeeds (fun v => (v.db.projects.find? projectId).isSome = true ∧ RowsThere pending v)
      (writeRun projectId actor version pending) := by
  refine Succeeds.transaction ?_
  refine Succeeds.bind (R := fun _ => RowsThere (pending.filter (·.changed)))
    (Succeeds.statement fun v hv => ?_) (Spec.statement _ _ _) (fun runId => ?_) ?_
  · rw [if_neg (by simpa using Option.isSome_iff_ne_none.1 hv.1)]
  · exact Succeeds.bind (R := fun _ _ => True) (writeAll_succeeds projectId actor version runId _)
      (writeAll_state projectId actor version runId _) (fun _ => Succeeds.bind
        (R := fun _ _ => True) (Succeeds.statement fun _ _ => rfl) (Spec.statement _ _ _)
        (fun _ => Succeeds.pure _) fun _ _ _ _ _ => trivial) fun _ _ _ _ _ => trivial
  · intro v _ db hv h p hp
    rw [h.2.2]
    exact hv.2 p (List.mem_of_mem_filter hp)

theorem requireProject_succeeds :
    Succeeds (fun v => (v.db.projects.find? projectId).isSome = true) (requireProject projectId) :=
  Succeeds.queryOr (f := fun db => db.projects.find? projectId) fun _ => rfl

theorem evaluate_succeeds (charter : Option ValueCharter) (submissions : List RescoreSubmission) :
    Succeeds (fun _ => True) (evaluate projectId charter submissions) := by
  induction submissions with
  | nil => exact Succeeds.pure _
  | cons s rest ih =>
    exact Succeeds.bind (R := fun _ _ => True) (Succeeds.query _)
      (TaskRepository.findById_spec s.taskId) (fun _ => Succeeds.bind (R := fun _ _ => True)
        (fun w _ _ => ⟨w.env, w, rfl, rfl⟩) (Spec.gets (E := Unchanged) _ View.env fun _ => rfl)
        (fun _ => Succeeds.bind (R := fun _ _ => True) ih (evaluate_spec projectId charter rest)
          (fun _ => Succeeds.pure _) fun _ _ _ _ _ => trivial) fun _ _ _ _ _ => trivial)
      fun _ _ _ _ _ => trivial

/-- A batch for a project that is there ends normally if no statement throws. -/
theorem rescore_succeeds (submissions : List RescoreSubmission) :
    Succeeds (fun v => (v.db.projects.find? projectId).isSome = true)
      (rescore projectId submissions actor) := by
  refine Succeeds.bind (R := fun project v => v.db.projects.find? projectId = some project)
    (requireProject_succeeds projectId) (requireProject_spec projectId) (fun project => ?_) ?_
  · refine Succeeds.bind (R := fun outcomes v => (v.db.projects.find? projectId).isSome = true ∧
      RowsThere (assessed outcomes) v)
      (fun w hfaults _ => evaluate_succeeds projectId project.valueCharter submissions w hfaults
        trivial) (evaluate_spec projectId project.valueCharter submissions) (fun outcomes => ?_) ?_
    · exact Succeeds.bind (R := fun _ _ => True) (writeRun_succeeds projectId actor _ _)
        (writeRun_state projectId actor _ _) (fun _ => Succeeds.pure _) fun _ _ _ _ _ => trivial
    · intro v outcomes db hv h
      obtain ⟨rfl, rfl⟩ := h
      refine ⟨by rw [hv]; rfl, fun p hp => ?_⟩
      have hcharter : v.db.charter? projectId = project.valueCharter := by
        rw [Db.charter?, hv]
        rfl
      have hpending : p ∈ pendingOf v.env v.db projectId submissions := by
        rw [pendingOf, hcharter]
        exact hp
      obtain ⟨row, -, hrow, -⟩ := onRow_of_mem_pendingOf hpending
      rw [hrow]
      rfl
  · intro v project db hv h
    rw [h.2]
    exact h.1

end Runs

/-- **Main theorem.** A batch that fails leaves the database as it was; one for a project that is
    there ends normally if no statement throws; and a batch that ends normally has done what it
    should exactly if it holds a valid submission and no two for one task. -/
theorem rescore_meets_iff (env : Env) (db : Db) (now projectId : Nat)
    (submissions : List RescoreSubmission) (actor : RescoreActor) :
    (∀ e w', (rescore projectId submissions actor).run (World.start env db now) = (.error e, w') →
      w'.db = db) ∧
    ((∀ n, env.faults n = none) → (db.projects.find? projectId).isSome = true → ∃ s w',
      (rescore projectId submissions actor).run (World.start env db now) = (.ok s, w')) ∧
    ∀ s w', (rescore projectId submissions actor).run (World.start env db now) = (.ok s, w') →
      (RescoreSpec db (pendingOf env db projectId submissions) s w'.db ↔
        OnePerTask (pendingOf env db projectId submissions)) := by
  refine ⟨fun e w' hrun => ?_, fun hfaults hproject => ?_, fun s w' hrun => ?_⟩
  · exact ((rescore_state projectId actor submissions).error hrun).2.2
  · obtain ⟨s, w', hrun, -⟩ := rescore_succeeds projectId actor submissions
      (World.start env db now) hfaults hproject
    exact ⟨s, w', hrun⟩
  · obtain ⟨-, -, hreports, hdb⟩ := (rescore_state projectId actor submissions).ok hrun
    have hassessed : AssessedOn db (pendingOf env db projectId submissions) :=
      fun p hp => onRow_of_mem_pendingOf hp
    rw [hdb]
    exact ⟨fun h => onePerTask_of_rescoreSpec hreports h,
      fun h => rescoreSpec_of_onePerTask hassessed h hreports⟩

/-- A submission for the first task of a project. -/
def firstTaskSubmission : RescoreSubmission where
  taskId := 1
  submission :=
    { classification :=
        { themeName := none
          alignment := .none
          severity := .none
          decay := none
          jobSizeTier := .one
          evidence := ⟨"a", "a", "a", "a"⟩ }
      features :=
        { deadlineDate := none
          daysUntilDeadline := none
          transitiveDependents := 0
          filesTouched := none
          charterVersion := none } }

/-- A batch with one submission, for a task that does not exist, opens a run. -/
theorem invalid_batch_opens_run : ∃ s w',
    (rescore 1 [firstTaskSubmission] {}).run (World.start Env.undisturbed Db.oneProject 0) =
      (.ok s, w') ∧
    pendingOf Env.undisturbed Db.oneProject 1 [firstTaskSubmission] = [] ∧
    w'.db.rescoreRuns.next = Db.oneProject.rescoreRuns.next + 1 ∧
    ¬ RescoreSpec Db.oneProject (pendingOf Env.undisturbed Db.oneProject 1 [firstTaskSubmission]) s
      w'.db := by
  have hpending : pendingOf Env.undisturbed Db.oneProject 1 [firstTaskSubmission] = [] := rfl
  obtain ⟨s, w', hrun, -⟩ := rescore_succeeds 1 {} [firstTaskSubmission]
    (World.start Env.undisturbed Db.oneProject 0) (fun _ => rfl) rfl
  obtain ⟨-, hreports, hdb⟩ := (rescore_state 1 {} [firstTaskSubmission]).ok hrun |>.2
  refine ⟨s, w', hrun, hpending, ?_, fun h => ?_⟩
  · rw [hdb, runState_next]
    rfl
  · rw [hdb] at h
    exact (onePerTask_of_rescoreSpec hreports h).1 hpending

end WsjfRescoreService

end WoodFiredTasks
