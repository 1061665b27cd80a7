import WoodFiredTasks.Services.Cascade
import WoodFiredTasks.Services.WorkflowEngine

set_option autoImplicit false

/-! # The engine computes the cascade

**Refinement**: a run of the engine in which no statement and no check throws takes the database
to exactly the one that `cascade` describes (`processCascade_refines`), and in every other run
the error is still there at the end of the cascade. The induction is on the levels that are
left: the engine's listener, one level down, is assumed to act like `cascade` with one level
less (`Refines`). -/

namespace WoodFiredTasks

/-- The view after a cascade with `n` levels left. -/
def View.cascaded (n : Nat) (v : View) (id : Nat) (parentTaskId : Option Nat) : View :=
  { v with
    db := cascade v.env v.now n v.db id parentTaskId
    depthLimitHit := v.depthLimitHit || hitsDepthLimit v.env v.now n v.db parentTaskId }

/-- The view after the engine has handled the change of a task. -/
def View.handled (n : Nat) (v : View) (task : Task) : View :=
  if task.isDone then v.cascaded n task.id task.parentTaskId else v

theorem View.handled_inflate (n : Nat) (v : View) (task : Task) :
    v.handled n task.inflate = v.handled n task := rfl

theorem View.handled_of_ne {n : Nat} {v : View} {task : Task} (h : task.status ≠ .done) :
    v.handled n task = v := by
  rw [handled, if_neg (by rwa [Task.isDone_iff])]

/-! ## One status update of the engine -/

namespace WorkflowEngine

variable {d : Nat → Prop} {listener : Listener} {n : Nat}

/-- A listener that does to every change of a status what the abstract engine does with `n`
    levels left, and nothing to other events. -/
structure Refines (d : Nat → Prop) (listener : Listener) (n : Nat) : Prop where
  disciplined : ∀ event, event.eventType = .taskStatusChanged →
    Disciplined d (listener event) fun v _ v' => v' = v.handled n event.data
  other : ∀ event, event.eventType ≠ .taskStatusChanged → listener event = pure ()
  ok : ∀ event w, ((listener event).run w).1 = .ok ()

theorem Refines.emit_other (h : Refines d listener n) {event : BusEvent}
    (he : event.eventType ≠ .taskStatusChanged) :
    Disciplined d (emit listener event) fun v _ v' => v' = v := by
  refine disciplined_emit ?_ (h.ok event)
  rw [h.other event he]
  exact (disciplined_pure ()).post fun _ _ _ hv => hv.2

theorem Refines.announceUpdate (h : Refines d listener n) (existing updated : Task)
    (input : UpdateTaskInput) (source : EventSource) :
    Disciplined d (TaskService.announceUpdate listener existing updated input source)
      fun v _ v' => v' = match TaskService.nextStatus existing input with
        | none => v
        | some _ => v.handled n updated := by
  rw [TaskService.announceUpdate]
  have hnow : Disciplined d (Prog.gets fun w => w.now : M Nat) fun v _ v' => v' = v :=
    Discipline.Holds.gets _ fun _ _ => rfl
  rcases TaskService.nextStatus existing input with _ | next
  · refine (hnow.bind fun now => (h.emit_other (by simp [TaskService.updatedEvent])).bind fun _ => disciplined_pure ()).post ?_
    rintro _ _ _ ⟨_, _, rfl, _, _, rfl, -, rfl⟩
    rfl
  · refine (hnow.bind fun now => (h.emit_other (by simp [TaskService.updatedEvent])).bind fun _ =>
      disciplined_emit (h.disciplined _ rfl) (h.ok _)).post ?_
    rintro _ _ _ ⟨_, _, rfl, _, _, rfl, rfl⟩
    rfl

theorem nextStatus_of_eq {row : Task} {s : TaskStatus} (h : row.status = s) :
    TaskService.nextStatus row.inflate { status := some s } = none := by
  simp [TaskService.nextStatus, h]

theorem nextStatus_of_ne {row : Task} {s : TaskStatus} (h : row.status ≠ s) :
    TaskService.nextStatus row.inflate { status := some s } = some s := by
  simp [TaskService.nextStatus, Ne.symm h]

/-- The status patch of the engine, as `updateTask` prepares it, writes `withStatus`. -/
theorem apply_updatesForRepo (now : Nat) (row : Task) (s : TaskStatus) :
    (TaskService.updatesForRepo row.inflate { status := some s }).apply (some row.status) now row =
      row.withStatus now s := by
  have hve : row.inflate.verificationEvidence = row.verificationEvidence := rfl
  by_cases hs : row.status = s
  · rw [TaskService.updatesForRepo, TaskService.isClosingTransition, nextStatus_of_eq hs]
    simp [hs, UpdateTaskDTO.apply, Task.withStatus]
  · rw [TaskService.updatesForRepo, TaskService.isClosingTransition, nextStatus_of_ne hs, hve]
    by_cases hc : (s = .done ∨ s = .closed) ∧ row.verificationEvidence = none
    · simp [hs, hc, UpdateTaskDTO.apply, Task.withStatus]
    · rw [not_and_or] at hc
      rcases hc with hc | hc <;> simp [hs, hc, UpdateTaskDTO.apply, Task.withStatus]

theorem applyUpdate_updatesForRepo {db : Db} {now id : Nat} {s : TaskStatus} {row : Task}
    (hrow : db.tasks.find? id = some row) :
    db.applyUpdate id (TaskService.updatesForRepo row.inflate { status := some s })
      (some row.status) now = db.setStatus now id s := by
  refine Db.writeTask_congr fun t ht => ?_
  obtain rfl : row = t := Option.some.inj (hrow.symm.trans ht)
  exact apply_updatesForRepo now row s

/-- One status update of the engine: it writes the status of a task that is there, and if that
    changed the status the engine has handled the change when the call returns. -/
theorem Refines.updateStatus (h : Refines d listener n) (id : Nat) (s : TaskStatus) :
    Disciplined d (updateStatus listener id s) fun v _ v' =>
      ∃ row, v.db.tasks.find? id = some row ∧ (row.status ≠ s →
        v' = View.handled n { v with db := v.db.setStatus v.now id s } (row.withStatus v.now s)) := by
  have hwrite : ∀ existing, Disciplined d
      (TaskService.writeUpdate existing id { status := some s }) _ :=
    fun existing => (TaskRepository.update_spec id _).disciplined
  have hresize : ∀ existing written, Disciplined d
      (TaskService.resizeAfterUpdate existing id { status := some s } written) _ :=
    fun existing written => disciplined_pure written
  refine ((TaskService.readUpdate_spec id { status := some s } none).disciplinedRead.bind fun existing =>
    (hwrite existing).bind fun written => (hresize existing written).bind fun updated =>
      (h.announceUpdate existing updated _ _).bind fun _ => disciplined_pure updated).bind
        (fun _ => disciplined_pure ()) |>.post ?_
  rintro _ _ _ ⟨_, v', ⟨existing, v, ⟨⟨⟨row, hrow, rfl⟩, -⟩, rfl⟩, _, _, ⟨_, ⟨row', hrow', -, rfl, rfl⟩, rfl⟩,
    _, _, ⟨rfl, rfl⟩, _, _, hv', -, rfl⟩, -, rfl⟩
  obtain rfl : row = row' := Option.some.inj (hrow.symm.trans hrow')
  refine ⟨row, hrow, fun hne => ?_⟩
  have hstatus : (TaskService.updatesForRepo row.inflate { status := some s }).status = some s := rfl
  simp only [hstatus, Option.map_some, nextStatus_of_ne hne, apply_updatesForRepo] at hv'
  rw [hv', View.handled_inflate, applyUpdate_updatesForRepo hrow]

/-! ## The handlers -/

/-- Views at one depth that agree away from the depth are equal. -/
theorem eq_of_cascadeDepth {v v' : View} {c : Nat} (h : v.cascadeDepth = v'.cascadeDepth)
    (heq : { v with cascadeDepth := c } = { v' with cascadeDepth := c }) : v = v' := by
  obtain ⟨_, _, _, _, _⟩ := v
  obtain ⟨_, _, _, _, _⟩ := v'
  simp only [View.mk.injEq] at h heq ⊢
  exact ⟨heq.1, heq.2.1, h, heq.2.2.2⟩

theorem disciplined_deeper {k : Nat} {p : M Unit} {Q Q' : View → Unit → View → Prop}
    (hp : Disciplined (· = k + 1) p Q)
    (hQ : ∀ v v', v.cascadeDepth = k → v'.cascadeDepth = k →
      Q { v with cascadeDepth := k + 1 } () { v' with cascadeDepth := k + 1 } → Q' v () v') :
    Disciplined (· = k) (deeper p) Q' := by
  refine Discipline.Holds.bracket hp ?_ ?_ (fun _ => ⟨rfl, rfl⟩) (fun _ => ⟨Iff.rfl, Iff.rfl⟩) ?_
  · rintro w ⟨hb, rfl⟩
    exact ⟨hb, rfl⟩
  · rintro w w' ⟨hb, rfl⟩ hframe
    have hdepth : w'.cascadeDepth = w.cascadeDepth + 1 := hframe.cascadeDepth
    exact { env := hframe.env, now := hframe.now, throws := hframe.throws,
            delivered := hframe.delivered, bufferStack := hframe.bufferStack,
            cascadeError := hframe.cascadeError,
            cascadeDepth := by simp [hdepth] }
  · rintro w w' _ ⟨hb, rfl⟩ hframe hq
    have hdepth : w'.cascadeDepth = w.cascadeDepth + 1 := hframe.cascadeDepth
    refine hQ w.view _ rfl (by simp [cascadeDiscipline, World.view, hdepth]) ?_
    have hview : w'.view = { w'.view with cascadeDepth := w.cascadeDepth + 1 } := by
      rw [World.view, hdepth]
    rw [show cascadeDiscipline.view w' = w'.view from rfl, hview] at hq
    exact hq

theorem disciplined_unlessTooDeep {k : Nat} (hk : k < maxCascadeDepth) {p : M Unit}
    {Q : View → Unit → View → Prop} (hp : Disciplined (· = k) p Q) :
    Disciplined (· = k) (unlessTooDeep p) Q := by
  rintro w ⟨hb, hd⟩
  rw [unlessTooDeep, Prog.run_withState, if_neg (by omega)]
  exact hp w ⟨hb, hd⟩

theorem disciplined_everyBlockerDone (blockers : List Dependency) :
    Disciplined d (everyBlockerDone blockers) fun v b v' =>
      (b = blockers.all fun blocker => v.db.status? blocker.taskId == some .done) ∧ v' = v := by
  induction blockers with
  | nil => exact disciplined_pure true
  | cons blocker rest ih =>
    refine ((TaskRepository.findById_spec blocker.taskId).disciplinedRead.bind
      (R := fun t v b v' => (b = (t.any Task.isDone &&
        rest.all fun blocker => v.db.status? blocker.taskId == some .done)) ∧ v' = v)
      fun t => ?_).post ?_
    · by_cases ht : t.any Task.isDone = true
      · simpa [ht] using ih
      · simpa [ht] using disciplined_pure false
    · rintro _ _ v ⟨_, _, ⟨rfl, rfl⟩, rfl, rfl⟩
      refine ⟨?_, rfl⟩
      rw [List.all_cons, Db.status?]
      rcases v.db.tasks.find? blocker.taskId with _ | row <;> simp [Task.isDone]

/-- The engine's move of a parent to done, one level deeper. -/
theorem Refines.completeParent (h : Refines d listener n) (parentId : Nat) {parent : Task}
    (hparent : parent.completable = true) :
    Disciplined d (completeParent listener parentId parent) fun v _ v' =>
      ∀ row, v.db.tasks.find? parentId = some row → row.status = parent.status →
        v' = View.cascaded n { v with db := v.db.complete v.now row } row.id row.parentTaskId := by
  rw [WorkflowEngine.completeParent]
  simp only [Task.completable, Bool.or_eq_true, beq_iff_eq] at hparent
  rcases hparent with hs | hs
  · simp only [hs]
    refine ((h.updateStatus parentId .inProgress).bind fun _ =>
      h.updateStatus parentId .done).post ?_
    rintro v _ v'' ⟨_, v', ⟨row₀, hrow₀, hv'⟩, row₁, hrow₁, hv''⟩ row hrow hstatus
    obtain rfl : row = row₀ := Option.some.inj (hrow.symm.trans hrow₀)
    obtain ⟨-, hid⟩ := Table.find?_eq_some.1 hrow
    have hfirst := hv' (by simp [hstatus])
    rw [View.handled_of_ne (by simp)] at hfirst
    subst hfirst
    rw [Db.find?_setStatus, hrow, Option.map_some, if_pos rfl] at hrow₁
    obtain rfl := Option.some.inj hrow₁
    rw [hv'' (by simp), View.handled, if_pos (by simp [Task.isDone]), Db.complete, if_pos hstatus]
    simp only [Task.withStatus_id, Task.withStatus_parentTaskId, hid]
  · simp only [hs]
    refine (h.updateStatus parentId .done).post ?_
    rintro v _ v' ⟨row₀, hrow₀, hv'⟩ row hrow hstatus
    obtain rfl : row = row₀ := Option.some.inj (hrow.symm.trans hrow₀)
    obtain ⟨-, hid⟩ := Table.find?_eq_some.1 hrow
    rw [hv' (by simp [hstatus]), View.handled, if_pos (by simp [Task.isDone]), Db.complete,
      if_neg (by simp [hstatus])]
    simp only [Task.withStatus_id, Task.withStatus_parentTaskId, hid]

/-- Parents that are blocked, closed or backlogged are skipped. -/
theorem completeParent_of_not {parentId : Nat} {parent : Task}
    (hparent : parent.completable = false) :
    WorkflowEngine.completeParent listener parentId parent = pure () := by
  simp only [Task.completable, Bool.or_eq_false_iff, beq_eq_false_iff_ne] at hparent
  rw [WorkflowEngine.completeParent]
  split
  · exact absurd ‹_› hparent.1
  · exact absurd ‹_› hparent.2
  · rfl

/-- The engine's step on the parent row it has read. -/
theorem disciplined_parentStep {k : Nat} (h : Refines (· = k + 1) listener n) (parentId : Nat)
    (parent : Task) :
    Disciplined (· = k)
      (if parent.isDone then pure ()
        else deeper (WorkflowEngine.completeParent listener parentId parent))
      fun v _ v' => ∀ row, v.db.tasks.find? parentId = some row → row.status = parent.status →
        v' = match Option.filter Task.completable (some row) with
          | none => v
          | some row => View.cascaded n { v with db := v.db.complete v.now row } row.id
              row.parentTaskId := by
  have hrowc : ∀ {row : Task}, row.status = parent.status →
      row.completable = parent.completable := fun {row} hs => by simp [Task.completable, hs]
  by_cases hc : parent.completable = true
  · have hdone : parent.isDone = false := by
      simp only [Task.completable, Bool.or_eq_true, beq_iff_eq] at hc
      rcases hc with hs | hs <;> simp [Task.isDone, hs]
    rw [hdone, if_neg (by simp)]
    refine disciplined_deeper (h.completeParent parentId hc) ?_
    intro v v' hv hv' hq row hrow hstatus
    rw [Option.filter_some, if_pos ((hrowc hstatus).trans hc)]
    exact eq_of_cascadeDepth (hv'.trans hv.symm) (hq row hrow hstatus)
  · rw [Bool.not_eq_true] at hc
    have hstep : Disciplined (· = k)
        (if parent.isDone then pure ()
          else deeper (WorkflowEngine.completeParent listener parentId parent))
        fun v _ v' => v' = v := by
      split
      · exact (disciplined_pure ()).post fun _ _ _ hv => hv.2
      · rw [completeParent_of_not hc]
        refine disciplined_deeper (disciplined_pure ()) ?_
        exact fun v v' hv hv' hq => eq_of_cascadeDepth (hv'.trans hv.symm) hq.2
    refine hstep.post fun v _ v' hv row _ hstatus => ?_
    rw [Option.filter_some, if_neg (by simp [hrowc hstatus, hc])]
    exact hv

/-- `handleParentAutoComplete` completes `nextParent` and handles its change. -/
theorem disciplined_handleParentAutoComplete {k : Nat} (hk : k < maxCascadeDepth)
    (h : Refines (· = k + 1) listener n) (task : Task) :
    Disciplined (· = k) (handleParentAutoComplete listener task) fun v _ v' =>
      v' = match nextParent v.env v.db task.parentTaskId with
        | none => v
        | some parent => View.cascaded n { v with db := v.db.complete v.now parent } parent.id
            parent.parentTaskId := by
  rw [handleParentAutoComplete]
  simp only [nextParent]
  rcases presentId task.parentTaskId with _ | parentId
  · exact (disciplined_pure ()).post fun _ _ _ hv => hv.2
  refine disciplined_unlessTooDeep hk ?_
  refine ((TaskRepository.findChildren_spec parentId {}).disciplinedRead.bind
    (R := fun siblings v _ v' => v' = match (if siblings.all Task.isDone then
        (v.db.tasks.find? parentId).filter Task.completable else none) with
      | none => v
      | some parent => View.cascaded n { v with db := v.db.complete v.now parent } parent.id
          parent.parentTaskId) fun siblings => ?_).post ?_
  · by_cases hall : siblings.all Task.isDone = true
    · simp only [hall, if_true]
      refine ((TaskRepository.findById_spec parentId).disciplinedRead.bind (R := fun t v _ v' =>
        t = (v.db.tasks.find? parentId).map Task.inflate →
          v' = match (v.db.tasks.find? parentId).filter Task.completable with
            | none => v
            | some parent => View.cascaded n { v with db := v.db.complete v.now parent } parent.id
                parent.parentTaskId) fun t => ?_).post ?_
      · cases t with
        | none =>
          refine (disciplined_pure ()).post fun v _ v' hv ht => ?_
          rw [Option.map_eq_none_iff.1 ht.symm]
          exact hv.2
        | some parent =>
          refine (disciplined_parentStep h parentId parent).post fun v _ v' hv ht => ?_
          obtain ⟨row, hrow, rfl⟩ := Option.map_eq_some_iff.1 ht.symm
          rw [hrow]
          exact hv row hrow rfl
      · rintro _ _ _ ⟨_, v, ⟨rfl, rfl⟩, hv⟩
        exact hv rfl
    · simp only [hall]
      exact (disciplined_pure ()).post fun _ _ _ hv => hv.2
  · rintro _ _ _ ⟨_, v, ⟨rfl, rfl⟩, rfl⟩
    rfl

theorem disciplined_unblockDependent {k : Nat} (h : Refines (· = k + 1) listener n)
    (dep : Dependency) :
    Disciplined (· = k) (unblockDependent listener dep) fun v _ v' =>
      v' = { v with db := v.db.unblockOne v.now dep } := by
  have hopen : Disciplined (· = k) (deeper (updateStatus listener dep.blocksTaskId .open))
      fun v _ v' => v.db.status? dep.blocksTaskId = some .blocked →
        v' = { v with db := v.db.setStatus v.now dep.blocksTaskId .open } := by
    refine disciplined_deeper (h.updateStatus dep.blocksTaskId .open) ?_
    rintro v v' hv hv' ⟨row, hrow, hq⟩ hstatus
    have hblocked : row.status = .blocked := by
      rw [Db.status?, hrow] at hstatus
      exact Option.some.inj hstatus
    have heq := hq (by simp [hblocked])
    rw [View.handled_of_ne (by simp)] at heq
    exact eq_of_cascadeDepth (hv'.trans hv.symm) heq
  rw [unblockDependent]
  refine ((TaskRepository.findById_spec dep.blocksTaskId).disciplinedRead.bind (R := fun t v _ v' =>
    t = (v.db.tasks.find? dep.blocksTaskId).map Task.inflate →
      v' = { v with db := v.db.unblockOne v.now dep }) fun t => ?_).post ?_
  · cases t with
    | none =>
      refine (disciplined_pure ()).post fun v _ v' hv ht => ?_
      have hnone : v.db.status? dep.blocksTaskId = none := by
        rw [Db.status?, Option.map_eq_none_iff.1 ht.symm, Option.map_none]
      rw [Db.unblockOne, if_neg (by simp [hnone])]
      exact hv.2
    | some blockedTask =>
      simp only
      split
      · rename_i hblocked
        refine ((Spec.query fun db => db.blockers dep.blocksTaskId).disciplinedRead.bind fun allBlockers =>
          (disciplined_everyBlockerDone allBlockers).bind (R := fun allDone v _ v' =>
            v.db.status? dep.blocksTaskId = some .blocked →
              v' = if allDone then { v with db := v.db.setStatus v.now dep.blocksTaskId .open }
                else v) fun allDone => ?_).post ?_
        · cases allDone with
          | true => exact hopen
          | false => exact (disciplined_pure ()).post fun _ _ _ hv _ => hv.2
        · rintro _ _ v' ⟨_, _, ⟨rfl, rfl⟩, _, v, ⟨rfl, rfl⟩, hv'⟩ ht
          have hstatus : v.db.status? dep.blocksTaskId = some .blocked := by
            obtain ⟨row, hrow, rfl⟩ := Option.map_eq_some_iff.1 ht.symm
            rw [Db.status?, hrow, Option.map_some]
            exact congrArg some hblocked
          rw [hv' hstatus, Db.unblockOne, Db.unblocked]
          simp only [hstatus, true_and]
          split <;> rfl
      · rename_i hblocked
        refine (disciplined_pure ()).post fun v _ v' hv ht => ?_
        obtain ⟨row, hrow, rfl⟩ := Option.map_eq_some_iff.1 ht.symm
        rw [Db.unblockOne, if_neg]
        · exact hv.2
        · rw [Db.status?, hrow, Option.map_some, Option.some.injEq]
          exact fun hs => hblocked hs.1
  · rintro _ _ _ ⟨_, v, ⟨rfl, rfl⟩, hv⟩
    exact hv rfl

theorem disciplined_handleDependencyAutoUnblock {k : Nat} (hk : k < maxCascadeDepth)
    (h : Refines (· = k + 1) listener n) (task : Task) :
    Disciplined (· = k) (handleDependencyAutoUnblock listener task) fun v _ v' =>
      v' = { v with db := v.db.unblockAll v.now task.id } := by
  have hfold : ∀ (deps : List Dependency) (v : View),
      deps.foldl (fun v dep => { v with db := v.db.unblockOne v.now dep }) v =
        { v with db := deps.foldl (Db.unblockOne v.now) v.db } := by
    intro deps
    induction deps with
    | nil => exact fun _ => rfl
    | cons dep rest ih => exact fun v => ih _
  refine disciplined_unlessTooDeep hk (((Spec.query _).disciplinedRead.bind fun deps =>
    Disciplined.forEach (fun v dep => { v with db := v.db.unblockOne v.now dep }) deps fun dep =>
      disciplined_unblockDependent h dep).post ?_)
  rintro _ _ _ ⟨_, v, ⟨rfl, rfl⟩, rfl⟩
  exact hfold _ v

/-! ## The engine -/

theorem recordError_spec (e : Err) (w : World) :
    w.Frame ((recordError e).exec w) ∧ ((recordError e).exec w).cascadeError ≠ none ∧
      ((recordError e).exec w).throws = w.throws :=
  ⟨{ World.Frame.refl w with cascadeError := fun _ => Option.some_ne_none e },
    Option.some_ne_none e, rfl⟩

/-- `processCascade` never throws. -/
theorem processCascade_ok (event : BusEvent) (w : World) :
    ((processCascade listener event).run w).1 = .ok () := by
  rw [processCascade, Prog.run_tryCatch]
  rcases (cascadeBody listener event.data).run w with ⟨_ | _, w'⟩ <;> rfl

/-- Where the depth limit is reached the cascade stops, and notes that it did. -/
theorem processCascade_refines_zero (event : BusEvent) :
    Disciplined (· = maxCascadeDepth) (processCascade listener event) fun v _ v' =>
      v' = v.handled 0 event.data := by
  suffices hbody : Disciplined (· = maxCascadeDepth) (cascadeBody listener event.data) fun v _ v' =>
      v' = v.handled 0 event.data from Discipline.Holds.catchInto hbody recordError_spec
  rw [cascadeBody]
  by_cases hdone : event.data.isDone = true
  · rw [if_pos hdone]
    rintro w ⟨hb, hd⟩
    rw [Prog.run_withState, if_pos (by omega), Prog.run_modify]
    refine ⟨{ World.Frame.refl w with }, fun _ hbad => ⟨hbad, (), rfl, ?_⟩, fun hc => ?_⟩
    · rw [View.handled, if_pos hdone]
      simp [View.cascaded, cascade, hitsDepthLimit, cascadeDiscipline, World.view]
    · exact absurd hc (Nat.lt_irrefl _)
  · rw [if_neg hdone]
    refine (disciplined_pure ()).post fun v _ v' hv => ?_
    rw [View.handled, if_neg hdone]
    exact hv.2

/-- **Refinement.** At a depth with levels left, `processCascade` does what `cascade` does. -/
theorem processCascade_refines_succ {k : Nat} (hk : k < maxCascadeDepth)
    (h : Refines (· = k + 1) listener n) (event : BusEvent) :
    Disciplined (· = k) (processCascade listener event) fun v _ v' =>
      v' = v.handled (n + 1) event.data := by
  suffices hbody : Disciplined (· = k) (cascadeBody listener event.data) fun v _ v' =>
      v' = v.handled (n + 1) event.data from Discipline.Holds.catchInto hbody recordError_spec
  rw [cascadeBody]
  by_cases hdone : event.data.isDone = true
  · rw [if_pos hdone]
    have hboth := (disciplined_handleParentAutoComplete hk h event.data).bind fun _ =>
      disciplined_handleDependencyAutoUnblock hk h event.data
    rintro w ⟨hb, hd⟩
    rw [Prog.run_withState, if_neg (by omega)]
    by_cases herr : w.cascadeError.isSome = true
    · rw [if_pos herr]
      have hne : w.cascadeError ≠ none := Option.isSome_iff_ne_none.1 herr
      exact ⟨World.Frame.refl w, fun _ hbad => absurd hne hbad, fun hc => .inr hne⟩
    · rw [if_neg herr]
      refine (hboth.post ?_) w ⟨hb, hd⟩
      rintro v _ v'' ⟨_, v', rfl, rfl⟩
      rw [View.handled, if_pos hdone, View.cascaded, cascade, hitsDepthLimit]
      rcases nextParent v.env v.db event.data.parentTaskId with _ | parent
      · simp
      · rfl
  · rw [if_neg hdone]
    refine (disciplined_pure ()).post fun v _ v' hv => ?_
    rw [View.handled, if_neg hdone]
    exact hv.2

/-- `handleStatusChanged` never throws. -/
theorem handleStatusChanged_ok (fuel : Nat) (event : BusEvent) (w : World) :
    ((handleStatusChanged fuel event).run w).1 = .ok () := by
  cases fuel with
  | zero => rfl
  | succ fuel =>
    rw [handleStatusChanged, handle, Prog.run_withState]
    split
    · rw [Prog.run_tryCatch]
      rcases (cascadeTx _ event).run w with ⟨_ | _, w'⟩ <;> rfl
    · exact processCascade_ok event w

/-- Inside a cascade the engine's listener does what the abstract engine does with the levels
    that are left. -/
theorem refines_onStatusChanged (n : Nat) : ∀ k, 0 < k → k + n = maxCascadeDepth →
    Refines (· = k) (onStatusChanged (handleStatusChanged (n + 1))) n := by
  have hok : ∀ fuel event w,
      ((onStatusChanged (handleStatusChanged fuel) event).run w).1 = .ok () := by
    intro fuel event w
    rw [onStatusChanged]
    split
    · exact handleStatusChanged_ok fuel event w
    · rfl
  have hinner : ∀ {k fuel : Nat} {event : BusEvent} {Q : View → Unit → View → Prop}, 0 < k →
      Disciplined (· = k) (processCascade (onStatusChanged (handleStatusChanged fuel)) event) Q →
      Disciplined (· = k) (handleStatusChanged (fuel + 1) event) Q := by
    rintro k fuel event Q hk hp w ⟨hb, hd⟩
    rw [handleStatusChanged, handle, Prog.run_withState, if_neg (by omega)]
    exact hp w ⟨hb, hd⟩
  induction n with
  | zero =>
    intro k hk hkn
    refine ⟨fun event he => ?_, fun event he => if_neg he, hok _⟩
    obtain rfl : k = maxCascadeDepth := by omega
    rw [onStatusChanged, if_pos he]
    exact hinner hk (processCascade_refines_zero event)
  | succ n ih =>
    intro k hk hkn
    refine ⟨fun event he => ?_, fun event he => if_neg he, hok _⟩
    rw [onStatusChanged, if_pos he]
    exact hinner hk (processCascade_refines_succ (by omega) (ih (k + 1) (by omega) (by omega)) event)

/-- The whole cascade, from its entry at depth 0. -/
theorem processCascade_refines (event : BusEvent) :
    Disciplined (· = 0)
      (processCascade (onStatusChanged (handleStatusChanged maxCascadeDepth)) event)
      fun v _ v' => v' = v.handled maxCascadeDepth event.data :=
  processCascade_refines_succ (by decide) (refines_onStatusChanged 4 1 (by decide) rfl) event

end WorkflowEngine

/-! ## The outermost handler -/

/-- Between two calls the engine is idle. -/
structure World.Idle (w : World) : Prop where
  cascadeDepth : w.cascadeDepth = 0
  cascadeError : w.cascadeError = none

theorem World.idle_start (env : Env) (db : Db) (now : Nat) : (World.start env db now).Idle :=
  ⟨rfl, rfl⟩

/-- SQL leaves the engine idle. -/
theorem World.Idle.sql {w w' : World} (hw : w.Idle)
    (h : w' = { w with db := w'.db, calls := w'.calls }) : w'.Idle := by
  rw [h]
  exact ⟨hw.cascadeDepth, hw.cascadeError⟩

theorem World.Idle.publish {w : World} (hw : w.Idle) (event : BusEvent) :
    (w.publish event).Idle := by
  unfold World.publish
  split
  · exact ⟨hw.cascadeDepth, hw.cascadeError⟩
  · exact ⟨hw.cascadeDepth, hw.cascadeError⟩

/-- How a cascade can end, seen from outside. -/
inductive World.CascadeEnd (w : World) (task : Task) (w' : World) : Prop where
  /-- Nothing was thrown: the database is the one after `cascade`. -/
  | committed (throws : w'.throws = w.throws)
      (view : w'.view = w.view.handled WorkflowEngine.maxCascadeDepth task)
  /-- Something was thrown: nothing is left of the cascade. -/
  | rolledBack (throws : w.throws < w'.throws) (db : w'.db = w.db)
      (bufferStack : w'.bufferStack = w.bufferStack) (delivered : w'.delivered = w.delivered)

@[simp] theorem World.view_commitBuffer (w : World) : w.commitBuffer.view = w.view := by
  unfold commitBuffer
  split <;> rfl

@[simp] theorem World.throws_commitBuffer (w : World) : w.commitBuffer.throws = w.throws := by
  unfold commitBuffer
  split <;> rfl

@[simp] theorem World.cascadeError_commitBuffer (w : World) :
    w.commitBuffer.cascadeError = w.cascadeError := by
  unfold commitBuffer
  split <;> rfl

theorem World.env_eq_of_view {w w' : World} (h : w'.view = w.view) :
    w'.env = w.env ∧ w'.now = w.now ∧ w'.cascadeDepth = w.cascadeDepth ∧ w'.db = w.db := by
  simp only [view, View.mk.injEq] at h
  exact ⟨h.1, h.2.1, h.2.2.1, h.2.2.2.2⟩

namespace WorkflowEngine

/-- The end of the cascade's transaction: nothing was thrown, or the error comes out. -/
theorem run_rethrow (w : World) : rethrow.run w = match w.cascadeError with
    | none => (.ok (), w)
    | some e => (.error e, { w with cascadeError := none, throws := w.throws + 1 }) := by
  rw [rethrow, Prog.run_withState]
  rcases w.cascadeError with _ | e <;> rfl

/-- The body of the cascade's transaction, with its COMMIT. -/
theorem cascadeBodyTx_spec (event : BusEvent) {w : World} (hb : w.bufferStack ≠ [])
    (hw : w.Idle) :
    match ((processCascade (onStatusChanged (handleStatusChanged maxCascadeDepth)) event >>=
        fun _ => rethrow) >>= fun a => call >>= fun _ => pure a).run w with
    | (.ok _, w') => w.Frame w' ∧ w'.cascadeError = none ∧ w'.throws = w.throws ∧
        w'.view = w.view.handled maxCascadeDepth event.data
    | (.error _, w') => w'.cascadeDepth = 0 ∧ w'.env = w.env ∧ w'.now = w.now ∧
        w'.delivered = w.delivered ∧ w'.bufferStack.tail = w.bufferStack.tail ∧
        w.throws < w'.throws := by
  obtain ⟨hframe, hquiet, hnoisy⟩ := processCascade_refines event w ⟨hb, hw.cascadeDepth⟩
  have hok : ((processCascade (onStatusChanged (handleStatusChanged maxCascadeDepth)) event).run
      w).1 = .ok () := processCascade_ok event w
  rcases hr : (processCascade (onStatusChanged (handleStatusChanged maxCascadeDepth)) event).run w
    with ⟨_, w₁⟩
  rw [hr] at hframe hquiet hnoisy hok
  simp only at hok
  subst hok
  rw [Prog.run_bind, Prog.run_bind, hr]
  simp only [run_rethrow]
  rcases herr : w₁.cascadeError with _ | e
  · have hthrows : w₁.throws = w.throws := by
      by_contra hne
      rcases hnoisy (lt_of_le_of_ne hframe.throws (Ne.symm hne)) with ⟨e, he⟩ | hbad
      · cases he
      · exact hbad herr
    obtain ⟨-, _, -, hview⟩ := hquiet hthrows fun hbad => hbad hw.cascadeError
    simp only [Prog.run_bind]
    rw [Prog.run, call]
    rcases w₁.env.faults w₁.calls with _ | e
    · exact ⟨{ hframe with }, herr, hthrows, hview⟩
    · refine ⟨hframe.cascadeDepth.trans hw.cascadeDepth, hframe.env, hframe.now,
        hframe.delivered hb, (hframe.bufferStack hb).2, ?_⟩
      exact Nat.lt_succ_of_le hframe.throws
  · refine ⟨hframe.cascadeDepth.trans hw.cascadeDepth, hframe.env, hframe.now,
      hframe.delivered hb, (hframe.bufferStack hb).2, ?_⟩
    exact Nat.lt_succ_of_le hframe.throws

theorem View.handled_cascadeDepth (n : Nat) (v : View) (task : Task) :
    (v.handled n task).cascadeDepth = v.cascadeDepth := by
  unfold View.handled
  split <;> rfl

/-- **Outcome of the outermost handler**: it never throws, it leaves the engine idle, and the
    cascade is either there as a whole or not at all. -/
theorem handleStatusChanged_outcome (event : BusEvent) {w : World} (hw : w.Idle) :
    ((handleStatusChanged (maxCascadeDepth + 1) event).exec w).Idle ∧
      ((handleStatusChanged (maxCascadeDepth + 1) event).exec w).env = w.env ∧
      ((handleStatusChanged (maxCascadeDepth + 1) event).exec w).now = w.now ∧
      w.CascadeEnd event.data ((handleStatusChanged (maxCascadeDepth + 1) event).exec w) := by
  rw [handleStatusChanged, handle, Prog.exec, Prog.run_withState, if_pos hw.cascadeDepth,
    Prog.run_tryCatch, cascadeTx, Prog.run, runInTransaction, transaction, Prog.run_bind, Prog.run,
    call]
  rcases w.env.faults w.calls with _ | e
  · simp only
    have hbody := cascadeBodyTx_spec event
      (w := { w with bufferStack := [] :: w.bufferStack, calls := w.calls + 1 })
      (List.cons_ne_nil _ _) ⟨hw.cascadeDepth, hw.cascadeError⟩
    rw [Prog.run, Prog.atomically]
    rw [Prog.run] at hbody
    split at hbody
    · rename_i _ w₁ hr
      obtain ⟨hframe, herr, hthrows, hview⟩ := hbody
      rw [hr]
      simp only
      have hview' : w₁.commitBuffer.view = w.view.handled maxCascadeDepth event.data := by
        rw [World.view_commitBuffer, hview]
        rfl
      have hdepth : w₁.commitBuffer.cascadeDepth = 0 :=
        (congrArg View.cascadeDepth hview').trans
          ((View.handled_cascadeDepth _ _ _).trans hw.cascadeDepth)
      have hfixed : w₁.commitBuffer.env = w.env ∧ w₁.commitBuffer.now = w.now := by
        have h := World.view_commitBuffer w₁
        obtain ⟨henv, hnow, -⟩ := World.env_eq_of_view h
        exact ⟨henv.trans hframe.env, hnow.trans hframe.now⟩
      exact ⟨⟨hdepth, (World.cascadeError_commitBuffer w₁).trans herr⟩, hfixed.1, hfixed.2,
        .committed ((World.throws_commitBuffer w₁).trans hthrows) hview'⟩
    · rename_i e w₁ hr
      obtain ⟨hdepth, henv, hnow, hdelivered, hstack, hthrows⟩ := hbody
      rw [hr]
      exact ⟨⟨hdepth, rfl⟩, henv, hnow, .rolledBack hthrows rfl hstack hdelivered⟩
  · exact ⟨⟨hw.cascadeDepth, rfl⟩, rfl, rfl,
      .rolledBack (Nat.lt_succ_self _) rfl rfl rfl⟩

/-- The same for the engine's subscription, on the events that reach it. -/
theorem engine_outcome {event : BusEvent} (he : event.eventType = .taskStatusChanged) {w : World}
    (hw : w.Idle) :
    (engine event).run w = (.ok (), (engine event).exec w) ∧ ((engine event).exec w).Idle ∧
      ((engine event).exec w).env = w.env ∧ ((engine event).exec w).now = w.now ∧
      w.CascadeEnd event.data ((engine event).exec w) := by
  rw [engine, onStatusChanged, if_pos he]
  exact ⟨Prod.ext (handleStatusChanged_ok _ event w) rfl, handleStatusChanged_outcome event hw⟩

theorem engine_other {event : BusEvent} (he : event.eventType ≠ .taskStatusChanged) :
    engine event = pure () := if_neg he

theorem engine_ok (event : BusEvent) (w : World) : ((engine event).run w).1 = .ok () := by
  rw [engine, onStatusChanged]
  split
  · exact handleStatusChanged_ok _ event w
  · rfl

/-- An event reaches the ordinary subscribers, or the buffer, after the engine is through. -/
theorem run_emit_engine (event : BusEvent) (w : World) :
    (emit engine event).run w = (.ok (), ((engine event).exec w).publish event) := by
  have hok := engine_ok event w
  rw [emit, Prog.run_bind, wrapped, Prog.run_tryCatch, Prog.exec]
  rcases hr : (engine event).run w with ⟨_, w'⟩
  rw [hr] at hok
  simp only at hok
  rw [hok]
  rfl

end WorkflowEngine

end WoodFiredTasks
