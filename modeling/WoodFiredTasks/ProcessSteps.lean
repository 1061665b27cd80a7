import WoodFiredTasks.Processes

set_option autoImplicit false

/-! # What one step of a process can do

`Point.Effect` says, for every point of every call, what the segment from there does to the
database when it ends normally, and what its reads establish for the point after it. A segment
that throws leaves the database as it was (`Point.segment_effect`). The invariants of runs are
proved from this relation and never look into a segment again. -/

namespace WoodFiredTasks

open TaskService

/-! ## Results and databases of segments -/

/-- What a program returns and leaves in the database, with the engine idle before it. -/
structure Leaves {α : Type} (p : M α) (Q : View → α → Db → Prop) : Prop where
  ok : ∀ {w a w'}, w.Idle → p.run w = (.ok a, w') → Q w.view a w'.db
  error : ∀ {w e w'}, w.Idle → p.run w = (.error e, w') → w'.db = w.db

/-- A program that only publishes events: it ends with `a` and leaves the database and the clock
    alone. -/
def Publishes {α : Type} (p : M α) (a : α) : Prop :=
  ∀ w, ∃ w', p.run w = (.ok a, w') ∧ w'.db = w.db ∧ w'.now = w.now

section Rules

variable {α β : Type} {p : M α} {f : α → M β} {a : α} {b : β} {Q Q' : View → α → Db → Prop}

theorem Spec.leaves (h : Spec p Q Unchanged) : Leaves p Q where
  ok _ hr := (h.ok hr).2
  error _ hr := (h.error hr).2.2

theorem Leaves.post (h : Leaves p Q) (hQ : ∀ v a db, Q v a db → Q' v a db) : Leaves p Q' where
  ok hw hr := hQ _ _ _ (h.ok hw hr)
  error := h.error

theorem Leaves.and (h : Leaves p Q) (h' : Leaves p Q') :
    Leaves p fun v a db => Q v a db ∧ Q' v a db where
  ok hw hr := ⟨h.ok hw hr, h'.ok hw hr⟩
  error := h.error

theorem publishes_pure (a : α) : Publishes (pure a) a := fun w => ⟨w, rfl, rfl, rfl⟩

theorem Publishes.bind (hp : Publishes p a) (hf : Publishes (f a) b) : Publishes (p >>= f) b := by
  intro w
  obtain ⟨w₁, hr₁, hdb₁, hnow₁⟩ := hp w
  obtain ⟨w₂, hr₂, hdb₂, hnow₂⟩ := hf w₁
  exact ⟨w₂, by rw [Prog.run_bind_ok hr₁, hr₂], hdb₂.trans hdb₁, hnow₂.trans hnow₁⟩

theorem Leaves.bindPublishes {g : α → β} (hp : Leaves p Q) (hf : ∀ a, Publishes (f a) (g a)) :
    Leaves (p >>= f) fun v b db => ∃ a, Q v a db ∧ b = g a := by
  constructor
  · intro w b w'' hw hr
    rw [Prog.run_bind] at hr
    rcases hrp : p.run w with ⟨e | a, w'⟩ <;> rw [hrp] at hr
    · cases hr
    · obtain ⟨w₁, hr₁, hdb, -⟩ := hf a w'
      cases hr₁.symm.trans hr
      rw [hdb]
      exact ⟨a, hp.ok hw hrp, rfl⟩
  · intro w e w'' hw hr
    rw [Prog.run_bind] at hr
    rcases hrp : p.run w with ⟨e' | a, w'⟩ <;> rw [hrp] at hr
    · cases hr
      exact hp.error hw hrp
    · obtain ⟨w₁, hr₁, -⟩ := hf a w'
      cases hr₁.symm.trans hr

/-- A read, and then what is done with it. -/
theorem Spec.thenLeaves {R : View → α → Prop} {S : α → View → β → Db → Prop}
    (hp : Spec p (fun v a db => R v a ∧ db = v.db) Unchanged) (hf : ∀ a, Leaves (f a) (S a)) :
    Leaves (p >>= f) fun v b db => ∃ a, R v a ∧ S a v b db := by
  have hread : ∀ {w a w'}, w.Idle → p.run w = (.ok a, w') →
      R w.view a ∧ w'.Idle ∧ w'.view = w.view ∧ w'.db = w.db := by
    intro w a w' hw hrp
    obtain ⟨hw', hq, hdb⟩ := hp.ok hrp
    have hdb' : w'.db = w.db := hdb
    refine ⟨hq, ?_, ?_, hdb'⟩
    · rw [hw']
      exact ⟨hw.cascadeDepth, hw.cascadeError⟩
    · rw [hw', hdb']
      rfl
  constructor
  · intro w b w'' hw hr
    rw [Prog.run_bind] at hr
    rcases hrp : p.run w with ⟨e | a, w'⟩ <;> rw [hrp] at hr
    · cases hr
    · obtain ⟨hq, hidle, hview, -⟩ := hread hw hrp
      exact ⟨a, hq, hview ▸ (hf a).ok hidle hr⟩
  · intro w e w'' hw hr
    rw [Prog.run_bind] at hr
    rcases hrp : p.run w with ⟨e' | a, w'⟩ <;> rw [hrp] at hr
    · cases hr
      exact (hp.error hrp).2.2
    · obtain ⟨-, hidle, -, hdb⟩ := hread hw hrp
      exact ((hf a).error hidle hr).trans hdb

theorem publishes_emit {event : BusEvent} (he : event.eventType ≠ .taskStatusChanged) :
    Publishes (emit WorkflowEngine.engine event) () := by
  intro w
  refine ⟨_, WorkflowEngine.run_emit_engine event w, ?_⟩
  rw [WorkflowEngine.engine_other he]
  have hview := World.view_publish event w
  exact ⟨congrArg View.db hview, congrArg View.now hview⟩

theorem publishes_gets {γ : Type} {f : World → γ} {g : γ → M β} {b : β}
    (h : ∀ c, Publishes (g c) b) : Publishes (Prog.gets f >>= g) b := by
  intro w
  obtain ⟨w', hr, hkept⟩ := h (f w) w
  exact ⟨w', by rw [Prog.run_bind, Prog.run_gets]; exact hr, hkept⟩

theorem publishes_announceTask {eventType : EventType} (he : eventType ≠ .taskStatusChanged)
    (task : Task) : Publishes (announceTask WorkflowEngine.engine eventType task) task :=
  publishes_gets fun _ => (publishes_emit he).bind (publishes_pure task)

theorem publishes_announceClaim (task : Task) (source : EventSource) :
    Publishes (announceClaim WorkflowEngine.engine task source) task :=
  publishes_gets fun _ => (publishes_emit (by simp)).bind (publishes_pure task)

theorem leaves_announceRelease (claim : StaleClaim) :
    Leaves (ClaimReleaseService.announceRelease WorkflowEngine.engine claim)
      fun v _ db => db = v.db := by
  refine (Leaves.bindPublishes (g := fun _ => ()) (Spec.query _).leaves fun row =>
    publishes_gets fun now => ?_).post ?_
  · cases row with
    | none => exact publishes_pure ()
    | some row => exact (publishes_emit (by simp)).bind (publishes_emit (by simp))
  · rintro v _ db ⟨_, ⟨-, hdb⟩, -⟩
    exact hdb

/-- The events of an update always go out. The engine's part is nothing, or the cascade from the
    updated task. -/
theorem announceUpdate_ends (existing updated : Task) (input : UpdateTaskInput)
    (source : EventSource) {w : World} (hw : w.Idle) : ∃ w',
      (announceUpdate WorkflowEngine.engine existing updated input source).run w = (.ok (), w') ∧
      (w'.db = w.db ∨ (nextStatus existing input).isSome = true ∧ updated.status = .done ∧
        w'.db = cascade w.env w.now WorkflowEngine.maxCascadeDepth w.db updated.id
          updated.parentTaskId) := by
  have hfirst : (WorkflowEngine.engine (updatedEvent w.now updated source)).exec w = w := by
    rw [WorkflowEngine.engine_other (by simp [updatedEvent])]
    rfl
  have hpublish : ∀ (event : BusEvent) (w : World), (w.publish event).db = w.db := fun event w =>
    congrArg View.db (World.view_publish event w)
  rw [announceUpdate, Prog.run_bind, Prog.run_gets]
  simp only [Prog.run_bind, WorkflowEngine.run_emit_engine, hfirst]
  rcases nextStatus existing input with _ | next
  · exact ⟨_, rfl, .inl (hpublish _ w)⟩
  · refine ⟨_, WorkflowEngine.run_emit_engine _ _, ?_⟩
    simp only [hpublish, Option.isSome_some, true_and]
    have hpub := hw.publish (updatedEvent w.now updated source)
    obtain ⟨-, -, -, -, hend⟩ := WorkflowEngine.engine_outcome
      (rfl : (statusChangedEvent w.now updated source existing.status next).eventType = _) hpub
    cases hend with
    | committed hthrows hview =>
      have hdb := congrArg View.db hview
      rw [World.view_publish, View.handled] at hdb
      split at hdb
      · rename_i hdone
        exact .inr ⟨Task.isDone_iff.1 hdone, hdb⟩
      · exact .inl hdb
    | rolledBack hthrows hdb => exact .inl (hdb.trans (hpublish _ w))

theorem leaves_announceUpdate (existing updated : Task) (input : UpdateTaskInput)
    (source : EventSource) :
    Leaves (announceUpdate WorkflowEngine.engine existing updated input source) fun v _ db =>
      db = v.db ∨ (nextStatus existing input).isSome = true ∧ updated.status = .done ∧
        db = cascade v.env v.now WorkflowEngine.maxCascadeDepth v.db updated.id
          updated.parentTaskId := by
  constructor
  · intro w a w' hw hr
    obtain ⟨w₁, hr₁, h⟩ := announceUpdate_ends existing updated input source hw
    cases hr₁.symm.trans hr
    exact h
  · intro w e w' hw hr
    obtain ⟨w₁, hr₁, -⟩ := announceUpdate_ends existing updated input source hw
    cases hr₁.symm.trans hr

end Rules

/-! ## Effects -/

/-- What the segment from a point may do when it ends normally: the database before and after
    it, and the point that it ends at. -/
def Point.Effect (env : Env) (now : Nat) (db db' : Db) (next : Option Point) : Point → Prop
  | .start (.claimTask taskId assignee user source) =>
    db' = db ∧ ∃ path, next = some (.claimUpdate path taskId assignee user source)
  | .start (.updateTask id input source _) =>
    db' = db ∧ ∃ row, db.tasks.find? id = some row ∧
      next = some (.updateWrite row.inflate id input source) ∧
      checkUpdate env input = .ok () ∧ checkTransition row.inflate input = .ok ()
  | .start (.sweep timeoutMinutes) =>
    db' = db ∧ ∃ claims, next = nextRelease timeoutMinutes claims ∧
      ∀ c ∈ claims, c.claimedAt.olderThan timeoutMinutes now = true
  | .start (.addDependency taskId blocksTaskId) =>
    db' = db ∧ next = some (.blockedTaskRead taskId blocksTaskId)
  | .start (.removeDependency taskId blocksTaskId) =>
    db' = db.deleteDependency taskId blocksTaskId ∧ next = none
  | .start (.createTask input) =>
    db' = db ∧ next = some (.insertTask input) ∧ ReferencesOk db input ∧
      checkCreate env input = .ok ()
  | .start (.deleteTask id) => db' = db ∧ next = some (.deleteRow id)
  | .claimUpdate .fresh taskId assignee user _ =>
    next = none ∧ ∃ row, db.tasks.find? taskId = some row ∧ row.assignee = none ∧
      row.status = .open ∧ db' = db.writeTask taskId (Task.claim assignee user now)
        (Task.claim_id assignee user now)
  | .claimUpdate .renewal taskId assignee _ source =>
    next = some (.renewReload taskId assignee source) ∧ ∃ row,
      db.tasks.find? taskId = some row ∧ row.assignee = some assignee ∧ row.status = .inProgress ∧
      db' = db.writeTask taskId (Task.renew now) (Task.renew_id now)
  | .renewReload .. => db' = db ∧ next = none
  | .updateWrite existing id input source =>
    Updated db now existing id input db' ∧
      ∃ written, next = some (afterWrite existing id input source written)
  | .sizeRead sizing taskId jobSize =>
    db' = db ∧ ∃ existing, next = some (.sizeWrite sizing taskId existing jobSize)
  | .sizeWrite sizing taskId _ jobSize =>
    Resized db now taskId jobSize db' ∧ (next = none ∨ ∃ existing sized input source,
      sizing = .updated existing input source ∧ next = some (.announce existing sized input source))
  | .announce existing updated input _ =>
    next = none ∧ (db' = db ∨ (nextStatus existing input).isSome = true ∧
      updated.status = .done ∧ db' = cascade env now WorkflowEngine.maxCascadeDepth db updated.id
        updated.parentTaskId)
  | .release timeoutMinutes claim rest =>
    (db' = db ∧ next = nextRelease timeoutMinutes rest) ∨
      (next = some (.releaseReload timeoutMinutes claim rest) ∧ ∃ row,
        db.tasks.find? claim.id = some row ∧ row.assignee ≠ none ∧ row.status = .inProgress ∧
        db' = db.writeTask claim.id (Task.release now) (Task.release_id now))
  | .releaseReload timeoutMinutes _ rest => db' = db ∧ next = nextRelease timeoutMinutes rest
  | .blockedTaskRead taskId blocksTaskId =>
    db' = db ∧ next = some (.cycleCheck taskId blocksTaskId)
  | .cycleCheck taskId blocksTaskId =>
    db' = db ∧ next = some (.insertEdge taskId blocksTaskId db.dependencies.rows) ∧
      DependencyService.cycleCheck db.dependencies.rows taskId blocksTaskId = .ok ()
  | .insertEdge taskId blocksTaskId _ =>
    next = none ∧ db.insertDependencyError taskId blocksTaskId = none ∧
      db' = db.insertDependency taskId blocksTaskId now
  | .insertTask input =>
    Inserted db now input db' ∧ (next = none ∨ ∃ id jobSize, next = some (.sizeRead .created id jobSize))
  | .deleteRow id => db' = db.deleteTask id ∧ next = none

/-- A read followed by a step of the call that issues nothing. -/
theorem Spec.leavesThen {α β : Type} {p : M α} {Q : View → α → Db → Prop} {f : α → β}
    (h : Spec p Q Unchanged) :
    Leaves (p >>= fun a => Pure.pure (f a)) fun v b db => ∃ a, Q v a db ∧ b = f a :=
  h.leaves.bindPublishes fun a => publishes_pure (f a)

theorem checkTransition_of_checkExisting {env : Env} {existing : Task} {input : UpdateTaskInput}
    {callerId : Option String} (h : checkExisting env existing input callerId = .ok ()) :
    checkTransition existing input = .ok () := by
  unfold checkExisting at h
  rcases hevidence : checkEvidence env existing input callerId with e | _
  · rw [hevidence] at h
    cases h
  · rw [hevidence] at h
    rcases htransition : checkTransition existing input with e | _
    · rw [htransition] at h
      cases h
    · rfl

theorem leaves_startSegment (call : Call) : Leaves (Point.startSegment call) fun v next db =>
    Point.Effect v.env v.now v.db db next (.start call) := by
  cases call with
  | claimTask taskId assignee user source =>
    refine (claimRead_spec taskId assignee).leavesThen.post ?_
    rintro v _ db ⟨path, ⟨-, hdb⟩, rfl⟩
    exact ⟨hdb, path, rfl⟩
  | updateTask id input source callerId =>
    refine (readUpdate_spec id input callerId).leavesThen.post ?_
    rintro v _ db ⟨_, ⟨⟨⟨row, hrow, rfl⟩, hinput, hexisting⟩, hdb⟩, rfl⟩
    exact ⟨hdb, row, hrow, rfl, hinput, checkTransition_of_checkExisting hexisting⟩
  | sweep timeoutMinutes =>
    refine (ClaimReleaseService.findStaleClaims_spec timeoutMinutes).leavesThen.post ?_
    rintro v _ db ⟨claims, ⟨hold, hdb⟩, rfl⟩
    exact ⟨hdb, claims, rfl, hold⟩
  | addDependency taskId blocksTaskId =>
    have hvalid := Spec.raiseError (DependencyService.validate taskId blocksTaskId)
    refine (hvalid.thenLeaves fun _ => (requireTask_spec taskId).leavesThen).post ?_
    rintro v _ db ⟨_, -, _, ⟨-, hdb⟩, rfl⟩
    exact ⟨hdb, rfl⟩
  | removeDependency taskId blocksTaskId =>
    refine (DependencyService.removeDependency_spec taskId blocksTaskId).leavesThen.post ?_
    rintro v _ db ⟨_, hdb, rfl⟩
    exact ⟨hdb, rfl⟩
  | createTask input =>
    refine (readCreate_spec input).leavesThen.post ?_
    rintro v _ db ⟨_, ⟨⟨hrefs, hcheck⟩, hdb⟩, rfl⟩
    exact ⟨hdb, rfl, hrefs, hcheck⟩
  | deleteTask id =>
    have hpublish : ∀ existing, Publishes (announceTask WorkflowEngine.engine .taskDeleted existing
        >>= fun _ => pure (some (Point.deleteRow id))) (some (.deleteRow id)) := fun existing =>
      (publishes_announceTask (by simp) existing).bind (publishes_pure _)
    refine ((requireTask_spec id).leaves.bindPublishes hpublish).post ?_
    rintro v _ db ⟨_, ⟨-, hdb⟩, rfl⟩
    exact ⟨hdb, rfl⟩

/-- The UPDATE of a renewal: the row was held, or the call ends with an error. -/
theorem renewal_spec (taskId : Nat) (assignee : String) (source : EventSource) :
    Spec (TaskRepository.renewUpdate taskId assignee >>= fun changed =>
        if changed then pure (some (Point.renewReload taskId assignee source))
        else raise (renewalError taskId))
      (fun v next db => next = some (.renewReload taskId assignee source) ∧ ∃ row,
        v.db.tasks.find? taskId = some row ∧ row.assignee = some assignee ∧
        row.status = .inProgress ∧
        db = v.db.writeTask taskId (Task.renew v.now) (Task.renew_id v.now)) Unchanged := by
  refine ((TaskRepository.renewUpdate_spec taskId assignee).bind
    (R := fun changed v next db => changed = true ∧
      next = some (.renewReload taskId assignee source) ∧ db = v.db)
    (F := fun changed v db => changed = false ∧ db = v.db) fun changed => ?_).conseq ?_ ?_
  · cases changed with
    | false => exact (Spec.raise _).conseq (fun _ _ _ h => h) fun _ _ h => ⟨rfl, h⟩
    | true => exact (Spec.pure _).post fun _ _ _ h => ⟨rfl, h⟩
  · rintro v _ _ ⟨_, _, h, rfl, rfl, rfl⟩
    exact ⟨rfl, (h.resolve_left fun h => Bool.noConfusion h.1).2⟩
  · rintro v _ (h | ⟨_, _, h, rfl, rfl⟩)
    · exact h
    · exact (h.resolve_right fun h => Bool.noConfusion h.1).2

/-- Every segment has its effect, and one that throws leaves the database as it was. -/
theorem leaves_segment (point : Point) : Leaves point.segment fun v next db =>
    point.Effect v.env v.now v.db db next := by
  cases point with
  | start call => exact leaves_startSegment call
  | claimUpdate path taskId assignee user source =>
    cases path with
    | fresh =>
      refine ((claimFresh_spec taskId assignee user).leaves.bindPublishes fun task =>
        (publishes_announceClaim task source).bind (publishes_pure none)).post ?_
      rintro v _ db ⟨_, ⟨row, hrow, hassignee, hstatus, -, hdb⟩, rfl⟩
      exact ⟨rfl, row, hrow, hassignee, hstatus, hdb⟩
    | renewal => exact (renewal_spec taskId assignee source).leaves
  | renewReload taskId assignee source =>
    refine (Spec.thenLeaves (TaskRepository.findById_spec taskId)
      (S := fun _ v next db => db = v.db ∧ next = none) fun task => ?_).post ?_
    · cases task with
      | none => exact (Spec.raise _).leaves
      | some task =>
        refine (Spec.pure (E := Unchanged) ()).leaves.bindPublishes (f := fun _ =>
          announceClaim WorkflowEngine.engine task source >>= fun _ => pure none) (fun _ =>
          (publishes_announceClaim task source).bind (publishes_pure none)) |>.post ?_
        rintro v _ db ⟨_, ⟨-, hdb⟩, rfl⟩
        exact ⟨hdb, rfl⟩
    · rintro v next db ⟨_, -, h⟩
      exact h
  | updateWrite existing id input source =>
    refine (writeUpdate_spec existing id input).leavesThen.post ?_
    rintro v _ db ⟨written, hupdated, rfl⟩
    exact ⟨hupdated, written, rfl⟩
  | sizeRead sizing taskId jobSize =>
    refine (requireTask_spec taskId).leavesThen.post ?_
    rintro v _ db ⟨existing, ⟨-, hdb⟩, rfl⟩
    exact ⟨hdb, existing, rfl⟩
  | sizeWrite sizing taskId existing jobSize =>
    cases sizing with
    | created =>
      refine ((autoSizeWrite_spec taskId existing jobSize .autoSize).leaves.bindPublishes fun sized =>
        (publishes_announceTask (by simp) sized).bind (publishes_pure none)).post ?_
      rintro v _ db ⟨_, h, rfl⟩
      exact ⟨h, .inl rfl⟩
    | updated before input source =>
      refine (autoSizeWrite_spec taskId existing jobSize .autoSize).leavesThen.post ?_
      rintro v _ db ⟨sized, h, rfl⟩
      exact ⟨h, .inr ⟨before, sized, input, source, rfl, rfl⟩⟩
  | announce existing updated input source =>
    refine ((leaves_announceUpdate existing updated input source).bindPublishes fun _ =>
      publishes_pure none).post ?_
    rintro v _ db ⟨_, h, rfl⟩
    exact ⟨rfl, h⟩
  | release timeoutMinutes claim rest =>
    refine ((ClaimReleaseService.releaseClaim_spec claim.id).leaves.bindPublishes
      (g := fun changed => if changed then some (.releaseReload timeoutMinutes claim rest)
        else Point.nextRelease timeoutMinutes rest) fun changed => ?_).post ?_
    · cases changed with
      | true => exact publishes_pure _
      | false => exact publishes_pure _
    · rintro v _ db ⟨_, ⟨rfl, hdb⟩ | ⟨rfl, h⟩, rfl⟩
      · exact .inl ⟨hdb, rfl⟩
      · exact .inr ⟨rfl, h⟩
  | releaseReload timeoutMinutes claim rest =>
    refine ((leaves_announceRelease claim).bindPublishes fun _ => publishes_pure _).post ?_
    rintro v _ db ⟨_, hdb, rfl⟩
    exact ⟨hdb, rfl⟩
  | blockedTaskRead taskId blocksTaskId =>
    refine (requireTask_spec blocksTaskId).leavesThen.post ?_
    rintro v _ db ⟨existing, ⟨-, hdb⟩, rfl⟩
    exact ⟨hdb, rfl⟩
  | cycleCheck taskId blocksTaskId =>
    have hread : Spec DependencyRepository.findAll
        (fun v existing db => existing = v.db.dependencies.rows ∧ db = v.db) Unchanged :=
      Spec.query _
    refine (hread.thenLeaves fun existing => (Spec.raiseError _).leavesThen).post ?_
    rintro v _ db ⟨_, rfl, _, ⟨hcheck, hdb⟩, rfl⟩
    exact ⟨hdb, rfl, hcheck⟩
  | insertEdge taskId blocksTaskId existing =>
    refine (Spec.statement _ _ _).leavesThen.post ?_
    rintro v _ db ⟨_, ⟨hcheck, -, hdb⟩, rfl⟩
    exact ⟨rfl, hcheck, hdb⟩
  | insertTask input =>
    rw [Point.segment]
    rcases input.wsjf with _ | w
    · refine (createRow_spec input).leavesThen.post ?_
      rintro v _ db ⟨_, ⟨-, h⟩, rfl⟩
      exact ⟨h, .inr ⟨_, _, rfl⟩⟩
    · refine ((createScored_spec input w).leaves.bindPublishes fun task =>
        (publishes_announceTask (by simp) task).bind (publishes_pure none)).post ?_
      rintro v _ db ⟨_, h, rfl⟩
      exact ⟨h, .inl rfl⟩
  | deleteRow id =>
    refine (Spec.statement _ _ _).leavesThen.post ?_
    rintro v _ db ⟨_, ⟨-, -, hdb⟩, rfl⟩
    exact ⟨hdb, rfl⟩

/-! ## Steps of the whole -/

/-- One step of a process: it has the effect of its point, or it has thrown. -/
theorem Sys.step_cases {s : Sys} {p : Nat} {point : Point} (env : Env)
    (h : s.procs p = some point) :
    (∃ db' next, point.Effect env s.now s.db db' next ∧
      s.result point env = (.ok next, (s.result point env).2) ∧
      s.step (.step p env) = { s with db := db' }.setPoint p next) ∨
    s.step (.step p env) = s.setPoint p none := by
  have hidle := World.idle_start env s.db s.now
  have hstep : s.step (.step p env) = { s with db := (s.result point env).2.db }.setPoint p
      (Sys.nextPoint (s.result point env).1) := by
    simp only [Sys.step, h]
  rcases hr : s.result point env with ⟨e | next, w'⟩
  · right
    have hdb : w'.db = s.db := (leaves_segment point).error hidle hr
    rw [hstep, hr, Sys.nextPoint]
    simp only [hdb]
  · left
    refine ⟨w'.db, next, (leaves_segment point).ok hidle hr, rfl, ?_⟩
    rw [hstep, hr, Sys.nextPoint]

/-- The effect of a step whose segment ends normally. -/
theorem Sys.effect_of_ok {s : Sys} {p : Nat} {point : Point} {env : Env} {next : Option Point}
    (h : s.procs p = some point) (hok : (s.result point env).1 = .ok next) :
    point.Effect env s.now s.db (s.step (.step p env)).db next := by
  rcases hresult : s.result point env with ⟨r, w⟩
  rw [hresult] at hok
  subst hok
  have hdb : (s.step (.step p env)).db = w.db := by
    simp only [Sys.step, h, hresult, Sys.setPoint]
  rw [hdb]
  exact (leaves_segment point).ok (World.idle_start env s.db s.now) hresult

/-- A property of databases that every effect keeps is kept by every step. -/
theorem Sys.step_db {I : Db → Prop} {s : Sys} {a : Action}
    (hproject : ∀ name, I s.db → I (s.db.addProject name))
    (huser : ∀ id, I s.db → I { s.db with users := s.db.users ++ [id] })
    (heffect : ∀ p env point db' next, a = .step p env → s.procs p = some point →
      point.Effect env s.now s.db db' next → I s.db → I db')
    (h : I s.db) : I (s.step a).db := by
  cases a with
  | call p c =>
    rw [Sys.step]
    split
    · exact h
    · exact h
  | step p env =>
    rcases hpoint : s.procs p with _ | point
    · simpa only [Sys.step, hpoint] using h
    · rcases Sys.step_cases env hpoint with ⟨db', next, heff, -, hstep⟩ | hstep
      · rw [hstep]
        exact heffect p env point db' next rfl hpoint heff h
      · rw [hstep]
        exact h
  | crash p => exact h
  | wait ms => exact h
  | addProject name => exact hproject name h
  | addUser id => exact huser id h

/-! ## What the reads have established -/

/-- What the reads of a call have established for the point that it is at, whatever the others
    have written since. -/
def Point.Sound (now : Nat) : Point → Prop
  | .updateWrite existing _ input _ => checkTransition existing input = .ok ()
  | .release timeoutMinutes claim rest =>
    ∀ c ∈ claim :: rest, c.claimedAt.olderThan timeoutMinutes now = true
  | .releaseReload timeoutMinutes _ rest =>
    ∀ c ∈ rest, c.claimedAt.olderThan timeoutMinutes now = true
  | .insertEdge taskId blocksTaskId existing =>
    DependencyService.cycleCheck existing taskId blocksTaskId = .ok ()
  | _ => True

/-- Every process is at a point whose reads have been made. -/
def Sys.PointsSound (s : Sys) : Prop := ∀ p point, s.procs p = some point → point.Sound s.now

theorem Point.Sound.mono {now now' : Nat} {point : Point} (h : point.Sound now) (hle : now ≤ now') :
    point.Sound now' := by
  cases point with
  | release timeoutMinutes claim rest => exact fun c hc => Stamp.olderThan_mono (h c hc) hle
  | releaseReload timeoutMinutes claim rest => exact fun c hc => Stamp.olderThan_mono (h c hc) hle
  | updateWrite => exact h
  | insertEdge => exact h
  | _ => trivial

theorem Point.sound_nextRelease {now timeoutMinutes : Nat} {claims : List StaleClaim}
    (h : ∀ c ∈ claims, c.claimedAt.olderThan timeoutMinutes now = true) {point : Point}
    (hnext : nextRelease timeoutMinutes claims = some point) : point.Sound now := by
  cases claims with
  | nil => cases hnext
  | cons claim rest =>
    obtain rfl := Option.some.inj hnext
    exact h

/-- The point that a segment ends at is sound. -/
theorem Point.Effect.sound {env : Env} {now : Nat} {db db' : Db} {point point' : Point}
    (h : point.Effect env now db db' (some point')) (hs : point.Sound now) : point'.Sound now := by
  cases point with
  | start call =>
    cases call with
    | claimTask =>
      obtain ⟨-, path, hnext⟩ := h
      obtain rfl := Option.some.inj hnext
      trivial
    | updateTask =>
      obtain ⟨-, row, -, hnext, -, htransition⟩ := h
      obtain rfl := Option.some.inj hnext
      exact htransition
    | sweep =>
      obtain ⟨-, claims, hnext, hold⟩ := h
      exact Point.sound_nextRelease hold hnext.symm
    | addDependency =>
      obtain rfl := Option.some.inj h.2
      trivial
    | removeDependency => cases h.2
    | createTask =>
      obtain rfl := Option.some.inj h.2.1
      trivial
    | deleteTask =>
      obtain rfl := Option.some.inj h.2
      trivial
  | claimUpdate path =>
    cases path with
    | fresh => cases h.1
    | renewal =>
      obtain rfl := Option.some.inj h.1
      trivial
  | renewReload => cases h.2
  | updateWrite existing id input source =>
    obtain ⟨-, written, hnext⟩ := h
    obtain rfl := Option.some.inj hnext
    unfold afterWrite
    split <;> trivial
  | sizeRead =>
    obtain ⟨-, existing, hnext⟩ := h
    obtain rfl := Option.some.inj hnext
    trivial
  | sizeWrite =>
    rcases h.2 with hnext | ⟨_, _, _, _, -, hnext⟩
    · cases hnext
    · obtain rfl := Option.some.inj hnext
      trivial
  | announce => cases h.1
  | release timeoutMinutes claim rest =>
    have hrest : ∀ c ∈ rest, c.claimedAt.olderThan timeoutMinutes now = true := fun c hc =>
      hs c (List.mem_cons_of_mem claim hc)
    rcases h with ⟨-, hnext⟩ | ⟨hnext, -⟩
    · exact Point.sound_nextRelease hrest hnext.symm
    · obtain rfl := Option.some.inj hnext
      exact hrest
  | releaseReload => exact Point.sound_nextRelease hs h.2.symm
  | blockedTaskRead =>
    obtain rfl := Option.some.inj h.2
    trivial
  | cycleCheck =>
    obtain rfl := Option.some.inj h.2.1
    exact h.2.2
  | insertEdge => cases h.1
  | insertTask =>
    rcases h.2 with hnext | ⟨_, _, hnext⟩
    · cases hnext
    · obtain rfl := Option.some.inj hnext
      trivial
  | deleteRow => cases h.2

theorem Sys.pointsSound_quiet (db : Db) (now : Nat) : (Sys.quiet db now).PointsSound :=
  fun _ _ h => nomatch h

/-- A property of the points of all processes, relative to the clock and the database: it holds
    after a step if it holds of the first point of a call, if it is stable under the step, and
    if every effect establishes it for the point that it ends at. -/
theorem Sys.step_points {P : Nat → Db → Point → Prop} {s : Sys} {a : Action}
    (h : ∀ q point, s.procs q = some point → P s.now s.db point)
    (hcall : ∀ p c, a = .call p c → P s.now s.db (.start c))
    (hstable : ∀ point, P s.now s.db point → P (s.step a).now (s.step a).db point)
    (hnext : ∀ p env point db' next, a = .step p env → s.procs p = some point →
      point.Effect env s.now s.db db' (some next) → P s.now s.db point → P s.now db' next) :
    ∀ q point, (s.step a).procs q = some point → P (s.step a).now (s.step a).db point := by
  have hset : ∀ {t : Sys} {p : Nat} {new : Option Point}, t.procs = s.procs →
      (∀ point, new = some point → P (s.step a).now (s.step a).db point) →
      ∀ q point, (t.setPoint p new).procs q = some point →
        P (s.step a).now (s.step a).db point := by
    intro t p new ht hnew q point hq
    simp only [Sys.setPoint] at hq
    by_cases hqp : q = p
    · subst hqp
      rw [Function.update_self] at hq
      exact hnew point hq
    · rw [Function.update_of_ne hqp, ht] at hq
      exact hstable point (h q point hq)
  cases a with
  | call p c =>
    intro q point hq
    rw [Sys.step] at hq
    split at hq
    · refine hset rfl (fun new hnew => ?_) q point hq
      obtain rfl := Option.some.inj hnew
      exact hstable _ (hcall p c rfl)
    · exact hstable point (h q point hq)
  | step p env =>
    rcases hpoint : s.procs p with _ | point
    · intro q point hq
      simp only [Sys.step, hpoint] at hq
      exact hstable point (h q point hq)
    · rcases Sys.step_cases env hpoint with ⟨db', next, heffect, -, hstep⟩ | hstep
      · have hdb : (s.step (.step p env)).now = s.now ∧ (s.step (.step p env)).db = db' := by
          rw [hstep]
          exact ⟨rfl, rfl⟩
        intro q point' hq
        rw [hstep] at hq
        refine hset (t := { s with db := db' }) rfl (fun new hnew => ?_) q point' hq
        subst hnew
        rw [hdb.1, hdb.2]
        exact hnext p env point db' new rfl hpoint heffect (h p point hpoint)
      · intro q point' hq
        rw [hstep] at hq
        refine hset rfl (fun new hnew => ?_) q point' hq
        cases hnew
  | crash p => exact hset rfl fun new hnew => nomatch hnew
  | wait ms => exact fun q point hq => hstable point (h q point hq)
  | addProject name => exact fun q point hq => hstable point (h q point hq)
  | addUser id => exact fun q point hq => hstable point (h q point hq)

theorem Sys.now_le_step (s : Sys) (a : Action) : s.now ≤ (s.step a).now := by
  cases a with
  | call p c =>
    rw [Sys.step]
    split <;> exact le_rfl
  | step p env =>
    rw [Sys.step]
    split <;> exact le_rfl
  | wait ms => exact Nat.le_add_right _ _
  | _ => exact le_rfl

/-- Soundness of the points is kept by every step. -/
theorem Sys.PointsSound.step {s : Sys} (h : s.PointsSound) (a : Action) :
    (s.step a).PointsSound :=
  Sys.step_points (P := fun now _ point => point.Sound now) h (fun _ _ _ => trivial)
    (fun _ hs => hs.mono (s.now_le_step a)) fun _ _ _ _ _ _ _ heffect hs => heffect.sound hs

end WoodFiredTasks
