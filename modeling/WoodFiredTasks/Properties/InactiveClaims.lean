import Mathlib.Data.List.Induction
import WoodFiredTasks.Services.CommentService
import WoodFiredTasks.TaskChanges

set_option autoImplicit false

/-! # What the sweep takes for inactivity

The sweep reads the last activity on a claim off the columns `claimed_at` and `updated_at`. Claims,
renewals and updates write these; a comment writes its own row only. So the sweep releases exactly
the claims without activity as long as no claim is kept alive by comments alone. -/

namespace WoodFiredTasks

open TaskService

/-! ## Histories -/

/-- The service, its comments, and when a task was created, claimed, renewed or updated. -/
structure Desk where
  sys : Sys
  comments : Comments
  /-- A task and the time, in milliseconds. -/
  activity : List (Nat × Nat)

inductive DeskAction where
  | service (a : Action)
  | comment (input : CreateCommentInput)

/-- The task that is claimed, renewed or updated from the point. -/
def Point.worksOn : Point → Option Nat
  | .claimUpdate _ taskId _ _ _ => some taskId
  | .updateWrite _ id _ _ => some id
  | _ => none

def Point.isRelease : Point → Bool
  | .release .. => true
  | _ => false

/-- The segment ends normally. -/
def Sys.endsOk (s : Sys) (point : Point) (env : Env) : Bool :=
  match s.result point env with
  | (.ok _, _) => true
  | (.error _, _) => false

/-- The tasks that a step claims, renews or updates, or whose rows it writes otherwise (the rows of
    a cascade, the size of a row, a new row). What the sweep writes is not activity. -/
def Sys.workedOn (s : Sys) : Action → List Nat
  | .step p env =>
    match s.procs p with
    | none => []
    | some point =>
      let db' := (s.step (.step p env)).db
      if point.isRelease then []
      else (db'.tasks.rows.map (·.id)).filter fun t =>
        (point.worksOn == some t && s.endsOk point env) || db'.tasks.find? t != s.db.tasks.find? t
  | _ => []

/-- One step of a history. -/
def Desk.step (d : Desk) : DeskAction → Desk
  | .service a =>
    { sys := d.sys.step a
      comments := d.comments.ofTasks (d.sys.step a).db
      activity := d.activity ++ (d.sys.workedOn a).map fun t => (t, d.sys.now) }
  | .comment input =>
    match CommentService.addComment d.sys.db d.sys.now input d.comments with
    | .ok comments => { d with comments := comments }
    | .error _ => d

/-- Nothing has happened yet. -/
def Desk.quiet (now : Nat) : Desk := ⟨Sys.quiet .empty now, .empty, []⟩

/-! ## Activity -/

/-- Within the last `timeoutMinutes`, by whole seconds. -/
def Recent (timeoutMinutes now ms : Nat) : Prop := now / 1000 < ms / 1000 + 60 * timeoutMinutes

section Activity

variable (d : Desk) (timeoutMinutes t : Nat)

/-- The task was claimed, renewed or updated within the timeout. -/
def Desk.Worked : Prop := ∃ ms, (t, ms) ∈ d.activity ∧ Recent timeoutMinutes d.sys.now ms

/-- The task was commented on within the timeout. -/
def Desk.Commented : Prop :=
  ∃ c ∈ d.comments.rows, c.taskId = t ∧ ∃ ms, c.createdAt = .iso ms ∧
    Recent timeoutMinutes d.sys.now ms

end Activity

/-- The row is in progress with a claim. -/
def Task.Claimed (row : Task) : Prop :=
  row.status = .inProgress ∧ row.assignee ≠ none ∧ row.claimedAt ≠ none

instance : DecidablePred Task.Claimed := fun row =>
  inferInstanceAs (Decidable (row.status = .inProgress ∧ row.assignee ≠ none ∧ row.claimedAt ≠ none))

/-- The database after a sweep. -/
def Desk.swept (d : Desk) (timeoutMinutes : Nat) (env : Env) : Db :=
  ((ClaimReleaseService.sweep WorkflowEngine.engine timeoutMinutes).run
    (World.start env d.sys.db d.sys.now)).2.db

open Classical in
/-- A sweep now, with a database that does not fail, releases exactly the claims without activity
    and changes no other task. -/
def Desk.SweepsInactive (d : Desk) (timeoutMinutes : Nat) : Prop :=
  ∀ env : Env, (∀ n, env.faults n = none) → ∀ t,
    (d.swept timeoutMinutes env).tasks.find? t = (d.sys.db.tasks.find? t).map fun row =>
      if row.Claimed ∧ ¬ (d.Worked timeoutMinutes t ∨ d.Commented timeoutMinutes t) then
        row.release d.sys.now
      else row

/-- No claim is kept alive by comments alone. -/
def Desk.CommentsWithWork (d : Desk) (timeoutMinutes : Nat) : Prop :=
  ∀ t row, d.sys.db.tasks.find? t = some row → row.Claimed →
    d.Commented timeoutMinutes t → d.Worked timeoutMinutes t

/-! ## What a step does to the stamps of a row -/

/-- A row after a write at `now`, and what was there before it. Only the sweep takes a claim away;
    where there is one, the write is a claim, a renewal or an update. -/
structure Task.StampedBy (now : Nat) (release : Bool) (before : Option Task) (row : Task) :
    Prop where
  updated : row.updatedAt.second = now / 1000
  claimed : row.claimedAt = none ∨ release = false ∧ row.updatedAt = datetimeNow now ∧
    (row.claimedAt = some (datetimeNow now) ∨
      ∃ old, before = some old ∧ row.claimedAt = old.claimedAt)

section Stamps

variable {env : Env} {now : Nat} {db db' : Db} {point : Point} {t : Nat} {row : Task}

/-- A write of one row that sets `updated_at` and leaves the claim alone. -/
theorem Task.StampedBy.of_update {old : Task} (hupdated : row.updatedAt = datetimeNow now)
    (hclaimed : row.claimedAt = old.claimedAt) : row.StampedBy now false (some old) :=
  ⟨by rw [hupdated]; rfl, .inr ⟨rfl, hupdated, .inr ⟨old, rfl, hclaimed⟩⟩⟩

theorem Db.stamped_writeTask {release : Bool} {id : Nat} {f : Task → Task}
    {hf : ∀ t, (f t).id = t.id} (hstamped : ∀ old, (f old).StampedBy now release (some old))
    (hne : (db.writeTask id f hf).tasks.find? t ≠ db.tasks.find? t)
    (hrow : (db.writeTask id f hf).tasks.find? t = some row) :
    row.StampedBy now release (db.tasks.find? t) := by
  rw [Db.find?_writeTask] at hne hrow
  obtain ⟨old, hold, rfl⟩ := Option.map_eq_some_iff.1 hrow
  rw [hold] at hne ⊢
  by_cases hid : t = id
  · rw [if_pos hid]
    exact hstamped old
  · exact absurd (by simp [hid]) hne

/-- A cascade stamps what it writes. -/
theorem Db.stamped_cascade {n id : Nat} {parentTaskId : Option Nat}
    (hne : (cascade env now n db id parentTaskId).tasks.find? t ≠ db.tasks.find? t)
    (hrow : (cascade env now n db id parentTaskId).tasks.find? t = some row) :
    row.StampedBy now false (db.tasks.find? t) := by
  have hstamped : (cascade env now n db id parentTaskId).tasks.find? t = db.tasks.find? t ∨
      ∀ row, (cascade env now n db id parentTaskId).tasks.find? t = some row →
        row.StampedBy now false (db.tasks.find? t) := by
    refine cascade_induction (I := fun db' => db'.tasks.find? t = db.tasks.find? t ∨
      ∀ row, db'.tasks.find? t = some row → row.StampedBy now false (db.tasks.find? t))
      (fun db' i old s h _ _ => ?_) (.inl rfl)
    by_cases hid : t = i
    · right
      intro row hrow
      rw [Db.find?_setStatus, Option.map_eq_some_iff] at hrow
      obtain ⟨before, hbefore, rfl⟩ := hrow
      rw [if_pos hid]
      rcases h with hsame | hwritten
      · rw [← hsame, hbefore]
        exact .of_update rfl rfl
      · -- the row was written before in this cascade
        refine ⟨rfl, ?_⟩
        rcases (hwritten before hbefore).claimed with hnone | ⟨-, -, hclaimed⟩
        · exact .inl hnone
        · exact .inr ⟨rfl, rfl, hclaimed⟩
    · rw [Db.find?_setStatus]
      simpa [hid] using h
  exact hstamped.resolve_left hne row hrow

/-- Every step that writes a row stamps it. -/
theorem Point.TaskChange.stamped (h : point.TaskChange env now db db')
    (hne : db'.tasks.find? t ≠ db.tasks.find? t) (hrow : db'.tasks.find? t = some row) :
    row.StampedBy now point.isRelease (db.tasks.find? t) := by
  cases h with
  | same h =>
    rw [h.tasks] at hne
    exact absurd rfl hne
  | claim =>
    exact Db.stamped_writeTask (fun old => ⟨rfl, .inr ⟨rfl, rfl, .inl rfl⟩⟩) hne hrow
  | renew =>
    exact Db.stamped_writeTask (fun old => ⟨rfl, .inr ⟨rfl, rfl, .inl rfl⟩⟩) hne hrow
  | update _ _ h =>
    rw [h.tasks, Db.applyUpdate] at hne hrow
    refine Db.stamped_writeTask (fun old => ?_) hne hrow
    exact .of_update rfl rfl
  | resize h =>
    rw [h.tasks] at hne hrow
    refine Db.stamped_writeTask (fun old => ?_) hne hrow
    exact .of_update rfl rfl
  | release => exact Db.stamped_writeTask (fun old => ⟨rfl, .inl rfl⟩) hne hrow
  | cascade => exact Db.stamped_cascade hne hrow
  | insert _ h =>
    rw [h.tasks, Db.find?_insertTask] at hne hrow
    split at hrow
    · obtain rfl := Option.some.inj hrow
      exact ⟨rfl, .inl rfl⟩
    · rename_i hid
      rw [if_neg hid] at hne
      exact absurd rfl hne
  | delete => exact absurd (hrow.trans (Db.find?_deleteTask hrow).1.symm) hne

/-- A claim, a renewal or an update that ends normally has stamped its row. -/
theorem Point.Effect.worked {next : Option Point} (h : point.Effect env now db db' next)
    (hpoint : point.worksOn = some t) :
    ∃ row, db'.tasks.find? t = some row ∧ row.updatedAt = datetimeNow now := by
  cases point with
  | claimUpdate path taskId =>
    obtain rfl := Option.some.inj hpoint
    cases path with
    | fresh =>
      obtain ⟨-, row, hrow, -, -, rfl⟩ := h
      exact ⟨_, by rw [Db.find?_writeTask_self, hrow]; rfl, rfl⟩
    | renewal =>
      obtain ⟨-, row, hrow, -, -, rfl⟩ := h
      exact ⟨_, by rw [Db.find?_writeTask_self, hrow]; rfl, rfl⟩
  | updateWrite existing id =>
    obtain rfl := Option.some.inj hpoint
    obtain ⟨⟨row, hrow, -, hsame, -⟩, -⟩ := h
    exact ⟨_, by rw [hsame.tasks, Db.applyUpdate, Db.find?_writeTask_self, hrow]; rfl, rfl⟩
  | _ => cases hpoint

end Stamps

/-! ## The stamps follow the activity -/

/-- The stamp of a row is at least as late as the activity on its task, and that of a claimed row
    is the last activity. -/
structure Desk.Tracked (d : Desk) : Prop where
  past : ∀ t ms, (t, ms) ∈ d.activity → ms ≤ d.sys.now
  updated : ∀ t ms row, (t, ms) ∈ d.activity → d.sys.db.tasks.find? t = some row →
    ms / 1000 ≤ row.updatedAt.second
  claimed : ∀ t row claimedAt, d.sys.db.tasks.find? t = some row → row.claimedAt = some claimedAt →
    ∃ ms sec, (t, ms) ∈ d.activity ∧ row.updatedAt = .sqlite (ms / 1000) ∧
      claimedAt = .sqlite sec ∧ sec ≤ ms / 1000

theorem Desk.tracked_quiet (now : Nat) : (Desk.quiet now).Tracked where
  past _ _ h := nomatch h
  updated _ _ _ h := nomatch h
  claimed _ _ _ h := nomatch h

section Tracked

variable {d : Desk}

/-- A step that stamps what it writes, and logs the activity in it. -/
theorem Desk.Tracked.of_stamped (h : d.Tracked) {sys : Sys} {comments : Comments} {new : List Nat}
    (release : Bool) (hnow : d.sys.now ≤ sys.now)
    (hnew : ∀ t ∈ new, ∀ row, sys.db.tasks.find? t = some row →
      row.updatedAt.second = d.sys.now / 1000)
    (hrows : ∀ t row, sys.db.tasks.find? t ≠ d.sys.db.tasks.find? t →
      sys.db.tasks.find? t = some row →
        row.StampedBy d.sys.now release (d.sys.db.tasks.find? t) ∧ (release = false → t ∈ new)) :
    (Desk.mk sys comments (d.activity ++ new.map fun t => (t, d.sys.now))).Tracked where
  past := by
    intro t ms hmem
    rcases List.mem_append.1 hmem with hold | hadded
    · exact (h.past t ms hold).trans hnow
    · obtain ⟨i, -, hi⟩ := List.mem_map.1 hadded
      cases hi
      exact hnow
  updated := by
    intro t ms row hmem hrow
    rcases List.mem_append.1 hmem with hold | hadded
    · by_cases hsame : sys.db.tasks.find? t = d.sys.db.tasks.find? t
      · exact h.updated t ms row hold (hsame ▸ hrow)
      · rw [(hrows t row hsame hrow).1.updated]
        exact Nat.div_le_div_right (h.past t ms hold)
    · obtain ⟨i, hi, heq⟩ := List.mem_map.1 hadded
      cases heq
      exact (hnew t hi row hrow).ge
  claimed := by
    intro t row claimedAt hrow hclaimed
    by_cases hsame : sys.db.tasks.find? t = d.sys.db.tasks.find? t
    · obtain ⟨ms, sec, hmem, hstamps⟩ := h.claimed t row claimedAt (hsame ▸ hrow) hclaimed
      exact ⟨ms, sec, List.mem_append_left _ hmem, hstamps⟩
    · obtain ⟨hstamped, hlogged⟩ := hrows t row hsame hrow
      rcases hstamped.claimed with hnone | ⟨hrelease, hupdated, hclaim⟩
      · cases hnone.symm.trans hclaimed
      · have hmem : (t, d.sys.now) ∈ d.activity ++ new.map fun t => (t, d.sys.now) :=
          List.mem_append_right _ (List.mem_map.2 ⟨t, hlogged hrelease, rfl⟩)
        rcases hclaim with hfresh | ⟨old, hold, hkept⟩
        · cases hfresh.symm.trans hclaimed
          exact ⟨d.sys.now, _, hmem, hupdated, rfl, le_rfl⟩
        · -- the claim is older than this write
          obtain ⟨ms, sec, hbefore, -, hsec, hle⟩ :=
            h.claimed t old claimedAt hold (hkept ▸ hclaimed)
          exact ⟨d.sys.now, sec, hmem, hupdated, hsec,
            hle.trans (Nat.div_le_div_right (h.past t ms hbefore))⟩

/-- A step that writes no task. -/
theorem Desk.Tracked.of_tasks (h : d.Tracked) {sys : Sys} {comments : Comments}
    (hnow : d.sys.now ≤ sys.now) (htasks : sys.db.tasks = d.sys.db.tasks) :
    (Desk.mk sys comments d.activity).Tracked where
  past t ms hmem := (h.past t ms hmem).trans hnow
  updated t ms row hmem hrow := h.updated t ms row hmem (htasks ▸ hrow)
  claimed t row claimedAt hrow := h.claimed t row claimedAt (htasks ▸ hrow)

/-- A step of the service keeps track. -/
theorem Desk.Tracked.segment (h : d.Tracked) (p : Nat) (env : Env) :
    (d.step (.service (.step p env))).Tracked := by
  have hnow : (d.sys.step (.step p env)).now = d.sys.now := by
    rw [Sys.step]
    split <;> rfl
  rcases hpoint : d.sys.procs p with _ | point
  · have hstep : d.sys.step (.step p env) = d.sys := by simp only [Sys.step, hpoint]
    simp only [Desk.step, hstep, Sys.workedOn, hpoint, List.map_nil, List.append_nil]
    exact h.of_tasks le_rfl rfl
  · have hlogged : ∀ t row, (d.sys.step (.step p env)).db.tasks.find? t ≠
        d.sys.db.tasks.find? t → (d.sys.step (.step p env)).db.tasks.find? t = some row →
        point.isRelease = false → t ∈ d.sys.workedOn (.step p env) := by
      intro t row hne hrow hrelease
      obtain ⟨hmem, rfl⟩ := Table.find?_eq_some.1 hrow
      simp only [Sys.workedOn, hpoint, hrelease, Bool.false_eq_true, if_false, List.mem_filter,
        List.mem_map, Bool.or_eq_true, bne_iff_ne]
      exact ⟨⟨row, hmem, rfl⟩, .inr hne⟩
    rcases hresult : d.sys.result point env with ⟨e | next, w'⟩
    · -- what throws has written nothing
      have hdb : (d.sys.step (.step p env)).db = d.sys.db := by
        have hw : w'.db = d.sys.db :=
          (leaves_segment point).error (World.idle_start env d.sys.db d.sys.now) hresult
        simp only [Sys.step, hpoint, hresult]
        exact hw
      have hnone : d.sys.workedOn (.step p env) = [] := by
        simp [Sys.workedOn, hpoint, Sys.endsOk, hresult, hdb]
      simp only [Desk.step, hnone, List.map_nil, List.append_nil]
      exact h.of_tasks hnow.ge (congrArg Db.tasks hdb)
    · have heffect := Sys.effect_of_ok hpoint (congrArg Prod.fst hresult)
      refine h.of_stamped point.isRelease hnow.ge ?_ fun t row hne hrow =>
        ⟨heffect.taskChange.stamped hne hrow, hlogged t row hne hrow⟩
      intro t ht row hrow
      by_cases hsame : (d.sys.step (.step p env)).db.tasks.find? t = d.sys.db.tasks.find? t
      · simp only [Sys.workedOn, hpoint] at ht
        split at ht
        · cases ht
        · simp only [List.mem_filter, hsame, bne_self_eq_false, Bool.or_false, Bool.and_eq_true,
            beq_iff_eq] at ht
          obtain ⟨row', hrow', hstamp⟩ := heffect.worked ht.2.1
          cases hrow'.symm.trans hrow
          rw [hstamp]
          rfl
      · exact (heffect.taskChange.stamped hsame hrow).updated

theorem Desk.Tracked.step (h : d.Tracked) (a : DeskAction) : (d.step a).Tracked := by
  cases a with
  | service a =>
    cases a with
    | step p env => exact h.segment p env
    | call p c =>
      have htasks : (d.sys.step (.call p c)).db = d.sys.db ∧
          (d.sys.step (.call p c)).now = d.sys.now := by
        rw [Sys.step]
        split <;> exact ⟨rfl, rfl⟩
      simp only [Desk.step, Sys.workedOn, List.map_nil, List.append_nil]
      exact h.of_tasks htasks.2.ge (congrArg Db.tasks htasks.1)
    | crash p =>
      simp only [Desk.step, Sys.workedOn, List.map_nil, List.append_nil]
      exact h.of_tasks le_rfl rfl
    | wait ms =>
      simp only [Desk.step, Sys.workedOn, List.map_nil, List.append_nil]
      exact h.of_tasks (Nat.le_add_right _ _) rfl
    | addProject name =>
      simp only [Desk.step, Sys.workedOn, List.map_nil, List.append_nil]
      exact h.of_tasks le_rfl rfl
    | addUser id =>
      simp only [Desk.step, Sys.workedOn, List.map_nil, List.append_nil]
      exact h.of_tasks le_rfl rfl
  | comment input =>
    rw [Desk.step]
    split
    · exact h.of_tasks le_rfl rfl
    · exact h

/-- In every history the stamps follow the activity. -/
theorem Desk.tracked_run (now : Nat) (actions : List DeskAction) :
    (actions.foldl Desk.step (.quiet now)).Tracked := by
  induction actions using List.reverseRecOn with
  | nil => exact Desk.tracked_quiet now
  | append_singleton rest a ih =>
    rw [List.foldl_append]
    exact ih.step a

end Tracked

/-! ## The run of a sweep -/

section Stale

variable {row : Task} {timeoutMinutes now : Nat} {claim : StaleClaim}

theorem Task.staleClaim_eq_some : row.staleClaim timeoutMinutes now = some claim ↔
    ∃ assignee claimedAt, row.assignee = some assignee ∧ row.claimedAt = some claimedAt ∧
      (row.status = .inProgress ∧ claimedAt.olderThan timeoutMinutes now = true ∧
        row.updatedAt.olderThan timeoutMinutes now = true) ∧
      claim = ⟨row.id, assignee, claimedAt⟩ := by
  unfold Task.staleClaim
  constructor
  · intro h
    split at h
    · rename_i assignee claimedAt hassignee hclaimed
      split at h
      · rename_i hstale
        exact ⟨assignee, claimedAt, hassignee, hclaimed, hstale, (Option.some.inj h).symm⟩
      · cases h
    · cases h
  · rintro ⟨assignee, claimedAt, hassignee, hclaimed, hstale, rfl⟩
    rw [hassignee, hclaimed]
    simp [hstale]

theorem Task.staleClaim_id (h : row.staleClaim timeoutMinutes now = some claim) :
    claim.id = row.id := by
  obtain ⟨_, _, -, -, -, rfl⟩ := Task.staleClaim_eq_some.1 h
  rfl

theorem Task.releasable_of_staleClaim (h : row.staleClaim timeoutMinutes now = some claim) :
    row.releasable = true := by
  obtain ⟨assignee, _, hassignee, -, ⟨hstatus, -⟩, -⟩ := Task.staleClaim_eq_some.1 h
  simp [Task.releasable, hassignee, hstatus]

end Stale

namespace ClaimReleaseService

/-- A release of a row that is held and in progress, if no statement throws. -/
theorem releaseClaim_run {w : World} (hfaults : ∀ n, w.env.faults n = none) {id : Nat} {row : Task}
    (hrow : w.db.tasks.find? id = some row) (hrelease : row.releasable = true) :
    ∃ w', (releaseClaim id).run w = (.ok true, w') ∧ w'.env = w.env ∧ w'.now = w.now ∧
      w'.db = w.db.writeTask id (Task.release w.now) (Task.release_id w.now) := by
  have hsucceeds : Succeeds (fun _ => True) (releaseClaim id) :=
    TaskRepository.updateWhere_succeeds fun _ _ => rfl
  obtain ⟨changed, w', hr, henv⟩ := hsucceeds w hfaults trivial
  obtain ⟨hw', hchanged, hdb⟩ := (TaskRepository.updateWhere_spec id _ _ _ _).ok hr
  have htrue : changed = true := by
    rw [hchanged]
    show (w.db.tasks.find? id).any _ = true
    rw [hrow, Option.any_some]
    exact hrelease
  subst htrue
  refine ⟨w', hr, henv, ?_, hdb⟩
  rw [hw']

/-- A program that ends normally and leaves the view alone. -/
def KeepsView (p : M Unit) : Prop := ∀ w, ∃ w', p.run w = (.ok (), w') ∧ w'.view = w.view

theorem keepsView_emit {event : BusEvent} (he : event.eventType ≠ .taskStatusChanged) :
    KeepsView (emit WorkflowEngine.engine event) := by
  intro w
  refine ⟨_, WorkflowEngine.run_emit_engine event w, ?_⟩
  rw [WorkflowEngine.engine_other he]
  exact World.view_publish event w

theorem KeepsView.then {p q : M Unit} (hp : KeepsView p) (hq : KeepsView q) :
    KeepsView (p >>= fun _ => q) := by
  intro w
  obtain ⟨w₁, hr₁, hview₁⟩ := hp w
  obtain ⟨w₂, hr₂, hview₂⟩ := hq w₁
  exact ⟨w₂, by rw [Prog.run_bind_ok hr₁, hr₂], hview₂.trans hview₁⟩

/-- The events of a release leave everything else alone. -/
theorem announceRelease_run {w : World} (hfaults : ∀ n, w.env.faults n = none)
    (claim : StaleClaim) : ∃ w', (announceRelease WorkflowEngine.engine claim).run w =
      (.ok (), w') ∧ w'.view = w.view := by
  have hquery : Succeeds (fun _ => True) (query fun db => db.tasks.find? claim.id) := .query _
  obtain ⟨row, w₁, hr, -⟩ := hquery w hfaults trivial
  obtain ⟨hw₁, -, hdb⟩ := (Spec.query fun db => db.tasks.find? claim.id).ok hr
  have hview : w₁.view = w.view := by
    rw [hw₁]
    show { w.view with db := w₁.db } = w.view
    rw [hdb]
  rw [announceRelease, Prog.run_bind_ok hr, Prog.run_bind, Prog.run_gets]
  cases row with
  | none => exact ⟨w₁, rfl, hview⟩
  | some row =>
    rw [← hview]
    exact (keepsView_emit (by simp)).then (keepsView_emit (by simp)) w₁

/-- The loop releases the rows of its claims, if they are all there to be released. -/
theorem sweepAll_run (claims : List StaleClaim) {w : World} (hfaults : ∀ n, w.env.faults n = none)
    (hdistinct : (claims.map (·.id)).Nodup)
    (hrows : ∀ c ∈ claims, ∃ row, w.db.tasks.find? c.id = some row ∧ row.releasable = true) :
    ∃ n w', (sweepAll WorkflowEngine.engine claims).run w = (.ok n, w') ∧
      ∀ t, w'.db.tasks.find? t = (w.db.tasks.find? t).map fun row =>
        if t ∈ claims.map (·.id) then row.release w.now else row := by
  induction claims generalizing w with
  | nil => exact ⟨0, w, rfl, fun t => by simp⟩
  | cons claim rest ih =>
    obtain ⟨row, hrow, hrelease⟩ := hrows claim List.mem_cons_self
    obtain ⟨hfirst, hrest⟩ := List.nodup_cons.1 hdistinct
    obtain ⟨w₁, hr₁, henv₁, hnow₁, hdb₁⟩ := releaseClaim_run hfaults hrow hrelease
    obtain ⟨w₂, hr₂, hview₂⟩ := announceRelease_run (henv₁ ▸ hfaults) claim
    have henv₂ : w₂.env = w.env := (congrArg View.env hview₂).trans henv₁
    have hnow₂ : w₂.now = w.now := (congrArg View.now hview₂).trans hnow₁
    have hdb₂ : w₂.db = w.db.writeTask claim.id (Task.release w.now) (Task.release_id w.now) :=
      (congrArg View.db hview₂).trans hdb₁
    -- the other rows are as they were
    have hothers : ∀ c ∈ rest, ∃ row, w₂.db.tasks.find? c.id = some row ∧ row.releasable = true := by
      intro c hc
      have hne : c.id ≠ claim.id := fun h => hfirst (List.mem_map.2 ⟨c, hc, h⟩)
      rw [hdb₂, Db.find?_writeTask_ne hne]
      exact hrows c (List.mem_cons_of_mem _ hc)
    obtain ⟨n, w₃, hr₃, hfind⟩ := ih (henv₂ ▸ hfaults) hrest hothers
    refine ⟨1 + n, w₃, ?_, fun t => ?_⟩
    · have hone : (sweepOne WorkflowEngine.engine claim).run w = (.ok 1, w₂) := by
        rw [sweepOne, Prog.run_bind_ok hr₁, if_pos rfl, Prog.run_bind_ok hr₂]
        rfl
      rw [sweepAll, Prog.run_bind_ok hone, Prog.run_bind_ok hr₃]
      rfl
    · rw [hfind t, hdb₂, Db.find?_writeTask, hnow₂]
      cases hold : w.db.tasks.find? t with
      | none => rfl
      | some old =>
        by_cases hid : t = claim.id
        · have hnot : t ∉ rest.map (·.id) := hid ▸ hfirst
          have hmem : t ∈ (claim :: rest).map (·.id) := by simp [hid]
          simp only [Option.map_some, if_pos hid, if_neg hnot, if_pos hmem]
        · simp [hid]

/-- A sweep with a database that does not fail releases the rows that it reads as stale. -/
theorem sweep_run {w : World} (hfaults : ∀ n, w.env.faults n = none) (timeoutMinutes : Nat) :
    ∃ n w', (sweep WorkflowEngine.engine timeoutMinutes).run w = (.ok n, w') ∧
      ∀ t, w'.db.tasks.find? t = (w.db.tasks.find? t).map fun row =>
        if (row.staleClaim timeoutMinutes w.now).isSome = true then row.release w.now else row := by
  let claims := (w.env.scan w.db.tasks.rows).filterMap (Task.staleClaim timeoutMinutes w.now)
  have hread : (findStaleClaims timeoutMinutes).run w =
      (.ok claims, { w with calls := w.calls + 1 }) := by
    have hcall : call.run w = (.ok (), { w with calls := w.calls + 1 }) := by
      rw [Prog.run, call, hfaults]
    rw [findStaleClaims, Prog.run_bind_ok hcall, Prog.run_gets]
  -- the id of a claim is that of its row
  have hmem : ∀ c, c ∈ claims ↔ ∃ row, w.db.tasks.find? c.id = some row ∧
      row.staleClaim timeoutMinutes w.now = some c := by
    intro c
    simp only [claims, List.mem_filterMap, (w.env.scan_perm _).mem_iff]
    constructor
    · rintro ⟨row, hrow, hstale⟩
      exact ⟨row, Table.find?_eq_some.2 ⟨hrow, (Task.staleClaim_id hstale).symm⟩, hstale⟩
    · rintro ⟨row, hrow, hstale⟩
      exact ⟨row, (Table.find?_eq_some.1 hrow).1, hstale⟩
  have hdistinct : (claims.map (·.id)).Nodup := by
    have hscan : ((w.env.scan w.db.tasks.rows).map (·.id)).Nodup :=
      ((w.env.scan_perm _).map _).nodup_iff.2 w.db.tasks.nodup
    rw [List.Nodup, List.pairwise_map] at hscan ⊢
    refine List.pairwise_filterMap.2 (hscan.imp fun hne c hc c' hc' => ?_)
    rw [Task.staleClaim_id hc, Task.staleClaim_id hc']
    exact hne
  have hrows : ∀ c ∈ claims, ∃ row, w.db.tasks.find? c.id = some row ∧ row.releasable = true := by
    intro c hc
    obtain ⟨row, hrow, hstale⟩ := (hmem c).1 hc
    exact ⟨row, hrow, Task.releasable_of_staleClaim hstale⟩
  obtain ⟨n, w', hr, hfind⟩ := sweepAll_run claims (w := { w with calls := w.calls + 1 }) hfaults
    hdistinct hrows
  refine ⟨n, w', by rw [sweep, Prog.run_bind_ok hread, hr], fun t => ?_⟩
  rw [hfind t]
  cases hrow : w.db.tasks.find? t with
  | none => rfl
  | some row =>
    have hiff : t ∈ claims.map (·.id) ↔ (row.staleClaim timeoutMinutes w.now).isSome = true := by
      rw [List.mem_map, Option.isSome_iff_exists]
      constructor
      · rintro ⟨c, hc, rfl⟩
        obtain ⟨row', hrow', hstale⟩ := (hmem c).1 hc
        cases hrow'.symm.trans hrow
        exact ⟨c, hstale⟩
      · rintro ⟨c, hstale⟩
        have hid : c.id = t :=
          (Task.staleClaim_id hstale).trans (Table.find?_eq_some.1 hrow).2
        exact ⟨c, (hmem c).2 ⟨row, hid.symm ▸ hrow, hstale⟩, hid⟩
    simp only [Option.map_some, hiff]

end ClaimReleaseService

/-! ## What is released -/

section Released

variable {d : Desk} {timeoutMinutes t : Nat} {row : Task}

/-- On stamps that follow the activity, a stale claim is one that was not worked on. -/
theorem Desk.Tracked.stale_iff (h : d.Tracked) (hrow : d.sys.db.tasks.find? t = some row) :
    (row.staleClaim timeoutMinutes d.sys.now).isSome = true ↔
      row.Claimed ∧ ¬ d.Worked timeoutMinutes t := by
  -- the row is worked on since the timeout exactly when it is stamped since then
  have hworked : ∀ claimedAt, row.claimedAt = some claimedAt →
      (claimedAt.olderThan timeoutMinutes d.sys.now = true ∧
        row.updatedAt.olderThan timeoutMinutes d.sys.now = true ↔ ¬ d.Worked timeoutMinutes t) := by
    intro claimedAt hclaimed
    obtain ⟨ms, sec, hmem, hupdated, rfl, hle⟩ := h.claimed t row claimedAt hrow hclaimed
    simp only [Stamp.olderThan, Stamp.le, hupdated, Bool.and_eq_true, decide_eq_true_eq]
    constructor
    · rintro ⟨-, htimeout, hold⟩ ⟨last, hlast, hrecent⟩
      have hlate := h.updated t last row hlast hrow
      rw [hupdated] at hlate
      simp only [Stamp.second] at hlate
      unfold Recent at hrecent
      omega
    · intro hidle
      have hold : ¬ Recent timeoutMinutes d.sys.now ms := fun hrecent => hidle ⟨ms, hmem, hrecent⟩
      unfold Recent at hold
      omega
  rw [Option.isSome_iff_exists]
  constructor
  · rintro ⟨claim, hclaim⟩
    obtain ⟨assignee, claimedAt, hassignee, hclaimed, ⟨hstatus, hold⟩, -⟩ :=
      Task.staleClaim_eq_some.1 hclaim
    exact ⟨⟨hstatus, by simp [hassignee], by simp [hclaimed]⟩, (hworked claimedAt hclaimed).1 hold⟩
  · rintro ⟨⟨hstatus, hassignee, hclaimed⟩, hidle⟩
    obtain ⟨assignee, hassignee⟩ := Option.ne_none_iff_exists'.1 hassignee
    obtain ⟨claimedAt, hclaimed⟩ := Option.ne_none_iff_exists'.1 hclaimed
    exact ⟨_, Task.staleClaim_eq_some.2 ⟨assignee, claimedAt, hassignee, hclaimed,
      ⟨hstatus, (hworked claimedAt hclaimed).2 hidle⟩, rfl⟩⟩

open Classical in
/-- What a sweep releases. -/
theorem Desk.Tracked.find?_swept (h : d.Tracked) {env : Env} (hfaults : ∀ n, env.faults n = none) :
    (d.swept timeoutMinutes env).tasks.find? t = (d.sys.db.tasks.find? t).map fun row =>
      if row.Claimed ∧ ¬ d.Worked timeoutMinutes t then row.release d.sys.now else row := by
  obtain ⟨n, w', hr, hfind⟩ := ClaimReleaseService.sweep_run
    (w := World.start env d.sys.db d.sys.now) hfaults timeoutMinutes
  rw [Desk.swept, hr]
  refine (hfind t).trans ?_
  show (d.sys.db.tasks.find? t).map _ = _
  cases hrow : d.sys.db.tasks.find? t with
  | none => rfl
  | some row =>
    have hiff : (row.staleClaim timeoutMinutes d.sys.now).isSome = true ↔ _ := h.stale_iff hrow
    simp only [Option.map_some]
    split <;> rename_i hstale
    · rw [if_pos (hiff.1 hstale)]
      rfl
    · rw [if_neg fun hc => hstale (hiff.2 hc)]

open Classical in
/-- Where the stamps follow the activity, the sweep is exact when comments come with work. -/
theorem Desk.Tracked.sweepsInactive_iff (h : d.Tracked) :
    d.SweepsInactive timeoutMinutes ↔ d.CommentsWithWork timeoutMinutes := by
  constructor
  · intro hexact t row hrow hclaimed hcommented
    by_contra hidle
    have hswept := hexact .undisturbed (fun _ => rfl) t
    rw [h.find?_swept fun _ => rfl, hrow, Option.map_some, Option.map_some,
      if_pos ⟨hclaimed, hidle⟩, if_neg fun hc => hc.2 (.inr hcommented)] at hswept
    -- the release has opened the task
    have hstatus := congrArg Task.status (Option.some.inj hswept)
    rw [hclaimed.1] at hstatus
    cases hstatus
  · intro hwork env hfaults t
    rw [h.find?_swept hfaults]
    cases hrow : d.sys.db.tasks.find? t with
    | none => rfl
    | some row =>
      have hiff : row.Claimed ∧ ¬ d.Worked timeoutMinutes t ↔
          row.Claimed ∧ ¬ (d.Worked timeoutMinutes t ∨ d.Commented timeoutMinutes t) := by
        constructor
        · rintro ⟨hclaimed, hidle⟩
          refine ⟨hclaimed, ?_⟩
          rintro (hworked | hcommented)
          · exact hidle hworked
          · exact hidle (hwork t row hrow hclaimed hcommented)
        · rintro ⟨hclaimed, hidle⟩
          exact ⟨hclaimed, fun hworked => hidle (.inl hworked)⟩
      exact congrArg some (if_congr hiff rfl rfl)

/-- **Main theorem.** After any history, a sweep releases exactly the claims without activity when
    every claim that was commented on within the timeout was also worked on within it. -/
theorem sweep_releases_inactive_iff (now : Nat) (actions : List DeskAction) (timeoutMinutes : Nat) :
    (actions.foldl Desk.step (.quiet now)).SweepsInactive timeoutMinutes ↔
      (actions.foldl Desk.step (.quiet now)).CommentsWithWork timeoutMinutes :=
  (Desk.tracked_run now actions).sweepsInactive_iff

end Released

/-! ### A claim with a comment -/

/-- A task is created and claimed at time 0; half an hour later its holder comments on it, and the
    sweep comes a minute after that. -/
def commentedClaim : List DeskAction :=
  [.service (.addProject "p"), .service (.call 1 (.createTask
    { title := "task", projectId := 1, createdBy := "user" }))] ++
  List.replicate 4 (.service (.step 1 .undisturbed)) ++
  [.service (.call 1 (.claimTask 1 "worker" none .user))] ++
  List.replicate 2 (.service (.step 1 .undisturbed)) ++
  [.service (.wait 1800000),
    .comment { taskId := 1, author := "worker", content := "still on it" },
    .service (.wait 60000)]

/-- The sweep releases the claim although its holder has commented a minute before. -/
theorem commented_claim_released :
    ¬ (commentedClaim.foldl Desk.step (.quiet 0)).SweepsInactive defaultClaimTtlMinutes := by
  generalize hd : commentedClaim.foldl Desk.step (.quiet 0) = d
  intro hexact
  have hcommented : d.Commented defaultClaimTtlMinutes 1 := by
    have hrow : d.comments.rows = [⟨1, 1, "worker", "still on it", .iso 1800000, none⟩] := by
      rw [← hd]
      decide +kernel
    have hnow : d.sys.now = 1860000 := by
      rw [← hd]
      decide +kernel
    refine ⟨_, by rw [hrow]; exact List.mem_cons_self, rfl, 1800000, rfl, ?_⟩
    rw [hnow]
    show 1860000 / 1000 < 1800000 / 1000 + 60 * 30
    omega
  have hbefore : (d.sys.db.tasks.find? 1).map Task.status = some .inProgress := by
    rw [← hd]
    decide +kernel
  have hafter : ((d.swept defaultClaimTtlMinutes .undisturbed).tasks.find? 1).map Task.status =
      some .open := by
    rw [← hd]
    decide +kernel
  rw [hexact .undisturbed (fun _ => rfl) 1] at hafter
  obtain ⟨row, hrow, hstatus⟩ := Option.map_eq_some_iff.1 hbefore
  rw [hrow, Option.map_some, Option.map_some, if_neg fun hc => hc.2 (.inr hcommented), hstatus]
    at hafter
  cases hafter

end WoodFiredTasks
