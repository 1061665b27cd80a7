import WoodFiredTasks.Properties.ClaimExclusion
import WoodFiredTasks.Properties.ClaimReplay

set_option autoImplicit false

/-! # Which open tasks can be claimed

A claim of an open task succeeds when nobody is assigned. The sweep clears the assignee when it
opens a task, an update of the status and the engine's cascade do not, so an open task is
unassigned as long as these two only open tasks without an assignee. The check of `claimTask` takes
the empty text for no assignee, the conditional UPDATE does not, so the two agree as long as no
update stores the empty text. -/

namespace WoodFiredTasks

open TaskService

/-! ## A claim without other writers -/

/-- The claim, run as a whole by a process that is otherwise idle, ends normally, and the row is
    claimed by the assignee then. -/
def Db.ClaimWorks (db : Db) (env : Env) (now t : Nat) (assignee : String) (user : Option Nat)
    (source : EventSource) : Prop :=
  ∃ task w, (claimTask WorkflowEngine.engine t assignee source user).run (World.start env db now) =
    (.ok task, w) ∧ Claimed w.db t assignee task

section Succeeds

variable {t : Nat} {assignee : String} {user : Option Nat}

/-- The read of a claim whose checks the row passes. -/
theorem claimRead_succeeds : Succeeds (fun v => ∃ row ∈ v.db.tasks.find? t, ∃ path,
    claimDecision t assignee row.inflate = .ok path) (claimRead t assignee) := by
  refine Succeeds.bind (R := fun existing _ => ∃ path, claimDecision t assignee existing = .ok path)
    (fun w hfaults hw => ?_) (requireTask_spec t) (fun existing => Succeeds.raiseError fun _ h => h) ?_
  · obtain ⟨row, hrow, -⟩ := hw
    exact requireTask_succeeds t w hfaults (Option.isSome_iff_exists.2 ⟨row, hrow⟩)
  · intro v existing db hrow hexisting
    obtain ⟨row, hrow, path, hpath⟩ := hrow
    obtain ⟨⟨row', hrow', rfl⟩, -⟩ := hexisting
    cases hrow.symm.trans hrow'
    exact ⟨path, hpath⟩

/-- The compare-and-swap never throws by itself. -/
theorem claimSwap_succeeds : Succeeds (fun v => v.db.userOk user = true)
    (TaskRepository.claimTask t assignee user) := by
  refine Succeeds.transaction (Succeeds.bind (R := fun _ v => v.db.userOk user = true)
    (Succeeds.query _) (TaskRepository.findById_spec t) (fun task => ?_) ?_)
  · cases task with
    | none => exact Succeeds.pure none
    | some task =>
      refine Succeeds.bind (R := fun _ _ => True) (TaskRepository.updateWhere_succeeds fun v hv => hv)
        (TaskRepository.updateWhere_spec t _ _ _ _) (fun changed => ?_) fun _ _ _ _ _ => trivial
      cases changed with
      | false => exact Succeeds.pure none
      | true =>
        rw [if_pos rfl]
        exact Succeeds.query _
  · intro v task db huser htask
    rw [htask.2]
    exact huser

/-- A fresh claim of a free row. -/
theorem claimFresh_succeeds : Succeeds (fun v => v.db.Free t ∧ v.db.userOk user = true)
    (claimFresh t assignee user) := by
  refine Succeeds.bind (R := fun claimed _ => claimed.isSome = true)
    (fun w hfaults hw => claimSwap_succeeds w hfaults hw.2)
    (TaskRepository.claimTask_spec t assignee user) (fun claimed => ?_) ?_
  · cases claimed with
    | none => exact fun _ _ h => nomatch h
    | some task => exact Succeeds.pure task
  · intro v claimed db hfree hclaimed
    rcases hclaimed with ⟨-, -, hnot⟩ | ⟨row, -, -, -, rfl, -⟩
    · exact absurd hfree.1 hnot
    · rfl

/-- A renewal of a held row. -/
theorem claimRenew_succeeds :
    Succeeds (fun v => v.db.HeldBy t assignee) (claimRenew t assignee) := by
  have hrenew : Succeeds (fun v => v.db.HeldBy t assignee) (TaskRepository.renewClaim t assignee) := by
    refine Succeeds.bind (R := fun _ _ => True) (TaskRepository.updateWhere_succeeds fun _ _ => rfl)
      (TaskRepository.updateWhere_spec t _ _ _ _) (fun changed => ?_) fun _ _ _ _ _ => trivial
    cases changed with
    | false => exact Succeeds.pure none
    | true =>
      rw [if_pos rfl]
      exact Succeeds.query _
  have hreload : ∀ changed : Bool, Spec (if changed then TaskRepository.findById t else pure none)
      (fun v task db => changed = true → task = (v.db.tasks.find? t).map Task.inflate)
      Unchanged := by
    intro changed
    cases changed with
    | false => exact (Spec.pure none).post fun _ _ _ _ h => nomatch h
    | true => exact (TaskRepository.findById_spec t).post fun _ _ _ h _ => h.1
  refine Succeeds.bind (R := fun renewed _ => renewed.isSome = true) hrenew
    ((TaskRepository.updateWhere_spec t _ _ _ _).bind hreload) (fun renewed => ?_) ?_
  · cases renewed with
    | none => exact fun _ _ h => nomatch h
    | some task => exact Succeeds.pure task
  · intro v renewed db hheld hrenewed
    obtain ⟨row, hrow, hassignee, hstatus⟩ := hheld
    obtain ⟨changed, db', ⟨hchanged, hdb⟩, hfind⟩ := hrenewed
    have htrue : changed = true := by
      rw [hchanged, hrow, Option.any_some, Task.heldBy, hassignee, hstatus]
      simp
    subst htrue
    rw [hfind rfl, hdb, if_pos rfl, Db.find?_writeTask_self, hrow]
    rfl

/-- What the chosen conditional update asks of the row. -/
def Db.Accepts (db : Db) (path : ClaimPath) (t : Nat) (assignee : String) : Prop :=
  match path with
  | .fresh => db.Free t
  | .renewal => db.HeldBy t assignee

theorem claimBy_succeeds (path : ClaimPath) :
    Succeeds (fun v => v.db.Accepts path t assignee ∧ v.db.userOk user = true)
      (claimBy path t assignee user) := by
  cases path with
  | fresh => exact claimFresh_succeeds
  | renewal => exact fun w hfaults hw => claimRenew_succeeds w hfaults hw.1

/-- A claim whose checks the row passes succeeds if the conditional update accepts the row. -/
theorem Db.claimWorks {db : Db} {env : Env} {now : Nat} {source : EventSource} {row : Task}
    {path : ClaimPath} (hfaults : ∀ n, env.faults n = none) (huser : db.userOk user = true)
    (hrow : db.tasks.find? t = some row) (hpath : claimDecision t assignee row.inflate = .ok path)
    (haccepts : db.Accepts path t assignee) : db.ClaimWorks env now t assignee user source := by
  have hclaim : Succeeds (fun v => v.db = db)
      (claimRead t assignee >>= fun path => claimBy path t assignee user) := by
    refine Succeeds.bind (R := fun path v => v.db.Accepts path t assignee ∧ v.db.userOk user = true)
      (fun w hfaults hw => claimRead_succeeds w hfaults ?_) (claimRead_spec t assignee)
      claimBy_succeeds ?_
    · obtain rfl := hw
      exact ⟨row, hrow, path, hpath⟩
    · intro v path' db' hv hread
      obtain ⟨⟨row', hrow', hpath'⟩, rfl⟩ := hread
      obtain rfl := hv
      cases hrow.symm.trans hrow'
      cases hpath.symm.trans hpath'
      exact ⟨haccepts, huser⟩
  obtain ⟨task, w, hr, -⟩ := hclaim (World.start env db now) hfaults rfl
  obtain ⟨w', hr', -⟩ := publishes_announceClaim task source w
  have hrun : (claimTask WorkflowEngine.engine t assignee source user).run (World.start env db now) =
      (.ok task, w') := by
    rw [claimTask_eq, Prog.run_bind_ok hr, hr']
  exact ⟨task, w', hrun, (run_claimTask hrun).2.2 task rfl⟩

/-- The checks let a fresh claim through when the row is open and its assignee is NULL or the empty
    text. -/
theorem claimDecision_fresh {row : Task} (h : claimDecision t assignee row = .ok .fresh) :
    row.status = .open ∧ (row.assignee = none ∨ row.assignee = some "") := by
  unfold claimDecision at h
  split at h
  · cases h
  · split at h
    · cases h
    · rename_i hopen
      split at h
      · cases h
      · rename_i htruthy
        refine ⟨not_not.1 hopen, ?_⟩
        rcases hassignee : row.assignee with _ | holder
        · exact .inl rfl
        · right
          rw [hassignee] at htruthy
          simpa [truthy] using htruthy

theorem claimDecision_renewal {row : Task} (h : claimDecision t assignee row = .ok .renewal) :
    row.status = .inProgress ∧ row.assignee = some assignee := by
  unfold claimDecision at h
  split at h
  · assumption
  · split at h
    · cases h
    · split at h <;> cases h

theorem claimDecision_free {row : Task} (hopen : row.status = .open) (hnone : row.assignee = none) :
    claimDecision t assignee row = .ok .fresh := by
  simp [claimDecision, hopen, hnone, truthy]

/-- A claim that ends normally has found an open row unassigned. -/
theorem Db.ClaimWorks.unassigned {db : Db} {env : Env} {now : Nat} {source : EventSource}
    {row : Task} (h : db.ClaimWorks env now t assignee user source)
    (hrow : db.tasks.find? t = some row) (hopen : row.status = .open) : row.assignee = none := by
  have hclaim : Spec (claimRead t assignee >>= fun path => claimBy path t assignee user)
      (fun v _ _ => ∃ row ∈ v.db.tasks.find? t, row.status = .open → row.assignee = none)
      fun _ _ => True := by
    refine ((claimRead_spec t assignee).bind (R := fun path v _ _ => path = .fresh →
      ∃ row ∈ v.db.tasks.find? t, row.assignee = none) (F := fun _ _ _ => True) fun path => ?_).conseq
      ?_ fun _ _ _ => trivial
    · cases path with
      | fresh =>
        refine (claimFresh_spec t assignee user).conseq ?_ fun _ _ _ => trivial
        intro v task db' hfresh _
        obtain ⟨row, hrow, hnone, -⟩ := hfresh
        exact ⟨row, hrow, hnone⟩
      | renewal =>
        exact (claimBy_spec .renewal t assignee user).conseq (fun _ _ _ _ h => nomatch h)
          fun _ _ _ => trivial
    · intro v task db' hrun
      obtain ⟨path, _, ⟨⟨row, hrow, hpath⟩, rfl⟩, hfresh⟩ := hrun
      refine ⟨row, hrow, fun hopen => ?_⟩
      cases path with
      | fresh =>
        obtain ⟨row', hrow', hnone⟩ := hfresh rfl
        cases hrow.symm.trans hrow'
        exact hnone
      | renewal => exact absurd (hopen.symm.trans (claimDecision_renewal hpath).1) (by simp)
  obtain ⟨task, w, hrun, -⟩ := h
  rw [claimTask_eq, Prog.run_bind] at hrun
  rcases hr : (claimRead t assignee >>= fun path =>
    claimBy path t assignee user).run (World.start env db now) with ⟨e | task', w'⟩
  · rw [hr] at hrun
    cases hrun
  · obtain ⟨row', hrow', hnone⟩ := (hclaim.ok hr).2
    cases hrow.symm.trans hrow'
    exact hnone hopen

/-- **When the checks agree with the update.** A row that has passed the checks is claimed unless it
    is open and its assignee is the empty text. -/
theorem Db.claimWorks_iff {db : Db} {env : Env} {now : Nat} {source : EventSource} {row : Task}
    {path : ClaimPath} (hfaults : ∀ n, env.faults n = none) (huser : db.userOk user = true)
    (hrow : db.tasks.find? t = some row) (hpath : claimDecision t assignee row.inflate = .ok path) :
    db.ClaimWorks env now t assignee user source ↔
      (row.status = .open → row.assignee ≠ some "") := by
  constructor
  · intro hworks hopen hempty
    rw [hworks.unassigned hrow hopen] at hempty
    cases hempty
  · intro hne
    refine Db.claimWorks hfaults huser hrow hpath ?_
    cases path with
    | fresh =>
      obtain ⟨hopen, hnone | hempty⟩ := claimDecision_fresh hpath
      · exact ⟨row, hrow, hnone, hopen⟩
      · exact absurd hempty (hne hopen)
    | renewal =>
      obtain ⟨hstatus, hassignee⟩ := claimDecision_renewal hpath
      exact ⟨row, hrow, hassignee, hstatus⟩

end Succeeds

/-! ## The steps that open tasks -/

/-- An open task has no assignee. -/
def Task.OpenUnassigned (t : Task) : Prop := t.status = .open → t.assignee = none

/-- The call does not itself choose an assignee: a task is created without one, and an update does
    not mention it. -/
def Point.LeavesAssignee : Point → Prop
  | .insertTask input => input.assignee = none
  | .updateWrite _ _ input _ => input.assignee = none
  | _ => True

/-- The tasks that a cascade opens: blocked ones that depend on a task it works from, once all
    their blockers are done. -/
def Db.OpenedBy (env : Env) (now : Nat) (db : Db) (id : Nat) (parentTaskId : Option Nat) (t : Nat) :
    Prop :=
  db.status? t = some .blocked ∧
    db.DependsOn (unblockers env now WorkflowEngine.maxCascadeDepth db id parentTaskId) t ∧
    (completeAll env now WorkflowEngine.maxCascadeDepth db parentTaskId).unblocked t = true

/-- The segment opens a task that somebody is assigned to. -/
def Point.OpensAssigned (env : Env) (now : Nat) (db : Db) : Point → Prop
  | .updateWrite _ id input _ => input.status = some .open ∧
    ∃ row ∈ db.tasks.find? id, row.assignee ≠ none
  | .announce _ updated _ _ => updated.status = .done ∧
    ∃ row ∈ db.tasks.rows, row.assignee ≠ none ∧ db.OpenedBy env now updated.id updated.parentTaskId row.id
  | _ => False

/-- The segment stores the empty text for the assignee. -/
def Point.StoresEmpty : Point → Prop
  | .updateWrite _ _ input _ => input.assignee = some (some "")
  | .claimUpdate _ _ assignee _ _ => assignee = ""
  | _ => False

/-- The step opens a task that somebody is assigned to. -/
def Sys.OpensAssigned (s : Sys) : Action → Prop
  | .step p env => ∃ point ∈ s.procs p, point.OpensAssigned env s.now s.db
  | _ => False

/-- The step stores the empty text for an assignee. -/
def Sys.StoresEmpty (s : Sys) (a : Action) : Prop := ∃ point ∈ s.pointAt a, point.StoresEmpty

/-- The step chooses no assignee but by claiming. -/
def Sys.LeavesAssignee (s : Sys) (a : Action) : Prop := ∀ point ∈ s.pointAt a, point.LeavesAssignee

section Steps

variable {env : Env} {now : Nat} {db db' : Db} {point : Point}

theorem Point.TaskChange.openUnassigned (h : point.TaskChange env now db db')
    (hleaves : point.LeavesAssignee) (hopens : ¬ point.OpensAssigned env now db)
    (hdb : db.AllTasks Task.OpenUnassigned) : db'.AllTasks Task.OpenUnassigned := by
  cases h with
  | same h => exact hdb.sameTasks h
  | claim => exact hdb.writeTask fun row _ _ hopen => nomatch hopen
  | renew => exact hdb.writeTask fun row _ hrow => hrow
  | @update existing id input source row db' hrow hcheck h =>
    refine Db.AllTasks.sameTasks (hdb.writeTask fun row' hrow' hold hopen => ?_) h
    have hassignee : ((updatesForRepo existing input).apply (input.status.map fun _ => row.status) now
        row').assignee = row'.assignee := congrArg (Option.getD · row'.assignee) hleaves
    have hstatus : input.status.getD row'.status = .open := hopen
    rw [hassignee]
    rcases hs : input.status with _ | s
    · rw [hs] at hstatus
      exact hold hstatus
    · rw [hs, Option.getD_some] at hstatus
      by_contra hne
      exact hopens ⟨hs.trans (congrArg some hstatus), row', hrow', hne⟩
  | resize h =>
    refine Db.AllTasks.sameTasks ?_ h
    exact hdb.writeTask fun row _ hrow => hrow
  | release => exact hdb.writeTask fun row _ _ _ => rfl
  | @cascade existing updated input source hchanged hdone =>
    intro t row' hrow' hopen
    have hassignee : ((WoodFiredTasks.cascade env now WorkflowEngine.maxCascadeDepth db updated.id
        updated.parentTaskId).tasks.find? t).map Task.assignee =
        (db.tasks.find? t).map Task.assignee := map_find?_cascade Task.assignee (fun _ _ => rfl) ..
    rw [hrow', Option.map_some] at hassignee
    obtain ⟨row, hrow, hsame⟩ := Option.map_eq_some_iff.1 hassignee.symm
    have hstatus : (WoodFiredTasks.cascade env now WorkflowEngine.maxCascadeDepth db updated.id
        updated.parentTaskId).status? t = some .open := by
      rw [Db.status?, hrow', Option.map_some, hopen]
    rw [← hsame]
    rw [status?_cascade] at hstatus
    split at hstatus
    · cases hstatus
    · split at hstatus
      · -- the cascade has opened the task
        rename_i hopened
        by_contra hne
        obtain ⟨hmem, rfl⟩ := Table.find?_eq_some.1 hrow
        exact hopens ⟨hdone, row, hmem, hne, hopened.2.1, hopened.1, hopened.2.2⟩
      · rw [Db.status?, hrow] at hstatus
        exact hdb t row hrow (Option.some.inj hstatus)
  | @insert input db' hcheck h =>
    refine Db.AllTasks.sameTasks (hdb.insertTask fun id _ => ?_) h
    have hnone : input.assignee = none := hleaves
    show orNull input.assignee = none
    rw [hnone]
    rfl
  | delete => exact hdb.deleteTask

theorem orNull_ne (value : Option String) : orNull value ≠ some "" := by
  unfold orNull
  split
  · simp
  · assumption

theorem Point.TaskChange.assigneeNotEmpty (h : point.TaskChange env now db db')
    (hempty : ¬ point.StoresEmpty) (hdb : db.AllTasks fun t => t.assignee ≠ some "") :
    db'.AllTasks fun t => t.assignee ≠ some "" := by
  cases h with
  | same h => exact hdb.sameTasks h
  | claim => exact hdb.writeTask fun row _ _ hrow => hempty (Option.some.inj hrow)
  | renew => exact hdb.writeTask fun row _ hrow => hrow
  | @update existing id input source row db' hrow hcheck h =>
    refine Db.AllTasks.sameTasks (hdb.writeTask fun row' hrow' hold hnew => ?_) h
    have hassignee : input.assignee.getD row'.assignee = some "" := hnew
    rcases hinput : input.assignee with _ | assignee
    · rw [hinput] at hassignee
      exact hold hassignee
    · rw [hinput, Option.getD_some] at hassignee
      exact hempty (hinput.trans (congrArg some hassignee))
  | resize h =>
    refine Db.AllTasks.sameTasks ?_ h
    exact hdb.writeTask fun row _ hrow => hrow
  | release => exact hdb.writeTask fun row _ _ hrow => nomatch hrow
  | @cascade existing updated input source hchanged hdone =>
    intro t row' hrow' hassignee'
    have hassignee : ((WoodFiredTasks.cascade env now WorkflowEngine.maxCascadeDepth db updated.id
        updated.parentTaskId).tasks.find? t).map Task.assignee =
        (db.tasks.find? t).map Task.assignee := map_find?_cascade Task.assignee (fun _ _ => rfl) ..
    rw [hrow', Option.map_some] at hassignee
    obtain ⟨row, hrow, hsame⟩ := Option.map_eq_some_iff.1 hassignee.symm
    exact hdb t row hrow (hsame.trans hassignee')
  | insert hcheck h => exact Db.AllTasks.sameTasks (hdb.insertTask fun id => orNull_ne _) h
  | delete => exact hdb.deleteTask

theorem openUnassigned_step {s : Sys} {a : Action} (h : s.db.AllTasks Task.OpenUnassigned)
    (hleaves : s.LeavesAssignee a) (hopens : ¬ s.OpensAssigned a) :
    (s.step a).db.AllTasks Task.OpenUnassigned := by
  refine Sys.step_tasks h (fun _ h => h) (fun _ h => h) fun p env point db' ha hpoint hchange => ?_
  subst ha
  exact hchange.openUnassigned (hleaves point hpoint) fun hopen => hopens ⟨point, hpoint, hopen⟩

theorem assigneeNotEmpty_step {s : Sys} {a : Action}
    (h : s.db.AllTasks fun t => t.assignee ≠ some "") (hempty : ¬ s.StoresEmpty a) :
    (s.step a).db.AllTasks fun t => t.assignee ≠ some "" := by
  refine Sys.step_tasks h (fun _ h => h) (fun _ h => h) fun p env point db' ha hpoint hchange => ?_
  subst ha
  exact hchange.assigneeNotEmpty fun hstore => hempty ⟨point, hpoint, hstore⟩

end Steps

/-- An open task is unassigned, and whoever claims it without other writers gets it. -/
def Sys.OpenClaimable (s : Sys) : Prop :=
  ∀ t row, s.db.tasks.find? t = some row → row.status = .open → row.assignee = none ∧
    ∀ env assignee user source, (∀ n, env.faults n = none) → s.db.userOk user = true →
      s.db.ClaimWorks env s.now t assignee user source

/-- Whoever passes the checks of a claim gets the task without other writers. -/
def Sys.ChecksAgree (s : Sys) : Prop :=
  ∀ t row assignee path, s.db.tasks.find? t = some row →
    claimDecision t assignee row.inflate = .ok path →
    ∀ env user source, (∀ n, env.faults n = none) → s.db.userOk user = true →
      s.db.ClaimWorks env s.now t assignee user source

/-- **Main theorem.** From the empty database: while nobody is assigned but by claiming, and no
    step opens a task that somebody is assigned to, every open task is unassigned and can be
    claimed. While no step stores the empty text for an assignee, the checks of a claim agree with
    its conditional update; and in every database a row that has passed the checks is claimed unless
    it is open and its assignee is the empty text. -/
theorem tasks_claimable (now : Nat) (actions : List Action) :
    (RunOk Sys.step (fun s a => s.LeavesAssignee a ∧ ¬ s.OpensAssigned a) (Sys.quiet .empty now)
      actions → Always Sys.step Sys.OpenClaimable (Sys.quiet .empty now) actions) ∧
    (RunOk Sys.step (fun s a => ¬ s.StoresEmpty a) (Sys.quiet .empty now) actions →
      Always Sys.step Sys.ChecksAgree (Sys.quiet .empty now) actions) ∧
    (∀ (db : Db) (env : Env) t assignee user source row path, (∀ n, env.faults n = none) →
      db.userOk user = true → db.tasks.find? t = some row →
      claimDecision t assignee row.inflate = .ok path →
      (db.ClaimWorks env now t assignee user source ↔
        (row.status = .open → row.assignee ≠ some ""))) := by
  refine ⟨fun h => ?_, fun h => ?_, ?_⟩
  · refine (h.always (I := fun s => s.db.AllTasks Task.OpenUnassigned)
      (fun s a hs ha => openUnassigned_step hs ha.1 ha.2) Db.allTasks_empty).mono ?_
    intro s hs t row hrow hopen
    have hnone := hs t row hrow hopen
    refine ⟨hnone, fun env assignee user source hfaults huser => ?_⟩
    exact Db.claimWorks hfaults huser hrow (claimDecision_free hopen hnone) ⟨row, hrow, hnone, hopen⟩
  · refine (h.always (I := fun s => s.db.AllTasks fun t => t.assignee ≠ some "")
      (fun s a hs ha => assigneeNotEmpty_step hs ha) Db.allTasks_empty).mono ?_
    intro s hs t row assignee path hrow hpath env user source hfaults huser
    exact (Db.claimWorks_iff hfaults huser hrow hpath).2 fun _ => hs t row hrow
  · intro db env t assignee user source row path hfaults huser hrow hpath
    exact Db.claimWorks_iff hfaults huser hrow hpath

instance (env : Env) (now : Nat) (db : Db) (id : Nat) (parentTaskId : Option Nat) (t : Nat) :
    Decidable (db.OpenedBy env now id parentTaskId t) := inferInstanceAs (Decidable (_ ∧ _ ∧ _))

instance : DecidablePred Point.LeavesAssignee
  | .insertTask input => inferInstanceAs (Decidable (input.assignee = none))
  | .updateWrite _ _ input _ => inferInstanceAs (Decidable (input.assignee = none))
  | .start _ | .claimUpdate .. | .renewReload .. | .sizeRead .. | .sizeWrite .. | .announce ..
  | .release .. | .releaseReload .. | .blockedTaskRead .. | .cycleCheck .. | .insertEdge ..
  | .deleteRow _ => isTrue trivial

instance (env : Env) (now : Nat) (db : Db) : DecidablePred (Point.OpensAssigned env now db)
  | .updateWrite _ id input _ =>
    inferInstanceAs (Decidable (input.status = some .open ∧
      ∃ row ∈ db.tasks.find? id, row.assignee ≠ none))
  | .announce _ updated _ _ =>
    inferInstanceAs (Decidable (updated.status = .done ∧ ∃ row ∈ db.tasks.rows,
      row.assignee ≠ none ∧ db.OpenedBy env now updated.id updated.parentTaskId row.id))
  | .start _ | .claimUpdate .. | .renewReload .. | .sizeRead .. | .sizeWrite .. | .release ..
  | .releaseReload .. | .blockedTaskRead .. | .cycleCheck .. | .insertEdge .. | .insertTask _
  | .deleteRow _ => isFalse not_false

instance (s : Sys) : DecidablePred s.LeavesAssignee :=
  fun a => inferInstanceAs (Decidable (∀ point ∈ s.pointAt a, point.LeavesAssignee))

instance (s : Sys) : DecidablePred s.OpensAssigned := fun a => by
  cases a <;> simp only [Sys.OpensAssigned] <;> infer_instance

/-- Two tasks; a worker claims the second, blocks it by the first, and claims the first. -/
def blockedClaim : List Action :=
  let create : Call := .createTask { title := "task", projectId := 1, createdBy := "user" }
  .addProject "project" :: callSteps 1 create 4 ++ callSteps 1 create 4 ++
    callSteps 1 (.claimTask 2 "worker" none .user) 2 ++
    callSteps 1 (.updateTask 2 { status := some .blocked, blockedBy := some [1] } .user none) 3 ++
    callSteps 1 (.claimTask 1 "worker" none .user) 2

theorem tasks_claimable_blocked :
    Always Sys.step Sys.OpenClaimable (Sys.quiet .empty 0) blockedClaim :=
  (tasks_claimable 0 blockedClaim).1 (by decide +kernel)

/-- Then the first task is done, which opens the second. -/
def openedClaim : List Action :=
  blockedClaim ++ callSteps 1 (.updateTask 1 (statusUpdate .done) .user none) 3

/-- A task gets the empty text for its assignee. -/
def emptyAssignee : List Action :=
  claimedTask.take 6 ++ callSteps 1 (.updateTask 1 { assignee := some (some "") } .user none) 3

/-- The second task is open and still the worker's; and the task with the empty assignee cannot be
    claimed although the checks let the claim through. -/
theorem tasks_unclaimable :
    (¬ ∀ now actions, RunOk Sys.step Sys.LeavesAssignee (Sys.quiet .empty now) actions →
      Always Sys.step Sys.OpenClaimable (Sys.quiet .empty now) actions) ∧
    ¬ ∀ now actions, Always Sys.step Sys.ChecksAgree (Sys.quiet .empty now) actions := by
  constructor
  · intro h
    have hopen : ∃ row ∈ ((Sys.quiet .empty 0).run openedClaim).db.tasks.find? 2,
        row.status = .open ∧ row.assignee ≠ none := by decide +kernel
    have hlast : Sys.OpenClaimable ((Sys.quiet .empty 0).run openedClaim) :=
      (h 0 openedClaim (by decide +kernel)).last
    obtain ⟨row, hrow, hstatus, hassignee⟩ := hopen
    exact hassignee (hlast 2 row hrow hstatus).1
  · intro h
    have hempty : ∃ row ∈ ((Sys.quiet .empty 0).run emptyAssignee).db.tasks.find? 1,
        row.status = .open ∧ row.assignee = some "" ∧
          claimDecision 1 "worker" row.inflate = .ok .fresh := by decide +kernel
    have hlast : Sys.ChecksAgree ((Sys.quiet .empty 0).run emptyAssignee) :=
      (h 0 emptyAssignee).last
    obtain ⟨row, hrow, hstatus, hassignee, hpath⟩ := hempty
    have hworks := hlast 1 row "worker" .fresh hrow hpath .undisturbed none .user (fun _ => rfl) rfl
    rw [hworks.unassigned hrow hstatus] at hassignee
    cases hassignee

end WoodFiredTasks
