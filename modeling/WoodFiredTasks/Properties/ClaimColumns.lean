import WoodFiredTasks.Lib.Runs
import WoodFiredTasks.TaskChanges

set_option autoImplicit false

/-! # The columns of a claim

A claim is three columns of its task: the assignee, the assignee's user id and the instant of the
claim. A fresh claim writes all three, a renewal the last one. The release of a stale claim clears
the assignee and the instant and leaves the user id, so a released task stays attributed to the user
who held it. -/

namespace WoodFiredTasks

open TaskService

/-! ## Calls that leave the assignee to claims -/

/-- The call writes no assignee: an update touches neither column, and a task that is created
    without an assignee has no user id either. -/
def Call.leavesAssignee : Call → Bool
  | .updateTask _ input _ _ => input.assignee.isNone && input.assigneeUserId.isNone
  | .createTask input => (orNull input.assignee).isSome || input.assigneeUserId.isNone
  | _ => true

/-- The same for a call in progress. -/
def Point.leavesAssignee : Point → Bool
  | .start call => call.leavesAssignee
  | .updateWrite _ _ input _ => input.assignee.isNone && input.assigneeUserId.isNone
  | .insertTask input => (orNull input.assignee).isSome || input.assigneeUserId.isNone
  | _ => true

/-- A call that arrives leaves the assignee to claims. -/
def Sys.CallOk (_ : Sys) (a : Action) : Prop :=
  match a with
  | .call _ c => c.leavesAssignee = true
  | _ => True

/-- A release finds no user id on the row that it releases. -/
def Sys.ReleaseOk (s : Sys) (a : Action) : Prop :=
  match s.pointAt a with
  | some (.release _ claim _) =>
    (s.db.tasks.find? claim.id).all (fun row => !row.releasable || row.assigneeUserId.isNone) = true
  | _ => True

instance (s : Sys) (a : Action) : Decidable (s.CallOk a) :=
  match a with
  | .call _ c => inferInstanceAs (Decidable (c.leavesAssignee = true))
  | .step .. | .crash _ | .wait _ | .addProject _ | .addUser _ => isTrue trivial

instance (s : Sys) (a : Action) : Decidable (s.ReleaseOk a) :=
  match h : s.pointAt a with
  | some (.release _ claim _) =>
    decidable_of_iff ((s.db.tasks.find? claim.id).all
      (fun row => !row.releasable || row.assigneeUserId.isNone) = true)
      (by simp only [Sys.ReleaseOk, h])
  | none | some (.start _) | some (.claimUpdate ..) | some (.renewReload ..)
  | some (.updateWrite ..) | some (.sizeRead ..) | some (.sizeWrite ..) | some (.announce ..)
  | some (.releaseReload ..) | some (.blockedTaskRead ..) | some (.cycleCheck ..)
  | some (.insertEdge ..) | some (.insertTask _) | some (.deleteRow _) =>
    isTrue (by simp only [Sys.ReleaseOk, h])

def Sys.ClaimsOnly (s : Sys) (a : Action) : Prop := s.CallOk a ∧ s.ReleaseOk a

instance (s : Sys) (a : Action) : Decidable (s.ClaimsOnly a) := inferInstanceAs (Decidable (_ ∧ _))

/-- What follows a point of such a call is one, too. -/
theorem Point.Effect.leavesAssignee {env : Env} {now : Nat} {db db' : Db} {point next : Point}
    (h : point.Effect env now db db' (some next)) (hpoint : point.leavesAssignee = true) :
    next.leavesAssignee = true := by
  cases point with
  | start call =>
    cases call with
    | claimTask =>
      obtain ⟨-, path, hnext⟩ := h
      obtain rfl := Option.some.inj hnext
      rfl
    | updateTask =>
      obtain ⟨-, row, -, hnext, -⟩ := h
      obtain rfl := Option.some.inj hnext
      exact hpoint
    | sweep =>
      obtain ⟨-, claims, hnext, -⟩ := h
      cases claims with
      | nil => cases hnext
      | cons claim rest =>
        obtain rfl := Option.some.inj hnext
        rfl
    | addDependency =>
      obtain rfl := Option.some.inj h.2
      rfl
    | removeDependency => cases h.2
    | createTask =>
      obtain rfl := Option.some.inj h.2.1
      exact hpoint
    | deleteTask =>
      obtain rfl := Option.some.inj h.2
      rfl
  | claimUpdate path =>
    cases path with
    | fresh => cases h.1
    | renewal =>
      obtain rfl := Option.some.inj h.1
      rfl
  | updateWrite =>
    obtain ⟨-, written, hnext⟩ := h
    obtain rfl := Option.some.inj hnext
    unfold afterWrite
    split <;> rfl
  | sizeRead =>
    obtain ⟨-, existing, hnext⟩ := h
    obtain rfl := Option.some.inj hnext
    rfl
  | sizeWrite =>
    obtain hnext | ⟨_, _, _, _, -, hnext⟩ := h.2
    · cases hnext
    · obtain rfl := Option.some.inj hnext
      rfl
  | release timeoutMinutes claim rest =>
    obtain ⟨-, hnext⟩ | ⟨hnext, -⟩ := h
    · cases rest with
      | nil => cases hnext
      | cons claim rest =>
        obtain rfl := Option.some.inj hnext
        rfl
    · obtain rfl := Option.some.inj hnext
      rfl
  | releaseReload timeoutMinutes claim rest =>
    have hnext := h.2
    cases rest with
    | nil => cases hnext
    | cons claim rest =>
      obtain rfl := Option.some.inj hnext
      rfl
  | blockedTaskRead =>
    obtain rfl := Option.some.inj h.2
    rfl
  | cycleCheck =>
    obtain rfl := Option.some.inj h.2.1
    rfl
  | insertTask =>
    obtain hnext | ⟨_, _, hnext⟩ := h.2
    · cases hnext
    · obtain rfl := Option.some.inj hnext
      rfl
  | announce => cases h.1
  | insertEdge => cases h.1
  | renewReload => cases h.2
  | deleteRow => cases h.2

def Sys.PointsLeaveAssignee (s : Sys) : Prop :=
  ∀ p point, s.procs p = some point → point.leavesAssignee = true

theorem Sys.PointsLeaveAssignee.step {s : Sys} {a : Action} (h : s.PointsLeaveAssignee)
    (hcall : s.CallOk a) : (s.step a).PointsLeaveAssignee := by
  refine Sys.step_points (P := fun _ _ point => point.leavesAssignee = true) h ?_
    (fun _ h => h) (fun _ _ _ _ _ _ _ heffect hpoint => heffect.leavesAssignee hpoint)
  intro p c ha
  subst ha
  exact hcall

/-! ## What a step does to the three columns -/

/-- How the claim columns of a row `r` have become those of `r'`. -/
inductive Point.ColumnChange (now t : Nat) (r r' : Task) : Point → Prop where
  | kept {point} (hassignee : r'.assignee = r.assignee)
      (huser : r'.assigneeUserId = r.assigneeUserId) (hclaimedAt : r'.claimedAt = r.claimedAt) :
      ColumnChange now t r r' point
  | claimed {assignee user source} (hfree : r.assignee = none) (hrow : r' = r.claim assignee user now) :
      ColumnChange now t r r' (.claimUpdate .fresh t assignee user source)
  | renewed {assignee user source} (hheld : r.assignee = some assignee) (hrow : r' = r.renew now) :
      ColumnChange now t r r' (.claimUpdate .renewal t assignee user source)
  | released {timeoutMinutes claim rest} (hid : claim.id = t) (hreleasable : r.releasable = true)
      (hrow : r' = r.release now) : ColumnChange now t r r' (.release timeoutMinutes claim rest)

/-- A row after a step was there before, with such a change, or it has just been inserted. -/
theorem Point.TaskChange.columnChange {env : Env} {now : Nat} {db db' : Db} {point : Point}
    (h : point.TaskChange env now db db') (hpoint : point.leavesAssignee = true) {t : Nat} {r' : Task}
    (hr' : db'.tasks.find? t = some r') :
    (∃ r, db.tasks.find? t = some r ∧ point.ColumnChange now t r r') ∨
      ∃ input, point = .insertTask input ∧
        r' = (CreateTaskInput.dto input).row input.tags now db.tasks.next := by
  have hwrite : ∀ {id : Nat} {f : Task → Task} {hf : ∀ t, (f t).id = t.id},
      (db.writeTask id f hf).tasks.find? t = some r' →
      ∃ r, db.tasks.find? t = some r ∧ ((t = id ∧ r' = f r) ∨ r' = r) := by
    intro id f hf hfind
    rw [Db.find?_writeTask] at hfind
    obtain ⟨r, hr, hr'⟩ := Option.map_eq_some_iff.1 hfind
    refine ⟨r, hr, ?_⟩
    split at hr'
    · rename_i hid
      exact .inl ⟨hid, hr'.symm⟩
    · exact .inr hr'.symm
  have hsame : ∀ {r : Task}, db.tasks.find? t = some r → r' = r →
      (∃ r, db.tasks.find? t = some r ∧ point.ColumnChange now t r r') ∨
        ∃ input, point = .insertTask input ∧
          r' = (CreateTaskInput.dto input).row input.tags now db.tasks.next := by
    intro r hr heq
    subst heq
    exact .inl ⟨_, hr, .kept rfl rfl rfl⟩
  cases h with
  | same h =>
    rw [h.tasks] at hr'
    exact hsame hr' rfl
  | claim hrow hassignee hstatus =>
    obtain ⟨r, hr, ⟨rfl, rfl⟩ | heq⟩ := hwrite hr'
    · obtain rfl := Option.some.inj (hrow.symm.trans hr)
      exact .inl ⟨_, hr, .claimed hassignee rfl⟩
    · exact hsame hr heq
  | renew hrow hassignee hstatus =>
    obtain ⟨r, hr, ⟨rfl, rfl⟩ | heq⟩ := hwrite hr'
    · obtain rfl := Option.some.inj (hrow.symm.trans hr)
      exact .inl ⟨_, hr, .renewed hassignee rfl⟩
    · exact hsame hr heq
  | @update existing id input source row db' hrow hcheck h =>
    rw [h.tasks] at hr'
    obtain ⟨r, hr, ⟨rfl, rfl⟩ | heq⟩ := hwrite hr'
    · simp only [Point.leavesAssignee, Bool.and_eq_true, Option.isNone_iff_eq_none] at hpoint
      refine .inl ⟨r, hr, .kept ?_ ?_ rfl⟩
      · simp [UpdateTaskDTO.apply, updatesForRepo, hpoint.1]
      · simp [UpdateTaskDTO.apply, updatesForRepo, hpoint.2]
    · exact hsame hr heq
  | resize h =>
    rw [h.tasks] at hr'
    obtain ⟨r, hr, ⟨rfl, rfl⟩ | heq⟩ := hwrite hr'
    · exact .inl ⟨r, hr, .kept rfl rfl rfl⟩
    · exact hsame hr heq
  | release hrow hassignee hstatus =>
    obtain ⟨r, hr, ⟨hid, rfl⟩ | heq⟩ := hwrite hr'
    · rw [hid] at hr
      obtain rfl := Option.some.inj (hrow.symm.trans hr)
      refine .inl ⟨_, hid ▸ hr, .released hid.symm ?_ rfl⟩
      simp [Task.releasable, hstatus, Option.isSome_iff_ne_none, hassignee]
    · exact hsame hr heq
  | @cascade existing updated input source hchanged hdone =>
    have hmap : ((WoodFiredTasks.cascade env now WorkflowEngine.maxCascadeDepth db updated.id
        updated.parentTaskId).tasks.find? t).map
          (fun r => (r.assignee, r.assigneeUserId, r.claimedAt)) =
        (db.tasks.find? t).map fun r => (r.assignee, r.assigneeUserId, r.claimedAt) :=
      map_find?_cascade _ (fun _ _ => rfl) ..
    rw [hr', Option.map_some] at hmap
    obtain ⟨r, hr, hcolumns⟩ := Option.map_eq_some_iff.1 hmap.symm
    simp only [Prod.mk.injEq] at hcolumns
    exact .inl ⟨r, hr, .kept hcolumns.1.symm hcolumns.2.1.symm hcolumns.2.2.symm⟩
  | @insert input db' hcheck h =>
    rw [h.tasks, Db.find?_insertTask] at hr'
    split at hr'
    · obtain rfl := Option.some.inj hr'
      exact .inr ⟨input, rfl, rfl⟩
    · exact hsame hr' rfl
  | delete => exact hsame (Db.find?_deleteTask hr').1 rfl

/-- The same for a step of the whole: the row is as before, or a process has changed it. -/
theorem Sys.columnChange_step {s : Sys} {a : Action} (hpoints : s.PointsLeaveAssignee) {t : Nat}
    {r' : Task} (hr' : (s.step a).db.tasks.find? t = some r') :
    s.db.tasks.find? t = some r' ∨ ∃ p env point, a = .step p env ∧ s.procs p = some point ∧
      ((∃ r, s.db.tasks.find? t = some r ∧ point.ColumnChange s.now t r r') ∨
        ∃ input, point = .insertTask input ∧
          r' = (CreateTaskInput.dto input).row input.tags s.now s.db.tasks.next) := by
  refine Sys.step_tasks (I := fun db => ∀ r', db.tasks.find? t = some r' →
    s.db.tasks.find? t = some r' ∨ ∃ p env point, a = .step p env ∧ s.procs p = some point ∧
      ((∃ r, s.db.tasks.find? t = some r ∧ point.ColumnChange s.now t r r') ∨
        ∃ input, point = .insertTask input ∧
          r' = (CreateTaskInput.dto input).row input.tags s.now s.db.tasks.next))
    (fun r' hr' => .inl hr') (fun _ h => h) (fun _ h => h)
    (fun p env point db' ha hpoint hchange _ r' hr' => ?_) r' hr'
  exact .inr ⟨p, env, point, ha, hpoint, hchange.columnChange (hpoints p point hpoint) hr'⟩

/-! ## Rows without an assignee -/

/-- A task without an assignee has no user id and no claim. -/
def Task.ColumnsAgree (r : Task) : Prop :=
  r.assignee = none → r.assigneeUserId = none ∧ r.claimedAt = none

structure Sys.ColumnsKept (s : Sys) : Prop where
  columnsAgree : s.db.AllTasks Task.ColumnsAgree
  pointsLeaveAssignee : s.PointsLeaveAssignee

theorem Sys.columnsKept_quiet (now : Nat) : (Sys.quiet Db.empty now).ColumnsKept :=
  ⟨Db.allTasks_empty, fun _ _ h => nomatch h⟩

theorem Sys.ColumnsKept.step {s : Sys} {a : Action} (h : s.ColumnsKept) (hok : s.ClaimsOnly a) :
    (s.step a).ColumnsKept := by
  refine ⟨fun t r' hr' => ?_, h.pointsLeaveAssignee.step hok.1⟩
  obtain hsame | ⟨p, env, point, rfl, hpoint, ⟨r, hr, hchange⟩ | ⟨input, rfl, rfl⟩⟩ :=
    Sys.columnChange_step h.pointsLeaveAssignee hr'
  · exact h.columnsAgree t r' hsame
  · have hagree := h.columnsAgree t r hr
    intro hnone
    cases hchange with
    | kept hassignee huser hclaimedAt =>
      rw [huser, hclaimedAt]
      exact hagree (hassignee.symm.trans hnone)
    | claimed hfree hrow =>
      rw [hrow] at hnone
      cases hnone
    | renewed hheld hrow =>
      rw [hrow] at hnone
      exact absurd (hheld.symm.trans hnone) (by simp)
    | @released timeoutMinutes claim rest hid hreleasable hrow =>
      -- the release leaves the user id, which the condition says is not there
      have hrelease : s.ReleaseOk (.step p env) := hok.2
      have hat : s.pointAt (.step p env) = some (.release timeoutMinutes claim rest) := hpoint
      simp only [ReleaseOk, hat, hid, hr, Option.all_some, hreleasable, Bool.not_true, Bool.false_or,
        Option.isNone_iff_eq_none] at hrelease
      rw [hrow]
      exact ⟨hrelease, rfl⟩
  · have hinput : (Point.insertTask input).leavesAssignee = true :=
      h.pointsLeaveAssignee p _ hpoint
    intro hnone
    simp only [Point.leavesAssignee, Bool.or_eq_true, Option.isNone_iff_eq_none] at hinput
    refine ⟨hinput.resolve_left ?_, rfl⟩
    have hassignee : orNull input.assignee = none := hnone
    simp [hassignee]

/-! ## The claim since it was made -/

/-- The step is a fresh claim of the task by the assignee with the user id that ends normally. -/
def Sys.GrantsTo (s : Sys) (a : Action) (t : Nat) (assignee : String) (user : Option Nat) : Prop :=
  ∃ p env source, a = .step p env ∧
    s.procs p = some (.claimUpdate .fresh t assignee user source) ∧
    (s.result (.claimUpdate .fresh t assignee user source) env).1 = .ok none

/-- The step is a release of the task, and leaves it without an assignee. -/
def Sys.Releases (s : Sys) (a : Action) (t : Nat) : Prop :=
  (∃ timeoutMinutes claim rest, s.pointAt a = some (.release timeoutMinutes claim rest) ∧
    claim.id = t) ∧ ∃ row, (s.step a).db.tasks.find? t = some row ∧ row.assignee = none

/-- The row of the task, as long as it is there, is claimed by the assignee with the user id. -/
structure Sys.ClaimStands (t : Nat) (assignee : String) (user : Option Nat) (s : Sys) : Prop where
  row : ∀ r, s.db.tasks.find? t = some r → r.assignee = some assignee ∧ r.assigneeUserId = user
  old : t < s.db.tasks.next
  pointsLeaveAssignee : s.PointsLeaveAssignee

theorem Sys.GrantsTo.claimStands {s : Sys} {a : Action} {t : Nat} {assignee : String}
    {user : Option Nat} (h : s.GrantsTo a t assignee user) (hpoints : s.PointsLeaveAssignee)
    (hok : s.CallOk a) : (s.step a).ClaimStands t assignee user := by
  have hpoints' := hpoints.step hok
  obtain ⟨p, env, source, rfl, hpoint, hresult⟩ := h
  obtain ⟨-, row, hrow, -, -, hdb⟩ := Sys.effect_of_ok hpoint hresult
  refine ⟨fun r hr => ?_, ?_, hpoints'⟩
  · rw [hdb, Db.find?_writeTask_self, hrow] at hr
    obtain rfl := Option.some.inj hr
    exact ⟨rfl, rfl⟩
  · rw [hdb, Db.writeTask_next]
    exact Table.lt_next_of_find? hrow

theorem Sys.ClaimStands.step {s : Sys} {a : Action} {t : Nat} {assignee : String}
    {user : Option Nat} (h : s.ClaimStands t assignee user) (hok : s.CallOk a)
    (hrelease : ¬ s.Releases a t) : (s.step a).ClaimStands t assignee user := by
  refine ⟨fun r' hr' => ?_, h.old.trans_le (s.keepsProjects_step a).next,
    h.pointsLeaveAssignee.step hok⟩
  obtain hsame | ⟨p, env, point, rfl, hpoint, ⟨r, hr, hchange⟩ | ⟨input, rfl, hrow⟩⟩ :=
    Sys.columnChange_step h.pointsLeaveAssignee hr'
  · exact h.row r' hsame
  · obtain ⟨hassignee, huser⟩ := h.row r hr
    cases hchange with
    | kept hassignee' huser' hclaimedAt =>
      exact ⟨hassignee'.trans hassignee, huser'.trans huser⟩
    | claimed hfree hrow =>
      rw [hfree] at hassignee
      cases hassignee
    | renewed hheld hrow =>
      rw [hrow]
      exact ⟨hassignee, huser⟩
    | released hid hreleasable hrow =>
      exact absurd ⟨⟨_, _, _, hpoint, hid⟩, r', hr', by rw [hrow]; rfl⟩ hrelease
  · -- an inserted row has a new id
    have hid : r'.id = t := (Table.find?_eq_some.1 hr').2
    rw [hrow] at hid
    exact absurd hid h.old.ne'

/-- **Main theorem.** In every run from the empty database in which the assignee is written by
    claims only and no release finds a user id on its row, a task without an assignee has neither a
    user id nor a claim; and a task that has been claimed and not released since has the assignee and
    the user id of the claim. -/
theorem claimColumns_agree (now : Nat) (actions : List Action)
    (hrun : RunOk Sys.step Sys.ClaimsOnly (Sys.quiet Db.empty now) actions) :
    Always Sys.step (fun s => s.db.AllTasks Task.ColumnsAgree) (Sys.quiet Db.empty now) actions ∧
      ∀ before a since t assignee user, actions = before ++ a :: since →
        ((Sys.quiet Db.empty now).run before).GrantsTo a t assignee user →
        RunOk Sys.step (fun s a => ¬ s.Releases a t)
          (((Sys.quiet Db.empty now).run before).step a) since →
        ∀ r, ((Sys.quiet Db.empty now).run actions).db.tasks.find? t = some r →
          r.assignee = some assignee ∧ r.assigneeUserId = user := by
  have hkept := Sys.columnsKept_quiet now
  constructor
  · exact (hrun.always (fun s a h hok => h.step hok) hkept).mono fun s h => h.columnsAgree
  · intro before a since t assignee user hactions hgrant hsince r hr
    subst hactions
    obtain ⟨hbefore, hclaim, hafter⟩ := RunOk.append_iff.1 hrun
    have hpoints := (hbefore.invariant (fun s a h hok => h.step hok) hkept).pointsLeaveAssignee
    have hstands := hgrant.claimStands hpoints hclaim.1
    have hend := (hafter.and hsince).invariant
      (fun s a (h : s.ClaimStands t assignee user) hok => h.step hok.1.1 hok.2) hstands
    refine hend.row r ?_
    rw [← hr, Sys.run, List.foldl_append]
    rfl

/-! ## Two runs -/

/-- A task is created, claimed and, half an hour and a minute later, released. -/
def releasedRun (user : Option Nat) : List Action :=
  [.addProject "project", .addUser 7,
    .call 1 (.createTask { title := "task", projectId := 1, createdBy := "user" }),
    .step 1 .undisturbed, .step 1 .undisturbed, .step 1 .undisturbed, .step 1 .undisturbed,
    .call 1 (.claimTask 1 "worker" user .user), .step 1 .undisturbed, .step 1 .undisturbed,
    .wait 1860000, .call 2 (.sweep defaultClaimTtlMinutes), .step 2 .undisturbed,
    .step 2 .undisturbed]

theorem claimColumns_agree_noUser :
    Always Sys.step (fun s => s.db.AllTasks Task.ColumnsAgree) (Sys.quiet Db.empty 0)
      (releasedRun none) :=
  (claimColumns_agree 0 (releasedRun none) (by decide +kernel)).1

/-- A claim with a user id leaves the user id behind. -/
theorem claimColumns_disagree :
    ¬ ∀ (now : Nat) (actions : List Action),
      RunOk Sys.step Sys.CallOk (Sys.quiet Db.empty now) actions →
      ((Sys.quiet Db.empty now).run actions).db.AllTasks Task.ColumnsAgree := by
  intro h
  have hagree := h 0 (releasedRun (some 7)) (by decide +kernel)
  have hrow : (((Sys.quiet Db.empty 0).run (releasedRun (some 7))).db.tasks.find? 1).map
      (fun r => (r.assignee, r.assigneeUserId)) = some (none, some 7) := by
    decide +kernel
  obtain ⟨r, hr, hcolumns⟩ := Option.map_eq_some_iff.1 hrow
  simp only [Prod.mk.injEq] at hcolumns
  obtain ⟨huser, -⟩ := hagree 1 r hr hcolumns.1
  rw [hcolumns.2] at huser
  cases huser

end WoodFiredTasks
