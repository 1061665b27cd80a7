import WoodFiredTasks.Lib.Runs
import WoodFiredTasks.TaskChanges

set_option autoImplicit false

/-! # Status changes

`updateTask` checks the transition on the row it has read and writes later, without a condition
on the status; every other writer of a status decides in the transaction that writes. So all
writes are legal in a run whose updates find the status that they have checked. `completed_at`
is right in every run, since the write that sets it reads the status in its own transaction. -/

namespace WoodFiredTasks

open TaskService

/-! ## The log of status writes -/

/-- The write is a legal transition. -/
def StatusWrite.Legal (e : StatusWrite) : Prop := e.toStatus ∈ validStatusTransitions e.fromStatus

instance (e : StatusWrite) : Decidable e.Legal :=
  inferInstanceAs (Decidable (_ ∈ _))

/-- A write of the log took the task into done, and no later one took it out of done. -/
def DoneSince (log : List StatusWrite) (id : Nat) : Prop :=
  ∃ before e after, log = before ++ e :: after ∧ e.id = id ∧ e.toStatus = .done ∧
    ∀ e' ∈ after, e'.id = id → e'.fromStatus ≠ .done

theorem doneSince_append {log : List StatusWrite} {e : StatusWrite} {id : Nat} :
    DoneSince (log ++ [e]) id ↔
      (e.id = id ∧ e.toStatus = .done) ∨ (DoneSince log id ∧ (e.id = id → e.fromStatus ≠ .done)) := by
  constructor
  · rintro ⟨before, d, after, hlog, hid, hdone, hafter⟩
    rcases List.eq_nil_or_concat' after with rfl | ⟨after', last, rfl⟩
    · obtain ⟨-, he⟩ := List.append_inj' hlog rfl
      obtain rfl := List.singleton_inj.1 he
      exact .inl ⟨hid, hdone⟩
    · rw [← List.cons_append, ← List.append_assoc] at hlog
      obtain ⟨rfl, he⟩ := List.append_inj' hlog rfl
      obtain rfl := List.singleton_inj.1 he
      refine .inr ⟨⟨before, d, after', rfl, hid, hdone, fun e' he' => hafter e' ?_⟩, hafter e ?_⟩
      · exact List.mem_append_left _ he'
      · exact List.mem_append_right _ List.mem_cons_self
  · rintro (⟨hid, hdone⟩ | ⟨⟨before, d, after, rfl, hid, hdone, hafter⟩, hlast⟩)
    · exact ⟨log, e, [], rfl, hid, hdone, fun e' he' => nomatch he'⟩
    · refine ⟨before, d, after ++ [e], by simp, hid, hdone, fun e' he' => ?_⟩
      rcases List.mem_append.1 he' with h | h
      · exact hafter e' h
      · rw [List.mem_singleton.1 h]
        exact hlast

/-- The log tells of every row whether it is done, and so does its `completed_at`. -/
structure Db.StatusHistory (db : Db) : Prop where
  completed : ∀ id row, db.tasks.find? id = some row →
    (row.completedAt.isSome = true ↔ row.status = .done)
  since : ∀ id row, db.tasks.find? id = some row →
    (DoneSince db.statusWrites id ↔ row.status = .done)
  below : ∀ e ∈ db.statusWrites, e.id < db.tasks.next

theorem Db.SameTasks.statusHistory {db db' : Db} (h : db.SameTasks db') (hdb : db.StatusHistory) :
    db'.StatusHistory := by
  obtain ⟨hcompleted, hsince, hbelow⟩ := hdb
  refine ⟨?_, ?_, ?_⟩
  · rwa [h.tasks]
  · rwa [h.tasks, h.statusWrites]
  · rwa [h.tasks, h.statusWrites]

/-- The status writes after one more write of a row. -/
theorem doneSince_writeTask {db : Db} {id j : Nat} {f : Task → Task} {hf : ∀ t, (f t).id = t.id}
    {row : Task} (hrow : db.tasks.find? id = some row)
    (h : DoneSince db.statusWrites id ↔ row.status = .done) :
    DoneSince (db.writeTask id f hf).statusWrites j ↔
      if j = id then (f row).status = .done else DoneSince db.statusWrites j := by
  rw [Db.writeTask_log hrow]
  by_cases hid : j = id
  · subst hid
    rw [if_pos rfl]
    split
    · rename_i hsame
      rw [h, hsame]
    · rw [doneSince_append, h]
      constructor
      · rintro (⟨-, hdone⟩ | ⟨hdone, hleft⟩)
        · exact hdone
        · exact absurd hdone (hleft rfl)
      · exact fun hdone => .inl ⟨rfl, hdone⟩
  · rw [if_neg hid]
    split
    · rfl
    · rw [doneSince_append]
      constructor
      · rintro (⟨hid', -⟩ | ⟨hdone, -⟩)
        · exact absurd hid'.symm hid
        · exact hdone
      · exact fun hdone => .inr ⟨hdone, fun hid' => absurd hid'.symm hid⟩

/-- A write that sets `completed_at` along with the status keeps the history. -/
theorem Db.StatusHistory.writeTask {db : Db} {id : Nat} {f : Task → Task}
    {hf : ∀ t, (f t).id = t.id} (h : db.StatusHistory)
    (hcompleted : ∀ row, db.tasks.find? id = some row →
      ((f row).completedAt.isSome = true ↔ (f row).status = .done)) :
    (db.writeTask id f hf).StatusHistory := by
  rcases hrow : db.tasks.find? id with _ | row
  · rwa [Db.writeTask_of_none hrow]
  refine ⟨fun j r hj => ?_, fun j r hj => ?_, fun e he => ?_⟩
  · rw [Db.find?_writeTask] at hj
    obtain ⟨r', hr', rfl⟩ := Option.map_eq_some_iff.1 hj
    split
    · rename_i hid
      subst hid
      exact hcompleted r' hr'
    · exact h.completed j r' hr'
  · rw [Db.find?_writeTask] at hj
    obtain ⟨r', hr', rfl⟩ := Option.map_eq_some_iff.1 hj
    rw [doneSince_writeTask hrow (h.since id row hrow)]
    split
    · rename_i hid
      subst hid
      cases hrow.symm.trans hr'
      rfl
    · exact h.since j r' hr'
  · rw [Db.writeTask_next]
    rw [Db.writeTask_log hrow] at he
    split at he
    · exact h.below e he
    · rcases List.mem_append.1 he with he | he
      · exact h.below e he
      · obtain rfl := List.mem_singleton.1 he
        exact Table.lt_next_of_find? hrow

/-- A new row is open, and the log does not know it. -/
theorem Db.StatusHistory.insertTask {db : Db} {dto : CreateTaskDTO} {tags : List String} {now : Nat}
    (h : db.StatusHistory) (hopen : dto.status ≠ .done) :
    (db.insertTask dto tags now).StatusHistory := by
  refine ⟨fun j r hj => ?_, fun j r hj => ?_, fun e he => ?_⟩
  · rw [Db.find?_insertTask] at hj
    split at hj
    · obtain rfl := Option.some.inj hj
      exact iff_of_false (by simp [CreateTaskDTO.row]) hopen
    · exact h.completed j r hj
  · rw [Db.find?_insertTask] at hj
    split at hj
    · rename_i hid
      obtain rfl := Option.some.inj hj
      refine iff_of_false ?_ hopen
      rintro ⟨before, e, after, hlog, he, -⟩
      have hbelow := h.below e (by rw [show db.statusWrites = _ from hlog]; simp)
      omega
    · exact h.since j r hj
  · exact (h.below e he).trans (Nat.lt_succ_self _)

theorem Db.StatusHistory.deleteTask {db : Db} {id : Nat} (h : db.StatusHistory) :
    (db.deleteTask id).StatusHistory := by
  have hfind : ∀ {j r}, (db.deleteTask id).tasks.find? j = some r → db.tasks.find? j = some r := by
    intro j r hj
    rw [Db.deleteTask, Table.find?_filter] at hj
    exact (Option.filter_eq_some_iff.1 hj).1
  exact ⟨fun j r hj => h.completed j r (hfind hj), fun j r hj => h.since j r (hfind hj), h.below⟩

theorem isSome_completedAtAfter {s : TaskStatus} {now : Nat} {t : Task}
    (h : t.completedAt.isSome = true ↔ t.status = .done) :
    (completedAtAfter s (some t.status) now t.completedAt).isSome = true ↔ s = .done := by
  unfold completedAtAfter
  split
  · rename_i hdone
    exact iff_of_true rfl hdone.1
  · rename_i hnot
    split
    · rename_i hleft
      exact iff_of_false (by simp) hleft.2
    · rename_i hkept
      rw [h]
      simp only [Option.some.injEq, ne_eq, not_and, not_not] at hnot hkept
      exact ⟨hkept, hnot⟩

/-- Every change of the tasks keeps the history. -/
theorem Point.TaskChange.statusHistory {env : Env} {now : Nat} {db db' : Db} {point : Point}
    (h : point.TaskChange env now db db') (hdb : db.StatusHistory) : db'.StatusHistory := by
  cases h with
  | same h => exact h.statusHistory hdb
  | claim hrow hassignee hstatus =>
    refine hdb.writeTask fun row hrow' => ?_
    cases hrow.symm.trans hrow'
    rw [Task.claim, hdb.completed _ _ hrow, hstatus]
    simp
  | renew => exact hdb.writeTask fun row hrow' => hdb.completed _ row hrow'
  | @update existing id input source row db' hrow hcheck h =>
    refine h.statusHistory (hdb.writeTask fun row' hrow' => ?_)
    cases hrow.symm.trans hrow'
    have hrow := hdb.completed _ _ hrow
    simp only [UpdateTaskDTO.apply, updatesForRepo_status]
    cases input.status with
    | none => exact hrow
    | some s => exact isSome_completedAtAfter hrow
  | resize h => exact h.statusHistory (hdb.writeTask fun row hrow' => hdb.completed _ row hrow')
  | release hrow hassignee hstatus =>
    refine hdb.writeTask fun row hrow' => ?_
    cases hrow.symm.trans hrow'
    rw [Task.release, hdb.completed _ _ hrow, hstatus]
    simp
  | cascade =>
    refine cascade_induction (I := Db.StatusHistory) (fun db i row s hI hrow _ => ?_) hdb
    refine hI.writeTask fun row' hrow' => ?_
    exact isSome_completedAtAfter (hI.completed _ _ hrow')
  | insert hcheck h => exact h.statusHistory (hdb.insertTask (by simp [CreateTaskInput.dto]))
  | delete => exact hdb.deleteTask
/-! ## Legal writes -/

/-- The update that a step writes, with the row it finds and the row it was checked on. -/
def Sys.updateOf (s : Sys) : Action → Option (Task × UpdateTaskInput × Task)
  | .step p _ =>
    match s.procs p with
    | some (.updateWrite existing id input _) =>
      (s.db.tasks.find? id).map fun row => (existing, input, row)
    | _ => none
  | _ => none

/-- An update of the status finds the status that it was checked on. -/
def StatusUnchangedSinceRead (s : Sys) (a : Action) : Prop :=
  ∀ update ∈ s.updateOf a, update.2.1.status.isSome = true → update.2.2.status = update.1.status

instance (s : Sys) (a : Action) : Decidable (StatusUnchangedSinceRead s a) :=
  inferInstanceAs (Decidable (∀ update ∈ s.updateOf a, _))

/-- All writes so far were legal. -/
def Db.WritesLegal (db : Db) : Prop := ∀ e ∈ db.statusWrites, e.Legal

instance (db : Db) : Decidable db.WritesLegal :=
  inferInstanceAs (Decidable (∀ e ∈ db.statusWrites, e.Legal))

theorem Db.SameTasks.writesLegal {db db' : Db} (h : db.SameTasks db') (hdb : db.WritesLegal) :
    db'.WritesLegal := fun e he => hdb e (h.statusWrites ▸ he)

theorem Db.WritesLegal.writeTask {db : Db} {id : Nat} {f : Task → Task} {hf : ∀ t, (f t).id = t.id}
    (h : db.WritesLegal) (hlegal : ∀ row, db.tasks.find? id = some row →
      (f row).status ≠ row.status → (f row).status ∈ validStatusTransitions row.status) :
    (db.writeTask id f hf).WritesLegal := by
  intro e he
  rcases hrow : db.tasks.find? id with _ | row
  · rw [Db.writeTask_of_none hrow] at he
    exact h e he
  · rw [Db.writeTask_log hrow] at he
    split at he
    · exact h e he
    · rename_i hne
      rcases List.mem_append.1 he with he | he
      · exact h e he
      · obtain rfl := List.mem_singleton.1 he
        exact hlegal row hrow hne

/-- The check of a transition that the write makes. -/
theorem transition_of_check {existing : Task} {input : UpdateTaskInput} {s : TaskStatus}
    (h : checkTransition existing input = .ok ()) (hs : input.status = some s)
    (hne : s ≠ existing.status) : s ∈ validStatusTransitions existing.status := by
  have hnext : nextStatus existing input = some s := by
    rw [nextStatus, hs, Option.filter_some, if_pos (by simpa using hne)]
  rw [checkTransition, hnext] at h
  simp only at h
  split at h
  · assumption
  · cases h

/-- Every change of the tasks writes legal transitions, an update if it finds the status that it
    was checked on. -/
theorem Point.TaskChange.writesLegal {env : Env} {now : Nat} {db db' : Db} {point : Point}
    (h : point.TaskChange env now db db') (hsound : point.Sound now)
    (hupdate : ∀ existing id input source row, point = .updateWrite existing id input source →
      db.tasks.find? id = some row → input.status.isSome = true → row.status = existing.status)
    (hdb : db.WritesLegal) : db'.WritesLegal := by
  cases h with
  | same h => exact h.writesLegal hdb
  | claim hrow hassignee hstatus =>
    refine hdb.writeTask fun row hrow' _ => ?_
    cases hrow.symm.trans hrow'
    rw [hstatus]
    exact List.mem_cons_self
  | renew => exact hdb.writeTask fun row _ hne => absurd rfl hne
  | @update existing id input source row db' hrow hcheck h =>
    refine h.writesLegal (hdb.writeTask fun row' hrow' hne => ?_)
    cases hrow.symm.trans hrow'
    simp only [UpdateTaskDTO.apply, updatesForRepo_status] at hne ⊢
    rcases hs : input.status with _ | s
    · rw [hs] at hne
      exact absurd rfl hne
    · have hread := hupdate existing id input source row rfl hrow (by rw [hs]; rfl)
      rw [hs, Option.getD_some] at hne
      rw [hread] at hne ⊢
      exact transition_of_check hsound hs hne
  | resize h => exact h.writesLegal (hdb.writeTask fun row _ hne => absurd rfl hne)
  | release hrow hassignee hstatus =>
    refine hdb.writeTask fun row hrow' _ => ?_
    cases hrow.symm.trans hrow'
    rw [hstatus]
    exact List.mem_of_getLast? rfl
  | cascade =>
    refine cascade_induction (I := Db.WritesLegal) (fun db i row s hI hrow hs => ?_) hdb
    refine hI.writeTask fun row' hrow' _ => ?_
    cases hrow.symm.trans hrow'
    exact hs
  | insert hcheck h => exact h.writesLegal hdb
  | delete => exact hdb

/-- `completed_at` is set on the tasks whose last write into done still stands, and on no other. -/
def Db.CompletedAtRight (db : Db) : Prop :=
  ∀ id row, db.tasks.find? id = some row →
    (row.completedAt.isSome = true ↔ DoneSince db.statusWrites id)

theorem Sys.statusHistory_step {s : Sys} {a : Action} (h : s.db.StatusHistory) :
    (s.step a).db.StatusHistory :=
  Sys.step_tasks h (fun _ h => ⟨h.1, h.2, h.3⟩) (fun _ h => ⟨h.1, h.2, h.3⟩)
    fun _ _ _ _ _ _ hchange => hchange.statusHistory

theorem writesLegal_step {s : Sys} {a : Action} (hsound : s.PointsSound) (h : s.db.WritesLegal)
    (hread : StatusUnchangedSinceRead s a) : (s.step a).db.WritesLegal := by
  refine Sys.step_tasks h (fun _ h => h) (fun _ h => h) fun p env point db' ha hpoint hchange => ?_
  refine hchange.writesLegal (hsound p point hpoint) fun existing id input source row hp hrow => ?_
  refine hread (existing, input, row) ?_
  subst ha
  simp only [Sys.updateOf, hpoint, hp, hrow, Option.map_some, Option.mem_some_iff]

/-- **Main theorem.** From the empty database, in every run and every state of it `completed_at`
    is set on exactly the tasks whose last write into done still stands; and if every update of a
    status finds the status that it was checked on, all status writes are legal. -/
theorem statusWrites_legal (now : Nat) (actions : List Action) :
    Always Sys.step (fun s => s.db.CompletedAtRight) (Sys.quiet .empty now) actions ∧
    (RunOk Sys.step StatusUnchangedSinceRead (Sys.quiet .empty now) actions →
      Always Sys.step (fun s => s.db.WritesLegal) (Sys.quiet .empty now) actions) := by
  constructor
  · have hall : RunOk Sys.step (fun _ _ => True) (Sys.quiet .empty now) actions :=
      .of_forall fun _ _ _ => trivial
    refine (hall.always (I := fun s => s.db.StatusHistory)
      (fun s a h _ => Sys.statusHistory_step h) ?_).mono fun s h id row hrow => ?_
    · exact ⟨fun _ _ h => (nomatch h), fun _ _ h => (nomatch h), fun _ h => (nomatch h)⟩
    · rw [h.completed id row hrow, h.since id row hrow]
  · intro h
    refine (h.always (I := fun s => s.PointsSound ∧ s.db.WritesLegal) ?_
      ⟨Sys.pointsSound_quiet _ now, fun _ h => nomatch h⟩).mono fun s hs => hs.2
    rintro s a ⟨hsound, hlegal⟩ hread
    exact ⟨hsound.step a, writesLegal_step hsound hlegal hread⟩
/-- Project 1 gets a task, which a worker claims. -/
def claimedTask : List Action :=
  [.addProject "project", .call 1 (.createTask { title := "task", projectId := 1, createdBy := "user" }),
    .step 1 .undisturbed, .step 1 .undisturbed, .step 1 .undisturbed, .step 1 .undisturbed,
    .call 1 (.claimTask 1 "worker" none .user), .step 1 .undisturbed, .step 1 .undisturbed]

/-- An update of the status alone. -/
def statusUpdate (status : TaskStatus) : UpdateTaskInput := { status := some status }

/-- The worker marks the task done, and nobody interferes. -/
theorem statusWrites_legal_undisturbed : Always Sys.step (fun s => s.db.WritesLegal)
    (Sys.quiet .empty 0) (claimedTask ++ [.call 1 (.updateTask 1 (statusUpdate .done) .user none),
      .step 1 .undisturbed, .step 1 .undisturbed, .step 1 .undisturbed]) :=
  (statusWrites_legal 0 _).2 (by decide +kernel)

/-- Two updates of the task have both been checked while it is in progress: process 1 is about to
    mark it done when process 2 blocks it. -/
def crossedUpdates : List Action :=
  claimedTask ++ [.call 1 (.updateTask 1 (statusUpdate .done) .user none), .step 1 .undisturbed,
    .call 2 (.updateTask 1 (statusUpdate .blocked) .user none), .step 2 .undisturbed,
    .step 2 .undisturbed, .step 1 .undisturbed]

/-- The blocked task is marked done. -/
theorem statusWrites_illegal : ¬ ((Sys.quiet .empty 0).run crossedUpdates).db.WritesLegal := by
  decide +kernel

end WoodFiredTasks
