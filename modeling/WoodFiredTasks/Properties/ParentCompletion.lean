import WoodFiredTasks.Services.CascadeRefinement

set_option autoImplicit false

/-! # Which parents the engine completes

The engine completes a parent when the children it has read are done, and it reads one page of
them. `parentCompletion_sound_iff` says exactly when that is right: at every parent that the
cascade completes, the children after the page must be done as well. -/

namespace WoodFiredTasks

open WorkflowEngine TaskService

/-- If the write is one into done, it found all children of the task done. -/
def StatusWrite.ChildrenDone (e : StatusWrite) : Prop :=
  e.toStatus = .done → ∀ t ∈ e.tasks, t.parentTaskId = some e.id → t.status = .done

instance (e : StatusWrite) : Decidable e.ChildrenDone :=
  inferInstanceAs (Decidable (_ → _))

/-- The children of a task that a default page leaves out. -/
def TaskRepository.unreadChildren (env : Env) (db : Db) (parentId : Nat) : List Task :=
  (childrenInOrder env db parentId).drop defaultPageLimit

/-- At every parent that the cascade comes to complete, the children on no page that it reads are
    done as well (the parent itself apart, should it be its own child). -/
def UnreadChildrenDone (env : Env) (now : Nat) : Nat → Db → Option Nat → Prop
  | 0, _, _ => True
  | n + 1, db, parentTaskId =>
    match nextParent env db parentTaskId with
    | none => True
    | some parent =>
      (∀ c ∈ TaskRepository.unreadChildren env db parent.id, c.id ≠ parent.id → c.isDone = true) ∧
        UnreadChildrenDone env now n (db.complete now parent) parent.parentTaskId

instance (env : Env) (now : Nat) : ∀ n db parentTaskId,
    Decidable (UnreadChildrenDone env now n db parentTaskId)
  | 0, _, _ => isTrue trivial
  | n + 1, db, parentTaskId =>
    match hnext : nextParent env db parentTaskId with
    | none => isTrue (by rw [UnreadChildrenDone, hnext]; trivial)
    | some parent =>
      have := instDecidableUnreadChildrenDone env now n (db.complete now parent) parent.parentTaskId
      decidable_of_iff ((∀ c ∈ TaskRepository.unreadChildren env db parent.id, c.id ≠ parent.id →
        c.isDone = true) ∧ UnreadChildrenDone env now n (db.complete now parent) parent.parentTaskId)
        (by rw [UnreadChildrenDone, hnext])

section Log

variable {env : Env} {now : Nat}

/-- All children are done once the page and the children after it are. -/
theorem children_done_iff {db : Db} {parent : Task}
    (hpage : (TaskRepository.childrenPage env db parent.id {}).all Task.isDone = true) :
    (∀ c ∈ TaskRepository.unreadChildren env db parent.id, c.id ≠ parent.id → c.isDone = true) ↔
      ∀ c ∈ db.tasks.rows, c.parentTaskId = some parent.id → c.id ≠ parent.id → c.isDone = true := by
  rw [TaskRepository.all_childrenPage, List.all_eq_true] at hpage
  constructor
  · intro hunread c hc hparent hne
    have hmem : c ∈ TaskRepository.childrenInOrder env db parent.id :=
      TaskRepository.mem_childrenInOrder.2 ⟨hc, hparent⟩
    rw [← List.take_append_drop defaultPageLimit (TaskRepository.childrenInOrder env db parent.id),
      List.mem_append] at hmem
    exact hmem.elim (hpage c) fun h => hunread c h hne
  · intro hall c hc hne
    obtain ⟨hrow, hparent⟩ := TaskRepository.mem_childrenInOrder.1 (List.mem_of_mem_drop hc)
    exact hall c hrow hparent hne

/-- The write that completes a parent found all children done, as far as the rows say. -/
theorem complete_childrenDone_iff {db : Db} {parent : Task}
    (h : db.tasks.find? parent.id = some parent) :
    (StatusWrite.mk parent.id .inProgress .done (db.complete now parent).tasks.rows).ChildrenDone ↔
      ∀ c ∈ db.tasks.rows, c.parentTaskId = some parent.id → c.id ≠ parent.id → c.isDone = true := by
  constructor
  · intro hsound c hc hparent hne
    have hfind : (db.complete now parent).tasks.find? c.id = some c := by
      rw [Db.find?_complete hne, Table.find?_key hc]
    exact Task.isDone_iff.2 (hsound rfl c (Table.find?_eq_some.1 hfind).1 hparent)
  · intro hall _ t ht hparent
    have hfind := Table.find?_key ht
    by_cases hid : t.id = parent.id
    · have hstatus : (db.complete now parent).status? t.id = _ := Db.status?_complete h
      rw [Db.status?, hfind, if_pos hid] at hstatus
      exact Option.some.inj hstatus
    · rw [Db.find?_complete hid] at hfind
      exact Task.isDone_iff.1 (hall t (Table.find?_eq_some.1 hfind).1 hparent hid)

/-- A write into another status says nothing about children. -/
theorem StatusWrite.childrenDone_of_ne {e : StatusWrite} (h : e.toStatus ≠ .done) :
    e.ChildrenDone := fun hdone => absurd hdone h

/-- The writes of a cascade found the children done exactly when no unread child was open. -/
theorem cascade_log (env : Env) (now n : Nat) (db : Db) (id : Nat) (parentTaskId : Option Nat) :
    ∃ new, (cascade env now n db id parentTaskId).statusWrites = db.statusWrites ++ new ∧
      ((∀ e ∈ new, e.ChildrenDone) ↔ UnreadChildrenDone env now n db parentTaskId) := by
  induction n generalizing db id parentTaskId with
  | zero => exact ⟨[], (List.append_nil _).symm, by simp [UnreadChildrenDone]⟩
  | succ n ih =>
    rw [cascade, UnreadChildrenDone]
    rcases hnext : nextParent env db parentTaskId with _ | parent
    · obtain ⟨new, hnew, hlog⟩ := db.unblockAll_log now id
      refine ⟨new, hlog, iff_of_true (fun e he => ?_) trivial⟩
      exact StatusWrite.childrenDone_of_ne (by simp [hnew e he])
    · obtain ⟨-, hfind, hc, hpage⟩ := nextParent_eq_some hnext
      obtain ⟨first, hfirst, hcomplete⟩ := Db.complete_log now hfind hc
      obtain ⟨inner, hinner, hiff⟩ :=
        ih (db.complete now parent) parent.id parent.parentTaskId
      obtain ⟨last, hlast, hlog⟩ :=
        (cascade env now n (db.complete now parent) parent.id parent.parentTaskId).unblockAll_log
          now id
      refine ⟨first ++ [⟨parent.id, .inProgress, .done, (db.complete now parent).tasks.rows⟩] ++
        inner ++ last, ?_, ?_⟩
      · simp only [hlog, hinner, hcomplete, List.append_assoc]
      · have hothers : ∀ {s : TaskStatus} {l : List StatusWrite}, s ≠ .done →
            (∀ e ∈ l, e.toStatus = s) → ∀ e ∈ l, e.ChildrenDone := fun hs hl e he =>
          StatusWrite.childrenDone_of_ne (by rwa [hl e he])
        simp only [List.forall_mem_append, List.forall_mem_singleton]
        rw [complete_childrenDone_iff hfind, ← children_done_iff hpage, hiff]
        constructor
        · rintro ⟨⟨⟨-, hunread⟩, hrest⟩, -⟩
          exact ⟨hunread, hrest⟩
        · rintro ⟨hunread, hrest⟩
          exact ⟨⟨⟨hothers (by decide) hfirst, hunread⟩, hrest⟩, hothers (by decide) hlast⟩

end Log

/-- **Main theorem.** The engine handles a task that has become done. The parents that it moves to
    done have all their children done at that moment, if and only if the cascade is rolled back
    (it then moves none) or no unread child of a parent that it comes to complete is still
    open. -/
theorem parentCompletion_sound_iff {event : BusEvent} {w : World} (hw : w.Idle)
    (he : event.eventType = .taskStatusChanged) (hdone : event.data.status = .done) :
    ∃ new, ((engine event).exec w).db.statusWrites = w.db.statusWrites ++ new ∧
      ((∀ e ∈ new, e.ChildrenDone) ↔ w.throws < ((engine event).exec w).throws ∨
        UnreadChildrenDone w.env w.now maxCascadeDepth w.db event.data.parentTaskId) := by
  obtain ⟨-, -, -, -, hend⟩ := engine_outcome he hw
  cases hend with
  | committed hthrows hview =>
    rw [View.handled, if_pos (Task.isDone_iff.2 hdone)] at hview
    have hdb : ((engine event).exec w).db = cascade w.env w.now maxCascadeDepth w.db event.data.id
        event.data.parentTaskId := congrArg View.db hview
    obtain ⟨new, hlog, hiff⟩ :=
      cascade_log w.env w.now maxCascadeDepth w.db event.data.id event.data.parentTaskId
    refine ⟨new, by rw [hdb, hlog], ?_⟩
    rw [hiff, hthrows, or_iff_right (lt_irrefl _)]
  | rolledBack hthrows hdb =>
    refine ⟨[], by rw [hdb, List.append_nil], ?_⟩
    exact iff_of_true (by simp) (.inl hthrows)

/-- A parent with one done child, which the engine completes rightly. -/
theorem parentCompletion_sound_iff_oneChild :
    ∃ new, ((engine (statusChangedEvent 0 ((plainTask .done (some 1)).row [] 0 2) .user .inProgress
      .done)).exec (World.start .undisturbed
        (Db.withTasks [plainTask .open none, plainTask .done (some 1)]) 0)).db.statusWrites = [] ++ new ∧
      ∀ e ∈ new, e.ChildrenDone := by
  obtain ⟨new, hlog, hiff⟩ := @parentCompletion_sound_iff
    (statusChangedEvent 0 ((plainTask .done (some 1)).row [] 0 2) .user .inProgress .done) _
    (World.idle_start .undisturbed (Db.withTasks [plainTask .open none, plainTask .done (some 1)]) 0)
    rfl rfl
  exact ⟨new, hlog, hiff.2 (.inr (by decide +kernel))⟩

/-- An open task with fifty done children and a fifty-first that is open. -/
def crowdedParent : Db :=
  Db.withTasks <|
    plainTask .open none :: List.replicate 50 (plainTask .done (some 1)) ++ [plainTask .open (some 1)]

/-- The change of the first child, task 2, to done. -/
def firstChildDone : BusEvent :=
  statusChangedEvent 0 ((plainTask .done (some 1)).row [] 0 2) .user .inProgress .done

/-- The engine completes the parent, the fifty-first child notwithstanding. -/
theorem parentCompletion_unsound : ¬ ∀ e ∈ ((engine firstChildDone).exec
    (World.start .undisturbed crowdedParent 0)).db.statusWrites, e.ChildrenDone := by
  decide +kernel

end WoodFiredTasks
