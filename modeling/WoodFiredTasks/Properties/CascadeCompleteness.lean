import WoodFiredTasks.Services.CascadeRefinement

set_option autoImplicit false

/-! # A committed cascade is complete

`cascade_complete` describes what a committed cascade has done by the two databases around it
alone: which parents are done now, which dependents are open now, and that nothing else has
changed its status. The induction behind it is on the levels of the cascade: it ends only at a
parent that is missing, has a child that is not done, or is in none of the statuses from which
it could be completed. -/

namespace WoodFiredTasks

open WorkflowEngine TaskService

/-- The task became done between two databases. -/
def CompletedBetween (db db' : Db) (id : Nat) : Prop :=
  db.status? id ≠ some .done ∧ db'.status? id = some .done

/-- The tasks that a cascade works from: the one that started it, and every task completed. -/
def ReachedBetween (db db' : Db) (origin id : Nat) : Prop :=
  id = origin ∨ CompletedBetween db db' id

/-- The task is the parent of a task that the cascade works from. -/
def ParentReached (db db' : Db) (origin id : Nat) : Prop :=
  ∃ c, ReachedBetween db db' origin c ∧ db.parent? c = some id

/-- The task depends on a task that the cascade works from. -/
def DependentReached (db db' : Db) (origin id : Nat) : Prop :=
  ∃ c, ReachedBetween db db' origin c ∧ (c, id) ∈ db.edges

section Pure

variable {env : Env} {now : Nat}

theorem parent?_complete {db : Db} {parent : Task} (h : db.tasks.find? parent.id = some parent)
    (hc : parent.completable = true) (j : Nat) :
    (db.complete now parent).parent? j = db.parent? j := by
  refine Db.complete_induction (I := fun db' => db'.parent? j = db.parent? j)
    (fun db' i row s hdb' hrow _ => ?_) rfl h hc
  rw [← hdb', Db.parent?, Db.parent?, Db.find?_setStatus]
  rcases db'.tasks.find? j with _ | t
  · rfl
  · by_cases hj : j = i <;> simp [hj]

theorem mem_edges_iff {db : Db} {i j : Nat} :
    (i, j) ∈ db.edges ↔ ∃ dep ∈ db.blocks i, dep.blocksTaskId = j := by
  simp only [Db.edges, Db.blocks, List.mem_map, List.mem_filter, Prod.mk.injEq, beq_iff_eq]
  constructor
  · rintro ⟨dep, hdep, hi, hj⟩
    exact ⟨dep, ⟨hdep, hi⟩, hj⟩
  · rintro ⟨dep, ⟨hdep, hi⟩, hj⟩
    exact ⟨dep, hdep, hi, hj⟩

/-- A parent that could be completed, all of whose children are done in the end, is completed. -/
theorem mem_completions {n : Nat} {db : Db} {parentTaskId : Option Nat} {p : Nat}
    (hlimit : hitsDepthLimit env now n db parentTaskId = false)
    (hp : parentTaskId = some p ∨
      ∃ c ∈ completions env now n db parentTaskId, db.parent? c = some p)
    (hstatus : db.status? p = some .open ∨ db.status? p = some .inProgress)
    (hchildren : ∀ c, db.parent? c = some p →
      (completeAll env now n db parentTaskId).status? c = some .done) :
    p ∈ completions env now n db parentTaskId := by
  induction n generalizing db parentTaskId with
  | zero => cases hlimit
  | succ n ih =>
    rw [hitsDepthLimit] at hlimit
    rw [completions] at hp ⊢
    rw [completeAll] at hchildren
    rcases hnext : nextParent env db parentTaskId with _ | parent
    · -- The cascade stops here, so `p` would be the parent that it stops at.
      rw [hnext] at hp hchildren
      simp only at hp hchildren
      have hid : parentTaskId = some p := hp.resolve_right (by simp)
      obtain ⟨row, hrow, hs⟩ : ∃ row, db.tasks.find? p = some row ∧ row.completable = true := by
        rcases hstatus with hs | hs <;> obtain ⟨row, hrow, hs⟩ := Option.map_eq_some_iff.1 hs <;>
          exact ⟨row, hrow, by simp [Task.completable, hs]⟩
      have hpos := Table.pos_of_find? hrow
      have hpage : (TaskRepository.childrenPage env db p {}).all Task.isDone = true := by
        rw [TaskRepository.all_childrenPage, List.all_eq_true]
        intro t ht
        obtain ⟨hmem, hparent⟩ := TaskRepository.mem_childrenInOrder.1 (List.mem_of_mem_take ht)
        have hfind := Table.find?_key hmem
        have hdone := hchildren t.id (by rw [Db.parent?, hfind, Option.bind_some, hparent])
        rw [Db.status?, hfind] at hdone
        exact Task.isDone_iff.2 (Option.some.inj hdone)
      have hpresent : presentId parentTaskId = some p := by
        rw [hid, presentId, Option.filter_some, if_pos (by simpa using hpos.ne')]
      rw [nextParent, hpresent, Option.bind_some, if_pos hpage, hrow, Option.filter_some,
        if_pos hs] at hnext
      cases hnext
    · obtain ⟨hid, hfind, hc, -⟩ := nextParent_eq_some hnext
      rw [hnext] at hlimit hp hchildren
      simp only at hlimit hp hchildren
      by_cases hpp : p = parent.id
      · simp [hpp]
      · -- One level up, `p` is the parent of the completed parent or of a later completion.
        refine List.mem_cons_of_mem _ (ih hlimit ?_ ?_ ?_)
        · rcases hp with hp | ⟨c, hmem, hcp⟩
          · exact absurd (Option.some.inj (hp.symm.trans hid)) hpp
          · rcases List.mem_cons.1 hmem with rfl | hmem
            · left
              rwa [Db.parent?, hfind, Option.bind_some] at hcp
            · exact .inr ⟨c, hmem, (parent?_complete hfind hc c).trans hcp⟩
        · rwa [Db.status?_complete hfind, if_neg hpp]
        · exact fun c hcp => hchildren c ((parent?_complete hfind hc c).symm.trans hcp)

/-- What became done is what was completed. -/
theorem completedBetween_cascade {n : Nat} {db : Db} {id : Nat} {parentTaskId : Option Nat}
    {j : Nat} : CompletedBetween db (cascade env now n db id parentTaskId) j ↔
      j ∈ completions env now n db parentTaskId := by
  rw [CompletedBetween, done_cascade, status?_completeAll]
  constructor
  · rintro ⟨hne, hdone⟩
    by_contra hmem
    rw [if_neg hmem] at hdone
    exact hne hdone
  · intro hmem
    refine ⟨fun hdone => ?_, if_pos hmem⟩
    rcases status?_of_mem_completions hmem with hs | hs <;> rw [hs] at hdone <;> cases hdone

theorem reachedBetween_cascade {n : Nat} {db : Db} {id : Nat} {parentTaskId : Option Nat} {j : Nat}
    (hlimit : hitsDepthLimit env now n db parentTaskId = false) :
    ReachedBetween db (cascade env now n db id parentTaskId) id j ↔
      j ∈ unblockers env now n db id parentTaskId := by
  rw [ReachedBetween, completedBetween_cascade, unblockers_eq hlimit, List.mem_cons]

/-- Every completed task is the parent that the cascade starts from or one of a completed task. -/
theorem parent_of_mem_completions {n : Nat} {db : Db} {parentTaskId : Option Nat} {p : Nat}
    (h : p ∈ completions env now n db parentTaskId) :
    parentTaskId = some p ∨ ∃ c ∈ completions env now n db parentTaskId, db.parent? c = some p := by
  induction n generalizing db parentTaskId with
  | zero => simp [completions] at h
  | succ n ih =>
    rw [completions] at h ⊢
    rcases hnext : nextParent env db parentTaskId with _ | parent
    · simp [hnext] at h
    · obtain ⟨hid, hfind, hc, -⟩ := nextParent_eq_some hnext
      rw [hnext] at h
      rcases List.mem_cons.1 h with rfl | hmem
      · exact .inl hid
      · right
        rcases ih hmem with hp | ⟨c, hc', hcp⟩
        · exact ⟨parent.id, List.mem_cons_self, by rw [Db.parent?, hfind, Option.bind_some, hp]⟩
        · exact ⟨c, List.mem_cons_of_mem _ hc', (parent?_complete hfind hc c).symm.trans hcp⟩

section Reached

variable {n : Nat} {db : Db} {id : Nat} {parentTaskId : Option Nat} {j : Nat}

theorem parentReached_cascade (hparent : db.parent? id = parentTaskId) :
    ParentReached db (cascade env now n db id parentTaskId) id j ↔ parentTaskId = some j ∨
      ∃ c ∈ completions env now n db parentTaskId, db.parent? c = some j := by
  constructor
  · rintro ⟨c, rfl | hc, hcj⟩
    · exact .inl (hparent.symm.trans hcj)
    · exact .inr ⟨c, completedBetween_cascade.1 hc, hcj⟩
  · rintro (h | ⟨c, hc, hcj⟩)
    · exact ⟨id, .inl rfl, hparent.trans h⟩
    · exact ⟨c, .inr (completedBetween_cascade.2 hc), hcj⟩

theorem dependentReached_cascade (hlimit : hitsDepthLimit env now n db parentTaskId = false) :
    DependentReached db (cascade env now n db id parentTaskId) id j ↔
      db.DependsOn (unblockers env now n db id parentTaskId) j := by
  simp only [DependentReached, Db.DependsOn, reachedBetween_cascade hlimit, mem_edges_iff]

/-- A blocked task is not one of the parents. -/
theorem not_mem_completions_of_blocked (h : db.status? j = some .blocked) :
    j ∉ completions env now n db parentTaskId := by
  intro hmem
  rcases status?_of_mem_completions hmem with hs | hs <;> rw [h] at hs <;> cases hs

theorem status?_cascade_of_blocked (h : db.status? j = some .blocked) :
    (cascade env now n db id parentTaskId).status? j =
      if db.DependsOn (unblockers env now n db id parentTaskId) j ∧
        (cascade env now n db id parentTaskId).unblocked j = true then some .open
      else some .blocked := by
  rw [status?_cascade, if_neg (not_mem_completions_of_blocked h), h, unblocked_cascade]
  simp only [true_and]

end Reached

end Pure

/-- **Main theorem.** A task has become done, and the cascade that its event starts commits (no
    statement of it throws) without meeting the depth limit. Then

    * every parent of the task or of a task completed in the cascade that was open or in progress
      and has all its children done is done;
    * every blocked task that depends on the task or on a completed one is open exactly if all its
      blockers are done, and the other blocked tasks are blocked still;
    * a task whose status has changed is such a parent, and done, or such a dependent, and open. -/
theorem cascade_complete {event : BusEvent} {w : World} {row : Task} (hw : w.Idle)
    (he : event.eventType = .taskStatusChanged)
    (hrow : w.db.tasks.find? event.data.id = some row) (hdata : event.data = row.inflate)
    (hdone : row.status = .done) (hcommit : ((engine event).exec w).throws = w.throws)
    (hlimit : ((engine event).exec w).depthLimitHit = false) :
    let db := w.db
    let db' := ((engine event).exec w).db
    (∀ p, ParentReached db db' row.id p →
      (db.status? p = some .open ∨ db.status? p = some .inProgress) →
      (∀ c, db'.parent? c = some p → db'.status? c = some .done) → db'.status? p = some .done) ∧
    (∀ t, db.status? t = some .blocked →
      (DependentReached db db' row.id t →
        (db'.status? t = some .open ↔ db'.unblocked t = true)) ∧
      (¬ (DependentReached db db' row.id t ∧ db'.unblocked t = true) →
        db'.status? t = some .blocked)) ∧
    (∀ t, db'.status? t ≠ db.status? t →
      (ParentReached db db' row.id t ∧
        (db.status? t = some .open ∨ db.status? t = some .inProgress) ∧
        db'.status? t = some .done) ∨
      (DependentReached db db' row.id t ∧ db.status? t = some .blocked ∧
        db'.status? t = some .open)) := by
  obtain ⟨-, -, -, -, hend⟩ := engine_outcome he hw
  obtain ⟨-, hview⟩ | ⟨hthrows, -, -, -⟩ := hend
  · have hid : event.data.id = row.id := by rw [hdata, Task.inflate_id]
    have hparent : w.db.parent? row.id = row.parentTaskId := by
      rw [Db.parent?, ← hid, hrow, Option.bind_some]
    rw [hdata, View.handled_inflate, View.handled, if_pos (Task.isDone_iff.2 hdone)] at hview
    have hdb : ((engine event).exec w).db = cascade w.env w.now maxCascadeDepth w.db row.id
        row.parentTaskId := congrArg View.db hview
    have hhits : hitsDepthLimit w.env w.now maxCascadeDepth w.db row.parentTaskId = false := by
      have h : ((engine event).exec w).depthLimitHit = _ := congrArg View.depthLimitHit hview
      rw [hlimit, View.cascaded, eq_comm, Bool.or_eq_false_iff] at h
      exact h.2
    simp only [hdb]
    refine ⟨fun p hp hs hchildren => ?_, fun t ht => ⟨fun hdep => ?_, fun hnot => ?_⟩,
      fun t hne => ?_⟩
    · have hmem := mem_completions hhits ((parentReached_cascade hparent).1 hp) hs fun c hc =>
        (done_cascade ..).1 (hchildren c ((parent?_cascade ..).trans hc))
      exact (completedBetween_cascade.2 hmem).2
    · rw [status?_cascade_of_blocked ht]
      by_cases hu : (cascade w.env w.now maxCascadeDepth w.db row.id row.parentTaskId).unblocked t
      · simp [hu, (dependentReached_cascade hhits).1 hdep]
      · simp [hu]
    · rw [dependentReached_cascade hhits] at hnot
      rw [status?_cascade_of_blocked ht, if_neg hnot]
    · by_cases hmem : t ∈ completions w.env w.now maxCascadeDepth w.db row.parentTaskId
      · left
        exact ⟨(parentReached_cascade hparent).2 (parent_of_mem_completions hmem),
          status?_of_mem_completions hmem, (completedBetween_cascade.2 hmem).2⟩
      · right
        rw [status?_cascade, if_neg hmem] at hne ⊢
        split at hne
        · rename_i h
          exact ⟨(dependentReached_cascade hhits).2 h.1, h.2.1, if_pos h⟩
        · exact absurd rfl hne
  · exact absurd hcommit hthrows.ne'

/-- Task 1 has the done child 2, and task 3 is blocked by task 1. -/
def familyWithDependent : Db :=
  (Db.withTasks [plainTask .open none, plainTask .done (some 1), plainTask .blocked none]
    ).insertDependency 1 3 0

/-- The change of task 2 completes its parent, which unblocks task 3. -/
theorem cascade_complete_family : ((engine (statusChangedEvent 0
    ((plainTask .done (some 1)).row [] 0 2) .user .inProgress .done)).exec
      (World.start .undisturbed familyWithDependent 0)).db.status? 3 = some .open := by
  have h := @cascade_complete (statusChangedEvent 0 ((plainTask .done (some 1)).row [] 0 2) .user
    .inProgress .done) _ ((plainTask .done (some 1)).row [] 0 2)
    (World.idle_start .undisturbed familyWithDependent 0) rfl (by decide +kernel)
    (by decide +kernel) rfl (by decide +kernel) (by decide +kernel)
  refine ((h.2.1 3 (by decide +kernel)).1 ⟨1, .inr ⟨?_, ?_⟩, ?_⟩).2 ?_ <;> decide +kernel

end WoodFiredTasks
