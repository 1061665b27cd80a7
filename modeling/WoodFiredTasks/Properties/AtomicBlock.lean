import Mathlib.Data.List.Count
import WoodFiredTasks.ProcessSteps

set_option autoImplicit false

/-! # Blocking a task with its edges

`updateTask` with `blocked_by` adds the edges and writes the row in one transaction. Whatever
throws inside it takes everything back; after a normal end the row is blocked and each listed edge
is there once. What follows the transaction is a transaction of its own: a call that also changes
the minutes of a row with a derived size sizes it again, and a statement that throws there fails
the call with the block in place. -/

namespace WoodFiredTasks

open TaskService

/-! ## Adding the edges -/

/-- The edge of a row of `task_dependencies`. -/
def Dependency.edge (d : Dependency) : Nat × Nat := (d.taskId, d.blocksTaskId)

/-- The given edges were appended; if there were any, the whole graph was checked. -/
structure Db.EdgesAppended (db : Db) (edges : List (Nat × Nat)) (db' : Db) : Prop where
  rows : ∃ added, db'.dependencies.rows = db.dependencies.rows ++ added ∧
    added.map Dependency.edge = edges
  tasks : db'.tasks = db.tasks
  acyclic : db.DependenciesAcyclic ∨ edges ≠ [] → db'.DependenciesAcyclic

theorem Db.EdgesAppended.refl (db : Db) : db.EdgesAppended [] db where
  rows := ⟨[], by simp, rfl⟩
  tasks := rfl
  acyclic h := by simpa using h

theorem Db.EdgesAppended.trans {a b c : Db} {edges edges' : List (Nat × Nat)}
    (h : a.EdgesAppended edges b) (h' : b.EdgesAppended edges' c) :
    a.EdgesAppended (edges ++ edges') c where
  rows := by
    obtain ⟨added, hrows, hedges⟩ := h.rows
    obtain ⟨added', hrows', hedges'⟩ := h'.rows
    refine ⟨added ++ added', ?_, ?_⟩
    · rw [hrows', hrows, List.append_assoc]
    · rw [List.map_append, hedges, hedges']
  tasks := h'.tasks.trans h.tasks
  acyclic hstart := by
    by_cases hnil : edges' = []
    · -- the last check was the one of the first part
      apply h'.acyclic
      left
      apply h.acyclic
      simpa [hnil] using hstart
    · exact h'.acyclic (.inr hnil)

/-- One `addDependency`. -/
theorem addDependency_appends (taskId blocksTaskId : Nat) :
    Spec (DependencyService.addDependency taskId blocksTaskId)
      (fun v _ db => v.db.EdgesAppended [(taskId, blocksTaskId)] db) Unchanged := by
  refine (DependencyService.addDependency_spec taskId blocksTaskId).post ?_
  intro v _ db h
  obtain ⟨rfl, hcheck⟩ := h
  exact ⟨⟨[newDependency taskId blocksTaskId v.now v.db.dependencies.next], rfl, rfl⟩, rfl,
    fun _ => Db.acyclic_insertDependency_iff.2 hcheck⟩

/-- The loop over the blockers. -/
theorem addEach_appends (id : Nat) (skip blockerIds : List Nat) :
    Spec (Prog.forEach blockerIds fun blockerId =>
        if blockerId ∈ skip then pure ()
        else DependencyService.addDependency blockerId id >>= fun _ => pure ())
      (fun v _ db => v.db.EdgesAppended
        ((blockerIds.filter (· ∉ skip)).map fun blockerId => (blockerId, id)) db)
      fun _ _ => True := by
  induction blockerIds with
  | nil =>
    refine (Spec.pure _).post ?_
    intro v _ db h
    rw [h.2]
    exact .refl _
  | cons b rest ih =>
    have hbody : Spec (if b ∈ skip then pure ()
        else DependencyService.addDependency b id >>= fun _ => pure ())
        (fun v _ db => v.db.EdgesAppended
          (([b].filter (· ∉ skip)).map fun blockerId => (blockerId, id)) db) fun _ _ => True := by
      by_cases hb : b ∈ skip
      · rw [if_pos hb]
        refine (Spec.pure ()).post ?_
        intro v _ db h
        rw [h.2]
        simpa [hb] using Db.EdgesAppended.refl v.db
      · rw [if_neg hb]
        refine ((addDependency_appends b id).bind fun _ =>
          Spec.pure (E := Unchanged) ()).conseq ?_ fun _ _ _ => trivial
        intro v _ db h
        obtain ⟨_, db', hadded, -, rfl⟩ := h
        simpa [hb] using hadded
    refine (hbody.bind fun _ => ih).conseq ?_ fun _ _ _ => trivial
    intro v _ db h
    obtain ⟨_, db', hfirst, hrest⟩ := h
    have hall := hfirst.trans hrest
    rwa [← List.map_append, ← List.filter_append] at hall

/-- The listed blockers whose edge is not stored yet, each once. -/
def Db.newBlockers (db : Db) (id : Nat) (blockerIds : List Nat) : List Nat :=
  blockerIds.eraseDups.filter fun b => !db.edges.contains (b, id)

/-- The edges of the list that are not there yet are appended. -/
theorem addBlockers_appends (id : Nat) (blockerIds : List Nat) : Spec (addBlockers id blockerIds)
    (fun v _ db => v.db.EdgesAppended
      ((v.db.newBlockers id blockerIds).map fun b => (b, id)) db) fun _ _ => True := by
  refine (Spec.bind (Spec.query fun db => db.blockers id) fun blockers =>
    addEach_appends id (blockers.map (·.taskId)) blockerIds.eraseDups).conseq ?_
      fun _ _ _ => trivial
  intro v _ db h
  obtain ⟨_, _, ⟨rfl, rfl⟩, happend⟩ := h
  have hskip : ∀ b, b ∈ (v.db.blockers id).map (·.taskId) ↔ (b, id) ∈ v.db.edges := by
    intro b
    simp only [Db.blockers, Db.edges, List.mem_map, List.mem_filter, beq_iff_eq, Prod.mk.injEq]
    constructor
    · rintro ⟨d, ⟨hd, hid⟩, rfl⟩
      exact ⟨d, hd, rfl, hid⟩
    · rintro ⟨d, hd, rfl, hid⟩
      exact ⟨d, ⟨hd, hid⟩, rfl⟩
  have hnew : v.db.newBlockers id blockerIds =
      blockerIds.eraseDups.filter fun b => b ∉ (v.db.blockers id).map (·.taskId) := by
    refine List.filter_congr fun b _ => ?_
    simp only [hskip, List.contains_eq_mem, decide_not]
  rw [hnew]
  exact happend

/-! ## Writing the row -/

/-- The program has returned the row as it is stored, with its status. -/
def Db.Stored (db : Db) (id : Nat) (t : Task) : Prop :=
  ∃ row, db.tasks.find? id = some row ∧ t = row.inflate

/-- The write of the row returns what it stores and leaves the edges alone. -/
theorem performWrite_stored (existing : Task) (id : Nat) (input : UpdateTaskInput) :
    Spec (performWrite existing id input)
      (fun v t db => db.dependencies = v.db.dependencies ∧ db.Stored id t ∧
        ∀ status ∈ input.status, t.status = status) Unchanged := by
  have hupdate : Spec (TaskRepository.update id (updatesForRepo existing input))
      (fun v t db => db.dependencies = v.db.dependencies ∧ db.Stored id t ∧
        ∀ status ∈ input.status, t.status = status) Unchanged := by
    refine (TaskRepository.update_spec id _).post ?_
    intro v t db h
    obtain ⟨row, hrow, -, rfl, rfl⟩ := h
    refine ⟨by rw [Db.applyUpdate, Db.writeTask_dependencies], ⟨_, ?_, rfl⟩, ?_⟩
    · rw [Db.applyUpdate, Db.find?_writeTask_self, hrow]
      rfl
    · intro status hstatus
      show ((updatesForRepo existing input).status).getD row.status = status
      rw [updatesForRepo_status, hstatus, Option.getD_some]
  rw [performWrite]
  cases input.wsjf.join with
  | none => exact hupdate
  | some w =>
    refine Spec.transaction ((hupdate.bind fun updated =>
      (Spec.statement _ _ _).bind fun _ => Spec.pure (E := Unchanged) updated).post ?_)
    intro v t db h
    obtain ⟨_, db', ⟨hdependencies, hstored, hstatus⟩, _, _, ⟨-, -, rfl⟩, rfl, rfl⟩ := h
    exact ⟨hdependencies, hstored, hstatus⟩

/-- What a call that blocks a task leaves behind when it ends normally. -/
structure Db.Blocked (db : Db) (id : Nat) (blockerIds : List Nat) (db' : Db) : Prop where
  status : db'.status? id = some .blocked
  /-- Every listed edge is there, once. -/
  listed : db.edges.Nodup → ∀ b ∈ blockerIds, db'.edges.count (b, id) = 1
  /-- The stored edges stay as they are. -/
  kept : db.dependencies.rows <+: db'.dependencies.rows
  /-- There are no edges but the listed ones and those of before. -/
  others : ∀ e ∈ db'.edges, e ∈ db.edges ∨ ∃ b ∈ blockerIds, e = (b, id)
  acyclic : (db.DependenciesAcyclic ∨ ∃ b ∈ blockerIds, (b, id) ∉ db.edges) →
    db'.DependenciesAcyclic

theorem Db.mem_newBlockers {db : Db} {id b : Nat} {blockerIds : List Nat} :
    b ∈ db.newBlockers id blockerIds ↔ b ∈ blockerIds ∧ (b, id) ∉ db.edges := by
  simp [newBlockers]

theorem nodup_eraseDups (ids : List Nat) : ids.eraseDups.Nodup := by
  induction hlength : ids.length using Nat.strong_induction_on generalizing ids with
  | _ n ih =>
    cases ids with
    | nil => simp
    | cons a rest =>
      have hlt : (rest.filter fun b => !(b == a)).length < n := by
        have := List.length_filter_le (fun b => !(b == a)) rest
        simp only [List.length_cons] at hlength
        omega
      rw [List.eraseDups_cons, List.nodup_cons, List.mem_eraseDups]
      exact ⟨by simp, ih _ hlt _ rfl⟩

theorem Db.nodup_newBlockers (db : Db) (id : Nat) (blockerIds : List Nat) :
    (db.newBlockers id blockerIds).Nodup := (nodup_eraseDups blockerIds).filter _

theorem Db.count_newEdges (db : Db) (id b : Nat) (blockerIds : List Nat) :
    ((db.newBlockers id blockerIds).map fun b => (b, id)).count (b, id)
      = if b ∈ db.newBlockers id blockerIds then 1 else 0 := by
  have hinj : Function.Injective fun b : Nat => (b, id) := by
    intro x y h
    exact (Prod.mk.inj h).1
  have hcount := List.count_map_of_injective (db.newBlockers id blockerIds) _ hinj b
  rw [hcount, List.Nodup.count (db.nodup_newBlockers id blockerIds)]

/-- Later statements that leave the edges and the status alone. -/
theorem Db.Blocked.of_same {db db' db'' : Db} {id : Nat} {blockerIds : List Nat}
    (h : db.Blocked id blockerIds db') (hdependencies : db''.dependencies = db'.dependencies)
    (hstatus : db''.status? id = db'.status? id) : db.Blocked id blockerIds db'' := by
  have hedges : db''.edges = db'.edges := by rw [Db.edges, Db.edges, hdependencies]
  constructor
  · exact hstatus.trans h.status
  · rw [hedges]
    exact h.listed
  · rw [hdependencies]
    exact h.kept
  · rw [hedges]
    exact h.others
  · intro hstart
    have hacyclic := h.acyclic hstart
    rwa [Db.DependenciesAcyclic, ← hedges] at hacyclic

/-- Appended edges and a blocked row. -/
theorem Db.EdgesAppended.blocked {db db₁ db' : Db} {id : Nat} {blockerIds : List Nat}
    (h : db.EdgesAppended ((db.newBlockers id blockerIds).map fun b => (b, id)) db₁)
    (hdependencies : db'.dependencies = db₁.dependencies)
    (hstatus : db'.status? id = some .blocked) : db.Blocked id blockerIds db' := by
  obtain ⟨added, hrows, hnew⟩ := h.rows
  have hrows' : db'.dependencies.rows = db.dependencies.rows ++ added := by
    rw [hdependencies, hrows]
  have hedges : db'.edges = db.edges ++ (db.newBlockers id blockerIds).map fun b => (b, id) := by
    rw [← hnew]
    show db'.dependencies.rows.map Dependency.edge = _
    rw [hrows', List.map_append]
    rfl
  constructor
  · exact hstatus
  · intro hnodup b hb
    rw [hedges, List.count_append, db.count_newEdges]
    by_cases hold : (b, id) ∈ db.edges
    · rw [List.count_eq_one_of_mem hnodup hold, if_neg]
      intro hmem
      exact (Db.mem_newBlockers.1 hmem).2 hold
    · rw [List.count_eq_zero.2 hold, if_pos (Db.mem_newBlockers.2 ⟨hb, hold⟩)]
  · exact ⟨added, hrows'.symm⟩
  · intro e he
    rw [hedges, List.mem_append, List.mem_map] at he
    obtain hold | ⟨b, hb, rfl⟩ := he
    · exact .inl hold
    · exact .inr ⟨b, (Db.mem_newBlockers.1 hb).1, rfl⟩
  · intro hstart
    have hsame : db'.DependenciesAcyclic ↔ db₁.DependenciesAcyclic := by
      rw [Db.DependenciesAcyclic, Db.DependenciesAcyclic, Db.edges, Db.edges, hdependencies]
    rw [hsame]
    apply h.acyclic
    obtain hacyclic | ⟨b, hb, hnot⟩ := hstart
    · exact .inl hacyclic
    · exact .inr (List.ne_nil_of_mem (List.mem_map_of_mem (Db.mem_newBlockers.2 ⟨hb, hnot⟩)))

/-- **The transaction.** It blocks the task with its edges, or writes nothing. -/
theorem writeUpdate_blocked (existing : Task) (id : Nat) {input : UpdateTaskInput}
    {blockerIds : List Nat} (hblockers : input.blockedBy = some blockerIds)
    (hstatus : input.status = some .blocked) :
    Spec (writeUpdate existing id input)
      (fun v t db => v.db.Blocked id blockerIds db ∧ db.Stored id t ∧ t.status = .blocked)
      Unchanged := by
  rw [writeUpdate, hblockers]
  refine Spec.transaction (((addBlockers_appends id blockerIds).bind fun _ =>
    performWrite_stored existing id input).post ?_)
  intro v t db h
  obtain ⟨_, db', happend, hdependencies, ⟨row, hrow, rfl⟩, hset⟩ := h
  have hblocked := hset .blocked hstatus
  refine ⟨happend.blocked hdependencies ?_, ⟨row, hrow, rfl⟩, hblocked⟩
  rw [Db.status?, hrow]
  exact congrArg some hblocked

/-! ## The rest of the call -/

/-- The recomputation of the size returns what it stores and touches neither the edges nor a
    status. -/
theorem resizeAfterUpdate_stored (existing : Task) (id : Nat) (input : UpdateTaskInput)
    (updated : Task) : Spec (resizeAfterUpdate existing id input updated)
      (fun v t db => db.dependencies = v.db.dependencies ∧ db.status? id = v.db.status? id ∧
        (v.db.Stored id updated → db.Stored id t)) Unchanged := by
  rw [resizeAfterUpdate]
  by_cases hneeds : needsResize existing input = true
  · rw [if_pos hneeds]
    have hwrite : ∀ before : Task, Spec (autoSizeWrite id before
        (minutesToTier input.estimatedMinutes.join)) (fun v t db =>
          db.dependencies = v.db.dependencies ∧ db.status? id = v.db.status? id ∧ db.Stored id t)
        Unchanged := by
      intro before
      refine Spec.transaction (((TaskRepository.writeAutoJobSize_spec id _ autoSource).bind
        fun updated => (Spec.statement _ _ _).bind fun _ =>
          Spec.pure (E := Unchanged) updated).post ?_)
      intro v t db h
      obtain ⟨_, _, ⟨row, hrow, rfl, rfl⟩, _, _, ⟨-, -, rfl⟩, rfl, rfl⟩ := h
      have hfind : (v.db.writeTask id
          (Task.autoJobSize (minutesToTier input.estimatedMinutes.join) autoSource v.now)
          (Task.autoJobSize_id _ _ _)).tasks.find? id = some (row.autoJobSize
            (minutesToTier input.estimatedMinutes.join) autoSource v.now) := by
        rw [Db.find?_writeTask_self, hrow, Option.map_some]
      refine ⟨by simp [Db.appendHistory], ?_, ⟨_, hfind, rfl⟩⟩
      show ((Db.writeTask _ _ _ _).tasks.find? id).map (·.status) = _
      rw [hfind, Db.status?, hrow]
      rfl
    refine (Spec.bindUnchanged (requireTask_spec id) hwrite).post ?_
    intro v t db h
    obtain ⟨_, -, hdependencies, hstatus, hstored⟩ := h
    exact ⟨hdependencies, hstatus, fun _ => hstored⟩
  · rw [if_neg hneeds]
    refine (Spec.pure updated).post ?_
    intro v t db h
    obtain ⟨rfl, rfl⟩ := h
    exact ⟨rfl, rfl, fun h => h⟩

/-- A row with the given id can be sized if no statement throws. -/
theorem resizeAfterUpdate_succeeds (existing : Task) (id : Nat) (input : UpdateTaskInput)
    (updated : Task) : Succeeds (fun v => (v.db.tasks.find? id).isSome = true)
      (resizeAfterUpdate existing id input updated) := by
  rw [resizeAfterUpdate]
  by_cases hneeds : needsResize existing input = true
  · rw [if_pos hneeds]
    refine Succeeds.bind (R := fun _ v => (v.db.tasks.find? id).isSome = true)
      (requireTask_succeeds id) (requireTask_spec id) (fun before => ?_) ?_
    · exact Succeeds.transaction (Succeeds.bind (R := fun _ _ => True)
        (TaskRepository.writeAutoJobSize_succeeds id _ _) (TaskRepository.writeAutoJobSize_spec id _ _) (fun _ =>
          Succeeds.bind (R := fun _ _ => True) (Succeeds.statement fun _ _ => rfl)
            (Spec.statement _ _ _) (fun _ => Succeeds.pure _) fun _ _ _ _ _ => trivial)
        fun _ _ _ _ _ => trivial)
    · intro v t db hv ht
      rw [ht.2]
      exact hv
  · rw [if_neg hneeds]
    exact Succeeds.pure updated

theorem status_of_checkUpdate {env : Env} {input : UpdateTaskInput}
    (h : checkUpdate env input = .ok ()) (hblockers : input.blockedBy.isSome = true) :
    input.status = some .blocked := by
  unfold checkUpdate at h
  rcases hparse : TaskSchema.parse (TaskSchema.updateTask env input) with e | _
  · rw [hparse] at h
    cases h
  · rw [hparse] at h
    by_contra hstatus
    have hguard : input.blockedBy.isSome = true ∧ input.status ≠ some .blocked :=
      ⟨hblockers, hstatus⟩
    simp only [if_pos hguard] at h
    cases h

/-- What a call with `blocked_by` comes to. -/
structure BlockOutcome (w : World) (id : Nat) (input : UpdateTaskInput) (blockerIds : List Nat)
    (r : Except Err Task × World) : Prop where
  ok : ∀ t, r.1 = .ok t → w.db.Blocked id blockerIds r.2.db ∧ t.status = .blocked
  error : ∀ e, r.1 = .error e → r.2.db = w.db ∨
    (w.db.Blocked id blockerIds r.2.db ∧
      (∃ row, w.db.tasks.find? id = some row ∧ needsResize row.inflate input = true) ∧
      ∃ n, w.env.faults n ≠ none)

theorem BlockOutcome.of_error {w w' : World} {id : Nat} {input : UpdateTaskInput}
    {blockerIds : List Nat} {e : Err} (h : w'.db = w.db ∨
      (w.db.Blocked id blockerIds w'.db ∧
        (∃ row, w.db.tasks.find? id = some row ∧ needsResize row.inflate input = true) ∧
        ∃ n, w.env.faults n ≠ none)) : BlockOutcome w id input blockerIds (.error e, w') where
  ok t ht := by cases ht
  error _ _ := h

theorem BlockOutcome.of_ok {w w' : World} {id : Nat} {input : UpdateTaskInput}
    {blockerIds : List Nat} {t : Task} (h : w.db.Blocked id blockerIds w'.db)
    (ht : t.status = .blocked) : BlockOutcome w id input blockerIds (.ok t, w') where
  ok t' ht' := by
    obtain rfl : t = t' := Except.ok.inj ht'
    exact ⟨h, ht⟩
  error e he := by cases he

/-- The calls after the transaction. -/
theorem finish_blockOutcome {env : Env} {db : Db} {now id : Nat} {row written : Task}
    {input : UpdateTaskInput} {source : EventSource} {blockerIds : List Nat} {w : World}
    (hrow : db.tasks.find? id = some row) (henv : w.env = env) (hidle : w.Idle)
    (hblocked : db.Blocked id blockerIds w.db) (hstored : w.db.Stored id written) :
    BlockOutcome (World.start env db now) id input blockerIds
      ((resizeAfterUpdate row.inflate id input written >>= fun updated =>
        announceUpdate WorkflowEngine.engine row.inflate updated input source >>= fun _ =>
          pure updated).run w) := by
  have hspec := resizeAfterUpdate_stored row.inflate id input written
  rw [Prog.run_bind]
  rcases hresize : (resizeAfterUpdate row.inflate id input written).run w with ⟨e | updated, w'⟩
  · -- only a statement of the sizing can throw here
    have hunchanged : w'.db = w.db := (hspec.error hresize).2.2
    have hneeds : needsResize row.inflate input = true := by
      by_contra hno
      rw [resizeAfterUpdate, if_neg hno] at hresize
      cases hresize
    refine .of_error (.inr ⟨hunchanged ▸ hblocked, ⟨row, hrow, hneeds⟩, ?_⟩)
    by_contra hnone
    have hfaults : ∀ n, w.env.faults n = none := by
      intro n
      rw [henv]
      exact not_not.1 fun h => hnone ⟨n, h⟩
    obtain ⟨row', hrow', -⟩ := hstored
    have hthere : (w.view.db.tasks.find? id).isSome = true := Option.isSome_iff_exists.2 ⟨row', hrow'⟩
    obtain ⟨t, w'', hok, -⟩ :=
      resizeAfterUpdate_succeeds row.inflate id input written w hfaults hthere
    rw [hresize] at hok
    cases hok
  · obtain ⟨hw', hdependencies, hsame, hkept⟩ := hspec.ok hresize
    have hblocked' := hblocked.of_same hdependencies hsame
    have hupdated : updated.status = .blocked := by
      obtain ⟨row', hrow', rfl⟩ := hkept hstored
      have hstatus := hblocked'.status
      rw [Db.status?, hrow'] at hstatus
      exact Option.some.inj hstatus
    obtain ⟨w'', hemit, hdb⟩ :=
      announceUpdate_ends row.inflate updated input source (hidle.sql hw')
    have hdb' : w''.db = w'.db := by
      obtain h | ⟨-, hdone, -⟩ := hdb
      · exact h
      · rw [hupdated] at hdone
        cases hdone
    show BlockOutcome _ _ _ _ (Prog.run (_ >>= _) w')
    rw [Prog.run_bind_ok hemit]
    exact .of_ok (hdb' ▸ hblocked') hupdated

/-- **Main theorem.** A call with `blocked_by` that ends normally has blocked the task with its
    edges. One that fails has written nothing, unless a statement threw while it sized the task
    again: then the block is in place as after a normal end. -/
theorem updateTask_blockOutcome (env : Env) (db : Db) (now id : Nat) (input : UpdateTaskInput)
    (source : EventSource) (callerId : Option String) (blockerIds : List Nat)
    (hblockers : input.blockedBy = some blockerIds) :
    BlockOutcome (World.start env db now) id input blockerIds
      ((updateTask WorkflowEngine.engine id input source callerId).run
        (World.start env db now)) := by
  have hidle := World.idle_start env db now
  rw [updateTask, Prog.run_bind]
  rcases hread : (readUpdate id input callerId).run (World.start env db now) with ⟨e | existing, w₁⟩
  · exact .of_error (.inl ((readUpdate_spec id input callerId).error hread).2.2)
  · obtain ⟨hw₁, ⟨⟨row, hrow, rfl⟩, hcheck, -⟩, hdb₁⟩ := (readUpdate_spec id input callerId).ok hread
    replace hdb₁ : w₁.db = db := hdb₁
    have hstatus := status_of_checkUpdate hcheck (by rw [hblockers]; rfl)
    have hwriteSpec := writeUpdate_blocked row.inflate id hblockers hstatus
    show BlockOutcome _ _ _ _ (Prog.run (_ >>= _) w₁)
    rw [Prog.run_bind]
    rcases hwrite : (writeUpdate row.inflate id input).run w₁ with ⟨e | written, w₂⟩
    · have hunchanged : w₂.db = w₁.db := (hwriteSpec.error hwrite).2.2
      exact .of_error (.inl (hunchanged.trans hdb₁))
    · obtain ⟨hw₂, hblocked, hstored, -⟩ := hwriteSpec.ok hwrite
      replace hblocked : db.Blocked id blockerIds w₂.db := hdb₁ ▸ hblocked
      have henv : w₂.env = env := (congrArg World.env hw₂).trans (congrArg World.env hw₁)
      exact finish_blockOutcome hrow henv ((hidle.sql hw₁).sql hw₂) hblocked hstored

/-- Task 2 is blocked on task 1. -/
def blockOnFirst : UpdateTaskInput :=
  { status := some .blocked, blockedBy := some [1], estimatedMinutes := some (some 60) }

/-- Two open tasks; the size of the second is derived from its minutes. -/
def sizedPair : Db :=
  ((Db.oneProject.insertTask (plainTask .open none) [] 0).insertTask (plainTask .open none) []
    0).writeTask 2
    (Task.autoJobSize .three autoSource 0) (Task.autoJobSize_id _ _ _)

theorem updateTask_blockOutcome_pair :
    BlockOutcome (World.start .undisturbed sizedPair 0) 2 blockOnFirst [1]
      ((updateTask WorkflowEngine.engine 2 blockOnFirst .user none).run
        (World.start .undisturbed sizedPair 0)) :=
  updateTask_blockOutcome .undisturbed sizedPair 0 2 blockOnFirst .user none [1] rfl

/-- The call fails and has changed neither the edges nor the row, or the task is blocked. -/
def AllOrNothing (w : World) (id : Nat) (blockerIds : List Nat) (r : Except Err Task × World) :
    Prop :=
  (r.1.isOk = false ∧ r.2.db.edges = w.db.edges ∧
      r.2.db.tasks.find? id = w.db.tasks.find? id) ∨
    (r.1.isOk = true ∧ w.db.Blocked id blockerIds r.2.db)

/-- The fifteenth statement, the BEGIN of the sizing, finds the database busy. -/
def Env.busySizing : Env :=
  { Env.undisturbed with faults := fun n => if n = 14 then some (.sqlite "SQLITE_BUSY") else none }

/-- The call fails, and task 1 blocks task 2. -/
theorem busy_sizing :
    ¬ AllOrNothing (World.start .busySizing sizedPair 0) 2 [1]
      ((updateTask WorkflowEngine.engine 2 blockOnFirst .user none).run
        (World.start .busySizing sizedPair 0)) := by
  intro h
  obtain ⟨-, hedges, -⟩ | ⟨hok, -⟩ := h
  · exact absurd hedges (by decide +kernel)
  · exact absurd hok (by decide +kernel)

end WoodFiredTasks
