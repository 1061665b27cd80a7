import WoodFiredTasks.Lib.Runs
import WoodFiredTasks.ProcessSteps

set_option autoImplicit false

/-! # The dependency graph has no cycle

`addDependency` reads all edges, checks that the new edge closes no cycle with them, and inserts
it in a statement of its own. The check is exact, so a run closes no cycle exactly when every
INSERT that goes through would still pass it; that is so when the edges stored at the INSERT are
among those that the call has read. Two processes that check at the same time can close one. -/

namespace WoodFiredTasks

open DependencyService

theorem edges_cascade (env : Env) (now n : Nat) (db : Db) (id : Nat) (parentTaskId : Option Nat) :
    (cascade env now n db id parentTaskId).edges = db.edges := by
  refine cascade_induction (I := fun db' => db'.edges = db.edges) (fun db' i row s h _ _ => ?_) rfl
  rw [← h, Db.setStatus, Db.edges_writeTask]

/-- Every effect but the INSERT of an edge keeps the graph acyclic. -/
theorem Point.Effect.acyclic {env : Env} {now : Nat} {db db' : Db} {point : Point}
    {next : Option Point} (h : point.Effect env now db db' next)
    (hinsert : ∀ taskId blocksTaskId existing, point = .insertEdge taskId blocksTaskId existing →
      (db.insertDependency taskId blocksTaskId now).DependenciesAcyclic)
    (hacyclic : db.DependenciesAcyclic) : db'.DependenciesAcyclic := by
  have hsame : db'.edges = db.edges → db'.DependenciesAcyclic := fun hedges =>
    hacyclic.mono fun a b hab => hedges ▸ hab
  cases point with
  | start call =>
    cases call with
    | removeDependency taskId blocksTaskId =>
      rw [h.1]
      exact hacyclic.mono fun a b => Db.mem_edges_of_deleteDependency
    | _ => exact hsame (congrArg Db.edges h.1)
  | claimUpdate path =>
    cases path with
    | fresh =>
      obtain ⟨-, row, -, -, -, rfl⟩ := h
      exact hsame Db.edges_writeTask
    | renewal =>
      obtain ⟨-, row, -, -, -, rfl⟩ := h
      exact hsame Db.edges_writeTask
  | updateWrite =>
    obtain ⟨⟨row, -, -, -, hkeep⟩, -⟩ := h
    exact hkeep hacyclic
  | sizeWrite => exact h.1.2.2 hacyclic
  | announce =>
    obtain ⟨-, rfl | ⟨-, -, rfl⟩⟩ := h
    · exact hacyclic
    · exact hsame (edges_cascade _ _ _ _ _ _)
  | release =>
    obtain ⟨rfl, -⟩ | ⟨-, row, -, -, -, rfl⟩ := h
    · exact hacyclic
    · exact hsame Db.edges_writeTask
  | insertEdge taskId blocksTaskId existing =>
    obtain ⟨-, -, rfl⟩ := h
    exact hinsert _ _ _ rfl
  | insertTask => exact h.1.2.2 hacyclic
  | deleteRow =>
    rw [h.1]
    exact hacyclic.mono fun a b => Db.mem_edges_of_deleteTask
  | renewReload => exact hsame (congrArg Db.edges h.1)
  | sizeRead => exact hsame (congrArg Db.edges h.1)
  | releaseReload => exact hsame (congrArg Db.edges h.1)
  | blockedTaskRead => exact hsame (congrArg Db.edges h.1)
  | cycleCheck => exact hsame (congrArg Db.edges h.1)

/-- The edge that a step inserts, if no error stops it, and the edges that its call has read. -/
def Sys.insertOf (s : Sys) : Action → Option ((Nat × Nat) × List Dependency)
  | .step p env =>
    match s.procs p with
    | some (.insertEdge taskId blocksTaskId existing) =>
      if env.faults 0 = none ∧ s.db.insertDependencyError taskId blocksTaskId = none then
        some ((taskId, blocksTaskId), existing)
      else none
    | _ => none
  | _ => none

theorem Sys.point_of_insertOf {s : Sys} {a : Action} {insert : (Nat × Nat) × List Dependency}
    (h : insert ∈ s.insertOf a) :
    ∃ p env, a = .step p env ∧
      s.procs p = some (.insertEdge insert.1.1 insert.1.2 insert.2) := by
  cases a with
  | step p env =>
    simp only [insertOf] at h
    split at h
    · rename_i taskId blocksTaskId existing hpoint
      split at h
      · obtain rfl := Option.some.inj h
        exact ⟨p, env, rfl, hpoint⟩
      · cases h
    · cases h
  | _ => cases h

/-- An INSERT that goes through would pass the check of its call on the edges stored now. -/
def InsertStillChecked (s : Sys) (a : Action) : Prop :=
  ∀ insert ∈ s.insertOf a, cycleCheck s.db.dependencies.rows insert.1.1 insert.1.2 = .ok ()

/-- An INSERT that goes through finds no edge that its call has not read. -/
def EdgesUnchangedSinceRead (s : Sys) (a : Action) : Prop :=
  ∀ insert ∈ s.insertOf a, ∀ d ∈ s.db.dependencies.rows, d ∈ insert.2

instance (s : Sys) (a : Action) : Decidable (EdgesUnchangedSinceRead s a) :=
  inferInstanceAs (Decidable (∀ insert ∈ s.insertOf a, _))

/-- The INSERT of an edge goes through or leaves the database as it is. -/
theorem Sys.step_insertEdge {s : Sys} {p : Nat} {env : Env} {taskId blocksTaskId : Nat}
    {existing : List Dependency}
    (hpoint : s.procs p = some (.insertEdge taskId blocksTaskId existing)) :
    (s.step (.step p env)).db =
      if env.faults 0 = none ∧ s.db.insertDependencyError taskId blocksTaskId = none then
        s.db.insertDependency taskId blocksTaskId s.now
      else s.db := by
  have hstep : (s.step (.step p env)).db =
      (s.result (.insertEdge taskId blocksTaskId existing) env).2.db := by
    simp only [Sys.step, hpoint, Sys.setPoint]
  rw [hstep, Sys.result, Point.segment, DependencyRepository.create, statement, Prog.run_bind,
    Prog.run_bind, Prog.run, call, World.start]
  rcases hfault : env.faults 0 with _ | e
  · rcases herror : s.db.insertDependencyError taskId blocksTaskId with _ | e
    · simp only [Prog.run_withState, herror]
      rfl
    · simp only [Prog.run_withState, herror]
      rfl
  · rfl

/-- A step closes no cycle exactly when its INSERT passes the check on the stored edges. -/
theorem acyclic_step_iff {s : Sys} {a : Action} (hacyclic : s.db.DependenciesAcyclic) :
    (s.step a).db.DependenciesAcyclic ↔ InsertStillChecked s a := by
  by_cases hinsert : ∃ p env taskId blocksTaskId existing, a = .step p env ∧
      s.procs p = some (.insertEdge taskId blocksTaskId existing)
  · obtain ⟨p, env, taskId, blocksTaskId, existing, rfl, hpoint⟩ := hinsert
    rw [Sys.step_insertEdge hpoint, InsertStillChecked, Sys.insertOf, hpoint]
    simp only
    split
    · rw [Db.acyclic_insertDependency_iff]
      simp only [Option.mem_some_iff, forall_eq']
    · exact iff_of_true hacyclic fun _ hnone => nomatch hnone
  · refine iff_of_true ?_ fun insert hmem => ?_
    · refine Sys.step_db (I := Db.DependenciesAcyclic) (fun _ => id) (fun _ => id)
        (fun p env point db' next ha hpoint heffect => heffect.acyclic ?_) hacyclic
      rintro t u e rfl
      exact absurd ⟨p, env, t, u, e, ha, hpoint⟩ hinsert
    · obtain ⟨p, env, ha, hpoint⟩ := Sys.point_of_insertOf hmem
      exact absurd ⟨p, env, _, _, _, ha, hpoint⟩ hinsert

/-- A check on more edges than are stored is a check on the stored ones. -/
theorem insertStillChecked_of_unchanged {s : Sys} {a : Action} (hs : s.PointsSound)
    (h : EdgesUnchangedSinceRead s a) : InsertStillChecked s a := by
  intro insert hinsert
  obtain ⟨p, env, -, hpoint⟩ := Sys.point_of_insertOf hinsert
  have hread : cycleCheck insert.2 insert.1.1 insert.1.2 = .ok () := hs p _ hpoint
  rw [cycleCheck_iff] at hread ⊢
  refine hread.mono fun a b hab => hab.imp_left fun hab => ?_
  exact List.map_subset _ (h insert hinsert) hab

/-- **Main theorem.** From a database without edges, the dependency graph is acyclic in every
    state of a run exactly when every INSERT that goes through would still pass the check of its
    call; in particular when it never finds an edge that its call has not read. -/
theorem dependencies_acyclic {db : Db} {now : Nat} {actions : List Action} (hedges : db.edges = []) :
    (Always Sys.step (fun s => s.db.DependenciesAcyclic) (Sys.quiet db now) actions ↔
      RunOk Sys.step InsertStillChecked (Sys.quiet db now) actions) ∧
    (RunOk Sys.step EdgesUnchangedSinceRead (Sys.quiet db now) actions →
      Always Sys.step (fun s => s.db.DependenciesAcyclic) (Sys.quiet db now) actions) := by
  have hstart : db.DependenciesAcyclic := by
    intro x hcycle
    obtain ⟨y, hxy, -⟩ := Relation.TransGen.head'_iff.1 hcycle
    rw [hedges] at hxy
    cases hxy
  have hrun : RunOk Sys.step InsertStillChecked (Sys.quiet db now) actions →
      Always Sys.step (fun s => s.db.DependenciesAcyclic) (Sys.quiet db now) actions := fun h =>
    h.always (fun s a hs ha => (acyclic_step_iff hs).2 ha) hstart
  refine ⟨⟨fun h => h.runOk fun s a hs hs' => (acyclic_step_iff hs).1 hs', hrun⟩, fun h => ?_⟩
  refine (h.always (I := fun s => s.PointsSound ∧ s.db.DependenciesAcyclic) ?_
    ⟨Sys.pointsSound_quiet db now, hstart⟩).mono fun s hs => hs.2
  rintro s a ⟨hsound, hacyclic⟩ ha
  exact ⟨hsound.step a, (acyclic_step_iff hacyclic).2 (insertStillChecked_of_unchanged hsound ha)⟩

/-- Two tasks and no edge. -/
def twoTasks : Db := Db.withTasks [plainTask .open none, plainTask .open none]

/-- A process that adds the edge 1 → 2 closes no cycle. -/
theorem dependencies_acyclic_oneEdge : Always Sys.step (fun s => s.db.DependenciesAcyclic)
    (Sys.quiet twoTasks 0) [.call 1 (.addDependency 1 2), .step 1 .undisturbed,
      .step 1 .undisturbed, .step 1 .undisturbed, .step 1 .undisturbed] :=
  (dependencies_acyclic rfl).2 (by decide +kernel)

/-- Two processes check the edges 1 → 2 and 2 → 1 before either has inserted its own. -/
def crossedBlocks : List Action :=
  [.call 1 (.addDependency 1 2), .call 2 (.addDependency 2 1),
    .step 1 .undisturbed, .step 1 .undisturbed, .step 1 .undisturbed,
    .step 2 .undisturbed, .step 2 .undisturbed, .step 2 .undisturbed,
    .step 1 .undisturbed, .step 2 .undisturbed]

/-- Both edges go in. -/
theorem dependencies_cyclic :
    ¬ ((Sys.quiet twoTasks 0).run crossedBlocks).db.DependenciesAcyclic := by
  intro hacyclic
  refine hacyclic 1 (.tail (.single (b := 2) ?_) ?_) <;> decide +kernel

end WoodFiredTasks
