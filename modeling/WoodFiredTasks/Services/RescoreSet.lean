import WoodFiredTasks.Properties.Ranking
import WoodFiredTasks.Services.WsjfRescore

set_option autoImplicit false

/-! # What a rescore starts from

`collectRescoreSet` of `src/services/wsjf-rescore.service.ts`: the scored tasks of a project, its
charter, and for each of the tasks how many others wait for it. -/

namespace WoodFiredTasks

structure RescoreGraphSignal where
  taskId : Nat
  transitiveDependents : Nat
  deriving DecidableEq, Repr

structure RescoreSet where
  projectId : Nat
  charter : Option ValueCharter
  tasks : List Task
  graphSignals : List RescoreGraphSignal

namespace WsjfRescoreService

/-- `computeTransitiveDependents`, at one of the nodes: the size of `seen` without the node. The
    search always ends (`Reach.visited_spec`). -/
def transitiveDependents (edges : List ProjectEdge) (nodeIds : List Nat) (start : Nat) : Nat :=
  ((Reach.visited (Kahn.successors edges) (nodeIds.length + 1) start).getD []).length - 1

/-- `collectRescoreSet`. The listing is ordered by `order` where it joins the tags, by `order'`
    where it does not. -/
def collectRescoreSet (order order' : RowOrder) (db : Db) (projectId : Nat) :
    Except Err RescoreSet :=
  match db.projects.find? projectId with
  | none => .error (.business s!"Project with id {projectId} does not exist")
  | some project =>
    let report := TopologyService.classify order db projectId
    if report.topology = .dagCyclic then
      .error (.business s!"Cannot rescore project {projectId}: dependency graph is cyclic (DAG_CYCLIC); break the cycle first")
    else
      let allTasks := loadProjectTasks order' db projectId
      let scored := allTasks.filter fun t => t.wsjf.components?.isSome
      .ok {
        projectId
        charter := project.valueCharter
        tasks := scored
        graphSignals := scored.map fun t =>
          ⟨t.id, transitiveDependents report.edges (allTasks.map Task.id) t.id⟩ }

/-! ## What is collected -/

/-- The tasks of a project that wait for a task, directly or not. -/
abbrev Db.Dependents (db : Db) (projectId id : Nat) (dependents : List Nat) : Prop :=
  Reach.IsBehind (db.ProjectEdge projectId) id dependents

/-- What a rescore set says of the database. -/
structure Collected (db : Db) (projectId : Nat) (set : RescoreSet) : Prop where
  project : set.projectId = projectId
  charter : ∃ project, db.projects.find? projectId = some project ∧
    set.charter = project.valueCharter
  /-- Exactly the scored tasks of the project, each once. -/
  tasks : set.tasks.Perm
    ((db.projectTasks projectId).map Task.untagged |>.filter fun t => t.wsjf.components?.isSome)
  signals : set.graphSignals.map RescoreGraphSignal.taskId = set.tasks.map Task.id
  /-- A signal counts the tasks that wait for its task, each once. -/
  counts : ∀ signal ∈ set.graphSignals, ∃ dependents,
    Db.Dependents db projectId signal.taskId dependents ∧
      signal.transitiveDependents = dependents.length

theorem transitiveDependents_eq {db : Db} {projectId : Nat} {tasks : List Task}
    {edges : List ProjectEdge} (h : Ranking.Loaded db projectId tasks edges)
    (hacyclic : Acyclic (db.ProjectEdge projectId)) {id : Nat}
    (hid : id ∈ db.projectIds projectId) : ∃ dependents,
      Db.Dependents db projectId id dependents ∧
        transitiveDependents edges (tasks.map Task.id) id = dependents.length := by
  have hclosed : ∀ a ∈ tasks.map Task.id, ∀ b ∈ Kahn.successors edges a,
      b ∈ tasks.map Task.id := by
    intro a _ b hb
    have hedge : Bfs.Edge (Kahn.successors edges) a b := hb
    rw [h.edge_eq] at hedge
    exact h.ids.mem_iff.2 hedge.2.2
  obtain ⟨seen, hseen, hnodup, hmem⟩ := Reach.visited_spec (h.ids.mem_iff.2 hid) hclosed
  rw [h.edge_eq] at hmem
  refine ⟨seen.erase id, Reach.isBehind_erase hacyclic hnodup hmem, ?_⟩
  rw [transitiveDependents, hseen, Option.getD_some,
    List.length_erase_of_mem ((hmem id).2 .refl)]

/-- **Main theorem.** Collecting a rescore set throws a `BusinessError` exactly when the project is
    missing or its edges contain a directed cycle. Otherwise the set holds the scored tasks, each
    with the number of distinct tasks that wait for it directly or not, and a task's number is
    greater than that of any task which waits for it. -/
theorem collectRescoreSet_spec (order order' : RowOrder) (db : Db) (projectId : Nat) :
    match collectRescoreSet order order' db projectId with
    | .error e => (∃ message, e = .business message) ∧
        (db.projects.find? projectId = none ∨
          ∃ x, Relation.TransGen (db.ProjectEdge projectId) x x)
    | .ok set => (¬ ∃ x, Relation.TransGen (db.ProjectEdge projectId) x x) ∧
        Collected db projectId set ∧
        ∀ a ∈ set.graphSignals, ∀ b ∈ set.graphSignals,
          Relation.TransGen (db.ProjectEdge projectId) a.taskId b.taskId →
          b.transitiveDependents < a.transitiveDependents := by
  have hcyclic := (TopologyService.classify_describes order db projectId).cyclic
  have hloaded := Ranking.loaded order order' db projectId
  unfold collectRescoreSet
  cases hproject : db.projects.find? projectId with
  | none => exact ⟨⟨_, rfl⟩, .inl rfl⟩
  | some project =>
    simp only
    by_cases hacyclic : Acyclic (db.ProjectEdge projectId)
    · rw [if_neg fun h => hcyclic.1 h hacyclic]
      have hcounts : ∀ signal ∈ ((loadProjectTasks order' db projectId).filter fun t =>
          t.wsjf.components?.isSome).map fun t => (⟨t.id, transitiveDependents
            (TopologyService.classify order db projectId).edges
            ((loadProjectTasks order' db projectId).map Task.id) t.id⟩ : RescoreGraphSignal),
          ∃ dependents, Db.Dependents db projectId signal.taskId dependents ∧
            signal.transitiveDependents = dependents.length := by
        intro signal hsignal
        obtain ⟨t, ht, rfl⟩ := List.mem_map.1 hsignal
        refine transitiveDependents_eq hloaded hacyclic (hloaded.ids.mem_iff.1 ?_)
        exact List.mem_map_of_mem (List.mem_of_mem_filter ht)
      refine ⟨fun ⟨x, hx⟩ => hacyclic x hx, ⟨rfl, ⟨project, hproject, rfl⟩,
        hloaded.tasks.filter _, ?_, hcounts⟩, fun a ha b hb hab => ?_⟩
      · rw [List.map_map]
        rfl
      · obtain ⟨belowA, hbelowA, hcountA⟩ := hcounts a ha
        obtain ⟨below, hbelow, hcount⟩ := hcounts b hb
        rw [hcountA, hcount]
        exact hbelowA.length_lt hacyclic hbelow hab
    · rw [if_pos (hcyclic.2 hacyclic)]
      refine ⟨⟨_, rfl⟩, .inr ?_⟩
      unfold Acyclic at hacyclic
      push Not at hacyclic
      exact hacyclic

end WsjfRescoreService

end WoodFiredTasks
