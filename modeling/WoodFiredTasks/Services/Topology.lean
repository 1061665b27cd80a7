import Mathlib.Data.Prod.Lex
import WoodFiredTasks.Lib.Kahn
import WoodFiredTasks.Repositories.DependencyRepository
import WoodFiredTasks.Repositories.TaskListing
import WoodFiredTasks.Utils.CycleDetector

set_option autoImplicit false

/-! # The topology of a project

`TopologyService.classify` (`src/services/topology.service.ts`), which probes every edge with the
cycle detector, and the classifier of `src/services/dependency-graph.service.ts`, which drains
the nodes of in-degree zero. A JavaScript `Map` of numbers is a function here; where the code
runs over its keys, these are the tasks of the project. -/

namespace WoodFiredTasks

/-- `TopologyReport['topology']`. -/
inductive Topology where
  | flat | dag | dagCyclic
  deriving DecidableEq, Repr

/-- `TopologyReport['advisory']`: `/tasks:loop`, `/tasks:loop-dag` and `BLOCKED`. -/
inductive Advisory where
  | loop | loopDag | blocked
  deriving DecidableEq, Repr

/-- `{ from, to }`: `from` must finish before `to` can start. -/
abbrev ProjectEdge := Nat × Nat

structure TopologyReport where
  topology : Topology
  edges : List ProjectEdge
  roots : List Nat
  leaves : List Nat
  advisory : Advisory
  deriving DecidableEq, Repr

/-- The dependency rows between members of a set of ids, as both services filter them. -/
def edgesWithin (ids : List Nat) (db : Db) : List ProjectEdge :=
  db.edges.filter fun e => decide (e.1 ∈ ids) && decide (e.2 ∈ ids)

/-- `Set.add`. -/
def addId (ids : List Nat) (t : Task) : List Nat := if t.id ∈ ids then ids else ids ++ [t.id]

/-- `[...ids].sort((a, b) => a - b)`. -/
def sortIds (ids : List Nat) : List Nat := ids.insertionSort (· ≤ ·)

/-- `a.from - b.from || a.to - b.to`, as an order. -/
def edgeLe (a b : ProjectEdge) : Prop := a.1 < b.1 ∨ (a.1 = b.1 ∧ a.2 ≤ b.2)

instance : DecidableRel edgeLe := fun a b => by unfold edgeLe; infer_instance

def sortEdges (edges : List ProjectEdge) : List ProjectEdge := edges.insertionSort edgeLe

namespace TopologyService

/-- The node set that the paging loop collects. -/
def projectTaskIds (order : RowOrder) (db : Db) (projectId : Nat) : List Nat :=
  pageLoop List.length addId (TaskRepository.listing order true db projectId)
    (TaskRepository.countProject db projectId) 0 []

/-- The probing loop: take one edge out and ask the detector about it. -/
def hasCycle (edges : List ProjectEdge) : Bool :=
  edges.zipIdx.any fun held =>
    let rest := edges.take held.2 ++ edges.drop (held.2 + 1)
    (CycleDetector.wouldCreateCycle (CycleDetector.ofEdges rest) held.1.1 held.1.2).1

/-- `classify`. -/
def classify (order : RowOrder) (db : Db) (projectId : Nat) : TopologyReport :=
  let ids := projectTaskIds order db projectId
  let edges := edgesWithin ids db
  if edges = [] then
    { topology := .flat, edges := [], roots := sortIds ids, leaves := sortIds ids,
      advisory := .loop }
  else
    let inDegree := Kahn.inDegrees edges
    let outDegree := Kahn.inDegrees (edges.map Prod.swap)
    let roots := (sortIds ids).filter fun id => inDegree id = 0
    let leaves := (sortIds ids).filter fun id => outDegree id = 0
    if hasCycle edges then
      { topology := .dagCyclic, edges := sortEdges edges, roots, leaves, advisory := .blocked }
    else { topology := .dag, edges := sortEdges edges, roots, leaves, advisory := .loopDag }

end TopologyService

namespace DependencyGraphService

/-- What `readSnapshot` returns. -/
structure Snapshot where
  tasks : List Task
  projectEdges : List ProjectEdge

/-- `readSnapshot`. -/
def readSnapshot (order : RowOrder) (db : Db) (projectId : Nat) : Snapshot :=
  let tasks := loadProjectTasks order db projectId
  ⟨tasks, edgesWithin (tasks.map Task.id) db⟩

/-- `classifyFromInDegree`. The loop always ends (`Kahn.drain_start`). -/
def classifyFromInDegree (tasks : List Task) (edges : List ProjectEdge) (inDegree : Nat → Int) :
    Topology :=
  if edges = [] then .flat
  else
    let ids := tasks.map Task.id
    let drained :=
      Kahn.drain (Kahn.successors edges) (ids.length + 1) (Kahn.start ids inDegree)
    if drained = some tasks.length then .dag else .dagCyclic

/-- `classifyTopologyInline`. -/
def classifyTopologyInline (tasks : List Task) (edges : List ProjectEdge) : Topology :=
  if edges = [] then .flat else classifyFromInDegree tasks edges (Kahn.inDegrees edges)

/-- `DependencyGraphFormat`. -/
inductive Format where
  | tree | graph | text
  deriving DecidableEq, Repr

/-- The label in the result of `buildDependencyGraph`: the graph shape counts the in-degrees for
    it, the tree and text shapes hand over the table from which they take their roots. -/
def topology (order : RowOrder) (db : Db) (projectId : Nat) (format : Format) :
    Except Err Topology :=
  if (db.projects.find? projectId).isNone then .error (.notFound "Project" (toString projectId))
  else
    let snapshot := readSnapshot order db projectId
    let inDegree := Kahn.inDegrees snapshot.projectEdges
    match format with
    | .graph => .ok (classifyTopologyInline snapshot.tasks snapshot.projectEdges)
    | .tree | .text => .ok (classifyFromInDegree snapshot.tasks snapshot.projectEdges inDegree)

end DependencyGraphService

/-! ## What the services read -/

section Lemmas

variable {order : RowOrder} {db : Db} {projectId : Nat}

theorem foldl_addId (rows : List Task) :
    ∀ ids : List Nat, (ids ++ rows.map Task.id).Nodup →
      rows.foldl addId ids = ids ++ rows.map Task.id := by
  induction rows with
  | nil => simp
  | cons t rows ih =>
    intro ids hnodup
    have hnew : t.id ∉ ids := by
      intro hmem
      have := List.disjoint_of_nodup_append hnodup hmem
      simp at this
    have hadd : addId ids t = ids ++ [t.id] := by simp [addId, hnew]
    rw [List.foldl_cons, hadd, ih] <;> simp_all

theorem listing_ids (order : RowOrder) (db : Db) (projectId : Nat) (includeTags : Bool) :
    ((TaskRepository.listing order includeTags db projectId).map Task.id).Perm
      (db.projectIds projectId) := by
  have h := (order.perm (db.projectTasks projectId)).map Task.id
  cases includeTags <;>
    simpa [TaskRepository.listing, Db.projectIds, Function.comp_def] using h

theorem projectTaskIds_perm :
    (TopologyService.projectTaskIds order db projectId).Perm (db.projectIds projectId) := by
  have hperm := listing_ids order db projectId true
  have hnodup := hperm.nodup_iff.2 Db.projectIds_nodup
  have hfold : ∀ k, ((TaskRepository.listing order true db projectId).take k).foldl addId []
      = ((TaskRepository.listing order true db projectId).take k).map Task.id := by
    intro k
    refine foldl_addId _ [] ?_
    rw [List.nil_append, List.map_take]
    exact (List.take_sublist k _).nodup hnodup
  rw [TopologyService.projectTaskIds, ← TaskRepository.length_listing order true,
    pageLoop_eq]
  · have := hfold (TaskRepository.listing order true db projectId).length
    rw [List.take_length] at this
    rwa [this]
  · intro k hk
    rw [hfold]
    simpa using hk

theorem mem_edgesWithin {ids : List Nat} {e : ProjectEdge} :
    e ∈ edgesWithin ids db ↔ e ∈ db.edges ∧ e.1 ∈ ids ∧ e.2 ∈ ids := by
  simp [edgesWithin]

/-- Both services keep the same edges, in the same order. -/
theorem edgesWithin_congr {ids ids' : List Nat} (h : ∀ id, id ∈ ids ↔ id ∈ ids') :
    edgesWithin ids db = edgesWithin ids' db :=
  List.filter_congr fun e _ => by simp [h]

theorem mem_sortEdges {edges : List ProjectEdge} {e : ProjectEdge} :
    e ∈ sortEdges edges ↔ e ∈ edges := (List.perm_insertionSort edgeLe edges).mem_iff

/-- The probing loop is exact. -/
theorem TopologyService.hasCycle_iff (edges : List ProjectEdge) :
    hasCycle edges = true ↔ ¬ Acyclic fun a b => (a, b) ∈ edges := by
  have hprobe : ∀ held ∈ edges.zipIdx,
      (CycleDetector.wouldCreateCycle (CycleDetector.ofEdges
          (edges.take held.2 ++ edges.drop (held.2 + 1))) held.1.1 held.1.2).1 = true ↔
        ¬ Acyclic fun a b => (a, b) ∈ edges := by
    intro held hheld
    have hget : edges[held.2]? = some held.1 := List.mem_zipIdx_iff_getElem?.1 hheld
    have hsplit : edges = edges.take held.2 ++ held.1 :: edges.drop (held.2 + 1) := by
      obtain ⟨hlt, heq⟩ := List.getElem?_eq_some_iff.1 hget
      rw [← heq, List.cons_getElem_drop_succ, List.take_append_drop]
    have hedge : (fun a b => (a, b) ∈ edges.take held.2 ++ edges.drop (held.2 + 1) ∨
        (a = held.1.1 ∧ b = held.1.2)) = fun a b => (a, b) ∈ edges := by
      funext a b
      conv_rhs => rw [hsplit]
      simp only [List.mem_append, List.mem_cons, Prod.ext_iff, eq_iff_iff]
      tauto
    rw [CycleDetector.wouldCreateCycle_iff, hedge]
    simp [Acyclic]
  rw [hasCycle, List.any_eq_true]
  constructor
  · intro h
    obtain ⟨held, hheld, hyes⟩ := h
    exact (hprobe held hheld).1 hyes
  · intro h
    -- a cycle has an edge, and any edge may be probed
    have hne : edges ≠ [] := by
      intro hnil
      apply h
      intro x hcycle
      obtain ⟨b, hb, -⟩ := Relation.TransGen.head'_iff.1 hcycle
      simp [hnil] at hb
    obtain ⟨e, rest, rfl⟩ := List.exists_cons_of_ne_nil hne
    exact ⟨(e, 0), by simp, (hprobe (e, 0) (by simp)).2 h⟩

/-- The edges of a project: both ends are tasks of it. -/
def Db.ProjectEdge (db : Db) (projectId a b : Nat) : Prop :=
  (a, b) ∈ db.edges ∧ a ∈ db.projectIds projectId ∧ b ∈ db.projectIds projectId

/-- The edges that the classifiers work on. -/
def Db.projectEdges (db : Db) (projectId : Nat) : List WoodFiredTasks.ProjectEdge :=
  edgesWithin (db.projectIds projectId) db

theorem Db.mem_projectEdges {a b : Nat} :
    (a, b) ∈ db.projectEdges projectId ↔ db.ProjectEdge projectId a b := mem_edgesWithin

theorem Db.projectEdges_eq_nil :
    db.projectEdges projectId = [] ↔ ∀ a b, ¬ db.ProjectEdge projectId a b := by
  simp [List.eq_nil_iff_forall_not_mem, Db.mem_projectEdges]

/-- What the label says of a project. -/
structure Topology.Describes (topology : Topology) (db : Db) (projectId : Nat) : Prop where
  flat : topology = .flat ↔ ∀ a b, ¬ db.ProjectEdge projectId a b
  cyclic : topology = .dagCyclic ↔ ¬ Acyclic (db.ProjectEdge projectId)

/-- A project has one label. -/
theorem Topology.Describes.unique {t t' : Topology} (h : t.Describes db projectId)
    (h' : t'.Describes db projectId) : t = t' := by
  have hflat := h.flat.trans h'.flat.symm
  have hcyclic := h.cyclic.trans h'.cyclic.symm
  cases t <;> cases t' <;> simp_all

/-- A label chosen by the two tests describes the project. -/
theorem Topology.describes_of_tests {cyclic : Bool}
    (hcyclic : cyclic = true ↔ ¬ Acyclic (db.ProjectEdge projectId)) :
    (if db.projectEdges projectId = [] then Topology.flat
      else if cyclic then .dagCyclic else .dag).Describes db projectId := by
  by_cases hnil : db.projectEdges projectId = []
  · have hnone := Db.projectEdges_eq_nil.1 hnil
    have hacyclic : Acyclic (db.ProjectEdge projectId) := by
      intro x hcycle
      obtain ⟨b, hb, -⟩ := Relation.TransGen.head'_iff.1 hcycle
      exact hnone x b hb
    rw [if_pos hnil]
    exact ⟨by simpa using hnone, by simpa using hacyclic⟩
  · have hsome := mt Db.projectEdges_eq_nil.2 hnil
    rw [if_neg hnil]
    cases cyclic with
    | true => exact ⟨by simpa using hsome, by simpa using hcyclic⟩
    | false => exact ⟨by simpa using hsome, by simpa using hcyclic⟩

theorem TopologyService.edges_eq :
    edgesWithin (projectTaskIds order db projectId) db = db.projectEdges projectId :=
  edgesWithin_congr fun _ => projectTaskIds_perm.mem_iff

theorem TopologyService.classify_describes (order : RowOrder) (db : Db) (projectId : Nat) :
    (classify order db projectId).topology.Describes db projectId := by
  have hcyclic : hasCycle (db.projectEdges projectId) = true ↔
      ¬ Acyclic (db.ProjectEdge projectId) := by
    rw [hasCycle_iff]
    simp only [Db.mem_projectEdges]
  have heq : (classify order db projectId).topology
      = if db.projectEdges projectId = [] then .flat
        else if hasCycle (db.projectEdges projectId) then .dagCyclic else .dag := by
    rw [classify, edges_eq]
    by_cases hnil : db.projectEdges projectId = []
    · simp [hnil]
    · by_cases hc : hasCycle (db.projectEdges projectId) = true <;> simp [hnil, hc]
  rw [heq]
  exact Topology.describes_of_tests hcyclic

theorem DependencyGraphService.snapshot_ids (order : RowOrder) (db : Db) (projectId : Nat) :
    ((loadProjectTasks order db projectId).map Task.id).Perm (db.projectIds projectId) := by
  rw [loadProjectTasks_eq]
  exact listing_ids order db projectId false

theorem DependencyGraphService.classifyFromInDegree_describes :
    (classifyFromInDegree (loadProjectTasks order db projectId) (db.projectEdges projectId)
      (Kahn.inDegrees (db.projectEdges projectId))).Describes db projectId := by
  have hperm := snapshot_ids order db projectId
  have hedges : ∀ e ∈ db.projectEdges projectId,
      e.1 ∈ (loadProjectTasks order db projectId).map Task.id ∧
        e.2 ∈ (loadProjectTasks order db projectId).map Task.id := by
    intro e he
    rw [hperm.mem_iff, hperm.mem_iff]
    exact (Db.mem_projectEdges.1 he).2
  obtain ⟨k, hk, hiff⟩ := Kahn.drain_start (hperm.nodup_iff.2 Db.projectIds_nodup) hedges
  simp only [Db.mem_projectEdges, List.length_map] at hk hiff
  have hcyclic : decide (k ≠ (loadProjectTasks order db projectId).length) = true ↔
      ¬ Acyclic (db.ProjectEdge projectId) := by
    rw [decide_eq_true_eq, Ne, hiff]
  have heq : classifyFromInDegree (loadProjectTasks order db projectId)
      (db.projectEdges projectId) (Kahn.inDegrees (db.projectEdges projectId))
      = if db.projectEdges projectId = [] then .flat
        else if decide (k ≠ (loadProjectTasks order db projectId).length) then .dagCyclic
        else .dag := by
    simp only [classifyFromInDegree, List.length_map, hk, Option.some.injEq, ne_eq, decide_not,
      Bool.not_eq_true', decide_eq_false_iff_not, ite_not]
  rw [heq]
  exact Topology.describes_of_tests hcyclic

end Lemmas

end WoodFiredTasks

/-! ## The two topology classifiers agree

Both labels describe the project (`Topology.Describes`), whatever the order in which the listing
statements return its tasks, and a project has one label. -/

namespace WoodFiredTasks

open DependencyGraphService in
/-- **Main theorem.** The label of the dependency graph of a project, in every format, is the one
    `classify` gives; it is FLAT exactly when no edge has both ends in the project, and
    DAG_CYCLIC exactly when the edges in the project contain a directed cycle. -/
theorem TopologyService.classify_agrees (order order' : RowOrder) (db : Db) (projectId : Nat)
    (format : Format) :
    DependencyGraphService.topology order' db projectId format =
        (if (db.projects.find? projectId).isNone then
          .error (.notFound "Project" (toString projectId))
        else .ok (classify order db projectId).topology) ∧
      ((classify order db projectId).topology = .flat ↔
        ¬ ∃ a b, db.ProjectEdge projectId a b) ∧
      ((classify order db projectId).topology = .dagCyclic ↔
        ∃ x, Relation.TransGen (db.ProjectEdge projectId) x x) := by
  have hclassify := classify_describes order db projectId
  refine ⟨?_, ?_, ?_⟩
  · have hedges : (readSnapshot order' db projectId).projectEdges = db.projectEdges projectId :=
      edgesWithin_congr fun _ => (snapshot_ids order' db projectId).mem_iff
    have hinline : classifyTopologyInline (loadProjectTasks order' db projectId)
        (db.projectEdges projectId)
        = classifyFromInDegree (loadProjectTasks order' db projectId) (db.projectEdges projectId)
          (Kahn.inDegrees (db.projectEdges projectId)) := by
      by_cases hnil : db.projectEdges projectId = [] <;>
        simp [classifyTopologyInline, classifyFromInDegree, hnil]
    have hsame : classifyFromInDegree (loadProjectTasks order' db projectId)
        (db.projectEdges projectId) (Kahn.inDegrees (db.projectEdges projectId))
        = (classify order db projectId).topology :=
      classifyFromInDegree_describes.unique hclassify
    have htasks : (readSnapshot order' db projectId).tasks = loadProjectTasks order' db projectId :=
      rfl
    cases format <;>
      simp only [DependencyGraphService.topology, hedges, htasks, hinline, hsame]
  · simpa using hclassify.flat
  · rw [hclassify.cyclic]
    simp [Acyclic]

end WoodFiredTasks
