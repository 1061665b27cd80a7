import WoodFiredTasks.Services.DependencyGraph
import WoodFiredTasks.Services.Ranking

set_option autoImplicit false

/-! # The tree and the text of a project

Both shapes show the first nodes of one unfolding, in its order, so what they hide is what the
unfolding does not reach and what the cap cuts. The unfolding reaches the tasks that lie behind a
root, and a root is a task that no edge enters; a single synthetic root stands in only when there
is none at all, so a cycle beside a rooted task stays out of sight. At the cap the two shapes
differ in their flags: the tree is flagged as soon as a new node fills the cap, the text only when
a node finds it filled. -/

namespace WoodFiredTasks.DependencyGraphService

open Unfolding

variable {order : RowOrder} {db : Db} {projectId : Nat}

/-! ## The snapshot -/

theorem readSnapshot_sound (order : RowOrder) (db : Db) (projectId : Nat) :
    (readSnapshot order db projectId).Sound := by
  intro e he
  exact (mem_edgesWithin.1 he).2

theorem mem_snapshot_ids {id : Nat} :
    id ∈ (readSnapshot order db projectId).tasks.map Task.id ↔ id ∈ db.projectIds projectId :=
  (snapshot_ids order db projectId).mem_iff

theorem mem_snapshot_edges {a b : Nat} :
    (a, b) ∈ (readSnapshot order db projectId).projectEdges ↔ db.ProjectEdge projectId a b := by
  show (a, b) ∈ edgesWithin _ db ↔ _
  rw [mem_edgesWithin]
  show _ ∧ a ∈ (readSnapshot order db projectId).tasks.map Task.id ∧
    b ∈ (readSnapshot order db projectId).tasks.map Task.id ↔ _
  rw [mem_snapshot_ids, mem_snapshot_ids]
  rfl

/-- A path of the unfolding: from a root along edges, up to the first id that comes twice. -/
theorem mem_unfolding {p : List Nat} :
    p ∈ (readSnapshot order db projectId).unfolding ↔
      Branch (readSnapshot order db projectId).context.childrenByParent
        (readSnapshot order db projectId).rootIds p := by
  have h := readSnapshot_sound order db projectId
  have hmem := mem_branches (p := p) (rootIds_subset _) h.closed.children
  rwa [List.length_map] at hmem

/-- The tree and the text shape of a project, with their flags. -/
structure Shapes (order : RowOrder) (db : Db) (projectId : Nat) (roots : List TreeNode)
    (treeTruncated : Bool) (lines : List String) (textTruncated : Bool) : Prop where
  tree : ∃ topology totalTasks totalEdges, buildDependencyGraph order db projectId .tree
    = .ok (some (.tree roots topology totalTasks totalEdges treeTruncated))
  text : ∃ topology totalTasks totalEdges, buildDependencyGraph order db projectId .text
    = .ok (some (.text lines topology totalTasks totalEdges textTruncated))

/-- The untruncated unfolding of a project. -/
def unfolding (order : RowOrder) (db : Db) (projectId : Nat) : List (List Nat) :=
  (readSnapshot order db projectId).unfolding

/-- What the shapes of a project are. -/
structure Shapes.Spec (roots : List TreeNode) (treeTruncated : Bool) (lines : List String)
    (textTruncated : Bool) (unfolding : List (List Nat)) : Prop where
  paths : paths roots = unfolding.take maxTreeNodes
  preorder : preorder roots = (unfolding.take maxTreeNodes).map entryOf
  entries : lines.map lineEntry = (unfolding.take maxTreeNodes).map entryOf
  textPaths : textPaths lines = unfolding.take maxTreeNodes
  treeFlag : treeTruncated = (decide (maxTreeNodes < unfolding.length) ||
    (decide (unfolding.length = maxTreeNodes) && endsNew unfolding))
  textFlag : textTruncated = decide (maxTreeNodes < unfolding.length)

/-- Both recursions end, and they show the first nodes of the unfolding. -/
theorem shapes_exist (order : RowOrder)
    (hproject : (db.projects.find? projectId).isSome = true) :
    ∃ roots t lines t', Shapes order db projectId roots t lines t' ∧
      Shapes.Spec roots t lines t' (unfolding order db projectId) := by
  have hsound := readSnapshot_sound order db projectId
  obtain ⟨roots, c, htree, hvisits, hflag⟩ := treeShape_spec hsound
  obtain ⟨lines, c', htext, hentries, hflag'⟩ := renderTextLines_spec hsound
  have hfound : ¬ (db.projects.find? projectId).isNone = true := by
    simpa [Option.isSome_iff_ne_none] using hproject
  have htreeResult : ∃ topology totalTasks totalEdges,
      buildDependencyGraph order db projectId .tree
        = .ok (some (.tree roots topology totalTasks totalEdges c.truncated)) := by
    simp [buildDependencyGraph, hfound, htree]
  have htextResult : ∃ topology totalTasks totalEdges,
      buildDependencyGraph order db projectId .text
        = .ok (some (.text lines topology totalTasks totalEdges c'.truncated)) := by
    simp [buildDependencyGraph, hfound, htext]
  refine ⟨roots, c.truncated, lines, c'.truncated, ⟨htreeResult, htextResult⟩, ?_⟩
  exact ⟨paths_eq hvisits, preorder_eq hvisits, hentries, textPaths_eq hentries, hflag, hflag'⟩

/-- The shapes of a project are unique. -/
theorem Shapes.spec (hproject : (db.projects.find? projectId).isSome = true)
    {roots : List TreeNode} {t t' : Bool} {lines : List String}
    (h : Shapes order db projectId roots t lines t') :
    Shapes.Spec roots t lines t' (unfolding order db projectId) := by
  obtain ⟨roots₀, t₀, lines₀, t₀', h₀, hspec⟩ :=
    shapes_exist order hproject
  obtain ⟨_, _, _, htree⟩ := h.tree
  obtain ⟨_, _, _, htree₀⟩ := h₀.tree
  obtain ⟨_, _, _, htext⟩ := h.text
  obtain ⟨_, _, _, htext₀⟩ := h₀.text
  rw [htree] at htree₀
  rw [htext] at htext₀
  simp only [Except.ok.injEq, Option.some.injEq, Result.tree.injEq] at htree₀
  simp only [Except.ok.injEq, Option.some.injEq, Result.text.injEq] at htext₀
  obtain ⟨rfl, -, -, -, rfl⟩ := htree₀
  obtain ⟨rfl, -, -, -, rfl⟩ := htext₀
  exact hspec

/-! ## What the shapes hide -/

/-- Every task stands on a path, and the edges out of a node that is not a revisit go on from
    it. -/
structure ShowsAll (db : Db) (projectId : Nat) (shown : List (List Nat)) : Prop where
  tasks : ∀ id ∈ db.projectIds projectId, ∃ above, id :: above ∈ shown
  edges : ∀ a b above, db.ProjectEdge projectId a b → a :: above ∈ shown → a ∉ above →
    b :: a :: above ∈ shown

/-- Both shapes exist, and each of them hides nothing unless it is flagged. -/
def HidesNothing (order : RowOrder) (db : Db) (projectId : Nat) : Prop :=
  ∃ roots t lines t', Shapes order db projectId roots t lines t' ∧
    (t = false → ShowsAll db projectId (paths roots)) ∧
    (t' = false → ShowsAll db projectId (textPaths lines))

/-- Every task lies behind a root along edges of the project. -/
def Rooted (order : RowOrder) (db : Db) (projectId : Nat) : Prop :=
  ∀ id ∈ db.projectIds projectId, ∃ r ∈ (readSnapshot order db projectId).rootIds,
    Relation.ReflTransGen (db.ProjectEdge projectId) r id

theorem exists_path {id : Nat} :
    (∃ above, id :: above ∈ unfolding order db projectId) ↔
      ∃ r ∈ (readSnapshot order db projectId).rootIds,
        Relation.ReflTransGen (db.ProjectEdge projectId) r id := by
  have hstep : (fun a b => b ∈ (readSnapshot order db projectId).context.childrenByParent a)
      = db.ProjectEdge projectId := by
    funext a b
    rw [mem_childrenByParent, mem_snapshot_edges]
  simp only [unfolding, mem_unfolding]
  rw [exists_branch, hstep]

/-- The unfolding of a rooted project hides nothing. -/
theorem showsAll_unfolding (h : Rooted order db projectId) :
    ShowsAll db projectId (unfolding order db projectId) := by
  constructor
  · intro id hid
    exact exists_path.2 (h id hid)
  · intro a b above hedge hpath hnew
    rw [unfolding, mem_unfolding] at hpath ⊢
    exact .child hpath hnew (mem_childrenByParent.2 (mem_snapshot_edges.2 hedge))

/-- **Main theorem.** The recursions end, and the tree and the text hide nothing unless they are
    flagged, exactly when every task lies behind a root or the unfolding is larger than the
    cap. -/
theorem hidesNothing_iff_rooted (order : RowOrder) (db : Db) (projectId : Nat)
    (hproject : (db.projects.find? projectId).isSome = true) :
    HidesNothing order db projectId ↔
      Rooted order db projectId ∨ maxTreeNodes < (unfolding order db projectId).length := by
  obtain ⟨roots, t, lines, t', hshapes, hspec⟩ :=
    shapes_exist order hproject
  constructor
  · intro h
    by_cases hlarge : maxTreeNodes < (unfolding order db projectId).length
    · exact .inr hlarge
    · left
      intro id hid
      obtain ⟨roots, t, lines, t', hshapes, -, htext⟩ := h
      have hspec := hshapes.spec hproject
      have hall := (htext (by rw [hspec.textFlag]; simpa using hlarge)).tasks id hid
      rw [hspec.textPaths, List.take_of_length_le (by omega)] at hall
      exact exists_path.1 hall
  · intro h
    refine ⟨roots, t, lines, t', hshapes, ?_, ?_⟩
    · intro hflag
      have hsmall : ¬ maxTreeNodes < (unfolding order db projectId).length := by
        intro hlarge
        simp [hspec.treeFlag, hlarge] at hflag
      rw [hspec.paths, List.take_of_length_le (by omega)]
      exact showsAll_unfolding (h.resolve_right hsmall)
    · intro hflag
      have hsmall : ¬ maxTreeNodes < (unfolding order db projectId).length := by
        intro hlarge
        simp [hspec.textFlag, hlarge] at hflag
      rw [hspec.textPaths, List.take_of_length_le (by omega)]
      exact showsAll_unfolding (h.resolve_right hsmall)

/-! ### Projects of plain tasks -/

/-- A task of project 1. -/
def graphTask (id : Nat) : Task where
  id := id
  title := "task"
  description := none
  status := .open
  priority := .medium
  projectId := 1
  parentTaskId := none
  estimatedMinutes := none
  assignee := none
  createdBy := "agent"
  dueDate := none
  createdAt := .iso id
  updatedAt := .iso id
  version := 1
  claimedAt := none
  completedAt := none
  acceptanceCriteria := none
  verificationEvidence := none
  wsjf := {}
  createdByUserId := none
  assigneeUserId := none
  tags := []

theorem graphTasks_nodup (n : Nat) :
    (((List.range n).map fun i => graphTask (i + 1)).map Task.id).Nodup := by
  rw [List.map_map]
  exact List.nodup_range.map fun a b h => by simpa [graphTask] using h

theorem graphTasks_below (n : Nat) :
    ∀ t ∈ (List.range n).map fun i => graphTask (i + 1), t.id < n + 1 := by
  simp [graphTask]

theorem graphTasks_pos (n : Nat) :
    ∀ t ∈ (List.range n).map fun i => graphTask (i + 1), 0 < t.id := by
  simp [graphTask]

/-- Project 1 with the tasks 1 to `n` and the given edges. -/
def graphProject (n : Nat) (edges : List (Nat × Nat)) : Db :=
  edges.foldl (fun db e => db.insertDependency e.1 e.2 0)
    { Db.oneProject with
      tasks :=
        { rows := (List.range n).map fun i => graphTask (i + 1)
          next := n + 1
          nodup := graphTasks_nodup n
          below := graphTasks_below n
          pos := graphTasks_pos n
          next_pos := Nat.succ_pos n } }

/-- A task beside a cycle of two. -/
theorem hidesNothing_iff_rooted_cycle :
    HidesNothing .stable (graphProject 3 [(2, 3), (3, 2)]) 1 ↔
      Rooted .stable (graphProject 3 [(2, 3), (3, 2)]) 1 ∨
        maxTreeNodes < (unfolding .stable (graphProject 3 [(2, 3), (3, 2)]) 1).length :=
  hidesNothing_iff_rooted .stable (graphProject 3 [(2, 3), (3, 2)]) 1 (by decide)

/-- The cycle beside the task is hidden, and no flag says so. -/
theorem cycle_hidden : ¬ HidesNothing .stable (graphProject 3 [(2, 3), (3, 2)]) 1 := by
  intro h
  obtain ⟨roots, t, lines, t', hshapes, -, htext⟩ := h
  have hunfolding : unfolding .stable (graphProject 3 [(2, 3), (3, 2)]) 1 = [[1]] := by
    decide +kernel
  have hspec := hshapes.spec (by decide)
  rw [hunfolding] at hspec
  obtain ⟨above, habove⟩ := (htext (by rw [hspec.textFlag]; decide)).tasks 2 (by decide +kernel)
  rw [hspec.textPaths] at habove
  have := List.mem_of_mem_take habove
  simp at this

/-! ## Where the shapes differ -/

/-- The two shapes agree, and their flag says whether a node of the unfolding was left out. -/
structure Agree (roots : List TreeNode) (treeTruncated : Bool) (lines : List String)
    (textTruncated : Bool) (unfolding : List (List Nat)) : Prop where
  rows : lines.map lineEntry = preorder roots
  flags : treeTruncated = textTruncated
  exact : treeTruncated = true ↔ (preorder roots).length < unfolding.length

/-- The tree and the text of a project agree. -/
def ShapesAgree (order : RowOrder) (db : Db) (projectId : Nat) : Prop :=
  ∃ roots t lines t', Shapes order db projectId roots t lines t' ∧
    Agree roots t lines t' (unfolding order db projectId)

/-- The unfolding fills the cap to the last place, with a node that is not a revisit. -/
def EndsAtCap (unfolding : List (List Nat)) : Prop :=
  unfolding.length = maxTreeNodes ∧ endsNew unfolding = true

/-- What the two shapes show is the same; their flags are the same unless the unfolding ends at
    the cap. -/
theorem Shapes.Spec.agree_iff {roots : List TreeNode} {t t' : Bool} {lines : List String}
    {unfolding : List (List Nat)} (h : Shapes.Spec roots t lines t' unfolding) :
    Agree roots t lines t' unfolding ↔ ¬ EndsAtCap unfolding := by
  have hlength : (DependencyGraphService.preorder roots).length < unfolding.length ↔
      maxTreeNodes < unfolding.length := by
    rw [h.preorder, List.length_map, List.length_take]
    omega
  constructor
  · intro hagree hends
    have htree : t = true := by
      simp [h.treeFlag, hends.1, hends.2]
    have htext : t' = false := by
      simp [h.textFlag, hends.1]
    simpa [htree, htext] using hagree.flags
  · intro hends
    have hflag : (decide (unfolding.length = maxTreeNodes) && endsNew unfolding) = false := by
      by_cases hsize : unfolding.length = maxTreeNodes
      · have hnew : endsNew unfolding = false := by
          simpa using fun hnew => hends ⟨hsize, hnew⟩
        simp [hnew]
      · simp [hsize]
    have htree : t = decide (maxTreeNodes < unfolding.length) := by
      rw [h.treeFlag, hflag, Bool.or_false]
    constructor
    · rw [h.entries, h.preorder]
    · rw [htree, h.textFlag]
    · rw [hlength, htree, decide_eq_true_eq]

/-- **Main theorem.** The tree lists the tasks of the text in the same order and at the same
    depths, with the same flag, and the flag says whether a node of the unfolding was left out,
    exactly when the unfolding does not end at the cap with a new node. -/
theorem shapesAgree_iff_not_endsAtCap (order : RowOrder) (db : Db) (projectId : Nat)
    (hproject : (db.projects.find? projectId).isSome = true) :
    ShapesAgree order db projectId ↔ ¬ EndsAtCap (unfolding order db projectId) := by
  constructor
  · intro h
    obtain ⟨roots, t, lines, t', hshapes, hagree⟩ := h
    exact (hshapes.spec hproject).agree_iff.1 hagree
  · intro hends
    obtain ⟨roots, t, lines, t', hshapes, hspec⟩ :=
      shapes_exist order hproject
    exact ⟨roots, t, lines, t', hshapes, hspec.agree_iff.2 hends⟩

/-- A diamond. -/
theorem shapesAgree_iff_not_endsAtCap_diamond :
    ShapesAgree .stable (graphProject 4 [(1, 2), (1, 3), (2, 4), (3, 4)]) 1 ↔
      ¬ EndsAtCap (unfolding .stable (graphProject 4 [(1, 2), (1, 3), (2, 4), (3, 4)]) 1) :=
  shapesAgree_iff_not_endsAtCap .stable (graphProject 4 [(1, 2), (1, 3), (2, 4), (3, 4)]) 1
    (by decide)

theorem projectTasks_flat (n : Nat) :
    (graphProject n []).projectTasks 1 = (List.range n).map fun i => graphTask (i + 1) := by
  show ((List.range n).map fun i => graphTask (i + 1)).filter (fun t => t.projectId == 1) = _
  rw [List.filter_eq_self]
  intro t ht
  obtain ⟨i, -, rfl⟩ := List.mem_map.1 ht
  rfl

/-- The unfolding of unconnected tasks has one node for each, and no revisit. -/
theorem unfolding_flat (n : Nat) :
    (unfolding .stable (graphProject n []) 1).length = n ∧
      (0 < n → endsNew (unfolding .stable (graphProject n []) 1) = true) := by
  have hlength : ((readSnapshot .stable (graphProject n []) 1).tasks.map Task.id).length = n := by
    have hperm := (snapshot_ids .stable (graphProject n []) 1).length_eq
    rw [Db.projectIds, projectTasks_flat] at hperm
    exact hperm.trans (by simp)
  have hedges : (readSnapshot .stable (graphProject n []) 1).projectEdges = [] := rfl
  rw [unfolding, unfolding_of_no_edges hedges]
  constructor
  · rw [List.length_map, length_sortTasks, hlength]
  · intro hpos
    have hne : sortTasks (readSnapshot .stable (graphProject n []) 1).context.tasksById
        ((readSnapshot .stable (graphProject n []) 1).tasks.map Task.id) ≠ [] := by
      rw [← List.length_pos_iff, length_sortTasks, hlength]
      exact hpos
    rw [endsNew, List.getLast?_map, List.getLast?_eq_some_getLast hne]
    rfl

/-- As many unconnected tasks as the cap: the tree is flagged, though it lists them all. -/
theorem full_flat_project : ¬ ShapesAgree .stable (graphProject maxTreeNodes []) 1 := by
  intro h
  obtain ⟨roots, t, lines, t', hshapes, hagree⟩ := h
  obtain ⟨hlength, hnew⟩ := unfolding_flat maxTreeNodes
  have hfound : ((graphProject maxTreeNodes []).projects.find? 1).isSome = true := rfl
  exact (hshapes.spec hfound).agree_iff.1 hagree ⟨hlength, hnew (by decide)⟩

end WoodFiredTasks.DependencyGraphService
