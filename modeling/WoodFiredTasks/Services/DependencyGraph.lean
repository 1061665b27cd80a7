import WoodFiredTasks.Lib.Text
import WoodFiredTasks.Lib.Unfolding
import WoodFiredTasks.Services.Topology

set_option autoImplicit false

/-! # The dependency graph of a project

The three shapes of `src/services/dependency-graph.service.ts`: the tree, the flat graph and the
lines of text. The tree and the text come from two recursions of their own, which share the roots,
the children, the cap on the number of nodes and the set of the ids above a node on its branch. A
`Set` of ids that only grows along a branch is the list of them, the last one first.

The recursions are cut by fuel, one unit more than the project has tasks, and `none` is one that
needs more. -/

namespace WoodFiredTasks

namespace DependencyGraphService

/-- `MAX_TREE_NODES`. -/
def maxTreeNodes : Nat := 1000

/-- `PRIORITY_WEIGHT`. -/
def priorityWeight : TaskPriority → Int
  | .urgent => 4
  | .high => 3
  | .medium => 2
  | .low => 1

/-- `STATUS_GLYPH`. -/
def statusGlyph : TaskStatus → String
  | .open => "○"
  | .inProgress => "◐"
  | .done => "✓"
  | .closed => "✓"
  | .blocked => "✗"
  | .backlogged => "○"

structure TreeCounter where
  count : Nat
  truncated : Bool
  deriving DecidableEq, Repr

structure TreeContext where
  childrenByParent : Nat → List Nat
  tasksById : Nat → Option Task
  inDegree : Nat → Int

/-- `DependencyGraphTreeNode`. -/
structure TreeNode where
  id : Nat
  title : String
  status : TaskStatus
  priority : TaskPriority
  depth : Nat
  blockedByCount : Int
  children : List TreeNode

/-- A node of the graph shape. -/
structure GraphNode where
  id : Nat
  title : String
  status : TaskStatus
  priority : TaskPriority
  deriving DecidableEq, Repr

/-- `DependencyGraphResult`. -/
inductive Result where
  | tree (roots : List TreeNode) (topology : Topology) (totalTasks totalEdges : Nat)
      (truncated : Bool)
  | graph (nodes : List GraphNode) (edges : List ProjectEdge) (topology : Topology)
      (totalTasks totalEdges : Nat)
  | text (lines : List String) (topology : Topology) (totalTasks totalEdges : Nat)
      (truncated : Bool)

/-! ## Roots and children -/

/-- `compareTasks`: by priority, then the newer first, then by id. -/
def compareTasks (tasksById : Nat → Option Task) (aId bId : Nat) : Int :=
  match tasksById aId, tasksById bId with
  | some a, some b =>
    if priorityWeight a.priority ≠ priorityWeight b.priority then
      priorityWeight b.priority - priorityWeight a.priority
    else if a.createdAt ≠ b.createdAt then
      if a.createdAt.le b.createdAt then 1 else -1
    else (a.id : Int) - b.id
  | _, _ => (aId : Int) - bId

/-- `ids.sort(compareTasks)`. -/
def sortTasks (tasksById : Nat → Option Task) (ids : List Nat) : List Nat :=
  ids.insertionSort fun a b => compareTasks tasksById a b ≤ 0

/-- The maps of the tree and text shapes. -/
def Snapshot.context (s : Snapshot) : TreeContext :=
  let tasksById := fun id => s.tasks.find? fun t => t.id == id
  { childrenByParent := fun id => sortTasks tasksById (Kahn.successors s.projectEdges id)
    tasksById
    inDegree := Kahn.inDegrees s.projectEdges }

/-- The tasks that no edge of the project enters, and without one of these the first task. -/
def Snapshot.rootIds (s : Snapshot) : List Nat :=
  let ids := s.tasks.map Task.id
  let roots :=
    sortTasks s.context.tasksById (ids.filter fun id => s.context.inDegree id = 0)
  -- N1: a single synthetic root when every task has incoming edges
  if roots = [] ∧ s.tasks ≠ [] then (sortTasks s.context.tasksById ids).take 1 else roots

/-! ## The two recursions -/

/-- A loop over siblings, which tests the cap before each of them. `visit` is told whether the
    sibling is the last. -/
def siblings {ρ : Type} (visit : Nat → Bool → TreeCounter → Option (ρ × TreeCounter)) :
    List Nat → TreeCounter → Option (List ρ × TreeCounter)
  | [], counter => some ([], counter)
  | id :: rest, counter =>
    if maxTreeNodes ≤ counter.count then some ([], { counter with truncated := true })
    else do
      let (x, counter) ← visit id rest.isEmpty counter
      let (xs, counter) ← siblings visit rest counter
      return (x :: xs, counter)

/-- The text of a task in a tree or a line. -/
def label (id : Nat) (task : Task) : String :=
  s!"#{id} {statusGlyph task.status} {task.title} ({task.priority.text})"

/-- The node of a task of the project. -/
def TreeContext.node (ctx : TreeContext) (id : Nat) (task : Task) (depth : Nat)
    (children : List TreeNode) : TreeNode :=
  { id, title := task.title, status := task.status, priority := task.priority, depth,
    blockedByCount := ctx.inDegree id, children }

/-- `buildTreeNode`. -/
def buildTreeNode (ctx : TreeContext) :
    Nat → Nat → Nat → List Nat → TreeCounter → Option (TreeNode × TreeCounter)
  | 0, _, _, _, _ => none
  | fuel + 1, id, depth, visited, counter =>
    let counter := { counter with count := counter.count + 1 }
    match ctx.tasksById id with
    | none =>
      some ({ id, title := s!"[missing task #{id}]", status := .open, priority := .low, depth,
              blockedByCount := 0, children := [] }, counter)
    | some task =>
      if id ∈ visited then some (ctx.node id task depth [], counter)
      else if maxTreeNodes ≤ counter.count then
        some (ctx.node id task depth [], { counter with truncated := true })
      else do
        let (children, counter) ←
          siblings (fun childId _ => buildTreeNode ctx fuel childId (depth + 1) (id :: visited))
            (ctx.childrenByParent id) counter
        return (ctx.node id task depth children, counter)

/-- The line of a task: a root is printed bare. -/
def renderLine (id : Nat) (task : Task) (trunk : String) (isLastSibling isRoot : Bool) : String :=
  if isRoot then label id task
  else
    let connector := if isLastSibling then "└──" else "├──"
    s!"{trunk}{connector} {label id task}"

/-- `walk` of `renderTextLines`, with the lines it adds to `out`; `trunk` is its `prefix`. -/
def walk (ctx : TreeContext) :
    Nat → Nat → String → Bool → Bool → List Nat → TreeCounter → Option (List String × TreeCounter)
  | 0, _, _, _, _, _, _ => none
  | fuel + 1, id, trunk, isLastSibling, isRoot, visited, counter =>
    if maxTreeNodes ≤ counter.count then some ([], { counter with truncated := true })
    else
      match ctx.tasksById id with
      | none => some ([], counter)
      | some task =>
        let counter := { counter with count := counter.count + 1 }
        let line := renderLine id task trunk isLastSibling isRoot
        if id ∈ visited then some ([line], counter)
        else
          let childTrunk :=
            if isRoot then "" else trunk ++ (if isLastSibling then "    " else "│   ")
          do
            let (lines, counter) ←
              siblings (fun childId last => walk ctx fuel childId childTrunk last false
                (id :: visited)) (ctx.childrenByParent id) counter
            return (line :: lines.flatten, counter)

/-- The roots of the tree shape. -/
def treeShape (s : Snapshot) : Option (List TreeNode × TreeCounter) :=
  siblings (fun id _ => buildTreeNode s.context (s.tasks.length + 1) id 0 []) s.rootIds ⟨0, false⟩

/-- `renderTextLines`. -/
def renderTextLines (s : Snapshot) : Option (List String × TreeCounter) := do
  let (lines, counter) ←
    siblings (fun id _ => walk s.context (s.tasks.length + 1) id "" true true []) s.rootIds
      ⟨0, false⟩
  return (lines.flatten, counter)

/-- `buildDependencyGraph`. -/
def buildDependencyGraph (order : RowOrder) (db : Db) (projectId : Nat) (format : Format) :
    Except Err (Option Result) :=
  if (db.projects.find? projectId).isNone then .error (.notFound "Project" (toString projectId))
  else
    let s := readSnapshot order db projectId
    let totalTasks := s.tasks.length
    let totalEdges := s.projectEdges.length
    match format with
    | .graph =>
      let nodes := (s.tasks.insertionSort fun a b => a.id ≤ b.id).map fun t =>
        { id := t.id, title := t.title, status := t.status, priority := t.priority : GraphNode }
      .ok (some (.graph nodes (sortEdges s.projectEdges)
        (classifyTopologyInline s.tasks s.projectEdges) totalTasks totalEdges))
    | .text =>
      let topology := classifyFromInDegree s.tasks s.projectEdges s.context.inDegree
      .ok ((renderTextLines s).map fun (lines, counter) =>
        .text lines topology totalTasks totalEdges counter.truncated)
    | .tree =>
      let topology := classifyFromInDegree s.tasks s.projectEdges s.context.inDegree
      .ok ((treeShape s).map fun (roots, counter) =>
        .tree roots topology totalTasks totalEdges counter.truncated)

/-! ## What a result shows -/

/-- A node of a tree: its id, its depth field, and the ids above it, the nearest first. -/
structure Visit where
  id : Nat
  depth : Nat
  above : List Nat
  deriving DecidableEq, Repr

mutual

/-- The nodes of a tree in pre-order. -/
def TreeNode.visits (above : List Nat) : TreeNode → List Visit
  | ⟨id, _, _, _, depth, _, children⟩ =>
    ⟨id, depth, above⟩ :: visitsAll (id :: above) children

/-- The nodes of a list of trees. -/
def visitsAll (above : List Nat) : List TreeNode → List Visit
  | [] => []
  | node :: rest => node.visits above ++ visitsAll above rest

end

/-- The pre-order of a tree: ids and depths. -/
def preorder (roots : List TreeNode) : List (Nat × Nat) :=
  (visitsAll [] roots).map fun v => (v.id, v.depth)

/-- The paths from the roots of a tree to its nodes, each with the node first. -/
def paths (roots : List TreeNode) : List (List Nat) :=
  (visitsAll [] roots).map fun v => v.id :: v.above

/-- The id and the depth that a line shows: what stands before the first `#` is four characters
    wide for each level. -/
def lineEntry (line : String) : Nat × Nat :=
  let indent := line.toList.takeWhile (· ≠ '#')
  let digits := (line.toList.dropWhile (· ≠ '#')).tail.takeWhile Char.isDigit
  (Nat.ofDigitChars 10 digits 0, indent.length / 4)

/-- The paths that indented lines show. -/
def textPaths (lines : List String) : List (List Nat) :=
  Unfolding.readOutline [] (lines.map lineEntry)

/-- The paths of the tree without the cap, in pre-order. -/
def Snapshot.unfolding (s : Snapshot) : List (List Nat) :=
  Unfolding.branches s.context.childrenByParent (s.tasks.length + 1) s.rootIds

/-! ## Walks under the cap -/

section Walks

open Unfolding

theorem visitsAll_eq (above : List Nat) (nodes : List TreeNode) :
    visitsAll above nodes = nodes.flatMap (TreeNode.visits above) := by
  induction nodes with
  | nil => rfl
  | cons node rest ih => rw [List.flatMap_cons, ← ih, visitsAll]

/-- The counter goes on over the given nodes of the unfolding. -/
def Walked (marks : List Nat → Bool) (rows : List (List Nat)) (c c' : TreeCounter) : Prop :=
  (c'.count, c'.truncated) = rows.foldl (capStep maxTreeNodes marks) (c.count, c.truncated)

variable {marks : List Nat → Bool} {rows : List (List Nat)} {c c' : TreeCounter}

theorem Walked.count (h : Walked marks rows c c') (hc : c.count ≤ maxTreeNodes) :
    c'.count = min maxTreeNodes (c.count + rows.length) := by
  rw [Walked, foldl_capStep hc] at h
  exact (Prod.mk.inj h).1

/-- One loop over siblings, for a visit that shows what fits of its rows. -/
theorem siblings_spec {ρ β : Type} (marks : List Nat → Bool) (ids : List Nat)
    (visit : Nat → Bool → TreeCounter → Option (ρ × TreeCounter)) (read : ρ → List β)
    {rows : Nat → List (List Nat)} {f : List Nat → β}
    (hvisit : ∀ id ∈ ids, ∀ last c, c.count < maxTreeNodes → ∃ x c',
      visit id last c = some (x, c') ∧
        read x = ((rows id).take (maxTreeNodes - c.count)).map f ∧ Walked marks (rows id) c c')
    (hne : ∀ id ∈ ids, rows id ≠ []) (c : TreeCounter) (hc : c.count ≤ maxTreeNodes) :
    ∃ xs c', siblings visit ids c = some (xs, c') ∧
      xs.flatMap read = ((ids.flatMap rows).take (maxTreeNodes - c.count)).map f ∧
      Walked marks (ids.flatMap rows) c c' := by
  induction ids generalizing c with
  | nil => exact ⟨[], c, rfl, by simp, rfl⟩
  | cons id rest ih =>
    by_cases hfull : maxTreeNodes ≤ c.count
    · have hroom : maxTreeNodes - c.count = 0 := by omega
      have hsome : (id :: rest).flatMap rows ≠ [] := by simp [hne id (by simp)]
      refine ⟨[], { c with truncated := true }, by simp [siblings, hfull], by simp [hroom], ?_⟩
      rw [Walked, foldl_capStep_full hfull hsome]
    · obtain ⟨x, c₁, hx, hread, hwalk⟩ :=
        hvisit id (by simp) rest.isEmpty c (by omega)
      have hcount := hwalk.count hc
      obtain ⟨xs, c₂, hxs, hreads, hwalks⟩ :=
        ih (fun b hb => hvisit b (List.mem_cons_of_mem id hb))
          (fun b hb => hne b (List.mem_cons_of_mem id hb)) c₁ (by omega)
      refine ⟨x :: xs, c₂, by simp [siblings, hfull, hx, hxs], ?_, ?_⟩
      · have hroom : maxTreeNodes - c₁.count = maxTreeNodes - c.count - (rows id).length := by
          omega
        rw [List.flatMap_cons, List.flatMap_cons, hread, hreads, List.take_append, List.map_append,
          hroom]
      · rw [Walked, List.flatMap_cons, List.foldl_append, ← hwalk]
        exact hwalks

/-- What the two recursions rely on: children are tasks. -/
structure TreeContext.Closed (ctx : TreeContext) (ids : List Nat) : Prop where
  children : ∀ id, ctx.childrenByParent id ⊆ ids
  known : ∀ id ∈ ids, ∃ task, ctx.tasksById id = some task

variable {ctx : TreeContext} {ids : List Nat}

/-- What a tree node shows of its branch. -/
def visitOf (p : List Nat) : Visit := ⟨p.headD 0, p.tail.length, p.tail⟩

/-- A new node at the cap leaves its subtree out. -/
theorem walked_at_cap {p : List Nat} {rest : List (List Nat)} (hmarks : marks p = true)
    (hroom : c.count < maxTreeNodes) (hcap : maxTreeNodes ≤ c.count + 1) :
    Walked marks (p :: rest) c ⟨c.count + 1, true⟩ := by
  have hstep : capStep maxTreeNodes marks (c.count, c.truncated) p = (c.count + 1, true) := by
    simp [capStep, hroom, hcap, hmarks]
  rw [Walked, List.foldl_cons, hstep]
  by_cases hne : rest = []
  · rw [hne]
    rfl
  · rw [foldl_capStep_full hcap hne]

/-- A node that does not fill the cap, or does not mark it, is counted. -/
theorem walked_cons {p : List Nat} {rest : List (List Nat)} (hroom : c.count < maxTreeNodes)
    (hmarks : marks p = true → c.count + 1 < maxTreeNodes)
    (h : Walked marks rest { c with count := c.count + 1 } c') :
    Walked marks (p :: rest) c c' := by
  have hstep : capStep maxTreeNodes marks (c.count, c.truncated) p
      = (c.count + 1, c.truncated) := by
    rw [capStep, if_neg (by omega)]
    by_cases hp : marks p = true
    · have hlt := hmarks hp
      simp [hp, hlt]
    · simp [hp]
  rw [Walked, List.foldl_cons, hstep]
  exact h

/-- **One node of the tree.** It shows what fits of its part of the unfolding. -/
theorem buildTreeNode_spec (hctx : ctx.Closed ids) {fuel : Nat} {above : List Nat} {id : Nat}
    (henough : Enough ids fuel above) (hid : id ∈ ids) (c : TreeCounter)
    (hc : c.count < maxTreeNodes) :
    ∃ node c', buildTreeNode ctx fuel id above.length above c = some (node, c') ∧
      node.visits above = ((below ctx.childrenByParent fuel above id).take
        (maxTreeNodes - c.count)).map visitOf ∧
      Walked (fun p => !revisit p) (below ctx.childrenByParent fuel above id) c c' := by
  induction fuel generalizing above id c with
  | zero =>
    obtain ⟨n, hn⟩ := henough.exists_succ
    omega
  | succ fuel ih =>
    obtain ⟨task, htask⟩ := hctx.known id hid
    obtain ⟨room, hroom⟩ : ∃ n, maxTreeNodes - c.count = n + 1 :=
      ⟨maxTreeNodes - c.count - 1, by omega⟩
    rw [below_succ, hroom]
    by_cases hmem : id ∈ above
    · -- halt at the first revisit: a leaf, which is counted and never flagged
      refine ⟨_, _, by rw [buildTreeNode, htask]; exact if_pos hmem, ?_, ?_⟩
      · simp [hmem, TreeContext.node, TreeNode.visits, visitsAll, visitOf]
      · rw [if_pos hmem]
        exact walked_cons hc (by simp [revisit, hmem]) rfl
    · have hmark : (!revisit (id :: above)) = true := by simp [revisit, hmem]
      by_cases hcap : maxTreeNodes ≤ c.count + 1
      · have hone : room = 0 := by omega
        refine ⟨_, _, by rw [buildTreeNode, htask]; exact (if_neg hmem).trans (if_pos hcap), ?_,
          walked_at_cap hmark hc hcap⟩
        simp [hone, TreeContext.node, TreeNode.visits, visitsAll, visitOf]
      · have hdown := henough.descend hmem hid
        obtain ⟨children, c', hchildren, hread, hwalk⟩ :=
          siblings_spec (fun p => !revisit p) (ctx.childrenByParent id)
            (fun childId _ => buildTreeNode ctx fuel childId (above.length + 1) (id :: above)) _
            (fun b hb _ c hc => ih hdown (hctx.children id hb) c hc)
            (fun b _ => hdown.below_ne_nil b) { c with count := c.count + 1 } (by simp; omega)
        refine ⟨ctx.node id task above.length children, c', ?_, ?_,
          walked_cons hc (fun _ => by omega) ?_⟩
        · rw [buildTreeNode, htask]
          dsimp only
          rw [if_neg hmem, if_neg hcap, hchildren]
          rfl
        · have hrest : maxTreeNodes - (c.count + 1) = room := by omega
          rw [hrest] at hread
          rw [if_neg hmem, List.take_succ_cons, List.map_cons, ← hread, TreeContext.node,
            TreeNode.visits, visitsAll_eq]
          rfl
        · rw [if_neg hmem]
          exact hwalk

/-! ### Lines -/

/-- The trunk of a line under the given ids. -/
structure Trunk (trunk : String) (isRoot : Bool) (above : List Nat) : Prop where
  noHash : '#' ∉ trunk.toList
  length : if isRoot then above = [] else trunk.toList.length + 4 = 4 * above.length

theorem Trunk.child {trunk : String} {isRoot : Bool} {above : List Nat}
    (h : Trunk trunk isRoot above) (isLastSibling : Bool) (id : Nat) :
    Trunk (if isRoot then "" else trunk ++ (if isLastSibling then "    " else "│   ")) false
      (id :: above) := by
  have hlength := h.length
  by_cases hroot : isRoot = true
  · simp only [hroot, if_true] at hlength ⊢
    exact ⟨by simp, by simp [hlength]⟩
  · simp only [hroot, if_false, Bool.false_eq_true] at hlength ⊢
    have hpad : ∀ pad ∈ ["    ", "│   "], '#' ∉ pad.toList ∧ pad.toList.length = 4 := by decide
    obtain ⟨hhash, hfour⟩ :=
      hpad (if isLastSibling then "    " else "│   ") (by cases isLastSibling <;> simp)
    refine ⟨?_, ?_⟩
    · rw [String.toList_append, List.mem_append]
      exact not_or.2 ⟨h.noHash, hhash⟩
    · rw [String.toList_append, List.length_append, hfour, List.length_cons]
      simp only [Bool.false_eq_true, if_false]
      omega

/-- What is read off a line whose first `#` stands before the id. -/
theorem lineEntry_eq {line : String} {indent rest : List Char} {id depth : Nat}
    (hline : line.toList = indent ++ '#' :: ((toString id).toList ++ ' ' :: rest))
    (hhash : '#' ∉ indent) (hindent : indent.length = 4 * depth) :
    lineEntry line = (id, depth) := by
  have hne : ∀ ch ∈ indent, decide (ch ≠ '#') = true := by
    intro ch hch
    simpa using fun heq : ch = '#' => hhash (heq ▸ hch)
  have htake : line.toList.takeWhile (· ≠ '#') = indent := by
    rw [hline, List.takeWhile_append_of_pos hne]
    simp
  have hdrop : line.toList.dropWhile (· ≠ '#') = '#' :: ((toString id).toList ++ ' ' :: rest) := by
    rw [hline, List.dropWhile_append_of_pos hne]
    simp
  have hdigits : ((toString id).toList ++ ' ' :: rest).takeWhile Char.isDigit
      = (toString id).toList := by
    rw [List.takeWhile_append_of_pos (fun ch hch => isDigit_of_mem_toString hch)]
    simp
  have hnum : Nat.ofDigitChars 10 (toString id).toList 0 = id := by
    have : (toString id).toList = Nat.toDigits 10 id := by simp
    rw [this, Nat.ofDigitChars_ten_toDigits]
  rw [lineEntry, htake, hdrop]
  simp only [List.tail_cons, hdigits, hnum, hindent, Prod.mk.injEq, true_and]
  omega

theorem label_toList (id : Nat) (task : Task) :
    ∃ rest, (label id task).toList = '#' :: ((toString id).toList ++ ' ' :: rest) := by
  have hhash : "#".toList = ['#'] := rfl
  have hblank : " ".toList = [' '] := rfl
  simp only [label, String.toList_append, toString, List.append_assoc, hhash, hblank,
    List.cons_append, List.nil_append]
  exact ⟨_, rfl⟩

theorem lineEntry_renderLine {trunk : String} {isRoot : Bool} {above : List Nat}
    (htrunk : Trunk trunk isRoot above) (id : Nat) (task : Task) (isLastSibling : Bool) :
    lineEntry (renderLine id task trunk isLastSibling isRoot) = (id, above.length) := by
  have hlength := htrunk.length
  obtain ⟨rest, hrest⟩ := label_toList id task
  by_cases hroot : isRoot = true
  · simp only [hroot, if_true] at hlength
    have hline : (renderLine id task trunk isLastSibling isRoot).toList
        = [] ++ '#' :: ((toString id).toList ++ ' ' :: rest) := by
      rw [renderLine, if_pos hroot]
      exact hrest
    exact lineEntry_eq hline (by simp) (by simp [hlength])
  · simp only [hroot, if_false, Bool.false_eq_true] at hlength
    have hpad : ∀ pad ∈ ["└──", "├──"], '#' ∉ pad.toList ∧ pad.toList.length = 3 := by decide
    obtain ⟨hhash, hthree⟩ :=
      hpad (if isLastSibling then "└──" else "├──") (by cases isLastSibling <;> simp)
    have hblank : " ".toList = [' '] := rfl
    have hline : (renderLine id task trunk isLastSibling isRoot).toList
        = (trunk.toList ++ ((if isLastSibling then "└──" else "├──").toList ++ [' ']))
          ++ '#' :: ((toString id).toList ++ ' ' :: rest) := by
      rw [renderLine, if_neg hroot, ← hrest]
      simp only [toString, String.toList_append, List.append_assoc, hblank]
    refine lineEntry_eq hline ?_ ?_
    · simp only [List.mem_append, List.mem_singleton]
      exact not_or.2 ⟨htrunk.noHash, not_or.2 ⟨hhash, by decide⟩⟩
    · simp only [List.length_append, hthree, List.length_singleton]
      omega

/-- What a line shows of a branch. -/
def entryOf (p : List Nat) : Nat × Nat := (p.headD 0, p.tail.length)

/-- **One walk of the text.** It shows what fits of its part of the unfolding. -/
theorem walk_spec (hctx : ctx.Closed ids) {fuel : Nat} {above : List Nat} {id : Nat}
    {trunk : String} {isRoot : Bool} (henough : Enough ids fuel above) (hid : id ∈ ids)
    (htrunk : Trunk trunk isRoot above) (isLastSibling : Bool) (c : TreeCounter)
    (hc : c.count < maxTreeNodes) :
    ∃ lines c', walk ctx fuel id trunk isLastSibling isRoot above c = some (lines, c') ∧
      lines.map lineEntry = ((below ctx.childrenByParent fuel above id).take
        (maxTreeNodes - c.count)).map entryOf ∧
      Walked (fun _ => false) (below ctx.childrenByParent fuel above id) c c' := by
  induction fuel generalizing above id trunk isRoot isLastSibling c with
  | zero =>
    obtain ⟨n, hn⟩ := henough.exists_succ
    omega
  | succ fuel ih =>
    obtain ⟨task, htask⟩ := hctx.known id hid
    obtain ⟨room, hroom⟩ : ∃ n, maxTreeNodes - c.count = n + 1 :=
      ⟨maxTreeNodes - c.count - 1, by omega⟩
    have hentry := lineEntry_renderLine htrunk id task isLastSibling
    have hfull : ¬ maxTreeNodes ≤ c.count := by omega
    rw [below_succ, hroom]
    by_cases hmem : id ∈ above
    · refine ⟨_, _, by rw [walk, if_neg hfull, htask]; exact if_pos hmem, ?_, ?_⟩
      · simp [hmem, hentry, entryOf]
      · rw [if_pos hmem]
        exact walked_cons hc (by simp) rfl
    · have hdown := henough.descend hmem hid
      obtain ⟨lines, c', hlines, hread, hwalk⟩ :=
        siblings_spec (fun _ => false) (ctx.childrenByParent id)
          (fun childId last => walk ctx fuel childId
            (if isRoot then "" else trunk ++ (if isLastSibling then "    " else "│   ")) last false
            (id :: above))
          (fun lines => lines.map lineEntry)
          (fun b hb last c hc =>
            ih hdown (hctx.children id hb) (htrunk.child isLastSibling id) last c hc)
          (fun b _ => hdown.below_ne_nil b) { c with count := c.count + 1 } (by simp; omega)
      refine ⟨renderLine id task trunk isLastSibling isRoot :: lines.flatten, c', ?_, ?_,
        walked_cons hc (by simp) ?_⟩
      · rw [walk, if_neg hfull, htask]
        dsimp only
        rw [if_neg hmem, hlines]
        rfl
      · have hrest : maxTreeNodes - (c.count + 1) = room := by omega
        rw [hrest] at hread
        rw [if_neg hmem, List.take_succ_cons, List.map_cons, hentry, List.map_flatten,
          ← List.flatMap_def, hread]
        rfl
      · rw [if_neg hmem]
        exact hwalk

end Walks

/-! ## The two shapes -/

section Shapes

open Unfolding

variable {s : Snapshot}

theorem mem_sortTasks {tasksById : Nat → Option Task} {ids : List Nat} {id : Nat} :
    id ∈ sortTasks tasksById ids ↔ id ∈ ids :=
  (List.perm_insertionSort _ ids).mem_iff

theorem length_sortTasks (tasksById : Nat → Option Task) (ids : List Nat) :
    (sortTasks tasksById ids).length = ids.length :=
  (List.perm_insertionSort _ ids).length_eq

/-- The edges of a snapshot run between its tasks. -/
def Snapshot.Sound (s : Snapshot) : Prop :=
  ∀ e ∈ s.projectEdges, e.1 ∈ s.tasks.map Task.id ∧ e.2 ∈ s.tasks.map Task.id

theorem mem_childrenByParent {a b : Nat} :
    b ∈ s.context.childrenByParent a ↔ (a, b) ∈ s.projectEdges := by
  simp [Snapshot.context, mem_sortTasks, Kahn.successors]

theorem Snapshot.Sound.closed (h : s.Sound) : s.context.Closed (s.tasks.map Task.id) := by
  constructor
  · intro a b hb
    exact (h _ (mem_childrenByParent.1 hb)).2
  · intro id hid
    obtain ⟨t, ht, rfl⟩ := List.mem_map.1 hid
    have hfind : (s.tasks.find? fun u => u.id == t.id).isSome := by
      rw [List.find?_isSome]
      exact ⟨t, ht, by simp⟩
    exact Option.isSome_iff_exists.1 hfind

theorem rootIds_subset (s : Snapshot) : s.rootIds ⊆ s.tasks.map Task.id := by
  intro id hid
  rw [Snapshot.rootIds] at hid
  by_cases hsynthetic : sortTasks s.context.tasksById
      ((s.tasks.map Task.id).filter fun id => s.context.inDegree id = 0) = [] ∧ s.tasks ≠ []
  · rw [if_pos hsynthetic] at hid
    exact mem_sortTasks.1 (List.mem_of_mem_take hid)
  · rw [if_neg hsynthetic, mem_sortTasks] at hid
    exact List.mem_of_mem_filter hid

/-- The roots of a project with an enterable task are the tasks that no edge enters. -/
theorem mem_rootIds (hsome : ∃ t ∈ s.tasks, ∀ a, (a, t.id) ∉ s.projectEdges) {id : Nat} :
    id ∈ s.rootIds ↔ id ∈ s.tasks.map Task.id ∧ ∀ a, (a, id) ∉ s.projectEdges := by
  have hzero : ∀ id, s.context.inDegree id = 0 ↔ ∀ a, (a, id) ∉ s.projectEdges := by
    intro id
    show Kahn.inDegrees s.projectEdges id = 0 ↔ _
    rw [Kahn.inDegrees_eq, Int.natCast_eq_zero, Kahn.openEdges_eq_zero]
    simp
  have hne : sortTasks s.context.tasksById
      ((s.tasks.map Task.id).filter fun id => s.context.inDegree id = 0) ≠ [] := by
    obtain ⟨t, ht, hfree⟩ := hsome
    apply List.ne_nil_of_mem (a := t.id)
    rw [mem_sortTasks, List.mem_filter]
    exact ⟨List.mem_map_of_mem ht, by simpa using (hzero t.id).2 hfree⟩
  rw [Snapshot.rootIds, if_neg (fun h => hne h.1), mem_sortTasks, List.mem_filter]
  simp only [decide_eq_true_eq, hzero]

/-- The unfolding of a project without edges is the list of its tasks. -/
theorem unfolding_of_no_edges (h : s.projectEdges = []) :
    s.unfolding = (sortTasks s.context.tasksById (s.tasks.map Task.id)).map fun id => [id] := by
  have hroots : s.rootIds = sortTasks s.context.tasksById (s.tasks.map Task.id) := by
    have hfilter : (s.tasks.map Task.id).filter (fun id => s.context.inDegree id = 0)
        = s.tasks.map Task.id := by
      rw [List.filter_eq_self]
      intro id _
      simp [Snapshot.context, h, Kahn.inDegrees]
    rw [Snapshot.rootIds, hfilter]
    by_cases htasks : s.tasks = []
    · simp [htasks]
    · rw [if_neg]
      intro hand
      have hlength := length_sortTasks s.context.tasksById (s.tasks.map Task.id)
      rw [hand.1, List.length_map] at hlength
      exact htasks (List.length_eq_zero_iff.1 hlength.symm)
  have hnone : ∀ a, s.context.childrenByParent a = [] := by
    intro a
    simp [Snapshot.context, h, Kahn.successors, sortTasks]
  rw [Snapshot.unfolding, branches_of_no_succ hnone, hroots]

/-- The last node of the unfolding is not a revisit. -/
def endsNew (rows : List (List Nat)) : Bool := rows.getLast?.any fun p => !revisit p

theorem walked_all {marks : List Nat → Bool} {rows : List (List Nat)} {c : TreeCounter}
    (h : Walked marks rows ⟨0, false⟩ c) :
    c.truncated = (decide (maxTreeNodes < rows.length) ||
      (decide (rows.length = maxTreeNodes) && rows.getLast?.any marks)) := by
  rw [Walked, foldl_capStep (Nat.zero_le _)] at h
  have hflag := (Prod.mk.inj h).2
  simpa using hflag

/-- **The tree shape.** The recursion ends; it shows the first nodes of the unfolding. -/
theorem treeShape_spec (h : s.Sound) :
    ∃ roots c, treeShape s = some (roots, c) ∧
      visitsAll [] roots = (s.unfolding.take maxTreeNodes).map visitOf ∧
      c.truncated = (decide (maxTreeNodes < s.unfolding.length) ||
        (decide (s.unfolding.length = maxTreeNodes) && endsNew s.unfolding)) := by
  have henough : Enough (s.tasks.map Task.id) (s.tasks.length + 1) [] := by
    simpa using Enough.start (s.tasks.map Task.id)
  obtain ⟨roots, c, hroots, hread, hwalk⟩ :=
    siblings_spec (fun p => !revisit p) s.rootIds
      (fun id _ => buildTreeNode s.context (s.tasks.length + 1) id 0 []) _
      (fun id hid _ c hc => buildTreeNode_spec h.closed henough (rootIds_subset s hid) c hc)
      (fun id _ => henough.below_ne_nil id) ⟨0, false⟩ (Nat.zero_le _)
  refine ⟨roots, c, hroots, ?_, walked_all hwalk⟩
  rw [visitsAll_eq]
  exact hread

/-- **The text shape.** The recursion ends; it shows the first nodes of the unfolding. -/
theorem renderTextLines_spec (h : s.Sound) :
    ∃ lines c, renderTextLines s = some (lines, c) ∧
      lines.map lineEntry = (s.unfolding.take maxTreeNodes).map entryOf ∧
      c.truncated = decide (maxTreeNodes < s.unfolding.length) := by
  have henough : Enough (s.tasks.map Task.id) (s.tasks.length + 1) [] := by
    simpa using Enough.start (s.tasks.map Task.id)
  obtain ⟨lines, c, hlines, hread, hwalk⟩ :=
    siblings_spec (fun _ => false) s.rootIds
      (fun id _ => walk s.context (s.tasks.length + 1) id "" true true [])
      (fun lines => lines.map lineEntry)
      (fun id hid _ c hc => walk_spec h.closed henough (rootIds_subset s hid)
        ⟨by simp, by simp⟩ true c hc)
      (fun id _ => henough.below_ne_nil id) ⟨0, false⟩ (Nat.zero_le _)
  refine ⟨lines.flatten, c, by simp [renderTextLines, hlines], ?_, ?_⟩
  · rw [List.map_flatten, ← List.flatMap_def]
    exact hread
  · have hflag : c.truncated = (decide (maxTreeNodes < s.unfolding.length) ||
        (decide (s.unfolding.length = maxTreeNodes) && s.unfolding.getLast?.any fun _ => false)) :=
      walked_all hwalk
    simpa using hflag

theorem unfolding_ne_nil {p : List Nat} (hp : p ∈ s.unfolding) : p ≠ [] :=
  (preorder_branches _ _).ne_nil p hp

/-- The paths of a tree that shows the given nodes of the unfolding. -/
theorem paths_eq {roots : List TreeNode} {n : Nat}
    (h : visitsAll [] roots = (s.unfolding.take n).map visitOf) :
    paths roots = s.unfolding.take n := by
  rw [paths, h, List.map_map]
  refine (List.map_congr_left ?_).trans (List.map_id _)
  intro p hp
  obtain ⟨a, above, rfl⟩ := List.exists_cons_of_ne_nil (unfolding_ne_nil (List.mem_of_mem_take hp))
  rfl

theorem preorder_eq {roots : List TreeNode} {n : Nat}
    (h : visitsAll [] roots = (s.unfolding.take n).map visitOf) :
    preorder roots = (s.unfolding.take n).map entryOf := by
  rw [preorder, h, List.map_map]
  rfl

/-- The paths that lines show. -/
theorem textPaths_eq {lines : List String} {n : Nat}
    (h : lines.map lineEntry = (s.unfolding.take n).map entryOf) :
    textPaths lines = s.unfolding.take n := by
  rw [textPaths, h]
  exact readOutline_map (fun _ _ => rfl) ((preorder_branches _ _).take n)

end Shapes

end DependencyGraphService

end WoodFiredTasks
