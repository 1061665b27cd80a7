import WoodFiredTasks.Lib.Dfs

set_option autoImplicit false

/-! # The cycle detector

`CycleDetector` (`src/utils/cycle-detector.ts`): an adjacency map, built edge by edge, and the
depth-first search over it. A JavaScript `Map` of `Set`s is a list in insertion order. -/

namespace WoodFiredTasks

/-- `Map<number, Set<number>>`. -/
abbrev AdjacencyList := List (Nat × List Nat)

namespace CycleDetector

/-- `get(node)`, with the empty set for a missing key. -/
def get (adj : AdjacencyList) (node : Nat) : List Nat :=
  match adj with
  | [] => []
  | (n, ns) :: rest => if n = node then ns else get rest node

/-- `get(source).add(target)`, after `set(source, new Set())` where the key is missing. -/
def addEdge (adj : AdjacencyList) (source target : Nat) : AdjacencyList :=
  match adj with
  | [] => [(source, [target])]
  | (n, ns) :: rest =>
    if n = source then (n, if target ∈ ns then ns else ns ++ [target]) :: rest
    else (n, ns) :: addEdge rest source target

/-- `get(source).delete(target)`, and the key too when its set is empty then. -/
def removeEdge (adj : AdjacencyList) (source target : Nat) : AdjacencyList :=
  match adj with
  | [] => []
  | (n, ns) :: rest =>
    if n = source then
      let ns' := ns.filter (· ≠ target)
      if ns'.isEmpty then rest else (n, ns') :: rest
    else (n, ns) :: removeEdge rest source target

/-- The constructor. -/
def ofEdges (edges : List (Nat × Nat)) : AdjacencyList :=
  edges.foldl (fun adj edge => addEdge adj edge.1 edge.2) []

/-- All sources and targets. -/
def allNodes (adj : AdjacencyList) : List Nat := adj.flatMap fun entry => entry.1 :: entry.2

/-- `detectCycle`. The search always ends (`Dfs.hasCycle_eq`). -/
def detectCycle (adj : AdjacencyList) : Bool := Dfs.hasCycle (get adj) (allNodes adj) == some true

/-- `wouldCreateCycle`: the answer, and the map that is left after the temporary edge has been
    removed again. -/
def wouldCreateCycle (adj : AdjacencyList) (source target : Nat) : Bool × AdjacencyList :=
  let adj' := addEdge adj source target
  (detectCycle adj', removeEdge adj' source target)

/-! ## Exactness -/

theorem mem_get_addEdge (adj : AdjacencyList) (source target a b : Nat) :
    b ∈ get (addEdge adj source target) a ↔ b ∈ get adj a ∨ (a = source ∧ b = target) := by
  induction adj with
  | nil =>
    simp only [addEdge, get, List.not_mem_nil, false_or]
    by_cases h : source = a
    · simp [h]
    · simp [h, Ne.symm h]
  | cons entry rest ih =>
    obtain ⟨n, ns⟩ := entry
    by_cases hn : n = source
    · subst hn
      simp only [addEdge, if_true, get]
      by_cases ha : n = a
      · subst ha
        by_cases ht : target ∈ ns
        · simp only [ht, if_true, true_and]
          exact ⟨.inl, fun h => h.elim id fun h => h ▸ ht⟩
        · simp [ht]
      · simp [ha, Ne.symm ha]
    · simp only [addEdge, if_neg hn, get]
      by_cases ha : n = a
      · subst ha
        simp [hn]
      · simp only [if_neg ha]
        exact ih

theorem mem_get_ofEdges (edges : List (Nat × Nat)) (a b : Nat) :
    b ∈ get (ofEdges edges) a ↔ (a, b) ∈ edges := by
  have h : ∀ adj, b ∈ get (edges.foldl (fun adj edge => addEdge adj edge.1 edge.2) adj) a ↔
      b ∈ get adj a ∨ (a, b) ∈ edges := by
    induction edges with
    | nil => simp
    | cons edge rest ih =>
      intro adj
      rw [List.foldl_cons, ih, mem_get_addEdge, List.mem_cons, or_assoc, Prod.ext_iff]
  simpa [get, ofEdges] using h []

theorem mem_allNodes_of_get {adj : AdjacencyList} {a b : Nat} (h : b ∈ get adj a) :
    a ∈ allNodes adj ∧ b ∈ allNodes adj := by
  induction adj with
  | nil => simp [get] at h
  | cons entry rest ih =>
    obtain ⟨n, ns⟩ := entry
    simp only [get] at h
    simp only [allNodes, List.flatMap_cons, List.mem_append, List.mem_cons]
    split at h
    · rename_i hn
      exact ⟨.inl (.inl hn.symm), .inl (.inr h)⟩
    · exact ⟨.inr (ih h).1, .inr (ih h).2⟩

theorem detectCycle_iff (adj : AdjacencyList) :
    detectCycle adj = true ↔ ∃ a, Relation.TransGen (Dfs.Edge (get adj)) a a := by
  rcases Dfs.hasCycle_eq fun a b (h : b ∈ get adj a) => mem_allNodes_of_get h with
    ⟨hr, hcycle⟩ | ⟨hr, hall⟩
  · simp [detectCycle, hr, hcycle]
  · simp [detectCycle, hr, hall]

/-- Exactness over whatever map holds the edges at the time of the query. -/
theorem wouldCreateCycle_iff_of_edges {adj : AdjacencyList} {edges : List (Nat × Nat)}
    (hadj : ∀ a b, b ∈ get adj a ↔ (a, b) ∈ edges) (source target : Nat) :
    (wouldCreateCycle adj source target).1 = true ↔
      ∃ x, Relation.TransGen (fun a b => (a, b) ∈ edges ∨ (a = source ∧ b = target)) x x := by
  have hedge : Dfs.Edge (get (addEdge adj source target)) =
      fun a b => (a, b) ∈ edges ∨ (a = source ∧ b = target) := by
    funext a b
    rw [Dfs.Edge, eq_iff_iff, mem_get_addEdge, hadj]
  simp only [wouldCreateCycle]
  rw [detectCycle_iff, hedge]

/-- The detector is exact: it says yes exactly when the edges together with the new one have a
    directed cycle. -/
theorem wouldCreateCycle_iff (edges : List (Nat × Nat)) (source target : Nat) :
    (wouldCreateCycle (ofEdges edges) source target).1 = true ↔
      ∃ x, Relation.TransGen (fun a b => (a, b) ∈ edges ∨ (a = source ∧ b = target)) x x :=
  wouldCreateCycle_iff_of_edges (mem_get_ofEdges edges) source target

/-! ## The map after a query

A JavaScript map has a key once. `addEdge` and `removeEdge` keep that of the list. -/

/-- The keys, in insertion order. -/
def keys (adj : AdjacencyList) : List Nat := adj.map Prod.fst

@[simp] theorem keys_cons (entry : Nat × List Nat) (rest : AdjacencyList) :
    keys (entry :: rest) = entry.1 :: keys rest := rfl

theorem keys_addEdge (adj : AdjacencyList) (source target : Nat) :
    keys (addEdge adj source target) =
      if source ∈ keys adj then keys adj else keys adj ++ [source] := by
  induction adj with
  | nil => rfl
  | cons entry rest ih =>
    obtain ⟨n, ns⟩ := entry
    by_cases hn : n = source
    · simp [addEdge, hn]
    · simp only [addEdge, if_neg hn, keys_cons, List.mem_cons, Ne.symm hn, false_or]
      rw [ih]
      split
      · rfl
      · rfl

theorem keys_removeEdge_sublist (adj : AdjacencyList) (source target : Nat) :
    (keys (removeEdge adj source target)).Sublist (keys adj) := by
  induction adj with
  | nil => exact List.Sublist.refl _
  | cons entry rest ih =>
    obtain ⟨n, ns⟩ := entry
    simp only [removeEdge, keys, List.map_cons]
    split
    · split
      · exact List.sublist_cons_self _ _
      · exact List.Sublist.refl _
    · exact ih.cons_cons n

theorem nodup_keys_addEdge {adj : AdjacencyList} (h : (keys adj).Nodup) (source target : Nat) :
    (keys (addEdge adj source target)).Nodup := by
  rw [keys_addEdge]
  split
  · exact h
  · rename_i hnew
    refine List.nodup_append.mpr ⟨h, by simp, ?_⟩
    intro a ha b hb hab
    rw [List.mem_singleton] at hb
    exact hnew (hb ▸ hab ▸ ha)

theorem nodup_keys_ofEdges (edges : List (Nat × Nat)) : (keys (ofEdges edges)).Nodup := by
  have h : ∀ adj, (keys adj).Nodup →
      (keys (edges.foldl (fun adj edge => addEdge adj edge.1 edge.2) adj)).Nodup := by
    induction edges with
    | nil => exact fun adj hadj => hadj
    | cons edge rest ih => exact fun adj hadj => ih _ (nodup_keys_addEdge hadj edge.1 edge.2)
  exact h [] List.nodup_nil

theorem get_of_not_mem_keys {adj : AdjacencyList} {node : Nat} (h : node ∉ keys adj) :
    get adj node = [] := by
  induction adj with
  | nil => rfl
  | cons entry rest ih =>
    obtain ⟨n, ns⟩ := entry
    simp only [keys, List.map_cons, List.mem_cons, not_or] at h
    rw [get, if_neg (Ne.symm h.1)]
    exact ih h.2

theorem mem_get_removeEdge {adj : AdjacencyList} (hkeys : (keys adj).Nodup)
    (source target a b : Nat) :
    b ∈ get (removeEdge adj source target) a ↔
      b ∈ get adj a ∧ ¬(a = source ∧ b = target) := by
  induction adj with
  | nil => simp [removeEdge, get]
  | cons entry rest ih =>
    obtain ⟨n, ns⟩ := entry
    simp only [keys, List.map_cons, List.nodup_cons] at hkeys
    by_cases hn : n = source
    · subst hn
      -- the key goes with its last target, and no later entry has the same key
      have hgone : get rest n = [] := get_of_not_mem_keys hkeys.1
      simp only [removeEdge, if_true]
      by_cases ha : n = a
      · subst ha
        split
        · rename_i hempty
          have hall : ∀ x ∈ ns, x = target := by
            simpa [List.isEmpty_iff, List.filter_eq_nil_iff] using hempty
          rw [hgone, get, if_pos rfl]
          simp only [List.not_mem_nil, true_and, false_iff, not_and, not_not]
          exact hall b
        · simp [get]
      · split
        · simp [get, ha, Ne.symm ha]
        · simp [get, ha, Ne.symm ha]
    · simp only [removeEdge, if_neg hn, get]
      by_cases ha : n = a
      · subst ha
        simp [hn]
      · simp only [if_neg ha]
        exact ih hkeys.2

/-- A query leaves the edges it found, less the one it asked about. -/
theorem mem_get_wouldCreateCycle {adj : AdjacencyList} (hkeys : (keys adj).Nodup)
    (source target a b : Nat) :
    b ∈ get (wouldCreateCycle adj source target).2 a ↔
      b ∈ get adj a ∧ ¬(a = source ∧ b = target) := by
  simp only [wouldCreateCycle]
  rw [mem_get_removeEdge (nodup_keys_addEdge hkeys source target), mem_get_addEdge]
  tauto

theorem nodup_keys_wouldCreateCycle {adj : AdjacencyList} (hkeys : (keys adj).Nodup)
    (source target : Nat) : (keys (wouldCreateCycle adj source target).2).Nodup :=
  (keys_removeEdge_sublist _ source target).nodup (nodup_keys_addEdge hkeys source target)

end CycleDetector

end WoodFiredTasks
