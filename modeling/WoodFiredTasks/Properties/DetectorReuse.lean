import WoodFiredTasks.Utils.CycleDetector

set_option autoImplicit false

/-! # One detector, many queries

`wouldCreateCycle` puts the edge it is asked about into the map and takes it out again. The undo
does not ask whether the edge had been there before, so a detector that is used again forgets
each of its own edges that it is asked about. -/

namespace WoodFiredTasks

namespace CycleDetector

/-- The queries of one detector in order: each answer with the map it leaves. -/
def answers (adj : AdjacencyList) : List (Nat × Nat) → List (Bool × AdjacencyList)
  | [] => []
  | edge :: queries =>
    let asked := wouldCreateCycle adj edge.1 edge.2
    asked :: answers asked.2 queries

/-- A map holds these edges and no others. -/
def Holds (adj : AdjacencyList) (edges : List (Nat × Nat)) : Prop :=
  ∀ a b, b ∈ get adj a ↔ (a, b) ∈ edges

/-- A query about `edge` over the graph `edges`: the answer is right and the graph is the same
    afterwards. -/
structure Exact (edges : List (Nat × Nat)) (edge : Nat × Nat) (asked : Bool × AdjacencyList) :
    Prop where
  answer : asked.1 = true ↔
    ∃ x, Relation.TransGen (fun a b => (a, b) ∈ edges ∨ (a = edge.1 ∧ b = edge.2)) x x
  graph : Holds asked.2 edges

/-! ## One query -/

section Query

variable {adj : AdjacencyList} {edges : List (Nat × Nat)}

/-- What a query leaves is the graph without the edge that was asked about. -/
theorem holds_wouldCreateCycle (hkeys : (keys adj).Nodup) (hadj : Holds adj edges)
    (edge : Nat × Nat) :
    Holds (wouldCreateCycle adj edge.1 edge.2).2 (edges.filter (· ≠ edge)) := by
  intro a b
  rw [mem_get_wouldCreateCycle hkeys, hadj a b, List.mem_filter, decide_eq_true_eq, ne_eq,
    Prod.ext_iff]

theorem exact_wouldCreateCycle_iff (hkeys : (keys adj).Nodup) (hadj : Holds adj edges)
    (edge : Nat × Nat) :
    Exact edges edge (wouldCreateCycle adj edge.1 edge.2) ↔ edge ∉ edges := by
  have hleft := holds_wouldCreateCycle hkeys hadj edge
  constructor
  · intro h hmem
    have hkept := (hleft edge.1 edge.2).mp ((h.graph edge.1 edge.2).mpr hmem)
    simp at hkept
  · intro hnew
    have hsame : edges.filter (· ≠ edge) = edges := by
      refine List.filter_eq_self.mpr fun other hother => ?_
      exact decide_eq_true fun heq => hnew (heq ▸ hother)
    exact ⟨wouldCreateCycle_iff_of_edges hadj edge.1 edge.2, hsame ▸ hleft⟩

end Query

/-! ## Any number of queries -/

theorem exact_answers_iff {adj : AdjacencyList} {edges : List (Nat × Nat)}
    (hkeys : (keys adj).Nodup) (hadj : Holds adj edges) (queries : List (Nat × Nat)) :
    List.Forall₂ (Exact edges) queries (answers adj queries) ↔
      ∀ edge ∈ queries, edge ∉ edges := by
  induction queries generalizing adj with
  | nil => simp [answers]
  | cons edge queries ih =>
    rw [answers, List.forall₂_cons, exact_wouldCreateCycle_iff hkeys hadj edge,
      List.forall_mem_cons]
    refine and_congr_right fun hnew => ?_
    -- a query about a new edge leaves a map that holds the same graph
    have hnext := ((exact_wouldCreateCycle_iff hkeys hadj edge).mpr hnew).graph
    exact ih (nodup_keys_wouldCreateCycle hkeys edge.1 edge.2) hnext

/-- After any queries the detector holds the edges it was built with that it was not asked
    about. -/
theorem holds_after_answers {adj : AdjacencyList} {edges : List (Nat × Nat)}
    (hkeys : (keys adj).Nodup) (hadj : Holds adj edges) (queries : List (Nat × Nat)) :
    Holds (queries.foldl (fun adj edge => (wouldCreateCycle adj edge.1 edge.2).2) adj)
      (edges.filter (· ∉ queries)) := by
  induction queries generalizing adj edges with
  | nil => simpa using hadj
  | cons edge queries ih =>
    have hnext := ih (nodup_keys_wouldCreateCycle hkeys edge.1 edge.2)
      (holds_wouldCreateCycle hkeys hadj edge)
    have hfilter : (edges.filter (· ≠ edge)).filter (· ∉ queries) =
        edges.filter (· ∉ edge :: queries) := by
      rw [List.filter_filter]
      refine List.filter_congr fun other _ => ?_
      simp [List.mem_cons, not_or, Bool.and_comm]
    rw [List.foldl_cons]
    exact hfilter ▸ hnext

/-- **Main theorem.** The queries of one detector are all exact, and each leaves the graph as it
    was, exactly when none of them is about an edge the detector was built with. -/
theorem detector_exact_iff (edges queries : List (Nat × Nat)) :
    List.Forall₂ (Exact edges) queries (answers (ofEdges edges) queries) ↔
      ∀ edge ∈ queries, edge ∉ edges :=
  exact_answers_iff (nodup_keys_ofEdges edges) (mem_get_ofEdges edges) queries

/-- Asked twice whether `2 → 1` closes a cycle with `1 → 2`, with a question about `1 → 2` in
    between, the detector says yes and then no. -/
theorem detector_forgets_edge :
    ¬∀ edges queries : List (Nat × Nat),
      List.Forall₂ (Exact edges) queries (answers (ofEdges edges) queries) := by
  intro h
  have hexact := h [(1, 2)] [(2, 1), (1, 2), (2, 1)]
  have hlast : (answers (ofEdges [(1, 2)]) [(2, 1), (1, 2), (2, 1)]).map Prod.fst =
      [true, false, false] := by decide
  simp only [answers, List.forall₂_cons] at hexact
  have hfirst := hexact.1.answer
  have hthird := hexact.2.2.1.answer
  simp only [answers, List.map_cons, List.cons.injEq] at hlast
  rw [hlast.1] at hfirst
  rw [hlast.2.2.1] at hthird
  exact absurd (hthird.mpr (hfirst.mp rfl)) (by decide)

end CycleDetector

end WoodFiredTasks
