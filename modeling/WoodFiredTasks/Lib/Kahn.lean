import Mathlib.Data.List.Nodup
import Mathlib.Data.Finite.Defs
import Mathlib.Order.WellFounded
import Mathlib.Order.Preorder.Finite
import Mathlib.Data.Fintype.EquivFin
import WoodFiredTasks.Lib.Acyclic

set_option autoImplicit false

/-! # Cycle detection by draining nodes of in-degree zero

Kahn's algorithm with a table of in-degrees and a stack of the nodes whose in-degree is zero.
A node taken from the stack is *drained*: each edge out of it lowers the in-degree of its
target, and a target that comes down to zero is pushed. The loop is cut by fuel, and
`drain_start` says that one more unit than there are nodes is enough and that every node is
drained exactly when the graph has no cycle.

The table counts, at every point, the edges into a node whose source is not drained yet. So a
node is drained or on the stack exactly when its entry is zero, and what stays behind at the end
is a set of nodes each of which has a predecessor in the set. -/

universe u

namespace Kahn

variable {α : Type u} [DecidableEq α]

/-- The in-degree table, the stack (its top first) and the number of drained nodes. -/
structure State (α : Type u) where
  inDegree : α → Int
  frontier : List α
  drained : Nat

/-- The targets of the edges out of a node, in the order of the edges. -/
def successors (edges : List (α × α)) (node : α) : List α :=
  (edges.filter fun e => e.1 = node).map Prod.snd

/-- The table of in-degrees, counted edge by edge. -/
def inDegrees (edges : List (α × α)) : α → Int :=
  edges.foldl (fun deg e => Function.update deg e.2 (deg e.2 + 1)) fun _ => 0

/-- One edge out of the node being drained. -/
def State.relax (s : State α) (target : α) : State α :=
  let left := s.inDegree target - 1
  { s with
    inDegree := Function.update s.inDegree target left
    frontier := if left = 0 then target :: s.frontier else s.frontier }

/-- The loop; `none` when it runs out of fuel, else the number of drained nodes. -/
def drain (succs : α → List α) : Nat → State α → Option Nat
  | 0, _ => none
  | fuel + 1, s =>
    match s.frontier with
    | [] => some s.drained
    | node :: rest =>
      drain succs fuel
        ((succs node).foldl State.relax ⟨s.inDegree, rest, s.drained + 1⟩)

/-- Before the loop: the nodes of in-degree zero are pushed in their order. -/
def start (nodes : List α) (inDegree : α → Int) : State α :=
  ⟨inDegree, (nodes.filter fun node => inDegree node = 0).reverse, 0⟩

/-! ## Counting edges -/

/-- The edges into a node whose source is not in a list. -/
def openEdges (edges : List (α × α)) (drained : List α) (node : α) : Nat :=
  edges.countP fun e => e.2 = node ∧ e.1 ∉ drained

@[simp] theorem openEdges_nil (drained : List α) (node : α) :
    openEdges ([] : List (α × α)) drained node = 0 := rfl

theorem openEdges_edge (e : α × α) (rest : List (α × α)) (drained : List α) (node : α) :
    openEdges (e :: rest) drained node
      = openEdges rest drained node + if e.2 = node ∧ e.1 ∉ drained then 1 else 0 := by
  simp [openEdges, List.countP_cons]

theorem successors_edge (e : α × α) (rest : List (α × α)) (node : α) :
    successors (e :: rest) node
      = if e.1 = node then e.2 :: successors rest node else successors rest node := by
  by_cases he : e.1 = node <;> simp [successors, he]

theorem inDegrees_eq (edges : List (α × α)) (node : α) :
    inDegrees edges node = openEdges edges [] node := by
  have h : ∀ deg : α → Int,
      edges.foldl (fun deg e => Function.update deg e.2 (deg e.2 + 1)) deg node
        = deg node + openEdges edges [] node := by
    induction edges with
    | nil => simp
    | cons e rest ih =>
      intro deg
      rw [List.foldl_cons, ih, openEdges_edge]
      by_cases he : e.2 = node
      · subst he
        simp
        omega
      · simp [he, Function.update_of_ne (Ne.symm he)]
  have := h fun _ => 0
  rw [inDegrees, this]
  simp

/-- A node that is drained takes the edges out of it away. -/
theorem openEdges_cons (edges : List (α × α)) {drained : List α} {node : α}
    (hnode : node ∉ drained) (v : α) :
    openEdges edges drained v
      = openEdges edges (node :: drained) v + (successors edges node).count v := by
  induction edges with
  | nil => simp [successors]
  | cons e rest ih =>
    rw [openEdges_edge, openEdges_edge, successors_edge, ih]
    by_cases hn : e.1 = node
    · by_cases hv : e.2 = v
      · simp [hn, hv, hnode]
        omega
      · simp [hn, hv]
    · simp [hn]
      omega

theorem openEdges_eq_zero {edges : List (α × α)} {drained : List α} {node : α} :
    openEdges edges drained node = 0 ↔ ∀ a, (a, node) ∈ edges → a ∈ drained := by
  simp only [openEdges, List.countP_eq_zero, decide_eq_true_eq, not_and, Classical.not_not]
  constructor
  · intro h a ha
    exact h (a, node) ha rfl
  · intro h e he hv
    subst hv
    exact h e.1 he

/-! ## The invariant -/

/-- What holds while the edges in `rest` out of the node last drained are still to be relaxed. -/
structure Inv (nodes : List α) (edges : List (α × α)) (done rest : List α) (s : State α) :
    Prop where
  nodup : (done ++ s.frontier).Nodup
  mem : ∀ v ∈ done ++ s.frontier, v ∈ nodes
  degree : ∀ v, s.inDegree v = openEdges edges done v + rest.count v
  ready : ∀ v ∈ nodes, v ∈ done ++ s.frontier ↔ s.inDegree v = 0
  drained : s.drained = done.length

/-- Drained nodes have drained predecessors and lie on no cycle. -/
structure Sorted (edges : List (α × α)) (done : List α) : Prop where
  closed : ∀ a b, (a, b) ∈ edges → b ∈ done → a ∈ done
  acyclic : ∀ v ∈ done, ¬ Relation.TransGen (fun a b => (a, b) ∈ edges) v v

section Lemmas

variable {nodes : List α} {edges : List (α × α)} {done rest : List α} {s : State α} {v node : α}

theorem Inv.subperm (h : Inv nodes edges done rest s) : done.Subperm nodes :=
  h.nodup.of_append_left.subperm fun v hv => h.mem v (List.mem_append_left _ hv)

theorem Inv.relax (h : Inv nodes edges done (v :: rest) s) (hv : v ∈ nodes) :
    Inv nodes edges done rest (s.relax v) := by
  have hdeg := h.degree v
  simp only [List.count_cons_self] at hdeg
  have hout : v ∉ done ++ s.frontier := by
    rw [h.ready v hv]
    omega
  by_cases hz : s.inDegree v - 1 = 0
  · have hperm : (done ++ v :: s.frontier).Perm (v :: (done ++ s.frontier)) := List.perm_middle
    have hfr : (s.relax v).frontier = v :: s.frontier := by simp [State.relax, hz]
    refine ⟨?_, ?_, ?_, ?_, h.drained⟩
    · rw [hfr, hperm.nodup_iff]
      exact List.nodup_cons.2 ⟨hout, h.nodup⟩
    · intro w hw
      rw [hfr, hperm.mem_iff, List.mem_cons] at hw
      rcases hw with rfl | hw
      · exact hv
      · exact h.mem w hw
    · intro w
      by_cases hw : w = v
      · subst hw
        simp [State.relax]
        omega
      · have := h.degree w
        simpa [State.relax, hw, Ne.symm hw] using this
    · intro w hw
      rw [hfr, hperm.mem_iff, List.mem_cons, h.ready w hw]
      by_cases hwv : w = v
      · simp [State.relax, hwv, hz]
      · simp [State.relax, hwv]
  · have hfr : (s.relax v).frontier = s.frontier := by simp [State.relax, hz]
    refine ⟨hfr ▸ h.nodup, hfr ▸ h.mem, ?_, ?_, h.drained⟩
    · intro w
      by_cases hw : w = v
      · subst hw
        simp [State.relax]
        omega
      · have := h.degree w
        simpa [State.relax, hw, Ne.symm hw] using this
    · intro w hw
      rw [hfr]
      by_cases hwv : w = v
      · subst hwv
        simp [State.relax, hz, hout]
      · rw [h.ready w hw]
        simp [State.relax, hwv]

theorem Inv.relax_all {targets : List α} :
    ∀ s, Inv nodes edges done targets s → (∀ v ∈ targets, v ∈ nodes) →
      Inv nodes edges done [] (targets.foldl State.relax s) := by
  induction targets with
  | nil => exact fun s h _ => h
  | cons v targets ih =>
    intro s h hmem
    have hv : v ∈ nodes := hmem v List.mem_cons_self
    exact ih _ (h.relax hv) fun w hw => hmem w (List.mem_cons_of_mem _ hw)

/-- Taking a node from the stack. -/
theorem Inv.pop (h : Inv nodes edges done [] s) (hs : s.frontier = node :: rest) :
    Inv nodes edges (node :: done) (successors edges node)
      ⟨s.inDegree, rest, s.drained + 1⟩ := by
  have hperm : (done ++ node :: rest).Perm (node :: done ++ rest) := List.perm_middle
  have hnodup := h.nodup
  rw [hs, hperm.nodup_iff] at hnodup
  have hnode : node ∉ done := by
    have := hnodup
    rw [List.cons_append, List.nodup_cons, List.mem_append, not_or] at this
    exact this.1.1
  refine ⟨hnodup, ?_, ?_, ?_, ?_⟩
  · intro w hw
    apply h.mem w
    rw [hs, hperm.mem_iff]
    exact hw
  · intro w
    have := h.degree w
    rw [openEdges_cons edges hnode] at this
    simpa using this
  · intro w hw
    rw [← h.ready w hw, hs, hperm.mem_iff]
  · show s.drained + 1 = done.length + 1
    rw [h.drained]

theorem Inv.preds (h : Inv nodes edges done [] s) (hv : v ∈ nodes) (hs : v ∈ done ++ s.frontier)
    {a : α} (ha : (a, v) ∈ edges) : a ∈ done := by
  have hzero := h.degree v
  rw [(h.ready v hv).1 hs] at hzero
  simp only [List.count_nil] at hzero
  exact openEdges_eq_zero.1 (by omega) a ha

omit [DecidableEq α] in
theorem Sorted.mem_of_reach (h : Sorted edges done) {a b : α} (hb : b ∈ done)
    (hpath : Relation.ReflTransGen (fun a b => (a, b) ∈ edges) a b) : a ∈ done := by
  induction hpath using Relation.ReflTransGen.head_induction_on with
  | refl => exact hb
  | head hedge _ ih => exact h.closed _ _ hedge ih

omit [DecidableEq α] in
/-- A new node all of whose predecessors are drained closes no cycle. -/
theorem Sorted.cons (h : Sorted edges done) (hnode : node ∉ done)
    (hpreds : ∀ a, (a, node) ∈ edges → a ∈ done) : Sorted edges (node :: done) := by
  refine ⟨fun a b hedge hb => ?_, fun v hv => ?_⟩
  · rcases List.mem_cons.1 hb with rfl | hb
    · exact List.mem_cons_of_mem _ (hpreds a hedge)
    · exact List.mem_cons_of_mem _ (h.closed a b hedge hb)
  · rcases List.mem_cons.1 hv with rfl | hv
    · intro hcycle
      obtain ⟨a, hpath, hedge⟩ := Relation.TransGen.tail'_iff.1 hcycle
      exact hnode (h.mem_of_reach (hpreds a hedge) hpath)
    · exact h.acyclic v hv

end Lemmas

/-! ## The loop is exact -/

section Exact

variable {nodes : List α} {edges : List (α × α)}

theorem start_inv (hnodes : nodes.Nodup) :
    Inv nodes edges [] [] (start nodes (inDegrees edges)) := by
  refine ⟨?_, ?_, ?_, ?_, rfl⟩
  · simpa [start] using hnodes.filter _
  · intro v hv
    simp only [start, List.nil_append, List.mem_reverse, List.mem_filter] at hv
    exact hv.1
  · intro v
    simp [start, inDegrees_eq]
  · intro v hv
    simp [start, hv]

/-- Some nodes stay behind only where there is a cycle among them. -/
theorem exists_cycle {done : List α} {s : State α} (h : Inv nodes edges done [] s)
    (hedges : ∀ e ∈ edges, e.1 ∈ nodes) (hs : s.frontier = []) {v : α} (hv : v ∈ nodes)
    (hout : v ∉ done) : ¬ Acyclic fun a b => (a, b) ∈ edges := by
  intro hacyclic
  -- without a cycle the nodes left behind have a first one, but each has a predecessor among them
  let Left := {w // w ∈ nodes ∧ w ∉ done}
  let Before (a b : Left) : Prop := Relation.TransGen (fun a b => (a, b) ∈ edges) a.1 b.1
  have hfin : Finite Left :=
    Set.Finite.to_subtype ((List.finite_toSet nodes).subset fun w hw => hw.1)
  have htrans : IsTrans Left Before := ⟨fun _ _ _ h h' => Relation.TransGen.trans h h'⟩
  have hirrefl : Std.Irrefl Before := ⟨fun a => hacyclic a.1⟩
  have hwf : WellFounded Before := Finite.wellFounded_of_trans_of_irrefl Before
  obtain ⟨w, -, hmin⟩ := hwf.has_min Set.univ ⟨⟨v, hv, hout⟩, trivial⟩
  have hopen : openEdges edges done w.1 ≠ 0 := by
    intro hzero
    have hw : w.1 ∈ done ++ s.frontier := by
      rw [h.ready w.1 w.2.1, h.degree]
      simp [hzero]
    rw [hs, List.append_nil] at hw
    exact w.2.2 hw
  rw [Ne, openEdges_eq_zero] at hopen
  push Not at hopen
  obtain ⟨a, hedge, ha⟩ := hopen
  exact hmin ⟨a, hedges _ hedge, ha⟩ trivial (.single hedge)

theorem drain_spec (hnodes : nodes.Nodup) (hedges : ∀ e ∈ edges, e.1 ∈ nodes ∧ e.2 ∈ nodes)
    (fuel : Nat) :
    ∀ done s, Inv nodes edges done [] s → Sorted edges done → nodes.length < fuel + done.length →
      ∃ k, drain (successors edges) fuel s = some k ∧
        (k = nodes.length ↔ Acyclic fun a b => (a, b) ∈ edges) := by
  induction fuel with
  | zero =>
    intro done s h _ hfuel
    have := h.subperm.length_le
    omega
  | succ fuel ih =>
    intro done s h hsorted hfuel
    rw [drain]
    cases hs : s.frontier with
    | nil =>
      refine ⟨done.length, by simp [h.drained], fun hall => ?_, fun hacyclic => ?_⟩
      · -- all nodes are drained, so none lies on a cycle
        intro v hcycle
        obtain ⟨b, hedge, -⟩ := Relation.TransGen.head'_iff.1 hcycle
        have hperm := h.subperm.perm_of_length_le (by omega)
        exact hsorted.acyclic v (hperm.mem_iff.2 (hedges _ hedge).1) hcycle
      · have hsub : nodes ⊆ done := by
          intro v hv
          by_contra hout
          exact exists_cycle h (fun e he => (hedges e he).1) hs hv hout hacyclic
        have hle := h.subperm.length_le
        have hge := (hnodes.subperm hsub).length_le
        omega
    | cons node rest =>
      have hmem : node ∈ nodes := h.mem node (by simp [hs])
      have hpop := h.pop hs
      have hnode : node ∉ done := by
        have := hpop.nodup
        simp only [List.cons_append, List.nodup_cons, List.mem_append, not_or] at this
        exact this.1.1
      have hsucc : ∀ v ∈ successors edges node, v ∈ nodes := by
        intro v hv
        simp only [successors, List.mem_map, List.mem_filter] at hv
        obtain ⟨e, ⟨he, -⟩, rfl⟩ := hv
        exact (hedges e he).2
      refine ih (node :: done) _ (Inv.relax_all _ hpop hsucc) (hsorted.cons hnode ?_) ?_
      · intro a ha
        exact h.preds hmem (by simp [hs]) ha
      · simp only [List.length_cons]
        omega

/-- **Main theorem.** On a graph all of whose edges run between `nodes`, the loop ends and drains
    every node exactly when there is no cycle. -/
theorem drain_start (hnodes : nodes.Nodup) (hedges : ∀ e ∈ edges, e.1 ∈ nodes ∧ e.2 ∈ nodes) :
    ∃ k, drain (successors edges) (nodes.length + 1) (start nodes (inDegrees edges)) = some k ∧
      (k = nodes.length ↔ Acyclic fun a b => (a, b) ∈ edges) :=
  drain_spec hnodes hedges _ [] _ (start_inv hnodes) ⟨by simp, by simp⟩ (by simp)

end Exact

end Kahn
