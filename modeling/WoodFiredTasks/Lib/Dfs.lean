import Mathlib.Logic.Relation
import Mathlib.Data.List.Basic

set_option autoImplicit false

/-! # Cycle detection by depth-first search

The textbook search with a set of visited nodes and the set of nodes on the recursion stack,
which are shared by all calls: an edge into the stack is a back edge, so there is a cycle. The
recursion is cut by fuel, and `hasCycle_eq` says that one more unit than there are nodes is
enough and that the answer is then exact.

The proof follows the colours of the nodes. A node is *finished* when it is visited and off the
stack. Finished nodes are closed under edges and lie on no cycle (`Inv`), and every node of the
stack reaches the node being visited. -/

universe u

namespace Dfs

variable {α : Type u} [DecidableEq α]

/-- The two shared sets of the search. -/
structure State (α : Type u) where
  visited : List α
  recStack : List α

/-- `visited.add(node); recStack.add(node)`. -/
def State.enter (s : State α) (node : α) : State α := ⟨node :: s.visited, node :: s.recStack⟩

/-- `recStack.delete(node)`. -/
def State.leave (s : State α) (node : α) : State α :=
  { s with recStack := s.recStack.filter fun a => a ≠ node }

/-- The loop over the neighbours of a node; `none` when the recursion runs out of fuel. -/
def visitNeighbors (search : α → State α → Option (Bool × State α)) :
    List α → State α → Option (Bool × State α)
  | [], s => some (false, s)
  | neighbor :: rest, s =>
    if neighbor ∈ s.recStack then some (true, s)
    else if neighbor ∈ s.visited then visitNeighbors search rest s
    else match search neighbor s with
      | none => none
      | some (true, s') => some (true, s')
      | some (false, s') => visitNeighbors search rest s'

/-- Search from a node: is a back edge found? -/
def dfs (succs : α → List α) : Nat → α → State α → Option (Bool × State α)
  | 0, _, _ => none
  | fuel + 1, node, s =>
    match visitNeighbors (dfs succs fuel) (succs node) (s.enter node) with
    | none => none
    | some (true, s') => some (true, s')
    | some (false, s') => some (false, s'.leave node)

/-- Search from every node that is not visited yet. -/
def visitRoots (succs : α → List α) (fuel : Nat) : List α → State α → Option Bool
  | [], _ => some false
  | node :: rest, s =>
    if node ∈ s.visited then visitRoots succs fuel rest s
    else match dfs succs fuel node s with
      | none => none
      | some (true, _) => some true
      | some (false, s') => visitRoots succs fuel rest s'

/-- Does the graph on `nodes` have a cycle? -/
def hasCycle (succs : α → List α) (nodes : List α) : Option Bool :=
  visitRoots succs (nodes.length + 1) nodes ⟨[], []⟩

/-- The edge relation of a successor function. -/
def Edge (succs : α → List α) (a b : α) : Prop := b ∈ succs a

/-- Visited and off the stack. -/
def State.Finished (s : State α) (a : α) : Prop := a ∈ s.visited ∧ a ∉ s.recStack

/-- What holds between two steps of the search. -/
structure Inv (succs : α → List α) (s : State α) : Prop where
  stack_visited : ∀ a ∈ s.recStack, a ∈ s.visited
  closed : ∀ a b, s.Finished a → Edge succs a b → s.Finished b
  acyclic : ∀ a, s.Finished a → ¬ Relation.TransGen (Edge succs) a a

section Lemmas

variable {succs : α → List α} {s s' : State α} {a b node : α}

omit [DecidableEq α] in
theorem Inv.finished_of_reach (hinv : Inv succs s) (ha : s.Finished a)
    (h : Relation.ReflTransGen (Edge succs) a b) : s.Finished b := by
  induction h with
  | refl => exact ha
  | tail _ hedge ih => exact hinv.closed _ _ ih hedge

omit [DecidableEq α] in
theorem Inv.enter (hinv : Inv succs s) (hnode : node ∉ s.visited) : Inv succs (s.enter node) := by
  have hiff : ∀ a, (s.enter node).Finished a ↔ s.Finished a := by
    intro a
    simp only [State.Finished, State.enter, List.mem_cons, not_or]
    constructor
    · rintro ⟨rfl | hv, hne, hr⟩
      · exact absurd rfl hne
      · exact ⟨hv, hr⟩
    · rintro ⟨hv, hr⟩
      refine ⟨.inr hv, ?_, hr⟩
      rintro rfl
      exact hnode hv
  refine ⟨fun a ha => ?_, fun a b ha hedge => ?_, fun a ha => ?_⟩
  · rcases List.mem_cons.1 ha with rfl | ha
    · exact List.mem_cons_self
    · exact List.mem_cons_of_mem _ (hinv.stack_visited a ha)
  · exact (hiff b).2 (hinv.closed a b ((hiff a).1 ha) hedge)
  · exact hinv.acyclic a ((hiff a).1 ha)

/-- Leaving a node all of whose neighbours are finished. -/
theorem Inv.leave (hinv : Inv succs s) (hmem : node ∈ s.recStack)
    (hsuccs : ∀ b ∈ succs node, s.Finished b) : Inv succs (s.leave node) := by
  have hiff : ∀ a, (s.leave node).Finished a ↔ s.Finished a ∨ a = node := by
    intro a
    simp only [State.Finished, State.leave, List.mem_filter, decide_eq_true_eq, not_and,
      Classical.not_not]
    constructor
    · rintro ⟨hv, hr⟩
      by_cases ha : a ∈ s.recStack
      · exact .inr (hr ha)
      · exact .inl ⟨hv, ha⟩
    · rintro (⟨hv, hr⟩ | rfl)
      · exact ⟨hv, fun ha => absurd ha hr⟩
      · exact ⟨hinv.stack_visited a hmem, fun _ => rfl⟩
  refine ⟨fun a ha => ?_, fun a b ha hedge => ?_, fun a ha hcycle => ?_⟩
  · exact hinv.stack_visited a (List.mem_of_mem_filter ha)
  · rcases (hiff a).1 ha with ha | rfl
    · exact (hiff b).2 (.inl (hinv.closed a b ha hedge))
    · exact (hiff b).2 (.inl (hsuccs b hedge))
  · rcases (hiff a).1 ha with ha | rfl
    · exact hinv.acyclic a ha hcycle
    · -- a cycle through `node` starts at a finished neighbour and would finish `node` itself
      obtain ⟨b, hedge, hreach⟩ := Relation.TransGen.head'_iff.1 hcycle
      exact (hinv.finished_of_reach (hsuccs b hedge) hreach).2 hmem

/-- The nodes still to be visited. -/
def unvisited (nodes : List α) (s : State α) : List α := nodes.filter fun a => a ∉ s.visited

theorem unvisited_le (nodes : List α) (h : s.visited ⊆ s'.visited) :
    (unvisited nodes s').length ≤ (unvisited nodes s).length := by
  refine (List.monotone_filter_right nodes fun a ha => ?_).length_le
  simp only [decide_eq_true_eq] at ha ⊢
  exact fun hv => ha (h hv)

theorem unvisited_enter_lt {nodes : List α} (hmem : node ∈ nodes) (hnode : node ∉ s.visited) :
    (unvisited nodes (s.enter node)).length < (unvisited nodes s).length := by
  have heq : unvisited nodes (s.enter node) = (unvisited nodes s).filter fun a => a ≠ node := by
    simp only [unvisited, State.enter, List.mem_cons, not_or, List.filter_filter]
    exact List.filter_congr fun a _ => by simp
  rw [heq, List.length_filter_lt_length_iff_exists]
  exact ⟨node, List.mem_filter.2 ⟨hmem, by simpa using hnode⟩, by simp⟩

end Lemmas

/-! ## The search is exact -/

/-- The outcome of exploring from `s`: a cycle was found, or the stack is as before, nothing is
    forgotten, and the invariant holds. -/
def Explored (succs : α → List α) (s : State α) (targets : List α) (r : Bool) (s' : State α) :
    Prop :=
  if r then ∃ a, Relation.TransGen (Edge succs) a a
  else Inv succs s' ∧ s'.recStack = s.recStack ∧ s.visited ⊆ s'.visited ∧
    ∀ a ∈ targets, s'.Finished a

section Exact

variable {succs : α → List α} {nodes : List α}

theorem visitNeighbors_spec {search : α → State α → Option (Bool × State α)} {fuel : Nat}
    (hsearch : ∀ n s, Inv succs s → n ∈ nodes → n ∉ s.visited →
      (∀ r ∈ s.recStack, Relation.TransGen (Edge succs) r n) →
      (unvisited nodes s).length < fuel →
      ∃ r s', search n s = some (r, s') ∧ Explored succs s [n] r s')
    (ns : List α) (hns : ∀ n ∈ ns, n ∈ nodes) :
    ∀ s, Inv succs s → (∀ r ∈ s.recStack, ∀ n ∈ ns, Relation.TransGen (Edge succs) r n) →
      (unvisited nodes s).length < fuel →
      ∃ r s', visitNeighbors search ns s = some (r, s') ∧ Explored succs s ns r s' := by
  induction ns with
  | nil =>
    intro s hinv _ _
    exact ⟨false, s, rfl, hinv, rfl, List.Subset.refl _, by simp⟩
  | cons n rest ih =>
    intro s hinv hreach hfuel
    have ih := ih fun m hm => hns m (List.mem_cons_of_mem _ hm)
    have hrest : ∀ r ∈ s.recStack, ∀ m ∈ rest, Relation.TransGen (Edge succs) r m :=
      fun r hr m hm => hreach r hr m (List.mem_cons_of_mem _ hm)
    rw [visitNeighbors]
    by_cases hstack : n ∈ s.recStack
    · rw [if_pos hstack]
      exact ⟨true, s, rfl, n, hreach n hstack n List.mem_cons_self⟩
    rw [if_neg hstack]
    by_cases hvis : n ∈ s.visited
    · rw [if_pos hvis]
      obtain ⟨r, s', hr, hexp⟩ := ih s hinv hrest hfuel
      refine ⟨r, s', hr, ?_⟩
      cases r with
      | true => exact hexp
      | false =>
        obtain ⟨hinv', hst, hsub, hfin⟩ := hexp
        refine ⟨hinv', hst, hsub, fun a ha => ?_⟩
        rcases List.mem_cons.1 ha with rfl | ha
        · exact ⟨hsub hvis, hst ▸ hstack⟩
        · exact hfin a ha
    · rw [if_neg hvis]
      obtain ⟨r, s₁, hr, hexp⟩ := hsearch n s hinv (hns n List.mem_cons_self) hvis
        (fun r hr => hreach r hr n List.mem_cons_self) hfuel
      rw [hr]
      cases r with
      | true => exact ⟨true, s₁, rfl, hexp⟩
      | false =>
        obtain ⟨hinv₁, hst₁, hsub₁, hfin₁⟩ := hexp
        obtain ⟨r', s', hr', hexp'⟩ := ih s₁ hinv₁ (hst₁ ▸ hrest)
          (Nat.lt_of_le_of_lt (unvisited_le nodes hsub₁) hfuel)
        refine ⟨r', s', hr', ?_⟩
        cases r' with
        | true => exact hexp'
        | false =>
          obtain ⟨hinv', hst', hsub', hfin'⟩ := hexp'
          refine ⟨hinv', hst'.trans hst₁, fun b hb => hsub' (hsub₁ hb), fun a ha => ?_⟩
          rcases List.mem_cons.1 ha with rfl | ha
          · have hfin := hfin₁ a List.mem_cons_self
            exact ⟨hsub' hfin.1, hst' ▸ hfin.2⟩
          · exact hfin' a ha

theorem dfs_spec (hnodes : ∀ a b, Edge succs a b → b ∈ nodes) (fuel : Nat) :
    ∀ n s, Inv succs s → n ∈ nodes → n ∉ s.visited →
      (∀ r ∈ s.recStack, Relation.TransGen (Edge succs) r n) →
      (unvisited nodes s).length < fuel →
      ∃ r s', dfs succs fuel n s = some (r, s') ∧ Explored succs s [n] r s' := by
  induction fuel with
  | zero =>
    intro n s _ _ _ _ hfuel
    omega
  | succ fuel ih =>
    intro n s hinv hmem hvis hreach hfuel
    have hstack : n ∉ s.recStack := fun h => hvis (hinv.stack_visited n h)
    have hlt := unvisited_enter_lt (s := s) hmem hvis
    have hreach' : ∀ r ∈ (s.enter n).recStack, ∀ b ∈ succs n,
        Relation.TransGen (Edge succs) r b := by
      intro r hr b hb
      rcases List.mem_cons.1 hr with rfl | hr
      · exact .single hb
      · exact (hreach r hr).tail hb
    obtain ⟨r, s', hr, hexp⟩ := visitNeighbors_spec ih (succs n) (fun b hb => hnodes n b hb)
      (s.enter n) (hinv.enter hvis) hreach' (by omega)
    rw [dfs, hr]
    cases r with
    | true => exact ⟨true, s', rfl, hexp⟩
    | false =>
      obtain ⟨hinv', hst, hsub, hfin⟩ := hexp
      have hn : n ∈ s'.recStack := hst ▸ List.mem_cons_self
      have hst' : (s'.leave n).recStack = s.recStack := by
        rw [State.leave, hst, State.enter, List.filter_cons_of_neg (by simp)]
        refine List.filter_eq_self.2 fun a ha => ?_
        simp only [decide_eq_true_eq]
        rintro rfl
        exact hstack ha
      refine ⟨false, s'.leave n, rfl, hinv'.leave hn hfin, hst', fun a ha => ?_, ?_⟩
      · exact hsub (List.mem_cons_of_mem _ ha)
      · intro a ha
        rw [List.mem_singleton.1 ha]
        exact ⟨hinv'.stack_visited n hn, hst' ▸ hstack⟩

theorem visitRoots_spec (hnodes : ∀ a b, Edge succs a b → b ∈ nodes) {fuel : Nat}
    (hfuel : nodes.length < fuel) (ns : List α) (hns : ∀ n ∈ ns, n ∈ nodes) :
    ∀ s, Inv succs s → s.recStack = [] →
      (∃ a, visitRoots succs fuel ns s = some true ∧ Relation.TransGen (Edge succs) a a) ∨
      (visitRoots succs fuel ns s = some false ∧
        ∀ a, a ∈ s.visited ∨ a ∈ ns → ¬ Relation.TransGen (Edge succs) a a) := by
  induction ns with
  | nil =>
    intro s hinv hst
    refine .inr ⟨rfl, fun a ha => ?_⟩
    rcases ha with ha | ha
    · exact hinv.acyclic a ⟨ha, by simp [hst]⟩
    · cases ha
  | cons n rest ih =>
    intro s hinv hst
    have ih := ih fun m hm => hns m (List.mem_cons_of_mem _ hm)
    rw [visitRoots]
    by_cases hvis : n ∈ s.visited
    · rw [if_pos hvis]
      refine (ih s hinv hst).imp id fun ⟨hr, hall⟩ => ⟨hr, fun a ha => hall a ?_⟩
      rcases ha with ha | ha
      · exact .inl ha
      · rcases List.mem_cons.1 ha with rfl | ha
        · exact .inl hvis
        · exact .inr ha
    · rw [if_neg hvis]
      have hle : (unvisited nodes s).length ≤ nodes.length := List.length_filter_le _ _
      obtain ⟨r, s', hr, hexp⟩ := dfs_spec hnodes fuel n s hinv (hns n List.mem_cons_self) hvis
        (by simp [hst]) (by omega)
      rw [hr]
      cases r with
      | true =>
        obtain ⟨a, ha⟩ := hexp
        exact .inl ⟨a, rfl, ha⟩
      | false =>
        obtain ⟨hinv', hst', hsub, hfin⟩ := hexp
        refine (ih s' hinv' (hst'.trans hst)).imp id fun ⟨hr, hall⟩ =>
          ⟨hr, fun a ha => hall a ?_⟩
        rcases ha with ha | ha
        · exact .inl (hsub ha)
        · rcases List.mem_cons.1 ha with rfl | ha
          · exact .inl (hfin a List.mem_cons_self).1
          · exact .inr ha

/-- **Main theorem.** On a graph all of whose edges run between `nodes`, the search ends and
    answers whether some node reaches itself. -/
theorem hasCycle_eq (hnodes : ∀ a b, Edge succs a b → a ∈ nodes ∧ b ∈ nodes) :
    (hasCycle succs nodes = some true ∧ ∃ a, Relation.TransGen (Edge succs) a a) ∨
    (hasCycle succs nodes = some false ∧ ∀ a, ¬ Relation.TransGen (Edge succs) a a) := by
  have hinv : Inv succs ⟨[], []⟩ := ⟨by simp, fun a b h => absurd h.1 (by simp),
    fun a h => absurd h.1 (by simp)⟩
  rcases visitRoots_spec (fun a b h => (hnodes a b h).2) (Nat.lt_succ_self _) nodes
    (fun _ h => h) ⟨[], []⟩ hinv rfl with ⟨a, hr, ha⟩ | ⟨hr, hall⟩
  · exact .inl ⟨hr, a, ha⟩
  · refine .inr ⟨hr, fun a hcycle => ?_⟩
    obtain ⟨b, hedge, -⟩ := Relation.TransGen.head'_iff.1 hcycle
    exact hall a (.inr (hnodes a b hedge).1) hcycle

end Exact

end Dfs
