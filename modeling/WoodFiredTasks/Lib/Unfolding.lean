import Mathlib.Logic.Relation
import Mathlib.Data.List.Induction
import Mathlib.Data.List.Nodup
import Mathlib.Data.List.Perm.Subperm

set_option autoImplicit false

/-! # The unfolding of a graph into branches

A depth-first walk that remembers only the nodes above it, not the nodes it has seen elsewhere,
unfolds a graph into a tree: a node that two paths reach appears twice, and a node that stands on
its own branch again is a leaf. A node of that tree is its *branch*, the path to it with the node
itself first, so the list of the branches in pre-order is the whole tree.

The walk is cut by fuel. `mem_branches` says that one unit more than there are nodes is enough,
whatever the cycles, and `exists_mem_branches` that the walk meets exactly the nodes that the
roots reach.

The second part is a walk with a cap on the number of nodes. A cap closes a walk for one of two
reasons: a node is left out, or the node that fills it is one that a walk marks by itself.
`foldl_capStep` says which of them sets the flag. The third part reads branches back from an
outline, the list of nodes with their depths. -/

universe u v

namespace Unfolding

section Branches

variable {α : Type u}

/-- The branches of the unfolding, without fuel and without their order. -/
inductive Branch (succ : α → List α) (roots : List α) : List α → Prop where
  | root {r : α} : r ∈ roots → Branch succ roots [r]
  | child {a b : α} {above : List α} : Branch succ roots (a :: above) → a ∉ above → b ∈ succ a →
      Branch succ roots (b :: a :: above)

variable {succ : α → List α} {roots : List α}

theorem Branch.ne_nil {p : List α} (h : Branch succ roots p) : p ≠ [] := by
  induction h with
  | root => simp
  | child => simp

/-- Only the first node of a branch may stand on it twice. -/
theorem Branch.nodup_tail {p : List α} (h : Branch succ roots p) : p.tail.Nodup := by
  induction h with
  | root => simp
  | child _ hnew _ ih =>
    show (_ :: _ : List α).Nodup
    exact List.nodup_cons.2 ⟨hnew, ih⟩

theorem Branch.subset {nodes : List α} (hroots : roots ⊆ nodes) (hsucc : ∀ a, succ a ⊆ nodes)
    {p : List α} (h : Branch succ roots p) : p ⊆ nodes := by
  induction h with
  | root hr => simpa using hroots hr
  | child _ _ hb ih => exact List.cons_subset.2 ⟨hsucc _ hb, ih⟩

theorem Branch.length_le {nodes : List α} (hroots : roots ⊆ nodes) (hsucc : ∀ a, succ a ⊆ nodes)
    {p : List α} (h : Branch succ roots p) : p.length ≤ nodes.length + 1 := by
  have htail : p.tail.length ≤ nodes.length := by
    apply (h.nodup_tail.subperm ?_).length_le
    exact List.Subset.trans (List.tail_sublist p).subset (h.subset hroots hsucc)
  rw [List.length_tail] at htail
  omega

/-- A node of a branch stands at the top of a branch that it does not repeat. -/
theorem Branch.fresh {p : List α} (h : Branch succ roots p) {a : α} (ha : a ∈ p) :
    ∃ above, a ∉ above ∧ Branch succ roots (a :: above) := by
  induction h with
  | root hr =>
    obtain rfl : a = _ := by simpa using ha
    exact ⟨[], by simp, .root hr⟩
  | @child c b above hc hnew hb ih =>
    by_cases hmem : a ∈ c :: above
    · exact ih hmem
    · obtain rfl : a = b := by simpa [hmem] using ha
      exact ⟨c :: above, hmem, .child hc hnew hb⟩

/-- The nodes of the branches are those that the roots reach. -/
theorem exists_branch {b : α} :
    (∃ above, Branch succ roots (b :: above)) ↔
      ∃ r ∈ roots, Relation.ReflTransGen (fun x y => y ∈ succ x) r b := by
  constructor
  · intro h
    obtain ⟨above, h⟩ := h
    induction above generalizing b with
    | nil =>
      cases h with
      | root hr => exact ⟨b, hr, .refl⟩
    | cons a above ih =>
      cases h with
      | child ha _ hb =>
        obtain ⟨r, hr, hreach⟩ := ih ha
        exact ⟨r, hr, hreach.tail hb⟩
  · intro h
    obtain ⟨r, hr, hreach⟩ := h
    induction hreach with
    | refl => exact ⟨[], .root hr⟩
    | tail _ hb ih =>
      obtain ⟨above, ha⟩ := ih
      obtain ⟨above', hnew, ha'⟩ := ha.fresh (List.mem_cons_self)
      exact ⟨_, .child ha' hnew hb⟩

/-- The fuel that a node under a branch needs. -/
structure Enough (nodes : List α) (fuel : Nat) (above : List α) : Prop where
  nodup : above.Nodup
  subset : above ⊆ nodes
  fuel : nodes.length < fuel + above.length

theorem Enough.start (nodes : List α) : Enough nodes (nodes.length + 1) [] :=
  ⟨List.nodup_nil, List.nil_subset _, by simp⟩

theorem Enough.length_le {nodes : List α} {fuel : Nat} {above : List α}
    (h : Enough nodes fuel above) : above.length ≤ nodes.length :=
  (h.nodup.subperm h.subset).length_le

/-- There is fuel for the node itself. -/
theorem Enough.exists_succ {nodes : List α} {fuel : Nat} {above : List α}
    (h : Enough nodes fuel above) : ∃ n, fuel = n + 1 := by
  have := h.length_le
  have := h.fuel
  exact ⟨fuel - 1, by omega⟩

theorem Enough.descend {nodes : List α} {fuel : Nat} {above : List α} {a : α}
    (h : Enough nodes (fuel + 1) above) (hnew : a ∉ above) (ha : a ∈ nodes) :
    Enough nodes fuel (a :: above) := by
  refine ⟨List.nodup_cons.2 ⟨hnew, h.nodup⟩, List.cons_subset.2 ⟨ha, h.subset⟩, ?_⟩
  have := h.fuel
  simp only [List.length_cons]
  omega

/-! ### The walk lists the branches -/

variable [DecidableEq α]

/-- The node `a` under the branch `above` and everything below it, in pre-order. -/
def below (succ : α → List α) : Nat → List α → α → List (List α)
  | 0, _, _ => []
  | fuel + 1, above, a =>
    (a :: above) :: if a ∈ above then [] else (succ a).flatMap (below succ fuel (a :: above))

/-- The unfolding from a list of roots. -/
def branches (succ : α → List α) (fuel : Nat) (roots : List α) : List (List α) :=
  roots.flatMap (below succ fuel [])

/-- The node of a branch stands above it on the branch already. -/
def revisit : List α → Bool
  | [] => false
  | a :: above => decide (a ∈ above)

theorem below_succ (fuel : Nat) (above : List α) (a : α) :
    below succ (fuel + 1) above a
      = (a :: above) :: if a ∈ above then []
          else (succ a).flatMap (below succ fuel (a :: above)) := rfl

theorem branch_of_mem_below {fuel : Nat} {above : List α} {a : α}
    (ha : Branch succ roots (a :: above)) {p : List α} (hp : p ∈ below succ fuel above a) :
    Branch succ roots p := by
  induction fuel generalizing above a with
  | zero => simp [below] at hp
  | succ fuel ih =>
    rw [below_succ, List.mem_cons] at hp
    obtain rfl | hp := hp
    · exact ha
    · by_cases hmem : a ∈ above
      · simp [hmem] at hp
      · rw [if_neg hmem, List.mem_flatMap] at hp
        obtain ⟨b, hb, hp⟩ := hp
        exact ih (.child ha hmem hb) hp

/-- With fuel left, the children of a branch follow it. -/
theorem child_mem_below {fuel : Nat} {above : List α} {a x y : α} {rest : List α}
    (hx : x :: rest ∈ below succ fuel above a) (hnew : x ∉ rest) (hy : y ∈ succ x)
    (hfuel : rest.length + 1 < above.length + fuel) :
    y :: x :: rest ∈ below succ fuel above a := by
  induction fuel generalizing above a with
  | zero => simp [below] at hx
  | succ fuel ih =>
    rw [below_succ, List.mem_cons] at hx
    rw [below_succ]
    apply List.mem_cons_of_mem
    obtain heq | hx := hx
    · obtain ⟨rfl, rfl⟩ : x = a ∧ rest = above := by simpa using heq
      obtain ⟨fuel, rfl⟩ : ∃ n, fuel = n + 1 := ⟨fuel - 1, by omega⟩
      rw [if_neg hnew, List.mem_flatMap]
      exact ⟨y, hy, by simp [below_succ]⟩
    · by_cases hmem : a ∈ above
      · simp [hmem] at hx
      · rw [if_neg hmem, List.mem_flatMap] at hx ⊢
        obtain ⟨b, hb, hx⟩ := hx
        refine ⟨b, hb, ih hx ?_⟩
        simp only [List.length_cons]
        omega

theorem Branch.mem_branches {fuel : Nat} {p : List α} (h : Branch succ roots p)
    (hfuel : p.length ≤ fuel) : p ∈ branches succ fuel roots := by
  induction h with
  | @root r hr =>
    obtain ⟨fuel, rfl⟩ : ∃ n, fuel = n + 1 := ⟨fuel - 1, by simp at hfuel; omega⟩
    exact List.mem_flatMap.2 ⟨r, hr, by simp [below_succ]⟩
  | @child a b above _ hnew hb ih =>
    simp only [List.length_cons] at hfuel ih
    obtain ⟨r, hr, hmem⟩ := List.mem_flatMap.1 (ih (by omega))
    exact List.mem_flatMap.2 ⟨r, hr, child_mem_below hmem hnew hb (by simp; omega)⟩

/-- **The walk is complete.** With one unit of fuel more than there are nodes it lists the
    branches, all of them and nothing else. -/
theorem mem_branches {nodes : List α} (hroots : roots ⊆ nodes) (hsucc : ∀ a, succ a ⊆ nodes)
    {p : List α} :
    p ∈ branches succ (nodes.length + 1) roots ↔ Branch succ roots p := by
  constructor
  · intro h
    obtain ⟨r, hr, hp⟩ := List.mem_flatMap.1 h
    exact branch_of_mem_below (.root hr) hp
  · intro h
    exact h.mem_branches (h.length_le hroots hsucc)

/-- The walk meets the nodes that the roots reach. -/
theorem exists_mem_branches {nodes : List α} (hroots : roots ⊆ nodes)
    (hsucc : ∀ a, succ a ⊆ nodes) {b : α} :
    (∃ above, b :: above ∈ branches succ (nodes.length + 1) roots) ↔
      ∃ r ∈ roots, Relation.ReflTransGen (fun x y => y ∈ succ x) r b := by
  simp only [mem_branches hroots hsucc]
  exact exists_branch

/-- A graph without edges unfolds into its roots. -/
theorem branches_of_no_succ (hnone : ∀ a, succ a = []) (fuel : Nat) (roots : List α) :
    branches succ (fuel + 1) roots = roots.map fun r => [r] := by
  induction roots with
  | nil => rfl
  | cons r rest ih =>
    have hroot : below succ (fuel + 1) [] r = [[r]] := by simp [below_succ, hnone]
    simpa [branches, hroot] using ih

theorem Enough.below_ne_nil {nodes : List α} {fuel : Nat} {above : List α}
    (h : Enough nodes fuel above) (a : α) : below succ fuel above a ≠ [] := by
  obtain ⟨n, rfl⟩ := h.exists_succ
  simp [below_succ]

end Branches

/-! ## A cap on the number of nodes -/

section Cap

variable {ε : Type v}

/-- One node of a walk with a cap: the number of nodes so far and the flag. A node that finds the
    cap filled is left out. `marks` are the nodes that set the flag when they fill the cap. -/
def capStep (cap : Nat) (marks : ε → Bool) (s : Nat × Bool) (e : ε) : Nat × Bool :=
  if cap ≤ s.1 then (s.1, true) else (s.1 + 1, s.2 || (marks e && decide (cap ≤ s.1 + 1)))

variable {cap : Nat} {marks : ε → Bool}

/-- At the cap every node is left out. -/
theorem foldl_capStep_full {n : Nat} (hn : cap ≤ n) {rows : List ε} (hne : rows ≠ [])
    (flag : Bool) : rows.foldl (capStep cap marks) (n, flag) = (n, true) := by
  have hstep : ∀ (e : ε) (flag : Bool), capStep cap marks (n, flag) e = (n, true) := by
    intro e flag
    rw [capStep, if_pos hn]
  have hall : ∀ rows : List ε, rows.foldl (capStep cap marks) (n, true) = (n, true) := by
    intro rows
    induction rows with
    | nil => rfl
    | cons e rest ih => rw [List.foldl_cons, hstep, ih]
  obtain ⟨e, rest, rfl⟩ := List.exists_cons_of_ne_nil hne
  rw [List.foldl_cons, hstep, hall]

/-- **What the cap does.** It counts up to the cap; the flag is set when a node was left out, or
    when the last node fills the cap and marks it. -/
theorem foldl_capStep {n : Nat} (hn : n ≤ cap) (rows : List ε) (flag : Bool) :
    rows.foldl (capStep cap marks) (n, flag)
      = (min cap (n + rows.length),
          flag || decide (cap < n + rows.length) ||
            (decide (n + rows.length = cap) && rows.getLast?.any marks)) := by
  induction rows using List.reverseRecOn with
  | nil =>
    have hroom : ¬ cap < n := by omega
    simp [hn, hroom]
  | append_singleton rows e ih =>
    rw [List.foldl_append, ih, List.foldl_cons, List.foldl_nil, capStep]
    simp only [List.length_append, List.length_singleton, List.getLast?_append,
      List.getLast?_singleton, Option.some_or, Option.any_some]
    by_cases hfull : cap ≤ n + rows.length
    · rw [if_pos (by omega)]
      have hover : cap < n + (rows.length + 1) := by omega
      simp only [hover, decide_true, Bool.or_true, Bool.true_or, Prod.mk.injEq, and_true]
      omega
    · rw [if_neg (by omega)]
      have hroom : ¬ cap < n + rows.length := by omega
      have hopen : n + rows.length ≠ cap := by omega
      have hmin : min cap (n + rows.length) = n + rows.length := by omega
      have hcap : (cap ≤ n + rows.length + 1) ↔ n + (rows.length + 1) = cap := by omega
      have hlast : ¬ cap < n + (rows.length + 1) := by omega
      simp only [hmin, hroom, hopen, hlast, hcap, decide_false, Bool.or_false, Bool.false_and,
        Prod.mk.injEq]
      exact ⟨by omega, by rw [Bool.and_comm]⟩

end Cap

/-! ## Outlines -/

section Outlines

variable {α : Type u}

/-- The branches that an outline shows: a node stands under the last node before it that is not
    as deep. `branch` is the branch of the line before. -/
def readOutline (branch : List α) : List (α × Nat) → List (List α)
  | [] => []
  | (a, depth) :: rest =>
    let next := a :: branch.drop (branch.length - depth)
    next :: readOutline next rest

/-- A list in pre-order: each branch goes on from a node of the branch before it. -/
def InPreorder (branch : List α) : List (List α) → Prop
  | [] => True
  | p :: rest => p ≠ [] ∧ p.tail <:+ branch ∧ InPreorder p rest

/-- An outline in pre-order shows its branches. -/
theorem readOutline_map {f : List α → α × Nat} (hf : ∀ a above, f (a :: above) = (a, above.length))
    {rows : List (List α)} {branch : List α} (h : InPreorder branch rows) :
    readOutline branch (rows.map f) = rows := by
  induction rows generalizing branch with
  | nil => rfl
  | cons p rest ih =>
    obtain ⟨hne, htail, hrest⟩ := h
    obtain ⟨a, above, rfl⟩ := List.exists_cons_of_ne_nil hne
    have hdrop : branch.drop (branch.length - above.length) = above :=
      (List.suffix_iff_eq_drop.1 htail).symm
    have hread := ih hrest
    rw [List.map_cons, hf]
    show (a :: branch.drop (branch.length - above.length)) ::
      readOutline (a :: branch.drop (branch.length - above.length)) _ = _
    rw [hdrop, hread]

theorem InPreorder.ne_nil {rows : List (List α)} {branch : List α} (h : InPreorder branch rows) :
    ∀ p ∈ rows, p ≠ [] := by
  induction rows generalizing branch with
  | nil => simp
  | cons p rest ih =>
    intro q hq
    obtain rfl | hq := List.mem_cons.1 hq
    · exact h.1
    · exact ih h.2.2 q hq

theorem InPreorder.take {rows : List (List α)} {branch : List α} (h : InPreorder branch rows)
    (n : Nat) : InPreorder branch (rows.take n) := by
  induction rows generalizing branch n with
  | nil => simpa using h
  | cons p rest ih =>
    cases n with
    | zero => trivial
    | succ n => exact ⟨h.1, h.2.1, ih h.2.2 n⟩

/-- Two runs of branches under one branch. -/
theorem InPreorder.append {branch above : List α} {rows rows' : List (List α)}
    (h : InPreorder branch rows) (habove : above <:+ branch) (hunder : ∀ p ∈ rows, above <:+ p)
    (h' : ∀ branch', above <:+ branch' → InPreorder branch' rows') :
    InPreorder branch (rows ++ rows') := by
  induction rows generalizing branch with
  | nil => exact h' branch habove
  | cons p rest ih =>
    refine ⟨h.1, h.2.1, ih h.2.2 (hunder p (by simp)) ?_⟩
    intro q hq
    exact hunder q (List.mem_cons_of_mem p hq)

variable [DecidableEq α] {succ : α → List α}

theorem suffix_of_mem_below {fuel : Nat} {above : List α} {a : α} {p : List α}
    (hp : p ∈ below succ fuel above a) : above <:+ p := by
  induction fuel generalizing above a with
  | zero => simp [below] at hp
  | succ fuel ih =>
    rw [below_succ, List.mem_cons] at hp
    obtain rfl | hp := hp
    · exact List.suffix_cons a above
    · by_cases hmem : a ∈ above
      · simp [hmem] at hp
      · rw [if_neg hmem, List.mem_flatMap] at hp
        obtain ⟨b, -, hp⟩ := hp
        exact (List.suffix_cons a above).trans (ih hp)

omit [DecidableEq α] in
theorem preorder_flatMap (above : List α) {ids : List α} {rows : α → List (List α)}
    (hrows : ∀ a ∈ ids, ∀ branch, above <:+ branch → InPreorder branch (rows a))
    (hunder : ∀ a ∈ ids, ∀ p ∈ rows a, above <:+ p) {branch : List α} (hb : above <:+ branch) :
    InPreorder branch (ids.flatMap rows) := by
  induction ids generalizing branch with
  | nil => trivial
  | cons a rest ih =>
    rw [List.flatMap_cons]
    refine (hrows a (by simp) branch hb).append hb (hunder a (by simp)) ?_
    intro branch' hb'
    exact ih (fun b hmem => hrows b (List.mem_cons_of_mem a hmem))
      (fun b hmem => hunder b (List.mem_cons_of_mem a hmem)) hb'

theorem preorder_below (fuel : Nat) (above : List α) (a : α) {branch : List α}
    (hb : above <:+ branch) : InPreorder branch (below succ fuel above a) := by
  induction fuel generalizing above a branch with
  | zero => trivial
  | succ fuel ih =>
    rw [below_succ]
    refine ⟨by simp, hb, ?_⟩
    by_cases hmem : a ∈ above
    · rw [if_pos hmem]
      trivial
    · rw [if_neg hmem]
      exact preorder_flatMap (a :: above) (fun b _ branch' hb' => ih (a :: above) b hb')
        (fun b _ p hp => suffix_of_mem_below hp) (List.suffix_refl _)

/-- The walk is in pre-order. -/
theorem preorder_branches (fuel : Nat) (roots : List α) :
    InPreorder [] (branches succ fuel roots) :=
  preorder_flatMap [] (fun a _ _ hb => preorder_below fuel [] a hb)
    (fun _ _ _ _ => List.nil_suffix) (List.suffix_refl _)

end Outlines

end Unfolding
