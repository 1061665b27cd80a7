import Mathlib.Data.List.Basic
import Mathlib.Data.List.Chain
import Mathlib.Data.List.Infix

set_option autoImplicit false

/-! # Removing pairs in passes

An opener and some closers. Pass `i` takes every pair of an opener and the `i`-th closer behind it
out of a list, once, from the left. A removal can bring an opener and a closer together: if the
pass of that closer is still to come the new pair is removed too, otherwise it stays.

Which of the two it is can be read off the list without making the passes (`scan`): the openers
that can still meet a closer are a stack, and each has the number of the pass after which
everything between it and the next element is gone. -/

namespace PairPasses

variable {α : Type} [DecidableEq α]

/-- One pass for the pair of `opener` and `closer`. -/
def without (opener closer : α) : List α → List α
  | [] => []
  | [a] => [a]
  | a :: b :: rest =>
    if a = opener ∧ b = closer then without opener closer rest
    else a :: without opener closer (b :: rest)

/-- One pass for each closer. -/
def passes (opener : α) (closers xs : List α) : List α :=
  closers.foldl (fun xs closer => without opener closer xs) xs

/-- No closer stands behind an opener. -/
def Clean (opener : α) (closers xs : List α) : Prop :=
  xs.IsChain fun a b => ¬(a = opener ∧ b ∈ closers)

/-! ## The scan -/

/-- The opener on top cannot meet its next element before pass `n`. -/
def hold (n : Nat) : List Nat → List Nat
  | [] => []
  | m :: stack => max m n :: stack

/-- Whether no pair is left by the passes from number `k` on: the stack has the openers that stand
    before what is still to be read, each with the pass before which it cannot meet it. -/
def scan (opener : α) (closers : List α) (k : Nat) : List Nat → List α → Bool
  | _, [] => true
  | stack, a :: rest =>
    if a = opener then scan opener closers k (k :: stack) rest
    else if a ∈ closers then
      match stack with
      | [] => scan opener closers k [] rest
      | m :: below =>
        decide (m ≤ closers.idxOf a) &&
          scan opener closers k (hold (closers.idxOf a + 1) below) rest
    else scan opener closers k [] rest

/-- Every pair that the passes bring together is of a pass still to come. -/
def layered (opener : α) (closers xs : List α) : Bool := scan opener closers 0 [] xs

section Scan

variable {opener : α} {closers : List α} {k : Nat}

@[simp] theorem scan_nil (stack : List Nat) : scan opener closers k stack [] = true := by
  simp [scan]

theorem scan_opener (stack : List Nat) (rest : List α) :
    scan opener closers k stack (opener :: rest) = scan opener closers k (k :: stack) rest := by
  simp [scan]

theorem scan_closer {a : α} (ha : a ≠ opener) (hmem : a ∈ closers) (m : Nat) (below : List Nat)
    (rest : List α) :
    scan opener closers k (m :: below) (a :: rest) =
      (decide (m ≤ closers.idxOf a) &&
        scan opener closers k (hold (closers.idxOf a + 1) below) rest) := by
  simp [scan, ha, hmem]

theorem scan_empty {a : α} (ha : a ≠ opener) (rest : List α) :
    scan opener closers k [] (a :: rest) = scan opener closers k [] rest := by
  simp [scan, ha]

theorem scan_other {a : α} (ha : a ≠ opener) (hmem : a ∉ closers) (stack : List Nat)
    (rest : List α) :
    scan opener closers k stack (a :: rest) = scan opener closers k [] rest := by
  simp [scan, ha, hmem]

theorem mem_hold {n m : Nat} {stack : List Nat} (h : m ∈ hold n stack) :
    (∃ m' ∈ stack, m' ≤ m) := by
  cases stack with
  | nil => simp [hold] at h
  | cons top below =>
    rcases List.mem_cons.mp h with rfl | h
    · exact ⟨top, List.mem_cons_self .., Nat.le_max_left top n⟩
    · exact ⟨m, List.mem_cons_of_mem _ h, le_rfl⟩

theorem le_head_hold {n m : Nat} {stack : List Nat} (h : m ∈ (hold n stack).head?) : n ≤ m := by
  cases stack with
  | nil => simp [hold] at h
  | cons top below =>
    simp only [hold, List.head?_cons, Option.mem_some_iff] at h
    omega

theorem map_hold (i n : Nat) (stack : List Nat) :
    (hold n stack).map (max i) = hold n (stack.map (max i)) := by
  cases stack with
  | nil => rfl
  | cons top below => simp [hold, max_assoc]

/-- The stack before a pass: nothing in it is from an earlier one, and its top meets the next
    element in this pass only if that is not the pass's own closer. -/
structure Before (k : Nat) (closer : α) (stack : List Nat) (xs : List α) : Prop where
  le : ∀ m ∈ stack, k ≤ m
  head : xs.head? = some closer → ∀ m ∈ stack.head?, k + 1 ≤ m

omit [DecidableEq α] in
theorem Before.hold {closer : α} {stack : List Nat} (h : ∀ m ∈ stack, k ≤ m) {n : Nat}
    (hn : k + 1 ≤ n) (xs : List α) : Before k closer (hold n stack) xs where
  le m hm := by
    obtain ⟨m', hm', hle⟩ := mem_hold hm
    exact le_trans (h m' hm') hle
  head _ m hm := le_trans hn (le_head_hold hm)

/-! ## One pass -/

section Pass

variable {closer : α} (hopener : opener ∉ closers) (hmem : closer ∈ closers)
  (hk : closers.idxOf closer = k)

include hopener hmem hk

omit hmem in
/-- An element that the pass leaves where it is. -/
theorem scan_kept {a : α} {rest rest' stack : List _} (h : Before k closer stack (a :: rest))
    (hpair : a = opener → rest.head? ≠ some closer)
    (hrest : ∀ stack', Before k closer stack' rest →
      scan opener closers k stack' rest =
        scan opener closers (k + 1) (stack'.map (max (k + 1))) rest') :
    scan opener closers k stack (a :: rest) =
      scan opener closers (k + 1) (stack.map (max (k + 1))) (a :: rest') := by
  by_cases ha : a = opener
  · subst ha
    have hbefore : Before k closer (k :: stack) rest :=
      { le := List.forall_mem_cons.mpr ⟨le_rfl, h.le⟩
        head := fun hhead => absurd hhead (hpair rfl) }
    rw [scan_opener, scan_opener, hrest _ hbefore, List.map_cons, Nat.max_eq_left (Nat.le_succ k)]
  · by_cases hcloser : a ∈ closers
    · cases stack with
      | nil =>
        have hbefore : Before k closer [] rest := { le := by simp, head := by simp }
        rw [List.map_nil, scan_empty ha, scan_empty ha, hrest _ hbefore, List.map_nil]
      | cons m below =>
        rw [List.map_cons, scan_closer ha hcloser, scan_closer ha hcloser]
        have hm : k ≤ m := h.le m (List.mem_cons_self ..)
        have hbelow : ∀ m' ∈ below, k ≤ m' := fun m' hm' => h.le m' (List.mem_cons_of_mem _ hm')
        -- a closer of this pass does not follow directly on its opener here
        have hown : closers.idxOf a = k → k + 1 ≤ m := by
          intro hidx
          have heq : a = closer := (List.idxOf_inj hcloser).mp (hidx.trans hk.symm)
          exact h.head (by rw [heq]; rfl) m rfl
        by_cases hle : m ≤ closers.idxOf a
        · have hlate : k + 1 ≤ closers.idxOf a := by
            by_contra hnot
            have := hown (by omega)
            omega
          have hle' : max (k + 1) m ≤ closers.idxOf a := max_le hlate hle
          rw [decide_eq_true hle, decide_eq_true hle', hrest _ (Before.hold hbelow (by omega) rest),
            map_hold]
        · have hle' : ¬max (k + 1) m ≤ closers.idxOf a := fun hmax =>
            hle (le_trans (le_max_right _ _) hmax)
          rw [decide_eq_false hle, decide_eq_false hle', Bool.false_and, Bool.false_and]
    · have hbefore : Before k closer [] rest := { le := by simp, head := by simp }
      rw [scan_other ha hcloser, scan_other ha hcloser, hrest _ hbefore, List.map_nil]

/-- A pass does what the scan foresees of it. -/
theorem scan_without (xs : List α) {stack : List Nat} (h : Before k closer stack xs) :
    scan opener closers k stack xs =
      scan opener closers (k + 1) (stack.map (max (k + 1))) (without opener closer xs) := by
  induction xs using without.induct opener closer generalizing stack with
  | case1 => simp [without]
  | case2 a =>
    rw [without]
    exact scan_kept hopener hk h (by simp) (by simp)
  | case3 a b rest hpair ih =>
    obtain ⟨rfl, rfl⟩ := hpair
    have hne : b ≠ a := fun heq => hopener (heq ▸ hmem)
    rw [without, if_pos ⟨rfl, rfl⟩, scan_opener, scan_closer hne hmem, hk,
      decide_eq_true le_rfl, Bool.true_and, ih (Before.hold h.le le_rfl rest), map_hold]
    congr 1
    cases stack with
    | nil => rfl
    | cons m below =>
      have hmax : max (max (k + 1) m) (k + 1) = max (k + 1) m := by omega
      simp only [hold, List.map_cons, hmax]
  | case4 a b rest hpair ih =>
    rw [without, if_neg hpair]
    refine scan_kept hopener hk h (fun ha hb => ?_) fun stack' h' => ih h'
    exact hpair ⟨ha, by simpa using hb⟩

end Pass

end Scan

/-! ## All passes -/

section Passes

variable {opener : α} {closers : List α} (hopener : opener ∉ closers)

include hopener

/-- After the last pass the scan looks for pairs. -/
theorem scan_length (xs : List α) {stack : List Nat} (h : ∀ m ∈ stack, closers.length ≤ m) :
    scan opener closers closers.length stack xs = true ↔
      Clean opener closers xs ∧ (stack ≠ [] → ∀ a ∈ xs.head?, a ∉ closers) := by
  induction xs generalizing stack with
  | nil => simp [Clean]
  | cons a rest ih =>
    rw [Clean, List.isChain_cons]
    by_cases ha : a = opener
    · subst ha
      rw [scan_opener, ih (List.forall_mem_cons.mpr ⟨le_rfl, h⟩)]
      simp [Clean, hopener, and_comm]
    · by_cases hcloser : a ∈ closers
      · cases stack with
        | nil =>
          rw [scan_empty ha, ih h]
          simp [Clean, ha]
        | cons m below =>
          have hm := h m (List.mem_cons_self ..)
          have hidx := List.idxOf_lt_length_of_mem hcloser
          rw [scan_closer ha hcloser, decide_eq_false (by omega)]
          simp [hcloser]
      · rw [scan_other ha hcloser, ih (by simp)]
        simp [Clean, ha, hcloser]

theorem scan_passes (hnodup : closers.Nodup) (before after : List α)
    (hsplit : before ++ after = closers) (xs : List α) :
    scan opener closers before.length [] xs = true ↔ Clean opener closers (passes opener after xs) := by
  induction after generalizing before xs with
  | nil =>
    rw [List.append_nil] at hsplit
    subst hsplit
    rw [scan_length hopener xs (by simp)]
    simp [passes]
  | cons closer after ih =>
    have hidx : closers.idxOf closer = before.length := by
      subst hsplit
      have hnew : closer ∉ before := fun hin =>
        (List.nodup_append.mp hnodup).2.2 closer hin closer (List.mem_cons_self ..) rfl
      rw [List.idxOf_append_of_notMem hnew, List.idxOf_cons_self, Nat.add_zero]
    have hmem : closer ∈ closers := by simp [← hsplit]
    have hbefore : Before before.length closer [] xs := { le := by simp, head := by simp }
    have hnext := ih (before ++ [closer]) (by simpa using hsplit) (without opener closer xs)
    rw [List.length_append, List.length_singleton] at hnext
    rw [scan_without hopener hmem hidx xs hbefore, List.map_nil, hnext]
    rfl

/-- The passes leave no pair exactly when every pair they bring together is of a pass still to
    come. -/
theorem clean_passes_iff (hnodup : closers.Nodup) (xs : List α) :
    Clean opener closers (passes opener closers xs) ↔ layered opener closers xs = true :=
  (scan_passes hopener hnodup [] closers rfl xs).symm

end Passes

theorem without_sublist (opener closer : α) (xs : List α) :
    (without opener closer xs).Sublist xs := by
  induction xs using without.induct opener closer with
  | case1 => simp [without]
  | case2 a => simp [without]
  | case3 a b rest hpair ih =>
    rw [without, if_pos hpair]
    exact (ih.cons b).cons a
  | case4 a b rest hpair ih =>
    rw [without, if_neg hpair]
    exact ih.cons_cons a

theorem passes_sublist (opener : α) (closers xs : List α) :
    (passes opener closers xs).Sublist xs := by
  induction closers generalizing xs with
  | nil => exact List.Sublist.refl xs
  | cons closer closers ih =>
    exact (ih (without opener closer xs)).trans (without_sublist opener closer xs)

end PairPasses
