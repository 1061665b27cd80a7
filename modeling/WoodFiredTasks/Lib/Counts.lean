import Mathlib.Algebra.BigOperators.Group.List.Lemmas
import Mathlib.Algebra.BigOperators.Group.Finset.Basic
import Mathlib.Algebra.GroupWithZero.Nat
import Mathlib.Data.List.Dedup

set_option autoImplicit false

/-! # Counting by key

A list of keys is counted in one pass, into a map that is an association list. The counts have each
key once, with the number of its occurrences; so they are determined up to their order, and they
add up to the length of the list. -/

variable {K : Type} [DecidableEq K]

/-- One more of the key. -/
def bumpCount (k : K) : List (K × Nat) → List (K × Nat)
  | [] => [(k, 1)]
  | (k', n) :: rest => if k' = k then (k', n + 1) :: rest else (k', n) :: bumpCount k rest

/-- The counts of the keys, in the order in which the keys come first. -/
def countsOf (keys : List K) : List (K × Nat) := keys.foldl (fun groups k => bumpCount k groups) []

/-- Each key is there once, with the number of its occurrences. -/
structure Counts (groups : List (K × Nat)) (keys : List K) : Prop where
  nodup : (groups.map Prod.fst).Nodup
  mem_iff : ∀ k n, (k, n) ∈ groups ↔ k ∈ keys ∧ n = keys.count k

section Bump

variable {k : K} {groups : List (K × Nat)}

theorem map_fst_bumpCount :
    (bumpCount k groups).map Prod.fst =
      if k ∈ groups.map Prod.fst then groups.map Prod.fst else groups.map Prod.fst ++ [k] := by
  induction groups with
  | nil => simp [bumpCount]
  | cons g rest ih =>
    obtain ⟨k', n⟩ := g
    by_cases hk : k' = k
    · simp [bumpCount, hk]
    · have hk' : k ≠ k' := fun h => hk h.symm
      simp only [bumpCount, if_neg hk, List.map_cons, ih, List.mem_cons, hk', false_or]
      split <;> rfl

/-- The other keys have their counts. -/
theorem mem_bumpCount_of_ne {k' : K} {n : Nat} (hk : k' ≠ k) :
    (k', n) ∈ bumpCount k groups ↔ (k', n) ∈ groups := by
  induction groups with
  | nil => simp [bumpCount, hk]
  | cons g rest ih =>
    obtain ⟨j, m⟩ := g
    by_cases hj : j = k
    · subst hj
      simp [bumpCount, hk]
    · simp [bumpCount, hj, ih]

theorem mem_bumpCount_self {n : Nat} (hnodup : (groups.map Prod.fst).Nodup) :
    (k, n) ∈ bumpCount k groups ↔
      (k ∉ groups.map Prod.fst ∧ n = 1) ∨ ∃ m, (k, m) ∈ groups ∧ n = m + 1 := by
  induction groups with
  | nil => simp [bumpCount]
  | cons g rest ih =>
    obtain ⟨j, m⟩ := g
    obtain ⟨hfirst, hrest⟩ := List.nodup_cons.1 hnodup
    have hnone : ∀ i, (j, i) ∉ rest := fun i hi => hfirst (List.mem_map.2 ⟨(j, i), hi, rfl⟩)
    by_cases hj : j = k
    · subst hj
      simp [bumpCount, hnone]
    · have hj' : k ≠ j := fun h => hj h.symm
      simp [bumpCount, hj, hj', ih hrest]

end Bump

namespace Counts

variable {k : K} {groups groups' : List (K × Nat)} {keys : List K}

theorem mem_fst (h : Counts groups keys) : k ∈ groups.map Prod.fst ↔ k ∈ keys := by
  rw [List.mem_map]
  constructor
  · rintro ⟨⟨k, n⟩, hmem, rfl⟩
    exact ((h.mem_iff k n).1 hmem).1
  · intro hk
    exact ⟨(k, keys.count k), (h.mem_iff _ _).2 ⟨hk, rfl⟩, rfl⟩

/-- Counting one key more. -/
theorem bump (h : Counts groups keys) (k : K) : Counts (bumpCount k groups) (keys ++ [k]) where
  nodup := by
    rw [map_fst_bumpCount]
    split
    · exact h.nodup
    · rename_i hk
      refine List.nodup_append.2 ⟨h.nodup, List.nodup_singleton k, fun a ha b hb hab => ?_⟩
      rw [List.mem_singleton] at hb
      exact hk (hb ▸ hab ▸ ha)
  mem_iff k' n := by
    by_cases hk : k' = k
    · subst hk
      rw [mem_bumpCount_self h.nodup, h.mem_fst]
      simp only [h.mem_iff, List.mem_append, List.mem_singleton, or_true, true_and,
        List.count_append, List.count_singleton_self]
      by_cases hmem : k' ∈ keys
      · simp [hmem]
      · simp [hmem, List.count_eq_zero_of_not_mem hmem]
    · have hk' : k ≠ k' := fun h => hk h.symm
      rw [mem_bumpCount_of_ne hk, h.mem_iff]
      simp [hk, hk', List.count_append]

theorem perm (h : Counts groups keys) (hperm : groups'.Perm groups) : Counts groups' keys where
  nodup := (hperm.map Prod.fst).nodup_iff.2 h.nodup
  mem_iff k n := hperm.mem_iff.trans (h.mem_iff k n)

/-- The counts are determined up to their order. -/
theorem unique (h : Counts groups keys) (h' : Counts groups' keys) : groups.Perm groups' :=
  (List.perm_ext_iff_of_nodup h.nodup.of_map h'.nodup.of_map).2 fun g =>
    (h.mem_iff g.1 g.2).trans (h'.mem_iff g.1 g.2).symm

/-- The counts add up. -/
theorem sum (h : Counts groups keys) : (groups.map Prod.snd).sum = keys.length := by
  have hdedup : Counts (keys.dedup.map fun k => (k, keys.count k)) keys := by
    refine ⟨by simpa [Function.comp_def] using keys.nodup_dedup, fun k n => ?_⟩
    rw [List.mem_map]
    constructor
    · rintro ⟨k, hk, heq⟩
      cases heq
      exact ⟨List.mem_dedup.1 hk, rfl⟩
    · rintro ⟨hk, rfl⟩
      exact ⟨k, List.mem_dedup.2 hk, rfl⟩
  rw [((h.unique hdedup).map Prod.snd).sum_eq, List.map_map]
  exact List.sum_map_count_dedup_eq_length keys

/-- Keys that are renamed apart. -/
theorem rename {J : Type} [DecidableEq J] (h : Counts groups keys) {f : K → J}
    (hf : ∀ a ∈ keys, ∀ b ∈ keys, f a = f b → a = b) :
    Counts (groups.map fun g => (f g.1, g.2)) (keys.map f) where
  nodup := by
    rw [List.map_map]
    have hcomp : (Prod.fst ∘ fun g : K × Nat => (f g.1, g.2)) = f ∘ Prod.fst := rfl
    rw [hcomp, ← List.map_map]
    exact List.Nodup.map_on (fun a ha b hb => hf a (h.mem_fst.1 ha) b (h.mem_fst.1 hb)) h.nodup
  mem_iff j n := by
    have hcount : ∀ k ∈ keys, (keys.map f).count (f k) = keys.count k := by
      intro k hk
      rw [List.count, List.countP_map, List.count]
      refine List.countP_congr fun a ha => ?_
      simp only [Function.comp, beq_iff_eq]
      exact ⟨fun heq => hf a ha k hk heq, fun heq => congrArg f heq⟩
    simp only [List.mem_map, Prod.mk.injEq]
    constructor
    · rintro ⟨⟨k, m⟩, hmem, rfl, rfl⟩
      obtain ⟨hk, rfl⟩ := (h.mem_iff k m).1 hmem
      exact ⟨⟨k, hk, rfl⟩, (hcount k hk).symm⟩
    · rintro ⟨⟨k, hk, rfl⟩, rfl⟩
      exact ⟨(k, keys.count k), (h.mem_iff _ _).2 ⟨hk, rfl⟩, rfl, (hcount k hk).symm⟩

end Counts

/-- The pass over the keys counts them. -/
theorem counts_countsOf (keys : List K) : Counts (countsOf keys) keys := by
  have hloop : ∀ (rest done : List K) (groups : List (K × Nat)), Counts groups done →
      Counts (rest.foldl (fun groups k => bumpCount k groups) groups) (done ++ rest) := by
    intro rest
    induction rest with
    | nil =>
      intro done groups h
      rwa [List.append_nil]
    | cons k rest ih =>
      intro done groups h
      have hnext := ih (done ++ [k]) _ (h.bump k)
      rwa [List.append_assoc] at hnext
  exact hloop keys [] [] ⟨List.nodup_nil, by simp⟩
