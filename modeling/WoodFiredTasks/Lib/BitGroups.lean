import Mathlib.Algebra.Group.Nat.Defs
import Mathlib.Data.List.Basic

set_option autoImplicit false

/-! # Bits of words

The bits of a number, the most significant one first, and of a list of words of one width. An
encoder that regroups a stream of words into words of another width keeps the bits that it has not
written yet as the low bits of an accumulator. `bitsOf_add` is what taking some of them off does,
`bitsOf_push` what the next word does, and `eq_of_flatMap_bitsOf` reads the words back. -/

namespace BitGroups

/-- The lowest `w` bits of a number, the most significant one first. -/
def bitsOf : Nat → Nat → List Bool
  | 0, _ => []
  | w + 1, n => n.testBit w :: bitsOf w n

@[simp] theorem length_bitsOf (w n : Nat) : (bitsOf w n).length = w := by
  induction w with
  | zero => rfl
  | succ w ih => rw [bitsOf, List.length_cons, ih]

/-- Only the lowest bits are looked at. -/
theorem bitsOf_congr {w m n : Nat} (h : ∀ i < w, m.testBit i = n.testBit i) :
    bitsOf w m = bitsOf w n := by
  induction w with
  | zero => rfl
  | succ w ih => rw [bitsOf, bitsOf, h w (by omega), ih fun i hi => h i (by omega)]

/-- The upper bits come first. -/
theorem bitsOf_add (a b n : Nat) : bitsOf (a + b) n = bitsOf a (n >>> b) ++ bitsOf b n := by
  induction a with
  | zero => rw [Nat.zero_add, bitsOf, List.nil_append]
  | succ a ih =>
    rw [Nat.succ_add, bitsOf, bitsOf, ih, Nat.testBit_shiftRight, Nat.add_comm b a, List.cons_append]

theorem bitsOf_zero_right (w : Nat) : bitsOf w 0 = List.replicate w false := by
  induction w with
  | zero => rfl
  | succ w ih => rw [bitsOf, ih, Nat.zero_testBit, List.replicate_succ]

/-- A number whose bits above `b` are those of `m` and whose bits below are those of `n`. -/
theorem bitsOf_push {a b k m n : Nat} (hupper : ∀ i < a, k.testBit (i + b) = m.testBit i)
    (hlower : ∀ i < b, k.testBit i = n.testBit i) :
    bitsOf (a + b) k = bitsOf a m ++ bitsOf b n := by
  rw [bitsOf_add, bitsOf_congr hlower]
  congr 1
  refine bitsOf_congr fun i hi => ?_
  rw [Nat.testBit_shiftRight, Nat.add_comm b i]
  exact hupper i hi

/-- A number below `2 ^ w` is given by its `w` lowest bits. -/
theorem eq_of_bitsOf {w m n : Nat} (hm : m < 2 ^ w) (hn : n < 2 ^ w)
    (h : bitsOf w m = bitsOf w n) : m = n := by
  have hbits : ∀ {w}, bitsOf w m = bitsOf w n → ∀ i < w, m.testBit i = n.testBit i := by
    intro w
    induction w with
    | zero => intro _ i hi; omega
    | succ w ih =>
      intro h i hi
      rw [bitsOf, bitsOf, List.cons.injEq] at h
      by_cases hw : i = w
      · rw [hw, h.1]
      · exact ih h.2 i (by omega)
  refine Nat.eq_of_testBit_eq fun i => ?_
  by_cases hi : i < w
  · exact hbits h i hi
  · have hpow : 2 ^ w ≤ 2 ^ i := Nat.pow_le_pow_right (by omega) (by omega)
    rw [Nat.testBit_lt_two_pow (by omega), Nat.testBit_lt_two_pow (by omega)]

/-! ## Lists of words -/

theorem length_flatMap_bitsOf (w : Nat) (words : List Nat) :
    (words.flatMap (bitsOf w)).length = w * words.length := by
  induction words with
  | nil => rfl
  | cons word words ih =>
    rw [List.flatMap_cons, List.length_append, length_bitsOf, ih, List.length_cons, Nat.mul_succ]
    omega

/-- **Words are read back from their bits.** -/
theorem eq_of_flatMap_bitsOf {w : Nat} (hw : 0 < w) {xs ys : List Nat} (hxs : ∀ x ∈ xs, x < 2 ^ w)
    (hys : ∀ y ∈ ys, y < 2 ^ w) (h : xs.flatMap (bitsOf w) = ys.flatMap (bitsOf w)) : xs = ys := by
  induction xs generalizing ys with
  | nil =>
    have hlength := congrArg List.length h
    rw [length_flatMap_bitsOf, length_flatMap_bitsOf, List.length_nil, Nat.mul_zero] at hlength
    exact (List.eq_nil_of_length_eq_zero (by
      rcases Nat.mul_eq_zero.1 hlength.symm with h0 | h0
      · omega
      · exact h0)).symm
  | cons x xs ih =>
    cases ys with
    | nil =>
      have hlength := congrArg List.length h
      rw [length_flatMap_bitsOf, length_flatMap_bitsOf, List.length_nil, Nat.mul_zero,
        List.length_cons, Nat.mul_succ] at hlength
      omega
    | cons y ys =>
      rw [List.flatMap_cons, List.flatMap_cons] at h
      obtain ⟨hhead, htail⟩ := List.append_inj h (by rw [length_bitsOf, length_bitsOf])
      rw [eq_of_bitsOf (hxs x List.mem_cons_self) (hys y List.mem_cons_self) hhead,
        ih (fun z hz => hxs z (List.mem_cons_of_mem x hz))
          (fun z hz => hys z (List.mem_cons_of_mem y hz)) htail]

end BitGroups
