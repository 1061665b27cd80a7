import Mathlib.Data.List.Sort
import Mathlib.Order.Basic

set_option autoImplicit false

/-! # The lower median

The middle element of a list in ascending order, the lower one of two. What more than half of the
elements satisfy of an upper or a lower bound holds of it, so a minority cannot move it out of the
range of the others. -/

universe u

namespace Median

variable {α : Type u} [LinearOrder α]

/-- The element that stands in the middle after sorting. -/
def lowerMedian (l : List α) : Option α :=
  let sorted := l.insertionSort (· ≤ ·)
  sorted[(sorted.length - 1) / 2]?

theorem lowerMedian_perm {l l' : List α} (h : l.Perm l') : lowerMedian l = lowerMedian l' := by
  have hsorted : l.insertionSort (· ≤ ·) = l'.insertionSort (· ≤ ·) := by
    have hsame : (l.insertionSort (· ≤ ·)).Perm (l'.insertionSort (· ≤ ·)) :=
      (List.perm_insertionSort _ l).trans (h.trans (List.perm_insertionSort _ l').symm)
    exact hsame.eq_of_pairwise (fun a b _ _ => le_antisymm)
      (List.pairwise_insertionSort (· ≤ ·) l) (List.pairwise_insertionSort (· ≤ ·) l')
  rw [lowerMedian, lowerMedian, hsorted]

theorem exists_lowerMedian {l : List α} (h : l ≠ []) : ∃ m, lowerMedian l = some m := by
  unfold lowerMedian
  simp only
  have hpos := List.length_pos_iff.2 h
  refine ⟨_, List.getElem?_eq_getElem ?_⟩
  rw [List.length_insertionSort]
  omega

theorem mem_of_lowerMedian {l : List α} {m : α} (h : lowerMedian l = some m) : m ∈ l := by
  unfold lowerMedian at h
  exact List.mem_insertionSort (r := (· ≤ ·)) |>.1 (List.mem_of_getElem? h)

/-- Where a sorted list is cut at one of its elements, the elements before it are at most that one
    and those after it at least. -/
theorem sorted_cut {l : List α} (h : l.Pairwise (· ≤ ·)) {i : Nat} {m : α} (hm : l[i]? = some m) :
    (∀ x ∈ l.take (i + 1), x ≤ m) ∧ ∀ x ∈ l.drop i, m ≤ x := by
  induction l generalizing i with
  | nil => rw [List.getElem?_nil] at hm; contradiction
  | cons a rest ih =>
    obtain ⟨ha, hrest⟩ := List.pairwise_cons.1 h
    cases i with
    | zero =>
      obtain rfl : a = m := by simpa using hm
      refine ⟨by simp, fun x hx => ?_⟩
      rcases List.mem_cons.1 hx with rfl | hx
      · exact le_refl x
      · exact ha x hx
    | succ i =>
      rw [List.getElem?_cons_succ] at hm
      obtain ⟨hbefore, hafter⟩ := ih hrest hm
      refine ⟨fun x hx => ?_, hafter⟩
      rw [List.take_succ_cons] at hx
      rcases List.mem_cons.1 hx with rfl | hx
      · exact ha m (List.mem_of_getElem? hm)
      · exact hbefore x hx

/-- **An upper bound of more than half of the elements bounds the median.** -/
theorem lowerMedian_le {l : List α} {m hi : α} (h : lowerMedian l = some m)
    (hmajority : l.length < 2 * l.countP (· ≤ hi)) : m ≤ hi := by
  by_contra hlt
  have hcount := (List.perm_insertionSort (· ≤ ·) l).countP_eq (fun x => decide (x ≤ hi))
  obtain ⟨-, hafter⟩ := sorted_cut (List.pairwise_insertionSort (· ≤ ·) l) h
  have hnone : ((l.insertionSort (· ≤ ·)).drop ((l.length - 1) / 2)).countP (· ≤ hi) = 0 := by
    refine List.countP_eq_zero.2 fun x hx hle => hlt ?_
    rw [List.length_insertionSort] at hafter
    exact le_trans (hafter x hx) (of_decide_eq_true hle)
  have hfew := List.countP_le_length (p := fun x => decide (x ≤ hi))
    (l := (l.insertionSort (· ≤ ·)).take ((l.length - 1) / 2))
  rw [← List.take_append_drop ((l.length - 1) / 2) (l.insertionSort (· ≤ ·)), List.countP_append,
    hnone] at hcount
  rw [List.length_take, List.length_insertionSort] at hfew
  omega

/-- **So does a lower bound of more than half of them.** -/
theorem le_lowerMedian {l : List α} {m lo : α} (h : lowerMedian l = some m)
    (hmajority : l.length < 2 * l.countP (lo ≤ ·)) : lo ≤ m := by
  by_contra hlt
  have hcount := (List.perm_insertionSort (· ≤ ·) l).countP_eq (fun x => decide (lo ≤ x))
  obtain ⟨hbefore, -⟩ := sorted_cut (List.pairwise_insertionSort (· ≤ ·) l) h
  have hnone : ((l.insertionSort (· ≤ ·)).take ((l.length - 1) / 2 + 1)).countP (lo ≤ ·) = 0 := by
    refine List.countP_eq_zero.2 fun x hx hle => hlt ?_
    rw [List.length_insertionSort] at hbefore
    exact le_trans (of_decide_eq_true hle) (hbefore x hx)
  have hfew := List.countP_le_length (p := fun x => decide (lo ≤ x))
    (l := (l.insertionSort (· ≤ ·)).drop ((l.length - 1) / 2 + 1))
  rw [← List.take_append_drop ((l.length - 1) / 2 + 1) (l.insertionSort (· ≤ ·)),
    List.countP_append, hnone] at hcount
  rw [List.length_drop, List.length_insertionSort] at hfew
  omega

end Median
