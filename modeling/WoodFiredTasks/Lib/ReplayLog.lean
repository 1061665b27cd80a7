import Mathlib.Data.List.Basic
import Mathlib.Data.List.Infix
import Mathlib.Data.List.Indexes

set_option autoImplicit false

/-! # Numbered logs and the part of them that is retained

A log hands out consecutive numbers from 1 on. A buffer retains a last part of it, and never
nothing once the log holds an entry. Such a buffer shows by its first number whether an entry
after a given one is missing. -/

universe u

variable {α : Type u}

/-- The entries of a log with their numbers. -/
def numbered (log : List α) : List (Nat × α) := log.mapIdx fun i a => (i + 1, a)

@[simp] theorem numbered_nil : numbered ([] : List α) = [] := rfl

@[simp] theorem length_numbered (log : List α) : (numbered log).length = log.length := by
  simp [numbered]

theorem numbered_concat (log : List α) (a : α) :
    numbered (log ++ [a]) = numbered log ++ [(log.length + 1, a)] := by
  simp [numbered, List.mapIdx_concat]

theorem mem_numbered {log : List α} {e : Nat × α} :
    e ∈ numbered log ↔ ∃ i, log[i]? = some e.2 ∧ e.1 = i + 1 := by
  simp only [numbered, List.mem_mapIdx]
  constructor
  · rintro ⟨i, hi, rfl⟩
    exact ⟨i, List.getElem?_eq_getElem hi, rfl⟩
  · rintro ⟨i, hget, hnum⟩
    obtain ⟨hi, hval⟩ := List.getElem?_eq_some_iff.1 hget
    exact ⟨i, hi, by rw [hval, ← hnum]⟩

/-- The buffer is a last part of the numbered log, not empty unless the log is. -/
structure Retains (buffer : List (Nat × α)) (log : List α) : Prop where
  suffix : ∃ k, buffer = (numbered log).drop k
  ne_nil : log ≠ [] → buffer ≠ []

namespace Retains

variable {buffer : List (Nat × α)} {log : List α}

theorem nil : Retains ([] : List (Nat × α)) [] := ⟨⟨0, rfl⟩, fun h => absurd rfl h⟩

/-- The next entry goes into the buffer with the next number. -/
theorem push (h : Retains buffer log) (a : α) :
    Retains (buffer ++ [(log.length + 1, a)]) (log ++ [a]) := by
  obtain ⟨k, hk⟩ := h.suffix
  constructor
  · rw [numbered_concat]
    by_cases hle : k ≤ log.length
    · refine ⟨k, ?_⟩
      rw [hk, List.drop_append_of_le_length (by simpa using hle)]
    · -- a number beyond the end drops everything, as does the end itself
      refine ⟨log.length, ?_⟩
      have hnil : buffer = [] := by
        rw [hk]
        exact List.drop_eq_nil_of_le (by simp; omega)
      rw [hnil, List.drop_append_of_le_length (by simp)]
      simp [List.drop_eq_nil_of_le]
  · simp

/-- Old entries may go, but not all of them. -/
theorem drop (h : Retains buffer log) {j : Nat} (hne : log ≠ [] → buffer.drop j ≠ []) :
    Retains (buffer.drop j) log := by
  obtain ⟨k, hk⟩ := h.suffix
  refine ⟨⟨k + j, ?_⟩, hne⟩
  rw [hk, List.drop_drop]

/-- **Main theorem.** If the first retained number leaves no gap after `n`, then every entry after
    `n` is retained. -/
theorem complete (h : Retains buffer log) {n : Nat} (hgap : ∀ e ∈ buffer.head?, e.1 ≤ n + 1)
    {e : Nat × α} (he : e ∈ numbered log) (hn : n < e.1) : e ∈ buffer := by
  obtain ⟨k, hk⟩ := h.suffix
  obtain ⟨i, hget, hnum⟩ := mem_numbered.1 he
  have hlt : i < log.length := (List.getElem?_eq_some_iff.1 hget).1
  have hne : log ≠ [] := by
    intro hnil
    simp [hnil] at hlt
  have hk' : k < log.length := by
    by_contra hge
    exact h.ne_nil hne (hk.trans (List.drop_eq_nil_of_le (by simp; omega)))
  -- the first retained entry has number k + 1
  have hhead : buffer.head? = some (k + 1, log[k]) := by
    rw [hk, List.head?_drop]
    simp [numbered, List.getElem?_eq_getElem hk']
  have hfirst : k + 1 ≤ n + 1 := hgap _ hhead
  rw [hk]
  refine List.mem_iff_getElem?.2 ⟨i - k, ?_⟩
  rw [List.getElem?_drop, show k + (i - k) = i by omega]
  simp only [numbered, List.getElem?_mapIdx, hget, Option.map_some, ← hnum]

/-- No number in the buffer is beyond the log. -/
theorem le_length (h : Retains buffer log) {e : Nat × α} (he : e ∈ buffer) :
    0 < e.1 ∧ e.1 ≤ log.length := by
  obtain ⟨k, hk⟩ := h.suffix
  rw [hk] at he
  obtain ⟨i, hget, hnum⟩ := mem_numbered.1 (List.mem_of_mem_drop he)
  have hlt : i < log.length := (List.getElem?_eq_some_iff.1 hget).1
  omega

end Retains

/-- A filter that lets everything through after the first entry it lets through drops a first
    part. -/
theorem List.filter_eq_drop_of_pairwise {p : α → Bool} {l : List α}
    (h : l.Pairwise fun a b => p a = true → p b = true) : ∃ k, l.filter p = l.drop k := by
  induction l with
  | nil => exact ⟨0, rfl⟩
  | cons a rest ih =>
    obtain ⟨hfirst, hrest⟩ := List.pairwise_cons.1 h
    cases ha : p a with
    | true =>
      refine ⟨0, List.filter_eq_self.2 fun b hb => ?_⟩
      rcases List.mem_cons.1 hb with rfl | hb
      · exact ha
      · exact hfirst b hb ha
    | false =>
      obtain ⟨k, hk⟩ := ih hrest
      exact ⟨k + 1, by simp [ha, hk]⟩
