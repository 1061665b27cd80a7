import Mathlib.Data.List.Nodup

set_option autoImplicit false

/-! # Tables with an automatic key

The rows of a relational table whose primary key is handed out by a counter and never reused.
The key is a field of the row, read by `key`; that it is unique and below the counter is part
of the type, so every operation below proves it once and no later proof states it. -/

universe u

/-- Rows with distinct keys, all positive and handed out before `next`. -/
structure Table (ρ : Type u) (key : ρ → Nat) where
  rows : List ρ
  /-- The key the next inserted row gets. -/
  next : Nat
  nodup : (rows.map key).Nodup
  below : ∀ r ∈ rows, key r < next
  pos : ∀ r ∈ rows, 0 < key r
  next_pos : 0 < next

namespace Table

variable {ρ : Type u} {key : ρ → Nat}

/-- The table without rows; keys start at 1. -/
def empty : Table ρ key where
  rows := []
  next := 1
  nodup := List.nodup_nil
  below := by simp
  pos := by simp
  next_pos := Nat.one_pos

/-- The row with key `k`. -/
def find? (t : Table ρ key) (k : Nat) : Option ρ := t.rows.find? fun r => key r == k

/-- Add the row that `mk` builds from its key. -/
def insert (t : Table ρ key) (mk : Nat → ρ) (hk : ∀ n, key (mk n) = n) : Table ρ key where
  rows := t.rows ++ [mk t.next]
  next := t.next + 1
  nodup := by
    rw [List.map_append, List.nodup_append]
    refine ⟨t.nodup, by simp, ?_⟩
    intro a ha b hb
    obtain ⟨r, hr, rfl⟩ := List.mem_map.1 ha
    have hlt := t.below r hr
    simp only [List.map_cons, List.map_nil, List.mem_singleton, hk] at hb
    omega
  below := by
    intro r hr
    rcases List.mem_append.1 hr with hr | hr
    · have := t.below r hr
      omega
    · rw [List.mem_singleton] at hr
      rw [hr, hk]
      omega
  pos := by
    intro r hr
    rcases List.mem_append.1 hr with hr | hr
    · exact t.pos r hr
    · rw [List.mem_singleton] at hr
      rw [hr, hk]
      exact t.next_pos
  next_pos := Nat.succ_pos _

/-- Rewrite the row with key `k`, keeping its key. -/
def modify (t : Table ρ key) (k : Nat) (f : ρ → ρ) (hf : ∀ r, key (f r) = key r) :
    Table ρ key where
  rows := t.rows.map fun r => if key r = k then f r else r
  next := t.next
  nodup := by
    have hmap : (t.rows.map fun r => if key r = k then f r else r).map key = t.rows.map key := by
      rw [List.map_map]
      refine List.map_congr_left fun r _ => ?_
      simp only [Function.comp_apply]
      split
      · exact hf r
      · rfl
    rw [hmap]
    exact t.nodup
  below := by
    intro r' hr'
    obtain ⟨r, hr, rfl⟩ := List.mem_map.1 hr'
    have hlt := t.below r hr
    split
    · rwa [hf]
    · exact hlt
  pos := by
    intro r' hr'
    obtain ⟨r, hr, rfl⟩ := List.mem_map.1 hr'
    have hpos := t.pos r hr
    split
    · rwa [hf]
    · exact hpos
  next_pos := t.next_pos

/-- Keep the rows with `p`. -/
def filter (t : Table ρ key) (p : ρ → Bool) : Table ρ key where
  rows := t.rows.filter p
  next := t.next
  nodup := (List.Sublist.map key List.filter_sublist).nodup t.nodup
  below := fun r hr => t.below r (List.mem_of_mem_filter hr)
  pos := fun r hr => t.pos r (List.mem_of_mem_filter hr)
  next_pos := t.next_pos

/-! ## Reading -/

theorem key_inj (t : Table ρ key) {r r' : ρ} (hr : r ∈ t.rows) (hr' : r' ∈ t.rows)
    (h : key r = key r') : r = r' :=
  List.inj_on_of_nodup_map t.nodup hr hr' h

theorem find?_eq_some {t : Table ρ key} {k : Nat} {r : ρ} :
    t.find? k = some r ↔ r ∈ t.rows ∧ key r = k := by
  constructor
  · intro h
    exact ⟨List.mem_of_find?_eq_some h, by simpa using List.find?_some h⟩
  · rintro ⟨hr, rfl⟩
    rcases hfind : t.find? (key r) with _ | r'
    · have := List.find?_eq_none.1 hfind r hr
      simp at this
    · have hr' := List.mem_of_find?_eq_some hfind
      have hk : key r' = key r := by simpa using List.find?_some hfind
      rw [t.key_inj hr' hr hk]

theorem find?_eq_none {t : Table ρ key} {k : Nat} :
    t.find? k = none ↔ ∀ r ∈ t.rows, key r ≠ k := by
  simp [find?]

theorem find?_key {t : Table ρ key} {r : ρ} (hr : r ∈ t.rows) : t.find? (key r) = some r :=
  find?_eq_some.2 ⟨hr, rfl⟩

theorem lt_next_of_find? {t : Table ρ key} {k : Nat} {r : ρ} (h : t.find? k = some r) :
    k < t.next := by
  obtain ⟨hr, rfl⟩ := find?_eq_some.1 h
  exact t.below r hr

theorem pos_of_find? {t : Table ρ key} {k : Nat} {r : ρ} (h : t.find? k = some r) : 0 < k := by
  obtain ⟨hr, rfl⟩ := find?_eq_some.1 h
  exact t.pos r hr

@[simp] theorem find?_empty (k : Nat) : (empty : Table ρ key).find? k = none := rfl

@[simp] theorem rows_empty : (empty : Table ρ key).rows = [] := rfl

/-! ## Writing -/

section Writing

variable {t : Table ρ key} {k j : Nat} {r r' : ρ} {f : ρ → ρ} {mk : Nat → ρ} {p : ρ → Bool}
  {hf : ∀ r, key (f r) = key r} {hk : ∀ n, key (mk n) = n}

theorem find?_modify :
    (t.modify k f hf).find? j = (t.find? j).map fun r => if j = k then f r else r := by
  simp only [find?, modify]
  induction t.rows with
  | nil => rfl
  | cons r rest ih =>
    have hkey : key (if key r = k then f r else r) = key r := by
      split
      · exact hf r
      · rfl
    by_cases h : key r = j
    · subst h
      simp [hkey]
    · simp [hkey, h, ih]

theorem find?_modify_self : (t.modify k f hf).find? k = (t.find? k).map f := by
  rw [find?_modify]
  simp

theorem find?_modify_ne (h : j ≠ k) : (t.modify k f hf).find? j = t.find? j := by
  rw [find?_modify]
  simp [h]

theorem find?_insert :
    (t.insert mk hk).find? j = if j = t.next then some (mk t.next) else t.find? j := by
  by_cases h : j = t.next
  · subst h
    rw [if_pos rfl, find?_eq_some]
    exact ⟨by simp [insert], hk _⟩
  · rw [if_neg h]
    simp only [find?, insert, List.find?_append]
    rw [List.find?_cons_of_neg, List.find?_nil, Option.or_none]
    simp only [hk, beq_iff_eq]
    exact fun h' => h h'.symm

theorem find?_filter : (t.filter p).find? j = (t.find? j).filter p := by
  rcases h : t.find? j with _ | r
  · rw [Option.filter_none, find?_eq_none]
    exact fun r hr => find?_eq_none.1 h r (List.mem_of_mem_filter hr)
  · obtain ⟨hr, rfl⟩ := find?_eq_some.1 h
    by_cases hp : p r
    · rw [Option.filter_some, if_pos hp, find?_eq_some]
      exact ⟨List.mem_filter.2 ⟨hr, hp⟩, rfl⟩
    · rw [Option.filter_some, if_neg hp, find?_eq_none]
      intro r' hr' hkey
      obtain ⟨hmem, hp'⟩ := List.mem_filter.1 hr'
      rw [t.key_inj hmem hr hkey] at hp'
      exact hp hp'

theorem mem_modify : r' ∈ (t.modify k f hf).rows ↔
    ∃ r ∈ t.rows, r' = if key r = k then f r else r := by
  simp only [modify, List.mem_map]
  exact exists_congr fun r => and_congr_right fun _ => eq_comm

@[simp] theorem mem_insert : r ∈ (t.insert mk hk).rows ↔ r ∈ t.rows ∨ r = mk t.next := by
  simp [insert]

@[simp] theorem mem_filter : r ∈ (t.filter p).rows ↔ r ∈ t.rows ∧ p r = true := by
  simp [filter]

@[simp] theorem next_modify : (t.modify k f hf).next = t.next := rfl
@[simp] theorem next_filter : (t.filter p).next = t.next := rfl
@[simp] theorem next_insert : (t.insert mk hk).next = t.next + 1 := rfl

/-- Two tables with the same rows and the same counter are equal. -/
theorem ext_rows {t t' : Table ρ key} (h : t.rows = t'.rows) (hn : t.next = t'.next) : t = t' := by
  obtain ⟨rows, next, _, _, _, _⟩ := t
  obtain ⟨rows', next', _, _, _, _⟩ := t'
  subst h
  subst hn
  rfl

/-- Only the function's value at the rewritten row matters. -/
theorem modify_congr {g : ρ → ρ} {hg : ∀ r, key (g r) = key r}
    (h : ∀ r, t.find? k = some r → f r = g r) : t.modify k f hf = t.modify k g hg := by
  refine ext_rows (List.map_congr_left fun r hr => ?_) rfl
  by_cases hkey : key r = k
  · rw [if_pos hkey, if_pos hkey, h r (find?_eq_some.2 ⟨hr, hkey⟩)]
  · rw [if_neg hkey, if_neg hkey]

/-- Rewriting a row as itself changes nothing. -/
theorem modify_eq_self (h : ∀ r, t.find? k = some r → f r = r) : t.modify k f hf = t := by
  have hid : t.modify k f hf = t.modify k id fun _ => rfl := modify_congr h
  rw [hid]
  refine ext_rows ?_ rfl
  simp only [modify, id, ite_self, List.map_id']

/-- A filter that drops nothing changes nothing. -/
theorem filter_eq_self (h : ∀ r ∈ t.rows, p r = true) : t.filter p = t :=
  ext_rows (List.filter_eq_self.2 h) rfl

/-- Rewriting a row that is not there changes nothing. -/
theorem modify_of_find?_eq_none (h : t.find? k = none) : (t.modify k f hf).rows = t.rows := by
  simp only [modify]
  conv_rhs => rw [← List.map_id t.rows]
  refine List.map_congr_left fun r hr => ?_
  rw [if_neg (find?_eq_none.1 h r hr), id]

end Writing

end Table
