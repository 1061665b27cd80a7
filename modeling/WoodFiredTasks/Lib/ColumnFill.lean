import Mathlib.Data.List.Dedup
import Mathlib.Data.List.Perm.Lattice
import Mathlib.Algebra.BigOperators.Group.List.Basic
import Mathlib.Algebra.GroupWithZero.Nat

set_option autoImplicit false

/-! # Filling a column from another

A table has a nullable column whose values are to be found from the keys in another column. The
keys of the rows still without a value are grouped and counted, and for each key that a value was
found for, one statement sets the column in the rows of its group. Statements of distinct keys do
not meet, so together they do what `fill` says row by row (`foldl_fillOne`), and the groups count the
rows they change (`sum_groups`). -/

/-- A nullable column that is filled from the key column beside it. -/
structure FillColumn (ρ κ υ : Type) where
  key : ρ → Option κ
  value : ρ → Option υ
  put : Option υ → ρ → ρ
  value_put : ∀ o r, value (put o r) = o
  key_put : ∀ o r, key (put o r) = key r
  put_value : ∀ r, put (value r) r = r

namespace FillColumn

variable {ρ κ υ : Type}

/-! ## Rows -/

section Rows

variable (c : FillColumn ρ κ υ)

/-- The row with this value. -/
def set (u : υ) (r : ρ) : ρ := c.put (some u) r

/-- The key of a row that has a key and no value. -/
def pending (r : ρ) : Option κ := if (c.value r).isNone then c.key r else none

/-- A row without a value gets the one for its key, if there is one. -/
def fillRow (assign : κ → Option υ) (r : ρ) : ρ :=
  ((c.pending r).bind assign).elim r fun u => c.set u r

/-- Every row gets the value for its key. -/
def fill (assign : κ → Option υ) (rows : List ρ) : List ρ := rows.map (c.fillRow assign)

variable {c}

theorem pending_set (u : υ) (r : ρ) : c.pending (c.set u r) = none := by
  unfold pending set
  rw [c.value_put]
  rfl

theorem fillRow_of_none {assign : κ → Option υ} {r : ρ} (h : (c.pending r).bind assign = none) :
    c.fillRow assign r = r := by
  unfold fillRow
  rw [h]
  rfl

theorem fillRow_of_some {assign : κ → Option υ} {r : ρ} {u : υ}
    (h : (c.pending r).bind assign = some u) : c.fillRow assign r = c.set u r := by
  unfold fillRow
  rw [h]
  rfl

/-- A filled row has the value it had, or else the one for its key. -/
theorem fillRow_eq (assign : κ → Option υ) (r : ρ) :
    c.fillRow assign r = c.put (c.value r <|> (c.key r).bind assign) r := by
  cases hvalue : c.value r with
  | some u =>
    have hpending : c.pending r = none := by
      rw [pending, hvalue]
      rfl
    rw [fillRow_of_none (by rw [hpending]; rfl)]
    show r = c.put (some u) r
    rw [← hvalue, c.put_value]
  | none =>
    have hpending : c.pending r = c.key r := by
      rw [pending, hvalue]
      rfl
    cases hassign : (c.key r).bind assign with
    | some u => exact fillRow_of_some (by rw [hpending, hassign])
    | none =>
      rw [fillRow_of_none (by rw [hpending, hassign])]
      show r = c.put none r
      rw [← hvalue, c.put_value]

theorem fill_congr {assign assign' : κ → Option υ} {rows : List ρ}
    (h : ∀ r ∈ rows, ∀ k, c.pending r = some k → assign k = assign' k) :
    c.fill assign rows = c.fill assign' rows := by
  refine List.map_congr_left fun r hr => ?_
  unfold fillRow
  cases hpending : c.pending r with
  | none => rfl
  | some k => rw [Option.bind_some, Option.bind_some, h r hr k hpending]

/-- A round that assigns nothing changes nothing. -/
theorem fill_none (rows : List ρ) : c.fill (fun _ => none) rows = rows := by
  have hrow : ∀ r ∈ rows, c.fillRow (fun _ => none) r = r := fun r _ =>
    fillRow_of_none (by cases c.pending r <;> rfl)
  rw [fill, List.map_congr_left hrow, List.map_id']

/-- Two rounds are one, in which the first has precedence. -/
theorem fill_fill {assign assign' : κ → Option υ} (rows : List ρ) :
    c.fill assign' (c.fill assign rows) = c.fill (fun k => assign k <|> assign' k) rows := by
  unfold fill
  rw [List.map_map]
  refine List.map_congr_left fun r _ => ?_
  rw [Function.comp_apply]
  cases hpending : c.pending r with
  | none =>
    have hnone : ∀ f : κ → Option υ, (c.pending r).bind f = none := fun f => by rw [hpending]; rfl
    rw [fillRow_of_none (hnone _), fillRow_of_none (hnone _), fillRow_of_none (hnone _)]
  | some k =>
    have hbind : ∀ f : κ → Option υ, (c.pending r).bind f = f k := fun f => by rw [hpending]; rfl
    cases hassign : assign k with
    | none =>
      rw [fillRow_of_none ((hbind _).trans hassign)]
      unfold fillRow
      rw [hbind, hbind, hassign]
      rfl
    | some u =>
      rw [fillRow_of_some ((hbind _).trans hassign), fillRow_of_none (by rw [pending_set]; rfl),
        fillRow_of_some ((hbind _).trans (by rw [hassign]; rfl))]

end Rows

/-! ## Groups -/

variable [DecidableEq κ]

section Groups

variable (c : FillColumn ρ κ υ)

/-- The rows of a group. -/
def isIn (k : κ) (r : ρ) : Bool := (c.value r).isNone && c.key r = some k

/-- The keys without a value, each with the number of its rows. -/
def groups (rows : List ρ) : List (κ × Nat) :=
  (rows.filterMap c.pending).dedup.map fun k => (k, rows.countP (c.isIn k))

/-- One statement: the rows of a group get a value. -/
def fillOne (k : κ) (u : υ) (rows : List ρ) : List ρ :=
  rows.map fun r => if c.isIn k r then c.set u r else r

end Groups

variable {c : FillColumn ρ κ υ}

theorem isIn_iff {k : κ} {r : ρ} : c.isIn k r = true ↔ c.pending r = some k := by
  unfold isIn pending
  cases c.value r <;> simp

theorem mem_keys_groups {k : κ} {rows : List ρ} :
    k ∈ (c.groups rows).map Prod.fst ↔ ∃ r ∈ rows, c.pending r = some k := by
  simp [groups, Function.comp_def]

theorem nodup_keys_groups (rows : List ρ) : ((c.groups rows).map Prod.fst).Nodup := by
  unfold groups
  rw [List.map_map]
  exact (List.map_id _).symm ▸ List.nodup_dedup _

theorem count_of_mem_groups {k : κ} {n : Nat} {rows : List ρ} (h : (k, n) ∈ c.groups rows) :
    n = rows.countP (c.isIn k) := by
  obtain ⟨k', -, heq⟩ := List.mem_map.1 h
  cases heq
  rfl

/-- What keeps the keys and the values of the rows keeps the groups. -/
theorem groups_map {f : ρ → ρ} (hkey : ∀ r, c.key (f r) = c.key r)
    (hvalue : ∀ r, c.value (f r) = c.value r) (rows : List ρ) :
    c.groups (rows.map f) = c.groups rows := by
  have hpending : c.pending ∘ f = c.pending := by
    funext r
    simp only [Function.comp_apply, pending, hkey, hvalue]
  have hisIn : ∀ k, c.isIn k ∘ f = c.isIn k := by
    intro k
    funext r
    simp only [Function.comp_apply, isIn, hkey, hvalue]
  unfold groups
  rw [List.filterMap_map, hpending]
  refine List.map_congr_left fun k _ => ?_
  rw [List.countP_map, hisIn]

/-! ## Statements -/

theorem fillOne_eq_fill (k : κ) (u : υ) (rows : List ρ) :
    c.fillOne k u rows = c.fill (fun k' => if k' = k then some u else none) rows := by
  refine List.map_congr_left fun r _ => ?_
  by_cases hin : c.isIn k r = true
  · rw [if_pos hin, fillRow_of_some (by rw [isIn_iff.1 hin, Option.bind_some, if_pos rfl])]
  · rw [if_neg hin, fillRow_of_none]
    cases hpending : c.pending r with
    | none => rfl
    | some k' =>
      have hne : k' ≠ k := by
        rintro rfl
        exact hin (isIn_iff.2 hpending)
      rw [Option.bind_some, if_neg hne]

/-- The statements one after the other. -/
theorem foldl_fillOne (pairs : List (κ × υ)) (rows : List ρ) :
    pairs.foldl (fun rows p => c.fillOne p.1 p.2 rows) rows =
      c.fill (fun k => pairs.lookup k) rows := by
  induction pairs generalizing rows with
  | nil => exact (fill_none rows).symm
  | cons p pairs ih =>
    rw [List.foldl_cons, ih, fillOne_eq_fill, fill_fill]
    congr 1
    funext k
    rw [List.lookup_cons]
    by_cases hk : k = p.1
    · simp [hk]
    · simp [hk, beq_eq_false_iff_ne.2 hk]

/-! ## Counts -/

/-- A statement leaves the rows of the other groups as they are. -/
theorem countP_fillOne {k k' : κ} (hne : k' ≠ k) (u : υ) (rows : List ρ) :
    (c.fillOne k u rows).countP (c.isIn k') = rows.countP (c.isIn k') := by
  unfold fillOne
  rw [List.countP_map]
  refine List.countP_congr fun r _ => ?_
  rw [Function.comp_apply]
  by_cases hin : c.isIn k r = true
  · rw [if_pos hin, isIn_iff, isIn_iff, pending_set, isIn_iff.1 hin, Option.some.injEq]
    constructor
    · intro h
      cases h
    · intro h
      exact absurd h.symm hne
  · rw [if_neg hin]

/-- The groups of distinct keys together have the rows whose key is one of these. -/
theorem sum_countP_isIn {keys : List κ} (hnodup : keys.Nodup) (rows : List ρ) :
    (keys.map fun k => rows.countP (c.isIn k)).sum =
      rows.countP fun r => (c.pending r).any (· ∈ keys) := by
  induction keys with
  | nil => simp
  | cons k keys ih =>
    obtain ⟨hnotMem, hnodup⟩ := List.nodup_cons.1 hnodup
    rw [List.map_cons, List.sum_cons, ih hnodup]
    clear ih
    simp only [List.mem_cons]
    induction rows with
    | nil => rfl
    | cons r rows ih =>
      simp only [List.countP_cons]
      cases hpending : c.pending r with
      | none =>
        have hin : c.isIn k r = false := by
          rw [Bool.eq_false_iff, Ne, isIn_iff, hpending]
          exact fun h => by cases h
        simp only [hin, Option.any_none]
        simpa using ih
      | some k' =>
        have hin : c.isIn k r = decide (k' = k) := by
          rw [Bool.eq_iff_iff, isIn_iff, hpending, Option.some.injEq, decide_eq_true_iff]
        simp only [hin, Option.any_some]
        by_cases hk : k' = k
        · subst hk
          simp only [hnotMem, decide_true, decide_false, true_or, if_true]
          simp only [Bool.false_eq_true, if_false]
          omega
        · by_cases hmem : k' ∈ keys
          · simp only [hk, hmem, decide_true, decide_false, or_true, if_true]
            simp only [Bool.false_eq_true, if_false]
            omega
          · simp only [hk, hmem, decide_false, or_false]
            simp only [Bool.false_eq_true, if_false]
            omega

/-- The groups that get a value have the rows that a round changes. -/
theorem sum_groups (assign : κ → Option υ) (rows : List ρ) :
    (((c.groups rows).filter fun p => (assign p.1).isSome).map Prod.snd).sum =
      rows.countP fun r => ((c.pending r).bind assign).isSome := by
  have hnodup : ((rows.filterMap c.pending).dedup.filter fun k => (assign k).isSome).Nodup :=
    (List.nodup_dedup _).filter _
  have hsum := sum_countP_isIn (c := c) hnodup rows
  unfold groups
  rw [List.filter_map, List.map_map]
  refine hsum.trans (List.countP_congr fun r hr => ?_)
  cases hpending : c.pending r with
  | none => simp
  | some k =>
    have hmem : k ∈ (rows.filterMap c.pending).dedup :=
      List.mem_dedup.2 (List.mem_filterMap.2 ⟨r, hr, hpending⟩)
    rw [Option.any_some, Option.bind_some, decide_eq_true_iff, List.mem_filter]
    exact and_iff_right hmem

end FillColumn
