import Mathlib.Data.List.Nodup
import Mathlib.Order.Defs.Unbundled

set_option autoImplicit false

/-! # Pages of a listing with ties

A listing returns rows in an order that leaves ties open. A reader fetches page after page, each
from a listing of its own, and wants every row once. The rows that are tied with one another fill a
stretch of places that is the same in every listing. If no page ends within such a stretch, the
pages make up the rows (`pages_perm`); if one does, two listings that differ in the order of two
neighbours return a row twice (`exists_repeated`). -/

universe u

namespace Paging

variable {α : Type u} (le : α → α → Prop)

/-- A listing: the rows in an order that `le` allows. -/
structure IsListing (rows listing : List α) : Prop where
  perm : listing.Perm rows
  sorted : listing.Pairwise le

variable {le} in
/-- Tied neighbours may change places. -/
theorem IsListing.swap {pre post : List α} {x y : α}
    {rows : List α} (h : IsListing le rows (pre ++ x :: y :: post)) (htie : le y x) :
    IsListing le rows (pre ++ y :: x :: post) := by
  obtain ⟨hpre, hrest, hacross⟩ := List.pairwise_append.1 h.sorted
  obtain ⟨hx, hrest⟩ := List.pairwise_cons.1 hrest
  obtain ⟨hy, hpost⟩ := List.pairwise_cons.1 hrest
  constructor
  · exact (List.Perm.append_left pre (List.Perm.swap x y post)).trans h.perm
  · refine List.pairwise_append.2 ⟨hpre, ?_, ?_⟩
    · refine List.pairwise_cons.2 ⟨?_, List.pairwise_cons.2 ⟨?_, hpost⟩⟩
      · intro a ha
        rcases List.mem_cons.1 ha with rfl | ha
        · exact htie
        · exact hy a ha
      · intro a ha
        exact hx a (List.mem_cons_of_mem _ ha)
    · intro a ha b hb
      exact hacross a ha b ((List.Perm.swap x y post).mem_iff.1 hb)

variable [DecidableRel le]

/-- The number of rows that come before `t` in every listing. -/
def before (rows : List α) (t : α) : Nat := rows.countP fun a => !decide (le t a)

/-- The number of rows that come no later than the last of those that are tied with `t`. -/
def through (rows : List α) (t : α) : Nat := rows.countP fun a => decide (le a t)

/-- A page that ends after `j` rows ends between rows that are tied. -/
def SplitsTie (rows : List α) (j : Nat) : Prop :=
  ∃ t ∈ rows, before le rows t < j ∧ j < through le rows t

instance (rows : List α) (j : Nat) : Decidable (SplitsTie le rows j) :=
  inferInstanceAs (Decidable (∃ t ∈ rows, _))

/-- The first `m` pages, each with `size` rows of the listing that its query makes; page `i` begins
    after `i * step` rows. -/
def pages (listing : Nat → List α) (size step m : Nat) : List α :=
  (List.range m).flatMap fun i => ((listing (i * step)).drop (i * step)).take size

variable {le} {rows listing : List α}

theorem SplitsTie.lt_length {j : Nat} (h : SplitsTie le rows j) : j < rows.length := by
  obtain ⟨t, -, -, hlt⟩ := h
  exact Nat.lt_of_lt_of_le hlt List.countP_le_length

theorem pages_succ (listing : Nat → List α) (size step m : Nat) :
    pages listing size step (m + 1) =
      pages listing size step m ++ ((listing (m * step)).drop (m * step)).take size := by
  simp [pages, List.range_succ]

theorem mem_pages {listing : Nat → List α} {size step m : Nat} {t : α} :
    t ∈ pages listing size step m ↔
      ∃ i < m, t ∈ ((listing (i * step)).drop (i * step)).take size := by
  simp [pages]

/-- A page that has room for the rest takes it all. -/
theorem pages_of_short {listing : Nat → List α} {size step m : Nat}
    (hshort : ∀ o, (listing o).length ≤ size) (hle : size ≤ step) :
    pages listing size step m = pages listing step step m := by
  refine List.flatMap_congr fun i _ => ?_
  have hrest : ((listing (i * step)).drop (i * step)).length ≤ size := by
    rw [List.length_drop]
    exact Nat.le_trans (Nat.sub_le _ _) (hshort _)
  rw [List.take_of_length_le hrest, List.take_of_length_le (Nat.le_trans hrest hle)]

theorem length_pages {listing : Nat → List α} {n step m : Nat}
    (hlength : ∀ o, (listing o).length = n) :
    (pages listing step step m).length = min (m * step) n := by
  induction m with
  | zero => simp [pages]
  | succ m ih =>
    rw [pages_succ, List.length_append, ih, List.length_take, List.length_drop, hlength,
      Nat.succ_mul]
    omega

/-! ## Places -/

section Places

variable [Std.Total le]

/-- A row stands behind those that come before it, and before the end of its ties. -/
theorem IsListing.place {pre post : List α} {t : α} (h : IsListing le rows (pre ++ t :: post)) :
    before le rows t ≤ pre.length ∧ pre.length < through le rows t := by
  obtain ⟨-, htail, hacross⟩ := List.pairwise_append.1 h.sorted
  have hself : le t t := (total_of le t t).elim id id
  have hafter : ∀ a ∈ t :: post, le t a := by
    intro a ha
    rcases List.mem_cons.1 ha with rfl | ha
    · exact hself
    · exact List.rel_of_pairwise_cons htail ha
  have hbefore : ∀ a ∈ pre, le a t := fun a ha => hacross a ha t List.mem_cons_self
  constructor
  · have hnone : (t :: post).countP (fun a => !decide (le t a)) = 0 := by
      rw [List.countP_eq_zero]
      intro a ha
      simp [hafter a ha]
    rw [before, ← h.perm.countP_eq, List.countP_append, hnone]
    exact List.countP_le_length
  · have hall : pre.countP (fun a => decide (le a t)) = pre.length := by
      rw [List.countP_eq_length]
      intro a ha
      simpa using hbefore a ha
    rw [through, ← h.perm.countP_eq, List.countP_append, hall, List.countP_cons,
      if_pos (by simpa using hself)]
    omega

/-- Where no tie is split, what comes first is the same in every listing. -/
theorem IsListing.mem_take_iff (h : IsListing le rows listing) (hnodup : rows.Nodup) {j : Nat}
    (hsplit : ¬ SplitsTie le rows j) {t : α} :
    t ∈ listing.take j ↔ t ∈ rows ∧ through le rows t ≤ j := by
  have hwhole : listing.Nodup := h.perm.nodup_iff.2 hnodup
  constructor
  · intro ht
    have hmem : t ∈ rows := h.perm.mem_iff.1 (List.mem_of_mem_take ht)
    refine ⟨hmem, ?_⟩
    obtain ⟨pre, mid, hpre⟩ := List.append_of_mem ht
    have hlist : listing = pre ++ t :: (mid ++ listing.drop j) := by
      rw [← List.cons_append, ← List.append_assoc, ← hpre, List.take_append_drop]
    have hlength : pre.length < j := by
      have hle := List.length_take_le j listing
      rw [hpre, List.length_append, List.length_cons] at hle
      omega
    have hplace := (hlist ▸ h).place
    by_contra hlt
    exact hsplit ⟨t, hmem, by omega, by omega⟩
  · intro ht
    obtain ⟨pre, post, hlist⟩ := List.append_of_mem (h.perm.mem_iff.2 ht.1)
    have hplace := (hlist ▸ h).place
    have hfits : pre.length + 1 ≤ j := by omega
    rw [hlist, List.take_append, List.mem_append]
    right
    rw [List.take_cons (by omega)]
    exact List.mem_cons_self

/-- So is their multiset. -/
theorem IsListing.take_perm {listing' : List α} (h : IsListing le rows listing)
    (h' : IsListing le rows listing') (hnodup : rows.Nodup) {j : Nat}
    (hsplit : ¬ SplitsTie le rows j) : (listing.take j).Perm (listing'.take j) := by
  have hsub : ∀ l : List α, l.Perm rows → (l.take j).Nodup := fun l hl =>
    (List.take_sublist j l).nodup (hl.nodup_iff.2 hnodup)
  rw [List.perm_ext_iff_of_nodup (hsub _ h.perm) (hsub _ h'.perm)]
  intro t
  rw [h.mem_take_iff hnodup hsplit, h'.mem_take_iff hnodup hsplit]

/-- **Pages make up the rows.** If no page ends within a tie, the first pages have the rows that
    come first in any listing. -/
theorem pages_perm {listings : Nat → List α} (hlistings : ∀ o, IsListing le rows (listings o))
    (h : IsListing le rows listing) (hnodup : rows.Nodup) {step m : Nat}
    (hsplit : ∀ i, ¬ SplitsTie le rows (i * step)) :
    (pages listings step step m).Perm (listing.take (m * step)) := by
  induction m with
  | zero => simp [pages]
  | succ m ih =>
    have hfirst : (listing.take (m * step)).Perm ((listings (m * step)).take (m * step)) :=
      h.take_perm (hlistings _) hnodup (hsplit m)
    have hnext : (listings (m * step)).take (m * step) ++
        ((listings (m * step)).drop (m * step)).take step =
          (listings (m * step)).take ((m + 1) * step) := by
      rw [Nat.succ_mul, List.take_add]
    have hlast : ((listings (m * step)).take ((m + 1) * step)).Perm
        (listing.take ((m + 1) * step)) :=
      (hlistings _).take_perm h hnodup (hsplit (m + 1))
    rw [pages_succ]
    exact ((ih.trans hfirst).append_right _).trans (hnext ▸ hlast)

end Places

/-! ## Repeated rows -/

section Repeated

/-- The rows of a page are those at its places. -/
theorem mem_page_iff (hnodup : listing.Nodup) {p o size : Nat} {t : α}
    (hplace : listing[p]? = some t) :
    t ∈ (listing.drop o).take size ↔ o ≤ p ∧ p < o + size := by
  have hlt : p < listing.length := (List.getElem?_eq_some_iff.1 hplace).1
  constructor
  · intro ht
    obtain ⟨i, hi⟩ := List.mem_iff_getElem?.1 ht
    rw [List.getElem?_take] at hi
    split at hi
    · rw [List.getElem?_drop, ← hplace] at hi
      have heq : p = o + i := (List.getElem?_inj hlt hnodup).1 hi.symm
      omega
    · simp at hi
  · intro h
    refine List.mem_iff_getElem?.2 ⟨p - o, ?_⟩
    rw [List.getElem?_take_of_lt (by omega), List.getElem?_drop, Nat.add_sub_cancel' h.1, hplace]

variable [IsTrans α le]

/-- Where a tie is split, two neighbours are tied. -/
theorem IsListing.exists_tie (h : IsListing le rows listing) {j : Nat}
    (hsplit : SplitsTie le rows j) :
    ∃ pre x y post, listing = pre ++ x :: y :: post ∧ pre.length + 1 = j ∧ le y x := by
  obtain ⟨t, ht, hbefore, hthrough⟩ := hsplit
  have hle : j < listing.length := by
    rw [h.perm.length_eq]
    exact SplitsTie.lt_length ⟨t, ht, hbefore, hthrough⟩
  obtain ⟨pre, x, y, post, rfl, hlength⟩ :
      ∃ pre x y post, listing = pre ++ x :: y :: post ∧ pre.length + 1 = j := by
    have hdrop : (listing.drop (j - 1)).length = listing.length - (j - 1) := List.length_drop
    rcases hrest : listing.drop (j - 1) with _ | ⟨x, _ | ⟨y, post⟩⟩
    · rw [hrest, List.length_nil] at hdrop
      omega
    · rw [hrest, List.length_singleton] at hdrop
      omega
    · refine ⟨listing.take (j - 1), x, y, post, ?_, ?_⟩
      · rw [← hrest, List.take_append_drop]
      · rw [List.length_take]
        omega
  refine ⟨pre, x, y, post, rfl, hlength, ?_⟩
  obtain ⟨hpre, hrest, hacross⟩ := List.pairwise_append.1 h.sorted
  -- the rows through `x` do not all come before `t`
  have hx : le t x := by
    by_contra hx
    have hall : (pre ++ [x]).countP (fun a => !decide (le t a)) = (pre ++ [x]).length := by
      rw [List.countP_eq_length]
      intro a ha
      have hax : le a x ∨ a = x := by
        rcases List.mem_append.1 ha with ha | ha
        · exact .inl (hacross a ha x List.mem_cons_self)
        · exact .inr (List.mem_singleton.1 ha)
      have hta : ¬ le t a := by
        rcases hax with hax | rfl
        · exact fun hta => hx (trans_of le hta hax)
        · exact hx
      simpa using hta
    have hcount : before le rows t = (pre ++ x :: y :: post).countP fun a => !decide (le t a) :=
      (h.perm.countP_eq _).symm
    rw [show pre ++ x :: y :: post = (pre ++ [x]) ++ y :: post by simp, List.countP_append, hall,
      List.length_append, List.length_singleton] at hcount
    omega
  -- those from `y` on are not all behind the ties of `t`
  have hy : le y t := by
    by_contra hy
    have hnone : (y :: post).countP (fun a => decide (le a t)) = 0 := by
      rw [List.countP_eq_zero]
      intro a ha
      have hya : le y a ∨ a = y := by
        rcases List.mem_cons.1 ha with rfl | ha
        · exact .inr rfl
        · exact .inl (List.rel_of_pairwise_cons (List.pairwise_cons.1 hrest).2 ha)
      have hat : ¬ le a t := by
        rcases hya with hya | rfl
        · exact fun hat => hy (trans_of le hya hat)
        · exact hy
      simpa using hat
    have hcount : through le rows t = (pre ++ x :: y :: post).countP fun a => decide (le a t) :=
      (h.perm.countP_eq _).symm
    rw [show pre ++ x :: y :: post = (pre ++ [x]) ++ y :: post by simp, List.countP_append, hnone,
      Nat.add_zero] at hcount
    have hcap : (pre ++ [x]).countP (fun a => decide (le a t)) ≤ (pre ++ [x]).length :=
      List.countP_le_length
    rw [List.length_append, List.length_singleton] at hcap
    omega
  exact trans_of le hy hx

/-- **Pages repeat a row.** If a page ends within a tie, there are two listings, one for the pages
    up to there and one for the others, of which the pages have a row twice. -/
theorem exists_repeated (h : IsListing le rows listing) (hnodup : rows.Nodup) {step i : Nat}
    (hsplit : SplitsTie le rows (i * step)) :
    ∃ other, IsListing le rows other ∧ ∀ m, rows.length ≤ m * step →
      ¬ (pages (fun o => if o < i * step then listing else other) step step m).Nodup := by
  obtain ⟨pre, x, y, post, rfl, hlength, htie⟩ := h.exists_tie hsplit
  refine ⟨_, h.swap htie, fun m hm hpages => ?_⟩
  have hcount := h.perm.length_eq
  rw [List.length_append, List.length_cons, List.length_cons] at hcount
  have hi : 0 < i := by
    by_contra hzero
    rw [Nat.eq_zero_of_not_pos hzero, Nat.zero_mul] at hlength
    omega
  have hstep : 0 < step := by
    by_contra hzero
    rw [Nat.eq_zero_of_not_pos hzero, Nat.mul_zero] at hlength
    omega
  have hlast : (i - 1) * step + step = i * step := by
    rw [← Nat.succ_mul, Nat.succ_eq_add_one, Nat.sub_add_cancel hi]
  have him : i < m := by
    by_contra hge
    have := Nat.mul_le_mul_right step (Nat.le_of_not_lt hge)
    omega
  -- the row ends the page before the split and begins the page after it
  have hends : x ∈ ((pre ++ x :: y :: post).drop ((i - 1) * step)).take step := by
    rw [mem_page_iff (h.perm.nodup_iff.2 hnodup) (p := pre.length) (by simp)]
    omega
  have hbegins : x ∈ ((pre ++ y :: x :: post).drop (i * step)).take step := by
    have hplace : (pre ++ y :: x :: post)[pre.length + 1]? = some x := by simp
    rw [mem_page_iff ((h.swap htie).perm.nodup_iff.2 hnodup) hplace]
    omega
  rw [pages, List.nodup_flatMap] at hpages
  have hdisjoint := List.pairwise_iff_getElem.1 hpages.2 (i - 1) i
    (by rw [List.length_range]; omega) (by rw [List.length_range]; omega) (by omega)
  rw [List.getElem_range, List.getElem_range] at hdisjoint
  simp only [Function.onFun, if_pos (show (i - 1) * step < i * step by omega),
    if_neg (Nat.lt_irrefl (i * step))] at hdisjoint
  exact hdisjoint hends hbegins

end Repeated

end Paging
