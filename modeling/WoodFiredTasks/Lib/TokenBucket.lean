import Mathlib.Algebra.Order.Field.Basic
import Mathlib.Logic.Function.Basic
import Mathlib.Tactic.Linarith
import Mathlib.Tactic.Ring

set_option autoImplicit false

/-! # Token buckets

A bucket holds at most `capacity` tokens, is full when it is first looked at, and gets `rate` tokens
in a unit of time. The time since the last refill is added when somebody looks at the bucket, and
only if the clock has gone on since: while it is behind, nothing is added.

What is granted is bounded by an invariant: with each call, the tokens and the grants together grow
at most by what the time since the last refill adds. -/

namespace TokenBuckets

/-- A bucket, as it was at its last refill. -/
structure Bucket (K : Type) where
  tokens : K
  lastRefill : K
  deriving DecidableEq, Repr

/-- What a bucket is asked for: a token, or the number of its tokens. -/
inductive Op where
  | acquire
  | look
  deriving DecidableEq, Repr

/-- A call for the bucket of a key, at the time that the clock shows. -/
structure Call (R K : Type) where
  op : Op
  key : R
  now : K

variable {R K : Type} [DecidableEq R] [Field K] [LinearOrder K]

/-- The bucket after a refill; there is none before the first call. -/
def refill (capacity rate now : K) : Option (Bucket K) → Bucket K
  | none => ⟨capacity, now⟩
  | some b =>
    if b.lastRefill < now then ⟨min capacity (b.tokens + (now - b.lastRefill) * rate), now⟩ else b

/-- A token is given if there is a whole one. -/
def ask : Op → Bucket K → Bool × Bucket K
  | .acquire, b => if 1 ≤ b.tokens then (true, { b with tokens := b.tokens - 1 }) else (false, b)
  | .look, b => (false, b)

/-- One call: whether it is granted, and the buckets after it. -/
def step (capacity rate : K) (s : R → Option (Bucket K)) (c : Call R K) :
    Bool × (R → Option (Bucket K)) :=
  let answer := ask c.op (refill capacity rate c.now (s c.key))
  (answer.1, Function.update s c.key (some answer.2))

/-- The buckets after some calls. -/
def run (capacity rate : K) (s : R → Option (Bucket K)) (calls : List (Call R K)) :
    R → Option (Bucket K) :=
  calls.foldl (fun s c => (step capacity rate s c).2) s

/-- How many of the calls for the key are granted. -/
def grants (capacity rate : K) (key : R) : (R → Option (Bucket K)) → List (Call R K) → Nat
  | _, [] => 0
  | s, c :: rest =>
    (if c.key = key ∧ (step capacity rate s c).1 = true then 1 else 0) +
      grants capacity rate key (step capacity rate s c).2 rest

/-- The greatest value that the clock showed in the calls for the key. -/
def seen (key : R) (last : K) (calls : List (Call R K)) : K :=
  calls.foldl (fun t c => if c.key = key then max t c.now else t) last

section Steps

variable {capacity rate : K} {s s' : R → Option (Bucket K)} {key : R} {c : Call R K}

theorem step_of_ne (h : key ≠ c.key) : (step capacity rate s c).2 key = s key :=
  Function.update_of_ne h _ _

theorem step_self : (step capacity rate s c).2 c.key =
    some (ask c.op (refill capacity rate c.now (s c.key))).2 :=
  Function.update_self _ _ _

theorem run_append (calls rest : List (Call R K)) :
    run capacity rate s (calls ++ rest) = run capacity rate (run capacity rate s calls) rest :=
  List.foldl_append

theorem grants_append (calls rest : List (Call R K)) :
    grants capacity rate key s (calls ++ rest) =
      grants capacity rate key s calls + grants capacity rate key (run capacity rate s calls) rest := by
  induction calls generalizing s with
  | nil => simp [grants, run]
  | cons c tail ih =>
    have hrun : run capacity rate s (c :: tail) =
        run capacity rate (step capacity rate s c).2 tail := rfl
    rw [List.cons_append, grants, grants, ih, hrun, Nat.add_assoc]

/-- A key's bucket and its grants come from its own calls alone. -/
theorem run_congr (h : s key = s' key) (calls : List (Call R K)) :
    run capacity rate s calls key = run capacity rate s' (calls.filter fun c => c.key = key) key ∧
      grants capacity rate key s calls =
        grants capacity rate key s' (calls.filter fun c => c.key = key) := by
  induction calls generalizing s s' with
  | nil => exact ⟨h, rfl⟩
  | cons c rest ih =>
    by_cases hkey : c.key = key
    · subst hkey
      have hanswer : (step capacity rate s c).1 = (step capacity rate s' c).1 := by
        rw [step, step, h]
      have hbucket : (step capacity rate s c).2 c.key = (step capacity rate s' c).2 c.key := by
        rw [step_self, step_self, h]
      obtain ⟨hrun, hgrants⟩ := ih hbucket
      rw [List.filter_cons_of_pos (by simp)]
      refine ⟨hrun, ?_⟩
      rw [grants, grants, hanswer, hgrants]
    · have hbucket : (step capacity rate s c).2 key = s' key := by
        rw [step_of_ne (Ne.symm hkey), h]
      obtain ⟨hrun, hgrants⟩ := ih hbucket
      rw [List.filter_cons_of_neg (by simpa using hkey)]
      refine ⟨hrun, ?_⟩
      rw [grants, if_neg (fun h => hkey h.1), Nat.zero_add, hgrants]

end Steps

/-! ## Bounds -/

/-- The tokens of every bucket lie between none and the capacity. -/
def Bounded (capacity : K) (s : R → Option (Bucket K)) : Prop :=
  ∀ key b, s key = some b → 0 ≤ b.tokens ∧ b.tokens ≤ capacity

section Bounds

variable [IsStrictOrderedRing K] {capacity rate : K} {s : R → Option (Bucket K)} {key : R}

omit [IsStrictOrderedRing K] in
/-- What a refill makes of an old bucket. -/
theorem refill_spec (b : Bucket K) (now : K) :
    (refill capacity rate now (some b)).lastRefill = max b.lastRefill now ∧
      (refill capacity rate now (some b)).tokens ≤
        b.tokens + (max b.lastRefill now - b.lastRefill) * rate := by
  rw [refill]
  by_cases hlater : b.lastRefill < now
  · rw [if_pos hlater, max_eq_right hlater.le]
    exact ⟨rfl, min_le_right _ _⟩
  · rw [if_neg hlater, max_eq_left (not_lt.1 hlater)]
    refine ⟨rfl, ?_⟩
    rw [sub_self, zero_mul, add_zero]

theorem refill_bounded (hcapacity : 0 ≤ capacity) (hrate : 0 ≤ rate) (now : K)
    {bucket : Option (Bucket K)}
    (h : ∀ b, bucket = some b → 0 ≤ b.tokens ∧ b.tokens ≤ capacity) :
    0 ≤ (refill capacity rate now bucket).tokens ∧
      (refill capacity rate now bucket).tokens ≤ capacity := by
  cases bucket with
  | none => exact ⟨hcapacity, le_rfl⟩
  | some b =>
    obtain ⟨hzero, hfull⟩ := h b rfl
    rw [refill]
    by_cases hlater : b.lastRefill < now
    · rw [if_pos hlater]
      have hadded : 0 ≤ (now - b.lastRefill) * rate := mul_nonneg (sub_nonneg.2 hlater.le) hrate
      exact ⟨le_min hcapacity (add_nonneg hzero hadded), min_le_left _ _⟩
    · rw [if_neg hlater]
      exact ⟨hzero, hfull⟩

omit [IsStrictOrderedRing K] in
/-- Asking takes a token with every grant. -/
theorem ask_spec (op : Op) (b : Bucket K) :
    (ask op b).2.lastRefill = b.lastRefill ∧
      (ask op b).2.tokens + (if (ask op b).1 = true then 1 else 0) = b.tokens := by
  cases op with
  | look => exact ⟨rfl, by simp [ask]⟩
  | acquire =>
    rw [ask]
    by_cases hwhole : 1 ≤ b.tokens
    · rw [if_pos hwhole]
      exact ⟨rfl, by simp⟩
    · rw [if_neg hwhole]
      exact ⟨rfl, by simp⟩

theorem ask_bounded (op : Op) {b : Bucket K} (h : 0 ≤ b.tokens ∧ b.tokens ≤ capacity) :
    0 ≤ (ask op b).2.tokens ∧ (ask op b).2.tokens ≤ capacity := by
  cases op with
  | look => exact h
  | acquire =>
    rw [ask]
    by_cases hwhole : 1 ≤ b.tokens
    · rw [if_pos hwhole]
      exact ⟨sub_nonneg.2 hwhole, by linarith [h.2]⟩
    · rw [if_neg hwhole]
      exact h

theorem Bounded.step (h : Bounded capacity s) (hcapacity : 0 ≤ capacity) (hrate : 0 ≤ rate)
    (c : Call R K) : Bounded capacity (step capacity rate s c).2 := by
  intro key b hb
  by_cases hkey : key = c.key
  · subst hkey
    rw [step_self, Option.some.injEq] at hb
    subst hb
    exact ask_bounded _ (refill_bounded hcapacity hrate _ (h c.key))
  · rw [step_of_ne hkey] at hb
    exact h key b hb

theorem Bounded.run (h : Bounded capacity s) (hcapacity : 0 ≤ capacity) (hrate : 0 ≤ rate)
    (calls : List (Call R K)) : Bounded capacity (run capacity rate s calls) := by
  induction calls generalizing s with
  | nil => exact h
  | cons c rest ih => exact ih (h.step hcapacity hrate c)

omit [DecidableEq R] [IsStrictOrderedRing K] in
theorem bounded_start : Bounded capacity (fun _ : R => (none : Option (Bucket K))) := by
  intro key b hb
  cases hb

omit [Field K] [IsStrictOrderedRing K] in
theorem seen_max (t last : K) (calls : List (Call R K)) :
    seen key (max t last) calls = max t (seen key last calls) := by
  induction calls generalizing last with
  | nil => rfl
  | cons c rest ih =>
    by_cases hkey : c.key = key
    · simp only [seen, List.foldl_cons, if_pos hkey, max_assoc] at ih ⊢
      exact ih _
    · simp only [seen, List.foldl_cons, if_neg hkey] at ih ⊢
      exact ih _

omit [Field K] [IsStrictOrderedRing K] in
theorem le_seen (last : K) (calls : List (Call R K)) : last ≤ seen key last calls := by
  have hmax : seen key (max last last) calls = max last (seen key last calls) :=
    seen_max last last calls
  rw [max_self] at hmax
  rw [hmax]
  exact le_max_left _ _

omit [Field K] [IsStrictOrderedRing K] in
theorem seen_le {last bound : K} {calls : List (Call R K)} (hlast : last ≤ bound)
    (h : ∀ c ∈ calls, c.key = key → c.now ≤ bound) : seen key last calls ≤ bound := by
  induction calls generalizing last with
  | nil => exact hlast
  | cons c rest ih =>
    have hrest := fun c' hc' => h c' (List.mem_cons_of_mem c hc')
    by_cases hkey : c.key = key
    · rw [seen, List.foldl_cons, if_pos hkey]
      exact ih (max_le hlast (h c List.mem_cons_self hkey)) hrest
    · rw [seen, List.foldl_cons, if_neg hkey]
      exact ih hlast hrest

/-- **The invariant.** From an old bucket on, tokens and grants together grow at most by what the
    time since has added. -/
theorem run_spec {b : Bucket K} (hb : s key = some b)
    (calls : List (Call R K)) :
    ∃ b', run capacity rate s calls key = some b' ∧
      b'.lastRefill = seen key b.lastRefill calls ∧
      b'.tokens + grants capacity rate key s calls ≤
        b.tokens + (b'.lastRefill - b.lastRefill) * rate := by
  induction calls generalizing s b with
  | nil => exact ⟨b, hb, rfl, by simp [grants]⟩
  | cons c rest ih =>
    by_cases hkey : c.key = key
    · subst hkey
      obtain ⟨hlast, htokens⟩ := refill_spec b c.now
      obtain ⟨hasked, hspent⟩ := ask_spec c.op (refill capacity rate c.now (some b))
      have hnext : (step capacity rate s c).2 c.key = some (ask c.op
          (refill capacity rate c.now (some b))).2 := by rw [step_self, hb]
      have hgrant : (step capacity rate s c).1 = (ask c.op
          (refill capacity rate c.now (some b))).1 := by rw [step, hb]
      obtain ⟨b', hb', hseen, hbound⟩ := ih hnext
      rw [hasked, hlast] at hseen hbound
      refine ⟨b', hb', ?_, ?_⟩
      · rw [hseen, seen, seen, List.foldl_cons, if_pos rfl]
      · rw [grants, hgrant, Nat.cast_add]
        have hcast : (((if c.key = c.key ∧ (ask c.op (refill capacity rate c.now (some b))).1 = true
            then 1 else 0 : Nat) : Nat) : K) =
            if (ask c.op (refill capacity rate c.now (some b))).1 = true then 1 else 0 := by
          split_ifs <;> simp_all
        rw [hcast]
        linarith
    · have hnext : (step capacity rate s c).2 key = some b := by
        rw [step_of_ne (Ne.symm hkey), hb]
      obtain ⟨b', hb', hseen, hbound⟩ := ih hnext
      refine ⟨b', hb', ?_, ?_⟩
      · rw [hseen, seen, seen, List.foldl_cons, if_neg hkey]
      · rw [grants, if_neg fun h => hkey h.1, Nat.zero_add]
        exact hbound

/-- From a call on, the grants are at most the capacity and what the time since has added. -/
theorem grants_cons_le (h : Bounded capacity s) (hcapacity : 0 ≤ capacity) (hrate : 0 ≤ rate)
    (c : Call R K) (rest : List (Call R K)) :
    (grants capacity rate c.key s (c :: rest) : K) ≤ capacity +
      (seen c.key (refill capacity rate c.now (s c.key)).lastRefill rest -
        (refill capacity rate c.now (s c.key)).lastRefill) * rate := by
  have hfull := (refill_bounded hcapacity hrate c.now (h c.key)).2
  obtain ⟨hlast, hspent⟩ := ask_spec c.op (refill capacity rate c.now (s c.key))
  have hself : (step capacity rate s c).2 c.key =
      some (ask c.op (refill capacity rate c.now (s c.key))).2 := step_self
  obtain ⟨b', hb', hseen, hbound⟩ := run_spec hself rest
  have hzero : 0 ≤ b'.tokens :=
    (((h.step hcapacity hrate c).run hcapacity hrate rest) c.key b' hb').1
  rw [hlast] at hseen hbound
  rw [grants, Nat.cast_add]
  have hgrant : (step capacity rate s c).1 = (ask c.op (refill capacity rate c.now (s c.key))).1 :=
    rfl
  have hcast : (((if c.key = c.key ∧ (step capacity rate s c).1 = true then 1 else 0 : Nat)) : K) =
      if (ask c.op (refill capacity rate c.now (s c.key))).1 = true then 1 else 0 := by
    rw [hgrant]
    split_ifs <;> simp_all
  rw [hcast, ← hseen]
  linarith

/-- While the clock shows times of an interval, the grants are at most the capacity and what a time
    of its length adds. -/
theorem grants_le_of_within (h : Bounded capacity s) (hcapacity : 0 ≤ capacity) (hrate : 0 ≤ rate)
    {start length : K} (hlength : 0 ≤ length) (calls : List (Call R K))
    (hwithin : ∀ c ∈ calls, c.key = key → start ≤ c.now ∧ c.now ≤ start + length) :
    (grants capacity rate key s calls : K) ≤ capacity + length * rate := by
  induction calls generalizing s with
  | nil =>
    rw [grants, Nat.cast_zero]
    exact add_nonneg hcapacity (mul_nonneg hlength hrate)
  | cons c rest ih =>
    have hrest := fun c' hc' => hwithin c' (List.mem_cons_of_mem c hc')
    by_cases hkey : c.key = key
    · subst hkey
      obtain ⟨hstart, -⟩ := hwithin c List.mem_cons_self rfl
      have hlast : c.now ≤ (refill capacity rate c.now (s c.key)).lastRefill := by
        cases s c.key with
        | none => exact le_rfl
        | some b =>
          rw [(refill_spec b c.now).1]
          exact le_max_right _ _
      -- the clock adds nothing before it has caught up with the last refill
      have hseen : seen c.key (refill capacity rate c.now (s c.key)).lastRefill rest ≤
          (refill capacity rate c.now (s c.key)).lastRefill + length := by
        refine seen_le ?_ fun c' hc' hkey' => ?_
        · linarith
        · linarith [(hrest c' hc' hkey').2]
      refine le_trans (grants_cons_le h hcapacity hrate c rest) ?_
      have hadded := mul_le_mul_of_nonneg_right
        (sub_le_iff_le_add'.2 hseen) hrate
      linarith
    · rw [grants, if_neg fun h => hkey h.1, Nat.zero_add]
      exact ih (h.step hcapacity hrate c) hrest

/-- After the first call for a key, its last refill was at the greatest time that the clock showed. -/
theorem run_of_none (capacity rate : K) (hs : s key = none) (calls : List (Call R K)) :
    (run capacity rate s calls key = none ∧ ∀ t, seen key t calls = t) ∨
      ∃ b, run capacity rate s calls key = some b ∧ ∀ t, seen key t calls = max t b.lastRefill := by
  induction calls generalizing s with
  | nil => exact .inl ⟨hs, fun _ => rfl⟩
  | cons c rest ih =>
    by_cases hkey : c.key = key
    · subst hkey
      have hself : (step capacity rate s c).2 c.key =
          some (ask c.op (refill capacity rate c.now (s c.key))).2 := step_self
      obtain ⟨b, hb, hseen, -⟩ := run_spec hself rest
      refine .inr ⟨b, hb, fun t => ?_⟩
      have hfirst : (refill capacity rate c.now (s c.key)).lastRefill = c.now := by rw [hs, refill]
      rw [(ask_spec _ _).1, hfirst] at hseen
      rw [hseen, ← seen_max, seen, List.foldl_cons, if_pos rfl, seen]
    · have hnext : (step capacity rate s c).2 key = none := by rw [step_of_ne (Ne.symm hkey), hs]
      have hskip : ∀ t, seen key t (c :: rest) = seen key t rest := fun t => by
        rw [seen, List.foldl_cons, if_neg hkey, seen]
      simp only [hskip]
      exact ih hnext

omit [IsStrictOrderedRing K] in
theorem refill_tokens {b : Bucket K} (hfull : b.tokens ≤ capacity) (now : K) :
    (refill capacity rate now (some b)).tokens =
      min capacity (b.tokens + (max b.lastRefill now - b.lastRefill) * rate) := by
  rw [refill]
  by_cases hlater : b.lastRefill < now
  · rw [if_pos hlater, max_eq_right hlater.le]
  · rw [if_neg hlater, max_eq_left (not_lt.1 hlater), sub_self, zero_mul, add_zero,
      min_eq_right hfull]

omit [IsStrictOrderedRing K] in
theorem ask_of_not_granted {op : Op} {b : Bucket K} (h : (ask op b).1 = false) :
    (ask op b).2 = b := by
  cases op with
  | look => rfl
  | acquire =>
    rw [ask] at h ⊢
    by_cases hwhole : 1 ≤ b.tokens
    · rw [if_pos hwhole] at h
      cases h
    · rw [if_neg hwhole]

/-- Without a grant, the tokens are what they were and what the time since has added, up to the
    capacity. -/
theorem run_of_no_grant (hrate : 0 ≤ rate) {b : Bucket K} (hb : s key = some b)
    (hfull : b.tokens ≤ capacity) (calls : List (Call R K))
    (hnone : grants capacity rate key s calls = 0) :
    ∃ b', run capacity rate s calls key = some b' ∧
      b'.lastRefill = seen key b.lastRefill calls ∧
      b'.tokens = min capacity (b.tokens + (b'.lastRefill - b.lastRefill) * rate) := by
  induction calls generalizing s b with
  | nil => exact ⟨b, hb, rfl, by rw [sub_self, zero_mul, add_zero, min_eq_right hfull]⟩
  | cons c rest ih =>
    rw [grants, Nat.add_eq_zero_iff] at hnone
    obtain ⟨hfirst, hrest⟩ := hnone
    by_cases hkey : c.key = key
    · subst hkey
      have hno : (ask c.op (refill capacity rate c.now (some b))).1 = false := by
        rw [← hb, ← Bool.not_eq_true]
        exact fun htrue => by simp [step, htrue] at hfirst
      have hnext : (step capacity rate s c).2 c.key =
          some (refill capacity rate c.now (some b)) := by
        rw [step_self, hb, ask_of_not_granted hno]
      have htokens : (refill capacity rate c.now (some b)).tokens = _ := refill_tokens hfull c.now
      have hlast : (refill capacity rate c.now (some b)).lastRefill = _ := (refill_spec b c.now).1
      obtain ⟨b', hb', hseen, hadded⟩ := ih hnext (htokens ▸ min_le_left _ _) hrest
      rw [hlast] at hseen hadded
      refine ⟨b', hb', ?_, ?_⟩
      · rw [hseen, seen, seen, List.foldl_cons, if_pos rfl]
      · have hlater : 0 ≤ (b'.lastRefill - max b.lastRefill c.now) * rate := by
          rw [hseen]
          exact mul_nonneg (sub_nonneg.2 (le_seen _ _)) hrate
        -- what was cut off at the capacity stays cut off
        rw [hadded, htokens, ← min_add_add_right, ← min_assoc,
          min_eq_left (le_add_of_nonneg_right hlater)]
        congr 1
        ring
    · have hnext : (step capacity rate s c).2 key = some b := by
        rw [step_of_ne (Ne.symm hkey), hb]
      obtain ⟨b', hb', hseen, hadded⟩ := ih hnext hfull hrest
      refine ⟨b', hb', ?_, hadded⟩
      rw [hseen, seen, seen, List.foldl_cons, if_neg hkey]

end Bounds

end TokenBuckets
