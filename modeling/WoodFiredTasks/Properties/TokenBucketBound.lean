import WoodFiredTasks.Router.RateLimit

set_option autoImplicit false

/-! # What the rate limiter grants

Over any calls for any rules and any readings of the clock: a rule's tokens stay between none and
the capacity, its grants stay within the capacity and what the time has added, the calls for other
rules change nothing, and a token that has accrued is given. -/

namespace WoodFiredTasks.Router.RateLimit

open TokenBuckets (Call Op seen)

namespace Limiter

/-! ## Rules are apart -/

section Apart

variable {l l' : Limiter} {ruleId : String}

/-- Two limiters that are the same to a rule. -/
structure SameFor (ruleId : String) (l l' : Limiter) : Prop where
  rate : l'.tokensPerMinute = l.tokensPerMinute
  burst : l'.burstCapacity = l.burstCapacity
  bucket : l'.buckets ruleId = l.buckets ruleId

theorem SameFor.call {c : Call String ℚ} (h : SameFor c.key l l') :
    (l'.call c).1 = (l.call c).1 ∧ SameFor c.key (l.call c).2 (l'.call c).2 := by
  have hbucket : l'.refillBucket c.now c.key = l.refillBucket c.now c.key := by
    rw [refillBucket_eq, refillBucket_eq, h.bucket, h.burst, refillPerMs, refillPerMs, h.rate]
  obtain ⟨op, key, now⟩ := c
  cases op with
  | look =>
    refine ⟨by simp [Limiter.call, remaining, hbucket], h.rate, h.burst, ?_⟩
    simp [Limiter.call, remaining, hbucket, setBucket]
  | acquire =>
    simp only [Limiter.call, tryAcquire, hbucket]
    split
    · exact ⟨rfl, h.rate, h.burst, by simp [setBucket]⟩
    · exact ⟨rfl, h.rate, h.burst, by simp [setBucket]⟩

/-- A call for another rule. -/
theorem SameFor.skip {c : Call String ℚ} (h : SameFor ruleId l l') (hc : c.key ≠ ruleId) :
    SameFor ruleId (l.call c).2 l' := by
  have hcall := (call_spec l c).1
  refine ⟨?_, ?_, ?_⟩
  · rw [hcall, h.rate]
  · rw [hcall, h.burst]
  · rw [hcall, h.bucket]
    exact (TokenBuckets.step_of_ne hc.symm).symm

/-- The calls for a rule are answered as if there were no others. -/
theorem forRule_trace (h : SameFor ruleId l l') (calls : List (Call String ℚ)) :
    forRule ruleId (l.trace calls) = l'.trace (calls.filter fun c => c.key = ruleId) := by
  induction calls generalizing l l' with
  | nil => rfl
  | cons c rest ih =>
    by_cases hkey : c.key = ruleId
    · subst hkey
      obtain ⟨hanswer, hnext⟩ := h.call
      rw [List.filter_cons_of_pos (by simp), trace, trace, hanswer, ← ih hnext]
      exact List.filter_cons_of_pos (by simp)
    · rw [List.filter_cons_of_neg (by simpa using hkey), trace, ← ih (h.skip hkey)]
      exact List.filter_cons_of_neg (by simpa using hkey)

end Apart

/-! ## Bounds -/

section Bounds

variable {N B : ℚ}

/-- A limiter that has had no call yet. -/
abbrev fresh (N B : ℚ) : Limiter := create { tokensPerMinute := some N, burstCapacity := some B }

theorem bounded_after (hB : 0 ≤ B) (hN : 0 ≤ N) (calls : List (Call String ℚ)) :
    TokenBuckets.Bounded B ((fresh N B).after calls).buckets := by
  rw [after_eq]
  exact TokenBuckets.bounded_start.run hB (div_nonneg hN (by norm_num)) calls

theorem burstCapacity_after (pre : List (Call String ℚ)) :
    ((fresh N B).after pre).burstCapacity = B := by
  rw [after_eq]
  rfl

theorem refillPerMs_after (pre : List (Call String ℚ)) :
    ((fresh N B).after pre).refillPerMs = N / 60000 := by
  rw [after_eq]
  rfl

theorem after_append (l : Limiter) (pre rest : List (Call String ℚ)) :
    l.after (pre ++ rest) = (l.after pre).after rest :=
  List.foldl_append

/-- The bucket of a rule that is called was refilled at the greatest time that the clock has shown. -/
theorem refill_lastRefill (pre : List (Call String ℚ)) (c : Call String ℚ) :
    (TokenBuckets.refill B (N / 60000) c.now (((fresh N B).after pre).buckets c.key)).lastRefill =
      seen c.key c.now pre := by
  have hbuckets : ((fresh N B).after pre).buckets =
      TokenBuckets.run B (N / 60000) (fun _ => none) pre := by
    rw [after_eq]
    rfl
  rw [hbuckets]
  have hrun : (TokenBuckets.run B (N / 60000) (fun _ => none) pre c.key = none ∧
      ∀ t, seen c.key t pre = t) ∨
      ∃ b, TokenBuckets.run B (N / 60000) (fun _ => none) pre c.key = some b ∧
        ∀ t, seen c.key t pre = max t b.lastRefill :=
    TokenBuckets.run_of_none B (N / 60000) rfl pre
  rcases hrun with ⟨hnone, hseen⟩ | ⟨b, hb, hseen⟩
  · rw [hnone, hseen]
    rfl
  · rw [hb, hseen, (TokenBuckets.refill_spec b c.now).1, max_comm]

theorem grants_after_le (hB : 0 ≤ B) (hN : 0 ≤ N) (pre : List (Call String ℚ))
    (c : Call String ℚ) (rest : List (Call String ℚ)) :
    (grants c.key (((fresh N B).after pre).trace (c :: rest)) : ℚ) ≤
      B + N * (seen c.key (seen c.key c.now pre) rest - seen c.key c.now pre) / 60000 := by
  have hle := TokenBuckets.grants_cons_le (bounded_after hB hN pre) hB
    (div_nonneg hN (by norm_num : (0 : ℚ) ≤ 60000)) c rest
  rw [refill_lastRefill] at hle
  rw [grants_eq, burstCapacity_after, refillPerMs_after]
  calc _ ≤ _ := hle
    _ = _ := by ring

/-- Without a grant in between, a rule gets a token as soon as one has accrued. -/
theorem tryAcquire_of_accrued (hB : 0 ≤ B) (hN : 0 ≤ N) {pre rest : List (Call String ℚ)}
    {ruleId : String} {b : TokenBuckets.Bucket ℚ} {now : ℚ}
    (hb : ((fresh N B).after pre).buckets ruleId = some b)
    (hnone : grants ruleId (((fresh N B).after pre).trace rest) = 0)
    (hone : 1 ≤ min B (b.tokens +
      N * (max (seen ruleId b.lastRefill rest) now - b.lastRefill) / 60000)) :
    (((fresh N B).after (pre ++ rest)).tryAcquire now ruleId).1 = true := by
  have hrate : 0 ≤ N / 60000 := div_nonneg hN (by norm_num)
  have hfull : b.tokens ≤ B := (bounded_after hB hN pre ruleId b hb).2
  rw [grants_eq, burstCapacity_after, refillPerMs_after] at hnone
  -- the bucket as `remaining` would show it now
  let look : Call String ℚ := ⟨.look, ruleId, now⟩
  have hlook : TokenBuckets.grants B (N / 60000) ruleId ((fresh N B).after pre).buckets
      (rest ++ [look]) = 0 := by
    rw [TokenBuckets.grants_append, hnone]
    simp [TokenBuckets.grants, TokenBuckets.step, TokenBuckets.ask, look]
  obtain ⟨shown, hshown, hlast, htokens⟩ :=
    TokenBuckets.run_of_no_grant hrate hb hfull (rest ++ [look]) hlook
  have hseen : seen ruleId b.lastRefill (rest ++ [look]) =
      max (seen ruleId b.lastRefill rest) now := by
    simp [seen, List.foldl_append, look]
  have hbucket : ((fresh N B).after (pre ++ rest)).refillBucket now ruleId = shown := by
    rw [refillBucket_eq, burstCapacity_after, refillPerMs_after, after_append, after_eq _ rest,
      burstCapacity_after, refillPerMs_after]
    rw [TokenBuckets.run_append] at hshown
    exact Option.some.inj (TokenBuckets.step_self.symm.trans hshown)
  have hwhole : 1 ≤ shown.tokens := by
    rw [htokens, hlast, hseen]
    refine le_trans hone (le_of_eq ?_)
    congr 2
    ring
  rw [tryAcquire, hbucket]
  exact congrArg Prod.fst (if_pos hwhole)

/-- The first call of a rule is granted from the full bucket. -/
theorem tryAcquire_of_new {pre : List (Call String ℚ)} {ruleId : String} (now : ℚ)
    (hnew : ((fresh N B).after pre).buckets ruleId = none) (hone : 1 ≤ B) :
    (((fresh N B).after pre).tryAcquire now ruleId).1 = true := by
  have hbucket : ((fresh N B).after pre).refillBucket now ruleId = ⟨B, now⟩ := by
    rw [refillBucket_eq, hnew, burstCapacity_after]
    rfl
  rw [tryAcquire, hbucket]
  exact congrArg Prod.fst (if_pos hone)

/-- **Main theorem.** Over any calls for any rules and any readings of the clock: the tokens lie
    between none and the capacity; from any call on, its rule gets at most the capacity and what
    the time since the greatest reading then has added; a rule's calls are answered as if there
    were no others; and a token that has accrued is given. -/
theorem rate_limiter_bound (N B : ℚ) (hN : 0 ≤ N) (hB : 0 ≤ B) :
    (∀ calls ruleId b, ((fresh N B).after calls).buckets ruleId = some b →
      0 ≤ b.tokens ∧ b.tokens ≤ B) ∧
    (∀ (pre : List (Call String ℚ)) (c : Call String ℚ) (rest : List (Call String ℚ)),
      c.now ≤ seen c.key c.now pre ∧
      (grants c.key (((fresh N B).after pre).trace (c :: rest)) : ℚ) ≤
        B + N * (seen c.key (seen c.key c.now pre) rest - seen c.key c.now pre) / 60000) ∧
    (∀ ruleId calls, forRule ruleId ((fresh N B).trace calls) =
      (fresh N B).trace (calls.filter fun c => c.key = ruleId)) ∧
    (∀ pre rest ruleId now,
      (∀ b, ((fresh N B).after pre).buckets ruleId = some b →
        grants ruleId (((fresh N B).after pre).trace rest) = 0 →
        1 ≤ min B (b.tokens +
          N * (max (seen ruleId b.lastRefill rest) now - b.lastRefill) / 60000) →
        (((fresh N B).after (pre ++ rest)).tryAcquire now ruleId).1 = true) ∧
      (((fresh N B).after pre).buckets ruleId = none → 1 ≤ B →
        (((fresh N B).after pre).tryAcquire now ruleId).1 = true)) :=
  ⟨fun calls => bounded_after hB hN calls,
    fun pre c rest => ⟨TokenBuckets.le_seen c.now pre, grants_after_le hB hN pre c rest⟩,
    fun _ calls => forRule_trace ⟨rfl, rfl, rfl⟩ calls,
    fun _ _ _ now => ⟨fun _ hb hnone hone => tryAcquire_of_accrued hB hN hb hnone hone,
      fun hnew hone => tryAcquire_of_new now hnew hone⟩⟩

/-- The theorem at a limiter of two tokens a minute with bursts of one. -/
theorem rate_limiter_bound_two :
    (((fresh 2 1).after [⟨.acquire, "deploy", 0⟩]).tryAcquire 30000 "deploy").1 = true := by
  refine ((rate_limiter_bound 2 1 (by norm_num) (by norm_num)).2.2.2 [⟨.acquire, "deploy", 0⟩] []
    "deploy" 30000).1 ⟨0, 0⟩ (by decide +kernel) rfl ?_
  norm_num [seen]

end Bounds

end Limiter

end WoodFiredTasks.Router.RateLimit
