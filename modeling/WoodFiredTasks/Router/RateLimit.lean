import Mathlib.Data.Rat.Defs
import Mathlib.Algebra.Order.Ring.Rat
import WoodFiredTasks.Lib.TokenBucket

set_option autoImplicit false

/-! # The rate limiter

`RateLimiter` (`packages/wft-router/src/dispatch/rate-limit.ts`) with its two options and any clock.
Token counts and times are rational numbers here; the source has floats. `reset`, which only tests
call, is left out. -/

namespace WoodFiredTasks.Router.RateLimit

open TokenBuckets (Call Op)

/-- `RateLimitOptions`, without the clock. -/
structure RateLimitOptions where
  tokensPerMinute : Option ℚ := none
  burstCapacity : Option ℚ := none

/-- The fields of a `RateLimiter`. -/
structure Limiter where
  tokensPerMinute : ℚ
  burstCapacity : ℚ
  buckets : String → Option (TokenBuckets.Bucket ℚ)

namespace Limiter

/-- The constructor. -/
def create (options : RateLimitOptions) : Limiter where
  tokensPerMinute := options.tokensPerMinute.getD 60
  burstCapacity := options.burstCapacity.getD (options.tokensPerMinute.getD 60)
  buckets := fun _ => none

def refillPerMs (l : Limiter) : ℚ := l.tokensPerMinute / 60000

/-- The bucket that `refillBucket` finds or makes. -/
def refillBucket (l : Limiter) (now : ℚ) (ruleId : String) : TokenBuckets.Bucket ℚ :=
  match l.buckets ruleId with
  | none => ⟨l.burstCapacity, now⟩
  | some existing =>
    let elapsed := now - existing.lastRefill
    if elapsed > 0 then
      let refilled := existing.tokens + elapsed * l.refillPerMs
      ⟨if refilled > l.burstCapacity then l.burstCapacity else refilled, now⟩
    else existing

/-- The limiter with this bucket for the rule. -/
def setBucket (l : Limiter) (ruleId : String) (bucket : TokenBuckets.Bucket ℚ) : Limiter :=
  { l with buckets := Function.update l.buckets ruleId (some bucket) }

def tryAcquire (l : Limiter) (now : ℚ) (ruleId : String) : Bool × Limiter :=
  let bucket := l.refillBucket now ruleId
  if bucket.tokens ≥ 1 then
    (true, l.setBucket ruleId { bucket with tokens := bucket.tokens - 1 })
  else (false, l.setBucket ruleId bucket)

def remaining (l : Limiter) (now : ℚ) (ruleId : String) : ℚ × Limiter :=
  let bucket := l.refillBucket now ruleId
  (bucket.tokens, l.setBucket ruleId bucket)

/-! ## Calls -/

/-- What a call returns. -/
inductive Answer where
  | acquired (granted : Bool)
  | remaining (tokens : ℚ)
  deriving DecidableEq

/-- `tryAcquire` or `remaining`, at the time that the clock shows. -/
def call (l : Limiter) (c : Call String ℚ) : Answer × Limiter :=
  match c.op with
  | .acquire => ((l.tryAcquire c.now c.key).map .acquired id)
  | .look => ((l.remaining c.now c.key).map .remaining id)

/-- The limiter after some calls. -/
def after (l : Limiter) (calls : List (Call String ℚ)) : Limiter :=
  calls.foldl (fun l c => (l.call c).2) l

/-- The calls with their answers. -/
def trace : Limiter → List (Call String ℚ) → List (Call String ℚ × Answer)
  | _, [] => []
  | l, c :: rest => (c, (l.call c).1) :: trace (l.call c).2 rest

/-- The calls of a trace that are for the rule. -/
def forRule (ruleId : String) (t : List (Call String ℚ × Answer)) :
    List (Call String ℚ × Answer) :=
  t.filter fun entry => entry.1.key = ruleId

/-- How many tokens the rule got in a trace. -/
def grants (ruleId : String) (t : List (Call String ℚ × Answer)) : Nat :=
  t.countP fun entry => entry.1.key = ruleId ∧ entry.2 = .acquired true

/-! ## The limiter as a family of token buckets -/

section Lemmas

variable {l : Limiter} {c : Call String ℚ}

theorem refillBucket_eq (now : ℚ) (ruleId : String) :
    l.refillBucket now ruleId =
      TokenBuckets.refill l.burstCapacity l.refillPerMs now (l.buckets ruleId) := by
  unfold refillBucket
  cases l.buckets ruleId with
  | none => rfl
  | some existing =>
    rw [TokenBuckets.refill]
    by_cases hlater : existing.lastRefill < now
    · have helapsed : now - existing.lastRefill > 0 := sub_pos.2 hlater
      simp only [if_pos hlater, if_pos helapsed, TokenBuckets.Bucket.mk.injEq, and_true]
      by_cases hfull : existing.tokens + (now - existing.lastRefill) * l.refillPerMs >
          l.burstCapacity
      · rw [if_pos hfull, min_eq_left hfull.le]
      · rw [if_neg hfull, min_eq_right (not_lt.1 hfull)]
    · have helapsed : ¬ now - existing.lastRefill > 0 := fun h => hlater (sub_pos.1 h)
      simp only [if_neg hlater, if_neg helapsed]

/-- A call is a step of the buckets. -/
theorem call_spec (l : Limiter) (c : Call String ℚ) :
    (l.call c).2 = { l with
      buckets := (TokenBuckets.step l.burstCapacity l.refillPerMs l.buckets c).2 } ∧
    ((l.call c).1 = .acquired true ↔
      (TokenBuckets.step l.burstCapacity l.refillPerMs l.buckets c).1 = true) := by
  obtain ⟨op, key, now⟩ := c
  cases op with
  | look =>
    have hstep : TokenBuckets.step l.burstCapacity l.refillPerMs l.buckets ⟨.look, key, now⟩ =
        (false, Function.update l.buckets key (some (l.refillBucket now key))) := by
      rw [refillBucket_eq]
      rfl
    rw [hstep]
    exact ⟨rfl, by simp [call, remaining]⟩
  | acquire =>
    have hstep : TokenBuckets.step l.burstCapacity l.refillPerMs l.buckets ⟨.acquire, key, now⟩ =
        ((TokenBuckets.ask .acquire (l.refillBucket now key)).1, Function.update l.buckets key
          (some (TokenBuckets.ask .acquire (l.refillBucket now key)).2)) := by
      rw [refillBucket_eq]
      rfl
    rw [hstep]
    simp only [call, tryAcquire, TokenBuckets.ask]
    by_cases hwhole : 1 ≤ (l.refillBucket now key).tokens
    · simp [hwhole, setBucket]
    · simp [hwhole, setBucket]

theorem after_eq (l : Limiter) (calls : List (Call String ℚ)) :
    l.after calls = { l with
      buckets := TokenBuckets.run l.burstCapacity l.refillPerMs l.buckets calls } := by
  induction calls generalizing l with
  | nil => rfl
  | cons c rest ih =>
    show (l.call c).2.after rest = _
    rw [ih, (call_spec l c).1]
    rfl

theorem grants_eq (ruleId : String) (l : Limiter) (calls : List (Call String ℚ)) :
    grants ruleId (l.trace calls) =
      TokenBuckets.grants l.burstCapacity l.refillPerMs ruleId l.buckets calls := by
  induction calls generalizing l with
  | nil => rfl
  | cons c rest ih =>
    obtain ⟨hafter, hanswer⟩ := call_spec l c
    have hrest := ih (l.call c).2
    rw [hafter] at hrest
    rw [trace, grants, List.countP_cons, TokenBuckets.grants, hafter, Nat.add_comm]
    congr 1
    · simp [hanswer]

end Lemmas

end Limiter

end WoodFiredTasks.Router.RateLimit
