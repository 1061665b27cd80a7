import Mathlib.Algebra.Order.Ring.Rat
import Mathlib.Data.List.TakeWhile
import Mathlib.Data.Nat.Cast.Order.Field
import Mathlib.Tactic.FieldSimp
import WoodFiredTasks.Lib.Runs
import WoodFiredTasks.Lib.TokenBucket
import WoodFiredTasks.Router.Bursts

set_option autoImplicit false

/-! # What a daemon spends

The daemon's rate limiter counts in parts of a token; in whole tokens it is a family of token
buckets, and what a daemon does is a run of them in which every granted call is the call of a
handler (`Spent`). -/

namespace WoodFiredTasks.Router

/-! ## The rate limiter in whole tokens -/

/-- A bucket in whole tokens. -/
def TokenBucket.whole (b : TokenBucket) : TokenBuckets.Bucket ℚ :=
  ⟨b.tokens / 60000, b.lastRefillMs⟩

/-- The buckets of a limiter in whole tokens. -/
def RateLimiter.whole (limiter : RateLimiter) (ruleId : String) : Option (TokenBuckets.Bucket ℚ) :=
  (limiter ruleId).map TokenBucket.whole

theorem whole_refillBucket (n now : Nat) (b : Option TokenBucket) :
    (refillBucket n now b).whole =
      TokenBuckets.refill (n : ℚ) (n / 60000) now (b.map TokenBucket.whole) := by
  cases b with
  | none => simp [refillBucket, TokenBucket.whole, TokenBuckets.refill, tokenUnit]
  | some b =>
    simp only [refillBucket, Option.map_some, TokenBuckets.refill, TokenBucket.whole, Nat.cast_lt]
    split
    · next hlater =>
      have hadded : (b.tokens : ℚ) / 60000 + ((now : ℚ) - b.lastRefillMs) * (n / 60000) =
          (b.tokens + (now - b.lastRefillMs) * n : Nat) / 60000 := by
        rw [Nat.cast_add, Nat.cast_mul, Nat.cast_sub hlater.le]
        ring
      have htokens : ((min (n * tokenUnit) (b.tokens + (now - b.lastRefillMs) * n) : Nat) : ℚ) /
          60000 = min (n : ℚ) ((b.tokens + (now - b.lastRefillMs) * n : Nat) / 60000) := by
        rw [Nat.cast_min, ← min_div_div_right (by norm_num)]
        congr 1
        simp [tokenUnit]
      rw [hadded, ← htokens]
    · rfl

/-- A token less. -/
theorem whole_spend {b : TokenBucket} (h : tokenUnit ≤ b.tokens) :
    TokenBucket.whole { b with tokens := b.tokens - tokenUnit } =
      { b.whole with tokens := b.whole.tokens - 1 } := by
  have htokens : ((b.tokens - tokenUnit : Nat) : ℚ) / 60000 = (b.tokens : ℚ) / 60000 - 1 := by
    rw [Nat.cast_sub h, tokenUnit]
    ring
  simp only [TokenBucket.whole, htokens]

/-- Asking for a token is a step of the token buckets. -/
theorem whole_tryAcquire (limiter : RateLimiter) (n now : Nat) (ruleId : String) :
    (limiter.tryAcquire n now ruleId).1 =
        (TokenBuckets.step (n : ℚ) (n / 60000) limiter.whole ⟨.acquire, ruleId, now⟩).1 ∧
      (limiter.tryAcquire n now ruleId).2.whole =
        (TokenBuckets.step (n : ℚ) (n / 60000) limiter.whole ⟨.acquire, ruleId, now⟩).2 := by
  have hrefill := whole_refillBucket n now (limiter ruleId)
  have hupdate : ∀ b : TokenBucket, RateLimiter.whole (Function.update limiter ruleId (some b)) =
      Function.update limiter.whole ruleId (some b.whole) := by
    intro b
    funext id
    by_cases hid : id = ruleId
    · simp [RateLimiter.whole, hid]
    · simp [RateLimiter.whole, hid]
  have htoken : tokenUnit ≤ (refillBucket n now (limiter ruleId)).tokens ↔
      1 ≤ (refillBucket n now (limiter ruleId)).whole.tokens := by
    rw [TokenBucket.whole, le_div_iff₀ (by norm_num), tokenUnit, one_mul]
    exact_mod_cast Iff.rfl
  unfold RateLimiter.tryAcquire TokenBuckets.step
  dsimp only
  rw [RateLimiter.whole, ← hrefill, TokenBuckets.ask]
  by_cases hwhole : tokenUnit ≤ (refillBucket n now (limiter ruleId)).tokens
  · rw [if_pos hwhole, if_pos (htoken.1 hwhole)]
    exact ⟨rfl, by rw [hupdate, whole_spend hwhole]⟩
  · rw [if_neg hwhole, if_neg fun h => hwhole (htoken.2 h)]
    exact ⟨rfl, hupdate _⟩

namespace WftRouterDaemon

variable {d d' d'' : WftRouterDaemon} {payload : DispatchPayload} {rule : Rule}

/-! ## What one process does -/

/-- What happens within a process of the daemon: an event comes to a rule, time passes, an act comes
    to something, the daemon is stopped, the clock is set. -/
inductive Move where
  | dispatchRule (rule : Rule) (mapped : MappedEvent)
  | wait (ms : Nat)
  | settle (i : Nat) (result : EffectResult)
  | stop
  | setClock (clock : Nat)

/-- The timers do not go by the clock that is set. -/
def setClock (d : WftRouterDaemon) (clock : Nat) : WftRouterDaemon :=
  { d with
    now := clock
    buckets := d.buckets.map fun b => { b with deadline := clock + (b.deadline - d.now) } }

def move (d : WftRouterDaemon) : Move → WftRouterDaemon
  | .dispatchRule rule mapped => d.dispatchRule rule mapped
  | .wait ms => d.wait ms
  | .settle i result => d.settle i result
  | .stop => d.stop
  | .setClock clock => d.setClock clock

/-- The event is known by a key without a NUL: the parser of the stream passes no id with one. -/
def Move.parsed : Move → Bool
  | .dispatchRule _ mapped => decide ('\x00' ∉ (eventKey mapped).toList)
  | _ => true

theorem foldl_dispatchRule (mapped : MappedEvent) (rules : List Rule) (d : WftRouterDaemon) :
    rules.foldl (fun d rule => d.dispatchRule rule mapped) d =
      (rules.map (Move.dispatchRule · mapped)).foldl move d := by
  induction rules generalizing d with
  | nil => rfl
  | cons rule rest ih => exact ih (d.dispatchRule rule mapped)

theorem nul_notMem_mapped {ev : SSEEvent} {mapped : MappedEvent} (h : mapSSEEvent ev = some mapped)
    (hid : ∀ id, ev.id = some id → '\x00' ∉ id.toList) : '\x00' ∉ (eventKey mapped).toList := by
  unfold eventKey
  split
  · exact nul_notMem_toString_int _
  · unfold mapSSEEvent at h
    simp only [Option.bind_eq_some_iff, Option.map_eq_some_iff] at h
    obtain ⟨_, _, _, _, eventId, hid', rfl⟩ := h
    exact hid eventId (Option.filter_eq_some_iff.1 hid').1

/-- A step of the daemon, other than a new start, is some moves. -/
theorem step_moves {a : Action} (hstart : ∀ deps, a ≠ .start deps)
    (hid : ∀ ev, a = .event ev → ∀ id, ev.id = some id → '\x00' ∉ id.toList) :
    ∃ moves : List Move, (∀ m ∈ moves, m.parsed = true) ∧ d.step a = moves.foldl move d := by
  cases a with
  | event ev =>
    show ∃ moves : List Move, _ ∧ d.onEvent ev = _
    unfold onEvent
    split
    · exact ⟨[], by simp, rfl⟩
    · split
      · exact ⟨[], by simp, rfl⟩
      · next mapped hmapped =>
        refine ⟨_, ?_, foldl_dispatchRule mapped (matched d.deps mapped) d⟩
        intro m hm
        obtain ⟨rule, -, rfl⟩ := List.mem_map.1 hm
        exact decide_eq_true (nul_notMem_mapped hmapped (hid ev rfl))
  | sweep ruleIndex tasks =>
    simp only [step, sweepRule]
    split
    · exact ⟨[], by simp, rfl⟩
    · next rule hrule =>
      split
      · exact ⟨[], by simp, rfl⟩
      · next payload hpayload =>
        refine ⟨[.dispatchRule rule _], ?_, rfl⟩
        intro m hm
        rw [List.mem_singleton.1 hm]
        obtain ⟨task, -, htask⟩ := List.mem_map.1 (List.mem_of_find?_eq_some hpayload)
        refine decide_eq_true (nul_notMem_eventKey task.1 ?_)
        rw [← htask]
        rfl
  | wait ms => exact ⟨[.wait ms], by simp [Move.parsed], rfl⟩
  | settle i result => exact ⟨[.settle i result], by simp [Move.parsed], rfl⟩
  | stop => exact ⟨[.stop], by simp [Move.parsed], rfl⟩
  | start deps => exact absurd rfl (hstart deps)

/-! ## Spending -/

/-- The capacity of the limiter, which is also what a minute adds. -/
def capacity (d : WftRouterDaemon) : ℚ := tokensPerMinute d.deps

/-- How often a handler was called for the rule. -/
def callsFor (ruleId : String) (d : WftRouterDaemon) : Nat :=
  d.invocations.countP fun inv => inv.ctx.identity.ruleName = ruleId

/-- The limiter was called like this, and every granted call was one of a handler. -/
structure Spent (d d' : WftRouterDaemon) (calls : List (TokenBuckets.Call String ℚ)) : Prop where
  deps : d'.deps = d.deps
  limiter : d'.rateLimiter.whole =
    TokenBuckets.run d.capacity (d.capacity / 60000) d.rateLimiter.whole calls
  calls : ∀ ruleId, d'.callsFor ruleId = d.callsFor ruleId +
    TokenBuckets.grants d.capacity (d.capacity / 60000) ruleId d.rateLimiter.whole calls

namespace Spent

variable {calls calls' : List (TokenBuckets.Call String ℚ)}

/-- Neither the limiter nor a handler was called. -/
theorem of_eq (hdeps : d'.deps = d.deps) (hlimiter : d'.rateLimiter = d.rateLimiter)
    (hinvocations : d'.invocations = d.invocations) : Spent d d' [] := by
  refine ⟨hdeps, by rw [hlimiter]; rfl, fun ruleId => ?_⟩
  rw [callsFor, hinvocations]
  rfl

theorem refl (d : WftRouterDaemon) : Spent d d [] := of_eq rfl rfl rfl

theorem trans (h : Spent d d' calls) (h' : Spent d' d'' calls') :
    Spent d d'' (calls ++ calls') := by
  have hcapacity : d'.capacity = d.capacity := by rw [capacity, h.deps, capacity]
  refine ⟨h'.deps.trans h.deps, ?_, fun ruleId => ?_⟩
  · rw [h'.limiter, h.limiter, hcapacity, TokenBuckets.run_append]
  · rw [h'.calls, h.calls, h.limiter, hcapacity, TokenBuckets.grants_append, Nat.add_assoc]

theorem dispatch (d : WftRouterDaemon) (hname : payload.identity.ruleName = rule.name) :
    Spent d (d.dispatch rule payload) [⟨.acquire, rule.name, d.now⟩] := by
  obtain ⟨hanswer, hlimiter⟩ :=
    whole_tryAcquire d.rateLimiter (tokensPerMinute d.deps) d.now rule.name
  unfold WftRouterDaemon.dispatch
  split
  · next limiter hacquire =>
    rw [hacquire] at hanswer hlimiter
    refine ⟨rfl, hlimiter, fun ruleId => ?_⟩
    rw [TokenBuckets.grants, TokenBuckets.grants, capacity, ← hanswer, callsFor, invocations_invoke,
      List.countP_append, callsFor]
    simp [hname]
  · next limiter hacquire =>
    rw [hacquire] at hanswer hlimiter
    refine ⟨rfl, hlimiter, fun ruleId => ?_⟩
    rw [TokenBuckets.grants, TokenBuckets.grants, capacity, ← hanswer]
    simp [callsFor]

end Spent

/-! ## The buckets that wait -/

/-- Everyone who waits for the bucket is a rule of the name that its payload has. -/
structure Named (bucket : Bucket DispatchPayload Rule) : Prop where
  subscribers : ∀ r ∈ bucket.subscribers, bucket.latestPayload.identity.ruleName = r.name
  key : ∃ eventKey : String, '\x00' ∉ eventKey.toList ∧
    bucket.key = compoundKey bucket.latestPayload.identity.ruleName eventKey

/-- The buckets stand in the order of their timers, one for each key. -/
structure InOrder (d : WftRouterDaemon) : Prop where
  named : ∀ b ∈ d.buckets, Named b
  keys : (d.buckets.map (·.key)).Nodup
  sorted : d.buckets.Pairwise (·.deadline ≤ ·.deadline)
  coming : ∀ b ∈ d.buckets, d.now ≤ b.deadline ∧ b.deadline ≤ d.now + windowMs d.deps

theorem dropWhile_deadline (limit : Nat) {buckets : List (Bucket DispatchPayload Rule)}
    (hsorted : buckets.Pairwise (·.deadline ≤ ·.deadline)) :
    buckets.dropWhile (·.deadline ≤ limit) = buckets.filter (limit < ·.deadline) := by
  induction buckets with
  | nil => rfl
  | cons b rest ih =>
    obtain ⟨hfirst, hrest⟩ := List.pairwise_cons.1 hsorted
    by_cases hdue : b.deadline ≤ limit
    · rw [List.dropWhile_cons_of_pos (by simpa using hdue),
        List.filter_cons_of_neg (by simpa using hdue), ih hrest]
    · have hlate : ∀ c ∈ b :: rest, decide (limit < c.deadline) = true := by
        intro c hc
        rcases List.mem_cons.1 hc with rfl | hc
        · simpa using hdue
        · exact decide_eq_true (Nat.lt_of_lt_of_le (Nat.lt_of_not_le hdue) (hfirst c hc))
      rw [List.dropWhile_cons_of_neg (by simpa using hdue), List.filter_eq_self.2 hlate]

namespace InOrder

theorem congr (h : InOrder d) (hdeps : d'.deps = d.deps) (hnow : d'.now = d.now)
    (hbuckets : d'.buckets = d.buckets) : InOrder d' := by
  obtain ⟨hnamed, hkeys, hsorted, hcoming⟩ := h
  exact ⟨by rwa [hbuckets], by rwa [hbuckets], by rwa [hbuckets],
    by rwa [hbuckets, hdeps, hnow]⟩

/-- The buckets of a push: those of the other keys and, at the end, the one of its own key. -/
theorem push_buckets (d : WftRouterDaemon) (key : String) (payload : DispatchPayload) (rule : Rule) :
    ∃ b : Bucket DispatchPayload Rule,
      (d.push key payload rule).buckets = d.buckets.filter (·.key ≠ key) ++ [b] ∧
      b.key = key ∧ b.latestPayload = payload ∧ b.deadline = d.now + windowMs d.deps ∧
      ∃ waiting, b.subscribers = waiting ++ [rule] ∧
        ∀ r ∈ waiting, ∃ existing ∈ d.buckets, existing.key = key ∧ r ∈ existing.subscribers := by
  simp only [push, Debouncer.push]
  split
  · next existing hfind =>
    have hkey : existing.key = key := by simpa using List.find?_some hfind
    exact ⟨_, rfl, hkey, rfl, rfl, existing.subscribers, rfl, fun r hr =>
      ⟨existing, List.mem_of_find?_eq_some hfind, hkey, hr⟩⟩
  · next hfind =>
    have hall : d.buckets.filter (·.key ≠ key) = d.buckets := by
      rw [List.filter_eq_self]
      simpa using hfind
    rw [hall]
    exact ⟨_, rfl, rfl, rfl, rfl, [], rfl, by simp⟩

theorem push (h : InOrder d) {eventKey : String} (hnul : '\x00' ∉ eventKey.toList)
    (hname : payload.identity.ruleName = rule.name) :
    InOrder (d.push (compoundKey rule.name eventKey) payload rule) := by
  obtain ⟨b, hbuckets, hkey, hpayload, hdeadline, waiting, hwaiting, hold⟩ :=
    push_buckets d (compoundKey rule.name eventKey) payload rule
  have hnamed : Named b := by
    refine ⟨fun r hr => ?_, eventKey, hnul, by rw [hkey, hpayload, hname]⟩
    rw [hpayload, hname]
    rw [hwaiting, List.mem_append, List.mem_singleton] at hr
    rcases hr with hr | rfl
    · obtain ⟨existing, hmem, hsame, hr⟩ := hold r hr
      obtain ⟨hsubscribers, otherKey, hother, hexisting⟩ := h.named existing hmem
      rw [← hsubscribers r hr]
      exact (compoundKey_ruleId_inj hother hnul (hexisting.symm.trans hsame)).symm
    · rfl
  have hsublist : (d.buckets.filter (·.key ≠ compoundKey rule.name eventKey)).Sublist d.buckets :=
    List.filter_sublist
  refine ⟨fun c hc => ?_, keys_push_nodup h.keys, ?_, fun c hc => ?_⟩
  · rw [hbuckets, List.mem_append, List.mem_singleton] at hc
    rcases hc with hc | rfl
    · exact h.named c (hsublist.subset hc)
    · exact hnamed
  · rw [hbuckets, List.pairwise_append]
    refine ⟨h.sorted.sublist hsublist, List.pairwise_singleton _ _, fun c hc c' hc' => ?_⟩
    rw [List.mem_singleton.1 hc', hdeadline]
    exact (h.coming c (hsublist.subset hc)).2
  · rw [hbuckets, List.mem_append, List.mem_singleton] at hc
    rcases hc with hc | rfl
    · exact h.coming c (hsublist.subset hc)
    · rw [hdeadline]
      exact ⟨Nat.le_add_right _ _, le_rfl⟩

end InOrder

/-! ## What a move spends -/

theorem now_dispatch : (d.dispatch rule payload).now = d.now := by
  unfold WftRouterDaemon.dispatch
  split <;> rfl

theorem now_foldl {β : Type} {f : WftRouterDaemon → β → WftRouterDaemon}
    (hf : ∀ d x, (f d x).now = d.now) (d : WftRouterDaemon) (xs : List β) :
    (xs.foldl f d).now = d.now := by
  induction xs generalizing d with
  | nil => rfl
  | cons x rest ih => exact (ih (f d x)).trans (hf d x)

theorem now_fireBucket (d : WftRouterDaemon) (bucket : Bucket DispatchPayload Rule) :
    (d.fireBucket bucket).now = d.now :=
  now_foldl (fun _ _ => now_dispatch) d bucket.subscribers

namespace Spent

theorem subscribers {subscribers : List Rule} (d : WftRouterDaemon)
    (hnames : ∀ r ∈ subscribers, payload.identity.ruleName = r.name) :
    ∃ calls, Spent d (subscribers.foldl (fun d rule => d.dispatch rule payload) d) calls ∧
      ∀ c ∈ calls, c.now = d.now := by
  induction subscribers generalizing d with
  | nil => exact ⟨[], refl d, by simp⟩
  | cons rule rest ih =>
    have hfirst := Spent.dispatch d (hnames rule List.mem_cons_self)
    obtain ⟨calls, hcalls, htimes⟩ := ih (d.dispatch rule payload)
      fun r hr => hnames r (List.mem_cons_of_mem _ hr)
    refine ⟨_, hfirst.trans hcalls, fun c hc => ?_⟩
    rcases List.mem_append.1 hc with hc | hc
    · rw [List.mem_singleton.1 hc]
    · rw [htimes c hc, now_dispatch]

theorem fireTimers {buckets : List (Bucket DispatchPayload Rule)} (d : WftRouterDaemon)
    (hnamed : ∀ b ∈ buckets, Named b) :
    ∃ calls, Spent d (buckets.foldl fireTimer d) calls ∧
      ∀ c ∈ calls, ∃ b ∈ buckets, c.now = b.deadline := by
  induction buckets generalizing d with
  | nil => exact ⟨[], refl d, by simp⟩
  | cons b rest ih =>
    obtain ⟨calls, hcalls, htimes⟩ := subscribers { d with now := b.deadline }
      (hnamed b List.mem_cons_self).subscribers
    have hmoved : Spent d { d with now := b.deadline } [] := of_eq rfl rfl rfl
    obtain ⟨calls', hcalls', htimes'⟩ := ih (d.fireTimer b)
      fun c hc => hnamed c (List.mem_cons_of_mem _ hc)
    refine ⟨_, (hmoved.trans hcalls).trans hcalls', fun c hc => ?_⟩
    rw [List.nil_append, List.mem_append] at hc
    rcases hc with hc | hc
    · exact ⟨b, List.mem_cons_self, by rw [htimes c hc]⟩
    · obtain ⟨b', hb', hnow⟩ := htimes' c hc
      exact ⟨b', List.mem_cons_of_mem _ hb', hnow⟩

theorem fireBuckets {buckets : List (Bucket DispatchPayload Rule)} (d : WftRouterDaemon)
    (hnamed : ∀ b ∈ buckets, Named b) :
    ∃ calls, Spent d (buckets.foldl fireBucket d) calls ∧ ∀ c ∈ calls, c.now = d.now := by
  induction buckets generalizing d with
  | nil => exact ⟨[], refl d, by simp⟩
  | cons b rest ih =>
    obtain ⟨calls, hcalls, htimes⟩ := subscribers d (hnamed b List.mem_cons_self).subscribers
    obtain ⟨calls', hcalls', htimes'⟩ := ih (d.fireBucket b)
      fun c hc => hnamed c (List.mem_cons_of_mem _ hc)
    refine ⟨_, trans hcalls hcalls', fun c hc => ?_⟩
    rcases List.mem_append.1 hc with hc | hc
    · exact htimes c hc
    · rw [htimes' c hc, now_fireBucket]

end Spent

/-! ## Moves -/

/-- The move keeps the order of the buckets, and calls the limiter at times that the clock shows
    during it. -/
structure MoveOk (d d' : WftRouterDaemon) : Prop where
  order : InOrder d'
  spent : ∃ calls, Spent d d' calls ∧ ∀ c ∈ calls, (d.now : ℚ) ≤ c.now ∧ c.now ≤ d'.now

theorem moveOk_dispatchRule (h : InOrder d) (rule : Rule) {mapped : MappedEvent}
    (hnul : '\x00' ∉ (eventKey mapped).toList) : MoveOk d (d.dispatchRule rule mapped) := by
  have hseen : InOrder { d with seen := d.seen ++ [dispatchPayload rule mapped] } :=
    h.congr rfl rfl rfl
  unfold WftRouterDaemon.dispatchRule
  dsimp only
  split
  · -- past the debouncer
    have hspent : Spent { d with seen := d.seen ++ [dispatchPayload rule mapped] }
        (dispatch { d with seen := d.seen ++ [dispatchPayload rule mapped] } rule
          (dispatchPayload rule mapped)) [⟨.acquire, rule.name, d.now⟩] :=
      Spent.dispatch _ rfl
    have hqueue := SameQueue.dispatch { d with seen := d.seen ++ [dispatchPayload rule mapped] }
      rule (dispatchPayload rule mapped)
    refine ⟨hseen.congr hqueue.deps now_dispatch hqueue.buckets, _, ⟨hspent.deps, hspent.limiter,
      hspent.calls⟩, fun c hc => ?_⟩
    rw [List.mem_singleton.1 hc, now_dispatch]
    exact ⟨le_rfl, le_rfl⟩
  · exact ⟨hseen.push hnul rfl, [], Spent.of_eq rfl rfl rfl, by simp⟩

theorem moveOk_wait (h : InOrder d) (ms : Nat) : MoveOk d (d.wait ms) := by
  have hrest := dropWhile_deadline (d.now + ms) h.sorted
  have hqueue := SameQueue.foldl SameQueue.fireTimer
    { d with buckets := d.buckets.dropWhile (·.deadline ≤ d.now + ms) }
    (d.buckets.takeWhile (·.deadline ≤ d.now + ms))
  have hbuckets : (d.wait ms).buckets = d.buckets.filter (d.now + ms < ·.deadline) :=
    hqueue.buckets.trans hrest
  have hsublist : (d.wait ms).buckets.Sublist d.buckets := by
    rw [hbuckets]
    exact List.filter_sublist
  constructor
  · refine ⟨fun b hb => h.named b (hsublist.subset hb), h.keys.sublist (hsublist.map _),
      h.sorted.sublist hsublist, fun b hb => ?_⟩
    have hlate : d.now + ms < b.deadline := by
      rw [hbuckets] at hb
      simpa using (List.mem_filter.1 hb).2
    have hcoming := (h.coming b (hsublist.subset hb)).2
    show d.now + ms ≤ b.deadline ∧ b.deadline ≤ d.now + ms + windowMs (d.wait ms).deps
    rw [show (d.wait ms).deps = d.deps from hqueue.deps]
    omega
  · have hnamed : ∀ b ∈ d.buckets.takeWhile (·.deadline ≤ d.now + ms), Named b :=
      fun b hb => h.named b ((List.takeWhile_sublist _).subset hb)
    obtain ⟨calls, hcalls, htimes⟩ := Spent.fireTimers
      { d with buckets := d.buckets.dropWhile (·.deadline ≤ d.now + ms) } hnamed
    refine ⟨calls, ⟨hcalls.deps, hcalls.limiter, hcalls.calls⟩, fun c hc => ?_⟩
    obtain ⟨b, hb, hnow⟩ := htimes c hc
    have hdue : b.deadline ≤ d.now + ms := by
      simpa using List.mem_takeWhile_imp hb
    have hstart := (h.coming b ((List.takeWhile_sublist _).subset hb)).1
    rw [hnow]
    show (d.now : ℚ) ≤ b.deadline ∧ (b.deadline : ℚ) ≤ (d.now + ms : Nat)
    exact ⟨Nat.cast_le.2 hstart, Nat.cast_le.2 hdue⟩

theorem moveOk_stop (h : InOrder d) : MoveOk d d.stop := by
  have hqueue := SameQueue.foldl SameQueue.fireBucket { d with buckets := [] } d.buckets
  have hbuckets : d.stop.buckets = [] := hqueue.buckets
  have hnow : d.stop.now = d.now := now_foldl now_fireBucket _ d.buckets
  constructor
  · refine ⟨?_, ?_, ?_, ?_⟩ <;> simp [hbuckets]
  · obtain ⟨calls, hcalls, htimes⟩ := Spent.fireBuckets { d with buckets := [] } h.named
    refine ⟨calls, ⟨hcalls.deps, hcalls.limiter, hcalls.calls⟩, fun c hc => ?_⟩
    rw [htimes c hc, hnow]
    exact ⟨le_rfl, le_rfl⟩

theorem moveOk_setClock (h : InOrder d) (clock : Nat) : MoveOk d (d.setClock clock) := by
  constructor
  · refine ⟨?_, ?_, ?_, ?_⟩
    · intro b hb
      obtain ⟨b', hb', rfl⟩ := List.mem_map.1 hb
      exact ⟨(h.named b' hb').subscribers, (h.named b' hb').key⟩
    · rw [setClock, List.map_map]
      exact h.keys
    · refine List.pairwise_map.2 (h.sorted.imp_of_mem fun {b b'} hb hb' hle => ?_)
      show clock + (b.deadline - d.now) ≤ clock + (b'.deadline - d.now)
      omega
    · intro b hb
      obtain ⟨b', hb', rfl⟩ := List.mem_map.1 hb
      have hcoming := h.coming b' hb'
      show clock ≤ clock + (b'.deadline - d.now) ∧
        clock + (b'.deadline - d.now) ≤ clock + windowMs d.deps
      omega
  · exact ⟨[], Spent.of_eq rfl rfl rfl, by simp⟩

/-- What every move does. -/
theorem moveOk (h : InOrder d) {m : Move} (hm : m.parsed = true) : MoveOk d (d.move m) := by
  cases m with
  | dispatchRule rule mapped => exact moveOk_dispatchRule h rule (of_decide_eq_true hm)
  | wait ms => exact moveOk_wait h ms
  | settle i result =>
    show MoveOk d (d.settle i result)
    unfold settle
    split
    · exact ⟨h, [], Spent.refl d, by simp⟩
    · exact ⟨h.congr rfl rfl rfl, [], Spent.of_eq rfl rfl rfl, by simp⟩
  | stop => exact moveOk_stop h
  | setClock clock => exact moveOk_setClock h clock

/-- What every run of moves does. -/
theorem run_moves {moves : List Move} (h : InOrder d) (hmoves : ∀ m ∈ moves, m.parsed = true) :
    InOrder (moves.foldl move d) ∧ ∃ calls, Spent d (moves.foldl move d) calls := by
  induction moves generalizing d with
  | nil => exact ⟨h, [], Spent.refl d⟩
  | cons m rest ih =>
    obtain ⟨horder, calls, hcalls, -⟩ := moveOk h (hmoves m List.mem_cons_self)
    obtain ⟨hlast, calls', hcalls'⟩ :=
      ih horder fun m' hm' => hmoves m' (List.mem_cons_of_mem _ hm')
    exact ⟨hlast, calls ++ calls', hcalls.trans hcalls'⟩

/-- What moves spend while the clock shows times of an interval. -/
theorem spent_run {moves : List Move} {start length : ℚ} (h : InOrder d)
    (hmoves : ∀ m ∈ moves, m.parsed = true)
    (hwithin : Always move (fun d => start ≤ (d.now : ℚ) ∧ (d.now : ℚ) ≤ start + length) d moves) :
    ∃ calls, Spent d (moves.foldl move d) calls ∧
      ∀ c ∈ calls, start ≤ c.now ∧ c.now ≤ start + length := by
  induction moves generalizing d with
  | nil => exact ⟨[], Spent.refl d, by simp⟩
  | cons m rest ih =>
    obtain ⟨horder, calls, hcalls, htimes⟩ := moveOk h (hmoves m List.mem_cons_self)
    obtain ⟨calls', hcalls', htimes'⟩ := ih horder
      (fun m' hm' => hmoves m' (List.mem_cons_of_mem _ hm')) hwithin.2
    refine ⟨calls ++ calls', hcalls.trans hcalls', fun c hc => ?_⟩
    rcases List.mem_append.1 hc with hc | hc
    · obtain ⟨hfrom, hto⟩ := htimes c hc
      exact ⟨hwithin.1.1.trans hfrom, hto.trans hwithin.2.start.2⟩
    · exact htimes' c hc

/-! ## Waiting in parts -/

theorem dispatch_withBuckets (buckets : List (Bucket DispatchPayload Rule)) :
    { d with buckets }.dispatch rule payload = { d.dispatch rule payload with buckets } := by
  unfold WftRouterDaemon.dispatch
  dsimp only
  split <;> rfl

/-- A timer leaves the other buckets alone. -/
theorem fireTimer_withBuckets (buckets : List (Bucket DispatchPayload Rule))
    (b : Bucket DispatchPayload Rule) :
    { d with buckets }.fireTimer b = { d.fireTimer b with buckets } := by
  have hfold : ∀ (subscribers : List Rule) (d : WftRouterDaemon),
      subscribers.foldl (fun d rule => d.dispatch rule b.latestPayload) { d with buckets } =
        { subscribers.foldl (fun d rule => d.dispatch rule b.latestPayload) d with buckets } := by
    intro subscribers
    induction subscribers with
    | nil => exact fun _ => rfl
    | cons rule rest ih =>
      intro d
      rw [List.foldl_cons, List.foldl_cons, dispatch_withBuckets]
      exact ih _
  exact hfold b.subscribers { d with now := b.deadline }

theorem fireTimers_withBuckets (buckets due : List (Bucket DispatchPayload Rule)) :
    due.foldl fireTimer { d with buckets } = { due.foldl fireTimer d with buckets } := by
  induction due generalizing d with
  | nil => rfl
  | cons b rest ih =>
    rw [List.foldl_cons, List.foldl_cons, fireTimer_withBuckets]
    exact ih

/-- A timer sets the time. -/
theorem fireTimers_withNow (due : List (Bucket DispatchPayload Rule)) (now now' : Nat) :
    { due.foldl fireTimer { d with now } with now := now' } =
      { due.foldl fireTimer d with now := now' } := by
  cases due with
  | nil => rfl
  | cons b rest => rfl

theorem wait_eq (d : WftRouterDaemon) (ms : Nat) :
    d.wait ms = { (d.buckets.takeWhile (·.deadline ≤ d.now + ms)).foldl fireTimer d with
      buckets := d.buckets.dropWhile (·.deadline ≤ d.now + ms)
      now := d.now + ms } := by
  rw [wait, fireTimers_withBuckets]

/-- A wait may be cut in two, so an interval can begin and end within one. -/
theorem wait_add (d : WftRouterDaemon) (ms ms' : Nat) :
    d.wait (ms + ms') = (d.wait ms).wait ms' := by
  have hsplit : d.buckets.takeWhile (·.deadline ≤ d.now + (ms + ms')) =
      d.buckets.takeWhile (·.deadline ≤ d.now + ms) ++
        (d.buckets.dropWhile (·.deadline ≤ d.now + ms)).takeWhile
          (·.deadline ≤ d.now + ms + ms') ∧
      d.buckets.dropWhile (·.deadline ≤ d.now + (ms + ms')) =
        (d.buckets.dropWhile (·.deadline ≤ d.now + ms)).dropWhile
          (·.deadline ≤ d.now + ms + ms') := by
    induction d.buckets with
    | nil => exact ⟨rfl, rfl⟩
    | cons b rest ih =>
      by_cases hfirst : b.deadline ≤ d.now + ms
      · have hboth : b.deadline ≤ d.now + (ms + ms') := by omega
        simp [hfirst, hboth, ih.1, ih.2]
      · simp [hfirst, Nat.add_assoc]
  have hlater : ∀ (due rest rest' : List (Bucket DispatchPayload Rule)) (now now' : Nat)
      (d' : WftRouterDaemon), { due.foldl fireTimer { d' with buckets := rest, now := now } with
        buckets := rest', now := now' } =
      { due.foldl fireTimer d' with buckets := rest', now := now' } := by
    intro due rest rest' now now' d'
    have hbuckets := fireTimers_withBuckets (d := { d' with now }) rest due
    have hnow := congrArg (fun x : WftRouterDaemon => { x with buckets := rest' })
      (fireTimers_withNow (d := d') due now now')
    rw [hbuckets]
    exact hnow
  rw [wait_eq, hsplit.1, hsplit.2, List.foldl_append, wait_eq (d.wait ms), wait_eq d ms,
    ← Nat.add_assoc]
  exact (hlater _ _ _ _ _ _).symm

end WftRouterDaemon

end WoodFiredTasks.Router
