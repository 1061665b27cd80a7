import WoodFiredTasks.Router.Tracking

set_option autoImplicit false

/-! # Bursts

What has been pushed into a bucket that waits (`Coalesced`), and the tokens that a rule has when
the bucket fires. -/

namespace WoodFiredTasks.Router.WftRouterDaemon

variable {d d' d'' : WftRouterDaemon} {payload : DispatchPayload} {rule : Rule}

/-! ## What firing leaves alone -/

/-- The two daemons have the same payloads and buckets. -/
structure SameQueue (d d' : WftRouterDaemon) : Prop where
  deps : d'.deps = d.deps
  seen : d'.seen = d.seen
  buckets : d'.buckets = d.buckets

namespace SameQueue

theorem refl (d : WftRouterDaemon) : SameQueue d d := ⟨rfl, rfl, rfl⟩

theorem trans (h : SameQueue d d') (h' : SameQueue d' d'') : SameQueue d d'' :=
  ⟨h'.deps.trans h.deps, h'.seen.trans h.seen, h'.buckets.trans h.buckets⟩

theorem foldl {β : Type} {f : WftRouterDaemon → β → WftRouterDaemon}
    (hf : ∀ d x, SameQueue d (f d x)) (d : WftRouterDaemon) (xs : List β) :
    SameQueue d (xs.foldl f d) := by
  induction xs generalizing d with
  | nil => exact refl d
  | cons x rest ih => exact (hf d x).trans (ih (f d x))

theorem dispatch (d : WftRouterDaemon) (rule : Rule) (payload : DispatchPayload) :
    SameQueue d (d.dispatch rule payload) := by
  unfold WftRouterDaemon.dispatch
  split <;> exact ⟨rfl, rfl, rfl⟩

theorem fireBucket (d : WftRouterDaemon) (bucket : Bucket DispatchPayload Rule) :
    SameQueue d (d.fireBucket bucket) :=
  foldl (fun d rule => dispatch d rule bucket.latestPayload) d bucket.subscribers

theorem fireTimer (d : WftRouterDaemon) (bucket : Bucket DispatchPayload Rule) :
    SameQueue d (d.fireTimer bucket) :=
  (⟨rfl, rfl, rfl⟩ : SameQueue d { d with now := bucket.deadline }).trans (fireBucket _ bucket)

end SameQueue

/-! ## What a bucket holds -/

/-- The key of the bucket that a payload is pushed into. -/
def payloadKey (payload : DispatchPayload) : String :=
  compoundKey payload.rule.name
    (match payload.identity.taskId with
      | some taskId => toString taskId
      | none => payload.identity.eventId)

theorem payloadKey_dispatchPayload (rule : Rule) (mapped : MappedEvent) :
    payloadKey (dispatchPayload rule mapped) = compoundKey rule.name (eventKey mapped) := by
  unfold payloadKey eventKey
  show compoundKey rule.name (match mapped.payload.task.bind (·.id) with
    | some taskId => toString taskId
    | none => mapped.eventId) = _
  cases mapped.payload.task.bind (·.id) <;> rfl

/-- The payloads that the bucket has coalesced, in the order in which they were pushed. -/
structure Coalesced (seen : List DispatchPayload) (bucket : Bucket DispatchPayload Rule)
    (burst : List DispatchPayload) : Prop where
  pushed : burst.Sublist seen
  key : ∀ p ∈ burst, payloadKey p = bucket.key
  subscribers : bucket.subscribers = burst.map (·.rule)
  count : bucket.coalescedCount = burst.length
  last : burst.getLast? = some bucket.latestPayload

/-- Every bucket that waits holds a burst. -/
def BurstsKnown (d : WftRouterDaemon) : Prop :=
  ∀ bucket ∈ d.buckets, ∃ burst, Coalesced d.seen bucket burst

namespace BurstsKnown

theorem mono (h : BurstsKnown d) (hbuckets : d'.buckets ⊆ d.buckets)
    (hseen : d.seen.Sublist d'.seen) : BurstsKnown d' := by
  intro bucket hbucket
  obtain ⟨burst, hburst⟩ := h bucket (hbuckets hbucket)
  exact ⟨burst, { hburst with pushed := hburst.pushed.trans hseen }⟩

theorem sameQueue (h : BurstsKnown d) (hsame : SameQueue d d') : BurstsKnown d' :=
  h.mono (by rw [hsame.buckets]; exact fun _ hb => hb) (by rw [hsame.seen])

/-- A push begins a burst or goes on with one. -/
theorem push (h : BurstsKnown d) {key : String} (hkey : payloadKey payload = key) :
    BurstsKnown ({ d with seen := d.seen ++ [payload] }.push key payload payload.rule) := by
  intro bucket hbucket
  simp only [WftRouterDaemon.push, Debouncer.push] at hbucket ⊢
  split at hbucket
  · next existing hfind =>
    rcases List.mem_append.1 hbucket with hold | hnew
    · obtain ⟨burst, hburst⟩ := h bucket (List.mem_of_mem_filter hold)
      exact ⟨burst, { hburst with pushed := hburst.pushed.trans (List.sublist_append_left _ _) }⟩
    · obtain ⟨burst, hburst⟩ := h existing (List.mem_of_find?_eq_some hfind)
      have hexisting : existing.key = key := by simpa using List.find?_some hfind
      rw [List.mem_singleton.1 hnew]
      refine ⟨burst ++ [payload], hburst.pushed.append (List.Sublist.refl _), ?_, ?_, ?_, ?_⟩
      · intro p hp
        rcases List.mem_append.1 hp with hp | hp
        · exact hburst.key p hp
        · rw [List.mem_singleton.1 hp, hkey, hexisting]
      · simp [hburst.subscribers]
      · simp [hburst.count]
      · simp
  · rcases List.mem_append.1 hbucket with hold | hnew
    · obtain ⟨burst, hburst⟩ := h bucket hold
      exact ⟨burst, { hburst with pushed := hburst.pushed.trans (List.sublist_append_left _ _) }⟩
    · rw [List.mem_singleton.1 hnew]
      exact ⟨[payload], List.sublist_append_right _ _, by simpa using hkey, rfl, rfl, rfl⟩

theorem dispatchRule (h : BurstsKnown d) (rule : Rule) (mapped : MappedEvent) :
    BurstsKnown (d.dispatchRule rule mapped) := by
  unfold WftRouterDaemon.dispatchRule
  dsimp only
  split
  · refine BurstsKnown.sameQueue ?_ (SameQueue.dispatch _ rule _)
    exact h.mono (fun _ hb => hb) (List.sublist_append_left _ _)
  · exact h.push (payloadKey_dispatchPayload rule mapped)

theorem onEvent (h : BurstsKnown d) (ev : SSEEvent) : BurstsKnown (d.onEvent ev) := by
  unfold WftRouterDaemon.onEvent
  split
  · exact h
  · split
    · exact h
    · exact List.foldlRecOn _ _ h fun d hd rule _ => hd.dispatchRule rule _

theorem wait (h : BurstsKnown d) (ms : Nat) : BurstsKnown (d.wait ms) := by
  have hrest : BurstsKnown { d with buckets := d.buckets.dropWhile (·.deadline ≤ d.now + ms) } :=
    h.mono (List.dropWhile_sublist _).subset (List.Sublist.refl _)
  have hfired := hrest.sameQueue (SameQueue.foldl SameQueue.fireTimer _
    (d.buckets.takeWhile (·.deadline ≤ d.now + ms)))
  exact hfired.mono (fun _ hb => hb) (List.Sublist.refl _)

theorem step (h : BurstsKnown d) (a : Action) : BurstsKnown (d.step a) := by
  cases a with
  | event ev => exact h.onEvent ev
  | sweep ruleIndex tasks =>
    simp only [WftRouterDaemon.step, sweepRule]
    split
    · exact h
    · split
      · exact h
      · exact h.dispatchRule _ _
  | wait ms => exact h.wait ms
  | settle i result =>
    simp only [WftRouterDaemon.step, settle]
    split
    · exact h
    · exact h.mono (fun _ hb => hb) (List.Sublist.refl _)
  | stop =>
    have hrest : BurstsKnown { d with buckets := [] } := fun _ hb => absurd hb List.not_mem_nil
    exact hrest.sameQueue (SameQueue.foldl SameQueue.fireBucket _ d.buckets)
  | start deps => exact fun _ hb => absurd hb List.not_mem_nil

/-- In every state that a daemon reaches, every bucket that waits holds a burst. -/
theorem run (h : BurstsKnown d) (acts : List Action) :
    BurstsKnown (acts.foldl WftRouterDaemon.step d) := by
  induction acts generalizing d with
  | nil => exact h
  | cons a rest ih => exact ih (h.step a)

end BurstsKnown

/-! ## Tokens -/

/-- The tokens of a rule at this moment, in parts. -/
def tokensOf (d : WftRouterDaemon) (ruleId : String) : Nat :=
  (refillBucket (tokensPerMinute d.deps) d.now (d.rateLimiter ruleId)).tokens

/-- The bucket has been refilled by now, so it does not change before the clock moves on. -/
theorem refillBucket_again (tokensPerMinute now : Nat) (b : Option TokenBucket) (tokens : Nat) :
    refillBucket tokensPerMinute now
        (some { refillBucket tokensPerMinute now b with tokens }) =
      { refillBucket tokensPerMinute now b with tokens } := by
  have hlast : ¬ (refillBucket tokensPerMinute now b).lastRefillMs < now := by
    cases b with
    | none => simp [refillBucket]
    | some bucket =>
      unfold refillBucket
      dsimp only
      split
      · simp
      · assumption
  rw [refillBucket, if_neg hlast]

/-- A dispatch: with a token it takes it and calls the handler, without one it does neither. -/
theorem dispatch_spec (d : WftRouterDaemon) (rule : Rule) (payload : DispatchPayload) :
    (tokenUnit ≤ d.tokensOf rule.name →
      (d.dispatch rule payload).tokensOf rule.name = d.tokensOf rule.name - tokenUnit ∧
      (d.dispatch rule payload).invocations =
        d.invocations ++ [d.invocation rule.doHandler payload]) ∧
    (¬ tokenUnit ≤ d.tokensOf rule.name →
      (d.dispatch rule payload).tokensOf rule.name = d.tokensOf rule.name ∧
      (d.dispatch rule payload).invocations = d.invocations) := by
  unfold dispatch RateLimiter.tryAcquire
  constructor
  · intro htoken
    unfold tokensOf at htoken
    simp only [if_pos htoken]
    refine ⟨?_, rfl⟩
    simp [tokensOf, invoke, refillBucket_again]
  · intro hdry
    unfold tokensOf at hdry
    simp only [if_neg hdry]
    refine ⟨?_, trivial⟩
    simp [tokensOf, refillBucket_again _ _ _
      (refillBucket (tokensPerMinute d.deps) d.now (d.rateLimiter rule.name)).tokens]

end WoodFiredTasks.Router.WftRouterDaemon
