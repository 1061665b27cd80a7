import Mathlib.Data.List.Nodup
import Mathlib.Data.List.TakeWhile
import WoodFiredTasks.Router.DaemonSpec
import WoodFiredTasks.Router.Handlers

set_option autoImplicit false

/-! # The fan-out of the rules

What a sequence of events should make the daemon do is one invocation for every rule that an event
matches, with the rule's own handler and block and the event's own identity, claimed. The daemon
does exactly this when the keys of all these dispatches are new and distinct and their blocks
render (`fanOut_faithful_iff`). The loader asks neither of a config: two rules may have one name,
so that one is merged into the other or suppressed by it, and a block may hold a token that only
the renderer refuses (`fanOut_unfaithful`). -/

namespace WoodFiredTasks.Router

namespace WftRouterDaemon

/-! ## What should happen -/

/-- What is to become of a payload: the rule's own handler is run on it, and claims it. -/
def expectedInvocation (deps : DaemonDeps) (payload : DispatchPayload) : Invocation where
  handler := payload.rule.doHandler
  ctx := buildContext deps payload.rule payload.event payload.identity
  origin := payload.origin
  claim := some .claimed

/-- The payloads that come with an action. -/
def arrivals (deps : DaemonDeps) : Action → List DispatchPayload
  | .event ev => payloads deps ev
  | _ => []

/-- The payloads of all events of a run. -/
def pipelined (deps : DaemonDeps) (acts : List Action) : List DispatchPayload :=
  acts.flatMap (arrivals deps)

/-- The invocations of the run are those that should be: for every event and rule that match one,
    and no other. -/
def FanOutFaithful (d : WftRouterDaemon) (acts : List Action) : Prop :=
  (acts.foldl step d).invocations.Perm ((pipelined d.deps acts).map (expectedInvocation d.deps))

/-- A sequence of events that come more than the window apart, while time passes and attempts end;
    it is followed by as long a pause. `since` is the time since the last event. -/
def spaced (windowMs : Nat) : Nat → List Action → Bool
  | since, [] => windowMs < since
  | since, .event _ :: rest => windowMs < since && spaced windowMs 0 rest
  | since, .wait ms :: rest => spaced windowMs (since + ms) rest
  | since, .settle .. :: rest => spaced windowMs since rest
  | _, _ :: _ => false

/-! ## Nothing is dropped -/

section

variable {d : WftRouterDaemon}

/-- What is dropped is never forgotten. -/
theorem dropped_dispatch_nil {rule : Rule} {payload : DispatchPayload}
    (h : (d.dispatch rule payload).dropped = []) :
    d.dropped = [] ∧ ∃ rateLimiter,
      d.dispatch rule payload = { d with rateLimiter }.invoke rule.doHandler payload := by
  unfold dispatch at h ⊢
  split at h
  · next rateLimiter hacquire => exact ⟨h, rateLimiter, rfl⟩
  · simp at h

theorem dropped_foldl_nil {β : Type} {f : WftRouterDaemon → β → WftRouterDaemon}
    (hf : ∀ d x, (f d x).dropped = [] → d.dropped = []) (xs : List β)
    (h : (xs.foldl f d).dropped = []) : d.dropped = [] := by
  induction xs generalizing d with
  | nil => exact h
  | cons x rest ih => exact hf d x (ih h)

theorem dropped_dispatchRule_nil {rule : Rule} {mapped : MappedEvent}
    (h : (d.dispatchRule rule mapped).dropped = []) : d.dropped = [] := by
  unfold dispatchRule at h
  dsimp only at h
  split at h
  · exact (dropped_dispatch_nil h).1
  · exact h

theorem dropped_fireTimer_nil {bucket : Bucket DispatchPayload Rule}
    (h : (d.fireTimer bucket).dropped = []) : d.dropped = [] :=
  dropped_foldl_nil (d := { d with now := bucket.deadline })
    (fun _ _ h => (dropped_dispatch_nil h).1) bucket.subscribers h

theorem dropped_onEvent_nil {ev : SSEEvent} (h : (d.onEvent ev).dropped = []) :
    d.dropped = [] := by
  unfold onEvent at h
  split at h
  · exact h
  · split at h
    · exact h
    · exact dropped_foldl_nil (fun _ _ => dropped_dispatchRule_nil) _ h

theorem dropped_step_nil {a : Action} (h : (d.step a).dropped = []) : d.dropped = [] := by
  cases a with
  | event ev => exact dropped_onEvent_nil h
  | sweep ruleIndex tasks =>
    simp only [step] at h
    split at h
    · exact h
    · unfold sweepRule at h
      split at h
      · exact h
      · exact dropped_dispatchRule_nil h
  | wait ms =>
    exact dropped_foldl_nil (f := fireTimer)
      (d := { d with buckets := d.buckets.dropWhile (·.deadline ≤ d.now + ms) })
      (fun _ _ => dropped_fireTimer_nil) (d.buckets.takeWhile (·.deadline ≤ d.now + ms)) h
  | settle i result =>
    simp only [step, settle] at h
    split at h <;> exact h
  | stop =>
    refine dropped_foldl_nil (d := { d with buckets := [] }) (fun d bucket h => ?_) d.buckets h
    exact dropped_foldl_nil (fun _ _ h => (dropped_dispatch_nil h).1) bucket.subscribers h
  | start deps => exact h

end

/-! ## Serving payloads -/

/-- The daemon has run the handlers of the payloads, each claimed, and nothing else. -/
structure Served (d d' : WftRouterDaemon) (served : List DispatchPayload) : Prop where
  deps : d'.deps = d.deps
  keys : d'.store.keys = d.store.keys ++ served.map (·.identity.key)
  invocations : d'.invocations = d.invocations ++ served.map (expectedInvocation d.deps)

variable {d d' d'' : WftRouterDaemon} {served served' : List DispatchPayload}

theorem Served.refl (d : WftRouterDaemon) : Served d d [] := ⟨rfl, by simp, by simp⟩

theorem Served.trans (h : Served d d' served) (h' : Served d' d'' served') :
    Served d d'' (served ++ served') where
  deps := h'.deps.trans h.deps
  keys := by rw [h'.keys, h.keys, List.map_append, List.append_assoc]
  invocations := by
    rw [h'.invocations, h.invocations, h.deps, List.map_append, List.append_assoc]

/-- A payload with a new key is served, by its own rule. -/
theorem served_dispatch (payload : DispatchPayload) (hrenders : payload.rule.renders = true)
    (hnew : payload.identity.key ∉ d.store.keys)
    (hdropped : (d.dispatch payload.rule payload).dropped = []) :
    Served d (d.dispatch payload.rule payload) [payload] ∧
      (d.dispatch payload.rule payload).buckets = d.buckets ∧
      (d.dispatch payload.rule payload).now = d.now := by
  obtain ⟨-, rateLimiter, heq⟩ := dropped_dispatch_nil hdropped
  rw [heq]
  have hclaim : ({ d with rateLimiter }.invocation payload.rule.doHandler payload) =
      expectedInvocation d.deps payload := by
    obtain ⟨block, hresolve⟩ := (Rule.resolve_iff payload.rule (buildContext d.deps
      payload.rule payload.event payload.identity) rfl).2 hrenders
    unfold invocation expectedInvocation
    dsimp only
    rw [HandlerSpec.attempt_of_notMem hresolve hnew]
    cases (defaultHandlerRegistry payload.rule.doHandler).configError block <;> rfl
  refine ⟨⟨rfl, ?_, ?_⟩, rfl, rfl⟩
  · rw [keys_invoke, hclaim]
    simp [claimedKeys, expectedInvocation]
  · rw [invocations_invoke, hclaim]
    simp

/-! ## Timers -/

/-- The bucket was filled by one push. -/
def Single (bucket : Bucket DispatchPayload Rule) : Prop :=
  bucket.subscribers = [bucket.latestPayload.rule] ∧ bucket.latestPayload.rule.renders = true

/-- Buckets of one push each, with new keys, are all served. -/
theorem served_fireTimers {buckets : List (Bucket DispatchPayload Rule)}
    (hsingle : ∀ bucket ∈ buckets, Single bucket)
    (hkeys : (d.store.keys ++ buckets.map (·.latestPayload.identity.key)).Nodup)
    (hdropped : (buckets.foldl fireTimer d).dropped = []) :
    Served d (buckets.foldl fireTimer d) (buckets.map (·.latestPayload)) ∧
      (buckets.foldl fireTimer d).buckets = d.buckets := by
  induction buckets generalizing d with
  | nil => exact ⟨Served.refl d, rfl⟩
  | cons bucket rest ih =>
    obtain ⟨hsubscribers, hrenders⟩ := hsingle bucket List.mem_cons_self
    have hfirst : (d.fireTimer bucket).dropped = [] :=
      dropped_foldl_nil (fun _ _ => dropped_fireTimer_nil) rest hdropped
    have hdispatch : d.fireTimer bucket =
        { d with now := bucket.deadline }.dispatch bucket.latestPayload.rule
          bucket.latestPayload := by
      simp [fireTimer, fireBucket, hsubscribers]
    rw [List.map_cons, List.nodup_middle] at hkeys
    have hnew : bucket.latestPayload.identity.key ∉ d.store.keys := by
      intro hmem
      exact (List.nodup_cons.1 hkeys).1 (List.mem_append_left _ hmem)
    rw [hdispatch] at hfirst
    obtain ⟨hserved, hbuckets, -⟩ :=
      served_dispatch (d := { d with now := bucket.deadline }) bucket.latestPayload hrenders hnew hfirst
    rw [← hdispatch] at hserved hbuckets
    have hserved : Served d (d.fireTimer bucket) [bucket.latestPayload] :=
      ⟨hserved.deps, hserved.keys, hserved.invocations⟩
    have hrest : ((d.fireTimer bucket).store.keys ++
        rest.map (·.latestPayload.identity.key)).Nodup := by
      rw [hserved.keys, List.append_assoc, List.map_singleton, List.singleton_append,
        List.nodup_middle]
      exact hkeys
    obtain ⟨hservedRest, hbucketsRest⟩ :=
      ih (fun b hb => hsingle b (List.mem_cons_of_mem _ hb)) hrest hdropped
    exact ⟨hserved.trans hservedRest, hbucketsRest.trans hbuckets⟩

/-! ## One event -/

/-- The rule's events go past the debouncer. -/
def immediate (rule : Rule) : Bool := rule.debounceMs = some 0

/-- The bucket of a first push. -/
def freshBucket (d : WftRouterDaemon) (mapped : MappedEvent) (rule : Rule) :
    Bucket DispatchPayload Rule where
  key := compoundKey rule.name (eventKey mapped)
  latestPayload := dispatchPayload rule mapped
  coalescedCount := 1
  deadline := d.now + windowMs d.deps
  subscribers := [rule]

theorem compoundKey_inj {ruleId ruleId' eventKey : String}
    (h : compoundKey ruleId eventKey = compoundKey ruleId' eventKey) : ruleId = ruleId' := by
  have hlist := congrArg String.toList h
  simp only [compoundKey, String.toList_append, List.append_cancel_right_eq] at hlist
  exact String.toList_inj.1 hlist

/-- A rule without a debounce is served when it is looked at. -/
theorem served_immediate {mapped : MappedEvent} {rule : Rule} (himmediate : immediate rule = true)
    (hrenders : rule.renders = true) (hnew : (rule.name, mapped.eventId) ∉ d.store.keys)
    (hdropped : (d.dispatchRule rule mapped).dropped = []) :
    Served d (d.dispatchRule rule mapped) [dispatchPayload rule mapped] ∧
      (d.dispatchRule rule mapped).buckets = d.buckets ∧
      (d.dispatchRule rule mapped).now = d.now := by
  have hdispatch : d.dispatchRule rule mapped =
      { d with seen := d.seen ++ [dispatchPayload rule mapped] }.dispatch rule
        (dispatchPayload rule mapped) := by
    unfold dispatchRule
    rw [if_pos (by simpa [immediate] using himmediate)]
  rw [hdispatch] at hdropped ⊢
  obtain ⟨hserved, hbuckets, hnow⟩ := served_dispatch
    (d := { d with seen := d.seen ++ [dispatchPayload rule mapped] }) (dispatchPayload rule mapped)
    hrenders hnew hdropped
  exact ⟨⟨hserved.deps, hserved.keys, hserved.invocations⟩, hbuckets, hnow⟩

/-- Any other rule gets a bucket, if it has none. -/
theorem dispatchRule_debounced {mapped : MappedEvent} {rule : Rule}
    (hdebounced : immediate rule = false)
    (hbuckets : ∀ bucket ∈ d.buckets, bucket.key ≠ compoundKey rule.name (eventKey mapped)) :
    Served d (d.dispatchRule rule mapped) [] ∧
      (d.dispatchRule rule mapped).buckets = d.buckets ++ [freshBucket d mapped rule] ∧
      (d.dispatchRule rule mapped).now = d.now := by
  have hnone : d.buckets.find? (·.key = compoundKey rule.name (eventKey mapped)) = none := by
    simpa using hbuckets
  have hpush : ¬ rule.debounceMs = some 0 := by simpa [immediate] using hdebounced
  unfold dispatchRule
  dsimp only
  rw [if_neg hpush]
  refine ⟨⟨rfl, by simp [push], by simp [push]⟩, ?_, rfl⟩
  simp [push, Debouncer.push, hnone, freshBucket]

/-- Rules of different names are each served at once or get a bucket of their own. -/
theorem served_fanOut {mapped : MappedEvent} {rules : List Rule}
    (hrenders : ∀ rule ∈ rules, rule.renders = true)
    (hkeys : (d.store.keys ++ rules.map fun rule => (rule.name, mapped.eventId)).Nodup)
    (hbuckets : ∀ bucket ∈ d.buckets, ∀ rule ∈ rules,
      bucket.key ≠ compoundKey rule.name (eventKey mapped))
    (hdropped : (rules.foldl (fun d rule => d.dispatchRule rule mapped) d).dropped = []) :
    let d' := rules.foldl (fun d rule => d.dispatchRule rule mapped) d
    Served d d' ((rules.filter immediate).map (dispatchPayload · mapped)) ∧
      d'.buckets = d.buckets ++ (rules.filter (!immediate ·)).map (freshBucket d mapped) ∧
      d'.now = d.now := by
  induction rules generalizing d with
  | nil => exact ⟨Served.refl d, by simp, rfl⟩
  | cons rule rest ih =>
    have hfirst : (d.dispatchRule rule mapped).dropped = [] :=
      dropped_foldl_nil (fun _ _ => dropped_dispatchRule_nil) rest hdropped
    have hrule := hrenders rule List.mem_cons_self
    have hrendersRest : ∀ r ∈ rest, r.renders = true :=
      fun r hr => hrenders r (List.mem_cons_of_mem _ hr)
    rw [List.map_cons, List.nodup_middle] at hkeys
    obtain ⟨hnotMem, hkeysRest⟩ := List.nodup_cons.1 hkeys
    cases himmediate : immediate rule with
    | true =>
      -- the rule is served before the next one is looked at
      have hnew : (rule.name, mapped.eventId) ∉ d.store.keys := by
        intro hmem
        exact hnotMem (List.mem_append_left _ hmem)
      obtain ⟨hserved, hkept, hnow⟩ := served_immediate himmediate hrule hnew hfirst
      have hkeysNext : ((d.dispatchRule rule mapped).store.keys ++
          rest.map fun rule => (rule.name, mapped.eventId)).Nodup := by
        rw [hserved.keys, List.append_assoc, List.map_singleton, List.singleton_append,
          List.nodup_middle]
        exact hkeys
      have hbucketsNext : ∀ bucket ∈ (d.dispatchRule rule mapped).buckets, ∀ r ∈ rest,
          bucket.key ≠ compoundKey r.name (eventKey mapped) := by
        intro bucket hbucket r hr
        exact hbuckets bucket (hkept ▸ hbucket) r (List.mem_cons_of_mem _ hr)
      obtain ⟨hservedRest, hbucketsRest, hnowRest⟩ :=
        ih hrendersRest hkeysNext hbucketsNext hdropped
      have hfresh : freshBucket (d.dispatchRule rule mapped) mapped = freshBucket d mapped := by
        unfold freshBucket
        rw [hnow, hserved.deps]
      refine ⟨?_, ?_, hnowRest.trans hnow⟩
      · simpa [himmediate] using hserved.trans hservedRest
      · simpa [himmediate, hkept, hfresh] using hbucketsRest
    | false =>
      -- the rule gets a bucket, which the others do not touch
      have hown : ∀ bucket ∈ d.buckets,
          bucket.key ≠ compoundKey rule.name (eventKey mapped) :=
        fun bucket hbucket => hbuckets bucket hbucket rule List.mem_cons_self
      obtain ⟨hserved, hpushed, hnow⟩ := dispatchRule_debounced himmediate hown
      have hkeysNext : ((d.dispatchRule rule mapped).store.keys ++
          rest.map fun rule => (rule.name, mapped.eventId)).Nodup := by
        rw [hserved.keys, List.map_nil, List.append_nil]
        exact hkeysRest
      have hbucketsNext : ∀ bucket ∈ (d.dispatchRule rule mapped).buckets, ∀ r ∈ rest,
          bucket.key ≠ compoundKey r.name (eventKey mapped) := by
        intro bucket hbucket r hr
        rw [hpushed, List.mem_append, List.mem_singleton] at hbucket
        rcases hbucket with hbucket | rfl
        · exact hbuckets bucket hbucket r (List.mem_cons_of_mem _ hr)
        · intro heq
          have hname : rule.name = r.name := compoundKey_inj heq
          rw [hname] at hnotMem
          exact hnotMem (List.mem_append_right _ (List.mem_map.2 ⟨r, hr, rfl⟩))
      obtain ⟨hservedRest, hbucketsRest, hnowRest⟩ :=
        ih hrendersRest hkeysNext hbucketsNext hdropped
      have hfresh : freshBucket (d.dispatchRule rule mapped) mapped = freshBucket d mapped := by
        unfold freshBucket
        rw [hnow, hserved.deps]
      refine ⟨?_, ?_, hnowRest.trans hnow⟩
      · simpa [himmediate] using hserved.trans hservedRest
      · simpa [himmediate, hpushed, hfresh] using hbucketsRest

/-! ## A sequence of events -/

/-- The buckets are those of the last event, `since` milliseconds ago, and are gone once the window
    has passed. -/
structure Waiting (d : WftRouterDaemon) (since : Nat) : Prop where
  single : ∀ bucket ∈ d.buckets, Single bucket
  deadline : ∀ bucket ∈ d.buckets, bucket.deadline + since = d.now + windowMs d.deps
  fired : windowMs d.deps < since → d.buckets = []

/-- While the window has not passed, no timer is due. -/
theorem wait_early {since ms : Nat} (hwaiting : Waiting d since)
    (hearly : since + ms < windowMs d.deps) :
    Served d (d.wait ms) [] ∧ (d.wait ms).buckets = d.buckets ∧ Waiting (d.wait ms) (since + ms) := by
  have hlate : ∀ bucket ∈ d.buckets, ¬ bucket.deadline ≤ d.now + ms := by
    intro bucket hbucket
    have := hwaiting.deadline bucket hbucket
    omega
  have hwait : d.wait ms = { d with now := d.now + ms } := by
    unfold wait
    cases hbuckets : d.buckets with
    | nil => simp
    | cons bucket rest =>
      have hfirst := hlate bucket (by simp [hbuckets])
      simp [hfirst]
  rw [hwait]
  refine ⟨⟨rfl, by simp, by simp⟩, rfl, hwaiting.single, ?_, ?_⟩
  · intro bucket hbucket
    have := hwaiting.deadline bucket hbucket
    show bucket.deadline + (since + ms) = d.now + ms + windowMs d.deps
    omega
  · intro hpassed
    exact absurd hearly (by simpa using hpassed.le)

/-- Once it has, all are. -/
theorem wait_late {since : Nat} (ms : Nat) (hwaiting : Waiting d since)
    (hlate : windowMs d.deps ≤ since + ms)
    (hkeys : (d.store.keys ++ d.buckets.map (·.latestPayload.identity.key)).Nodup)
    (hdropped : (d.wait ms).dropped = []) :
    Served d (d.wait ms) (d.buckets.map (·.latestPayload)) ∧ (d.wait ms).buckets = [] := by
  have hdue : ∀ bucket ∈ d.buckets, decide (bucket.deadline ≤ d.now + ms) = true := by
    intro bucket hbucket
    have := hwaiting.deadline bucket hbucket
    rw [decide_eq_true_eq]
    omega
  have hwait : d.wait ms =
      { d.buckets.foldl fireTimer { d with buckets := [] } with now := d.now + ms } := by
    unfold wait
    rw [List.takeWhile_eq_self_iff.2 hdue, List.dropWhile_eq_nil_iff.2 hdue]
  rw [hwait] at hdropped ⊢
  obtain ⟨hserved, hbuckets⟩ :=
    served_fireTimers (d := { d with buckets := [] }) hwaiting.single hkeys hdropped
  exact ⟨⟨hserved.deps, hserved.keys, hserved.invocations⟩, hbuckets⟩

/-- The keys of the payloads. -/
def keysOf (payloads : List DispatchPayload) : List DispatchKey := payloads.map (·.identity.key)

/-- What the daemon has served or keeps in a bucket after an event. -/
theorem served_onEvent {ev : SSEEvent} (hidle : d.buckets = [])
    (hrenders : ∀ payload ∈ payloads d.deps ev, payload.rule.renders = true)
    (hkeys : (d.store.keys ++ keysOf (payloads d.deps ev)).Nodup)
    (hdropped : (d.onEvent ev).dropped = []) :
    ∃ served, Served d (d.onEvent ev) served ∧ Waiting (d.onEvent ev) 0 ∧
      (served ++ (d.onEvent ev).buckets.map (·.latestPayload)).Perm (payloads d.deps ev) := by
  have hnothing : Waiting d 0 := ⟨by simp [hidle], by simp [hidle], fun _ => hidle⟩
  unfold payloads at hrenders hkeys ⊢
  unfold onEvent at hdropped ⊢
  split at hdropped
  · next hcontrol =>
    rw [if_pos hcontrol, if_pos hcontrol]
    exact ⟨[], Served.refl d, hnothing, by simp [hidle]⟩
  · next hcontrol =>
    rw [if_neg hcontrol] at hrenders hkeys ⊢
    rw [if_neg hcontrol]
    cases hmap : mapSSEEvent ev with
    | none => exact ⟨[], Served.refl d, hnothing, by simp [hidle]⟩
    | some mapped =>
      simp only [hmap] at hrenders hkeys hdropped ⊢
      have hrendersRules : ∀ rule ∈ matched d.deps mapped, rule.renders = true := by
        intro rule hrule
        exact hrenders (dispatchPayload rule mapped) (List.mem_map_of_mem hrule)
      have hkeysRules : (d.store.keys ++
          (matched d.deps mapped).map fun rule => (rule.name, mapped.eventId)).Nodup := by
        simpa [keysOf, dispatchPayload, DispatchIdentity.key, Function.comp_def] using hkeys
      have hfree : ∀ bucket ∈ d.buckets, ∀ rule ∈ matched d.deps mapped,
          bucket.key ≠ compoundKey rule.name (eventKey mapped) := by
        simp [hidle]
      obtain ⟨hserved, hbuckets, hnow⟩ :=
        served_fanOut hrendersRules hkeysRules hfree hdropped
      rw [hidle, List.nil_append] at hbuckets
      change (d.fanOut mapped).buckets = _ at hbuckets
      change (d.fanOut mapped).now = _ at hnow
      change Served d (d.fanOut mapped) _ at hserved
      refine ⟨_, hserved, ⟨?_, ?_, ?_⟩, ?_⟩
      · intro bucket hbucket
        rw [hbuckets] at hbucket
        obtain ⟨rule, hrule, rfl⟩ := List.mem_map.1 hbucket
        exact ⟨rfl, hrendersRules rule (List.mem_of_mem_filter hrule)⟩
      · intro bucket hbucket
        rw [hbuckets] at hbucket
        obtain ⟨rule, hrule, rfl⟩ := List.mem_map.1 hbucket
        rw [hnow, hserved.deps]
        rfl
      · intro hpassed
        exact absurd hpassed (Nat.not_lt_zero _)
      · rw [hbuckets, List.map_map]
        have hpartition := List.filter_append_perm immediate (matched d.deps mapped)
        have hpayloads := hpartition.map (dispatchPayload · mapped)
        simpa [Function.comp_def, freshBucket] using hpayloads

/-- What is pending or comes with the next action of a sequence is, after it, served or
    pending. -/
theorem served_step {a : Action} {rest : List Action} {since : Nat}
    (hspaced : spaced (windowMs d.deps) since (a :: rest) = true) (hwaiting : Waiting d since)
    (hrenders : ∀ payload ∈ arrivals d.deps a, payload.rule.renders = true)
    (hkeys : (d.store.keys ++ keysOf (d.buckets.map (·.latestPayload) ++ arrivals d.deps a)).Nodup)
    (hdropped : (d.step a).dropped = []) :
    ∃ since' served, spaced (windowMs d.deps) since' rest = true ∧ Served d (d.step a) served ∧
      Waiting (d.step a) since' ∧ (served ++ (d.step a).buckets.map (·.latestPayload)).Perm
        (d.buckets.map (·.latestPayload) ++ arrivals d.deps a) := by
  cases a with
  | event ev =>
    simp only [spaced, Bool.and_eq_true, decide_eq_true_eq] at hspaced
    have hidle := hwaiting.fired hspaced.1
    simp only [hidle, List.map_nil, List.nil_append] at hkeys ⊢
    obtain ⟨served, hserved, hwaiting', hperm⟩ := served_onEvent hidle hrenders hkeys hdropped
    exact ⟨0, served, hspaced.2, hserved, hwaiting', hperm⟩
  | wait ms =>
    simp only [arrivals, List.append_nil] at hkeys ⊢
    by_cases hearly : since + ms < windowMs d.deps
    · obtain ⟨hserved, hbuckets, hwaiting'⟩ := wait_early hwaiting hearly
      refine ⟨since + ms, [], hspaced, hserved, hwaiting', ?_⟩
      show (List.map _ (d.wait ms).buckets).Perm _
      rw [hbuckets]
    · obtain ⟨hserved, hbuckets⟩ := wait_late ms hwaiting (by omega)
        (by simpa [keysOf, Function.comp_def] using hkeys) hdropped
      have hidle : (d.step (.wait ms)).buckets = [] := hbuckets
      refine ⟨since + ms, _, hspaced, hserved, ⟨?_, ?_, fun _ => hidle⟩, ?_⟩
      · simp [hidle]
      · simp [hidle]
      · simp [hidle]
  | settle i result =>
    have hsame : (d.settle i result).buckets = d.buckets ∧ (d.settle i result).now = d.now ∧
        (d.settle i result).deps = d.deps := by
      unfold settle
      split <;> exact ⟨rfl, rfl, rfl⟩
    obtain ⟨hbuckets, hnow, hdeps⟩ := hsame
    refine ⟨since, [], hspaced, ⟨hdeps, ?_, ?_⟩, ⟨?_, ?_, ?_⟩, ?_⟩
    · simp [step]
    · simp [step]
    · simpa [step, hbuckets] using hwaiting.single
    · simpa [step, hbuckets, hnow, hdeps] using hwaiting.deadline
    · simpa [step, hbuckets, hdeps] using hwaiting.fired
    · simp [step, hbuckets, arrivals]
  | sweep ruleIndex tasks => simp [spaced] at hspaced
  | stop => simp [spaced] at hspaced
  | start deps => simp [spaced] at hspaced

/-- A sequence of events is served with all that was pending, if nothing is dropped and the keys
    are new. -/
theorem served_run {acts : List Action} {since : Nat}
    (hspaced : spaced (windowMs d.deps) since acts = true) (hwaiting : Waiting d since)
    (hrenders : ∀ payload ∈ pipelined d.deps acts, payload.rule.renders = true)
    (hkeys : (d.store.keys ++
      keysOf (d.buckets.map (·.latestPayload) ++ pipelined d.deps acts)).Nodup)
    (hdropped : (acts.foldl step d).dropped = []) :
    (acts.foldl step d).invocations.Perm (d.invocations ++
      (d.buckets.map (·.latestPayload) ++ pipelined d.deps acts).map
        (expectedInvocation d.deps)) := by
  induction acts generalizing d since with
  | nil =>
    have hidle := hwaiting.fired (by simpa [spaced] using hspaced)
    simp [hidle, pipelined]
  | cons a rest ih =>
    have hpipelined : pipelined d.deps (a :: rest) =
        arrivals d.deps a ++ pipelined d.deps rest := by
      simp [pipelined]
    rw [hpipelined] at hrenders hkeys ⊢
    have hfirst : (d.step a).dropped = [] :=
      dropped_foldl_nil (fun _ _ => dropped_step_nil) rest hdropped
    have hkeysFirst : (d.store.keys ++
        keysOf (d.buckets.map (·.latestPayload) ++ arrivals d.deps a)).Nodup := by
      refine hkeys.sublist ?_
      simp [keysOf]
    obtain ⟨since', served, hspacedRest, hserved, hwaitingRest, hperm⟩ :=
      served_step hspaced hwaiting (fun p hp => hrenders p (List.mem_append_left _ hp))
        hkeysFirst hfirst
    have hmoved : (served ++ ((d.step a).buckets.map (·.latestPayload) ++
        pipelined d.deps rest)).Perm
        (d.buckets.map (·.latestPayload) ++ (arrivals d.deps a ++ pipelined d.deps rest)) := by
      rw [← List.append_assoc, ← List.append_assoc]
      exact hperm.append_right _
    rw [← hserved.deps] at hspacedRest hrenders hmoved
    have hkeysRest : ((d.step a).store.keys ++ keysOf ((d.step a).buckets.map (·.latestPayload) ++
        pipelined (d.step a).deps rest)).Nodup := by
      rw [hserved.keys, List.append_assoc]
      have hperm' := (hmoved.map fun p => p.identity.key).append_left d.store.keys
      rw [List.map_append] at hperm'
      exact hperm'.nodup_iff.2 (by simpa [keysOf, hserved.deps] using hkeys)
    have hrest := ih hspacedRest hwaitingRest
      (fun p hp => hrenders p (List.mem_append_right _ hp)) hkeysRest hdropped
    refine hrest.trans ?_
    rw [hserved.invocations, hserved.deps, List.append_assoc, ← List.map_append]
    rw [hserved.deps] at hmoved
    exact (hmoved.map _).append_left _

/-! ## The results -/

/-- The keys of what should be dispatched are new to the store and distinct. -/
def KeysNew (store : IdempotencyStore) (payloads : List DispatchPayload) : Prop :=
  (store.keys ++ keysOf payloads).Nodup

instance (store : IdempotencyStore) (payloads : List DispatchPayload) :
    Decidable (KeysNew store payloads) :=
  inferInstanceAs (Decidable (List.Nodup _))

theorem claimedKeys_expected (deps : DaemonDeps) (payloads : List DispatchPayload) :
    claimedKeys (payloads.map (expectedInvocation deps)) = keysOf payloads := by
  simp [claimedKeys, keysOf, expectedInvocation, List.filter_eq_self.2, Function.comp_def]

/-- **Main theorem.** Over a sequence of events that come more than the window apart, of which the
    rate limiter drops none, every event makes every rule that it matches run once, with the
    rule's own handler and block, the event's own identity and a claim of its own, and nothing
    else is run, exactly when the keys of these dispatches are new and distinct and the blocks of
    the rules render. -/
theorem fanOut_faithful_iff (deps : DaemonDeps) (now : Nat) (store : IdempotencyStore)
    (acts : List Action) (hspaced : spaced (windowMs deps) (windowMs deps + 1) acts = true)
    (hdropped : (acts.foldl step { deps, now, store }).dropped = []) :
    FanOutFaithful { deps, now, store } acts ↔
      KeysNew store (pipelined deps acts) ∧
        ∀ payload ∈ pipelined deps acts, payload.rule.renders = true := by
  constructor
  · intro hfaithful
    constructor
    · have hclaimed := (hfaithful.filter (·.claim = some .claimed)).map (·.ctx.identity.key)
      have hkeys : (claimedKeys (acts.foldl step { deps, now, store }).invocations).Perm
          (keysOf (pipelined deps acts)) := by
        rw [← claimedKeys_expected deps]
        exact hclaimed
      exact (hkeys.append_left store.keys).nodup_iff.1 (claimedKeys_nodup deps now store acts)
    · intro payload hpayload
      have hinvoked := hfaithful.mem_iff.2 (List.mem_map_of_mem hpayload)
      have hstart : ClaimsResolved { deps, now, store } := by simp [ClaimsResolved]
      have hresolved := (claimsResolved_closed.run hstart acts _ hinvoked).not_left.1
        (by simp [expectedInvocation])
      exact (Rule.resolve_iff payload.rule (buildContext deps payload.rule payload.event
        payload.identity) rfl).1 hresolved
  · intro ⟨hkeys, hrenders⟩
    have hwaiting : Waiting { deps, now, store } (windowMs deps + 1) :=
      ⟨by simp, by simp, fun _ => rfl⟩
    exact served_run (d := { deps, now, store }) hspaced hwaiting hrenders hkeys hdropped

/-! One new task, and a daemon with two rules for new tasks. -/

def postRule (name url : String) : Rule where
  name
  on := .taskCreated
  doHandler := .webhookPost
  withBlock := [("url", .str url)]

def rulesDeps (rules : List Rule) : DaemonDeps where
  config := { rules }
  apiBaseUrl := "https://tasks.local"
  apiKey := "key"
  env := fun _ => none

def createdFrame : SSEEvent where
  id := some "1"
  event := some "task.created"
  data := some { data := some { id := some 7, status := some "open" } }
  origin := ⟨0, 1⟩

def oneEvent : List Action := [.event createdFrame, .wait 2000]

def twoNames : DaemonDeps :=
  rulesDeps [postRule "first" "https://first.local", postRule "second" "https://second.local"]

def oneName : DaemonDeps :=
  rulesDeps [postRule "notify" "https://first.local", postRule "notify" "https://second.local"]

/-- The token is one for the loader, which asks for no `task.` in it. -/
def foreignToken : DaemonDeps := rulesDeps [postRule "notify" "{{title}}"]

/-- Two rules of different names are both run. -/
theorem fanOut_faithful_twoNames : FanOutFaithful { deps := twoNames, now := 0 } oneEvent :=
  (fanOut_faithful_iff twoNames 0 .empty oneEvent (by decide +kernel) (by decide +kernel)).2
    ⟨by decide +kernel, by decide +kernel⟩

/-- Of two rules of one name the second is suppressed; a block with a token that is no path of the
    task never gets to its claim. The loader accepts both configs. -/
theorem fanOut_unfaithful :
    (oneName.config.accepted = true ∧ spaced (windowMs oneName) 1501 oneEvent = true ∧
      (oneEvent.foldl step { deps := oneName, now := 0 }).dropped = [] ∧
      (oneEvent.foldl step { deps := oneName, now := 0 }).invocations.map (·.claim) =
        [some .claimed, some .alreadyPending] ∧
      ¬ FanOutFaithful { deps := oneName, now := 0 } oneEvent) ∧
    (foreignToken.config.accepted = true ∧ spaced (windowMs foreignToken) 1501 oneEvent = true ∧
      (oneEvent.foldl step { deps := foreignToken, now := 0 }).dropped = [] ∧
      (oneEvent.foldl step { deps := foreignToken, now := 0 }).invocations.map (·.claim) = [none] ∧
      ¬ FanOutFaithful { deps := foreignToken, now := 0 } oneEvent) := by
  refine ⟨⟨by decide +kernel, by decide +kernel, by decide +kernel, by decide +kernel, ?_⟩,
    by decide +kernel, by decide +kernel, by decide +kernel, by decide +kernel, ?_⟩
  · intro hfaithful
    have hclaims := (hfaithful.filter (·.claim = some .claimed)).length_eq
    revert hclaims
    decide +kernel
  · intro hfaithful
    have hclaims := (hfaithful.filter (·.claim = some .claimed)).length_eq
    revert hclaims
    decide +kernel

end WftRouterDaemon

end WoodFiredTasks.Router
