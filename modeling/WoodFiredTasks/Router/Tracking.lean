import Mathlib.Data.List.Nodup
import WoodFiredTasks.Events.SseManager
import WoodFiredTasks.Lib.Text
import WoodFiredTasks.Router.Daemon
import WoodFiredTasks.Router.DaemonSpec
import WoodFiredTasks.Router.Handlers

set_option autoImplicit false

/-! # Payloads on their way

Every payload that was pushed into the pipeline waits in a bucket of its rule, was replaced there,
dropped by the rate limiter, lost with a process, or run by its own rule's handler
(`Tracked`). -/

/-! ## The server and the router

The event stream of the server as the router reads it. Either side may restart at any time; the
daemon reads, in any order, what the server has sent on a connection of the router's. -/

namespace WoodFiredTasks.Router

/-! ## The wire -/

/-- The task row in the JSON of a frame. -/
def wireTask (row : Task) : TaskShape where
  id := some row.id
  projectId := some row.projectId
  status := some row.status.text
  tags := some row.tags
  parentTaskId := some (row.parentTaskId.map fun n => (n : Int))
  assignee := some row.assignee

/-- The row in the JSON of a frame; of a project, rules see the id as if it were a task's. -/
def wireData : EventData → TaskShape
  | .task row => wireTask row
  | .project row => { id := some row.id }

/-- The frame of a broadcast, as `sendEvent` writes it. -/
def wireFrame (b : Broadcast) : SSEEvent where
  id := some (toString b.id)
  event := some b.event.eventType
  data := some
    { eventType := some b.event.eventType
      timestamp := some b.event.timestamp
      data := some (wireData b.event.data)
      metadata := some
        { fromStatus := b.event.fromStatus.map TaskStatus.text
          toStatus := b.event.toStatus.map TaskStatus.text
          source := some (sourceText b.event.source) } }
  origin := ⟨b.boot, b.id⟩

/-! ## The system -/

structure RouterSystem where
  server : SseServer
  daemon : WftRouterDaemon

namespace RouterSystem

/-- The router among the clients of the server. -/
def routerClient : Nat := 0

/-- What the server has sent to the router. -/
def sent (s : RouterSystem) : List Broadcast :=
  (s.server.received.filter (·.1 = routerClient)).map (·.2)

/-- What can happen next. -/
inductive Action where
  | server (a : SseServer.Action)
  | deliver (i : Nat)
  | sweep (ruleIndex : Nat) (tasks : List (Int × TaskShape))
  | wait (ms : Nat)
  | settle (i : Nat) (result : EffectResult)
  | stop
  | start (deps : DaemonDeps)

/-- What an action is to the daemon; `deliver` is the arrival of one of the frames. -/
def daemonAction (s : RouterSystem) : Action → Option WftRouterDaemon.Action
  | .server _ => none
  | .deliver i => s.sent[i]?.map fun b => .event (wireFrame b)
  | .sweep ruleIndex tasks => some (.sweep ruleIndex tasks)
  | .wait ms => some (.wait ms)
  | .settle i result => some (.settle i result)
  | .stop => some .stop
  | .start deps => some (.start deps)

/-- What an action is to the server. -/
def serverAction : Action → Option SseServer.Action
  | .server a => some a
  | _ => none

def step (s : RouterSystem) (a : Action) : RouterSystem where
  server := ((serverAction a).map s.server.step).getD s.server
  daemon := ((s.daemonAction a).map s.daemon.step).getD s.daemon

end RouterSystem

end WoodFiredTasks.Router

namespace WoodFiredTasks.Router

/-! ## Ids and keys -/

/-- The id of a sweep is none of the server's. -/
theorem sweepEventId_ne (name : String) (windowS nowMs n : Nat) :
    WftRouterDaemon.sweepEventId name windowS nowMs ≠ toString n := by
  intro heq
  have hfirst : 's' ∈ (toString n).toList := by
    rw [← heq]
    simp [WftRouterDaemon.sweepEventId]
  exact absurd (isDigit_of_mem_toString hfirst) (by decide)

/-- A compound key names its rule, if no NUL is in the event's part. -/
theorem compoundKey_ruleId_inj {ruleId ruleId' eventKey eventKey' : String}
    (hkey : '\x00' ∉ eventKey.toList) (hkey' : '\x00' ∉ eventKey'.toList)
    (h : compoundKey ruleId eventKey = compoundKey ruleId' eventKey') : ruleId = ruleId' := by
  have hlist := congrArg String.toList h
  simp only [compoundKey, String.toList_append, List.append_assoc] at hlist
  exact String.toList_inj.1 (beforeLast_inj hkey hkey' hlist)

namespace WftRouterDaemon

/-- An event with a task is debounced by the task's number. -/
theorem nul_notMem_eventKey {mapped : MappedEvent} (id : Int)
    (h : mapped.payload.task.bind (·.id) = some id) : '\x00' ∉ (eventKey mapped).toList := by
  unfold eventKey
  rw [h]
  exact nul_notMem_toString_int id

/-! ## What became of a payload -/

/-- The invocation is that of the payload, by the payload's own rule. -/
structure InvokedFor (inv : Invocation) (payload : DispatchPayload) : Prop where
  handler : inv.handler = payload.rule.doHandler
  withBlock : inv.ctx.withBlock = payload.rule.withBlock
  event : inv.ctx.event = payload.event
  identity : inv.ctx.identity = payload.identity
  origin : inv.origin = payload.origin

/-- The payload has left the pipeline. -/
def Handled (d : WftRouterDaemon) (payload : DispatchPayload) : Prop :=
  payload ∈ d.merged ∨ payload ∈ d.dropped ∨ payload ∈ d.lost ∨
    ∃ inv ∈ d.invocations, InvokedFor inv payload

/-- The payloads have been run or dropped, and nothing else has changed. -/
structure Ran (d d' : WftRouterDaemon) (ran : List DispatchPayload) : Prop where
  deps : d'.deps = d.deps
  seen : d'.seen = d.seen
  buckets : d'.buckets = d.buckets
  merged : d'.merged = d.merged
  lost : d'.lost = d.lost
  dropped : ∀ p ∈ d.dropped, p ∈ d'.dropped
  kept : ∀ inv ∈ d.invocations, inv ∈ d'.invocations
  invocations : ∀ inv ∈ d'.invocations, inv ∈ d.invocations ∨ ∃ p ∈ ran, InvokedFor inv p
  handled : ∀ p ∈ ran, Handled d' p

variable {d d' d'' : WftRouterDaemon} {ran ran' : List DispatchPayload} {payload : DispatchPayload}

namespace Ran

theorem refl (d : WftRouterDaemon) : Ran d d [] :=
  ⟨rfl, rfl, rfl, rfl, rfl, fun _ hp => hp, fun _ hinv => hinv, fun _ hinv => .inl hinv, by simp⟩

/-- What has left the pipeline stays out of it. -/
theorem handled_of (h : Ran d d' ran) (hp : Handled d payload) : Handled d' payload := by
  rcases hp with hmerged | hdropped | hlost | ⟨inv, hinv, hfor⟩
  · exact .inl (h.merged ▸ hmerged)
  · exact .inr (.inl (h.dropped payload hdropped))
  · exact .inr (.inr (.inl (h.lost ▸ hlost)))
  · exact .inr (.inr (.inr ⟨inv, h.kept inv hinv, hfor⟩))

theorem trans (h : Ran d d' ran) (h' : Ran d' d'' ran') : Ran d d'' (ran ++ ran') where
  deps := h'.deps.trans h.deps
  seen := h'.seen.trans h.seen
  buckets := h'.buckets.trans h.buckets
  merged := h'.merged.trans h.merged
  lost := h'.lost.trans h.lost
  dropped p hp := h'.dropped p (h.dropped p hp)
  kept inv hinv := h'.kept inv (h.kept inv hinv)
  invocations inv hinv := by
    rcases h'.invocations inv hinv with hold | ⟨p, hp, hfor⟩
    · rcases h.invocations inv hold with hold | ⟨p, hp, hfor⟩
      · exact .inl hold
      · exact .inr ⟨p, List.mem_append_left _ hp, hfor⟩
    · exact .inr ⟨p, List.mem_append_right _ hp, hfor⟩
  handled p hp := by
    rcases List.mem_append.1 hp with hp | hp
    · exact h'.handled_of (h.handled p hp)
    · exact h'.handled p hp

theorem congr (h : Ran d d' ran) (hran : ∀ p, p ∈ ran' ↔ p ∈ ran) : Ran d d' ran' :=
  { h with
    invocations := fun inv hinv => (h.invocations inv hinv).imp_right
      fun ⟨p, hp, hfor⟩ => ⟨p, (hran p).2 hp, hfor⟩
    handled := fun p hp => h.handled p ((hran p).1 hp) }

/-- A payload that its own rule dispatches is run or dropped. -/
theorem dispatch (d : WftRouterDaemon) (payload : DispatchPayload) :
    Ran d (d.dispatch payload.rule payload) [payload] := by
  unfold WftRouterDaemon.dispatch
  split
  · next rateLimiter hacquire =>
    have hfor : InvokedFor ({ d with rateLimiter }.invocation payload.rule.doHandler payload)
        payload := ⟨rfl, rfl, rfl, rfl, rfl⟩
    refine ⟨rfl, rfl, rfl, rfl, rfl, fun _ hp => hp, ?_, ?_, ?_⟩
    · intro inv hinv
      rw [invocations_invoke]
      exact List.mem_append_left _ hinv
    · intro inv hinv
      rw [invocations_invoke, List.mem_append, List.mem_singleton] at hinv
      rcases hinv with hinv | rfl
      · exact .inl hinv
      · exact .inr ⟨payload, List.mem_singleton_self _, hfor⟩
    · intro p hp
      rw [List.mem_singleton.1 hp]
      exact .inr (.inr (.inr ⟨_, by simp, hfor⟩))
  · refine ⟨rfl, rfl, rfl, rfl, rfl, fun p hp => List.mem_append_left _ hp, fun _ hinv => hinv,
      fun _ hinv => .inl hinv, ?_⟩
    intro p hp
    rw [List.mem_singleton.1 hp]
    exact .inr (.inl (by simp))

end Ran

/-! ## Buckets -/

/-- A bucket is of one rule, which is that of its payload and of everyone who waits for it. -/
structure Owned (d : WftRouterDaemon) (bucket : Bucket DispatchPayload Rule) : Prop where
  seen : bucket.latestPayload ∈ d.seen
  rule : bucket.latestPayload.rule ∈ d.deps.config.rules
  waited : bucket.subscribers ≠ []
  subscribers : ∀ r ∈ bucket.subscribers, r = bucket.latestPayload.rule
  key : ∃ eventKey : String, '\x00' ∉ eventKey.toList ∧
    bucket.key = compoundKey bucket.latestPayload.rule.name eventKey

/-- When the timer of a bucket fires, its payload is run or dropped. -/
theorem ran_subscribers {subscribers : List Rule} (hwaited : subscribers ≠ [])
    (hown : ∀ r ∈ subscribers, r = payload.rule) :
    Ran d (subscribers.foldl (fun d rule => d.dispatch rule payload) d) [payload] := by
  induction subscribers generalizing d with
  | nil => exact absurd rfl hwaited
  | cons rule rest ih =>
    have hfirst : Ran d (d.dispatch rule payload) [payload] := by
      rw [hown rule List.mem_cons_self]
      exact Ran.dispatch d payload
    cases rest with
    | nil => exact hfirst
    | cons rule' rest' =>
      have hrest := ih (d := d.dispatch rule payload) (List.cons_ne_nil _ _)
        fun r hr => hown r (List.mem_cons_of_mem _ hr)
      exact (hfirst.trans hrest).congr (by simp)

theorem ran_fireBuckets {f : WftRouterDaemon → Bucket DispatchPayload Rule → WftRouterDaemon}
    (hf : ∀ d bucket, bucket.subscribers ≠ [] →
      (∀ r ∈ bucket.subscribers, r = bucket.latestPayload.rule) →
      Ran d (f d bucket) [bucket.latestPayload])
    {buckets : List (Bucket DispatchPayload Rule)} (hwaited : ∀ b ∈ buckets, b.subscribers ≠ [])
    (hown : ∀ b ∈ buckets, ∀ r ∈ b.subscribers, r = b.latestPayload.rule) :
    Ran d (buckets.foldl f d) (buckets.map (·.latestPayload)) := by
  induction buckets generalizing d with
  | nil => exact Ran.refl d
  | cons bucket rest ih =>
    have hfirst := hf d bucket (hwaited bucket List.mem_cons_self) (hown bucket List.mem_cons_self)
    exact hfirst.trans (ih (fun b hb => hwaited b (List.mem_cons_of_mem _ hb))
      fun b hb => hown b (List.mem_cons_of_mem _ hb))

theorem ran_fireBucket (d : WftRouterDaemon) (bucket : Bucket DispatchPayload Rule)
    (hwaited : bucket.subscribers ≠ [])
    (hown : ∀ r ∈ bucket.subscribers, r = bucket.latestPayload.rule) :
    Ran d (d.fireBucket bucket) [bucket.latestPayload] :=
  ran_subscribers hwaited hown

theorem ran_fireTimer (d : WftRouterDaemon) (bucket : Bucket DispatchPayload Rule)
    (hwaited : bucket.subscribers ≠ [])
    (hown : ∀ r ∈ bucket.subscribers, r = bucket.latestPayload.rule) :
    Ran d (d.fireTimer bucket) [bucket.latestPayload] := by
  have hran := ran_fireBucket { d with now := bucket.deadline } bucket hwaited hown
  exact ⟨hran.deps, hran.seen, hran.buckets, hran.merged, hran.lost, hran.dropped, hran.kept,
    hran.invocations, hran.handled⟩

/-! ## What was seen -/

/-- The id of a payload's event: the number that the server gave it, or the id of a sweep. -/
def IdOf (payload : DispatchPayload) : Prop :=
  match payload.origin with
  | some origin => payload.identity.eventId = toString origin.number
  | none => ∃ name windowS nowMs, payload.identity.eventId = sweepEventId name windowS nowMs

/-- A key stands for one event, and the rules of events render. -/
structure SeenOk (seen : List DispatchPayload) : Prop where
  origins : ∀ p ∈ seen, ∀ q ∈ seen, p.identity.key = q.identity.key → p.origin = q.origin
  rendered : ∀ p ∈ seen, p.origin ≠ none → p.rule.renders = true
  ids : ∀ p ∈ seen, IdOf p

theorem SeenOk.concat {seen : List DispatchPayload} (h : SeenOk seen)
    (horigins : ∀ q ∈ seen, q.identity.key = payload.identity.key → q.origin = payload.origin)
    (hrendered : payload.origin ≠ none → payload.rule.renders = true) (hid : IdOf payload) :
    SeenOk (seen ++ [payload]) where
  origins p hp q hq hkey := by
    rw [List.mem_append, List.mem_singleton] at hp hq
    rcases hp with hp | rfl
    · rcases hq with hq | rfl
      · exact h.origins p hp q hq hkey
      · exact horigins p hp hkey
    · rcases hq with hq | rfl
      · exact (horigins q hq hkey.symm).symm
      · rfl
  rendered p hp := by
    rw [List.mem_append, List.mem_singleton] at hp
    rcases hp with hp | rfl
    · exact h.rendered p hp
    · exact hrendered
  ids p hp := by
    rw [List.mem_append, List.mem_singleton] at hp
    rcases hp with hp | rfl
    · exact h.ids p hp
    · exact hid

/-! ## The invariant -/

/-- Every payload that was seen is in hand, waits in a bucket or has left the pipeline. -/
structure Tracked (held : List DispatchPayload) (d : WftRouterDaemon) : Prop where
  accounted : ∀ p ∈ d.seen, p ∈ held ∨ (∃ bucket ∈ d.buckets, bucket.latestPayload = p) ∨ Handled d p
  owned : ∀ bucket ∈ d.buckets, Owned d bucket
  keys : (d.buckets.map (·.key)).Nodup
  invoked : ∀ inv ∈ d.invocations, ∃ p ∈ d.seen, InvokedFor inv p
  seenOk : SeenOk d.seen

/-- What was in hand has been run or dropped. -/
theorem Tracked.after_run (h : Tracked ran d) (hran : Ran d d' ran) (hseen : ∀ p ∈ ran, p ∈ d.seen) :
    Tracked [] d' where
  accounted p hp := by
    rw [hran.seen] at hp
    rcases h.accounted p hp with hheld | hbucket | hhandled
    · exact .inr (.inr (hran.handled p hheld))
    · rw [hran.buckets]
      exact .inr (.inl hbucket)
    · exact .inr (.inr (hran.handled_of hhandled))
  owned bucket hbucket := by
    rw [hran.buckets] at hbucket
    obtain ⟨hseen, hrule, hwaited, hsubscribers, hkey⟩ := h.owned bucket hbucket
    exact ⟨hran.seen ▸ hseen, hran.deps ▸ hrule, hwaited, hsubscribers, hkey⟩
  keys := hran.buckets ▸ h.keys
  invoked inv hinv := by
    rw [hran.seen]
    rcases hran.invocations inv hinv with hold | ⟨p, hp, hfor⟩
    · exact h.invoked inv hold
    · exact ⟨p, hseen p hp, hfor⟩
  seenOk := hran.seen ▸ h.seenOk

/-- No two rules of a config have one name. -/
def NamesDistinct (deps : DaemonDeps) : Prop := (deps.config.rules.map (·.name)).Nodup

theorem NamesDistinct.eq {deps : DaemonDeps} (h : NamesDistinct deps) {rule rule' : Rule}
    (hrule : rule ∈ deps.config.rules) (hrule' : rule' ∈ deps.config.rules)
    (hname : rule.name = rule'.name) : rule = rule' :=
  List.inj_on_of_nodup_map h hrule hrule' hname

/-- A push leaves everything in the pipeline where it was, but for the payload it replaces. -/
theorem handled_push {key : String} {rule : Rule} {p : DispatchPayload}
    (h : Handled d p) : Handled (d.push key payload rule) p := by
  rcases h with hmerged | hdropped | hlost | hinvoked
  · exact .inl (List.mem_append_left _ hmerged)
  · exact .inr (.inl hdropped)
  · exact .inr (.inr (.inl hlost))
  · exact .inr (.inr (.inr hinvoked))

/-- The bucket that a push leaves under its key. -/
theorem mem_push {key : String} {rule : Rule} {bucket : Bucket DispatchPayload Rule}
    (h : bucket ∈ (d.push key payload rule).buckets) :
    bucket ∈ d.buckets ∨ bucket.key = key ∧ bucket.latestPayload = payload ∧
      ∃ waiting, bucket.subscribers = waiting ++ [rule] ∧
        ∀ r ∈ waiting, ∃ existing ∈ d.buckets, existing.key = key ∧ r ∈ existing.subscribers := by
  simp only [push, Debouncer.push] at h
  split at h
  · next existing hfind =>
    rcases List.mem_append.1 h with h | h
    · exact .inl (List.mem_of_mem_filter h)
    · rw [List.mem_singleton.1 h]
      have hkey : existing.key = key := by simpa using List.find?_some hfind
      exact .inr ⟨hkey, rfl, existing.subscribers, rfl, fun r hr =>
        ⟨existing, List.mem_of_find?_eq_some hfind, hkey, hr⟩⟩
  · rcases List.mem_append.1 h with h | h
    · exact .inl h
    · rw [List.mem_singleton.1 h]
      exact .inr ⟨rfl, rfl, [], rfl, by simp⟩

/-- A payload that waits goes on waiting, or another has taken its place. -/
theorem waiting_push {key : String} {rule : Rule} {bucket : Bucket DispatchPayload Rule}
    (hkeys : (d.buckets.map (·.key)).Nodup)
    (h : bucket ∈ d.buckets) : bucket ∈ (d.push key payload rule).buckets ∨
      bucket.latestPayload ∈ (d.push key payload rule).merged := by
  simp only [push, Debouncer.push, Debouncer.replaced]
  cases hfind : d.buckets.find? (·.key = key) with
  | none => exact .inl (List.mem_append_left _ h)
  | some existing =>
    have hexisting : existing.key = key := by simpa using List.find?_some hfind
    by_cases hkey : bucket.key = key
    · right
      have hsame : bucket = existing := List.inj_on_of_nodup_map hkeys h
        (List.mem_of_find?_eq_some hfind) (hkey.trans hexisting.symm)
      simp [hsame]
    · left
      exact List.mem_append_left _ (List.mem_filter.2 ⟨h, by simpa using hkey⟩)

/-- After a push its payload waits. -/
theorem payload_waits (key : String) (rule : Rule) :
    ∃ bucket ∈ (d.push key payload rule).buckets, bucket.latestPayload = payload := by
  simp only [push, Debouncer.push]
  split
  · exact ⟨_, List.mem_append_right _ (List.mem_singleton_self _), rfl⟩
  · exact ⟨_, List.mem_append_right _ (List.mem_singleton_self _), rfl⟩

/-- A push keeps one bucket a key. -/
theorem keys_push_nodup {key : String} {rule : Rule} (hkeys : (d.buckets.map (·.key)).Nodup) :
    ((d.push key payload rule).buckets.map (·.key)).Nodup := by
  simp only [push, Debouncer.push]
  split
  · next existing hfind =>
    have hexisting : existing.key = key := by simpa using List.find?_some hfind
    rw [List.map_append, List.nodup_append]
    refine ⟨hkeys.sublist (List.filter_sublist.map _), by simp, ?_⟩
    intro k hk k' hk' heq
    obtain ⟨bucket, hbucket, rfl⟩ := List.mem_map.1 hk
    rw [List.map_singleton, List.mem_singleton] at hk'
    have hne := (List.mem_filter.1 hbucket).2
    rw [heq, hk', hexisting] at hne
    simp at hne
  · next hfind =>
    rw [List.map_append, List.nodup_append]
    refine ⟨hkeys, by simp, ?_⟩
    intro k hk k' hk' heq
    obtain ⟨bucket, hbucket, rfl⟩ := List.mem_map.1 hk
    rw [List.map_singleton, List.mem_singleton] at hk'
    have hne := List.find?_eq_none.1 hfind bucket hbucket
    simp [heq, hk'] at hne

/-- The payload in hand goes into the bucket of its rule. -/
theorem Tracked.push (h : Tracked [payload] d) (hnames : NamesDistinct d.deps) {eventKey : String}
    (hkey : '\x00' ∉ eventKey.toList) (hseen : payload ∈ d.seen)
    (hrule : payload.rule ∈ d.deps.config.rules) :
    Tracked [] (d.push (compoundKey payload.rule.name eventKey) payload payload.rule) where
  accounted p hp := by
    rcases h.accounted p hp with hheld | ⟨bucket, hbucket, rfl⟩ | hhandled
    · rw [List.mem_singleton.1 hheld]
      exact .inr (.inl (payload_waits _ _))
    · rcases waiting_push h.keys hbucket with hwaits | hmerged
      · exact .inr (.inl ⟨bucket, hwaits, rfl⟩)
      · exact .inr (.inr (.inl hmerged))
    · exact .inr (.inr (handled_push hhandled))
  owned bucket hbucket := by
    rcases mem_push hbucket with hold | ⟨hbucketKey, hlatest, waiting, hsubscribers, hwaiting⟩
    · obtain ⟨hseen, hrule, hwaited, hsubscribers, hkey⟩ := h.owned bucket hold
      exact ⟨hseen, hrule, hwaited, hsubscribers, hkey⟩
    · refine ⟨hlatest ▸ hseen, hlatest ▸ hrule, by simp [hsubscribers], ?_,
        eventKey, hkey, by rw [hbucketKey, hlatest]⟩
      intro r hr
      rw [hlatest]
      rw [hsubscribers, List.mem_append, List.mem_singleton] at hr
      rcases hr with hr | rfl
      · -- whoever waits in this bucket has the same rule, because its name is in the key
        obtain ⟨existing, hexisting, hexistingKey, hmem⟩ := hwaiting r hr
        obtain ⟨-, hexistingRule, -, hexistingSubscribers, eventKey', hkey', hcompound⟩ :=
          h.owned existing hexisting
        rw [hexistingSubscribers r hmem]
        refine hnames.eq hexistingRule hrule (compoundKey_ruleId_inj hkey' hkey ?_)
        rw [← hcompound, hexistingKey]
      · rfl
  keys := keys_push_nodup h.keys
  invoked := h.invoked
  seenOk := h.seenOk

/-! ## The steps of the daemon -/

/-- A payload that comes into the pipeline is tracked from then on. -/
theorem Tracked.see (h : Tracked [] d) (hseen : SeenOk (d.seen ++ [payload])) :
    Tracked [payload] { d with seen := d.seen ++ [payload] } where
  accounted p hp := by
    rcases List.mem_append.1 hp with hp | hp
    · rcases h.accounted p hp with hheld | hbucket | hhandled
      · exact absurd hheld List.not_mem_nil
      · exact .inr (.inl hbucket)
      · exact .inr (.inr hhandled)
    · exact .inl hp
  owned bucket hbucket := by
    obtain ⟨hseen, hrule, hwaited, hsubscribers, hkey⟩ := h.owned bucket hbucket
    exact ⟨List.mem_append_left _ hseen, hrule, hwaited, hsubscribers, hkey⟩
  keys := h.keys
  invoked inv hinv := by
    obtain ⟨p, hp, hfor⟩ := h.invoked inv hinv
    exact ⟨p, List.mem_append_left _ hp, hfor⟩
  seenOk := hseen

/-- A rule of the config takes in an event. -/
theorem Tracked.dispatchRule (h : Tracked [] d) (hnames : NamesDistinct d.deps) {rule : Rule}
    (hrule : rule ∈ d.deps.config.rules) {mapped : MappedEvent}
    (hkey : '\x00' ∉ (eventKey mapped).toList)
    (hseen : SeenOk (d.seen ++ [dispatchPayload rule mapped])) :
    Tracked [] (d.dispatchRule rule mapped) ∧
      (d.dispatchRule rule mapped).seen = d.seen ++ [dispatchPayload rule mapped] ∧
      (d.dispatchRule rule mapped).deps = d.deps := by
  have hsee := h.see hseen
  have hmem : dispatchPayload rule mapped ∈ d.seen ++ [dispatchPayload rule mapped] :=
    List.mem_append_right _ (List.mem_singleton_self _)
  unfold WftRouterDaemon.dispatchRule
  dsimp only
  split
  · have hran := Ran.dispatch { d with seen := d.seen ++ [dispatchPayload rule mapped] }
      (dispatchPayload rule mapped)
    refine ⟨hsee.after_run hran ?_, hran.seen, hran.deps⟩
    intro p hp
    rw [List.mem_singleton.1 hp]
    exact hmem
  · exact ⟨hsee.push hnames hkey hmem hrule, rfl, rfl⟩

/-- What is asked of an event that arrives: the rules that match it render, and none has seen
    another event under its id. -/
def Distinct (d : WftRouterDaemon) (ev : SSEEvent) : Prop :=
  NamesDistinct d.deps ∧ ∀ p ∈ payloads d.deps ev, p.rule.renders = true ∧
    ∀ q ∈ d.seen, q.identity.key = p.identity.key → q.origin = p.origin

theorem Tracked.fanOut (h : Tracked [] d) (hnames : NamesDistinct d.deps) {mapped : MappedEvent}
    {origin : Origin} (horigin : mapped.origin = some origin)
    (hid : mapped.eventId = toString origin.number) (hkey : '\x00' ∉ (eventKey mapped).toList)
    {rules : List Rule} (hrules : ∀ rule ∈ rules, rule ∈ d.deps.config.rules)
    (hrenders : ∀ rule ∈ rules, rule.renders = true)
    (hdistinct : ∀ rule ∈ rules, ∀ q ∈ d.seen,
      q.identity.key = (dispatchPayload rule mapped).identity.key → q.origin = mapped.origin) :
    Tracked [] (rules.foldl (fun d rule => d.dispatchRule rule mapped) d) := by
  induction rules generalizing d with
  | nil => exact h
  | cons rule rest ih =>
    have hseen : SeenOk (d.seen ++ [dispatchPayload rule mapped]) := by
      refine h.seenOk.concat (hdistinct rule List.mem_cons_self)
        (fun _ => hrenders rule List.mem_cons_self) ?_
      simpa [IdOf, dispatchPayload, horigin] using hid
    obtain ⟨hnext, hnextSeen, hnextDeps⟩ :=
      h.dispatchRule hnames (hrules rule List.mem_cons_self) hkey hseen
    refine ih hnext (hnextDeps ▸ hnames) ?_ (fun r hr => hrenders r (List.mem_cons_of_mem _ hr)) ?_
    · intro r hr
      rw [hnextDeps]
      exact hrules r (List.mem_cons_of_mem _ hr)
    · intro r hr q hq hkeys
      rw [hnextSeen, List.mem_append, List.mem_singleton] at hq
      rcases hq with hq | rfl
      · exact hdistinct r (List.mem_cons_of_mem _ hr) q hq hkeys
      · rfl

theorem id_wireData (data : EventData) : ∃ id, (wireData data).id = some id := by
  cases data with
  | task row => exact ⟨_, rfl⟩
  | project row => exact ⟨_, rfl⟩

/-- What the mapping makes of a frame of the server. -/
theorem mapped_wireFrame {b : Broadcast} {mapped : MappedEvent}
    (h : mapSSEEvent (wireFrame b) = some mapped) :
    mapped.eventId = toString b.id ∧ mapped.origin = some ⟨b.boot, b.id⟩ ∧
      ∃ id, mapped.payload.task.bind (·.id) = some id := by
  unfold mapSSEEvent at h
  obtain ⟨parsed, hparsed, h⟩ := Option.bind_eq_some_iff.1 h
  obtain ⟨type, -, h⟩ := Option.bind_eq_some_iff.1 h
  obtain ⟨eventId, heventId, rfl⟩ := Option.map_eq_some_iff.1 h
  have hid : eventId = toString b.id := by
    obtain ⟨hsome, -⟩ := Option.filter_eq_some_iff.1 heventId
    exact (Option.some.inj hsome).symm
  refine ⟨hid, rfl, ?_⟩
  obtain ⟨id, hdata⟩ := id_wireData b.event.data
  rw [← Option.some.inj hparsed]
  exact ⟨id, by simpa using hdata⟩

/-- A frame of the server arrives. -/
theorem Tracked.onEvent (h : Tracked [] d) (b : Broadcast) (hdistinct : Distinct d (wireFrame b)) :
    Tracked [] (d.onEvent (wireFrame b)) := by
  obtain ⟨hnames, hpayloads⟩ := hdistinct
  unfold payloads at hpayloads
  unfold WftRouterDaemon.onEvent
  split
  · exact h
  · next hcontrol =>
    rw [if_neg hcontrol] at hpayloads
    cases hmapped : mapSSEEvent (wireFrame b) with
    | none => exact h
    | some mapped =>
      simp only [hmapped] at hpayloads ⊢
      obtain ⟨hid, horigin, id, htask⟩ := mapped_wireFrame hmapped
      have hrule : ∀ rule ∈ matched d.deps mapped,
          dispatchPayload rule mapped ∈ (matched d.deps mapped).map (dispatchPayload · mapped) :=
        fun rule hrule => List.mem_map_of_mem hrule
      exact h.fanOut hnames horigin hid (nul_notMem_eventKey id htask)
        (fun rule hmem => List.mem_of_mem_filter hmem)
        (fun rule hmem => (hpayloads _ (hrule rule hmem)).1)
        (fun rule hmem => (hpayloads _ (hrule rule hmem)).2)

theorem Tracked.sweepRule (h : Tracked [] d) (hnames : NamesDistinct d.deps) {rule : Rule}
    (hrule : rule ∈ d.deps.config.rules) (tasks : List (Int × TaskShape)) :
    Tracked [] (d.sweepRule rule tasks) := by
  unfold WftRouterDaemon.sweepRule
  split
  · exact h
  · next payload hfound =>
    obtain ⟨task, -, rfl⟩ := List.mem_map.1 (List.mem_of_find?_eq_some hfound)
    refine (h.dispatchRule hnames hrule (nul_notMem_eventKey task.1 rfl) ?_).1
    refine h.seenOk.concat ?_ (fun hsome => absurd rfl hsome) ⟨_, _, _, rfl⟩
    -- no event of the server has the id of a sweep
    intro q hq hkey
    have hid := h.seenOk.ids q hq
    unfold IdOf at hid
    cases horigin : q.origin with
    | none => rfl
    | some origin =>
      rw [horigin] at hid
      have heventId : q.identity.eventId = sweepEventId rule.name _ d.now :=
        congrArg Prod.snd hkey
      rw [hid] at heventId
      exact absurd heventId.symm (sweepEventId_ne _ _ _ _)

/-- Buckets that fire leave nothing in hand. -/
theorem Tracked.fire (h : Tracked [] d) {fired rest : List (Bucket DispatchPayload Rule)}
    (hbuckets : d.buckets = fired ++ rest)
    {f : WftRouterDaemon → Bucket DispatchPayload Rule → WftRouterDaemon}
    (hf : ∀ d bucket, bucket.subscribers ≠ [] →
      (∀ r ∈ bucket.subscribers, r = bucket.latestPayload.rule) →
      Ran d (f d bucket) [bucket.latestPayload]) :
    Tracked [] (fired.foldl f { d with buckets := rest }) := by
  have howned : ∀ bucket ∈ fired, Owned d bucket := by
    intro bucket hbucket
    exact h.owned bucket (hbuckets ▸ List.mem_append_left _ hbucket)
  have hheld : Tracked (fired.map (·.latestPayload)) { d with buckets := rest } := by
    refine ⟨?_, ?_, ?_, h.invoked, h.seenOk⟩
    · intro p hp
      rcases h.accounted p hp with hheld | ⟨bucket, hbucket, rfl⟩ | hhandled
      · exact absurd hheld List.not_mem_nil
      · rw [hbuckets] at hbucket
        rcases List.mem_append.1 hbucket with hbucket | hbucket
        · exact .inl (List.mem_map_of_mem hbucket)
        · exact .inr (.inl ⟨bucket, hbucket, rfl⟩)
      · exact .inr (.inr hhandled)
    · intro bucket hbucket
      obtain ⟨hseen, hrule, hwaited, hsubscribers, hkey⟩ :=
        h.owned bucket (hbuckets ▸ List.mem_append_right _ hbucket)
      exact ⟨hseen, hrule, hwaited, hsubscribers, hkey⟩
    · have hkeys := h.keys
      rw [hbuckets] at hkeys
      exact hkeys.sublist ((List.sublist_append_right _ _).map _)
  refine hheld.after_run (ran_fireBuckets hf (fun b hb => (howned b hb).waited)
    fun b hb => (howned b hb).subscribers) ?_
  intro p hp
  obtain ⟨bucket, hbucket, rfl⟩ := List.mem_map.1 hp
  exact (howned bucket hbucket).seen

/-- What the tracking does not look at may change. -/
theorem Tracked.frame (h : Tracked [] d) (hseen : d'.seen = d.seen) (hdeps : d'.deps = d.deps)
    (hbuckets : d'.buckets = d.buckets) (hmerged : d'.merged = d.merged)
    (hdropped : d'.dropped = d.dropped) (hlost : d'.lost = d.lost)
    (hinvocations : d'.invocations = d.invocations) : Tracked [] d' := by
  have hran : Ran d d' [] := by
    refine ⟨hdeps, hseen, hbuckets, hmerged, hlost, ?_, ?_, ?_, by simp⟩
    · intro p hp
      rw [hdropped]
      exact hp
    · intro inv hinv
      rw [hinvocations]
      exact hinv
    · intro inv hinv
      rw [hinvocations] at hinv
      exact .inl hinv
  exact h.after_run hran (by simp)

theorem Tracked.wait (h : Tracked [] d) (ms : Nat) : Tracked [] (d.wait ms) := by
  have hfired := h.fire (List.takeWhile_append_dropWhile (p := (·.deadline ≤ d.now + ms))).symm
    ran_fireTimer
  exact hfired.frame (by rfl) (by rfl) (by rfl) (by rfl) (by rfl) (by rfl) (by rfl)

theorem Tracked.stop (h : Tracked [] d) : Tracked [] d.stop :=
  h.fire (List.append_nil _).symm ran_fireBucket

theorem Tracked.settle (h : Tracked [] d) (i : Nat) (result : EffectResult) :
    Tracked [] (d.settle i result) := by
  unfold WftRouterDaemon.settle
  split
  · exact h
  · exact h.frame rfl rfl rfl rfl rfl rfl rfl

/-- What waited in a bucket is lost with the process. -/
theorem Tracked.start (h : Tracked [] d) (deps : DaemonDeps) : Tracked [] (d.start deps) where
  accounted p hp := by
    rcases h.accounted p hp with hheld | ⟨bucket, hbucket, rfl⟩ | hhandled
    · exact absurd hheld List.not_mem_nil
    · exact .inr (.inr (.inr (.inr (.inl
        (List.mem_append_right _ (List.mem_map_of_mem hbucket))))))
    · rcases hhandled with hmerged | hdropped | hlost | hinvoked
      · exact .inr (.inr (.inl hmerged))
      · exact .inr (.inr (.inr (.inl hdropped)))
      · exact .inr (.inr (.inr (.inr (.inl (List.mem_append_left _ hlost)))))
      · exact .inr (.inr (.inr (.inr (.inr hinvoked))))
  owned := by simp [WftRouterDaemon.start]
  keys := by simp [WftRouterDaemon.start]
  invoked := h.invoked
  seenOk := h.seenOk

end WftRouterDaemon

end WoodFiredTasks.Router
