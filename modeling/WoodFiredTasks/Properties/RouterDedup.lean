import WoodFiredTasks.Lib.Runs
import WoodFiredTasks.Router.Tracking

set_option autoImplicit false

/-! # The key of a dispatch

`dispatch_log` outlives the server, whose event ids begin again with every process. As long as no
event comes under an id that a rule has seen with an event of another process, each event that a
rule matches is claimed for itself, unless a later one takes its place in the debouncer, the rate
limiter drops it or the daemon goes down with it (`routerDedup_sound`). After a restart of the
server a new event can have an old id, and is suppressed for good (`routerDedup_unsound`). -/

namespace WoodFiredTasks.Router

/-- Every event that was matched by a rule and has left the pipeline neither merged nor dropped nor
    lost is claimed: the key of its rule and id is, by an invocation for this event. -/
def WftRouterDaemon.NothingSwallowed (d : WftRouterDaemon) : Prop :=
  ∀ p ∈ d.seen, p.origin ≠ none →
    p ∈ d.merged ∨ p ∈ d.dropped ∨ p ∈ d.lost ∨ (∃ bucket ∈ d.buckets, bucket.latestPayload = p) ∨
    ∃ inv ∈ d.invocations, inv.claim = some .claimed ∧ ∃ q ∈ d.seen,
      WftRouterDaemon.InvokedFor inv q ∧ q.identity.key = p.identity.key ∧ q.origin = p.origin

namespace RouterSystem

/-- What is asked of an action: of an event that arrives, that its key is not another's. -/
def Distinct (s : RouterSystem) : Action → Prop
  | .deliver i =>
    match s.sent[i]? with
    | none => True
    | some b => s.daemon.Distinct (wireFrame b)
  | .sweep .. => WftRouterDaemon.NamesDistinct s.daemon.deps
  | _ => True

/-- What every run keeps. -/
structure Inv (s : RouterSystem) : Prop where
  tracked : WftRouterDaemon.Tracked [] s.daemon
  keys : WftRouterDaemon.KeysAccounted [] s.daemon
  keyed : WftRouterDaemon.ClaimsKeyed s.daemon
  resolved : WftRouterDaemon.ClaimsResolved s.daemon

variable {s : RouterSystem}

theorem Inv.nothingSwallowed (h : Inv s) : s.daemon.NothingSwallowed := by
  intro p hp horigin
  rcases h.tracked.accounted p hp with hheld | hwaits | hmerged | hdropped | hlost |
    ⟨inv, hinv, hfor⟩
  · exact absurd hheld List.not_mem_nil
  · exact .inr (.inr (.inr (.inl hwaits)))
  · exact .inl hmerged
  · exact .inr (.inl hdropped)
  · exact .inr (.inr (.inl hlost))
  · -- the handler got to its claim, so its key has a row, and this row was claimed for the event
    have hrenders := h.tracked.seenOk.rendered p hp horigin
    have hclaim : inv.claim ≠ none := by
      rw [Ne, h.resolved inv hinv, not_not, hfor.handler]
      exact (Rule.resolve_iff p.rule inv.ctx hfor.withBlock).2 hrenders
    have hrow := h.keyed inv hinv hclaim
    rw [h.keys, List.nil_append, hfor.identity] at hrow
    obtain ⟨claimed, hclaimed, hkey⟩ := List.mem_map.1 hrow
    obtain ⟨hmem, hclaimed⟩ := List.mem_filter.1 hclaimed
    obtain ⟨q, hq, hforQ⟩ := h.tracked.invoked claimed hmem
    have hkeys : q.identity.key = p.identity.key := by rw [← hforQ.identity, hkey]
    exact .inr (.inr (.inr (.inr ⟨claimed, hmem, by simpa using hclaimed, q, hq, hforQ, hkeys,
      h.tracked.seenOk.origins q hq p hp hkeys⟩)))

/-- A step of the daemon keeps the invariant if it keeps the tracking. -/
theorem Inv.of_daemon (h : Inv s) {a : WftRouterDaemon.Action} {server : SseServer}
    (htracked : WftRouterDaemon.Tracked [] (s.daemon.step a)) :
    Inv { server, daemon := s.daemon.step a } where
  tracked := htracked
  keys := (WftRouterDaemon.keysAccounted_closed []).step h.keys a
  keyed := WftRouterDaemon.claimsKeyed_closed.step h.keyed a
  resolved := WftRouterDaemon.claimsResolved_closed.step h.resolved a

theorem Inv.step (h : Inv s) {a : Action} (ha : Distinct s a) : Inv (s.step a) := by
  cases a with
  | server a => exact ⟨h.tracked, h.keys, h.keyed, h.resolved⟩
  | deliver i =>
    unfold Distinct at ha
    cases hsent : s.sent[i]? with
    | none =>
      have hstep : s.step (.deliver i) = s := by
        simp [RouterSystem.step, daemonAction, serverAction, hsent]
      rw [hstep]
      exact h
    | some b =>
      have hstep : s.step (.deliver i) =
          { s with daemon := s.daemon.step (.event (wireFrame b)) } := by
        simp [RouterSystem.step, daemonAction, serverAction, hsent]
      simp only [hsent] at ha
      rw [hstep]
      exact h.of_daemon (h.tracked.onEvent b ha)
  | sweep ruleIndex tasks =>
    refine h.of_daemon (a := .sweep ruleIndex tasks) ?_
    simp only [WftRouterDaemon.step]
    split
    · exact h.tracked
    · next rule hrule =>
      exact h.tracked.sweepRule ha (List.mem_of_mem_filter (List.mem_of_getElem? hrule)) tasks
  | wait ms => exact h.of_daemon (a := .wait ms) (h.tracked.wait ms)
  | settle i result => exact h.of_daemon (a := .settle i result) (h.tracked.settle i result)
  | stop => exact h.of_daemon (a := .stop) h.tracked.stop
  | start deps => exact h.of_daemon (a := .start deps) (h.tracked.start deps)

/-- **Main theorem.** In every run of the server and the daemon, with restarts of either at any
    time, in which the rules that match an event render, have distinct names and have not seen
    another event under its id, nothing is swallowed in any state. -/
theorem routerDedup_sound (server : SseServer) (deps : DaemonDeps) (now : Nat)
    (acts : List Action)
    (h : RunOk RouterSystem.step Distinct { server, daemon := { deps, now } } acts) :
    Always RouterSystem.step (·.daemon.NothingSwallowed) { server, daemon := { deps, now } }
      acts := by
  have hstart : Inv { server, daemon := { deps, now } } := by
    refine ⟨⟨by simp, by simp, by simp, by simp, by simp, by simp, by simp⟩, ?_, ?_, ?_⟩
    · simp [WftRouterDaemon.KeysAccounted, WftRouterDaemon.claimedKeys, IdempotencyStore.keys,
        IdempotencyStore.empty]
    · simp [WftRouterDaemon.ClaimsKeyed]
    · simp [WftRouterDaemon.ClaimsResolved]
  exact (h.always (fun _ _ hs ha => hs.step ha) hstart).mono fun _ hs => hs.nothingSwallowed

instance (deps : DaemonDeps) : Decidable (WftRouterDaemon.NamesDistinct deps) :=
  inferInstanceAs (Decidable (List.Nodup _))

instance (d : WftRouterDaemon) (ev : SSEEvent) : Decidable (d.Distinct ev) :=
  inferInstanceAs (Decidable (_ ∧ ∀ p ∈ _, _ ∧ ∀ q ∈ _, _ → _))

instance (s : RouterSystem) : ∀ a, Decidable (Distinct s a)
  | .deliver i =>
    match h : s.sent[i]? with
    | none => isTrue (by simp [Distinct, h])
    | some b => decidable_of_iff (s.daemon.Distinct (wireFrame b)) (by simp [Distinct, h])
  | .sweep .. => inferInstanceAs (Decidable (WftRouterDaemon.NamesDistinct _))
  | .server _ | .wait _ | .settle .. | .stop | .start _ => isTrue trivial

/-! A server with a new project before and after its restart, and a daemon with one rule. -/

def dedupRule : Rule where
  name := "notify"
  on := .projectCreated
  doHandler := .webhookPost
  withBlock := [("url", .str "https://receiver.local/hook"),
    ("body", .str "\x7b\x7btask.id\x7d\x7d")]

def dedupDeps : DaemonDeps where
  config := { rules := [dedupRule] }
  apiBaseUrl := "https://tasks.local"
  apiKey := "key"
  env := fun _ => none

def projectCreated (timestamp id : Nat) : EventPayload where
  eventType := "project.created"
  timestamp
  data := .project { id, name := "project" }

def dedupStart : RouterSystem :=
  { server := { now := 0 }, daemon := { deps := dedupDeps, now := 0 } }

/-- The server sends the router two events, and both are dispatched. -/
def oneBoot : List Action :=
  [.server (.connect routerClient 1 {} none), .server (.broadcast (projectCreated 0 7)),
    .deliver 0, .wait 2000, .settle 0 (.response 200), .server (.broadcast (projectCreated 0 8)),
    .deliver 1, .wait 2000]

theorem routerDedup_sound_oneBoot :
    Always step (·.daemon.NothingSwallowed) dedupStart oneBoot :=
  routerDedup_sound { now := 0 } dedupDeps 0 oneBoot (by decide +kernel)

/-- The server restarts between the two, and the second has the id of the first. -/
def twoBoots : List Action :=
  [.server (.connect routerClient 1 {} none), .server (.broadcast (projectCreated 0 7)),
    .deliver 0, .wait 2000, .settle 0 (.response 200), .server .restart,
    .server (.connect routerClient 2 {} (some 1)), .server (.broadcast (projectCreated 0 8)),
    .deliver 1, .wait 2000]

/-- The second event is swallowed: its handler is run, and finds the row of the first. -/
theorem routerDedup_unsound :
    dedupDeps.config.accepted = true ∧
    (twoBoots.foldl step dedupStart).daemon.invocations.map (fun inv => (inv.origin, inv.claim)) =
      [(some ⟨0, 1⟩, some .claimed), (some ⟨1, 1⟩, some (.alreadyDone .succeeded))] ∧
    ¬ (twoBoots.foldl step dedupStart).daemon.NothingSwallowed := by
  refine ⟨by decide +kernel, by decide +kernel, ?_⟩
  intro hnone
  have hseen : ∃ p ∈ (twoBoots.foldl step dedupStart).daemon.seen, p.origin = some ⟨1, 1⟩ := by
    decide +kernel
  have hgone : (twoBoots.foldl step dedupStart).daemon.merged = [] ∧
      (twoBoots.foldl step dedupStart).daemon.dropped = [] ∧
      (twoBoots.foldl step dedupStart).daemon.lost = [] := by
    decide +kernel
  have hbuckets : (twoBoots.foldl step dedupStart).daemon.buckets = [] := by decide +kernel
  have hclaims : ∀ inv ∈ (twoBoots.foldl step dedupStart).daemon.invocations,
      inv.claim = some .claimed → inv.origin ≠ some ⟨1, 1⟩ := by
    decide +kernel
  obtain ⟨p, hp, horigin⟩ := hseen
  have hfate := hnone p hp (by simp [horigin])
  rw [hgone.1, hgone.2.1, hgone.2.2, hbuckets] at hfate
  rcases hfate with hmem | hmem | hmem | ⟨bucket, hmem, -⟩ | ⟨inv, hinv, hclaim, q, -, hfor, -, hsame⟩
  · exact List.not_mem_nil hmem
  · exact List.not_mem_nil hmem
  · exact List.not_mem_nil hmem
  · exact List.not_mem_nil hmem
  · exact hclaims inv hinv hclaim (hfor.origin.trans (hsame.trans horigin))

end RouterSystem

end WoodFiredTasks.Router
