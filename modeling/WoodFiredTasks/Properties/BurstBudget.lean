import WoodFiredTasks.Properties.RuleFanOut
import WoodFiredTasks.Router.Bursts

set_option autoImplicit false

/-! # What a burst costs

A bucket coalesces a burst of events on a task. When it fires, everyone who has pushed into it goes
on: each takes a token of the rule and calls the handler, all with the payload of the last event.
So a burst counts once only if it is of one event or if there is only one token
(`burst_counts_once_iff`). -/

namespace WoodFiredTasks.Router.WftRouterDaemon

variable {d : WftRouterDaemon} {rule : Rule} {payload : DispatchPayload}

/-- The bucket of the rule takes one token, and the handler of the rule is called once, with the
    payload of the bucket. -/
structure CountsOnce (d : WftRouterDaemon) (rule : Rule)
    (bucket : Bucket DispatchPayload Rule) : Prop where
  token : (d.fireBucket bucket).tokensOf rule.name + tokenUnit = d.tokensOf rule.name
  call : ∃ inv : Invocation, (d.fireBucket bucket).invocations = d.invocations ++ [inv] ∧
    inv.handler = rule.doHandler ∧
    inv.ctx = buildContext d.deps bucket.latestPayload.rule bucket.latestPayload.event
      bucket.latestPayload.identity

/-! ## Firing a bucket -/

/-- The dispatches of those who have waited, one after the other. -/
def dispatches (d : WftRouterDaemon) (rule : Rule) (payload : DispatchPayload) (n : Nat) :
    WftRouterDaemon :=
  (List.replicate n rule).foldl (fun d rule => d.dispatch rule payload) d

theorem dispatches_succ (n : Nat) :
    d.dispatches rule payload (n + 1) = (d.dispatch rule payload).dispatches rule payload n := rfl

/-- Without a token nothing happens. -/
theorem dispatches_dry (hdry : ¬ tokenUnit ≤ d.tokensOf rule.name) (n : Nat) :
    (d.dispatches rule payload n).tokensOf rule.name = d.tokensOf rule.name ∧
      (d.dispatches rule payload n).invocations = d.invocations := by
  induction n generalizing d with
  | zero => exact ⟨rfl, rfl⟩
  | succ n ih =>
    obtain ⟨htokens, hcalls⟩ := (dispatch_spec d rule payload).2 hdry
    obtain ⟨htokensRest, hcallsRest⟩ := ih (d := d.dispatch rule payload) (by rwa [htokens])
    exact ⟨htokensRest.trans htokens, hcallsRest.trans hcalls⟩

/-- Everyone who has waited takes a token and calls the handler, while there are tokens. -/
theorem dispatches_cost (n : Nat) :
    (d.dispatches rule payload n).tokensOf rule.name +
        min n (d.tokensOf rule.name / tokenUnit) * tokenUnit = d.tokensOf rule.name ∧
      (d.dispatches rule payload n).invocations.length =
        d.invocations.length + min n (d.tokensOf rule.name / tokenUnit) := by
  induction n generalizing d with
  | zero => simp [dispatches]
  | succ n ih =>
    by_cases htoken : tokenUnit ≤ d.tokensOf rule.name
    · obtain ⟨htokens, hcalls⟩ := (dispatch_spec d rule payload).1 htoken
      obtain ⟨htokensRest, hcallsRest⟩ := ih (d := d.dispatch rule payload)
      rw [htokens] at htokensRest hcallsRest
      rw [dispatches_succ, hcallsRest, hcalls, List.length_append, List.length_singleton]
      have hwhole : d.tokensOf rule.name / tokenUnit =
          (d.tokensOf rule.name - tokenUnit) / tokenUnit + 1 := by
        unfold tokenUnit at htoken ⊢
        omega
      rw [hwhole, Nat.add_min_add_right, Nat.add_mul, Nat.one_mul]
      exact ⟨by omega, by omega⟩
    · have hdry : (d.dispatches rule payload (n + 1)).tokensOf rule.name = d.tokensOf rule.name ∧
          (d.dispatches rule payload (n + 1)).invocations = d.invocations :=
        dispatches_dry htoken (n + 1)
      obtain ⟨htokens, hcalls⟩ := hdry
      have hnone : d.tokensOf rule.name / tokenUnit = 0 := Nat.div_eq_of_lt (Nat.lt_of_not_le htoken)
      rw [htokens, hcalls, hnone]
      simp

/-- A bucket of `n + 1` pushes counts once if and only if there is a token for the first and none
    for a second. -/
theorem countsOnce_iff {bucket : Bucket DispatchPayload Rule} {n : Nat}
    (hwaiting : bucket.subscribers = List.replicate (n + 1) rule) :
    CountsOnce d rule bucket ↔ tokenUnit ≤ d.tokensOf rule.name ∧
      (n = 0 ∨ d.tokensOf rule.name < 2 * tokenUnit) := by
  have hfire : d.fireBucket bucket = d.dispatches rule bucket.latestPayload (n + 1) := by
    rw [fireBucket, hwaiting]
    rfl
  constructor
  · intro h
    obtain ⟨inv, hcalls, -⟩ := h.call
    have hlength := congrArg List.length hcalls
    rw [hfire, (dispatches_cost (n + 1)).2, List.length_append, List.length_singleton] at hlength
    have hone : min (n + 1) (d.tokensOf rule.name / tokenUnit) = 1 := by omega
    unfold tokenUnit at hone ⊢
    omega
  · intro h
    obtain ⟨htoken, honly⟩ := h
    obtain ⟨htokens, hcalls⟩ := (dispatch_spec d rule bucket.latestPayload).1 htoken
    -- the first dispatch is all that happens
    have hrest : (d.fireBucket bucket).tokensOf rule.name =
          (d.dispatch rule bucket.latestPayload).tokensOf rule.name ∧
        (d.fireBucket bucket).invocations =
          (d.dispatch rule bucket.latestPayload).invocations := by
      rw [hfire, dispatches_succ]
      rcases honly with rfl | hone
      · exact ⟨rfl, rfl⟩
      · exact dispatches_dry (by rw [htokens]; omega) n
    refine ⟨?_, d.invocation rule.doHandler bucket.latestPayload, ?_, rfl, rfl⟩
    · rw [hrest.1, htokens]
      omega
    · rw [hrest.2, hcalls]

/-! ## The result -/

/-- **Main theorem.** In every state that a run reaches, a bucket that waits holds a burst, with the
    payload of its last event; and when a burst of one rule fires, it counts once if and only if
    the rule has a token and either the burst is of one event or the rule has no second token. -/
theorem burst_counts_once_iff (deps : DaemonDeps) (now : Nat) (store : IdempotencyStore)
    (acts : List Action) (bucket : Bucket DispatchPayload Rule)
    (hbucket : bucket ∈ (acts.foldl step { deps, now, store }).buckets) :
    ∃ burst, Coalesced (acts.foldl step { deps, now, store }).seen bucket burst ∧
      ∀ rule, (∀ p ∈ burst, p.rule = rule) → ∀ d : WftRouterDaemon,
        CountsOnce d rule bucket ↔ tokenUnit ≤ d.tokensOf rule.name ∧
          (burst.length = 1 ∨ d.tokensOf rule.name < 2 * tokenUnit) := by
  have hstart : BurstsKnown { deps, now, store } := fun _ hb => absurd hb List.not_mem_nil
  obtain ⟨burst, hburst⟩ := hstart.run acts bucket hbucket
  refine ⟨burst, hburst, fun rule hrule d => ?_⟩
  have hwaiting : bucket.subscribers = List.replicate burst.length rule := by
    rw [hburst.subscribers, List.map_congr_left hrule, List.map_const']
  cases hlength : burst.length with
  | zero =>
    have hlast := hburst.last
    rw [List.length_eq_zero_iff.1 hlength] at hlast
    exact absurd hlast (by simp)
  | succ n =>
    rw [hlength] at hwaiting
    rw [countsOnce_iff hwaiting]
    simp

/-! A daemon with two dispatches a minute and a rule for every update of a task. -/

def updateRule : Rule where
  name := "sync"
  on := .taskUpdated
  doHandler := .webhookPost
  withBlock := [("url", .str "https://first.local")]

def twoAMinute : DaemonDeps where
  config := { defaults := { maxDispatchesPerMinute := some 2 }, rules := [updateRule] }
  apiBaseUrl := "https://tasks.local"
  apiKey := "key"
  env := fun _ => none

def updatedFrame (eventId : String) (taskId : Int) : SSEEvent where
  id := some eventId
  event := some "task.updated"
  data := some { data := some { id := some taskId, status := some "open" } }
  origin := ⟨0, 1⟩

/-- The daemon after updates of task 7, one right after the other. -/
def afterUpdates (eventIds : List String) : WftRouterDaemon :=
  (eventIds.map fun eventId => Action.event (updatedFrame eventId 7)).foldl step
    { deps := twoAMinute, now := 0 }

/-- The theorem at a single update. -/
theorem burst_of_one_counts_once : (afterUpdates ["1"]).buckets.length = 1 ∧
    ∀ bucket ∈ (afterUpdates ["1"]).buckets,
      CountsOnce { afterUpdates ["1"] with now := bucket.deadline } updateRule bucket := by
  have hone : ∀ bucket ∈ (afterUpdates ["1"]).buckets, bucket.coalescedCount = 1 ∧
      tokenUnit ≤ { afterUpdates ["1"] with now := bucket.deadline }.tokensOf updateRule.name := by
    decide +kernel
  refine ⟨by decide +kernel, fun bucket hbucket => ?_⟩
  obtain ⟨burst, hburst, hiff⟩ :=
    burst_counts_once_iff twoAMinute 0 .empty [.event (updatedFrame "1" 7)] bucket hbucket
  have hrule : ∀ p ∈ burst, p.rule = updateRule := by
    intro p hp
    have hseen : p ∈ (afterUpdates ["1"]).seen := hburst.pushed.subset hp
    rw [List.mem_singleton.1 hseen]
    rfl
  obtain ⟨hcount, htoken⟩ := hone bucket hbucket
  exact (hiff updateRule hrule _).2 ⟨htoken, .inl (hburst.count.symm.trans hcount)⟩

/-- Two updates of a task, coalesced into one bucket, take both tokens; the update of another task
    is dropped. -/
theorem burst_uses_up_budget :
    twoAMinute.config.accepted = true ∧ (afterUpdates ["1", "2"]).buckets.length = 1 ∧
      (∀ bucket ∈ (afterUpdates ["1", "2"]).buckets, bucket.coalescedCount = 2 ∧
        ¬ CountsOnce { afterUpdates ["1", "2"] with now := bucket.deadline } updateRule bucket) ∧
      ([.wait 1500, .event (updatedFrame "3" 8), .wait 1500].foldl step
        (afterUpdates ["1", "2"])).dropped.map (·.identity.taskId) = [some 8] := by
  have hcost : ∀ bucket ∈ (afterUpdates ["1", "2"]).buckets, bucket.coalescedCount = 2 ∧
      ({ afterUpdates ["1", "2"] with now := bucket.deadline }.fireBucket bucket).tokensOf
        updateRule.name + tokenUnit ≠
          { afterUpdates ["1", "2"] with now := bucket.deadline }.tokensOf updateRule.name := by
    decide +kernel
  refine ⟨by decide +kernel, by decide +kernel, fun bucket hbucket => ?_, by decide +kernel⟩
  exact ⟨(hcost bucket hbucket).1, fun honce => (hcost bucket hbucket).2 honce.token⟩

end WoodFiredTasks.Router.WftRouterDaemon
