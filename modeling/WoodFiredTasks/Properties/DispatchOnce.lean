import WoodFiredTasks.Lib.Runs
import WoodFiredTasks.Router.DaemonSpec

set_option autoImplicit false

/-! # A dispatch is attempted once

A row of `dispatch_log` leaves `PENDING` only through the attempt that has claimed it, and a row
that is there suppresses every later claim. So the dispatch of a key is attempted at most once, and
what a crash or a failure leaves behind stays (`dispatch_atMostOnce`). No later delivery tries
again (`dispatch_notRetried`): the daemon's header defers the retry loop and the replay of pending
rows. -/

namespace WoodFiredTasks.Router

/-! ## The ends of an attempt -/

theorem finishRequest_ne_pending (result : EffectResult) :
    (finishRequest result).1 ≠ .pending := by
  unfold finishRequest
  repeat' split
  all_goals nofun

theorem finishChild_ne_pending (result : EffectResult) : (finishChild result).1 ≠ .pending := by
  unfold finishChild
  repeat' split
  all_goals nofun

/-- An attempt never ends as pending. -/
theorem finish_ne_pending (name : HandlerName) (result : EffectResult) :
    ((defaultHandlerRegistry name).finish result).1 ≠ .pending := by
  cases name with
  | createTaskInProject => exact finishRequest_ne_pending result
  | webhookPost => exact finishRequest_ne_pending result
  | shellExec => exact finishChild_ne_pending result
  | agentSessionDispatch => exact finishChild_ne_pending result

namespace WftRouterDaemon

variable {d : WftRouterDaemon}

/-! ## One invocation -/

/-- An invocation leaves every key with a row as it is, and does not claim it. -/
theorem status_invoke {name : HandlerName} {payload : DispatchPayload} {key : DispatchKey}
    (hrow : key ∈ d.store.keys) :
    (d.invoke name payload).store.status key = d.store.status key := by
  rcases d.invoke_cases name payload with ⟨-, -, hstore, -⟩ |
    ⟨hnew, -, block, ⟨hstore, -⟩ | ⟨hstore, -⟩⟩
  · rw [hstore]
  · rw [hstore, IdempotencyStore.status_claim hrow]
  · have hother : key ≠ payload.identity.key := by
      intro heq
      exact hnew (heq ▸ hrow)
    rw [hstore, IdempotencyStore.status_complete (.inl hother),
      IdempotencyStore.status_claim hrow]

/-- A new running attempt has just claimed its key. -/
theorem running_invoke (d : WftRouterDaemon) (name : HandlerName) (payload : DispatchPayload) :
    (d.invoke name payload).running = d.running ∨
      payload.identity.key ∉ d.store.keys ∧
      (d.invoke name payload).running = d.running ++ [⟨name, payload.identity.key⟩] ∧
      (d.invoke name payload).store.status payload.identity.key = some .pending := by
  rcases d.invoke_cases name payload with ⟨-, -, -, hrunning⟩ |
    ⟨hnew, -, block, ⟨hstore, hrunning⟩ | ⟨-, hrunning⟩⟩
  · exact .inl hrunning
  · refine .inr ⟨hnew, hrunning, ?_⟩
    rw [hstore, IdempotencyStore.claim_of_notMem hnew]
    simp [IdempotencyStore.status_insertPending]
  · exact .inl hrunning

/-! ## The running attempts -/

/-- A running attempt has claimed its key in this process, and its row is pending. -/
def RunningPending (d : WftRouterDaemon) : Prop :=
  (d.running.map (·.key)).Nodup ∧
    ∀ attempt ∈ d.running, d.store.status attempt.key = some .pending

theorem mem_keys_of_status {store : IdempotencyStore} {key : DispatchKey} {status : DispatchStatus}
    (h : store.status key = some status) : key ∈ store.keys := by
  by_contra hno
  rw [IdempotencyStore.status_eq_none.2 hno] at h
  cases h

theorem runningPending_closed : CoreClosed RunningPending where
  frame d d' hstore hrunning _ hd := by
    unfold RunningPending
    rw [hstore, hrunning]
    exact hd
  invoke d name payload hd := by
    have hold : ∀ attempt ∈ d.running,
        (d.invoke name payload).store.status attempt.key = some .pending := by
      intro attempt hattempt
      have hstatus := hd.2 attempt hattempt
      rw [status_invoke (mem_keys_of_status hstatus), hstatus]
    rcases d.running_invoke name payload with hrunning |
      ⟨hnew, hrunning, hpending⟩
    · unfold RunningPending
      rw [hrunning]
      exact ⟨hd.1, hold⟩
    · unfold RunningPending
      rw [hrunning]
      constructor
      · rw [List.map_append, List.nodup_append]
        refine ⟨hd.1, by simp, ?_⟩
        intro key hkey key' hkey' heq
        obtain ⟨attempt, hattempt, rfl⟩ := List.mem_map.1 hkey
        rw [List.map_singleton, List.mem_singleton] at hkey'
        have hrow := mem_keys_of_status (hd.2 attempt hattempt)
        rw [heq, hkey'] at hrow
        exact hnew hrow
      · intro attempt hattempt
        rcases List.mem_append.1 hattempt with hattempt | hattempt
        · exact hold attempt hattempt
        · rw [List.mem_singleton.1 hattempt]
          exact hpending
  settle d i result hd := by
    unfold settle
    split
    · exact hd
    · next ended hended =>
      have hsub : (d.running.eraseIdx i).Sublist d.running := List.eraseIdx_sublist ..
      refine ⟨hd.1.sublist (hsub.map _), ?_⟩
      intro attempt hattempt
      have hother : attempt.key ≠ ended.key := by
        intro heq
        obtain ⟨j, hij, hget⟩ := List.mem_eraseIdx_iff_getElem?.1 hattempt
        have hj : j < (d.running.map (·.key)).length := by
          simpa using (List.getElem?_eq_some_iff.1 hget).1
        have hsame : (d.running.map (·.key))[j]? = (d.running.map (·.key))[i]? := by
          simp [hget, hended, heq]
        exact hij ((List.getElem?_inj hj hd.1).1 hsame)
      show (d.store.complete _ _ _).2.status attempt.key = some .pending
      rw [IdempotencyStore.status_complete (.inl hother)]
      exact hd.2 attempt (hsub.mem hattempt)
  start d deps hd := by
    exact ⟨List.nodup_nil, by simp [start]⟩

/-- The end of a running attempt is the status of its row. -/
theorem status_settle (hd : RunningPending d) {i : Nat} {attempt : RunningAttempt}
    (h : d.running[i]? = some attempt) (result : EffectResult) :
    (d.settle i result).store.status attempt.key =
      some ((defaultHandlerRegistry attempt.handler).finish result).1 := by
  have hpending := hd.2 attempt (List.mem_of_getElem? h)
  unfold settle
  rw [h]
  exact IdempotencyStore.status_complete_of_pending hpending (finish_ne_pending _ _)

/-! ## Rows that nothing will write to -/

/-- The row under the key has the status, and no running attempt will write another. -/
def Ended (d : WftRouterDaemon) (key : DispatchKey) (status : DispatchStatus) : Prop :=
  d.store.status key = some status ∧
    (status = .pending → ∀ attempt ∈ d.running, attempt.key ≠ key)

/-- The row is as it was, and since then the key was not claimed. -/
def Suppressed (key : DispatchKey) (status : DispatchStatus) (before : List Invocation)
    (d : WftRouterDaemon) : Prop :=
  Ended d key status ∧ ∃ later, d.invocations = before ++ later ∧
    ∀ inv ∈ later, inv.ctx.identity.key = key → inv.claim ≠ some .claimed

theorem suppressed_closed (key : DispatchKey) (status : DispatchStatus)
    (before : List Invocation) : CoreClosed (Suppressed key status before) where
  frame d d' hstore hrunning hinvocations hd := by
    unfold Suppressed Ended
    rw [hstore, hrunning, hinvocations]
    exact hd
  invoke d name payload hd := by
    obtain ⟨⟨hstatus, hended⟩, later, hlater, hsuppressed⟩ := hd
    have hrow := mem_keys_of_status hstatus
    refine ⟨⟨by rw [status_invoke hrow, hstatus], ?_⟩,
      later ++ [d.invocation name payload], by simp [hlater], ?_⟩
    · intro hpending attempt hattempt
      rcases d.running_invoke name payload with hrunning |
        ⟨hnew, hrunning, -⟩
      · exact hended hpending attempt (hrunning ▸ hattempt)
      · rw [hrunning, List.mem_append, List.mem_singleton] at hattempt
        rcases hattempt with hattempt | rfl
        · exact hended hpending attempt hattempt
        · intro heq
          have hrow' : payload.identity.key ∈ d.store.keys := by
            rw [show payload.identity.key = key from heq]
            exact hrow
          exact hnew hrow'
    · intro inv hinv hkey
      rcases List.mem_append.1 hinv with hinv | hinv
      · exact hsuppressed inv hinv hkey
      · rw [List.mem_singleton.1 hinv] at hkey ⊢
        rcases d.invoke_cases name payload with ⟨hclaim, -⟩ | ⟨hnew, -⟩
        · exact hclaim
        · rw [identity_invocation] at hkey
          exact absurd (hkey ▸ hrow) hnew
  settle d i result hd := by
    obtain ⟨⟨hstatus, hended⟩, hlater⟩ := hd
    refine ⟨?_, by rw [invocations_settle]; exact hlater⟩
    unfold settle
    split
    · exact ⟨hstatus, hended⟩
    · next attempt hattempt =>
      constructor
      · have hkept : key ≠ attempt.key ∨ d.store.status key ≠ some .pending := by
          by_cases hpending : status = .pending
          · exact .inl (hended hpending attempt (List.mem_of_getElem? hattempt)).symm
          · right
            rw [hstatus]
            simpa using hpending
        show (d.store.complete _ _ _).2.status key = some status
        rw [IdempotencyStore.status_complete hkept, hstatus]
      · intro hpending other hother
        exact hended hpending other (List.mem_of_mem_eraseIdx hother)
  start d deps hd := by
    obtain ⟨⟨hstatus, hended⟩, hlater⟩ := hd
    exact ⟨⟨hstatus, by simp [start]⟩, hlater⟩

/-- A suppressed key is claimed as often as before. -/
theorem Suppressed.count {key : DispatchKey} {status : DispatchStatus} {before : List Invocation}
    (h : Suppressed key status before d) :
    (claimedKeys d.invocations).count key = (claimedKeys before).count key := by
  obtain ⟨-, later, hlater, hsuppressed⟩ := h
  have hnone : key ∉ claimedKeys later := by
    intro hmem
    obtain ⟨inv, hinv, hkey⟩ := List.mem_map.1 hmem
    obtain ⟨hinv, hclaim⟩ := List.mem_filter.1 hinv
    exact hsuppressed inv hinv hkey (by simpa using hclaim)
  rw [hlater, claimedKeys_append, List.count_append, List.count_eq_zero.2 hnone]
  omega

/-- No state that comes later changes such a row. -/
theorem Ended.always {key : DispatchKey} {status : DispatchStatus} (h : Ended d key status)
    (later : List Action) : Always step (Suppressed key status d.invocations) d later := by
  have hnow : Suppressed key status d.invocations d := ⟨h, [], by simp, by simp⟩
  have hok : RunOk step (fun _ _ => True) d later := RunOk.of_forall fun _ _ _ => trivial
  exact hok.always (fun _ a hd _ => (suppressed_closed _ _ _).step hd a) hnow

/-! ## The results -/

/-- **Main theorem.** In every run of the daemon over its store, with crashes, new starts and
    redeliveries at any point, a key is claimed at most once. An attempt that is still running
    when its act ends writes the status of this end. A row that no running attempt will write to,
    be it a failed one or one left pending by a crash, stays as it is in every later state, and
    its key is not claimed again. -/
theorem dispatch_atMostOnce (deps : DaemonDeps) (now : Nat) (store : IdempotencyStore)
    (acts : List Action) :
    let d := acts.foldl step { deps, now, store }
    (store.keys ++ claimedKeys d.invocations).Nodup ∧
    (∀ i attempt result, d.running[i]? = some attempt →
      (d.settle i result).store.status attempt.key =
        some ((defaultHandlerRegistry attempt.handler).finish result).1) ∧
    ∀ key status, Ended d key status →
      ∀ later, Always step (Suppressed key status d.invocations) d later := by
  have hstart : RunningPending { deps, now, store } := ⟨List.nodup_nil, nofun⟩
  refine ⟨claimedKeys_nodup deps now store acts, ?_, ?_⟩
  · intro i attempt result hattempt
    exact status_settle (runningPending_closed.run hstart acts) hattempt result
  · intro key status hended later
    exact hended.always later

/-! A daemon with one rule, which posts every new task. -/

def onceRule : Rule where
  name := "notify"
  on := .taskCreated
  doHandler := .webhookPost
  withBlock := [("url", .str "https://receiver.local/hook")]

def onceDeps : DaemonDeps where
  config := { rules := [onceRule] }
  apiBaseUrl := "https://tasks.local"
  apiKey := "key"
  env := fun _ => none

def onceEvent : SSEEvent where
  id := some "1"
  event := some "task.created"
  data := some { data := some { id := some 7 } }
  origin := ⟨0, 1⟩

def onceKey : DispatchKey := ("notify", "1")

/-- The daemon dies between the claim and the answer. -/
def crashed : WftRouterDaemon :=
  [.event onceEvent, .wait 1500, .start onceDeps].foldl step { deps := onceDeps, now := 0 }

/-- The receiver answers with 503, which is retryable. -/
def failedOnce : WftRouterDaemon :=
  [.event onceEvent, .wait 1500, .settle 0 (.response 503)].foldl step
    { deps := onceDeps, now := 0 }

/-- The daemon comes up again and the event is delivered again. -/
def redelivery : List Action := [.start onceDeps, .event onceEvent, .wait 1500]

theorem ended_crashed : Ended crashed onceKey .pending :=
  ⟨by decide +kernel, fun _ => by decide +kernel⟩

theorem ended_failedOnce : Ended failedOnce onceKey .failed :=
  ⟨by decide +kernel, nofun⟩

/-- Both rows stay as they are over every number of redeliveries, and nothing is claimed again. -/
theorem dispatch_notRetried :
    (onceDeps.config.accepted = true ∧ (finishRequest (.response 503)).2 =
      .failed true "HTTP 503 (server error)") ∧
    (∀ n, let d := (List.replicate n redelivery).flatten.foldl step crashed
      d.store.status onceKey = some .pending ∧ (claimedKeys d.invocations).count onceKey = 1) ∧
    ∀ n, let d := (List.replicate n redelivery).flatten.foldl step failedOnce
      d.store.status onceKey = some .failed ∧ (claimedKeys d.invocations).count onceKey = 1 := by
  refine ⟨⟨by decide +kernel, by decide +kernel⟩, ?_, ?_⟩
  · intro n
    have hlast := (ended_crashed.always (List.replicate n redelivery).flatten).last
    exact ⟨hlast.1.1, hlast.count.trans (by decide +kernel)⟩
  · intro n
    have hlast := (ended_failedOnce.always (List.replicate n redelivery).flatten).last
    exact ⟨hlast.1.1, hlast.count.trans (by decide +kernel)⟩

/-- An answer that comes after the crash finds no attempt, and the row stays pending. -/
theorem dispatch_atMostOnce_crashed :
    Always step (Suppressed onceKey .pending crashed.invocations) crashed
      [.event onceEvent, .wait 1500, .settle 0 (.response 200)] :=
  (dispatch_atMostOnce onceDeps 0 .empty [.event onceEvent, .wait 1500, .start onceDeps]).2.2
    onceKey .pending ended_crashed _

end WftRouterDaemon

end WoodFiredTasks.Router
