import WoodFiredTasks.Router.HandlerRuns

set_option autoImplicit false

/-! # Every attempt settles its row

For each of the four handlers, every context, every state of the store and everything that can
happen while an attempt waits: without the claim nothing is done to the outside and the attempt is
suppressed; with it, an attempt that returns has completed its row, once, with the status that
says what it returned.

The law is an invariant of the attempt. A handler only ever leaves the waiting stages through
`finish` or `settleChild`, and each of these completes the row and gives the outcome together. -/

namespace WoodFiredTasks.Router

/-- A status says of a dispatch what the outcome says. -/
structure Settles (status : DispatchStatus) (outcome : HandlerOutcome) : Prop where
  terminal : status ≠ .pending
  succeeded : status = .succeeded ↔ outcome = .succeeded
  failed : status = .failed ↔ ∃ detail, outcome = .failed true detail
  permanentlyFailed : status = .permanentlyFailed ↔ ∃ detail, outcome = .failed false detail

theorem settles_retry (detail : String) : Settles (retry detail).1 (retry detail).2 := by
  constructor <;> simp [retry]

theorem settles_giveUp (detail : String) : Settles (giveUp detail).1 (giveUp detail).2 := by
  constructor <;> simp [giveUp]

theorem settles_succeed : Settles succeed.1 succeed.2 := by
  constructor <;> simp [succeed]

theorem settles_finishRequest (result : EffectResult) :
    Settles (finishRequest result).1 (finishRequest result).2 := by
  unfold finishRequest
  split
  · split
    · exact settles_succeed
    · split
      · exact settles_giveUp _
      · exact settles_retry _
  · exact settles_retry _
  · exact settles_giveUp _
  · exact settles_retry _

theorem settles_finishChild (result : EffectResult) :
    Settles (finishChild result).1 (finishChild result).2 := by
  unfold finishChild
  split
  · split
    · exact settles_succeed
    · exact settles_retry _
  · exact settles_retry _
  · exact settles_retry _
  · exact settles_giveUp _
  · split
    · exact settles_giveUp _
    · exact settles_retry _
  · exact settles_retry _

namespace AttemptState

variable {env : HandlerEnv} {key : DispatchKey} {st : AttemptState} {now : Nat}

/-- The attempt has its claim and its row is still pending. -/
structure Open (key : DispatchKey) (st : AttemptState) : Prop where
  claim : st.claim = some .claimed
  completions : st.completions = []
  pending : st.store.status key = some .pending

/-- The law of an attempt. -/
structure Law (key : DispatchKey) (st : AttemptState) : Prop where
  /-- An attempt without the claim has ended, and has done nothing. -/
  ended : st.claim ≠ some .claimed → st.effects = [] ∧ st.completions = [] ∧
    ((∃ outcome, st.stage = .returned outcome) ∨ ∃ message, st.stage = .threw message)
  suppressed : ∀ result, st.claim = some result → result ≠ .claimed →
    ∃ reason, st.stage = .returned (.suppressed reason)
  child : ∀ child, st.stage = .running child → child.settled = child.outcome.isSome
  waiting : st.claim = some .claimed → st.stage.outcome = none → st.Open key
  settled : st.claim = some .claimed → ∀ outcome, st.stage.outcome = some outcome →
    ∃ status, st.completions = [(status, true)] ∧ st.store.status key = some status ∧
      Settles status outcome

/-- Only who has the claim waits. -/
theorem Law.open_of_waiting (h : st.Law key) (hstage : st.stage.outcome = none)
    (hthrew : ∀ message, st.stage ≠ .threw message) : st.Open key := by
  by_cases hclaim : st.claim = some .claimed
  · exact h.waiting hclaim hstage
  · obtain ⟨-, -, ⟨outcome, hret⟩ | ⟨message, hret⟩⟩ := h.ended hclaim
    · rw [hret] at hstage
      cases hstage
    · exact absurd hret (hthrew message)

theorem Open.complete {ending : DispatchStatus × HandlerOutcome} (h : st.Open key) (now : Nat)
    (hending : Settles ending.1 ending.2) :
    (st.complete now key ending.1).completions = [(ending.1, true)] ∧
      (st.complete now key ending.1).store.status key = some ending.1 := by
  constructor
  · have hchanged : (st.store.complete now key ending.1).1 = true := by
      simp [IdempotencyStore.complete, hending.terminal, h.pending]
    simp [AttemptState.complete, h.completions, hchanged]
  · exact IdempotencyStore.status_complete_of_pending h.pending hending.terminal

theorem Open.finish {ending : DispatchStatus × HandlerOutcome} (h : st.Open key)
    (hending : Settles ending.1 ending.2) : (st.finish now key ending).Law key := by
  obtain ⟨hcompletions, hstatus⟩ := h.complete now hending
  refine ⟨fun hno => absurd h.claim hno, fun result hr hne => ?_, nofun, nofun, ?_⟩
  · exact absurd (Option.some.inj (hr.symm.trans h.claim)) hne
  · intro _ outcome houtcome
    cases houtcome
    exact ⟨ending.1, hcompletions, hstatus, hending⟩

theorem Open.act {effect : Effect} {stage : Stage} (h : st.Open key)
    (hstage : stage.outcome = none)
    (hchild : ∀ child, stage = .running child → child.settled = false) :
    (st.act effect stage).Law key := by
  refine ⟨fun hno => absurd h.claim hno, fun result hr hne => ?_, ?_, ?_, ?_⟩
  · exact absurd (Option.some.inj (hr.symm.trans h.claim)) hne
  · intro child hc
    have hc : stage = .running child := hc
    have houtcome : child.outcome = none := by rw [hc] at hstage; exact hstage
    rw [hchild child hc, houtcome]
    rfl
  · exact fun _ _ => ⟨h.claim, h.completions, h.pending⟩
  · intro _ outcome houtcome
    have houtcome : stage.outcome = some outcome := houtcome
    rw [hstage] at houtcome
    cases houtcome

theorem Law.settleChild {child : ChildRun} {ending : DispatchStatus × HandlerOutcome}
    (h : st.Law key) (hstage : st.stage = .running child) (hending : Settles ending.1 ending.2) :
    (st.settleChild child now key ending).Law key := by
  have hsettled := h.child child hstage
  unfold AttemptState.settleChild
  split
  · exact h
  · next hnot =>
    -- nobody has settled yet, so the row is pending
    have hnone : child.outcome = none := by
      rw [hsettled, Bool.not_eq_true, Option.isSome_eq_false_iff, Option.isNone_iff_eq_none] at hnot
      exact hnot
    have hopen : st.Open key := h.open_of_waiting (by rw [hstage]; exact hnone) (by simp [hstage])
    obtain ⟨hcompletions, hstatus⟩ := hopen.complete now hending
    refine ⟨fun hno => absurd hopen.claim hno, fun result hr hne => ?_, ?_, nofun, ?_⟩
    · exact absurd (Option.some.inj (hr.symm.trans hopen.claim)) hne
    · intro child' hc
      cases hc
      rfl
    · intro _ outcome houtcome
      cases houtcome
      exact ⟨ending.1, hcompletions, hstatus, hending⟩

/-! ## The beginning -/

/-- What a handler does with its claim keeps the law, so the whole beginning does. -/
theorem law_claimAndAct {resolved : Option (Except TemplatingError Block)} {noPayload : String}
    {store : IdempotencyStore} {identity : DispatchIdentity}
    {go : Block → AttemptState → AttemptState}
    (hgo : ∀ block st, st.Open identity.key → (go block st).Law identity.key) :
    (claimAndAct resolved noPayload store now identity go).Law identity.key := by
  have hended : ∀ {result : Option ClaimResult} {stage : Stage} {store : IdempotencyStore},
      result ≠ some .claimed → (∀ child, stage ≠ .running child) →
      ((∃ outcome, stage = .returned outcome) ∨ ∃ message, stage = .threw message) →
      (∀ r, result = some r → ∃ reason, stage = .returned (.suppressed reason)) →
      Law identity.key ⟨stage, result, store, [], []⟩ := by
    intro result stage store hresult hchild hstage hsuppressed
    exact ⟨fun _ => ⟨rfl, rfl, hstage⟩, fun r hr _ => hsuppressed r hr,
      fun child hc => absurd hc (hchild child), fun hc => absurd hc hresult,
      fun hc => absurd hc hresult⟩
  unfold claimAndAct
  split
  · exact hended nofun nofun (.inl ⟨_, rfl⟩) nofun
  · exact hended nofun nofun (.inr ⟨_, rfl⟩) nofun
  · next block =>
    by_cases hkey : identity.key ∈ store.keys
    · -- the key has a row, and the claim is refused
      have hrefused := (IdempotencyStore.claim_of_mem now block hkey).1
      rcases hclaim : store.claim now identity block with ⟨_ | _ | status, store'⟩
      · rw [hclaim] at hrefused
        exact absurd rfl hrefused
      · exact hended nofun nofun (.inl ⟨_, rfl⟩) fun _ _ => ⟨_, rfl⟩
      · exact hended nofun nofun (.inl ⟨_, rfl⟩) fun _ _ => ⟨_, rfl⟩
    · rw [IdempotencyStore.claim_of_notMem hkey]
      refine hgo block _ ⟨rfl, rfl, ?_⟩
      rw [IdempotencyStore.status_insertPending, IdempotencyStore.key_pendingRow, if_pos rfl]
      rfl

theorem Open.spawnChild {program : String} {argv : List String} (h : st.Open key) :
    (spawnChild env st now key program argv).Law key := by
  unfold Router.spawnChild
  split
  · exact h.finish (settles_giveUp _)
  · refine h.act rfl fun child hc => ?_
    cases hc
    rfl

theorem law_start (env : HandlerEnv) (handler : HandlerName) (ctx : AttemptContext)
    (store : IdempotencyStore) (now now' : Nat) :
    (start env handler ctx store now now').Law ctx.identity.key := by
  cases handler with
  | createTaskInProject =>
    rw [start, startCreateTask]
    refine law_claimAndAct fun block st hopen => ?_
    split
    · exact hopen.finish (settles_giveUp _)
    · exact hopen.act rfl fun _ hc => by cases hc
  | webhookPost =>
    rw [start, startWebhookPost]
    refine law_claimAndAct fun block st hopen => ?_
    split
    · split
      · exact hopen.finish (settles_giveUp _)
      · split
        · exact hopen.finish (settles_giveUp _)
        · exact hopen.act rfl fun _ hc => by cases hc
    · exact hopen.finish (settles_giveUp _)
  | shellExec =>
    rw [start, startShellExec]
    refine law_claimAndAct fun block st hopen => ?_
    split
    · split
      · exact hopen.finish (settles_giveUp _)
      · exact hopen.spawnChild
    · exact hopen.finish (settles_giveUp _)
  | agentSessionDispatch =>
    rw [start, startAgentSession]
    refine law_claimAndAct fun block st hopen => ?_
    split
    · split
      · exact hopen.finish (settles_giveUp _)
      · exact hopen.spawnChild
    · exact hopen.finish (settles_giveUp _)

/-! ## Every step -/

/-- Nobody else changes the row. -/
theorem status_other {store : IdempotencyStore} (call : OtherCall key) (h : key ∈ store.keys) :
    (call.run store).status key = store.status key := by
  cases call with
  | claim now identity block => exact IdempotencyStore.status_claim h
  | complete now other status => exact IdempotencyStore.status_complete (.inl other.2.symm)

theorem Law.other (h : st.Law key) (call : OtherCall key) :
    Law key { st with store := call.run st.store } := by
  have hstatus : ∀ status, st.store.status key = some status →
      (call.run st.store).status key = some status := by
    intro status hs
    have hrow : key ∈ st.store.keys := by
      by_contra hno
      rw [IdempotencyStore.status_eq_none.2 hno] at hs
      cases hs
    rw [status_other call hrow, hs]
  refine ⟨h.ended, h.suppressed, h.child, fun hclaim hout => ?_, fun hclaim outcome hout => ?_⟩
  · have hopen := h.waiting hclaim hout
    exact ⟨hopen.claim, hopen.completions, hstatus _ hopen.pending⟩
  · obtain ⟨status, hcompletions, hrow, hsettles⟩ := h.settled hclaim outcome hout
    exact ⟨status, hcompletions, hstatus _ hrow, hsettles⟩

theorem Open.createResult (h : st.Open key) (result : HttpResult) :
    (onCreateResult st now key result).Law key := by
  cases result <;> exact h.finish (settles_finishRequest _)

theorem Open.postResult {block : Block} {dispatchUrl : String} {hops : Nat} (h : st.Open key)
    (result : HttpResult) :
    (onPostResult env st now key block dispatchUrl hops result).Law key := by
  unfold onPostResult
  split
  · exact h.finish (settles_finishRequest _)
  · exact h.finish (settles_finishRequest _)
  · exact h.finish (settles_finishRequest _)
  · split
    · split
      · exact h.finish (settles_giveUp _)
      · split
        · exact h.finish (settles_giveUp _)
        · split
          · exact h.finish (settles_giveUp _)
          · exact h.act rfl fun _ hc => by cases hc
    · exact h.finish (settles_finishRequest _)

/-- A timer changes neither the row nor the promise. -/
theorem Law.timer {child child' : ChildRun} {effect : Effect} (h : st.Law key)
    (hstage : st.stage = .running child) (hsettled : child'.settled = child.settled)
    (houtcome : child'.outcome = child.outcome) :
    (st.act effect (.running child')).Law key := by
  have hchild := h.child child hstage
  have hclaim : st.claim = some .claimed := by
    by_contra hno
    obtain ⟨-, -, ⟨outcome, hret⟩ | ⟨message, hret⟩⟩ := h.ended hno <;> simp [hstage] at hret
  refine ⟨fun hno => absurd hclaim hno, fun result hr hne => ?_, ?_, ?_, ?_⟩
  · exact absurd (Option.some.inj (hr.symm.trans hclaim)) hne
  · intro child'' hc
    cases hc
    rw [hsettled, houtcome, hchild]
  · intro _ hout
    have hopen := h.waiting hclaim (by rw [hstage]; exact houtcome.symm.trans hout)
    exact ⟨hopen.claim, hopen.completions, hopen.pending⟩
  · intro _ outcome hout
    exact h.settled hclaim outcome (by rw [hstage]; exact houtcome.symm.trans hout)

theorem Law.childEvent {child : ChildRun} (h : st.Law key) (hstage : st.stage = .running child)
    (event : ChildEvent) : (onChildEvent st now key child event).Law key := by
  unfold onChildEvent
  split
  · split
    · exact h.timer hstage rfl rfl
    · exact h
  · split
    · exact h.timer hstage rfl rfl
    · exact h
  · exact h.settleChild hstage (settles_finishChild _)
  · split
    · exact h.settleChild hstage (settles_finishChild _)
    · split
      · exact h.settleChild hstage (settles_finishChild _)
      · exact h.settleChild hstage (settles_finishChild _)

theorem Law.step (h : st.Law key) (stimulus : Stimulus key) : (st.step env key stimulus).Law key := by
  cases stimulus with
  | other call => exact h.other call
  | http now result =>
    unfold AttemptState.step
    dsimp only
    split
    · next hstage =>
      exact (h.open_of_waiting (by rw [hstage]; rfl) (by simp [hstage])).createResult result
    · next hstage =>
      exact (h.open_of_waiting (by rw [hstage]; rfl) (by simp [hstage])).postResult result
    · exact h
  | child now event =>
    unfold AttemptState.step
    dsimp only
    split
    · next hstage => exact h.childEvent hstage event
    · exact h

end AttemptState

theorem law_runAttempt (env : HandlerEnv) (handler : HandlerName) (ctx : AttemptContext)
    (store : IdempotencyStore) (now now' : Nat) (stimuli : List (Stimulus ctx.identity.key)) :
    (runAttempt env handler ctx store now now' stimuli).Law ctx.identity.key := by
  unfold runAttempt
  have hstart := AttemptState.law_start env handler ctx store now now'
  generalize start env handler ctx store now now' = st at hstart ⊢
  induction stimuli generalizing st with
  | nil => exact hstart
  | cons stimulus rest ih => exact ih _ (hstart.step stimulus)

end WoodFiredTasks.Router
