import WoodFiredTasks.Router.Daemon

set_option autoImplicit false

/-! # What the daemon does

One inversion lemma for the attempt of a handler; and a rule for what depends only on the store,
the running attempts and the invocations: it holds after every step once it is kept by an
invocation, by the end of an attempt and by a new start (`CoreClosed.step`). -/

namespace WoodFiredTasks.Router

/-! ## One attempt -/

section

variable {handler : HandlerSpec} {store : IdempotencyStore} {now : Nat} {ctx : HandlerContext}

/-- An attempt whose block does not resolve. -/
theorem HandlerSpec.attempt_of_error {err : TemplatingError} (h : handler.resolve ctx = .error err) :
    handler.attempt store now ctx = ⟨none, .threw err.message, store⟩ := by
  simp [HandlerSpec.attempt, h]

/-- An attempt on a key that has no row goes through with its claim. -/
theorem HandlerSpec.attempt_of_notMem {block : List (String × Json)}
    (h : handler.resolve ctx = .ok block) (hnew : ctx.identity.key ∉ store.keys) :
    handler.attempt store now ctx = match handler.configError block with
      | none => ⟨some .claimed, .acting, (store.claim now ctx.identity block).2⟩
      | some detail => ⟨some .claimed, .settled (.failed false detail),
          ((store.claim now ctx.identity block).2.complete now ctx.identity.key
            .permanentlyFailed).2⟩ := by
  have hclaim : (store.claim now ctx.identity block).1 = .claimed := by
    rw [IdempotencyStore.claim_of_notMem hnew]
  unfold HandlerSpec.attempt
  rw [h]
  dsimp only
  cases hanswer : store.claim now ctx.identity block with
  | mk result store' =>
    rw [hanswer] at hclaim
    cases hclaim
    cases handler.configError block with
    | none => rfl
    | some detail => rfl

/-- An attempt on a key that has a row is suppressed. -/
theorem HandlerSpec.attempt_of_mem (now : Nat) {block : List (String × Json)}
    (h : handler.resolve ctx = .ok block) (hrow : ctx.identity.key ∈ store.keys) :
    (handler.attempt store now ctx).claim ≠ some .claimed ∧
      (handler.attempt store now ctx).ending ≠ .acting ∧
      (handler.attempt store now ctx).store = store := by
  obtain ⟨hclaim, hstore⟩ := store.claim_of_mem now block hrow
  simp only [HandlerSpec.attempt, h]
  cases hanswer : store.claim now ctx.identity block with
  | mk result store' =>
    rw [hanswer] at hclaim hstore
    cases result with
    | claimed => exact absurd rfl hclaim
    | alreadyPending => exact ⟨nofun, nofun, hstore⟩
    | alreadyDone status => exact ⟨nofun, nofun, hstore⟩

/-- An attempt whose block resolves gets to its claim. -/
theorem HandlerSpec.claim_ne_none {block : List (String × Json)}
    (h : handler.resolve ctx = .ok block) : (handler.attempt store now ctx).claim ≠ none := by
  simp only [HandlerSpec.attempt, h]
  cases store.claim now ctx.identity block with
  | mk result store' =>
    cases result with
    | claimed => cases handler.configError block <;> simp
    | alreadyPending => simp
    | alreadyDone status => simp

end

namespace WftRouterDaemon

/-- The call that `invoke` records. -/
def invocation (d : WftRouterDaemon) (name : HandlerName) (payload : DispatchPayload) :
    Invocation :=
  let ctx := buildContext d.deps payload.rule payload.event payload.identity
  ⟨name, ctx, payload.origin, ((defaultHandlerRegistry name).attempt d.store d.now ctx).claim⟩

/-- A payload for every rule that the event of the frame matches. -/
def payloads (deps : DaemonDeps) (ev : SSEEvent) : List DispatchPayload :=
  if isControlEvent ev then []
  else match mapSSEEvent ev with
    | none => []
    | some mapped => (matched deps mapped).map (dispatchPayload · mapped)

/-- The keys that were claimed, in the order in which they were. -/
def claimedKeys (invocations : List Invocation) : List DispatchKey :=
  (invocations.filter (·.claim = some .claimed)).map (·.ctx.identity.key)

@[simp] theorem claimedKeys_append (xs ys : List Invocation) :
    claimedKeys (xs ++ ys) = claimedKeys xs ++ claimedKeys ys := by
  simp [claimedKeys]

variable {d d' : WftRouterDaemon} {name : HandlerName} {payload : DispatchPayload}

@[simp] theorem invocations_invoke :
    (d.invoke name payload).invocations = d.invocations ++ [d.invocation name payload] := rfl

@[simp] theorem identity_buildContext (deps : DaemonDeps) (rule : Rule) (event : EventPayloadShape)
    (identity : DispatchIdentity) : (buildContext deps rule event identity).identity = identity :=
  rfl

@[simp] theorem identity_invocation :
    (d.invocation name payload).ctx.identity = payload.identity := rfl

/-- What can become of an invocation: it claims nothing and changes nothing, or it claims a new key
    and then acts or gives up. -/
theorem invoke_cases (d : WftRouterDaemon) (name : HandlerName) (payload : DispatchPayload) :
    ((d.invocation name payload).claim ≠ some .claimed ∧
      ((d.invocation name payload).claim ≠ none → payload.identity.key ∈ d.store.keys) ∧
      (d.invoke name payload).store = d.store ∧ (d.invoke name payload).running = d.running) ∨
    (payload.identity.key ∉ d.store.keys ∧ (d.invocation name payload).claim = some .claimed ∧
      ∃ block,
        (d.invoke name payload).store = (d.store.claim d.now payload.identity block).2 ∧
          (d.invoke name payload).running = d.running ++ [⟨name, payload.identity.key⟩] ∨
        (d.invoke name payload).store = ((d.store.claim d.now payload.identity block).2.complete
          d.now payload.identity.key .permanentlyFailed).2 ∧
          (d.invoke name payload).running = d.running) := by
  unfold invoke invocation
  dsimp only
  cases hresolve : (defaultHandlerRegistry name).resolve
      (buildContext d.deps payload.rule payload.event payload.identity) with
  | error err =>
    left
    simp [HandlerSpec.attempt_of_error hresolve]
  | ok block =>
    by_cases hrow : payload.identity.key ∈ d.store.keys
    · obtain ⟨hclaim, hending, hstore⟩ := HandlerSpec.attempt_of_mem d.now hresolve hrow
      exact .inl ⟨hclaim, fun _ => hrow, hstore, by simp [hending]⟩
    · rw [HandlerSpec.attempt_of_notMem hresolve hrow]
      refine .inr ⟨hrow, ?_⟩
      cases (defaultHandlerRegistry name).configError block with
      | none => exact ⟨rfl, block, .inl ⟨rfl, by simp⟩⟩
      | some detail => exact ⟨rfl, block, .inr ⟨rfl, by simp⟩⟩

/-- An invocation adds its key to the store exactly when it claims it. -/
theorem keys_invoke :
    (d.invoke name payload).store.keys = d.store.keys ++ claimedKeys [d.invocation name payload] := by
  rcases d.invoke_cases name payload with ⟨hclaim, -, hstore, -⟩ |
    ⟨hnew, hclaim, block, ⟨hstore, -⟩ | ⟨hstore, -⟩⟩
  · simp [claimedKeys, hclaim, hstore]
  · simp [claimedKeys, hclaim, hstore, IdempotencyStore.keys_claim, hnew]
  · simp [claimedKeys, hclaim, hstore, IdempotencyStore.keys_claim, hnew]

/-! ## What every step keeps -/

/-- The property depends on the store, the running attempts and the invocations only, and is kept
    by what changes these. -/
structure CoreClosed (I : WftRouterDaemon → Prop) : Prop where
  frame : ∀ d d' : WftRouterDaemon, d'.store = d.store → d'.running = d.running →
    d'.invocations = d.invocations → I d → I d'
  invoke : ∀ d name payload, I d → I (d.invoke name payload)
  settle : ∀ d i result, I d → I (d.settle i result)
  start : ∀ d deps, I d → I (d.start deps)

namespace CoreClosed

variable {I : WftRouterDaemon → Prop}

theorem dispatch (h : CoreClosed I) (hd : I d) (rule : Rule) : I (d.dispatch rule payload) := by
  unfold WftRouterDaemon.dispatch
  split
  · exact h.invoke _ _ _ (h.frame d _ rfl rfl rfl hd)
  · exact h.frame d _ rfl rfl rfl hd

theorem fireBucket (h : CoreClosed I) (bucket : Bucket DispatchPayload Rule) (hd : I d) :
    I (d.fireBucket bucket) := by
  unfold WftRouterDaemon.fireBucket
  exact List.foldlRecOn _ _ hd fun d hd rule _ => h.dispatch hd rule

theorem dispatchRule (h : CoreClosed I) (hd : I d) (rule : Rule) (mapped : MappedEvent) :
    I (d.dispatchRule rule mapped) := by
  have hseen : I { d with seen := d.seen ++ [dispatchPayload rule mapped] } :=
    h.frame d _ rfl rfl rfl hd
  unfold WftRouterDaemon.dispatchRule
  dsimp only
  split
  · exact h.dispatch hseen rule
  · exact h.frame d _ rfl rfl rfl hd

theorem onEvent (h : CoreClosed I) (hd : I d) (ev : SSEEvent) : I (d.onEvent ev) := by
  unfold WftRouterDaemon.onEvent
  split
  · exact hd
  · split
    · exact hd
    · exact List.foldlRecOn _ _ hd fun d hd rule _ => h.dispatchRule hd rule _

theorem sweepRule (h : CoreClosed I) (hd : I d) (rule : Rule) (tasks : List (Int × TaskShape)) :
    I (d.sweepRule rule tasks) := by
  unfold WftRouterDaemon.sweepRule
  split
  · exact hd
  · exact h.dispatchRule hd rule _

theorem wait (h : CoreClosed I) (hd : I d) (ms : Nat) : I (d.wait ms) := by
  have hfired : I ((d.buckets.takeWhile (·.deadline ≤ d.now + ms)).foldl fireTimer
      { d with buckets := d.buckets.dropWhile (·.deadline ≤ d.now + ms) }) := by
    refine List.foldlRecOn _ _ (h.frame d _ rfl rfl rfl hd) ?_
    intro d hd bucket _
    exact h.fireBucket bucket (h.frame d _ rfl rfl rfl hd)
  exact h.frame _ (d.wait ms) (by rfl) (by rfl) (by rfl) hfired

theorem stop (h : CoreClosed I) (hd : I d) : I d.stop :=
  List.foldlRecOn _ _ (h.frame d _ rfl rfl rfl hd) fun _ hd bucket _ => h.fireBucket bucket hd

/-- Such a property holds after every step. -/
theorem step (h : CoreClosed I) (hd : I d) (a : Action) : I (d.step a) := by
  cases a with
  | event ev => exact h.onEvent hd ev
  | sweep ruleIndex tasks =>
    simp only [WftRouterDaemon.step]
    split
    · exact hd
    · exact h.sweepRule hd _ tasks
  | wait ms => exact h.wait hd ms
  | settle i result => exact h.settle d i result hd
  | stop => exact h.stop hd
  | start deps => exact h.start d deps hd

/-- What holds of the start holds of every run. -/
theorem run {I : WftRouterDaemon → Prop} (h : CoreClosed I) (hd : I d)
    (acts : List Action) : I (acts.foldl WftRouterDaemon.step d) :=
  List.foldlRecOn _ _ hd fun _ hd a _ => h.step hd a

end CoreClosed

@[simp] theorem keys_settle (i : Nat) (result : EffectResult) :
    (d.settle i result).store.keys = d.store.keys := by
  unfold settle
  split
  · rfl
  · simp

@[simp] theorem invocations_settle (i : Nat) (result : EffectResult) :
    (d.settle i result).invocations = d.invocations := by
  unfold settle
  split <;> rfl

/-! ## The store and the claims -/

/-- The keys of the store are those from before and, in their order, the claimed ones. -/
def KeysAccounted (base : List DispatchKey) (d : WftRouterDaemon) : Prop :=
  d.store.keys = base ++ claimedKeys d.invocations

theorem keysAccounted_closed (base : List DispatchKey) : CoreClosed (KeysAccounted base) where
  frame d d' hstore _ hinvocations hd := by
    unfold KeysAccounted
    rw [hstore, hinvocations]
    exact hd
  invoke d name payload hd := by
    unfold KeysAccounted
    rw [keys_invoke, invocations_invoke, claimedKeys_append, hd, List.append_assoc]
  settle d i result hd := by
    unfold KeysAccounted
    rw [keys_settle, invocations_settle]
    exact hd
  start _ _ hd := hd

/-- A key is claimed at most once, and not at all if it had a row at the start. -/
theorem claimedKeys_nodup (deps : DaemonDeps) (now : Nat) (store : IdempotencyStore)
    (acts : List Action) :
    (store.keys ++ claimedKeys
      (acts.foldl step { deps, now, store }).invocations).Nodup := by
  have hstart : KeysAccounted store.keys { deps, now, store } := by
    simp [KeysAccounted, claimedKeys]
  have hkeys := (keysAccounted_closed store.keys).run hstart acts
  unfold KeysAccounted at hkeys
  rw [← hkeys]
  exact IdempotencyStore.nodup _

/-- Whatever got as far as its claim has a row. -/
def ClaimsKeyed (d : WftRouterDaemon) : Prop :=
  ∀ inv ∈ d.invocations, inv.claim ≠ none → inv.ctx.identity.key ∈ d.store.keys

theorem claimsKeyed_closed : CoreClosed ClaimsKeyed where
  frame d d' hstore _ hinvocations hd := by
    unfold ClaimsKeyed
    rw [hstore, hinvocations]
    exact hd
  invoke d name payload hd := by
    intro inv hinv hclaim
    rw [keys_invoke]
    rw [invocations_invoke, List.mem_append, List.mem_singleton] at hinv
    rcases hinv with hinv | rfl
    · exact List.mem_append_left _ (hd inv hinv hclaim)
    · rcases d.invoke_cases name payload with ⟨-, hrow, -⟩ | ⟨-, hclaimed, -⟩
      · exact List.mem_append_left _ (hrow hclaim)
      · exact List.mem_append_right _ (by simp [claimedKeys, hclaimed])
  settle d i result hd := by
    unfold ClaimsKeyed
    rw [keys_settle, invocations_settle]
    exact hd
  start _ _ hd := hd

/-- A handler gets as far as its claim exactly when its block resolves. -/
def ClaimsResolved (d : WftRouterDaemon) : Prop :=
  ∀ inv ∈ d.invocations, inv.claim = none ↔
    ¬ ∃ block, (defaultHandlerRegistry inv.handler).resolve inv.ctx = .ok block

theorem claimsResolved_closed : CoreClosed ClaimsResolved where
  frame d d' _ _ hinvocations hd := by
    unfold ClaimsResolved
    rw [hinvocations]
    exact hd
  invoke d name payload hd := by
    intro inv hinv
    rw [invocations_invoke, List.mem_append, List.mem_singleton] at hinv
    rcases hinv with hinv | rfl
    · exact hd inv hinv
    · simp only [invocation]
      cases hresolve : (defaultHandlerRegistry name).resolve
        (buildContext d.deps payload.rule payload.event payload.identity) with
      | error err => simp [HandlerSpec.attempt_of_error hresolve]
      | ok block => simp [HandlerSpec.claim_ne_none hresolve]
  settle d i result hd := by
    unfold ClaimsResolved
    rw [invocations_settle]
    exact hd
  start _ _ hd := hd

end WftRouterDaemon

end WoodFiredTasks.Router
