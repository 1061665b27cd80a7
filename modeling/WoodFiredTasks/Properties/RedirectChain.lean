import WoodFiredTasks.Router.HandlerRuns

set_option autoImplicit false

/-! # The requests of one `webhook_post`

Whatever the server answers, the requests of an attempt are those for a chain of at most six URLs:
the configured one, which the endpoint policy accepts, and then only `https:` ones, which the
policy of redirects accepts. Each carries the headers and the body of the block as they are: the
chain may leave the configured origin, and `https:` says nothing of where a host is. -/

namespace WoodFiredTasks.Router

/-- The request among the effects. -/
def Effect.request? : Effect → Option HttpRequest
  | .request sent => some sent
  | _ => none

/-- The requests that an attempt has sent, in order. -/
def AttemptState.requests (st : AttemptState) : List HttpRequest :=
  st.effects.filterMap Effect.request?

@[simp] theorem requests_finish (st : AttemptState) (now : Nat) (key : DispatchKey)
    (ending : DispatchStatus × HandlerOutcome) :
    (st.finish now key ending).requests = st.requests := rfl

@[simp] theorem requests_act_request (st : AttemptState) (request : HttpRequest) (stage : Stage) :
    (st.act (.request request) stage).requests = st.requests ++ [request] := by
  simp [AttemptState.act, AttemptState.requests, Effect.request?]

@[simp] theorem requests_act_kill (st : AttemptState) (signal : String) (stage : Stage) :
    (st.act (.kill signal) stage).requests = st.requests := by
  simp [AttemptState.act, AttemptState.requests, Effect.request?]

@[simp] theorem requests_settleChild (st : AttemptState) (child : ChildRun) (now : Nat)
    (key : DispatchKey) (ending : DispatchStatus × HandlerOutcome) :
    (st.settleChild child now key ending).requests = st.requests := by
  unfold AttemptState.settleChild
  split <;> rfl

/-! ## The chain -/

section Chain

variable {env : HandlerEnv} {ctx : AttemptContext} {st : AttemptState}

/-- The requests of a chain that begins with the URL of the block. -/
structure ChainOf (env : HandlerEnv) (ctx : AttemptContext) (st : AttemptState) (block : Block)
    (url : String) (later : List String) : Prop where
  resolved : resolveRendered ctx = some (.ok block)
  configured : block.lookup "url" = some (.str url)
  sent : st.requests = (url :: later).map (webhookRequest env.numberText block)
  short : later.length ≤ maxRedirectHops
  first : assertEndpointAllowed env url false = none
  next : ∀ target ∈ later, assertEndpointAllowed env target true = none

/-- An attempt has sent nothing, or the requests of a chain; while it waits for an answer, the
    counter is that of the redirects. -/
def Chained (env : HandlerEnv) (ctx : AttemptContext) (st : AttemptState) : Prop :=
  (st.requests = [] ∧ ∀ block url hops, st.stage ≠ .posting block url hops) ∨
    ∃ block url later, ChainOf env ctx st block url later ∧
      ∀ block' url' hops, st.stage = .posting block' url' hops →
        block' = block ∧ hops = later.length

/-- What an attempt does without a request, and without going on to wait for an answer. -/
theorem Chained.of_same (h : Chained env ctx st) {st' : AttemptState}
    (hrequests : st'.requests = st.requests)
    (hstage : ∀ block url hops, st'.stage = .posting block url hops →
      st.stage = .posting block url hops) : Chained env ctx st' := by
  rcases h with ⟨hnone, hwait⟩ | ⟨block, url, later, hchain, hwait⟩
  · exact .inl ⟨hrequests.trans hnone, fun b u n heq => hwait b u n (hstage b u n heq)⟩
  · exact .inr ⟨block, url, later, { hchain with sent := hrequests.trans hchain.sent },
      fun b u n heq => hwait b u n (hstage b u n heq)⟩

theorem Chained.finish (h : Chained env ctx st) (now : Nat) (key : DispatchKey)
    (ending : DispatchStatus × HandlerOutcome) : Chained env ctx (st.finish now key ending) :=
  h.of_same rfl fun _ _ _ hstage => by cases hstage

theorem chained_claimAndAct {resolved : Option (Except TemplatingError Block)} {noPayload : String}
    {store : IdempotencyStore} {now : Nat} {identity : DispatchIdentity}
    {go : Block → AttemptState → AttemptState}
    (hgo : ∀ block st, resolved = some (.ok block) → st.requests = [] →
      (∀ b u n, st.stage ≠ .posting b u n) → Chained env ctx (go block st)) :
    Chained env ctx (claimAndAct resolved noPayload store now identity go) := by
  have hempty : ∀ (stage : Stage) claim store, (∀ b u n, stage ≠ .posting b u n) →
      Chained env ctx ⟨stage, claim, store, [], []⟩ :=
    fun stage claim store hstage => .inl ⟨rfl, hstage⟩
  unfold claimAndAct
  split
  · exact hempty _ _ _ fun _ _ _ h => by cases h
  · exact hempty _ _ _ fun _ _ _ h => by cases h
  · split
    · exact hgo _ _ rfl rfl fun _ _ _ h => by cases h
    · exact hempty _ _ _ fun _ _ _ h => by cases h
    · exact hempty _ _ _ fun _ _ _ h => by cases h

theorem chained_start (store : IdempotencyStore) (now now' : Nat) :
    Chained env ctx (startWebhookPost env ctx store now now') := by
  unfold startWebhookPost
  refine chained_claimAndAct fun block st hresolved hnone hstage => ?_
  have hst : Chained env ctx st := .inl ⟨hnone, hstage⟩
  split
  · rename_i url hurl
    split
    · exact hst.finish _ _ _
    · split
      · exact hst.finish _ _ _
      · rename_i hallowed
        refine .inr ⟨block, url, [], ?_, ?_⟩
        · exact
            { resolved := hresolved
              configured := hurl
              sent := by rw [requests_act_request, hnone]; rfl
              short := Nat.zero_le _
              first := hallowed
              next := by simp }
        · intro block' url' hops heq
          cases heq
          exact ⟨rfl, rfl⟩
  · exact hst.finish _ _ _

/-- One turn of the loop adds at most one URL to the chain, one that the policy of redirects
    accepts. -/
theorem Chained.postResult {block : Block} {url : String} {hops : Nat} (h : Chained env ctx st)
    (hstage : st.stage = .posting block url hops) (now : Nat) (key : DispatchKey)
    (result : HttpResult) :
    Chained env ctx (onPostResult env st now key block url hops result) := by
  unfold onPostResult
  split
  · exact h.finish _ _ _
  · exact h.finish _ _ _
  · exact h.finish _ _ _
  · split
    · split
      · exact h.finish _ _ _
      · rename_i hbound
        split
        · exact h.finish _ _ _
        · rename_i target hresolve
          split
          · exact h.finish _ _ _
          · rename_i hallowed
            rcases h with ⟨-, hwait⟩ | ⟨block', first, later, hchain, hwait⟩
            · exact absurd hstage (hwait _ _ _)
            · obtain ⟨rfl, rfl⟩ := hwait _ _ _ hstage
              refine .inr ⟨block, first, later ++ [target], ?_, ?_⟩
              · exact
                  { hchain with
                    sent := by
                      rw [requests_act_request, hchain.sent, ← List.cons_append, List.map_append]
                      rfl
                    short := by
                      rw [List.length_append, List.length_singleton]
                      omega
                    next := by
                      intro t ht
                      rw [List.mem_append, List.mem_singleton] at ht
                      rcases ht with ht | rfl
                      · exact hchain.next t ht
                      · exact hallowed }
              · intro block' url' hops heq
                cases heq
                exact ⟨rfl, by rw [List.length_append, List.length_singleton]⟩
    · exact h.finish _ _ _

theorem Chained.createResult (h : Chained env ctx st) (now : Nat) (key : DispatchKey)
    (result : HttpResult) : Chained env ctx (onCreateResult st now key result) := by
  unfold onCreateResult
  split <;> exact h.finish _ _ _

theorem Chained.childEvent {child : ChildRun} (h : Chained env ctx st) (now : Nat)
    (key : DispatchKey) (event : ChildEvent) :
    Chained env ctx (onChildEvent st now key child event) := by
  have hsettle : ∀ ending, Chained env ctx (st.settleChild child now key ending) := by
    intro ending
    refine h.of_same (requests_settleChild ..) fun b u n => ?_
    unfold AttemptState.settleChild
    split
    · exact id
    · intro heq
      cases heq
  unfold onChildEvent
  split
  · split
    · exact h.of_same (requests_act_kill ..) fun _ _ _ heq => by cases heq
    · exact h
  · split
    · exact h.of_same (requests_act_kill ..) fun _ _ _ heq => by cases heq
    · exact h
  · exact hsettle _
  · split
    · exact hsettle _
    · split
      · exact hsettle _
      · exact hsettle _

theorem Chained.step {key : DispatchKey} (h : Chained env ctx st) (stimulus : Stimulus key) :
    Chained env ctx (st.step env key stimulus) := by
  cases stimulus with
  | other call => exact h.of_same rfl fun _ _ _ => id
  | http now result =>
    unfold AttemptState.step
    dsimp only
    split
    · exact h.createResult now key result
    · next hstage => exact h.postResult hstage now key result
    · exact h
  | child now event =>
    unfold AttemptState.step
    dsimp only
    split
    · exact h.childEvent now key event
    · exact h

theorem chained_runAttempt (env : HandlerEnv) (ctx : AttemptContext) (store : IdempotencyStore)
    (now now' : Nat) (stimuli : List (Stimulus ctx.identity.key)) :
    Chained env ctx (runAttempt env .webhookPost ctx store now now' stimuli) := by
  have hstart : Chained env ctx (start env .webhookPost ctx store now now') :=
    chained_start store now now'
  unfold runAttempt
  generalize start env .webhookPost ctx store now now' = st at hstart ⊢
  induction stimuli generalizing st with
  | nil => exact hstart
  | cons stimulus rest ih => exact ih _ (hstart.step stimulus)

end Chain

/-! ## The requests -/

/-- What the policy of redirects accepts. -/
theorem assertEndpointAllowed_redirect (env : HandlerEnv) (target : String) :
    assertEndpointAllowed env target true = none ↔
      ∃ parsed, env.parseUrl target = some parsed ∧ parsed.protocol.toLower = "https:" := by
  unfold assertEndpointAllowed
  cases env.parseUrl target with
  | none => simp
  | some parsed =>
    by_cases hhttps : parsed.protocol.toLower = "https:"
    · simp [hhttps]
    · by_cases hhttp : parsed.protocol.toLower = "http:"
      · simp [hhttp]
      · simp [hhttps, hhttp]

/-- The requests of an attempt of `webhook_post`. -/
def webhookRequests (env : HandlerEnv) (ctx : AttemptContext) (store : IdempotencyStore)
    (now now' : Nat) (stimuli : List (Stimulus ctx.identity.key)) : List HttpRequest :=
  (runAttempt env .webhookPost ctx store now now' stimuli).requests

/-- **Main theorem.** At most six requests are sent. The first is for a URL that the endpoint policy
    accepts and every later one for a URL that the policy of redirects accepts, an `https:` one.
    All of them, wherever they go, are the request of the block with its headers and its body. -/
theorem webhookRequests_chain (env : HandlerEnv) (ctx : AttemptContext) (store : IdempotencyStore)
    (now now' : Nat) (stimuli : List (Stimulus ctx.identity.key)) :
    (webhookRequests env ctx store now now' stimuli).length ≤ 6 ∧
      (∀ request ∈ (webhookRequests env ctx store now now' stimuli).head?,
        assertEndpointAllowed env request.url false = none) ∧
      (∀ request ∈ (webhookRequests env ctx store now now' stimuli).tail,
        assertEndpointAllowed env request.url true = none ∧
          ∃ parsed, env.parseUrl request.url = some parsed ∧
            parsed.protocol.toLower = "https:") ∧
      ∀ request ∈ webhookRequests env ctx store now now' stimuli, ∃ block,
        resolveRendered ctx = some (.ok block) ∧
          request = webhookRequest env.numberText block request.url := by
  unfold webhookRequests
  rcases chained_runAttempt env ctx store now now' stimuli with
    ⟨hnone, -⟩ | ⟨block, url, later, hchain, -⟩
  · rw [hnone]
    simp
  · rw [hchain.sent]
    refine ⟨?_, ?_, ?_, ?_⟩
    · rw [List.length_map, List.length_cons]
      exact Nat.succ_le_succ hchain.short
    · intro request hrequest
      rw [List.map_cons, List.head?_cons, Option.mem_some_iff] at hrequest
      exact hrequest ▸ hchain.first
    · intro request hrequest
      rw [List.map_cons, List.tail_cons] at hrequest
      obtain ⟨target, htarget, rfl⟩ := List.mem_map.mp hrequest
      have hallowed : assertEndpointAllowed env target true = none := hchain.next target htarget
      exact ⟨hallowed, (assertEndpointAllowed_redirect env target).mp hallowed⟩
    · intro request hrequest
      obtain ⟨target, -, rfl⟩ := List.mem_map.mp hrequest
      exact ⟨block, hchain.resolved, rfl⟩

/-- What would be safe of the requests: no loopback target after the first, and a credential only
    for the host that is configured. -/
structure SafeRequests (env : HandlerEnv) (requests : List HttpRequest) : Prop where
  short : requests.length ≤ 6
  target : ∀ request ∈ requests.tail, ∀ parsed, env.parseUrl request.url = some parsed →
    parsed.protocol ≠ "http:" ∧ isLoopbackHost (normalizeHost parsed.hostname) = false
  credential : ∀ first ∈ requests.head?, ∀ request ∈ requests,
    (∃ value, ("Authorization", value) ∈ request.headers) →
      (env.parseUrl request.url).map Url.hostname = (env.parseUrl first.url).map Url.hostname

/-- A parser that knows two URLs. -/
def hookEnv : HandlerEnv where
  parseUrl raw :=
    if raw = "https://hooks.test/in" then some ⟨"https:", "hooks.test"⟩
    else if raw = "https://127.0.0.1/" then some ⟨"https:", "127.0.0.1"⟩
    else none
  resolveUrl location _ := some location
  linkLocalOptIn := false
  resolveAdapter _ := none
  spawnThrows _ _ := false
  numberText _ := ""

/-- A rule that posts to one of them with a credential. -/
def hookContext : AttemptContext where
  event := { type := "task.created" }
  identity := { ruleName := "r", eventId := "1", taskId := none, toStatus := none,
                emittedAtMs := none }
  withBlock := none
  renderedWith := some
    [("url", .str "https://hooks.test/in"),
      ("headers", .obj [("Authorization", .str "Bearer secret")])]
  apiBaseUrl := ""
  authToken := ""

/-- The hook answers with a redirect to the loopback address. -/
theorem webhookRequests_leak :
    ¬∀ (env : HandlerEnv) (ctx : AttemptContext) (store : IdempotencyStore) (now now' : Nat)
      (stimuli : List (Stimulus ctx.identity.key)),
      SafeRequests env (webhookRequests env ctx store now now' stimuli) := by
  intro h
  have hsafe := h hookEnv hookContext .empty 0 0
    [.http 1 (.response 307 (some "https://127.0.0.1/"))]
  have hsent : (webhookRequests hookEnv hookContext .empty 0 0
      [.http 1 (.response 307 (some "https://127.0.0.1/"))]).map
        (fun request => (request.url, request.headers)) =
      [("https://hooks.test/in", [("Authorization", "Bearer secret")]),
        ("https://127.0.0.1/", [("Authorization", "Bearer secret")])] := by
    decide +kernel
  obtain ⟨first, rest, hlist, hfirst, hrest⟩ := List.map_eq_cons_iff.mp hsent
  obtain ⟨second, rest, rfl, hsecond, -⟩ := List.map_eq_cons_iff.mp hrest
  have hconfigured := (Prod.mk.inj hfirst).1
  obtain ⟨htarget, hheaders⟩ := Prod.mk.inj hsecond
  rw [hlist] at hsafe
  have hsame := hsafe.credential first rfl second (by simp)
    ⟨"Bearer secret", by rw [hheaders]; exact List.mem_singleton_self _⟩
  rw [hconfigured, htarget] at hsame
  exact absurd hsame (by decide)

end WoodFiredTasks.Router
