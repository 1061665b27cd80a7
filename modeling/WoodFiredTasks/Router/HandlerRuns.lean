import WoodFiredTasks.Router.Handlers

set_option autoImplicit false

/-! # Attempts of the handlers, event by event

`Router/Handlers.lean` has a handler as what it does before its act and how it ends. Here are the
four handlers with everything between: the request that is sent and each redirect that is followed,
the child process with its two timers and its `error` and `close` events, in whatever order they
come. How an attempt is written to the store is the same in both, `HandlerSpec.finish`.

What is outside the program is a parameter: the URL parser, the files under the adapters path,
and how a number is written as a text. The scrubbed environment of a child, its working directory
and its standard input and output are left out. -/

namespace WoodFiredTasks.Router

/-- A block of a rule, raw or rendered. -/
abbrev Block := List (String × Json)

/-- `HandlerContext`, with the two ways in which a block is given. -/
structure AttemptContext where
  event : EventPayloadShape
  identity : DispatchIdentity
  withBlock : Option Block
  renderedWith : Option Block
  apiBaseUrl : String
  authToken : String

/-- What `new URL` tells of a text. -/
structure Url where
  protocol : String
  hostname : String

/-- The outside of a handler. -/
structure HandlerEnv where
  /-- `new URL(raw)`; `none` if it throws. -/
  parseUrl : String → Option Url
  /-- `new URL(location, base).toString()`; `none` if it throws. -/
  resolveUrl : String → String → Option String
  /-- `isLinkLocalOptInEnabled` -/
  linkLocalOptIn : Bool
  /-- `resolveAdapter(adapter, entries)` -/
  resolveAdapter : String → Option String
  /-- `spawn` throws at once. -/
  spawnThrows : String → List String → Bool
  /-- `String(value)` of a number -/
  numberText : Rat → String

/-! ## Texts -/

mutual

/-- `String(value)` -/
def Json.text (numberText : Rat → String) : Json → String
  | .null => "null"
  | .bool b => toString b
  | .num n => numberText n
  | .str s => s
  | .arr items => String.intercalate "," (textItems numberText items)
  | .obj _ => "[object Object]"

/-- The items of an array, `null` as the empty text. -/
def textItems (numberText : Rat → String) : List Json → List String
  | [] => []
  | .null :: rest => "" :: textItems numberText rest
  | item :: rest => item.text numberText :: textItems numberText rest

end

/-- The characters that `encodeURIComponent` leaves as they are. -/
def uriUnreserved (c : Char) : Bool :=
  c.isAlphanum || "-_.!~*'()".toList.contains c

/-- A byte as `%XX`. -/
def percentEncoded (byte : UInt8) : List Char :=
  let digit (n : Nat) : Char := "0123456789ABCDEF".toList.getD n '0'
  ['%', digit (byte.toNat / 16), digit (byte.toNat % 16)]

/-- `encodeURIComponent` -/
def encodeURIComponent (s : String) : String :=
  String.ofList (s.toList.flatMap fun c =>
    if uriUnreserved c then [c] else (String.utf8EncodeChar c).flatMap percentEncoded)

/-- `trimBase` -/
def trimBase (base : String) : String :=
  String.ofList (base.toList.reverse.dropWhile (· = '/')).reverse

/-! ## Requests -/

/-- The body of a request: a text, or a value that is sent as JSON. -/
inductive RequestBody where
  | text (s : String)
  | json (value : Json)

structure HttpRequest where
  method : String
  url : String
  headers : List (String × String)
  body : Option RequestBody

/-- What a handler does to the outside. -/
inductive Effect where
  | request (request : HttpRequest)
  | spawn (program : String) (argv : List String)
  | kill (signal : String)

/-- What comes of a request. -/
inductive HttpResult where
  | response (status : Nat) (location : Option String)
  | timeout
  | networkError

/-- `authHeaderFor` -/
def authHeaderFor (token : String) : String × String :=
  if token.startsWith "wft_pat_" then ("Authorization", "Bearer " ++ token)
  else ("X-API-Key", token)

/-- `resolveProjectSegment` -/
def resolveProjectSegment (numberText : Rat → String) (block : Block) : Option String :=
  match block.lookup "project" with
  | some (.num n) => some (encodeURIComponent (numberText n))
  | some (.str s) => if s.isEmpty then none else some (encodeURIComponent s)
  | _ => none

/-- `buildRequestBody` -/
def buildRequestBody (block : Block) : Block := block.filter fun field => field.1 ≠ "project"

/-- The request of `create_task_in_project`. -/
def createTaskRequest (ctx : AttemptContext) (block : Block) (projectSegment : String) :
    HttpRequest where
  method := "POST"
  url := trimBase ctx.apiBaseUrl ++ "/api/v1/projects/" ++ projectSegment ++ "/tasks"
  headers := [authHeaderFor ctx.authToken, ("Content-Type", "application/json"),
    ("Accept", "application/json")]
  body := some (.json (.obj (buildRequestBody block)))

/-- `coerceHeaders` -/
def coerceHeaders (numberText : Rat → String) : Option Json → List (String × String)
  | some (.obj fields) => fields.map fun (k, v) => (k, v.text numberText)
  | _ => []

/-- `hasContentType` -/
def hasContentType (headers : List (String × String)) : Bool :=
  headers.any fun header => header.1.toLower = "content-type"

/-- `buildBody`: the body, and whether it is JSON. -/
def buildBody : Option Json → Option RequestBody × Bool
  | none => (none, false)
  | some (.str s) => (some (.text s), false)
  | some v => (some (.json v), true)

/-- The headers and the body of `webhook_post`. -/
def webhookRequest (numberText : Rat → String) (block : Block) (url : String) : HttpRequest :=
  let headers := coerceHeaders numberText (block.lookup "headers")
  let (body, jsonDefaulted) := buildBody (block.lookup "body")
  { method := "POST"
    url
    headers := if jsonDefaulted && !hasContentType headers then
      headers ++ [("Content-Type", "application/json")] else headers
    body }

/-! ## The endpoint policy of `webhook_post` -/

/-- `normalizeHost` -/
def normalizeHost (host : String) : String :=
  let h := host.trimAscii.toString.toLower
  let bare := if h.startsWith "[" && h.endsWith "]" then ((h.drop 1).dropEnd 1).toString else h
  (bare.takeWhile (· ≠ '%')).toString

/-- The four numbers of a dotted IPv4 address, each of one to three digits. -/
def ipv4 (host : String) : Option (List Nat) :=
  let parts := host.toList.splitOn '.'
  if parts.length = 4 ∧ parts.all fun p =>
      1 ≤ p.length && p.length ≤ 3 && p.all fun c => c.isDigit then
    some (parts.map fun p => p.foldl (fun n c => 10 * n + (c.toNat - 48)) 0)
  else none

/-- `isLoopbackHost` -/
def isLoopbackHost (host : String) : Bool :=
  if host = "localhost" ∨ host = "::1" ∨ host = "0:0:0:0:0:0:0:1" then true
  else match ipv4 host with
    | some (a :: _) => a = 127
    | _ => false

/-- `isPrivateHost` -/
def isPrivateHost (host : String) : Bool :=
  match ipv4 host with
  | some [a, b, c, d] =>
    if [a, b, c, d].any (· > 255) then false
    else a = 10 || (a = 172 && 16 ≤ b && b ≤ 31) || (a = 192 && b = 168)
  | _ => host.contains ':' && (host.startsWith "fc" || host.startsWith "fd")

/-- `isLinkLocalHost` -/
def isLinkLocalHost (host : String) : Bool :=
  match ipv4 host with
  | some [a, b, c, d] => if [a, b, c, d].any (· > 255) then false else a = 169 && b = 254
  | _ => false

/-- `assertEndpointAllowed`: the reason of a refusal. -/
def assertEndpointAllowed (env : HandlerEnv) (rawUrl : String) (viaRedirect : Bool) :
    Option String :=
  match env.parseUrl rawUrl with
  | none => some "target url is missing or unparseable"
  | some parsed =>
    let scheme := parsed.protocol.toLower
    if scheme = "https:" then none
    else if scheme = "http:" then
      if viaRedirect then some "http:// redirect target refused (credential-exposure guard)"
      else
        let host := normalizeHost parsed.hostname
        if isLoopbackHost host || isPrivateHost host then none
        else if isLinkLocalHost host && env.linkLocalOptIn then none
        else some "http:// to non-loopback target refused (credential-exposure guard)"
    else some ("unsupported url scheme " ++ scheme)

/-! ## Attempts -/

/-- The child process of an attempt, and the promise that waits for it. -/
structure ChildRun where
  settled : Bool := false
  timedOut : Bool := false
  killArmed : Bool := true
  graceArmed : Bool := false
  outcome : Option HandlerOutcome := none

/-- Where an attempt is. -/
inductive Stage where
  | threw (message : String)
  | returned (outcome : HandlerOutcome)
  | creating
  | posting (block : Block) (dispatchUrl : String) (hops : Nat)
  | running (child : ChildRun)

/-- The outcome, when the handler has returned. -/
def Stage.outcome : Stage → Option HandlerOutcome
  | .returned outcome => some outcome
  | .running child => child.outcome
  | _ => none

/-- An attempt: what it claimed, what it has done to the outside, and its calls of `complete` with
    what they returned. -/
structure AttemptState where
  stage : Stage
  claim : Option ClaimResult
  store : IdempotencyStore
  effects : List Effect
  completions : List (DispatchStatus × Bool)

namespace AttemptState

/-- `store.complete(…)` -/
def complete (st : AttemptState) (now : Nat) (key : DispatchKey) (status : DispatchStatus) :
    AttemptState :=
  { st with
    store := (st.store.complete now key status).2
    completions := st.completions ++ [(status, (st.store.complete now key status).1)] }

/-- Complete the row and return. -/
def finish (st : AttemptState) (now : Nat) (key : DispatchKey)
    (ending : DispatchStatus × HandlerOutcome) : AttemptState :=
  { st.complete now key ending.1 with stage := .returned ending.2 }

/-- Do something to the outside and wait. -/
def act (st : AttemptState) (effect : Effect) (stage : Stage) : AttemptState :=
  { st with effects := st.effects ++ [effect], stage }

/-- `finishFailed`, and the branch of an exit with 0: complete the row and resolve the promise,
    once. -/
def settleChild (st : AttemptState) (child : ChildRun) (now : Nat) (key : DispatchKey)
    (ending : DispatchStatus × HandlerOutcome) : AttemptState :=
  if child.settled then st
  else
    { st.complete now key ending.1 with
      stage := .running { child with
        settled := true, killArmed := false, graceArmed := false, outcome := some ending.2 } }

end AttemptState

/-- What all handlers begin with: find the block, claim the dispatch, go on if the claim is
    granted. -/
def claimAndAct (resolved : Option (Except TemplatingError Block)) (noPayload : String)
    (store : IdempotencyStore) (now : Nat) (identity : DispatchIdentity)
    (go : Block → AttemptState → AttemptState) : AttemptState :=
  match resolved with
  | none => ⟨.returned (.failed false noPayload), none, store, [], []⟩
  | some (.error err) => ⟨.threw err.message, none, store, [], []⟩
  | some (.ok block) =>
    match store.claim now identity block with
    | (.claimed, store') => go block ⟨.threw "", some .claimed, store', [], []⟩
    | (.alreadyPending, store') =>
      ⟨.returned (.suppressed .alreadyPending), some .alreadyPending, store', [], []⟩
    | (.alreadyDone status, store') =>
      ⟨.returned (.suppressed .alreadyDone), some (.alreadyDone status), store', [], []⟩

/-- The block as it is given, or rendered. -/
def resolveRendered (ctx : AttemptContext) : Option (Except TemplatingError Block) :=
  match ctx.renderedWith, ctx.withBlock with
  | some block, _ => some (.ok block)
  | none, some block => some (renderWith block ctx.event)
  | none, none => none

/-- The block as it is. -/
def resolveLiteral (ctx : AttemptContext) : Option (Except TemplatingError Block) :=
  match ctx.renderedWith, ctx.withBlock with
  | some block, _ => some (.ok block)
  | none, some block => some (.ok block)
  | none, none => none

/-- `create_task_in_project` up to its request. -/
def startCreateTask (env : HandlerEnv) (ctx : AttemptContext) (store : IdempotencyStore)
    (now now' : Nat) : AttemptState :=
  claimAndAct (resolveRendered ctx) "no with: block or rendered payload supplied" store now
    ctx.identity fun block st =>
      match resolveProjectSegment env.numberText block with
      | none => st.finish now' ctx.identity.key (giveUp "with.project is missing or empty")
      | some segment => st.act (.request (createTaskRequest ctx block segment)) .creating

/-- `webhook_post` up to its first request. -/
def startWebhookPost (env : HandlerEnv) (ctx : AttemptContext) (store : IdempotencyStore)
    (now now' : Nat) : AttemptState :=
  claimAndAct (resolveRendered ctx) "no with: block or rendered payload supplied" store now
    ctx.identity fun block st =>
      match block.lookup "url" with
      | some (.str rawUrl) =>
        if rawUrl.isEmpty then
          st.finish now' ctx.identity.key (giveUp "with.url is missing or empty")
        else match assertEndpointAllowed env rawUrl false with
          | some reason => st.finish now' ctx.identity.key (giveUp reason)
          | none =>
            st.act (.request (webhookRequest env.numberText block rawUrl)) (.posting block rawUrl 0)
      | _ => st.finish now' ctx.identity.key (giveUp "with.url is missing or empty")

/-- Start the child; a throw of `spawn` is the end. -/
def spawnChild (env : HandlerEnv) (st : AttemptState) (now : Nat) (key : DispatchKey)
    (program : String) (argv : List String) : AttemptState :=
  if env.spawnThrows program argv then st.finish now key (giveUp "spawn failed")
  else st.act (.spawn program argv) (.running {})

/-- `resolveArgv` -/
def resolveArgv (numberText : Rat → String) (block : Block) : List String :=
  match block.lookup "argv" with
  | some (.arr items) => items.map (Json.text numberText)
  | _ => []

/-- `shell_exec` up to its child. -/
def startShellExec (env : HandlerEnv) (ctx : AttemptContext) (store : IdempotencyStore)
    (now now' : Nat) : AttemptState :=
  claimAndAct (resolveLiteral ctx) "no with: block supplied" store now ctx.identity fun block st =>
    match block.lookup "command" with
    | some (.str command) =>
      if command.isEmpty then
        st.finish now' ctx.identity.key (giveUp "with.command is missing or empty")
      else spawnChild env st now' ctx.identity.key command (resolveArgv env.numberText block)
    | _ => st.finish now' ctx.identity.key (giveUp "with.command is missing or empty")

/-- The argv of `buildAdapterArgv`, for keys that it accepts. -/
def buildAdapterArgv (numberText : Rat → String) (block : Block) : List String :=
  (block.filter fun field => field.1 ≠ "adapter").map fun (k, v) =>
    k ++ "=" ++ match v with
      | .null => ""
      | v => v.text numberText

/-- `agent_session_dispatch` up to its child. -/
def startAgentSession (env : HandlerEnv) (ctx : AttemptContext) (store : IdempotencyStore)
    (now now' : Nat) : AttemptState :=
  claimAndAct (resolveRendered ctx) "no with: block supplied" store now ctx.identity fun block st =>
    match badAdapter block, block.lookup "adapter" with
    | none, some (.str adapter) =>
      match env.resolveAdapter adapter with
      | none => st.finish now' ctx.identity.key (giveUp "adapter not found / not opted in")
      | some adapterPath =>
        spawnChild env st now' ctx.identity.key adapterPath (buildAdapterArgv env.numberText block)
    | detail, _ => st.finish now' ctx.identity.key (giveUp (detail.getD ""))

/-- `DEFAULT_HANDLER_REGISTRY` -/
def start (env : HandlerEnv) : HandlerName → AttemptContext → IdempotencyStore → Nat → Nat →
    AttemptState
  | .createTaskInProject => startCreateTask env
  | .webhookPost => startWebhookPost env
  | .shellExec => startShellExec env
  | .agentSessionDispatch => startAgentSession env

/-! ## What comes afterwards -/

/-- `MAX_REDIRECT_HOPS` -/
def maxRedirectHops : Nat := 5

/-- An answer to the request of `create_task_in_project`. -/
def onCreateResult (st : AttemptState) (now : Nat) (key : DispatchKey) :
    HttpResult → AttemptState
  | .timeout => st.finish now key (finishRequest .timedOut)
  | .networkError => st.finish now key (finishRequest .networkError)
  | .response status _ => st.finish now key (finishRequest (.response status))

/-- One turn of the loop of `webhook_post`: a redirect is checked and followed, anything else is
    the end. -/
def onPostResult (env : HandlerEnv) (st : AttemptState) (now : Nat) (key : DispatchKey)
    (block : Block) (dispatchUrl : String) (hops : Nat) : HttpResult → AttemptState
  | .timeout => st.finish now key (finishRequest .timedOut)
  | .networkError => st.finish now key (finishRequest .networkError)
  | .response status none => st.finish now key (finishRequest (.response status))
  | .response status (some location) =>
    if 300 ≤ status ∧ status < 400 then
      if maxRedirectHops < hops + 1 then
        st.finish now key (giveUp "redirect hop limit (5) exceeded")
      else match env.resolveUrl location dispatchUrl with
        | none => st.finish now key (giveUp "redirect target url is missing or unparseable")
        | some nextUrl =>
          match assertEndpointAllowed env nextUrl true with
          | some reason => st.finish now key (giveUp reason)
          | none =>
            st.act (.request (webhookRequest env.numberText block nextUrl))
              (.posting block nextUrl (hops + 1))
    else st.finish now key (finishRequest (.response status))

/-- What happens to a child and its timers. -/
inductive ChildEvent where
  | killTimer
  | graceTimer
  | error (code : Option String)
  | close (exitCode : Option Nat) (signal : Option String)

/-- The listeners of a child, and its timers. -/
def onChildEvent (st : AttemptState) (now : Nat) (key : DispatchKey) (child : ChildRun) :
    ChildEvent → AttemptState
  | .killTimer =>
    if child.killArmed then
      st.act (.kill "SIGTERM")
        (.running { child with timedOut := true, killArmed := false, graceArmed := true })
    else st
  | .graceTimer =>
    if child.graceArmed then
      st.act (.kill "SIGKILL") (.running { child with graceArmed := false })
    else st
  | .error code => st.settleChild child now key (finishChild (.spawnError code))
  | .close exitCode signal =>
    if child.timedOut then st.settleChild child now key (finishChild .timedOut)
    else match exitCode with
      | some code => st.settleChild child now key (finishChild (.exited code))
      | none => st.settleChild child now key (finishChild (.killed (signal.getD "null")))

/-- A call of the store by somebody else. Only who claimed a row completes it, so another attempt
    completes other rows. -/
inductive OtherCall (key : DispatchKey) where
  | claim (now : Nat) (identity : DispatchIdentity) (block : Block)
  | complete (now : Nat) (other : { key' : DispatchKey // key' ≠ key }) (status : DispatchStatus)

def OtherCall.run {key : DispatchKey} (store : IdempotencyStore) : OtherCall key → IdempotencyStore
  | .claim now identity block => (store.claim now identity block).2
  | .complete now other status => (store.complete now other.1 status).2

/-- What happens while an attempt waits. -/
inductive Stimulus (key : DispatchKey) where
  | other (call : OtherCall key)
  | http (now : Nat) (result : HttpResult)
  | child (now : Nat) (event : ChildEvent)

namespace AttemptState

/-- One thing happens. What the attempt does not wait for does nothing. -/
def step (env : HandlerEnv) (key : DispatchKey) (st : AttemptState) : Stimulus key → AttemptState
  | .other call => { st with store := call.run st.store }
  | .http now result =>
    match st.stage with
    | .creating => onCreateResult st now key result
    | .posting block dispatchUrl hops => onPostResult env st now key block dispatchUrl hops result
    | _ => st
  | .child now event =>
    match st.stage with
    | .running child => onChildEvent st now key child event
    | _ => st

end AttemptState

/-- An attempt, from its call on. -/
def runAttempt (env : HandlerEnv) (handler : HandlerName) (ctx : AttemptContext)
    (store : IdempotencyStore) (now now' : Nat) (stimuli : List (Stimulus ctx.identity.key)) :
    AttemptState :=
  stimuli.foldl (AttemptState.step env ctx.identity.key) (start env handler ctx store now now')

/-! ## Against `HandlerSpec` -/

/-- The context as the daemon builds it: with the raw block. -/
def HandlerContext.live (ctx : HandlerContext) : AttemptContext where
  event := ctx.event
  identity := ctx.identity
  withBlock := some ctx.withBlock
  renderedWith := none
  apiBaseUrl := ctx.apiBaseUrl
  authToken := ctx.authToken

/-- The beginning of an attempt agrees with the synchronous part that the daemon knows of: in the
    claim, in a throw, in a configuration error. -/
structure Begins (attempt : Attempt) (st : AttemptState) : Prop where
  claim : st.claim = attempt.claim
  threw : ∀ message, attempt.ending = .threw message →
    st.stage = .threw message ∧ st.store = attempt.store
  settled : ∀ outcome, attempt.ending = .settled outcome →
    st.stage = .returned outcome ∧ st.store = attempt.store

theorem begins_claimAndAct {handler : HandlerSpec} {ctx : HandlerContext} {noPayload : String}
    {store : IdempotencyStore} {now : Nat} {go : Block → AttemptState → AttemptState}
    (hclaim : ∀ block st, (go block st).claim = st.claim)
    (hgo : ∀ block detail st, handler.configError block = some detail →
      go block st = st.finish now ctx.identity.key (giveUp detail)) :
    Begins (handler.attempt store now ctx)
      (claimAndAct (some (handler.resolve ctx)) noPayload store now ctx.identity go) := by
  unfold HandlerSpec.attempt claimAndAct
  cases handler.resolve ctx with
  | error err => constructor <;> simp
  | ok block =>
    dsimp only
    rcases store.claim now ctx.identity block with ⟨_ | _ | status, store'⟩
    · dsimp only
      cases hconfig : handler.configError block with
      | none =>
        constructor
        · exact hclaim block _
        · nofun
        · nofun
      | some detail =>
        rw [hgo block detail _ hconfig]
        constructor
        · rfl
        · nofun
        · intro outcome houtcome
          cases houtcome
          exact ⟨rfl, rfl⟩
    · constructor <;> simp
    · constructor <;> simp

theorem claim_spawnChild {env : HandlerEnv} {st : AttemptState} {now : Nat} {key : DispatchKey}
    {program : String} {argv : List String} :
    (spawnChild env st now key program argv).claim = st.claim := by
  unfold spawnChild
  split <;> rfl

theorem nonEmptyText_eq_some {key message detail : String} {block : Block}
    (h : nonEmptyText key message block = some detail) :
    detail = message ∧ ∀ s, block.lookup key = some (.str s) → s.isEmpty = true := by
  unfold nonEmptyText at h
  split at h
  · next s hs =>
    split at h
    · next hempty =>
      refine ⟨(Option.some.inj h).symm, fun s' hs' => ?_⟩
      rw [hs] at hs'
      cases hs'
      exact hempty
    · cases h
  · next hno => exact ⟨(Option.some.inj h).symm, fun s hs => absurd hs (hno s)⟩

theorem resolveRendered_live (ctx : HandlerContext) :
    resolveRendered ctx.live = some (rendered ctx) := rfl

theorem resolveLiteral_live (ctx : HandlerContext) :
    resolveLiteral ctx.live = some (.ok ctx.withBlock) := rfl

/-- Each handler begins as the daemon has it. -/
theorem start_begins (env : HandlerEnv) (handler : HandlerName) (ctx : HandlerContext)
    (store : IdempotencyStore) (now : Nat) :
    Begins ((defaultHandlerRegistry handler).attempt store now ctx)
      (start env handler ctx.live store now now) := by
  cases handler with
  | createTaskInProject =>
    rw [start, startCreateTask, resolveRendered_live]
    refine begins_claimAndAct (fun block st => ?_)
      fun block detail st hconfig => ?_
    · split <;> rfl
    · have hnone : resolveProjectSegment env.numberText block = none ∧
          detail = "with.project is missing or empty" := by
        have hconfig : missingProject block = some detail := hconfig
        unfold missingProject at hconfig
        split at hconfig
        · cases hconfig
        · next hnum =>
          obtain ⟨hdetail, hempty⟩ := nonEmptyText_eq_some hconfig
          refine ⟨?_, hdetail⟩
          unfold resolveProjectSegment
          split
          · next n hn => exact absurd hn (hnum n)
          · next s hs => rw [if_pos (hempty s hs)]
          · rfl
      rw [hnone.1, hnone.2]
      rfl
  | webhookPost =>
    rw [start, startWebhookPost, resolveRendered_live]
    refine begins_claimAndAct (fun block st => ?_)
      fun block detail st hconfig => ?_
    · split
      · split
        · rfl
        · split <;> rfl
      · rfl
    · obtain ⟨rfl, hempty⟩ := nonEmptyText_eq_some hconfig
      split
      · next rawUrl hurl =>
        rw [if_pos (hempty rawUrl hurl)]
        rfl
      · rfl
  | shellExec =>
    rw [start, startShellExec, resolveLiteral_live]
    refine begins_claimAndAct (fun block st => ?_)
      fun block detail st hconfig => ?_
    · split
      · split
        · rfl
        · exact claim_spawnChild
      · rfl
    · obtain ⟨rfl, hempty⟩ := nonEmptyText_eq_some hconfig
      split
      · next command hcommand =>
        rw [if_pos (hempty command hcommand)]
        rfl
      · rfl
  | agentSessionDispatch =>
    rw [start, startAgentSession, resolveRendered_live]
    refine begins_claimAndAct (fun block st => ?_)
      fun block detail st hconfig => ?_
    · split
      · split
        · rfl
        · exact claim_spawnChild
      · rfl
    · have hconfig : badAdapter block = some detail := hconfig
      rw [hconfig]
      rfl

end WoodFiredTasks.Router
