import Mathlib.Data.List.Basic
import Mathlib.Logic.Function.Basic
import WoodFiredTasks.Router.Handlers

set_option autoImplicit false

/-! # The router daemon

`WftRouterDaemon` (`packages/wft-router/src/daemon.ts`): a frame of the event stream is mapped to
an event, the rules that match it are debounced and rate limited, and the handler of each is run.
A process of the daemon keeps all of this in memory; only `dispatch_log` outlives it.

Beside the state of the source, a daemon here records what has been pushed into its pipeline and
what became of it: which payloads were replaced in their bucket, dropped by the rate limiter or
lost with the process, and every invocation of a handler. Logs, metrics and the in-memory cursor
are left out. -/

/-! ## Debouncer and rate limiter

What stands between a matched rule and its handler (`packages/wft-router/src/dispatch/debounce.ts`
and `rate-limit.ts`). A bucket of the debouncer carries one payload, that of the last push into it;
everyone who has pushed into it gets this payload when its timer fires. All timers have the same
window, so they fire in the order in which they were set, and the list of buckets stands in this
order.

The rate limiter counts tokens in parts of a 60000th, so a millisecond adds a whole number of them;
the source keeps the fraction in a float. -/

namespace WoodFiredTasks.Router

/-! ## Debouncer -/

/-- A bucket; `subscribers` are those who wait for it. -/
structure Bucket (π σ : Type) where
  key : String
  latestPayload : π
  coalescedCount : Nat
  deadline : Nat
  subscribers : List σ

/-- `compoundKey` -/
def compoundKey (ruleId eventKey : String) : String := ruleId ++ "\x00" ++ eventKey

namespace Debouncer

variable {π σ : Type}

/-- The payload that a push into the bucket replaces. -/
def replaced (buckets : List (Bucket π σ)) (key : String) : Option π :=
  (buckets.find? (·.key = key)).map (·.latestPayload)

def push (windowMs now : Nat) (buckets : List (Bucket π σ)) (key : String) (payload : π)
    (subscriber : σ) : List (Bucket π σ) :=
  match buckets.find? (·.key = key) with
  | some existing =>
    buckets.filter (·.key ≠ key) ++ [{ existing with
      latestPayload := payload
      coalescedCount := existing.coalescedCount + 1
      deadline := now + windowMs
      subscribers := existing.subscribers ++ [subscriber] }]
  | none =>
    buckets ++ [{ key, latestPayload := payload, coalescedCount := 1, deadline := now + windowMs,
                  subscribers := [subscriber] }]

end Debouncer

/-! ## Rate limiter -/

/-- The tokens of a rule. -/
structure TokenBucket where
  tokens : Nat
  lastRefillMs : Nat

/-- A token. -/
def tokenUnit : Nat := 60000

/-- `refillBucket`: a new bucket is full, an old one gets what the time since has added. -/
def refillBucket (tokensPerMinute now : Nat) : Option TokenBucket → TokenBucket
  | none => ⟨tokensPerMinute * tokenUnit, now⟩
  | some bucket =>
    if bucket.lastRefillMs < now then
      ⟨min (tokensPerMinute * tokenUnit)
        (bucket.tokens + (now - bucket.lastRefillMs) * tokensPerMinute), now⟩
    else bucket

/-- The rate limiter, a bucket for every rule that has been seen. -/
abbrev RateLimiter := String → Option TokenBucket

def RateLimiter.tryAcquire (limiter : RateLimiter) (tokensPerMinute now : Nat) (ruleId : String) :
    Bool × RateLimiter :=
  let bucket := refillBucket tokensPerMinute now (limiter ruleId)
  if tokenUnit ≤ bucket.tokens then
    (true, Function.update limiter ruleId
      (some { bucket with tokens := bucket.tokens - tokenUnit }))
  else (false, Function.update limiter ruleId (some bucket))

end WoodFiredTasks.Router

namespace WoodFiredTasks.Router

/-! ## Events -/

/-- The JSON in the `data:` of a frame. -/
structure WireEventPayload where
  eventType : Option String := none
  /-- The timestamp in milliseconds, if it is one. -/
  timestamp : Option Nat := none
  data : Option TaskShape := none
  metadata : Option MetadataShape := none

/-- Which domain event a frame carries: the process of the server and the number that it gave the
    event. A frame does not have it, and no function below looks at it. -/
structure Origin where
  boot : Nat
  number : Nat
  deriving DecidableEq

/-- A frame as the parser yields it; `data` is `none` for a text that is no JSON object. -/
structure SSEEvent where
  id : Option String
  event : Option String
  data : Option WireEventPayload
  origin : Origin

/-- `MappedEvent`; a sweep has no origin. -/
structure MappedEvent where
  payload : EventPayloadShape
  eventId : String
  emittedAtMs : Option Nat
  origin : Option Origin

/-- A text with something in it. -/
def nonEmpty (s : Option String) : Option String := s.filter (!·.isEmpty)

/-- The name of a frame, else the type that its data tells. -/
def frameType (ev : SSEEvent) (parsed : WireEventPayload) : Option String :=
  nonEmpty (ev.event.or parsed.eventType)

def mapSSEEvent (ev : SSEEvent) : Option MappedEvent :=
  ev.data.bind fun parsed =>
    (frameType ev parsed).bind fun type =>
      (nonEmpty ev.id).map fun eventId =>
        { payload := { type, task := parsed.data, metadata := parsed.metadata }
          eventId
          emittedAtMs := parsed.timestamp
          origin := some ev.origin }

/-- `CONTROL_EVENT_NAMES` has the frame's name. -/
def isControlEvent (ev : SSEEvent) : Bool := ev.event = some "ping"

/-! ## The daemon -/

/-- What a process of the daemon is started with. -/
structure DaemonDeps where
  config : TriggersConfig
  apiBaseUrl : String
  apiKey : String
  env : String → Option String

/-- `DispatchPayload` -/
structure DispatchPayload where
  rule : Rule
  event : EventPayloadShape
  identity : DispatchIdentity
  origin : Option Origin

/-- An attempt whose act is under way. -/
structure RunningAttempt where
  handler : HandlerName
  key : DispatchKey

/-- A call of a handler, for a payload, and what its claim came to. -/
structure Invocation where
  handler : HandlerName
  ctx : HandlerContext
  origin : Option Origin
  claim : Option ClaimResult

structure WftRouterDaemon where
  deps : DaemonDeps
  now : Nat
  store : IdempotencyStore := .empty
  buckets : List (Bucket DispatchPayload Rule) := []
  rateLimiter : RateLimiter := fun _ => none
  running : List RunningAttempt := []
  /-- Every payload for which `dispatchRule` was called. -/
  seen : List DispatchPayload := []
  merged : List DispatchPayload := []
  dropped : List DispatchPayload := []
  lost : List DispatchPayload := []
  invocations : List Invocation := []

namespace WftRouterDaemon

/-- `WFT_ROUTER_DEFAULTS.debounce_ms` unless the config has another. -/
def windowMs (deps : DaemonDeps) : Nat := deps.config.defaults.debounceMs.getD 1500

/-- `WFT_ROUTER_DEFAULTS.max_dispatches_per_minute` unless the config has another. -/
def tokensPerMinute (deps : DaemonDeps) : Nat :=
  deps.config.defaults.maxDispatchesPerMinute.getD 60

/-- `readTokenEnv` -/
def readTokenEnv (withBlock : List (String × Json)) : Option String :=
  match withBlock.lookup "token_env" with
  | some (.str s) => nonEmpty (some s)
  | _ => none

def buildContext (deps : DaemonDeps) (rule : Rule) (event : EventPayloadShape)
    (identity : DispatchIdentity) : HandlerContext where
  event
  identity
  withBlock := rule.withBlock
  apiBaseUrl := deps.apiBaseUrl
  authToken := (nonEmpty ((readTokenEnv rule.withBlock).bind deps.env)).getD deps.apiKey
  tokenEnv := readTokenEnv rule.withBlock

/-- What `dispatchRule` makes of a rule and an event. -/
def dispatchPayload (rule : Rule) (mapped : MappedEvent) : DispatchPayload where
  rule
  event := mapped.payload
  identity :=
    { ruleName := rule.name
      eventId := mapped.eventId
      taskId := mapped.payload.task.bind (·.id)
      toStatus := mapped.payload.metadata.bind (·.toStatus)
      emittedAtMs := mapped.emittedAtMs }
  origin := mapped.origin

/-- The task that events are debounced by, else the event itself. -/
def eventKey (mapped : MappedEvent) : String :=
  match mapped.payload.task.bind (·.id) with
  | some taskId => toString taskId
  | none => mapped.eventId

/-- Run a handler on the payload. -/
def invoke (d : WftRouterDaemon) (name : HandlerName) (payload : DispatchPayload) :
    WftRouterDaemon :=
  let ctx := buildContext d.deps payload.rule payload.event payload.identity
  let attempt := (defaultHandlerRegistry name).attempt d.store d.now ctx
  { d with
    store := attempt.store
    running := if attempt.ending = .acting then
      d.running ++ [⟨name, payload.identity.key⟩] else d.running
    invocations := d.invocations ++ [⟨name, ctx, payload.origin, attempt.claim⟩] }

/-- The rest of `dispatchRule` once the debouncer has answered: the handler is the rule's own, what
    it is run on is the payload that has won. -/
def dispatch (d : WftRouterDaemon) (rule : Rule) (winner : DispatchPayload) : WftRouterDaemon :=
  match d.rateLimiter.tryAcquire (tokensPerMinute d.deps) d.now rule.name with
  | (true, rateLimiter) => { d with rateLimiter }.invoke rule.doHandler winner
  | (false, rateLimiter) => { d with rateLimiter, dropped := d.dropped ++ [winner] }

/-- Push into the debouncer. -/
def push (d : WftRouterDaemon) (key : String) (payload : DispatchPayload) (rule : Rule) :
    WftRouterDaemon :=
  { d with
    buckets := Debouncer.push (windowMs d.deps) d.now d.buckets key payload rule
    merged := d.merged ++ (Debouncer.replaced d.buckets key).toList }

/-- A `debounce_ms` of 0 goes past the debouncer; any other is as good as none, and the window of
    the defaults holds. -/
def dispatchRule (d : WftRouterDaemon) (rule : Rule) (mapped : MappedEvent) : WftRouterDaemon :=
  let payload := dispatchPayload rule mapped
  let d' := { d with seen := d.seen ++ [payload] }
  if rule.debounceMs = some 0 then d'.dispatch rule payload
  else d'.push (compoundKey rule.name (eventKey mapped)) payload rule

/-- The rules that an event matches. -/
def matched (deps : DaemonDeps) (mapped : MappedEvent) : List Rule :=
  deps.config.rules.filter (·.matches mapped.payload)

/-- The pipeline of a mapped event. -/
def fanOut (d : WftRouterDaemon) (mapped : MappedEvent) : WftRouterDaemon :=
  (matched d.deps mapped).foldl (fun d rule => d.dispatchRule rule mapped) d

def onEvent (d : WftRouterDaemon) (ev : SSEEvent) : WftRouterDaemon :=
  if isControlEvent ev then d
  else match mapSSEEvent ev with
    | none => d
    | some mapped => d.fanOut mapped

/-- `fireBucket`: those who wait for the bucket go on, each in its turn. -/
def fireBucket (d : WftRouterDaemon) (bucket : Bucket DispatchPayload Rule) : WftRouterDaemon :=
  bucket.subscribers.foldl (fun d rule => d.dispatch rule bucket.latestPayload) d

/-- A timer fires at its deadline. -/
def fireTimer (d : WftRouterDaemon) (bucket : Bucket DispatchPayload Rule) : WftRouterDaemon :=
  { d with now := bucket.deadline }.fireBucket bucket

/-- Time passes, and the timers that are due fire. -/
def wait (d : WftRouterDaemon) (ms : Nat) : WftRouterDaemon :=
  let due := d.buckets.takeWhile (·.deadline ≤ d.now + ms)
  let rest := d.buckets.dropWhile (·.deadline ≤ d.now + ms)
  { due.foldl fireTimer { d with buckets := rest } with now := d.now + ms }

/-- `stop`: every bucket is flushed. -/
def stop (d : WftRouterDaemon) : WftRouterDaemon :=
  d.buckets.foldl fireBucket { d with buckets := [] }

/-- The act of a running attempt has come to something. -/
def settle (d : WftRouterDaemon) (i : Nat) (result : EffectResult) : WftRouterDaemon :=
  match d.running[i]? with
  | none => d
  | some attempt =>
    let status := ((defaultHandlerRegistry attempt.handler).finish result).1
    { d with
      store := (d.store.complete d.now attempt.key status).2
      running := d.running.eraseIdx i }

/-- `sweepEventId` -/
def sweepEventId (ruleName : String) (idempotencyWindowS nowMs : Nat) : String :=
  let bucket := if 0 < idempotencyWindowS then nowMs / (idempotencyWindowS * 1000) else nowMs
  "sweep:" ++ ruleName ++ ":" ++ toString bucket

/-- The rule has opted into a sweep, on start or by an interval. -/
def sweeps (deps : DaemonDeps) (rule : Rule) : Bool :=
  ((rule.sweepOnStart.or deps.config.defaults.sweepOnStart).getD false) ||
    0 < (rule.sweepIntervalS.or deps.config.defaults.sweepIntervalS).getD 0

/-- A listed task, as if it had just come to its status; every one has an id. -/
def taskRowToEventPayload (id : Int) (row : TaskShape) (eventType : String) :
    EventPayloadShape where
  type := eventType
  task := some { row with id := some id }
  metadata := row.status.map fun s => { toStatus := some s }

/-- `findFirstMatchingOpenTask`, over the tasks that the server has answered with. -/
def findFirstMatchingOpenTask (rule : Rule) (tasks : List (Int × TaskShape)) :
    Option EventPayloadShape :=
  (tasks.map fun task => taskRowToEventPayload task.1 task.2 rule.on.text).find?
    (evaluateWhere rule.whereBlock)

def sweepRule (d : WftRouterDaemon) (rule : Rule) (tasks : List (Int × TaskShape)) :
    WftRouterDaemon :=
  match findFirstMatchingOpenTask rule tasks with
  | none => d
  | some payload =>
    let windowS := (rule.idempotencyWindowS.or d.deps.config.defaults.idempotencyWindowS).getD 3600
    d.dispatchRule rule
      { payload, eventId := sweepEventId rule.name windowS d.now, emittedAtMs := some d.now,
        origin := none }

/-- A new process on the same `dispatch_log`: whatever was in memory is gone. -/
def start (d : WftRouterDaemon) (deps : DaemonDeps) : WftRouterDaemon :=
  { d with
    deps
    buckets := []
    rateLimiter := fun _ => none
    running := []
    lost := d.lost ++ d.buckets.map (·.latestPayload) }

/-- What can happen next. `start` may come at any time, as after a crash. -/
inductive Action where
  | event (ev : SSEEvent)
  | sweep (ruleIndex : Nat) (tasks : List (Int × TaskShape))
  | wait (ms : Nat)
  | settle (i : Nat) (result : EffectResult)
  | stop
  | start (deps : DaemonDeps)

def step (d : WftRouterDaemon) : Action → WftRouterDaemon
  | .event ev => d.onEvent ev
  | .sweep ruleIndex tasks =>
    match (d.deps.config.rules.filter (sweeps d.deps))[ruleIndex]? with
    | none => d
    | some rule => d.sweepRule rule tasks
  | .wait ms => d.wait ms
  | .settle i result => d.settle i result
  | .stop => d.stop
  | .start deps => d.start deps

end WftRouterDaemon

end WoodFiredTasks.Router
