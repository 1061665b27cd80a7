import WoodFiredTasks.Router.Daemon
import WoodFiredTasks.Router.SseClient

set_option autoImplicit false

/-! # Start, stop and drain

`start`, `stop` and `wait` of the daemon and `runDaemon`, which has them all: a state machine whose
steps are what the event loop of the process may run next. A call of `stop` waits three times: for
the flush of the debouncer, for the end of the consume loop, and for the promises that are in
flight. Of a dispatch only its place on the way is kept, not what the handler does; which tasks a
sweep finds, when a timer fires, what the rate limiter says and when a handler settles is up to
the run. -/

namespace WoodFiredTasks.Router

/-! ## What is in flight -/

/-- Where a call of `dispatchRule` has got: it waits for its bucket, it is past the debouncer, its
    handler runs, or its promise has settled. -/
inductive DispatchStage where
  | debounced (key : String)
  | ready
  | handling
  | settled
  deriving DecidableEq

namespace DispatchStage

/-- The bucket of the key is fired. -/
def fire (key : String) : DispatchStage → DispatchStage
  | .debounced k => if k = key then .ready else .debounced k
  | stage => stage

/-- Every bucket is fired. -/
def flush : DispatchStage → DispatchStage
  | .debounced _ => .ready
  | stage => stage

end DispatchStage

/-- A promise that `track` was called with: the fan-out of an event, the sweep on start, or a tick
    of a periodic sweep. A sweep has rules to come, one that it queries the server for, and the
    dispatches that it has made. -/
structure Work where
  rules : List Rule := []
  querying : Option Rule := none
  dispatches : List DispatchStage := []

/-- The promise has settled. -/
def Work.isSettled (work : Work) : Bool :=
  work.rules.isEmpty && work.querying.isNone && work.dispatches.all (· = .settled)

/-- The beginning of `dispatchRule`. -/
def dispatchStage (rule : Rule) (mapped : MappedEvent) : DispatchStage :=
  if rule.debounceMs = some 0 then .ready
  else .debounced (compoundKey rule.name (WftRouterDaemon.eventKey mapped))

/-- What may happen within a promise: a dispatch passes the rate limiter and calls its handler, or
    is given up before; a handler settles; the server answers a sweep, or fails to; the sweep on
    start goes on to its next rule. -/
inductive Progress where
  | gate (j : Nat) (passes : Bool)
  | settle (j : Nat)
  | answer (tasks : Option (List (Int × TaskShape))) (nowMs : Nat)
  | next

def Work.progress (deps : DaemonDeps) (aborted : Bool) (work : Work) : Progress → Work
  | .gate j passes =>
    { work with dispatches := work.dispatches.modify j fun stage =>
        if stage = .ready then (if passes then .handling else .settled) else stage }
  | .settle j =>
    { work with dispatches := work.dispatches.modify j fun stage =>
        if stage = .handling then .settled else stage }
  | .answer tasks nowMs =>
    match work.querying with
    | none => work
    | some rule =>
      match tasks.bind (WftRouterDaemon.findFirstMatchingOpenTask rule) with
      | none => { work with querying := none }
      | some payload =>
        let windowS :=
          (rule.idempotencyWindowS.or deps.config.defaults.idempotencyWindowS).getD 3600
        let mapped : MappedEvent :=
          { payload, eventId := WftRouterDaemon.sweepEventId rule.name windowS nowMs,
            emittedAtMs := some nowMs, origin := none }
        { work with querying := none, dispatches := work.dispatches ++ [dispatchStage rule mapped] }
  | .next =>
    match work.rules with
    | [] => work
    | rule :: rest =>
      if work.querying.isNone && work.dispatches.all (· = .settled) then
        if aborted then { work with rules := [] }
        else { work with rules := rest, querying := some rule }
      else work

/-! ## The daemon -/

inductive DaemonPhase where
  | idle | running | stopping | stopped
  deriving DecidableEq

/-- The promise `consumeLoop`, which is `null` before `start`. -/
inductive ConsumeLoop where
  | null
  | running
  | ended (code : Sse.ExitCode)
  deriving DecidableEq

/-- Where a call of `stop` waits. The last wait is for the promises that were in flight when it
    began, the first `upTo` of those that have been tracked. -/
inductive StopStage where
  | flushing
  | awaitingLoop
  | draining (upTo : Nat)
  /-- The call has found another one at work. -/
  | joining
  | returned
  deriving DecidableEq

/-- Where `runDaemon` waits. -/
inductive MainStage where
  | notRun
  | waiting
  | stopping (call : Nat) (code : Sse.ExitCode)
  | returned (code : Sse.ExitCode)
  deriving DecidableEq

/-- The fields of the daemon that `start` and `stop` are about, and the calls of `stop`, in their
    order. A promise that has settled stays among the tracked ones: nobody waits for it. -/
structure Lifecycle where
  deps : DaemonDeps
  phase : DaemonPhase := .idle
  aborted : Bool := false
  consumeLoop : ConsumeLoop := .null
  tracked : List Work := []
  exitCode : Sse.ExitCode := .cleanShutdown
  calls : List StopStage := []
  main : MainStage := .notRun

namespace Lifecycle

/-- `sweepRules` -/
def sweepRules (deps : DaemonDeps) : List Rule :=
  deps.config.rules.filter fun rule =>
    (rule.sweepOnStart.or deps.config.defaults.sweepOnStart).getD false

/-- The rules that have a timer. -/
def intervalRules (deps : DaemonDeps) : List Rule :=
  deps.config.rules.filter fun rule =>
    0 < (rule.sweepIntervalS.or deps.config.defaults.sweepIntervalS).getD 0

def track (s : Lifecycle) (work : Work) : Lifecycle :=
  { s with tracked := s.tracked ++ [work] }

def start (s : Lifecycle) : Lifecycle :=
  if s.phase ≠ .idle then s
  else
    let s := { s with phase := .running, consumeLoop := .running }
    match sweepRules s.deps with
    | [] => s
    | rule :: rest => s.track { rules := rest, querying := some rule }

def onEvent (s : Lifecycle) (ev : SSEEvent) : Lifecycle :=
  if isControlEvent ev then s
  else
    match mapSSEEvent ev with
    | none => s
    | some mapped =>
      match WftRouterDaemon.matched s.deps mapped with
      | [] => s
      | rules => s.track { dispatches := rules.map fun rule => dispatchStage rule mapped }

/-- `stop`, up to its first `await`. -/
def stop (s : Lifecycle) : Lifecycle :=
  match s.phase with
  | .idle => { s with phase := .stopped, calls := s.calls ++ [.returned] }
  | .running =>
    { s with
      phase := .stopping
      aborted := true
      tracked := s.tracked.map fun work =>
        { work with dispatches := work.dispatches.map DispatchStage.flush }
      calls := s.calls ++ [.flushing] }
  | .stopping | .stopped =>
    { s with calls := s.calls ++ [if s.consumeLoop = .null then .returned else .joining] }

/-- A call of `stop` goes on, if what it waits for has come. -/
def resume (s : Lifecycle) (call : Nat) : Lifecycle :=
  match s.calls[call]? with
  | some .flushing =>
    let next := if s.consumeLoop = .null then .draining s.tracked.length else .awaitingLoop
    { s with calls := s.calls.set call next }
  | some .awaitingLoop =>
    match s.consumeLoop with
    | .ended code =>
      { s with exitCode := code, calls := s.calls.set call (.draining s.tracked.length) }
    | _ => s
  | some (.draining upTo) =>
    if (s.tracked.take upTo).all Work.isSettled then
      { s with phase := .stopped, calls := s.calls.set call .returned }
    else s
  | some .joining =>
    match s.consumeLoop with
    | .ended _ => { s with calls := s.calls.set call .returned }
    | _ => s
  | some .returned | none => s

/-- `runDaemon` up to its first `await`, once the daemon is created. -/
def run (s : Lifecycle) : Lifecycle :=
  if s.main = .notRun then { s.start with main := .waiting } else s

/-- `runDaemon` goes on: `wait` returns the exit code, and `stop` is called. -/
def resumeMain (s : Lifecycle) : Lifecycle :=
  match s.main with
  | .waiting =>
    match s.consumeLoop with
    | .running => s
    | .null => { s.stop with main := .stopping s.calls.length s.exitCode }
    | .ended code =>
      let s' := { s with exitCode := code }.stop
      { s' with main := .stopping s.calls.length code }
  | .stopping call code =>
    if s.calls[call]? = some .returned then { s with main := .returned code } else s
  | _ => s

/-- What can happen next. `yield` and `streamEnd` are what the event stream comes to, also after it
    was aborted; `stop` is a call by the handler of a signal or by anybody else. -/
inductive Action where
  | start
  | run
  | yield (ev : SSEEvent)
  | streamEnd (code : Sse.ExitCode)
  | sweepTick (ruleIndex : Nat)
  | fireBucket (key : String)
  | progress (i : Nat) (what : Progress)
  | stop
  | resume (call : Nat)
  | resumeMain

def step (s : Lifecycle) : Action → Lifecycle
  | .start => s.start
  | .run => s.run
  | .yield ev => if s.consumeLoop = .running then s.onEvent ev else s
  | .streamEnd code => if s.consumeLoop = .running then { s with consumeLoop := .ended code } else s
  | .sweepTick ruleIndex =>
    -- a tick in any other phase is a no-op
    if s.phase = .running then
      match (intervalRules s.deps)[ruleIndex]? with
      | none => s
      | some rule => s.track { querying := some rule }
    else s
  | .fireBucket key =>
    { s with tracked := s.tracked.map fun work =>
        { work with dispatches := work.dispatches.map (DispatchStage.fire key) } }
  | .progress i what =>
    { s with tracked := s.tracked.modify i fun work => work.progress s.deps s.aborted what }
  | .stop => s.stop
  | .resume call => s.resume call
  | .resumeMain => s.resumeMain

/-- A daemon that was created and not started. -/
def created (deps : DaemonDeps) : Lifecycle := { deps }

end Lifecycle

end WoodFiredTasks.Router
