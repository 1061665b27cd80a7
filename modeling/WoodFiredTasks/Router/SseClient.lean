import WoodFiredTasks.Lib.Transducer
import WoodFiredTasks.Router.HandlerRuns
import WoodFiredTasks.Router.SseParser

set_option autoImplicit false

/-! # The client of the event stream

`runSSEClient` opens a connection, yields the events it reads, and opens the next one when the
connection has ended, with the id of the last event that had one. What a connection meets is an
input of the model: the answer to the request, the chunks and the end of its body, the readings of
the clock and whether the daemon aborts. -/

namespace WoodFiredTasks.Router.Sse

/-! ## What a connection meets -/

/-- What `reader.read()` comes to: bytes, the end of the body, or a rejection (also of the timer
    that runs against the read). -/
inductive Read where
  | chunk (value : List UInt8)
  | done
  | failed (message : String)
  deriving DecidableEq

/-- What `fetch` comes to; a response may have no body. -/
inductive FetchResult where
  | rejected (message : String)
  | response (status : Nat) (body : Option (List Read))

structure Connection where
  fetch : FetchResult
  /-- The signal is aborted while the connection is open. -/
  aborted : Bool := false
  /-- The signal is aborted during the sleep before the next connection. -/
  abortedAsleep : Bool := false

/-- `SSEClientOptions`, and the clock by the number of the reading. -/
structure ClientEnv where
  url : String
  apiKey : String
  staleResubscribeAfterMs : Nat := 0
  unreachableLimitMs : Nat := 900000
  now : Nat → Int

inductive ExitCode where
  | cleanShutdown
  | authFailedStartup
  | endpointUnreachable
  deriving DecidableEq

inductive ConnectionResult where
  | closedClean
  | authFailed (status : Nat)
  | gap (status : Nat)
  | networkError (message : String)
  | stale (silentForMs : Int)
  deriving DecidableEq

/-! ## One connection -/

/-- `CONTROL_EVENT_NAMES` has `ping` only. -/
def isControlEvent (event : SSEEvent) : Bool := event.event = some "ping"

/-- The request of a connection. -/
def eventsRequest (env : ClientEnv) (lastEventId : Option String) : String × List (String × String) :=
  (env.url, authHeaderFor env.apiKey :: ("Accept", "text/event-stream") ::
    (lastEventId.map fun id => ("Last-Event-Id", id)).toList)

/-- What yielding the events of a chunk comes to. -/
structure Yielding where
  yielded : List SSEEvent
  lastRealEventAt : Int
  readings : Nat
  result : Option ConnectionResult

/-- Yields the events of a chunk, until the stream turns out to be deaf. -/
def yieldEvents (env : ClientEnv) : List SSEEvent → Int → Nat → Yielding
  | [], lastRealEventAt, readings => ⟨[], lastRealEventAt, readings, none⟩
  | event :: rest, lastRealEventAt, readings =>
    let real := !isControlEvent event
    let lastRealEventAt := if real then env.now readings else lastRealEventAt
    let readings := if real then readings + 1 else readings
    if env.staleResubscribeAfterMs = 0 then
      let out := yieldEvents env rest lastRealEventAt readings
      { out with yielded := event :: out.yielded }
    else if env.staleResubscribeAfterMs ≤ env.now readings - lastRealEventAt then
      ⟨[event], lastRealEventAt, readings + 2,
        some (.stale (env.now (readings + 1) - lastRealEventAt))⟩
    else
      let out := yieldEvents env rest lastRealEventAt (readings + 1)
      { out with yielded := event :: out.yielded }

/-- The variables of the read loop. -/
structure LoopState where
  decoder : TextDecoder := {}
  parser : SSEParser := createSSEParser
  lastRealEventAt : Int
  readings : Nat

/-- How a connection went: what was read and yielded, and how it ended, if it did. -/
structure ConnectionRun where
  reads : List Read
  yielded : List SSEEvent
  readings : Nat
  result : Option ConnectionResult

/-- The read loop of `runOneConnection`. -/
def readLoop (env : ClientEnv) (aborted : Bool) (st : LoopState) : List Read → ConnectionRun
  | [] => ⟨[], [], st.readings, none⟩
  | .failed message :: _ =>
    ⟨[.failed message], [], st.readings,
      some (if aborted then .closedClean else .networkError message)⟩
  | .done :: _ => ⟨[.done], st.parser.flush.2, st.readings, some .closedClean⟩
  | .chunk value :: rest =>
    let text := st.decoder.decode value
    let events := st.parser.feed text.2
    let out := yieldEvents env events.2 st.lastRealEventAt st.readings
    match out.result with
    | some result => ⟨[.chunk value], out.yielded, out.readings, some result⟩
    | none =>
      let loop := readLoop env aborted
        ⟨text.1, events.1, out.lastRealEventAt, out.readings⟩ rest
      { loop with reads := .chunk value :: loop.reads, yielded := out.yielded ++ loop.yielded }

def runOneConnection (env : ClientEnv) (connection : Connection) (readings : Nat) :
    ConnectionRun :=
  match connection.fetch with
  | .rejected message =>
    ⟨[], [], readings, some (if connection.aborted then .closedClean else .networkError message)⟩
  | .response status body =>
    if status = 401 ∨ status = 403 then ⟨[], [], readings, some (.authFailed status)⟩
    else if status = 410 then ⟨[], [], readings, some (.gap status)⟩
    else
      match body with
      | none => ⟨[], [], readings, some (.networkError ("HTTP " ++ toString status ++ " (no body)"))⟩
      | some reads =>
        if 200 ≤ status ∧ status ≤ 299 then
          readLoop env connection.aborted ⟨{}, createSSEParser, env.now readings, readings + 1⟩ reads
        else ⟨[], [], readings, some (.networkError ("HTTP " ++ toString status))⟩

/-! ## The run loop -/

structure ClientState where
  lastEventId : Option String := none
  firstFailureAt : Option Int := none
  attempts : Nat := 0
  everYielded : Bool := false
  readings : Nat := 0

/-- Only an id that is not empty is remembered. -/
def nextId (lastEventId : Option String) (event : SSEEvent) : Option String :=
  match event.id with
  | some id => if id.isEmpty then lastEventId else some id
  | none => lastEventId

/-- Whether the endpoint has been unreachable for too long, and how often the clock was read. -/
def watchdog (env : ClientEnv) (st : ClientState) : Bool × Nat :=
  match st.firstFailureAt with
  | none => (false, st.readings)
  | some at_ =>
    if env.unreachableLimitMs ≤ env.now st.readings - at_ then (true, st.readings + 2)
    else (false, st.readings + 1)

/-- One more failed attempt. -/
def ClientState.fail (env : ClientEnv) (st : ClientState) : ClientState :=
  match st.firstFailureAt with
  | some _ => { st with attempts := st.attempts + 1 }
  | none =>
    { st with attempts := st.attempts + 1, firstFailureAt := some (env.now st.readings),
              readings := st.readings + 1 }

/-- The watchdog, the sleep, and the watchdog again. -/
def beforeReconnect (env : ClientEnv) (connection : Connection) (st : ClientState) :
    Except ExitCode ClientState :=
  let first := watchdog env st
  let st := { st with readings := first.2 }
  if first.1 then .error .endpointUnreachable
  else if st.attempts = 0 then .ok st
  else if connection.abortedAsleep then .error .cleanShutdown
  else
    let second := watchdog env st
    if second.1 then .error .endpointUnreachable else .ok { st with readings := second.2 }

/-- From the result of a connection to the next one. -/
def afterConnection (env : ClientEnv) (connection : Connection) (result : ConnectionResult)
    (yielded : List SSEEvent) (st : ClientState) : Except ExitCode ClientState :=
  let st := { st with
    lastEventId := yielded.foldl nextId st.lastEventId
    everYielded := st.everYielded || !yielded.isEmpty }
  let st := if yielded.isEmpty then st else { st with firstFailureAt := none, attempts := 0 }
  if connection.aborted then .error .cleanShutdown
  else
    match result with
    | .authFailed _ => .error .authFailedStartup
    | .gap _ => .ok { st with lastEventId := none, firstFailureAt := none, attempts := 0 }
    | .stale _ => .ok { st with firstFailureAt := none, attempts := 0 }
    | .closedClean =>
      beforeReconnect env connection
        (if yielded.isEmpty then st.fail env else { st with attempts := 0 })
    | .networkError _ => beforeReconnect env connection (st.fail env)

/-- A connection of a run, with the `Last-Event-Id` it was opened with. -/
structure Session where
  lastEventId : Option String
  connection : Connection
  run : ConnectionRun

/-- The `while` loop. -/
def clientLoop (env : ClientEnv) (st : ClientState) : List Connection → List Session × Option ExitCode
  | [] => ([], none)
  | connection :: rest =>
    let run := runOneConnection env connection st.readings
    let session : Session := ⟨st.lastEventId, connection, run⟩
    match run.result with
    | none => ([session], none)
    | some result =>
      match afterConnection env connection result run.yielded { st with readings := run.readings } with
      | .error code => ([session], some code)
      | .ok st =>
        let out := clientLoop env st rest
        (session :: out.1, out.2)

/-- `runSSEClient`, over the connections that it comes to open. -/
def runSSEClient (env : ClientEnv) (aborted : Bool) (connections : List Connection) :
    List Session × Option ExitCode :=
  if aborted then ([], some .cleanShutdown) else clientLoop env {} connections

end WoodFiredTasks.Router.Sse
