import WoodFiredTasks.Mcp.RemoteSseParser
import WoodFiredTasks.Types.Task

set_option autoImplicit false

/-! # Waiting until a blocked task is opened

`wait_for_unblock` twice: the tool of the stdio server (`src/mcp/tools/wait-for-unblock-tools.ts`
over `src/events/subscribe-once.ts`) subscribes and reads the task in one go, the one of the remote
server (`src/mcp/remote/register-tools.ts` over `waitForUnblockViaSse` in `rest-client.ts`) sends
two requests and reads the stream that the first one opens. A call is a machine whose steps are the
things that can happen next, in any order; a step that cannot happen changes nothing.

Both machines write down when the task was moved from blocked to open since the call began, which
the tool does not see. Times are in milliseconds. -/

namespace WoodFiredTasks.Mcp

def defaultTimeoutSeconds : Nat := 300

def maxTimeoutSeconds : Nat := 1800

def appliedTimeoutSeconds (timeoutSeconds : Option Nat) : Nat :=
  min (max 1 (timeoutSeconds.getD defaultTimeoutSeconds)) maxTimeoutSeconds

inductive WaitAnswer where
  | alreadyUnblocked | timeout | unblocked
  /-- An `McpError`. -/
  | failed
  deriving DecidableEq

/-- How a promise to wait for the transition was settled: the transition was seen (`true`), it was
    given up (`false`, or a `TimeoutError`), or something else was thrown. -/
inductive Settled where
  | observed | gaveUp | failed
  deriving DecidableEq

/-- The answer: what the first read returned (none if it threw), how the wait was settled, and
    whether the read after it succeeded. -/
def waitAnswer (current : Option TaskStatus) (settled : Option Settled) (fresh : Option Bool) :
    Option WaitAnswer :=
  match current with
  | none => some .failed
  | some .blocked =>
    match settled with
    | none => none
    | some .gaveUp => some .timeout
    | some .failed => some .failed
    | some .observed => fresh.map fun succeeded => if succeeded then .unblocked else .failed
  | some _ => some .alreadyUnblocked

section
variable {current : Option TaskStatus} {settled : Option Settled} {fresh : Option Bool}

theorem waitAnswer_blocked (h : current ≠ some .blocked) :
    waitAnswer current settled fresh ≠ some .timeout ∧
      waitAnswer current settled fresh ≠ some .unblocked := by
  unfold waitAnswer
  split
  · simp
  · exact absurd rfl h
  · simp

theorem waitAnswer_timeout :
    waitAnswer current settled fresh = some .timeout ↔
      current = some .blocked ∧ settled = some .gaveUp := by
  by_cases hcurrent : current = some .blocked
  · subst hcurrent
    cases settled with
    | none => simp [waitAnswer]
    | some how =>
      cases how with
      | observed => cases fresh <;> simp [waitAnswer]; split <;> simp
      | gaveUp => simp [waitAnswer]
      | failed => simp [waitAnswer]
  · simp [hcurrent, (waitAnswer_blocked hcurrent).1]

theorem waitAnswer_unblocked (h : waitAnswer current settled fresh = some .unblocked) :
    current = some .blocked ∧ settled = some .observed := by
  by_cases hcurrent : current = some .blocked
  · subst hcurrent
    rcases settled with _ | (_ | _ | _) <;> simp_all [waitAnswer]
  · exact absurd h (waitAnswer_blocked hcurrent).2

end

/-! ## The stdio tool -/

/-- The part of a `task.status_changed` event that the predicate looks at. -/
structure StatusChanged where
  id : Nat
  fromStatus : TaskStatus
  toStatus : TaskStatus

/-- The predicate of the subscription. -/
def StatusChanged.unblocks (event : StatusChanged) (taskId : Nat) : Bool :=
  event.id == taskId && event.fromStatus == .blocked && event.toStatus == .open

/-- A call of the stdio tool, with the tasks of the database and their statuses. -/
structure StdioWait where
  taskId : Nat
  now : Nat
  deadline : Nat
  tasks : Nat → Option TaskStatus
  /-- What `getTask` returned at the beginning; none if it threw. -/
  current : Option TaskStatus
  settled : Option Settled
  /-- What `getTask` returned, or that it threw, once the transition was seen. -/
  fresh : Option (Option TaskStatus) := none
  /-- When this process moved the task from blocked to open. -/
  moves : List Nat := []

namespace StdioWait

inductive Step where
  /-- `updateTask` in this process. -/
  | updateTask (id : Nat) (status : TaskStatus)
  /-- A write of another process, or a deletion. -/
  | writeElsewhere (id : Nat) (status : Option TaskStatus)
  | tick (ms : Nat)
  | fireTimer
  /-- The call goes on after `await waitPromise`. -/
  | resume

/-- The subscription and the read, with nothing in between. A read of a task that is not blocked
    aborts the subscription; one that throws leaves it. -/
def start (taskId now : Nat) (timeoutSeconds : Option Nat) (tasks : Nat → Option TaskStatus) :
    StdioWait where
  taskId := taskId
  now := now
  deadline := now + appliedTimeoutSeconds timeoutSeconds * 1000
  tasks := tasks
  current := tasks taskId
  settled := if tasks taskId = none ∨ tasks taskId = some .blocked then none else some .failed

/-- The handler of the subscription. -/
def handle (s : StdioWait) (event : StatusChanged) : StdioWait :=
  if s.settled = none ∧ event.unblocks s.taskId then { s with settled := some .observed } else s

def updateTask (s : StdioWait) (id : Nat) (status : TaskStatus) : StdioWait :=
  match s.tasks id with
  | none => s
  | some old =>
    let written := { s with tasks := Function.update s.tasks id (some status) }
    if old = status then written
    else
      let event : StatusChanged := { id, fromStatus := old, toStatus := status }
      { written with
          moves := if event.unblocks s.taskId then s.moves ++ [s.now] else s.moves }.handle event

def step (s : StdioWait) : Step → StdioWait
  | .updateTask id status => s.updateTask id status
  | .writeElsewhere id status => { s with tasks := Function.update s.tasks id status }
  | .tick ms => { s with now := s.now + ms }
  | .fireTimer =>
    if s.settled = none ∧ s.deadline ≤ s.now then { s with settled := some .gaveUp } else s
  | .resume =>
    if s.settled = some .observed ∧ s.fresh = none then { s with fresh := some (s.tasks s.taskId) }
    else s

def answer (s : StdioWait) : Option WaitAnswer :=
  waitAnswer s.current s.settled (s.fresh.map Option.isSome)

end StdioWait

/-! ## The loop over the stream -/

/-- What `JSON.parse` makes of the data of a frame, as far as the loop looks at it. -/
inductive ParsedData where
  /-- It throws. -/
  | invalid
  /-- `null`, of which no property can be read. -/
  | null
  | payload (id : Option Nat) (fromStatus toStatus : Option String)
  deriving DecidableEq

/-- The loop over the frames of a chunk; none if it goes on to read. -/
def readFrames (taskId : Nat) (parse : String → ParsedData) : List RemoteSSEEvent → Option Settled
  | [] => none
  | frame :: rest =>
    if frame.data = "" then readFrames taskId parse rest
    else
      match parse frame.data with
      | .invalid => readFrames taskId parse rest
      | .null => some .failed
      | .payload id fromStatus toStatus =>
        if id = some taskId ∧ fromStatus = some "blocked" ∧ toStatus = some "open" then
          some .observed
        else readFrames taskId parse rest

theorem readFrames_append (taskId : Nat) (parse : String → ParsedData)
    (frames rest : List RemoteSSEEvent) :
    readFrames taskId parse (frames ++ rest) =
      (readFrames taskId parse frames).or (readFrames taskId parse rest) := by
  induction frames with
  | nil => rfl
  | cons frame others ih =>
    rw [List.cons_append, readFrames, readFrames]
    by_cases hdata : frame.data = ""
    · simp only [if_pos hdata, ih]
    · simp only [if_neg hdata]
      cases parse frame.data with
      | invalid => exact ih
      | null => rfl
      | payload id fromStatus toStatus =>
        dsimp only
        split
        · rfl
        · exact ih

/-- The task that is waited for, `JSON.parse`, and what the server sends when the task's status
    changes for the n-th time. -/
structure RemoteEnv where
  taskId : Nat
  parse : String → ParsedData
  statusFrame : Nat → TaskStatus → TaskStatus → Frame
  statusData : Nat → TaskStatus → TaskStatus → String
  statusFrame_events : ∀ n old new, (statusFrame n old new).events =
    [{ event := some "task.status_changed", data := statusData n old new }]
  parse_empty : parse "" = .invalid
  parse_statusData : ∀ n old new,
    parse (statusData n old new) = .payload (some taskId) (some old.text) (some new.text)

/-- The loop over frames, for this task. -/
def RemoteEnv.read (env : RemoteEnv) : List RemoteSSEEvent → Option Settled :=
  readFrames env.taskId env.parse

theorem RemoteEnv.read_append (env : RemoteEnv) (frames rest : List RemoteSSEEvent) :
    env.read (frames ++ rest) = (env.read frames).or (env.read rest) :=
  readFrames_append env.taskId env.parse frames rest

/-- The frame of a change ends the loop if the task was opened. -/
theorem RemoteEnv.read_statusFrame (env : RemoteEnv) (n : Nat) (old new : TaskStatus) :
    env.read (env.statusFrame n old new).events =
      if old = .blocked ∧ new = .open then some .observed else none := by
  have hparse := env.parse_statusData n old new
  have hdata : env.statusData n old new ≠ "" := by
    intro hempty
    rw [hempty, env.parse_empty] at hparse
    contradiction
  simp only [read, env.statusFrame_events, readFrames, if_neg hdata, hparse]
  cases old <;> cases new <;> simp [TaskStatus.text]

/-- Anything else that the server sends: `connected`, pings, the events of other tasks. -/
def QuietFrame (env : RemoteEnv) := { frame : Frame // env.read frame.events = none }

/-! ## The remote tool -/

/-- How far the request for the stream is, at the server. -/
inductive Stream where
  | requested | «open» | closed
  deriving DecidableEq

/-- A write that moved the task from blocked to open. -/
structure Move where
  time : Nat
  /-- The place of its frame in the stream; none if it was not sent there. -/
  frame : Option Nat

/-- A call of the remote tool, with the status of the task in the database. -/
structure RemoteWait where
  now : Nat
  deadline : Nat
  task : TaskStatus
  stream : Stream := .requested
  /-- What the server sent on the stream. -/
  sent : List Frame := []
  /-- How many bytes of it were read. -/
  received : Nat := 0
  decoder : TextDecoder := {}
  parser : RemoteSSEParser := createRemoteSSEParser
  /-- How the loop was left; it settles its promise when `reader.cancel()` is done. -/
  left : Option Settled := none
  settled : Option Settled := none
  /-- What the server answered to the first `getTask`; `some none` is an error. -/
  snapshot : Option (Option TaskStatus) := none
  current : Option (Option TaskStatus) := none
  /-- Whether the second `getTask` succeeded. -/
  fresh : Option Bool := none
  moves : List Move := []

namespace RemoteWait

inductive Step (env : RemoteEnv) where
  /-- The server processes the request for the stream. -/
  | openStream
  /-- The request for the stream fails, before or after the server has processed it. -/
  | refuseStream
  /-- The server reads the task for the first `getTask`. -/
  | readTask
  | failRead
  | deliverRead
  /-- A write of the task, by the server or by another process on the same database. -/
  | updateTask (status : TaskStatus) (byServer : Bool)
  | broadcast (frame : QuietFrame env)
  /-- The server closes the stream. -/
  | closeStream
  /-- The next bytes of the stream arrive. -/
  | deliver (n : Nat)
  /-- The stream ends or breaks, as the reader sees it. -/
  | endStream
  /-- `reader.cancel()` is done, after the loop. -/
  | cancelDone
  | fireTimer
  | deliverFresh (succeeded : Bool)
  | tick (ms : Nat)

/-- The call sends both requests. -/
def start (now : Nat) (timeoutSeconds : Option Nat) (task : TaskStatus) : RemoteWait where
  now := now
  deadline := now + appliedTimeoutSeconds timeoutSeconds * 1000
  task := task

/-- Everything that was sent. -/
def bytes (s : RemoteWait) : List UInt8 := s.sent.flatMap Frame.bytes

/-- `Promise.race`: the first one counts. -/
def settle (s : RemoteWait) (how : Settled) : RemoteWait :=
  { s with settled := s.settled.or (some how) }

/-- The loop is running. -/
def reading (s : RemoteWait) : Bool := s.stream != .requested && s.left.isNone && s.settled.isNone

def updateTask (env : RemoteEnv) (s : RemoteWait) (status : TaskStatus) (byServer : Bool) :
    RemoteWait :=
  let sends := byServer ∧ s.stream = .open ∧ s.task ≠ status
  let opens := s.task = .blocked ∧ status = .open
  { s with
    task := status
    sent := s.sent ++ if sends then [env.statusFrame s.sent.length s.task status] else []
    moves := s.moves ++
      if opens then [{ time := s.now, frame := if sends then some s.sent.length else none }]
      else [] }

/-- A chunk of n bytes. -/
def deliver (env : RemoteEnv) (s : RemoteWait) (n : Nat) : RemoteWait :=
  let chunk := (s.bytes.drop s.received).take n
  let text := s.decoder.decode chunk
  let frames := s.parser.feed text.2
  { s with
    received := s.received + n
    decoder := text.1
    parser := frames.1
    left := env.read frames.2 }

/-- A read that shows the task blocked goes on to wait; any other aborts the stream. -/
def deliverRead (s : RemoteWait) : RemoteWait :=
  match s.snapshot with
  | none => s
  | some (some .blocked) => { s with current := s.snapshot }
  | some _ => { s with current := s.snapshot }.settle .gaveUp

def step (env : RemoteEnv) (s : RemoteWait) : Step env → RemoteWait
  | .openStream => if s.stream = .requested then { s with stream := .open } else s
  | .refuseStream => if s.received = 0 ∧ s.left = none then s.settle .failed else s
  | .readTask => if s.snapshot = none then { s with snapshot := some (some s.task) } else s
  | .failRead => if s.snapshot = none then { s with snapshot := some none } else s
  | .deliverRead => if s.current = none then s.deliverRead else s
  | .updateTask status byServer => s.updateTask env status byServer
  | .broadcast frame => if s.stream = .open then { s with sent := s.sent ++ [frame.1] } else s
  | .closeStream => { s with stream := .closed }
  | .deliver n =>
    if s.reading ∧ s.received + n ≤ s.bytes.length then s.deliver env n else s
  | .endStream => if s.reading then { s with left := some .gaveUp } else s
  | .cancelDone =>
    match s.left with
    | none => s
    | some how => s.settle how
  | .fireTimer => if s.deadline ≤ s.now then s.settle .gaveUp else s
  | .deliverFresh succeeded =>
    if s.settled = some .observed ∧ s.fresh = none then { s with fresh := some succeeded } else s
  | .tick ms => { s with now := s.now + ms }

def answer (s : RemoteWait) : Option WaitAnswer :=
  s.current.bind fun current => waitAnswer current s.settled s.fresh

end RemoteWait

end WoodFiredTasks.Mcp
