import WoodFiredTasks.Events.Types

set_option autoImplicit false

/-! # The event stream

`SSEManager` (`src/events/sse-manager.ts`): it numbers the domain events, keeps the last ones in a
buffer, sends each to the connections it matches, and replays the buffer to a client that comes
back with the id of the last event it got. All of it runs in one process: a restart begins with
an empty buffer and with number 1.

Frames without an id (`ping`, `connected`), the connection caps and the counters for the health
route are left out. A heartbeat eviction and a failed send close a connection, as does the client;
all three are `removeConnection` here. -/

namespace WoodFiredTasks

/-- The `data` of a domain event: the row of a task, or that of a project. -/
inductive EventData where
  | task (row : Task)
  | project (row : Project)
  deriving DecidableEq

/-- A domain event on its way to a stream. -/
structure EventPayload where
  eventType : String
  /-- The ISO timestamp, in milliseconds. -/
  timestamp : Nat
  data : EventData
  source : EventSource := .user
  fromStatus : Option TaskStatus := none
  toStatus : Option TaskStatus := none
  deriving DecidableEq

/-- `project_id` of the payload: a project row has an `id` and no such field. -/
def getEventProjectId (event : EventPayload) : Option Nat :=
  match event.data with
  | .task row => some row.projectId
  | .project _ => none

/-- The filters of the query string. -/
structure SseFilters where
  projectId : Option Int := none
  eventTypes : Option (List String) := none
  deriving DecidableEq

/-- What is written to a stream. -/
inductive Frame where
  | event (id : Nat) (event : EventPayload)
  | replayGap (requestedLastEventId earliestAvailableId : Nat)
  deriving DecidableEq

/-- An event as one process of the server has broadcast it. -/
structure Broadcast where
  boot : Nat
  id : Nat
  event : EventPayload
  deriving DecidableEq

/-- A connection and what was sent on it. `client` and `resumedFrom` are no state of the server:
    they say who is at the other end, and which broadcast it came back with the id of. -/
structure SseConnection where
  id : Nat
  filters : SseFilters
  lastEventId : Nat
  frames : List Frame
  client : Nat
  resumedFrom : Option Broadcast
  deriving DecidableEq

structure SseManager where
  nextEventId : Nat := 1
  eventBuffer : List (Nat × EventPayload) := []
  connections : List SseConnection := []
  deriving DecidableEq

namespace SseManager

/-- `maxBufferSize` -/
def maxBufferSize : Nat := 100

/-- `bufferTtlMs` -/
def bufferTtlMs : Nat := 10 * 60 * 1000

/-- The type filter admits the event. -/
def matchesType (event : EventPayload) : Option (List String) → Bool
  | none => true
  | some eventTypes => event.eventType ∈ eventTypes

/-- The project filter admits the event: a filter of 0 is none, and an event without a
    `project_id` passes every filter. -/
def matchesProject (event : EventPayload) : Option Int → Bool
  | none => true
  | some projectId =>
    if projectId = 0 then true
    else match getEventProjectId event with
      | none => true
      | some eventProjectId => (eventProjectId : Int) = projectId

def matchesFilters (event : EventPayload) (filters : SseFilters) : Bool :=
  matchesType event filters.eventTypes && matchesProject event filters.projectId

def sendEvent (conn : SseConnection) (eventId : Nat) (event : EventPayload) : SseConnection :=
  { conn with lastEventId := eventId, frames := conn.frames ++ [.event eventId event] }

/-- Send an event if the connection's filters admit it. -/
def sendMatching (conn : SseConnection) (eventId : Nat) (event : EventPayload) : SseConnection :=
  if matchesFilters event conn.filters then sendEvent conn eventId event else conn

/-- The event is past the time it is kept. -/
def outlived (now : Nat) (event : EventPayload) : Bool := event.timestamp + bufferTtlMs ≤ now

/-- `slice(-maxBufferSize)` of a buffer that is too long. -/
def capped (buffer : List (Nat × EventPayload)) : List (Nat × EventPayload) :=
  if buffer.length > maxBufferSize then buffer.drop (buffer.length - maxBufferSize) else buffer

def pruneEventBuffer (now : Nat) (buffer : List (Nat × EventPayload)) : List (Nat × EventPayload) :=
  (capped buffer).filter fun e => !outlived now e.2

def broadcast (manager : SseManager) (now : Nat) (event : EventPayload) : SseManager where
  nextEventId := manager.nextEventId + 1
  eventBuffer := pruneEventBuffer now (manager.eventBuffer ++ [(manager.nextEventId, event)])
  connections := manager.connections.map fun conn => sendMatching conn manager.nextEventId event

/-- The client asks for events that are no longer in the buffer. -/
def hasGap (buffer : List (Nat × EventPayload)) (fromEventId : Nat) : Option Nat :=
  if fromEventId > 0 then (buffer.head?.map (·.1)).filter (· > fromEventId + 1) else none

def replayEvents (buffer : List (Nat × EventPayload)) (conn : SseConnection) (fromEventId : Nat) :
    SseConnection :=
  let conn' := match hasGap buffer fromEventId with
    | none => conn
    | some earliest => { conn with frames := conn.frames ++ [.replayGap fromEventId earliest] }
  (buffer.filter fun e => e.1 > fromEventId).foldl (fun conn e => sendMatching conn e.1 e.2) conn'

/-- The connection as it is when its request returns. -/
def opened (manager : SseManager) (conn : SseConnection) (lastEventId : Option Nat) : SseConnection :=
  match lastEventId with
  | none => conn
  | some fromEventId => replayEvents manager.eventBuffer conn fromEventId

def addConnection (manager : SseManager) (conn : SseConnection) (lastEventId : Option Nat) :
    SseManager :=
  { manager with connections := manager.connections ++ [manager.opened conn lastEventId] }

def removeConnection (manager : SseManager) (connectionId : Nat) : SseManager :=
  { manager with connections := manager.connections.filter (·.id ≠ connectionId) }

end SseManager

/-! ## The server and its clients -/

/-- The server over its restarts. `log` holds what the running process has broadcast, `past` what
    those before it have; `received` what was sent to which client. -/
structure SseServer where
  now : Nat
  boot : Nat := 0
  manager : SseManager := {}
  log : List EventPayload := []
  past : List Broadcast := []
  received : List (Nat × Broadcast) := []

namespace SseServer

/-- What can happen next. A client that comes back names the last id it got; other texts in the
    `Last-Event-ID` header are left out. -/
inductive Action where
  | broadcast (event : EventPayload)
  | connect (client connectionId : Nat) (filters : SseFilters) (lastEventId : Option Nat)
  | disconnect (connectionId : Nat)
  | restart
  | wait (ms : Nat)

/-- Everything that was ever broadcast. -/
def broadcasts (s : SseServer) : List Broadcast :=
  s.past ++ s.log.mapIdx fun i event => ⟨s.boot, i + 1, event⟩

/-- The broadcast that the client has received last under an id. -/
def receivedAs (s : SseServer) (client : Nat) (lastEventId : Option Nat) : Option Broadcast :=
  lastEventId.bind fun n =>
    ((s.received.filter fun r => r.1 = client ∧ r.2.id = n).map (·.2)).getLast?

/-- What a frame sends to a client. -/
def frameBroadcast (boot : Nat) : Frame → Option Broadcast
  | .event id event => some ⟨boot, id, event⟩
  | .replayGap .. => none

/-- The connection that a request opens, before the replay. -/
def newConnection (s : SseServer) (client connectionId : Nat) (filters : SseFilters)
    (lastEventId : Option Nat) : SseConnection where
  id := connectionId
  filters
  lastEventId := lastEventId.getD 0
  frames := []
  client
  resumedFrom := s.receivedAs client lastEventId

def step (s : SseServer) : Action → SseServer
  | .broadcast event =>
    { s with
      manager := s.manager.broadcast s.now event
      log := s.log ++ [event]
      received := s.received ++
        (s.manager.connections.filter fun conn => SseManager.matchesFilters event conn.filters).map
          fun conn => (conn.client, ⟨s.boot, s.manager.nextEventId, event⟩) }
  | .connect client connectionId filters lastEventId =>
    let conn := s.newConnection client connectionId filters lastEventId
    { s with
      manager := s.manager.addConnection conn lastEventId
      received := s.received ++
        ((s.manager.opened conn lastEventId).frames.filterMap (frameBroadcast s.boot)).map
          fun b => (client, b) }
  | .disconnect connectionId => { s with manager := s.manager.removeConnection connectionId }
  | .restart => { s with boot := s.boot + 1, manager := {}, log := [], past := s.broadcasts }
  | .wait ms => { s with now := s.now + ms }

end SseServer

end WoodFiredTasks
