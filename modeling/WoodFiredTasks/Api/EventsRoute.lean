import WoodFiredTasks.Api.AuthChain

set_option autoImplicit false

/-! # The connections of the event stream

`GET /api/v1/events` (`src/api/routes/events.ts`) and the connection map of `SSEManager`
(`src/events/sse-manager.ts`): who may open one more stream, and how streams end. The check of the
caps is made in the `preHandler`, the registration in the handler. These are separate steps of an
asynchronous request, so those of other requests, the heartbeat and the sockets may come between.

What is sent on the streams is the subject of `SseManager`. -/

namespace WoodFiredTasks.EventsRoute

open AuthChain (AuthMethod)

/-! ## Whose request it is -/

/-- What the route reads of a request: the slots that the authentication has filled, two headers
    and the address. -/
structure Request where
  authMethod : Option AuthMethod
  tokenId : Option Nat
  userId : Option Nat
  apiKeyLabel : Option String
  xApiKey : Option String
  ip : String
  /-- `Accept: text/event-stream`, without which there is no `reply.sse`. -/
  acceptsEventStream : Bool

/-- `fingerprintApiKey`, over the SHA-256 of a text in hexadecimal digits. -/
def fingerprintApiKey (hashKey : String → String) (apiKey : String) : String :=
  ((hashKey apiKey).take 16).toString

/-- `` `${id ?? 'unknown'}` `` -/
def idText : Option Nat → String
  | none => "unknown"
  | some id => toString id

/-- The label is there and not empty. -/
def Request.label (r : Request) : Option String := r.apiKeyLabel.filter (· ≠ "")

def derivePrincipalId (hashKey : String → String) (r : Request) : String :=
  match r.authMethod with
  | some .pat => "pat:" ++ idText r.tokenId
  | some .session => "session:" ++ idText r.userId
  | some .legacy => "legacy:" ++ match r.label with
    | some label => label
    | none => fingerprintApiKey hashKey (r.xApiKey.getD "")
  | none => "anonymous:unknown"

/-- Who has been authenticated. -/
inductive Principal where
  | token (id : Nat)
  | user (id : Nat)
  | key (label : String)
  deriving DecidableEq

/-- The principal that the slots name; `none` for slots that the authentication does not leave
    behind, as it fills the one that belongs to the method. -/
def Request.principal (r : Request) : Option Principal :=
  match r.authMethod with
  | some .pat => r.tokenId.map .token
  | some .session => r.userId.map .user
  | some .legacy => r.label.map .key
  | none => none

/-! ## The connection map -/

/-- `principal` is no field of the source: it says whose request the fingerprint was made of. -/
structure Connection where
  id : Nat
  apiKeyFingerprint : String
  ip : String
  createdAt : Nat
  principal : Principal

inductive SseCapDenyReason where
  | perKey
  | perIp
  | global
  deriving DecidableEq

/-- `SSE_CAP_RETRY_AFTER_SECONDS` -/
def sseCapRetryAfterSeconds : Nat := 30

/-- What the constructor of `SSEManager` is given. -/
structure Config where
  maxConnectionAgeMs : Nat := 10 * 60 * 1000
  maxConnectionsPerKey : Nat := 4
  maxConnectionsPerIp : Nat := 8
  maxConnections : Nat := 200

/-- A request that has passed the check and is not registered yet. -/
structure Admitted where
  id : Nat
  request : Request
  principal : Principal

structure Server where
  now : Nat := 0
  connections : List Connection := []
  /-- The heartbeat timer is set. -/
  heartbeat : Bool := true
  /-- When the last sweep was. -/
  sweptAt : Nat := 0
  admitted : List Admitted := []
  nextId : Nat := 0
  /-- Refused requests with the reason. -/
  refused : List (Nat × SseCapDenyReason) := []
  /-- The streams that the server has ended. -/
  ended : List Nat := []
  /-- The streams whose socket has closed or failed. -/
  gone : List Nat := []
  /-- No state of the server: every stream that was ever registered. -/
  registered : List Nat := []

namespace Server

/-- `canAccept`; `none` for `ok`. -/
def canAccept (config : Config) (s : Server) (apiKeyFingerprint ip : String) :
    Option SseCapDenyReason :=
  if s.connections.length ≥ config.maxConnections then some .global
  else
    let perKey := s.connections.countP (·.apiKeyFingerprint = apiKeyFingerprint)
    let perIp := s.connections.countP (·.ip = ip)
    if perKey ≥ config.maxConnectionsPerKey then some .perKey
    else if perIp ≥ config.maxConnectionsPerIp then some .perIp
    else none

def addConnection (s : Server) (conn : Connection) : Server :=
  { s with connections := s.connections ++ [conn], registered := conn.id :: s.registered }

def removeConnection (s : Server) (id : Nat) : Server :=
  { s with connections := s.connections.filter (·.id ≠ id) }

/-- `closeConnection`: a connection that is there is removed and its stream ended. -/
def closeConnection (s : Server) (id : Nat) : Server :=
  if s.connections.any (·.id = id) then
    { s.removeConnection id with ended := id :: s.ended }
  else s

/-- Close one after the other. -/
def closeAll (s : Server) (ids : List Nat) : Server := ids.foldl closeConnection s

/-- The connection is past the age at which it is evicted. -/
def aged (config : Config) (s : Server) (conn : Connection) : Bool :=
  s.now - conn.createdAt > config.maxConnectionAgeMs

def heartbeatSweep (config : Config) (s : Server) : Server :=
  { s.closeAll ((s.connections.filter (s.aged config)).map (·.id)) with sweptAt := s.now }

def shutdown (s : Server) : Server :=
  { s.closeAll (s.connections.map (·.id)) with connections := [], heartbeat := false }

/-! ## The steps of the server -/

/-- The `preHandler`. A request without a principal was refused by the authentication. -/
def preHandler (hashKey : String → String) (config : Config) (s : Server) (r : Request) : Server :=
  match r.principal with
  | none => s
  | some principal =>
    match s.canAccept config (derivePrincipalId hashKey r) r.ip with
    | some reason =>
      { s with refused := (s.nextId, reason) :: s.refused, nextId := s.nextId + 1 }
    | none =>
      { s with admitted := s.admitted ++ [⟨s.nextId, r, principal⟩], nextId := s.nextId + 1 }

/-- The handler of an admitted request. The identifier that `randomUUID` draws is never drawn
    again, so the number of the request stands for it. -/
def handler (hashKey : String → String) (s : Server) (id : Nat) : Server :=
  match s.admitted.find? (·.id = id) with
  | none => s
  | some a =>
    let s := { s with admitted := s.admitted.filter (·.id ≠ id) }
    if a.request.acceptsEventStream then
      s.addConnection
        ⟨id, derivePrincipalId hashKey a.request, a.request.ip, s.now, a.principal⟩
    else s

inductive Action where
  | preHandler (r : Request)
  | handler (id : Nat)
  /-- The socket closes or fails: `removeConnection` runs where it was registered. -/
  | socketGone (id : Nat)
  /-- A `send` on the stream fails. -/
  | sendFailed (id : Nat)
  | sweep
  | shutdown
  | wait (ms : Nat)

def step (hashKey : String → String) (config : Config) (s : Server) : Action → Server
  | .preHandler r => s.preHandler hashKey config r
  | .handler id => s.handler hashKey id
  | .socketGone id =>
    if id < s.nextId then { s.removeConnection id with gone := id :: s.gone } else s
  | .sendFailed id => s.closeConnection id
  | .sweep => if s.heartbeat then s.heartbeatSweep config else s
  | .shutdown => s.shutdown
  | .wait ms => { s with now := s.now + ms }

/-- The most requests that stand between the check and the registration at one time of a run. -/
def crowd (hashKey : String → String) (config : Config) : Server → List Action → Nat
  | s, [] => s.admitted.length
  | s, a :: rest => max s.admitted.length (crowd hashKey config (s.step hashKey config a) rest)

end Server

end WoodFiredTasks.EventsRoute
