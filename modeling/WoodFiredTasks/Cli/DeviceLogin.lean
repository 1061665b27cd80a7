import WoodFiredTasks.Api.DeviceFlow

set_option autoImplicit false

/-! # The device login of the client

`runDeviceLogin` (`src/cli/commands/login.ts`) up to the answer that it stores, with
`requestDeviceCode` and `pollForToken` (`src/cli/auth/device-flow.ts`), against the routes of
`Api/DeviceFlow.lean`. Requests and answers are under way for any time, and anybody else uses the
server meanwhile. The clocks of both sides run at the same pace; a timer may fire late but not
early. Output, the browser and the credentials file are left out. -/

namespace WoodFiredTasks.DeviceLogin

open DeviceFlow (PollRequest PollReply deviceCodeGrant)

/-- `MIN_INTERVAL_S` -/
def minIntervalS : Nat := 1

/-- `MAX_EXPIRES_IN_S` -/
def maxExpiresInS : Nat := 900

/-- `interval` and `expires_in` of the answer to a code request. -/
def publishedInterval : Nat := 5

def publishedExpiresIn : Nat := 600

/-- `TERMINAL_ERROR_MESSAGES` -/
def terminalMessage (error : String) : Option String :=
  if error = "expired_token" then some "Login link expired. Run `tasks login` again."
  else if error = "access_denied" then
    some "Sign-in was denied. Run `tasks login` again to retry."
  else if error = "invalid_client" then
    some "Server rejected the CLI's client_id. Contact your administrator."
  else if error = "invalid_request" then some "Server rejected the request."
  else if error = "unsupported_grant_type" then some "Server does not support this device flow."
  else none

inductive Result where
  | ok (response : TokenEnvelope)
  | terminalError (error message : String)
  /-- The code request has failed. -/
  | requestFailed
  deriving DecidableEq

/-- The variables of `pollForToken`. -/
structure Poller where
  clientId : String := ""
  deviceCode : String := ""
  /-- In seconds. -/
  interval : Nat := 0
  deadline : Nat := 0

/-- Where the client is. -/
inductive Phase where
  | idle
  /-- The answer to the code request is under way. -/
  | requested
  | sleeping (wakeAt : Nat)
  /-- A poll is under way. -/
  | polling
  /-- The answer to a poll is under way. -/
  | answered (reply : PollReply)
  | done (result : Result)
  deriving DecidableEq

structure Login where
  server : DeviceFlow
  poller : Poller := {}
  phase : Phase := .idle
  /-- No state: how many polls have been sent. -/
  polls : Nat := 0
  /-- No state: the device codes that others have polled with. -/
  polledByOthers : List String := []
  /-- No state: the answers that got lost on their way. -/
  lost : List TokenEnvelope := []

namespace Login

/-- The head of the loop. -/
def turn (s : Login) : Login :=
  if s.poller.deadline ≤ s.server.now then
    { s with phase := .done (.terminalError "timeout" "Login timed out after 15 minutes.") }
  else { s with phase := .sleeping (s.server.now + s.poller.interval * 1000) }

/-- `requestDeviceCode`, up to the answer of the server. -/
def request (s : Login) (clientId deviceCode : String) (generateUserCode : Nat → String) : Login :=
  match s.server.code clientId deviceCode generateUserCode with
  | (.error _ _, server) => { s with server, phase := .done .requestFailed }
  | (.created deviceCode _, server) =>
    { s with server, poller := { clientId, deviceCode }, phase := .requested }

/-- The start of `pollForToken`. -/
def pollForToken (s : Login) : Login :=
  turn { s with
    poller := { s.poller with
      interval := max minIntervalS publishedInterval
      deadline := s.server.now + min maxExpiresInS publishedExpiresIn * 1000 } }

/-- The server answers the poll. -/
def arrive (s : Login) (revokeThrows : Bool) : Login :=
  match s.server.poll ⟨deviceCodeGrant, s.poller.deviceCode, s.poller.clientId⟩ revokeThrows with
  | (reply, server) => { s with server, phase := .answered reply }

/-- The answer has come back. -/
def receive (s : Login) : PollReply → Login
  | .delivered envelope => { s with phase := .done (.ok envelope) }
  | .error error =>
    if error = "authorization_pending" then s.turn
    else if error = "slow_down" then
      turn { s with poller := { s.poller with interval := s.poller.interval + 5 } }
    else
      match terminalMessage error with
      | some message => { s with phase := .done (.terminalError error message) }
      | none =>
        { s with phase := .done (.terminalError "network" ("Server returned 400: " ++ error)) }

/-- No answer comes, or one that no route gives. -/
def fail (s : Login) (message : String) : Login :=
  { s with phase := .done (.terminalError "network" message) }

/-- The device codes that an action of somebody else polls with. -/
def codesPolled : DeviceFlow.Action → List String
  | .poll request _ => [request.deviceCode]
  | _ => []

inductive Action where
  /-- Somebody else, or time. -/
  | other (a : DeviceFlow.Action)
  | request (clientId deviceCode : String) (generateUserCode : Nat → String)
  | pollForToken
  | wake
  | arrive (revokeThrows : Bool)
  | receive
  | fail (message : String)

def step (s : Login) : Action → Login
  | .other a =>
    { s with server := s.server.step a, polledByOthers := s.polledByOthers ++ codesPolled a }
  | .request clientId deviceCode generateUserCode =>
    match s.phase with
    | .idle => s.request clientId deviceCode generateUserCode
    | _ => s
  | .pollForToken =>
    match s.phase with
    | .requested => s.pollForToken
    | _ => s
  | .wake =>
    match s.phase with
    | .sleeping wakeAt =>
      if wakeAt ≤ s.server.now then { s with phase := .polling, polls := s.polls + 1 } else s
    | _ => s
  | .arrive revokeThrows =>
    match s.phase with
    | .polling => s.arrive revokeThrows
    | _ => s
  | .receive =>
    match s.phase with
    | .answered reply => s.receive reply
    | _ => s
  | .fail message =>
    match s.phase with
    | .requested => { s with phase := .done .requestFailed }
    | .polling => s.fail message
    | .answered (.delivered envelope) => { s.fail message with lost := s.lost ++ [envelope] }
    | .answered (.error _) => s.fail message
    | _ => s

/-- The client before its login, and the server after its start. -/
def start (expectedClientId : String) (now : Nat) : Login where
  server := .start expectedClientId now

end Login

end WoodFiredTasks.DeviceLogin
