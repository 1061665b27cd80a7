import WoodFiredTasks.Lib.Runs
import WoodFiredTasks.Lib.Table
import WoodFiredTasks.Services.DeviceFlowStore

set_option autoImplicit false

/-! # The device flow routes

The handlers of `POST /auth/device/code` (`device-code.ts`), `POST /auth/device/verify`
(`device-html.ts`) and `POST /auth/device/token` (`device-token.ts`). None of them awaits anything,
so each request is one step of the server. What is random or may fail comes with the action: the
codes and the token that are generated, and whether a write to `api_tokens` throws.

`ledger` is no state of the server. It notes for every device code who approved it, which tokens
were minted for its session and which were handed out to a poll that named it. -/

namespace WoodFiredTasks

/-- A row of `api_tokens`, as far as the flow reads it. -/
structure ApiToken where
  id : Nat
  userId : Nat
  hash : String
  revokedAt : Option Nat
  deriving DecidableEq

/-- What `generateToken` returns. -/
structure GeneratedToken where
  token : String
  hash : String
  deriving DecidableEq

/-- The envelope of a successful poll; `userId` stands for the projected user. -/
structure TokenEnvelope where
  token : String
  tokenId : Nat
  userId : Nat
  deriving DecidableEq

/-- A token that a verify request has minted, and the session as that request found it. -/
structure Mint where
  session : DeviceFlowSession
  mintedAt : Nat
  userId : Nat
  tokenId : Nat
  token : String
  deriving DecidableEq

/-- What has happened to a device code so far. -/
structure Ledger where
  approvers : List Nat := []
  mints : List Mint := []
  deliveries : List TokenEnvelope := []
  deriving DecidableEq

structure DeviceFlow where
  now : Nat
  /-- `opts.expectedClientId` -/
  expectedClientId : String
  store : DeviceFlowStore
  /-- Ids of the rows of `users`. -/
  users : List Nat
  apiTokens : Table ApiToken ApiToken.id
  ledger : String → Ledger

namespace DeviceFlow

/-- The server after its start. -/
def start (expectedClientId : String) (now : Nat) : DeviceFlow where
  now
  expectedClientId
  store := .empty
  users := []
  apiTokens := .empty
  ledger := fun _ => {}

/-- Note something about a device code. -/
def note (s : DeviceFlow) (deviceCode : String) (f : Ledger → Ledger) : DeviceFlow :=
  { s with ledger := Function.update s.ledger deviceCode (f (s.ledger deviceCode)) }

/-! ## The token repository -/

/-- `ApiTokenRepository.insert`: `none` when the statement throws, for want of the user, because the
    hash is taken, or for a reason outside the model. -/
def insertToken (s : DeviceFlow) (userId : Nat) (hash : String) (throws : Bool) :
    Option (Nat × DeviceFlow) :=
  if throws ∨ userId ∉ s.users ∨ ∃ row ∈ s.apiTokens.rows, row.hash = hash then none
  else some (s.apiTokens.next,
    { s with apiTokens := s.apiTokens.insert (fun id => ⟨id, userId, hash, none⟩) fun _ => rfl })

/-- `ApiTokenRepository.revoke`: of a token of the user that is not revoked yet. -/
def revokeToken (s : DeviceFlow) (id userId : Nat) : DeviceFlow :=
  { s with
    apiTokens := s.apiTokens.modify id
      (fun row => if row.userId = userId ∧ row.revokedAt = none then
        { row with revokedAt := some s.now } else row)
      (by intro row; split <;> rfl) }

/-- The token can be used: its row is there and not revoked. Device flow tokens never expire. -/
def Live (s : DeviceFlow) (tokenId : Nat) : Prop :=
  ∃ row ∈ s.apiTokens.find? tokenId, row.revokedAt = none

instance (s : DeviceFlow) (tokenId : Nat) : Decidable (s.Live tokenId) :=
  match h : s.apiTokens.find? tokenId with
  | none => isFalse (by simp [Live, h])
  | some row => decidable_of_iff (row.revokedAt = none) (by simp [Live, h])

/-! ## POST /auth/device/code -/

/-- The answer to a code request. -/
inductive CodeReply where
  | error (code : Nat) (error : String)
  | created (deviceCode userCode : String)
  deriving DecidableEq

/-- An absent `client_id` is the empty text: both fail the body schema. -/
def code (s : DeviceFlow) (clientId deviceCode : String) (generateUserCode : Nat → String) :
    CodeReply × DeviceFlow :=
  if clientId = "" then (.error 400 "invalid_request", s)
  else if clientId ≠ s.expectedClientId then (.error 400 "invalid_client", s)
  else
    match s.store.createSession s.now clientId deviceCode generateUserCode with
    | none => (.error 500 "device-flow-store: user_code generation collided", s)
    | some (session, store) => (.created session.deviceCode session.userCode, { s with store })

/-! ## POST /auth/device/verify -/

/-- A verify request of a logged-in user. `userCode` is `none` if the field is not a text. -/
structure VerifyRequest where
  userId : Nat
  csrfOk : Bool
  userCode : Option String
  deriving DecidableEq

/-- The page that answers a verify request. -/
structure VerifyReply where
  code : Nat
  errorMessage : Option String
  deriving DecidableEq

/-- `USER_CODE_RE` -/
def userCodeRe (userCode : String) : Bool :=
  userCode.length == 8 && userCode.toList.all (· ∈ DeviceFlowStore.userCodeAlphabet.toList)

/-- The gates before the approval; what passes them is the user code and its session. -/
def verifyGates (s : DeviceFlow) (request : VerifyRequest) :
    Except VerifyReply (String × DeviceFlowSession) :=
  if !request.csrfOk then
    .error ⟨403, some "Session expired. Refresh the page and try again."⟩
  else match request.userCode.filter userCodeRe with
    | none => .error ⟨400, some "That code is not in the expected format."⟩
    | some userCode =>
      match s.store.findByUserCode userCode with
      | none => .error ⟨400, some "That code has expired. Please run `tasks login` again."⟩
      | some session =>
        if session.status = .expired ∨ s.now > session.expiresAt ∨ session.status = .denied then
          .error ⟨400, some "That code has expired. Please run `tasks login` again."⟩
        else .ok (userCode, session)

/-- `approve(userCode, user.id)`; the handler does not look at its answer. -/
def approve (s : DeviceFlow) (userCode : String) (session : DeviceFlowSession) (userId : Nat) :
    DeviceFlow :=
  let s' := { s with store := (s.store.approve userCode userId).2 }
  if session.status = .pending then
    s'.note session.deviceCode fun l => { l with approvers := l.approvers ++ [userId] }
  else s'

/-- The minting of a token and its stashing on the session. `found` is the session as the request
    found it. -/
def mint (s : DeviceFlow) (userCode : String) (found : DeviceFlowSession) (userId : Nat)
    (generated : GeneratedToken) (insertThrows revokeThrows : Bool) : VerifyReply × DeviceFlow :=
  match s.insertToken userId generated.hash insertThrows with
  | none => (⟨500, some "Could not complete sign-in. Please try again."⟩, s)
  | some (tokenId, s') =>
    let s' := s'.note found.deviceCode fun l =>
      { l with mints := l.mints ++ [⟨found, s.now, userId, tokenId, generated.token⟩] }
    match s'.store.recordMintedToken userCode tokenId generated.token with
    | (false, _) =>
      (⟨500, some "Could not complete sign-in. Please try again."⟩,
        if revokeThrows then s' else s'.revokeToken tokenId userId)
    | (true, store) => (⟨200, none⟩, { s' with store })

def verify (s : DeviceFlow) (request : VerifyRequest) (generated : GeneratedToken)
    (insertThrows revokeThrows : Bool) : VerifyReply × DeviceFlow :=
  match s.verifyGates request with
  | .error reply => (reply, s)
  | .ok (userCode, session) =>
    let s' := s.approve userCode session request.userId
    match s'.store.findByUserCode userCode with
    | none => (⟨500, some "device-flow: session vanished between approve() and mint"⟩, s')
    | some _ => s'.mint userCode session request.userId generated insertThrows revokeThrows

/-! ## POST /auth/device/token -/

/-- The body of a poll. An absent field is the empty text: both fail the body schema. -/
structure PollRequest where
  grantType : String
  deviceCode : String
  clientId : String
  deriving DecidableEq

inductive PollReply where
  | error (error : String)
  | delivered (envelope : TokenEnvelope)
  deriving DecidableEq

/-- `DEVICE_CODE_GRANT` -/
def deviceCodeGrant : String := "urn:ietf:params:oauth:grant-type:device_code"

/-- The gates before the rate gate; what passes them is the session. -/
def pollGates (s : DeviceFlow) (request : PollRequest) : Except PollReply DeviceFlowSession :=
  if request.grantType = "" ∨ request.deviceCode = "" ∨ request.clientId = "" then
    .error (.error "invalid_request")
  else if request.grantType ≠ deviceCodeGrant then .error (.error "unsupported_grant_type")
  else if request.clientId ≠ s.expectedClientId then .error (.error "invalid_client")
  else match s.store.findByDeviceCode request.deviceCode with
    | none => .error (.error "expired_token")
    | some session =>
      if s.now > session.expiresAt then .error (.error "expired_token") else .ok session

/-- The poll comes too soon after the last one. -/
def tooSoon (now : Nat) (session : DeviceFlowSession) : Bool :=
  session.lastPollAt > 0 && now - session.lastPollAt < (session.interval - 1) * 1000

/-- Hand out what is stashed on an approved session, once. -/
def deliver (s : DeviceFlow) (deviceCode : String) (session : DeviceFlowSession)
    (revokeThrows : Bool) : PollReply × DeviceFlow :=
  match session.mintedToken, session.mintedTokenId, session.approvedUserId with
  | some token, some tokenId, some userId =>
    if userId ∉ s.users then
      let s' := if revokeThrows then s else s.revokeToken tokenId userId
      (.error "expired_token", { s' with store := s'.store.remove session.deviceCode })
    else
      let s' := { s with store := s.store.remove session.deviceCode }
      (.delivered ⟨token, tokenId, userId⟩, s'.note deviceCode fun l =>
        { l with deliveries := l.deliveries ++ [⟨token, tokenId, userId⟩] })
  | _, _, _ => (.error "authorization_pending", s)

def poll (s : DeviceFlow) (request : PollRequest) (revokeThrows : Bool) : PollReply × DeviceFlow :=
  match s.pollGates request with
  | .error reply => (reply, s)
  | .ok session =>
    if tooSoon s.now session then
      let session' := { session with interval := min (session.interval + 5) 60, lastPollAt := s.now }
      (.error "slow_down", { s with store := s.store.put session' })
    else
      let session' := { session with lastPollAt := s.now }
      let s' := { s with store := s.store.put session' }
      match session.status with
      | .pending => (.error "authorization_pending", s')
      | .approved => s'.deliver request.deviceCode session' revokeThrows
      | .denied => (.error "access_denied", s')
      | .expired => (.error "expired_token", s')

/-! ## The server, step by step -/

/-- What can happen next. `deny` is the store's own operation, which no route calls. -/
inductive Action where
  | code (clientId deviceCode : String) (generateUserCode : Nat → String)
  | verify (request : VerifyRequest) (generated : GeneratedToken) (insertThrows revokeThrows : Bool)
  | deny (userCode : String)
  | poll (request : PollRequest) (revokeThrows : Bool)
  | cleanup
  | wait (ms : Nat)
  | addUser (id : Nat)
  | deleteUser (id : Nat)

def step (s : DeviceFlow) : Action → DeviceFlow
  | .code clientId deviceCode generateUserCode => (s.code clientId deviceCode generateUserCode).2
  | .verify request generated insertThrows revokeThrows =>
    (s.verify request generated insertThrows revokeThrows).2
  | .deny userCode => { s with store := (s.store.deny userCode).2 }
  | .poll request revokeThrows => (s.poll request revokeThrows).2
  | .cleanup => { s with store := s.store.cleanup s.now }
  | .wait ms => { s with now := s.now + ms }
  | .addUser id => { s with users := id :: s.users }
  -- `ON DELETE CASCADE` takes the tokens of the user along
  | .deleteUser id =>
    { s with
      users := s.users.filter (· ≠ id)
      apiTokens := s.apiTokens.filter fun row => row.userId ≠ id }

end DeviceFlow

end WoodFiredTasks
