import WoodFiredTasks.Api.AuthChain

set_option autoImplicit false

/-! # Signing in with the identity provider

`GET /auth/login` and `GET /auth/callback` (`src/api/routes/auth/`), with `upsertFromOidc`
(`src/services/user-upsert.ts`) on top of `UserRepository`. A session is the payload of an encrypted
cookie, so a browser may come back with any of the cookies that were ever sent to it. The statements
that `upsertFromOidc` issues are steps of their own, as several processes share the database.

What `handleCallback` makes of the code is an input of the model, and so is the path that the
session keeps (`Properties/LoginRedirect.lean`). The CSRF token and the log lines are left out. -/

namespace WoodFiredTasks.OidcLogin

open AuthChain (AuthenticatedUser)

/-! ## Users -/

/-- A row of `users`, less the Slack id and the time of creation. -/
structure User where
  id : Nat
  oidcSub : Option String
  oidcProvider : Option String
  email : Option String
  displayName : String
  isLegacy : Bool
  isServiceAccount : Bool
  disabledAt : Option Stamp
  deriving DecidableEq

def toAuthenticatedUser (row : User) : AuthenticatedUser :=
  ⟨row.id, row.displayName, row.email, row.isLegacy, row.isServiceAccount⟩

structure UserUpsertInput where
  provider : String
  sub : String
  email : Option String
  displayName : String

/-- What a method of the repository throws. -/
inductive RepositoryError where
  | typeError
  /-- `SQLITE_CONSTRAINT_UNIQUE` -/
  | unique
  /-- The storage fails. -/
  | storage
  /-- `upsertFromOidc: user … disappeared mid-update` -/
  | disappeared
  deriving DecidableEq

abbrev Users := Table User User.id

namespace UserRepository

/-- The row is that of the identity. -/
def matchesSub (provider sub : String) (row : User) : Bool :=
  row.oidcProvider = some provider && row.oidcSub = some sub

def findByOidcSub (users : Users) (provider sub : String) : Except RepositoryError (Option User) :=
  if provider = "" then .error .typeError
  else if sub = "" then .error .typeError
  else .ok (users.rows.find? (matchesSub provider sub))

/-- The row that is inserted. -/
def newRow (input : UserUpsertInput) (id : Nat) : User where
  id := id
  oidcSub := some input.sub
  oidcProvider := some input.provider
  email := input.email
  displayName := input.displayName
  isLegacy := false
  isServiceAccount := false
  disabledAt := none

theorem newRow_id (input : UserUpsertInput) (id : Nat) : (newRow input id).id = id := rfl

/-- `insert`, with the index on the provider and the sub. -/
def insert (users : Users) (input : UserUpsertInput) : Except RepositoryError (User × Users) :=
  if input.provider = "" then .error .typeError
  else if input.sub = "" then .error .typeError
  else if input.displayName = "" then .error .typeError
  else if users.rows.any (matchesSub input.provider input.sub) then .error .unique
  else .ok (newRow input users.next, users.insert (newRow input) (newRow_id input))

/-- The keys that are there in the `patch` of `updateProfile`. -/
structure ProfilePatch where
  email : Option (Option String) := none
  displayName : Option String := none

def ProfilePatch.apply (patch : ProfilePatch) (row : User) : User :=
  { row with
    email := patch.email.getD row.email
    displayName := patch.displayName.getD row.displayName }

theorem ProfilePatch.apply_id (patch : ProfilePatch) (row : User) :
    (patch.apply row).id = row.id := rfl

def updateProfile (users : Users) (id : Nat) (patch : ProfilePatch) :
    Except RepositoryError (Option User × Users) :=
  if id = 0 then .error .typeError
  else if patch.displayName = some "" then .error .typeError
  else
    -- without a key in the patch no statement is issued, and the row is read
    let users := users.modify id patch.apply patch.apply_id
    .ok (users.find? id, users)

end UserRepository

/-! ## `upsertFromOidc` -/

/-- The statement that comes next. -/
inductive UpsertPoint where
  | lookup
  | update (existing : User)
  | insert
  /-- The lookup in the `catch` of the insertion. -/
  | resolve (error : RepositoryError)

inductive UpsertResult where
  | next (point : UpsertPoint)
  | done (row : User)
  | failed (error : RepositoryError)

/-- What has drifted since the last login. -/
def drift (existing : User) (input : UserUpsertInput) : UserRepository.ProfilePatch where
  email := if existing.email ≠ input.email then some input.email else none
  displayName :=
    if existing.displayName ≠ input.displayName then some input.displayName else none

/-- One statement of `upsertFromOidc`, in which the storage may fail. -/
def upsertStep (users : Users) (input : UserUpsertInput) (fault : Bool) :
    UpsertPoint → UpsertResult × Users
  | .lookup =>
    if fault then (.failed .storage, users)
    else match UserRepository.findByOidcSub users input.provider input.sub with
      | .error error => (.failed error, users)
      | .ok none => (.next .insert, users)
      | .ok (some existing) =>
        if existing.email = input.email ∧ existing.displayName = input.displayName then
          (.done existing, users)
        else (.next (.update existing), users)
  | .update existing =>
    if fault then (.failed .storage, users)
    else match UserRepository.updateProfile users existing.id (drift existing input) with
      | .error error => (.failed error, users)
      | .ok (none, users) => (.failed .disappeared, users)
      | .ok (some row, users) => (.done row, users)
  | .insert =>
    if fault then (.next (.resolve .storage), users)
    else match UserRepository.insert users input with
      | .error error => (.next (.resolve error), users)
      | .ok (row, users) => (.done row, users)
  | .resolve error =>
    if fault then (.failed .storage, users)
    else match UserRepository.findByOidcSub users input.provider input.sub with
      | .error error => (.failed error, users)
      | .ok none => (.failed error, users)
      | .ok (some racer) => (.done racer, users)

/-! ## Sessions -/

/-- `oidc.handshake`. Its secrets are drawn together and never again; the number of the draw stands
    for the `state` among them. -/
structure Handshake where
  state : Nat
  redirectAfterLogin : String
  deriving DecidableEq

structure Session where
  handshake : Option Handshake := none
  user : Option AuthenticatedUser := none
  authenticatedAt : Option Nat := none
  idToken : Option String := none

/-- The claims of an ID token; a claim of another type is none. -/
structure Claims where
  sub : String
  emailVerified : Bool
  email : Option String
  name : Option String
  idToken : Option String
  deriving DecidableEq

/-- The name that is shown. -/
def Claims.displayName (claims : Claims) : String :=
  match claims.name.filter (· ≠ "") with
  | some name => name
  | none => claims.email.getD claims.sub

def Claims.input (claims : Claims) : UserUpsertInput :=
  ⟨"google", claims.sub, claims.email, claims.displayName⟩

/-- What comes of `handleCallback` and `tokens.claims()`. -/
inductive Answer where
  | failed
  | noClaims
  | claims (c : Claims)

inductive ErrorReason where
  | handshakeMissing
  | stateMismatch
  | exchangeFailed
  | emailUnverified
  | provisioningFailed
  deriving DecidableEq

inductive Reply where
  | authError (reason : ErrorReason)
  /-- To the identity provider, with this `state`. -/
  | authorize (state : Nat)
  | redirect (path : String)
  deriving DecidableEq

/-- A callback that is in `upsertFromOidc`. -/
structure Callback where
  session : Session
  handshake : Handshake
  claims : Claims
  point : UpsertPoint := .lookup
  /-- No state of the server: the storage has failed in one of its statements. -/
  faulted : Bool := false

/-- What has happened to the logins so far. -/
inductive LoginEvent where
  | begun (handshake : Handshake)
  | signedIn (handshake : Handshake) (claims : Claims) (id : Nat)
  /-- `provisioning_failed`, and whether the storage had failed. -/
  | refused (claims : Claims) (faulted : Bool)

structure Server where
  now : Nat := 0
  users : Users := .empty
  /-- How many handshakes have been drawn. -/
  drawn : Nat := 0
  callbacks : List Callback := []
  /-- No state of the server: the sessions of all cookies that were ever sent. -/
  cookies : List Session := []
  /-- No state of the server. -/
  ledger : List LoginEvent := []

namespace Server

/-- The session of the cookie that a request comes with, if it does. -/
def presented (s : Server) (cookie : Option Nat) : Session :=
  (cookie.bind fun i => s.cookies[i]?).getD {}

def sendCookie (s : Server) (session : Session) : Server :=
  { s with cookies := s.cookies ++ [session] }

/-- `request.session.set('oidc.handshake', undefined)` -/
def clearHandshake (s : Server) (session : Session) : Server :=
  s.sendCookie { session with handshake := none }

/-- `GET /auth/login`, for the path that is kept. -/
def login (s : Server) (cookie : Option Nat) (redirectAfterLogin : String) : Reply × Server :=
  let session := s.presented cookie
  if session.user.isSome then (.redirect "/me", s)
  else
    let handshake : Handshake := ⟨s.drawn, redirectAfterLogin⟩
    (.authorize handshake.state,
      { s.sendCookie { session with handshake := some handshake } with
        drawn := s.drawn + 1
        ledger := s.ledger ++ [.begun handshake] })

/-- `GET /auth/callback` up to `upsertFromOidc`; `state` is that of the query, if it was drawn. -/
def callback (s : Server) (cookie : Option Nat) (state : Option Nat) (answer : Answer) :
    Option Reply × Server :=
  let session := s.presented cookie
  match session.handshake with
  | none => (some (.authError .handshakeMissing), s)
  | some handshake =>
    if state ≠ some handshake.state then
      (some (.authError .stateMismatch), s.clearHandshake session)
    else match answer with
      | .failed => (some (.authError .exchangeFailed), s.clearHandshake session)
      | .noClaims => (some (.authError .exchangeFailed), s.clearHandshake session)
      | .claims claims =>
        if claims.emailVerified then
          (none, { s with callbacks := s.callbacks ++ [{ session, handshake, claims }] })
        else (some (.authError .emailUnverified), s.clearHandshake session)

/-- The end of a callback whose user has been found. The session is made anew. -/
def signIn (s : Server) (cb : Callback) (row : User) : Reply × Server :=
  (.redirect (if cb.handshake.redirectAfterLogin = "" then "/me"
      else cb.handshake.redirectAfterLogin),
    { s.sendCookie
        { user := some (toAuthenticatedUser row), authenticatedAt := some s.now,
          idToken := cb.claims.idToken } with
      ledger := s.ledger ++ [.signedIn cb.handshake cb.claims row.id] })

/-- The end of a callback in which `upsertFromOidc` has thrown. -/
def refuse (s : Server) (cb : Callback) (faulted : Bool) : Reply × Server :=
  (.authError .provisioningFailed,
    { s.clearHandshake cb.session with ledger := s.ledger ++ [.refused cb.claims faulted] })

/-- The next statement of a callback; a reply when it was the last one. -/
def runCallback (s : Server) (i : Nat) (fault : Bool) : Option Reply × Server :=
  match s.callbacks[i]? with
  | none => (none, s)
  | some cb =>
    let (result, users) := upsertStep s.users cb.claims.input fault cb.point
    let s := { s with users }
    let faulted := cb.faulted || fault
    match result with
    | .next point =>
      (none, { s with callbacks := s.callbacks.set i { cb with point, faulted } })
    | .done row =>
      let (reply, s) := { s with callbacks := s.callbacks.eraseIdx i }.signIn cb row
      (some reply, s)
    | .failed _ =>
      let (reply, s) := { s with callbacks := s.callbacks.eraseIdx i }.refuse cb faulted
      (some reply, s)

/-- A row without an identity: a legacy user or a service account. -/
def localRow (displayName : String) (isLegacy isServiceAccount : Bool) (id : Nat) : User where
  id := id
  oidcSub := none
  oidcProvider := none
  email := none
  displayName := displayName
  isLegacy := isLegacy
  isServiceAccount := isServiceAccount
  disabledAt := none

theorem localRow_id (displayName : String) (isLegacy isServiceAccount : Bool) (id : Nat) :
    (localRow displayName isLegacy isServiceAccount id).id = id := rfl

def setDisabled (disabledAt : Option Stamp) (row : User) : User := { row with disabledAt }

theorem setDisabled_id (disabledAt : Option Stamp) (row : User) :
    (setDisabled disabledAt row).id = row.id := rfl

inductive Action where
  | login (cookie : Option Nat) (redirectAfterLogin : String)
  | callback (cookie : Option Nat) (state : Option Nat) (answer : Answer)
  | runCallback (i : Nat) (fault : Bool)
  /-- `POST /auth/logout`, past its CSRF token: `session.delete()`. -/
  | logout
  | provision (displayName : String) (isLegacy isServiceAccount : Bool)
  | setDisabled (id : Nat) (disabledAt : Option Stamp)
  | wait (ms : Nat)

def step (s : Server) : Action → Server
  | .login cookie redirectAfterLogin => (s.login cookie redirectAfterLogin).2
  | .callback cookie state answer => (s.callback cookie state answer).2
  | .runCallback i fault => (s.runCallback i fault).2
  | .logout => s.sendCookie {}
  | .provision displayName isLegacy isServiceAccount =>
    { s with
      users := s.users.insert (localRow displayName isLegacy isServiceAccount)
        (localRow_id displayName isLegacy isServiceAccount) }
  | .setDisabled id disabledAt =>
    { s with
      users := s.users.modify id (Server.setDisabled disabledAt) (setDisabled_id disabledAt) }
  | .wait ms => { s with now := s.now + ms }

end Server

end WoodFiredTasks.OidcLogin
