import Mathlib.Data.List.Basic
import WoodFiredTasks.Api.ProjectBinding
import WoodFiredTasks.Services.PatHash
import WoodFiredTasks.World

set_option autoImplicit false

/-! # Authentication

Requests to the API pass `src/api/plugins/auth`: a token or a session names the caller, and three
gates look at the route before its handler runs. This is the part of the server that reads and
writes `api_tokens`: the chain, the routes under `/me/tokens` (`src/api/routes/me/tokens.ts`, and
the form on the web page, `src/api/routes/web/tokens.ts`), the approval of a device
(`device-html.ts`), and `tasks db mint-token`. The handler of a request is a step of its own, so
whatever happens to the database in between is part of a run.

The column `scopes` is held as the value that its text decodes to, `none` if it does not. The
constant column `prefix` and the log lines are left out, and a session that names a disabled user
is skipped without being deleted. -/

/-! ## Token scopes

`src/schemas/pat-scope.schema.ts`: three tiers, of which a higher one includes the lower ones. A
grant of no tier at all is that of a session or of a token from before the tiers, and stands for all
of them. The binding to a project is in `Api/ProjectBinding.lean`. -/

namespace WoodFiredTasks

/-- `PAT_SCOPES` -/
inductive PatScope where
  | read
  | write
  | admin
  deriving DecidableEq, Repr

namespace PatScope

def text : PatScope → String
  | read => "read"
  | write => "write"
  | admin => "admin"

/-- `SCOPE_RANK` -/
def rank : PatScope → Nat
  | read => 0
  | write => 1
  | admin => 2

/-- The tier with this text, if `isPatScope`. -/
def ofText (value : String) : Option PatScope :=
  [read, write, admin].find? fun scope => scope.text = value

theorem ofText_text (scope : PatScope) : ofText scope.text = some scope := by
  cases scope <;> decide

theorem text_of_ofText {value : String} {scope : PatScope} (h : ofText value = some scope) :
    scope.text = value := by
  simpa using List.find?_some h

def findUnknownScopes (scopes : List String) : List String :=
  scopes.filter fun value => (ofText value).isNone

def scopeSatisfies (granted required : PatScope) : Bool := required.rank ≤ granted.rank

def grantSatisfiesScope (scopes : Option (List PatScope)) (required : PatScope) : Bool :=
  match scopes with
  | none => true
  | some [] => true
  | some (scope :: rest) => (scope :: rest).any fun granted => scopeSatisfies granted required

theorem filterMap_map_text (scopes : List PatScope) :
    (scopes.map text).filterMap ofText = scopes := by
  induction scopes with
  | nil => rfl
  | cons scope rest ih => rw [List.map_cons, List.filterMap_cons_some (ofText_text scope), ih]

/-- Texts that are all tiers are the texts of the tiers that are read from them. -/
theorem map_text_filterMap {scopes : List String} (h : findUnknownScopes scopes = []) :
    (scopes.filterMap ofText).map text = scopes := by
  induction scopes with
  | nil => rfl
  | cons value rest ih =>
    have hall := List.filter_eq_nil_iff.1 h
    have hrest : findUnknownScopes rest = [] :=
      List.filter_eq_nil_iff.2 fun a ha => hall a (List.mem_cons_of_mem value ha)
    cases hvalue : ofText value with
    | none => exact absurd (by rw [hvalue]; rfl) (hall value List.mem_cons_self)
    | some scope =>
      rw [List.filterMap_cons_some hvalue, List.map_cons, ih hrest, text_of_ofText hvalue]

end PatScope

end WoodFiredTasks

namespace WoodFiredTasks.AuthChain

open Router (Json)
open TaskBody (Fields)
open PatScope (findUnknownScopes grantSatisfiesScope)
open PatHash (generateToken patPrefix base32Alphabet)
open ProjectBinding (RoutedRequest admits)

/-! ## Rows -/

/-- A row of `users`, as far as the chain reads it. -/
structure User where
  id : Nat
  displayName : String
  email : Option String
  isLegacy : Bool
  isServiceAccount : Bool
  disabledAt : Option Stamp
  deriving DecidableEq

/-- A row of `api_tokens`. -/
structure ApiToken where
  id : Nat
  userId : Nat
  name : String
  suffix : String
  hash : String
  scopes : Option Json
  createdAt : Stamp
  lastUsedAt : Option Stamp
  revokedAt : Option Stamp
  expiresAt : Option String
  projectId : Option Nat

/-- `SET revoked_at = datetime('now')` -/
def ApiToken.setRevokedAt (now : Nat) (row : ApiToken) : ApiToken :=
  { row with revokedAt := some (datetimeNow now) }

/-- `SET last_used_at = datetime('now')` -/
def ApiToken.setLastUsedAt (now : Nat) (row : ApiToken) : ApiToken :=
  { row with lastUsedAt := some (datetimeNow now) }

/-- What `ApiTokenRepository.insert` is given. Its callers encode a list of texts as the scopes. -/
structure TokenInput where
  userId : Nat
  name : String
  suffix : String
  hash : String
  scopes : List String
  expiresAt : Option String
  projectId : Option Nat

/-- An item of the list of tokens. -/
structure TokenListItem where
  id : Nat
  name : String
  suffix : String
  scopes : Option Json
  createdAt : Stamp
  lastUsedAt : Option Stamp
  revokedAt : Option Stamp
  expiresAt : Option String
  projectId : Option Nat

def ApiToken.listItem (row : ApiToken) : TokenListItem :=
  ⟨row.id, row.name, row.suffix, row.scopes, row.createdAt, row.lastUsedAt, row.revokedAt,
    row.expiresAt, row.projectId⟩

structure AuthenticatedUser where
  id : Nat
  displayName : String
  email : Option String
  isLegacy : Bool
  isServiceAccount : Bool
  deriving DecidableEq

def toAuthenticatedUser (user : User) : AuthenticatedUser :=
  ⟨user.id, user.displayName, user.email, user.isLegacy, user.isServiceAccount⟩

inductive AuthMethod where
  | pat
  | session
  | legacy
  deriving DecidableEq

structure AuthResult where
  user : AuthenticatedUser
  authMethod : AuthMethod
  tokenId : Option Nat
  scopes : Option (List PatScope)
  projectId : Option Nat
  deriving DecidableEq

inductive AuthFailureReason where
  | missingCredential
  | wrongPrefix
  | unknownToken
  | revoked
  | expired
  | userDisabled
  deriving DecidableEq

inductive StrategyOutcome where
  | skip
  | fail (reason : AuthFailureReason)
  | matched (result : AuthResult)
  deriving DecidableEq

/-! ## Routes -/

/-- The part of a route's `config` that the chain reads. -/
structure RouteConfig where
  sessionOnly : Bool := false
  requiredScope : Option PatScope := none

/-- `MintTokenBodySchema` -/
structure MintTokenBody where
  name : String
  scopes : Option (List String)
  expiresAt : Option String
  projectId : Option Nat

/-- The row that a mint request asks for. -/
def MintTokenBody.input (data : MintTokenBody) (userId : Nat) (generated : PatHash.GeneratedToken) :
    TokenInput where
  userId
  name := data.name
  suffix := generated.suffix
  hash := generated.hash
  scopes := data.scopes.getD []
  expiresAt := data.expiresAt
  projectId := data.projectId

/-- A route with what its handler is given. -/
inductive Endpoint where
  /-- `POST /api/v1/me/tokens` with a JSON body -/
  | mintToken (body : Json)
  /-- The same route for the HTML form: whether its CSRF token is right, and what the schema makes
      of its fields. -/
  | mintTokenForm (csrfOk : Bool) (parsed : Option MintTokenBody)
  | listTokens
  | revokeActive
  | revokeToken (id : Nat)
  /-- `POST /auth/device/verify`, past its own gates, for the host that asks. -/
  | approveDevice (tokenName : String)
  /-- Any other route: it writes projects and tasks. -/
  | other (config : RouteConfig) (request : RoutedRequest)

namespace Endpoint

def config : Endpoint → RouteConfig
  | mintToken _ => { sessionOnly := true, requiredScope := some .admin }
  | mintTokenForm _ _ => { sessionOnly := true, requiredScope := some .admin }
  | listTokens => { sessionOnly := true }
  | revokeActive => { requiredScope := some .admin }
  | revokeToken _ => { sessionOnly := true }
  | approveDevice _ => { sessionOnly := true }
  | other config _ => config

/-- The request as the project binding sees it. -/
def routed : Endpoint → RoutedRequest
  | mintToken _ => { method := "POST", url := "/api/v1/me/tokens" }
  | mintTokenForm _ _ => { method := "POST", url := "/api/v1/me/tokens" }
  | listTokens => { method := "GET", url := "/api/v1/me/tokens" }
  | revokeActive => { method := "DELETE", url := "/api/v1/me/tokens/active" }
  | revokeToken id =>
    { method := "DELETE", url := "/api/v1/me/tokens/:id", params := [("id", .num id)] }
  | approveDevice _ => { method := "POST", url := "/auth/device/verify" }
  | other _ request => request

end Endpoint

/-- A request: its `Authorization` header and the user of its session. -/
structure Request where
  authorization : Option String
  session : Option Nat

/-- A request between the gates and its handler, with the projects and tasks that the gates saw. -/
structure Call where
  principal : AuthResult
  endpoint : Endpoint
  arrivedIn : Db

/-! ## The server -/

/-- What has happened to the tokens so far. Callers are noted with it; the command line and the
    clean-up of the device flow have none. -/
inductive TokenEvent where
  | minted (id : Nat) (input : TokenInput) (caller : Option AuthResult)
  | revoked (id : Nat) (caller : Option AuthResult)
  /-- Deleted with the project that they were bound to. -/
  | dropped (ids : List Nat)

structure Server where
  now : Nat
  users : Table User User.id
  apiTokens : Table ApiToken ApiToken.id
  /-- The other tables. -/
  db : Db
  /-- The cache of `pat-touch-debounce.ts`. -/
  touchCache : Nat → Option Nat
  /-- Tokens whose `touchLastUsed` has been scheduled. -/
  touches : List Nat
  inFlight : List Call
  /-- No state of the server: the history of the tokens. -/
  ledger : List TokenEvent
  /-- No state of the server: when which write of `last_used_at` was scheduled. -/
  touchLog : List (Nat × Nat)

/-- What the runtime provides. -/
structure Platform where
  /-- `hashToken` -/
  hashToken : String → String
  /-- `new Date(text).getTime()`, `none` for `NaN` -/
  dateMs : String → Option Int
  /-- `z.string().datetime()` -/
  isDatetime : String → Bool

namespace Server

def start (db : Db) (now : Nat) : Server where
  now
  users := .empty
  apiTokens := .empty
  db
  touchCache := fun _ => none
  touches := []
  inFlight := []
  ledger := []
  touchLog := []

/-! ### The token repository -/

def findByHash (s : Server) (hash : String) : Option ApiToken :=
  s.apiTokens.rows.find? fun row => row.hash == hash

def listByUser (s : Server) (userId : Nat) : List ApiToken :=
  s.apiTokens.rows.filter fun row => row.userId = userId

inductive InsertError where
  | invalidScope (scopes : List String)
  | invalidProjectBinding (projectId : Nat)
  /-- A foreign key or the unique index of `hash`. -/
  | constraint
  deriving DecidableEq

/-- The row of a new token. -/
def tokenRow (s : Server) (input : TokenInput) (id : Nat) : ApiToken where
  id
  userId := input.userId
  name := input.name
  suffix := input.suffix
  hash := input.hash
  scopes := some (.arr (input.scopes.map .str))
  createdAt := datetimeNow s.now
  lastUsedAt := none
  revokedAt := none
  expiresAt := input.expiresAt
  projectId := input.projectId

theorem tokenRow_id (s : Server) (input : TokenInput) (id : Nat) :
    (s.tokenRow input id).id = id := rfl

/-- The constraints of `api_tokens`. -/
def rowFits (s : Server) (input : TokenInput) : Bool :=
  (s.users.find? input.userId).isSome
    && input.projectId.all (fun project => (s.db.projects.find? project).isSome)
    && s.apiTokens.rows.all fun row => row.hash != input.hash

/-- `ApiTokenRepository.insert` -/
def insert (s : Server) (caller : Option AuthResult) (input : TokenInput) :
    Except InsertError (ApiToken × Server) :=
  if findUnknownScopes input.scopes ≠ [] then .error (.invalidScope (findUnknownScopes input.scopes))
  else if input.projectId = some 0 then .error (.invalidProjectBinding 0)
  else if !s.rowFits input then .error .constraint
  else .ok (s.tokenRow input s.apiTokens.next,
    { s with
      apiTokens := s.apiTokens.insert (s.tokenRow input) (s.tokenRow_id input)
      ledger := s.ledger ++ [.minted s.apiTokens.next input caller] })

/-- `ApiTokenRepository.revoke` -/
def revoke (s : Server) (caller : Option AuthResult) (id userId : Nat) : Bool × Server :=
  match s.apiTokens.find? id with
  | none => (false, s)
  | some row =>
    if row.userId = userId ∧ row.revokedAt = none then
      (true,
        { s with
          apiTokens := s.apiTokens.modify id (ApiToken.setRevokedAt s.now) fun _ => rfl
          ledger := s.ledger ++ [.revoked id caller] })
    else (false, s)

/-- `ApiTokenRepository.touchLastUsed` -/
def touchLastUsed (s : Server) (id : Nat) : Server :=
  { s with
    apiTokens := s.apiTokens.modify id (ApiToken.setLastUsedAt s.now) fun _ => rfl }

/-- A token of a project that is gone. -/
def orphaned (db : Db) (row : ApiToken) : Bool :=
  row.projectId.any fun project => (db.projects.find? project).isNone

/-- A write to the other tables. The tokens of a project that it deletes go with it
    (`ON DELETE CASCADE`). -/
def write (s : Server) (effect : Db → Db) : Server :=
  let db := effect s.db
  { s with
    db
    apiTokens := s.apiTokens.filter fun row => !orphaned db row
    ledger := s.ledger ++ [.dropped ((s.apiTokens.rows.filter (orphaned db)).map ApiToken.id)] }

/-! ### Strategies -/

/-- What follows a prefix of a text. -/
def afterPrefix (start text : String) : Option String :=
  if start.toList.isPrefixOf text.toList then
    some (String.ofList (text.toList.drop start.toList.length))
  else none

/-- `PAT_BODY_PATTERN` -/
def patBodyPattern (body : String) : Bool :=
  body.toList.length == 32 && body.toList.all fun c => base32Alphabet.contains c

/-- The credential in an `Authorization` header. -/
inductive Credential where
  | none
  | malformed
  | token (token : String)
  deriving DecidableEq

def patCredential (authorization : Option String) : Credential :=
  match authorization.bind (afterPrefix "Bearer ") with
  | .none => .none
  | some token =>
    match afterPrefix patPrefix token with
    | .none => .none
    | some body => if patBodyPattern body then .token token else .malformed

/-- `parseScopes`: what is not a tier is dropped. -/
def parseScopes : Option Json → List PatScope
  | some (.arr items) => items.filterMap fun
    | .str value => PatScope.ofText value
    | _ => none
  | _ => []

/-- A text that is no date counts as past. -/
def isExpired (p : Platform) (now : Nat) (expiresAt : Option String) : Bool :=
  match expiresAt with
  | none => false
  | some text =>
    match p.dateMs text with
    | none => true
    | some expiresMs => expiresMs < (now : Int)

/-- The user of a row or a session, unless the account is disabled. -/
def activeUser (s : Server) (id : Nat) : Option User :=
  (s.users.find? id).filter fun user => user.disabledAt.isNone

/-- The strategy of `strategies/pat.ts`. -/
def tryPat (p : Platform) (s : Server) (authorization : Option String) : StrategyOutcome :=
  match patCredential authorization with
  | .none => .skip
  | .malformed => .fail .wrongPrefix
  | .token token =>
    match s.findByHash (p.hashToken token) with
    | none => .fail .unknownToken
    | some row =>
      if row.revokedAt.isSome then .fail .revoked
      else if isExpired p s.now row.expiresAt then .fail .expired
      else match s.activeUser row.userId with
        | none => .fail .userDisabled
        | some user =>
          .matched ⟨toAuthenticatedUser user, .pat, some row.id, some (parseScopes row.scopes),
            row.projectId⟩

/-- The caller that a session stands for. -/
def sessionResult (user : User) : AuthResult :=
  ⟨toAuthenticatedUser user, .session, none, none, none⟩

/-- The strategy of `strategies/session.ts`. -/
def trySession (s : Server) (session : Option Nat) : StrategyOutcome :=
  match session.bind s.activeUser with
  | none => .skip
  | some user => .matched (sessionResult user)

/-! ### The chain -/

/-- A refusal. -/
structure Reply where
  code : Nat
  error : String
  message : String
  deriving DecidableEq

def enforceSessionOnly (config : RouteConfig) (result : AuthResult) : Option Reply :=
  if config.sessionOnly = true ∧ result.authMethod ≠ .session then
    some ⟨403, "session_required",
      "This endpoint cannot be called with a Personal Access Token."⟩
  else none

def enforceRequiredScope (config : RouteConfig) (result : AuthResult) : Option Reply :=
  match config.requiredScope with
  | none => none
  | some required =>
    if grantSatisfiesScope result.scopes required then none
    else some ⟨403, "insufficient_scope", s!"This endpoint requires the '{required.text}' scope."⟩

def enforceProjectBinding (db : Db) (request : RoutedRequest) (result : AuthResult) :
    Option Reply :=
  match result.projectId with
  | none => none
  | some binding =>
    if admits (some binding) db request then none
    else some ⟨403, "project_scope_denied", s!"This token is restricted to project {binding}."⟩

/-- The three gates, in their order: the first refusal is the answer. -/
def enforce (s : Server) (endpoint : Endpoint) (result : AuthResult) : Option Reply :=
  (enforceSessionOnly endpoint.config result).or <|
    (enforceRequiredScope endpoint.config result).or <|
      enforceProjectBinding s.db endpoint.routed result

/-- `TTL_MS` -/
def touchTtlMs : Nat := 10 * 60 * 1000

def shouldTouchLastUsed (s : Server) (tokenId : Nat) : Bool :=
  match s.touchCache tokenId with
  | none => true
  | some last => !((s.now : Int) - last < touchTtlMs)

def scheduleLastUsedTouch (s : Server) (tokenId : Option Nat) : Server :=
  match tokenId with
  | none => s
  | some id =>
    if s.shouldTouchLastUsed id then
      { s with
        touchCache := Function.update s.touchCache id (some s.now)
        touches := s.touches ++ [id]
        touchLog := s.touchLog ++ [(id, s.now)] }
    else s

def unauthorized : Reply := ⟨401, "UNAUTHORIZED", "Authentication required"⟩

/-- A caller has been found: its gates, and then the handler is next. -/
def letIn (s : Server) (endpoint : Endpoint) (result : AuthResult) : Option Reply × Server :=
  match s.enforce endpoint result with
  | some reply => (some reply, s)
  | none => (none, { s with inFlight := s.inFlight ++ [⟨result, endpoint, s.db⟩] })

/-- The `preHandler` hook. -/
def preHandler (p : Platform) (s : Server) (request : Request) (endpoint : Endpoint) :
    Option Reply × Server :=
  match s.tryPat p request.authorization with
  | .fail _ => (some unauthorized, s)
  | .matched result => (s.scheduleLastUsedTouch result.tokenId).letIn endpoint result
  | .skip =>
    match s.trySession request.session with
    | .matched result => s.letIn endpoint result
    | .fail _ => (some unauthorized, s)
    | .skip => (some unauthorized, s)

/-! ### Handlers -/

inductive Response where
  | refused (reply : Reply)
  /-- The handler throws. -/
  | thrown (error : InsertError)
  | created (row : TokenListItem) (token : String)
  | redirected (justMinted : Nat)
  | tokens (items : List TokenListItem)
  | noContent
  | other

/-- A text of a bounded length, in UTF-16 code units. -/
def boundedString (lower upper : Nat) (value : Json) : Option String :=
  (TaskBody.string value).filter fun s =>
    lower ≤ TaskSchema.utf16Length s ∧ TaskSchema.utf16Length s ≤ upper

/-- `.optional()`: an absent key, but not `null`. -/
def optionalField {α : Type} (fields : Fields) (key : String) (decode : Json → Option α) :
    Option (Option α) :=
  TaskBody.withDefault fields key none fun value => (decode value).map some

/-- `MintTokenBodySchema.safeParse`; a key that it does not know is dropped. -/
def parseMintTokenBody (p : Platform) : Json → Option MintTokenBody
  | .obj fields => do
    let name ← TaskBody.required fields "name" (boundedString 1 100)
    let scopes ← optionalField fields "scopes" fun value =>
      (TaskBody.array (boundedString 1 64) value).filter fun items => items.length ≤ 32
    let expiresAt ← optionalField fields "expiresAt" fun value =>
      (TaskBody.string value).filter fun text => p.isDatetime text
    let projectId ← optionalField fields "projectId" fun value =>
      (TaskBody.natural value).filter fun n => 0 < n
    return ⟨name, scopes, expiresAt, projectId⟩
  | _ => none

/-- `projectExists` of the binding, if one is asked for. -/
def bindingExists (s : Server) (projectId : Option Nat) : Bool :=
  projectId.all fun project => (s.db.projects.find? project).isSome

def mintToken (p : Platform) (s : Server) (caller : AuthResult) (body : Json)
    (generated : PatHash.GeneratedToken) : Response × Server :=
  match parseMintTokenBody p body with
  | none => (.refused ⟨400, "Bad Request", "Invalid request body"⟩, s)
  | some data =>
    let invalidScopes := findUnknownScopes (data.scopes.getD [])
    if invalidScopes ≠ [] then
      (.refused ⟨400, "VALIDATION_ERROR", "Unknown scope(s): " ++ ", ".intercalate invalidScopes⟩, s)
    else if !s.bindingExists data.projectId then
      (.refused ⟨400, "VALIDATION_ERROR", s!"Unknown project: {data.projectId.getD 0}"⟩, s)
    else match s.insert (some caller) (data.input caller.user.id generated) with
      | .error error => (.thrown error, s)
      | .ok (row, s') => (.created row.listItem generated.token, s')

def mintTokenForm (s : Server) (caller : AuthResult) (csrfOk : Bool) (parsed : Option MintTokenBody)
    (generated : PatHash.GeneratedToken) : Response × Server :=
  if !csrfOk then (.refused ⟨403, "csrf_invalid", ""⟩, s)
  else match parsed with
    | none => (.refused ⟨400, "validation_failed", ""⟩, s)
    | some data =>
      if findUnknownScopes (data.scopes.getD []) ≠ [] ∨ s.bindingExists data.projectId = false then
        (.refused ⟨400, "validation_failed", ""⟩, s)
      else match s.insert (some caller) (data.input caller.user.id generated) with
        | .error error => (.thrown error, s)
        | .ok (row, s') => (.redirected row.id, s')

/-- The answer of both revoke routes. -/
def revokeReply : Bool → Response
  | true => .noContent
  | false => .refused ⟨404, "NOT_FOUND", "Token not found."⟩

def revokeActive (s : Server) (caller : AuthResult) : Response × Server :=
  match caller.tokenId with
  | none =>
    (.refused ⟨400, "NO_TOKEN_ID",
      "This endpoint only accepts PAT-authenticated callers; session and legacy callers should " ++
        "use DELETE /api/v1/me/tokens/:id."⟩, s)
  | some tokenId =>
    let (done, s') := s.revoke (some caller) tokenId caller.user.id
    (revokeReply done, s')

/-- The minting in `device-html.ts`. -/
def approveDevice (s : Server) (caller : AuthResult) (tokenName : String)
    (generated : PatHash.GeneratedToken) : Response × Server :=
  match s.insert (some caller)
      ⟨caller.user.id, tokenName, generated.suffix, generated.hash, [], none, none⟩ with
  | .error error => (.thrown error, s)
  | .ok (_, s') => (.other, s')

/-- The handler of a call. `effect` is what another route does to projects and tasks. -/
def handle (p : Platform) (s : Server) (call : Call) (randomBytes : List UInt8)
    (effect : Db → Db) : Response × Server :=
  let generated := generateToken p.hashToken randomBytes
  match call.endpoint with
  | .mintToken body => s.mintToken p call.principal body generated
  | .mintTokenForm csrfOk parsed => s.mintTokenForm call.principal csrfOk parsed generated
  | .listTokens =>
    (.tokens ((s.listByUser call.principal.user.id).map ApiToken.listItem), s)
  | .revokeActive => s.revokeActive call.principal
  | .revokeToken id =>
    let (done, s') := s.revoke (some call.principal) id call.principal.user.id
    (revokeReply done, s')
  | .approveDevice tokenName => s.approveDevice call.principal tokenName generated
  | .other _ _ => (.other, s.write effect)

/-! ### Other writers -/

/-- `POST /me/tokens/:id/revoke`, which looks up the user of its session itself. -/
def webRevoke (s : Server) (session : Option Nat) (csrfOk : Bool) (id : Nat) : Server :=
  match session.bind s.activeUser with
  | none => s
  | some user =>
    if csrfOk ∧ 0 < id then (s.revoke (some (sessionResult user)) id user.id).2 else s

/-- `tasks db mint-token`, for a user that it has found. The format of the expiry has been
    checked. -/
def cliMint (p : Platform) (s : Server) (userId : Nat) (name : String) (scopes : List String)
    (expiresAt : Option String) (randomBytes : List UInt8) : Server :=
  let generated := generateToken p.hashToken randomBytes
  if findUnknownScopes scopes ≠ [] then s
  else match s.insert none
      ⟨userId, name, generated.suffix, generated.hash, scopes, expiresAt, none⟩ with
    | .error _ => s
    | .ok (_, s') => s'

/-! ## Runs -/

inductive Action where
  /-- The clock is set, forward or back. -/
  | clock (now : Nat)
  | provision (displayName : String) (email : Option String) (isLegacy isServiceAccount : Bool)
  | setDisabled (id : Nat) (disabledAt : Option Stamp)
  /-- A write to projects and tasks that is no request. -/
  | write (effect : Db → Db)
  | arrive (request : Request) (endpoint : Endpoint)
  /-- The handler of one of the calls in flight. -/
  | handle (i : Nat) (randomBytes : List UInt8) (effect : Db → Db)
  /-- The oldest `touchLastUsed` that is scheduled. -/
  | touch
  | webRevoke (session : Option Nat) (csrfOk : Bool) (id : Nat)
  | cliMint (userId : Nat) (name : String) (scopes : List String) (expiresAt : Option String)
    (randomBytes : List UInt8)
  /-- The device flow gives up a token that it could not hand out. -/
  | deviceRevoke (id userId : Nat)

/-- One of the calls in flight leaves them and is handled. -/
def runCall (p : Platform) (s : Server) (i : Nat) (randomBytes : List UInt8) (effect : Db → Db) :
    Server :=
  match s.inFlight[i]? with
  | none => s
  | some call =>
    ({ s with inFlight := s.inFlight.eraseIdx i }.handle p call randomBytes effect).2

def runTouch (s : Server) : Server :=
  match s.touches with
  | [] => s
  | id :: rest => { s with touches := rest }.touchLastUsed id

def step (p : Platform) (s : Server) : Action → Server
  | .clock now => { s with now }
  | .provision displayName email isLegacy isServiceAccount =>
    { s with
      users := s.users.insert
        (fun id => ⟨id, displayName, email, isLegacy, isServiceAccount, none⟩) fun _ => rfl }
  | .setDisabled id disabledAt =>
    { s with users := s.users.modify id (fun user => { user with disabledAt }) fun _ => rfl }
  | .write effect => s.write effect
  | .arrive request endpoint => (s.preHandler p request endpoint).2
  | .handle i randomBytes effect => s.runCall p i randomBytes effect
  | .touch => s.runTouch
  | .webRevoke session csrfOk id => s.webRevoke session csrfOk id
  | .cliMint userId name scopes expiresAt randomBytes =>
    s.cliMint p userId name scopes expiresAt randomBytes
  | .deviceRevoke id userId => (s.revoke none id userId).2

end Server

end WoodFiredTasks.AuthChain
