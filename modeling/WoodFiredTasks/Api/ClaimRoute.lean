import WoodFiredTasks.Services.Idempotency
import WoodFiredTasks.Services.TaskService

set_option autoImplicit false

/-! # `POST /tasks/:id/claim`

The route of `src/api/routes/tasks/index.ts`. The handler runs without a pause, so a request is
one program. A response is kept as the task that it was made of. -/

namespace WoodFiredTasks

/-- The `X-Idempotency-Key` header as Fastify passes it. -/
inductive KeyHeader where
  | absent
  | single (value : String)
  | multiple
  deriving DecidableEq

structure ClaimRequest where
  taskId : Nat
  assignee : String
  idempotencyKey : KeyHeader
  source : EventSource
  /-- `requireUser(request).id`. -/
  userId : Nat
  deriving DecidableEq

inductive ClaimReply where
  /-- 200 with the task. -/
  | ok (task : Task)
  /-- 400 of the request's schemas. -/
  | invalid (issues : List TaskSchema.Issue)
  /-- 400 with a message and details. -/
  | badRequest (message : String) (details : List Message)
  /-- 409. -/
  | conflict (message : String)
  deriving DecidableEq

namespace ClaimRoute

open TaskSchema

/-- `[A-Za-z0-9_-]`. -/
def keyChar (c : Char) : Bool := c.isAlphanum || c == '_' || c == '-'

/-- `idempotencyKeyHeaderSchema`. -/
def keyIssues (value : String) : List Message :=
  ((atLeast "" 8 (utf16Length value) (.text "X-Idempotency-Key must be at least 8 characters")
    ++ atMost "" 128 (utf16Length value) (.text "X-Idempotency-Key must be at most 128 characters")).map
      (·.2))
    ++ if value ≠ "" ∧ value.toList.all keyChar = true then []
      else [.text ("X-Idempotency-Key may only contain letters, digits, hyphens, " ++
        "and underscores")]

/-- The validation of the header. -/
def readKey : KeyHeader → Except ClaimReply (Option String)
  | .absent => .ok none
  | .multiple =>
    .error (.badRequest "X-Idempotency-Key header must be a single value" [])
  | .single value =>
    if keyIssues value = [] then .ok (some value)
    else .error (.badRequest "Invalid X-Idempotency-Key header" (keyIssues value))

theorem readKey_some {header : KeyHeader} {key : String} (h : readKey header = .ok (some key)) :
    header = .single key := by
  cases header with
  | single value =>
    rw [readKey] at h
    split at h
    · cases h
      rfl
    · cases h
  | _ => cases h

theorem readKey_error {header : KeyHeader} {reply : ClaimReply} (h : readKey header = .error reply)
    (task : Task) : reply ≠ .ok task := by
  cases header with
  | single value =>
    rw [readKey] at h
    split at h
    · cases h
    · cases h
      nofun
  | absent => cases h
  | multiple =>
    cases h
    nofun

/-- `ClaimRequestSchema` and the path's parameter, checked before the handler runs. -/
def requestIssues (request : ClaimRequest) : List Issue :=
  positive "id" request.taskId
    ++ atLeast "assignee" 1 (utf16Length request.assignee) (.text "Assignee is required")
    ++ atMost "assignee" 100 (utf16Length request.assignee)

/-- Cache the response if a key was given. -/
def remember (key : Option String) (task : Task) : M Unit :=
  match key with
  | some key => IdempotencyService.set key task
  | none => pure ()

/-- The catch of the handler: a refused claim is a conflict, any other error goes on. -/
def onClaimError : Err → M ClaimReply
  | .business message => pure (.conflict message)
  | e => Prog.throw e

/-- The claim, and the caching of its response. -/
def claim (bypass : Listener) (request : ClaimRequest) (key : Option String) : M ClaimReply :=
  Prog.tryCatch
    (TaskService.claimTask bypass request.taskId request.assignee request.source
      (some request.userId) >>= fun task =>
        remember key task >>= fun _ => pure (.ok task))
    onClaimError

/-- The handler. -/
def handle (bypass : Listener) (request : ClaimRequest) : M ClaimReply :=
  match readKey request.idempotencyKey with
  | .error reply => pure reply
  | .ok none => claim bypass request none
  | .ok (some key) => IdempotencyService.get key >>= fun
    | some cached => pure (.ok cached)
    | none => claim bypass request (some key)

/-- The route: the schemas, then the handler. -/
def route (bypass : Listener) (request : ClaimRequest) : M ClaimReply :=
  match requestIssues request with
  | [] => handle bypass request
  | issues => pure (.invalid issues)

end ClaimRoute

end WoodFiredTasks
