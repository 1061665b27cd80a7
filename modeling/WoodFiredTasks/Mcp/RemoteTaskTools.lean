import WoodFiredTasks.Mcp.TaskTools
import WoodFiredTasks.Schemas.UpdateBody

set_option autoImplicit false

/-! # The writing tools on both servers

`create_task` and `update_task` as a client calls them, with JSON arguments: on the stdio server,
which hands them to the service after its schema, and on the remote server
(`src/mcp/remote/register-tools.ts`), which parses them with a schema of its own and sends what
comes of it to the REST API, whose route has a third schema.

Both processes are built by `createApp`, so the service and its listeners are the same; the caller
may write, and a request is answered in time with what the response schema allows. -/

namespace WoodFiredTasks.TaskTools

open Router (Json)
open TaskBody

/-- How a call fails: by the input schema of the tool, by the answer of the route, or in the
    service. -/
inductive ToolError where
  | invalidParams
  | http (status : Nat)
  | service (error : Err)
  deriving DecidableEq, Repr

/-- What a call answers, and the process after it. -/
abbrev ToolRun := World → Except ToolError Task × World

/-- A call of the service. -/
def serve (program : M Task) : ToolRun := fun w =>
  ((program.run w).1.mapError .service, (program.run w).2)

/-- The fields of an object, whatever their keys. -/
def objectFields : Json → Option Fields
  | .obj fields => some fields
  | _ => none

/-! ## The stdio server -/

/-- The arguments of `create_task`. -/
structure CreateArgs where
  input : CreateTaskInput
  submission : Option ScoreSubmission
  wsjfTrigger : Option WsjfHistoryTrigger

/-- `CreateTaskClientSchema.extend({ wsjf_submission, wsjf_trigger })` -/
def parseCreateArgs (env : Env) (args : Json) : Option CreateArgs := do
  let fields ← strictObject (createTaskKeys ++ ["wsjf_submission", "wsjf_trigger"]) args
  let input ← createTaskFields fields
  let submission ← patched fields "wsjf_submission" scoreSubmission
  let wsjfTrigger ← patched fields "wsjf_trigger" (enumOf historyTriggers)
  if TaskSchema.createTask env input = [] ∧ submission.all fun s => (submissionIssues s).isEmpty
  then some { input := input, submission := submission, wsjfTrigger := wsjfTrigger } else none

/-- `create_task` -/
def stdioCreateTask (bypass : Listener) (actorUserId : Option Nat) (args : Json) : ToolRun :=
  fun w =>
    match parseCreateArgs w.env args with
    | none => (.error .invalidParams, w)
    | some a => serve (createTask bypass a.input a.submission a.wsjfTrigger actorUserId) w

/-- The arguments of `update_task`. -/
structure UpdateArgs where
  id : Nat
  updates : UpdateTaskInput
  submission : Option ScoreSubmission

/-- The schema of `update_task`, with `UpdateTaskClientSchema.extend({ wsjf_submission })` for the
    updates. -/
def parseUpdateArgs (env : Env) (args : Json) : Option UpdateArgs := do
  let top ← objectFields args
  let id ← required top "id" natural
  let given ← top.lookup "updates"
  let fields ← strictObject (updateTaskKeys ++ ["wsjf_submission"]) given
  let updates ← updateTaskFields fields
  let submission ← patched fields "wsjf_submission" scoreSubmission
  if id ≠ 0 ∧ TaskSchema.updateTask env updates = [] ∧
      submission.all fun s => (submissionIssues s).isEmpty
  then some { id := id, updates := updates, submission := submission } else none

/-- `resolveAssigneeUserId`, which the `PUT` handler does in the same way. -/
def resolveAssigneeUserId (findByEmail : String → Option Nat) : Option String → Option Nat
  | none => none
  | some assignee =>
    if assignee = "" then none
    else if '@' ∈ assignee.toList then findByEmail assignee else none

/-- `update_task` -/
def stdioUpdateTask (bypass : Listener) (findByEmail : String → Option Nat)
    (actorUserId : Option Nat) (args : Json) : ToolRun := fun w =>
  match parseUpdateArgs w.env args with
  | none => (.error .invalidParams, w)
  | some a =>
    serve (updateTask bypass (resolveAssigneeUserId findByEmail) a.id a.updates a.submission
      actorUserId) w

/-! ## The routes -/

/-- `POST /api/v1/tasks`, with `CreateTaskClientSchema` -/
def postTask (bypass : Listener) (user : Nat) (body : Json) : ToolRun := fun w =>
  match (TaskBody.createTaskInput body).filter fun input => TaskSchema.createTask w.env input = [] with
  | none => (.error (.http 400), w)
  | some input =>
    serve (TaskService.createTask bypass
      { input with createdByUserId := some user, assigneeUserId := none }) w

/-- `PUT /api/v1/tasks/:id`, with `UpdateTaskClientSchema` -/
def putTask (bypass : Listener) (findByEmail : String → Option Nat) (user id : Nat) (body : Json) :
    ToolRun := fun w =>
  match ((strictObject updateTaskKeys body).bind updateTaskFields).filter fun updates =>
    TaskSchema.updateTask w.env updates = [] with
  | none => (.error (.http 400), w)
  | some updates =>
    let updates :=
      { updates with
        assigneeUserId := updates.assignee.map (resolveAssigneeUserId findByEmail) }
    serve (TaskService.updateTask bypass id updates .user (some user.repr)) w

/-! ## The remote server -/

/-- `CreateTaskSchema` fills in these. -/
def createDefault : String → Option Json
  | "priority" => some (.str "medium")
  | "tags" => some (.arr [])
  | _ => none

/-- What `CreateTaskSchema` returns for an object that it accepts. -/
def createBody (fields : Fields) : Json :=
  .obj (parsedObject (createTaskKeys ++ ["created_by_user_id", "assignee_user_id"]) createDefault
    fields)

/-- `CreateTaskSchema`, and the body that is made of what it returns. -/
def remoteCreateBody (env : Env) (args : Json) : Option Json := do
  let fields ← objectFields args
  let input ← createTaskFields fields
  let createdByUserId ← nullish fields "created_by_user_id" natural
  let assigneeUserId ← nullish fields "assignee_user_id" natural
  let input := { input with createdByUserId := createdByUserId, assigneeUserId := assigneeUserId }
  if TaskSchema.createTask env input = [] then some (createBody fields) else none

/-- A request is refused if its body is longer than the server's limit. -/
def send (bodyFits : Json → Bool) (body : Json) (route : Json → ToolRun) : ToolRun := fun w =>
  if bodyFits body then route body w else (.error (.http 413), w)

/-- `create_task` -/
def remoteCreateTask (bodyFits : Json → Bool) (bypass : Listener) (user : Nat) (args : Json) :
    ToolRun := fun w =>
  match remoteCreateBody w.env args with
  | none => (.error .invalidParams, w)
  | some body => send bodyFits body (postTask bypass user) w

/-- What `UpdateTaskSchema` returns for an object that it accepts. -/
def updateBody (fields : Fields) : Json :=
  .obj (parsedObject (updateTaskKeys ++ ["assignee_user_id"]) (fun _ => none) fields)

/-- The schema of `update_task`, with `UpdateTaskSchema` for the updates: the id and the body that
    is made of what it returns. -/
def remoteUpdateBody (env : Env) (args : Json) : Option (Nat × Json) := do
  let top ← objectFields args
  let id ← required top "id" natural
  let given ← top.lookup "updates"
  let fields ← objectFields given
  let updates ← updateTaskFields fields
  let assigneeUserId ← patched fields "assignee_user_id" (nullable natural)
  if id ≠ 0 ∧ TaskSchema.updateTask env { updates with assigneeUserId := assigneeUserId } = [] then
    some (id, updateBody fields)
  else none

/-- `update_task` -/
def remoteUpdateTask (bodyFits : Json → Bool) (bypass : Listener)
    (findByEmail : String → Option Nat) (user : Nat) (args : Json) : ToolRun := fun w =>
  match remoteUpdateBody w.env args with
  | none => (.error .invalidParams, w)
  | some (id, body) => send bodyFits body (putTask bypass findByEmail user id) w

end WoodFiredTasks.TaskTools
