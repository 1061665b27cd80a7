import WoodFiredTasks.Mcp.ListTasks
import WoodFiredTasks.Router.Daemon
import WoodFiredTasks.Router.HandlerRuns

set_option autoImplicit false

/-! # The startup sweep over the pages of the task list

`findFirstMatchingOpenTask` (`packages/wft-router/src/dispatch/startup-sweep.ts`) as the source has
it: pages of 500 of a list that the server has narrowed, up to ten of them, and three ways to stop.
What `Daemon.lean` says of a sweep is its result over all the tasks at once.

Left out: a body that is JSON but has no object in it, and fields of other types. -/

namespace WoodFiredTasks.Router.StartupSweep

/-! ## The wire -/

/-- `WireTaskRow`; `none` is a field that is missing. -/
structure WireTaskRow where
  id : Option Int := none
  projectId : Option Int := none
  status : Option String := none
  tags : Option (List String) := none
  parentTaskId : Option (Option Int) := none
  assignee : Option (Option String) := none
  deriving DecidableEq

/-- `WireTaskListResponse`: what `data` and `total` are if they are an array and a number. -/
structure WireTaskListResponse where
  data : Option (List WireTaskRow) := none
  total : Option Int := none

/-- A request of the sweep: the URL up to its query, the query, and the headers. -/
structure TaskListRequest where
  url : String
  query : List UInt8
  headers : List (String × String)

/-- What comes of it. A body that is no JSON is `none`. -/
inductive TaskListReply where
  | failed (message : String)
  | answered (status : Nat) (body : Option WireTaskListResponse)

/-- `SweepQueryOptions`, with what the network does in place of `fetchImpl`. -/
structure SweepQueryOptions where
  apiBaseUrl : String
  authToken : String
  fetch : TaskListRequest → TaskListReply

/-! ## The sweep -/

/-- `SWEEP_PAGE_LIMIT` -/
def sweepPageLimit : Nat := 500

/-- `SWEEP_MAX_PAGES` -/
def sweepMaxPages : Nat := 10

/-- `taskRowToEventPayload` -/
def taskRowToEventPayload (row : WireTaskRow) (eventType : String) : EventPayloadShape where
  type := eventType
  task := some
    { id := row.id
      projectId := row.projectId
      status := row.status
      tags := row.tags
      parentTaskId := row.parentTaskId
      assignee := row.assignee }
  metadata := row.status.map fun s => { toStatus := some s }

/-- The id of a filter that is a number. -/
def numericProject : Option ProjectFilter → Option Int
  | some (.id n) => some n
  | _ => none

/-- `params`, when `offset` has been set. -/
def sweepParams (w : Where) (offset : Nat) : List (String × Option String) :=
  [("status", some "open"),
    ("limit", some (toString sweepPageLimit)),
    ("project_id", (numericProject w.project).map toString),
    ("assignee", w.assignee),
    ("offset", some (toString offset))]

/-- The request for a page. -/
def pageRequest (opts : SweepQueryOptions) (rule : Rule) (page : Nat) : TaskListRequest where
  url := trimBase opts.apiBaseUrl ++ "/api/v1/tasks"
  query := FormUrl.encode (FormUrl.defined (sweepParams rule.whereBlock (page * sweepPageLimit)))
  headers := [authHeaderFor opts.authToken, ("Accept", "application/json")]

/-- `first`, `matchedCount` and `openTotal`. -/
structure SweepState where
  first : Option EventPayloadShape := none
  matchedCount : Nat := 0
  openTotal : Int := 0
  deriving DecidableEq

/-- `SweepMatch` -/
structure SweepMatch where
  payload : EventPayloadShape
  matchedCount : Nat
  openTotal : Int
  deriving DecidableEq

/-- One row of a page. -/
def scanRow (rule : Rule) (st : SweepState) (row : WireTaskRow) : SweepState :=
  let payload := taskRowToEventPayload row rule.on.text
  if evaluateWhere rule.whereBlock payload then
    { st with matchedCount := st.matchedCount + 1, first := st.first.or (some payload) }
  else st

/-- The rows of a page, or the message of what is thrown. -/
def readPage : TaskListReply → Except String (List WireTaskRow × Int)
  | .failed message => .error message
  | .answered status body =>
    if status < 200 ∨ 300 ≤ status then
      .error ("task-list query returned HTTP " ++ toString status)
    else
      match body with
      | none => .error "task-list query returned unparseable JSON"
      | some parsed =>
        let rows := parsed.data.getD []
        .ok (rows, parsed.total.getD rows.length)

/-- The loop from `page` on, with so many pages left of the ten. -/
def scanPages (opts : SweepQueryOptions) (rule : Rule) :
    Nat → Nat → SweepState → Except String SweepState
  | 0, _, st => .ok st
  | left + 1, page, st =>
    match readPage (opts.fetch (pageRequest opts rule page)) with
    | .error message => .error message
    | .ok (rows, total) =>
      let st := rows.foldl (scanRow rule) { st with openTotal := total }
      let seen := (page + 1) * sweepPageLimit
      if rows.length < sweepPageLimit ∨ st.openTotal ≤ seen then .ok st
      else if st.first.isSome then .ok st
      else scanPages opts rule left (page + 1) st

/-- `findFirstMatchingOpenTask` -/
def findFirstMatchingOpenTask (rule : Rule) (opts : SweepQueryOptions) :
    Except String (Option SweepMatch) :=
  (scanPages opts rule sweepMaxPages 0 {}).map fun st =>
    st.first.map fun payload =>
      { payload, matchedCount := st.matchedCount, openTotal := st.openTotal }

/-! ## A task list

What the sweep asks of the server: a list in a fixed order, narrowed by the parameters of the
query, with the page asked for and the number of all its rows. -/

namespace TaskList

/-- A text of digits, with a minus sign or without. -/
def coerceInt (s : String) : Option Int :=
  match s.toList with
  | '-' :: digits => (Mcp.coerceNumber (String.ofList digits)).map fun n => -Int.ofNat n
  | _ => (Mcp.coerceNumber s).map Int.ofNat

/-- What the query asks of a row. -/
structure Narrowing where
  status : Option String := none
  projectId : Option Int := none
  assignee : Option String := none

def Narrowing.keeps (narrowing : Narrowing) (row : WireTaskRow) : Bool :=
  narrowing.status.all (fun s => row.status = some s) &&
    narrowing.projectId.all (fun n => row.projectId = some n) &&
    narrowing.assignee.all (fun s => row.assignee = some (some s))

/-- The page of a query; none if a number in it is none. -/
def page (tasks : List WireTaskRow) (params : List (String × String)) :
    Option WireTaskListResponse := do
  let projectId ← Mcp.parameter params "project_id" coerceInt
  let limit ← Mcp.parameter params "limit" Mcp.coerceNumber
  let offset ← Mcp.parameter params "offset" Mcp.coerceNumber
  let kept := tasks.filter
    { status := params.lookup "status", projectId, assignee := params.lookup "assignee" :
      Narrowing }.keeps
  some
    { data := some ((kept.drop (offset.getD 0)).take (limit.getD 50))
      total := some kept.length }

/-- A server that has these tasks. -/
def serve (tasks : List WireTaskRow) (request : TaskListRequest) : TaskListReply :=
  match (FormUrl.decode request.query).bind (page tasks) with
  | none => .answered 400 none
  | some response => .answered 200 (some response)

end TaskList

end WoodFiredTasks.Router.StartupSweep
