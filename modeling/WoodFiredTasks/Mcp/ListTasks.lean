import WoodFiredTasks.Lib.FormUrl
import WoodFiredTasks.Services.ListTasks

set_option autoImplicit false

/-! # The two `list_tasks` tools

`list_tasks` of `src/mcp/tools/task-tools.ts`, which calls the service, and `list_tasks` of
`src/mcp/remote/register-tools.ts`, which goes through `listTasksPaginated` of
`src/mcp/remote/rest-client.ts` and `GET /tasks` of `src/api/routes/tasks/index.ts`, on the same
database. Of the rows of an answer only the ids are kept; `verbose`, which chooses their columns,
is left out. The token of the client may read every project.

A text is a sequence of Unicode characters: a lone surrogate is replaced before it reaches
SQLite on either way. -/

namespace WoodFiredTasks.Mcp

/-- What `list_tasks` answers. -/
structure ListTasksAnswer where
  tasks : List Nat
  total : Nat
  limit : Nat
  offset : Nat
  deriving DecidableEq, Repr

/-- The answer of a page. -/
def ListTasksAnswer.ofPage (p : PaginatedTasks) : ListTasksAnswer :=
  { tasks := p.data.map Task.id, total := p.total, limit := p.limit, offset := p.offset }

/-- `list_tasks` over stdio; none if the tool fails. -/
def listTasks (host : ListHost) (db : Db) (f : TaskFilters) : Option ListTasksAnswer :=
  (TaskService.listTasksPaginated host db f).toOption.map ListTasksAnswer.ofPage

/-! ## The client -/

/-- The entries of the filters as the remote tool hands them over, each with `String(value)`: the
    tags are joined, and put behind the others. -/
def filterEntries (f : TaskFilters) : List (String × Option String) :=
  [("project_id", f.projectId.map toString),
    ("status", f.status.map TaskStatus.text),
    ("assignee", f.assignee),
    ("due_before", f.dueBefore),
    ("due_after", f.dueAfter),
    ("updated_before", f.updatedBefore),
    ("updated_after", f.updatedAfter),
    ("search", f.search),
    ("verified", f.verified.map fun v => if v then "true" else "false"),
    ("limit", f.limit.map toString),
    ("offset", f.offset.map toString),
    ("tags", f.tags.map fun tags => ",".intercalate tags)]

/-- The query string of `RestClient.listTasksPaginated`: `undefined` entries are left out. -/
def queryString (f : TaskFilters) : List UInt8 :=
  FormUrl.encode (FormUrl.defined (filterEntries f))

/-! ## The route -/

/-- `s.split(',')` -/
def splitComma (s : String) : List String := (s.toList.splitOn ',').map String.ofList

/-- `z.coerce.number().int()` on texts of digits, the only ones that a client of integers writes. -/
def coerceNumber (s : String) : Option Nat :=
  if s.toList.all Char.isDigit then some (Nat.ofDigitChars 10 s.toList 0) else none

/-- `z.enum(TASK_STATUSES)` -/
def statusEnum (s : String) : Option TaskStatus :=
  [.open, .inProgress, .done, .closed, .blocked, .backlogged].find? fun status => status.text == s

/-- `z.enum(['true', 'false'])` with its transform. -/
def verifiedEnum (s : String) : Option Bool :=
  if s = "true" then some true else if s = "false" then some false else none

/-- A parameter that may be missing. -/
def parameter {α : Type} (params : List (String × String)) (name : String)
    (read : String → Option α) : Option (Option α) :=
  match params.lookup name with
  | none => some none
  | some text => (read text).map some

/-- `QueryTaskFiltersSchema` without `include`, which no client of the tool sends. Once the texts
    are read, the rules of the fields are those of `TaskFiltersSchema`. -/
def queryTaskFilters (host : ListHost) (params : List (String × String)) : Option TaskFilters := do
  let projectId ← parameter params "project_id" coerceNumber
  let status ← parameter params "status" statusEnum
  let assignee ← parameter params "assignee" some
  let tags ← parameter params "tags" fun s => some (splitComma s)
  let dueBefore ← parameter params "due_before" some
  let dueAfter ← parameter params "due_after" some
  let updatedBefore ← parameter params "updated_before" some
  let updatedAfter ← parameter params "updated_after" some
  let search ← parameter params "search" some
  let verified ← parameter params "verified" verifiedEnum
  let limit ← parameter params "limit" coerceNumber
  let offset ← parameter params "offset" coerceNumber
  let filters : TaskFilters :=
    { projectId, status, assignee, tags, dueBefore, dueAfter, updatedBefore, updatedAfter, search,
      verified, limit := some (limit.getD 50), offset := some (offset.getD 0) }
  if TaskSchema.taskFilters host filters = [] then some filters else none

/-- `GET /tasks`; none is an error status. -/
def getTasks (host : ListHost) (db : Db) (query : List UInt8) : Option PaginatedTasks := do
  let params ← FormUrl.decode query
  let filters ← queryTaskFilters host params
  (TaskService.listTasksPaginated host db filters).toOption

/-- `list_tasks` of the remote server; none if the tool fails. -/
def remoteListTasks (host : ListHost) (db : Db) (f : TaskFilters) : Option ListTasksAnswer := do
  let args ← (TaskService.parseFilters host f).toOption
  if host.maxQuery < (queryString args).length then none
  else (getTasks host db (queryString args)).map ListTasksAnswer.ofPage

end WoodFiredTasks.Mcp
