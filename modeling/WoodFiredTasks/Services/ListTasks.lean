import WoodFiredTasks.Repositories.TaskListing
import WoodFiredTasks.Schemas.TaskSchema
import WoodFiredTasks.Scm.Exclusions

set_option autoImplicit false

/-! # Listing tasks by filters

`TaskFiltersSchema` (`src/schemas/task.schema.ts`), `findByFilters` and `count` of
`src/repositories/task.repository.ts` and `listTasksPaginated` of `src/services/task.service.ts`.
A listing runs without a break on one state of the database, so it is a function of it. -/

namespace WoodFiredTasks

open Scm (isWhiteSpace)

/-! ## Filters -/

/-- `TaskFilters`, without the switch for the tag join. -/
structure TaskFilters where
  projectId : Option Nat := none
  status : Option TaskStatus := none
  assignee : Option String := none
  tags : Option (List String) := none
  dueBefore : Option String := none
  dueAfter : Option String := none
  updatedBefore : Option String := none
  updatedAfter : Option String := none
  search : Option String := none
  verified : Option Bool := none
  limit : Option Nat := none
  offset : Option Nat := none
  deriving DecidableEq, Repr

/-- What a listing takes from the machine that it runs on. -/
structure ListHost where
  /-- What `z.string().datetime()` accepts. -/
  isDatetime : String → Bool
  /-- The second that SQLite's `datetime` reads in a text, none where it gives `NULL`. -/
  datetime : String → Option Nat
  /-- FTS5 cannot parse the expression. -/
  ftsMalformed : String → Bool
  /-- The expression finds this row of `tasks_fts`. -/
  ftsMatch : Db → String → Nat → Bool
  /-- The order of the statement that the filters make. -/
  order : TaskFilters → RowOrder
  /-- The longest query string that the HTTP server takes. -/
  maxQuery : Nat

namespace TaskSchema

/-- `Number.MAX_SAFE_INTEGER`, above which no number is an integer to the schemas. -/
def maxSafeInteger : Nat := 2 ^ 53 - 1

/-- The number of terms of a search: `s.trim().split(/\s+/).filter(Boolean).length`. -/
def searchTerms (s : String) : Nat :=
  ((s.toList.splitOnP isWhiteSpace).filter fun term => term != []).length

/-- `TaskFiltersSchema`. -/
def taskFilters (host : ListHost) (f : TaskFilters) : List Issue :=
  let datetime (path : String) (s : String) : List Issue :=
    if host.isDatetime s then [] else [(path, .schema .datetime)]
  optional f.projectId (fun n => positive "project_id" n ++
      atMost "project_id" maxSafeInteger n (.schema (.maxNumber maxSafeInteger)))
    ++ optional f.dueBefore (datetime "due_before") ++ optional f.dueAfter (datetime "due_after")
    ++ optional f.updatedBefore (datetime "updated_before")
    ++ optional f.updatedAfter (datetime "updated_after")
    ++ optional f.search (fun s =>
        atLeast "search" 1 (utf16Length s) ++ atMost "search" 200 (utf16Length s) ++
          atMost "search" 32 (searchTerms s) (.text "Search query must contain at most 32 terms."))
    ++ optional f.limit (fun n => positive "limit" n ++
        atMost "limit" 500 n (.schema (.maxNumber 500)))
    ++ optional f.offset (fun n =>
        atMost "offset" maxSafeInteger n (.schema (.maxNumber maxSafeInteger)))

end TaskSchema

/-- The schemas of the tools accept the filters. -/
def TaskFilters.Accepted (host : ListHost) (f : TaskFilters) : Prop :=
  TaskSchema.taskFilters host f = []

instance (host : ListHost) (f : TaskFilters) : Decidable (f.Accepted host) :=
  inferInstanceAs (Decidable (_ = _))

/-! ## Statements -/

/-- The verdicts of `verified: true`; the other verdicts and no evidence are those of `false`. -/
def Task.isVerified (t : Task) : Bool :=
  t.verificationEvidence.any fun e => e.verdict == .pass || e.verdict == .partial_

/-- The `WHERE` clause that the filters make. -/
def Task.meets (host : ListHost) (db : Db) (f : TaskFilters) (t : Task) : Bool :=
  f.projectId.all (fun p => t.projectId == p) &&
  f.status.all (fun s => t.status == s) &&
  f.assignee.all (fun a => t.assignee == some a) &&
  f.dueBefore.all (fun bound => t.dueDate.any fun due => decide (due ≤ bound)) &&
  f.dueAfter.all (fun bound => t.dueDate.any fun due => decide (bound ≤ due)) &&
  f.updatedBefore.all
    (fun bound => (host.datetime bound).any fun n => decide (t.updatedAt.second ≤ n)) &&
  f.updatedAfter.all
    (fun bound => (host.datetime bound).any fun n => decide (n ≤ t.updatedAt.second)) &&
  -- an empty list of tags makes no clause
  f.tags.all (fun tags => tags == [] || t.tags.any fun tag => tags.contains tag) &&
  f.search.all (fun s => host.ftsMatch db s t.id) &&
  f.verified.all fun v => t.isVerified == v

namespace TaskRepository

/-- `findByFilters`; none stands for `FtsSyntaxError`. -/
def findByFilters (host : ListHost) (db : Db) (f : TaskFilters) : Option (List Task) :=
  let paging := resolvePagination
    { limit := f.limit.map fun n => some (n : ℚ), offset := f.offset.map fun n => some (n : ℚ) }
  let joined (t : Task) : Bool := (db.projects.find? t.projectId).isSome
  if f.search.any host.ftsMalformed then none
  else
    let rows := (host.order f).sort (db.tasks.rows.filter fun t => joined t && t.meets host db f)
    some (page (rows.map Task.listed) paging.1 paging.2)

/-- `count`; none stands for `FtsSyntaxError`. -/
def count (host : ListHost) (db : Db) (f : TaskFilters) : Option Nat :=
  if f.search.any host.ftsMalformed then none
  else some (db.tasks.rows.countP fun t => t.meets host db f)

end TaskRepository

/-! ## The service -/

/-- `PaginatedResponse` -/
structure PaginatedTasks where
  data : List Task
  total : Nat
  limit : Nat
  offset : Nat
  deriving DecidableEq, Repr

/-- `ftsValidationError` -/
def ftsValidationError : Err :=
  .validation [("search",
    [.text "Invalid search syntax. The search query must be a valid SQLite FTS5 expression."])]

namespace TaskService

/-- `parseFilters` -/
def parseFilters (host : ListHost) (f : TaskFilters) : Except Err TaskFilters :=
  if TaskSchema.taskFilters host f = [] then .ok f
  else .error (.validation (.ofIssues (TaskSchema.taskFilters host f)))

/-- `listTasksPaginated` -/
def listTasksPaginated (host : ListHost) (db : Db) (f : TaskFilters) :
    Except Err PaginatedTasks := do
  let parsed ← parseFilters host f
  let limit := parsed.limit.getD defaultPageLimit
  let offset := parsed.offset.getD defaultPageOffset
  let found := TaskRepository.findByFilters host db
    { parsed with limit := some limit, offset := some offset }
  -- the total is counted without the page
  let counted := TaskRepository.count host db { parsed with limit := none, offset := none }
  match found, counted with
  | some data, some total => pure { data, total, limit, offset }
  | _, _ => throw ftsValidationError

end TaskService

end WoodFiredTasks
