import Mathlib.Data.List.Sort
import WoodFiredTasks.Lib.Counts
import WoodFiredTasks.Repositories.TaskRepository
import WoodFiredTasks.Schemas.TaskSchema

set_option autoImplicit false

/-! # The completion report

`getCompletionReport`, `resolveRange` and `aggregate` of `src/services/task.service.ts` with
`findCompletedInRange` of `src/repositories/task.repository.ts`. The report is read from one state
of the database. -/

namespace WoodFiredTasks

/-- What the report takes from the machine that it runs on. -/
structure ReportHost where
  /-- The second that SQLite's `datetime` reads in the text of a bound. -/
  datetime : String → Int
  /-- By how many seconds the local clock is ahead of UTC when it shows this second. -/
  utcOffset : Nat → Int
  /-- `a.localeCompare(b) <= 0`. -/
  localeLe : String → String → Bool

/-! ## The range -/

/-- The body of a request, with `finish` for its `end`. -/
structure CompletionReportInput where
  days : Option Nat := none
  start : Option String := none
  finish : Option String := none
  projectId : Option Nat := none
  assignee : Option String := none
  deriving DecidableEq, Repr

namespace TaskSchema

/-- The fields of `CompletionReportSchema`. -/
def completionReportFields (env : Env) (input : CompletionReportInput) : List Issue :=
  optional input.days (fun n => positive "days" n ++ atMost "days" 365 n (.schema (.maxNumber 365)))
    ++ optional input.start (fun s => if env.isDatetime s then [] else [("start", .schema .datetime)])
    ++ optional input.finish (fun s => if env.isDatetime s then [] else [("end", .schema .datetime)])
    ++ optional input.projectId (fun p => positive "project_id" p)
    ++ optional input.assignee (fun s =>
        atLeast "assignee" 1 (utf16Length s) ++ atMost "assignee" 100 (utf16Length s))

/-- `CompletionReportSchema`: the refinements come after the fields. -/
def completionReport (env : Env) (input : CompletionReportInput) : List Issue :=
  let ordered := match input.start, input.finish with
    | some start, some finish => !decide (finish < start)
    | _, _ => false
  if completionReportFields env input ≠ [] then completionReportFields env input
  else
    (if input.days.isSome || (input.start.isSome && input.finish.isSome) then []
      else [("_", .text "Provide either `days` or both `start` and `end`")]) ++
    (if input.days.isSome || ordered then []
      else [("_", .text "`end` must be greater than or equal to `start`")])

end TaskSchema

/-- A bound of the range: a text of the request, or `toISOString` of an instant in milliseconds. -/
inductive Bound where
  | given (text : String)
  | instant (ms : Int)
  deriving DecidableEq, Repr

/-- `datetime(bound)`. -/
def Bound.second (host : ReportHost) : Bound → Int
  | .given text => host.datetime text
  | .instant ms => ms / 1000

/-- `resolveRange`. -/
def resolveRange (now : Nat) (input : CompletionReportInput) : Bound × Bound :=
  match input.days with
  | some days => (.instant ((now : Int) - days * 24 * 60 * 60 * 1000), .instant now)
  | none => (.given (input.start.getD ""), .given (input.finish.getD ""))

/-! ## Rows -/

/-- The `WHERE` clause of `findCompletedInRange`. -/
def Task.completedIn (host : ReportHost) (start finish : Bound) (projectId : Option Nat)
    (assignee : Option String) (t : Task) : Bool :=
  t.status == .done &&
    t.completedAt.any (fun c => decide (start.second host ≤ c.second) &&
      decide ((c.second : Int) ≤ finish.second host)) &&
    projectId.all (fun p => t.projectId == p) && assignee.all fun a => t.assignee == some a

/-- `ORDER BY t.completed_at ASC`. -/
def Task.completedLe (a b : Task) : Bool :=
  match a.completedAt, b.completedAt with
  | some x, some y => x.le y
  | _, _ => true

/-- `findCompletedInRange`. -/
def TaskRepository.findCompletedInRange (env : Env) (host : ReportHost) (db : Db)
    (start finish : Bound) (projectId : Option Nat) (assignee : Option String) : List Task :=
  (((env.scan db.tasks.rows).filter
    (Task.completedIn host start finish projectId assignee)).insertionSort
      fun a b => a.completedLe b = true).map Task.listed

/-- `Date.parse` of a stored instant, in milliseconds: an ISO text names its zone, SQLite's text
    names none and is read as local time. -/
def ReportHost.dateParse (host : ReportHost) : Stamp → Int
  | .iso ms => ms
  | .sqlite sec => (sec - host.utcOffset sec) * 1000

/-- `Math.max(0, Math.round(ms / 1000))`. -/
def roundedSeconds (ms : Int) : Int := max 0 ((ms + 500) / 1000)

/-- A row of the report. The joined name of the project is left out. -/
structure CompletionReportRow where
  id : Nat
  title : String
  projectId : Nat
  assignee : Option String
  priority : TaskPriority
  createdAt : Stamp
  completedAt : Stamp
  timeToCompleteSeconds : Int
  deriving DecidableEq, Repr

/-- The row of a task that took this many milliseconds. -/
def Task.reportRow (t : Task) (elapsed : Stamp → Stamp → Int) : CompletionReportRow :=
  let completedAt := t.completedAt.getD t.updatedAt
  { id := t.id
    title := t.title
    projectId := t.projectId
    assignee := t.assignee
    priority := t.priority
    createdAt := t.createdAt
    completedAt := completedAt
    timeToCompleteSeconds := roundedSeconds (elapsed t.createdAt completedAt) }

/-! ## Groups -/

/-- The order of `aggregate`: the larger counts first, then the keys by their texts. -/
def groupBefore {K : Type} (le : K → K → Bool) (a b : K × Nat) : Prop :=
  b.2 < a.2 ∨ (a.2 = b.2 ∧ le a.1 b.1 = true)

instance {K : Type} (le : K → K → Bool) : DecidableRel (groupBefore le) :=
  fun a b => inferInstanceAs (Decidable (b.2 < a.2 ∨ (a.2 = b.2 ∧ le a.1 b.1 = true)))

/-- `aggregate`. -/
def aggregate {K : Type} [DecidableEq K] (le : K → K → Bool) (keys : List K) : List (K × Nat) :=
  (countsOf keys).insertionSort (groupBefore le)

/-- The key of the tasks without an assignee. -/
def unassignedKey : String := "(unassigned)"

structure CompletionReport where
  range : Bound × Bound
  total : Nat
  rows : List CompletionReportRow
  byProject : List (Nat × Nat)
  byAssignee : List (String × Nat)
  byPriority : List (TaskPriority × Nat)
  /-- By the day of the completion, whose texts are in the order of the days. -/
  dailyThroughput : List (Nat × Nat)
  deriving DecidableEq, Repr

/-- `getCompletionReport`. -/
def TaskService.getCompletionReport (env : Env) (host : ReportHost) (db : Db) (now : Nat)
    (input : CompletionReportInput) : Except Err CompletionReport := do
  TaskSchema.parse (TaskSchema.completionReport env input)
  let range := resolveRange now input
  let tasks := TaskRepository.findCompletedInRange env host db range.1 range.2 input.projectId
    input.assignee
  let rows := tasks.map fun t => t.reportRow fun created completed =>
    host.dateParse completed - host.dateParse created
  pure
    { range := range
      total := rows.length
      rows := rows
      byProject := aggregate (fun a b => host.localeLe a.repr b.repr) (rows.map (·.projectId))
      byAssignee := aggregate host.localeLe (rows.map fun r => r.assignee.getD unassignedKey)
      byPriority := aggregate (fun a b => host.localeLe a.text b.text) (rows.map (·.priority))
      dailyThroughput := aggregate (fun a b => decide (a ≤ b)) (rows.map (·.completedAt.day)) }

/-- `aggregate` counts its keys. -/
theorem counts_aggregate {K : Type} [DecidableEq K] (le : K → K → Bool) (keys : List K) :
    Counts (aggregate le keys) keys :=
  (counts_countsOf keys).perm (List.perm_insertionSort _ _)

end WoodFiredTasks
