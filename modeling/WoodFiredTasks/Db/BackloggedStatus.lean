import Mathlib.Data.List.Sort
import WoodFiredTasks.Types.Task

set_option autoImplicit false

/-! # Migration 005

`src/db/migrations/005-backlogged-status.ts`, on the tables of migrations 001 to 004. Tables are
lists of rows in the order of their rowids, which is the order a scan returns. The statements run
in one transaction, where the foreign keys stay enforced (`PRAGMA foreign_keys = OFF` does
nothing there): a statement that violates a constraint throws, and the migration with it.

`parent_task_id` refers to the table that the row is in, under its present name; a rename takes
the reference along. Indexes, the full-text index and its triggers hold no rows of their own and
are left out. -/

namespace WoodFiredTasks.BackloggedStatus

/-! ## Tables -/

/-- A row of `tasks` after migration 004. -/
structure TaskRow where
  id : Nat
  title : String
  description : Option String
  status : TaskStatus
  priority : TaskPriority
  projectId : Nat
  parentTaskId : Option Nat
  assignee : Option String
  createdBy : String
  dueDate : Option String
  createdAt : String
  updatedAt : String
  estimatedMinutes : Option Int
  version : Int
  claimedAt : Option String
  deriving DecidableEq, Repr

/-- A value of SQLite. -/
inductive Value where
  | null
  | integer (n : Int)
  | real (q : ℚ)
  | text (s : String)
  | blob (bytes : List UInt8)
  deriving DecidableEq, Repr

/-- `Record<string, unknown>`: a row as `SELECT *` returns it. -/
abbrev Row := List (String × Value)

/-- `TASK_CHILD_TABLES`. -/
inductive ChildTable where
  | taskTags | taskDependencies | taskComments
  deriving DecidableEq, Repr

def taskChildTables : List ChildTable := [.taskTags, .taskDependencies, .taskComments]

/-- What migrations 001 to 003 declare of a child table: its columns, those that refer to
    `tasks(id)`, the `UNIQUE` column lists and the columns that a `CHECK` keeps different. -/
structure ChildSchema where
  columns : List String
  references : List String
  unique : List (List String)
  different : List (String × String)

def ChildTable.schema : ChildTable → ChildSchema
  | .taskTags =>
    { columns := ["id", "task_id", "tag"]
      references := ["task_id"]
      unique := [["task_id", "tag"]]
      different := [] }
  | .taskDependencies =>
    { columns := ["id", "task_id", "blocks_task_id", "created_at"]
      references := ["task_id", "blocks_task_id"]
      unique := [["task_id", "blocks_task_id"]]
      different := [("task_id", "blocks_task_id")] }
  | .taskComments =>
    { columns := ["id", "task_id", "author", "content", "created_at", "updated_at"]
      references := ["task_id"]
      unique := []
      different := [] }

/-- A tasks table: the statuses that its `CHECK` admits, and its rows. -/
structure TaskTable where
  statuses : List TaskStatus
  rows : List TaskRow

structure Database where
  /-- Ids of the rows of `projects`. -/
  projects : List Nat
  tasks : Option TaskTable
  tasksNew : Option TaskTable
  /-- The child tables, as far as they exist. -/
  children : ChildTable → Option (List Row)

/-- The value of a column. -/
def Row.get (row : Row) (column : String) : Value := (row.lookup column).getD .null

/-- `row['id']`. -/
def Row.id (row : Row) : Value := row.get "id"

/-- The rowid, by which a table is ordered. -/
def Row.rowid (row : Row) : Int :=
  match row.id with
  | .integer n => n
  | _ => 0

/-- The ids of a tasks table, as values. -/
def TaskTable.ids (t : TaskTable) : List Value := t.rows.map fun r => .integer r.id

/-! ## Statements -/

/-- `CREATE TABLE tasks_new` with a `CHECK` on the status. -/
def createTasksNew (statuses : List TaskStatus) (db : Database) : Option Database :=
  match db.tasksNew with
  | some _ => none
  | none => some { db with tasksNew := some ⟨statuses, []⟩ }

/-- The constraints of a tasks table, which are checked when a statement ends. -/
def TaskTable.consistent (projects : List Nat) (t : TaskTable) : Bool :=
  decide (t.rows.map TaskRow.id).Nodup &&
    t.rows.all fun r =>
      decide (r.status ∈ t.statuses) && decide (r.projectId ∈ projects) &&
        r.parentTaskId.all fun p => decide (p ∈ t.rows.map TaskRow.id)

/-- `INSERT INTO tasks_new SELECT … FROM tasks`. -/
def copyTasks (db : Database) : Option Database :=
  match db.tasks, db.tasksNew with
  | some t, some new =>
    let filled : TaskTable := { new with rows := new.rows ++ t.rows }
    if filled.consistent db.projects then some { db with tasksNew := some filled } else none
  | _, _ => none

/-- Does a child row refer to one of these tasks? -/
def refersTo (schema : ChildSchema) (ids : List Value) (row : Row) : Bool :=
  schema.references.any fun column => decide (row.get column ∈ ids)

/-- `DROP TABLE tasks`: the implicit DELETE takes along the child rows that refer to its rows. -/
def dropTasks (db : Database) : Option Database :=
  match db.tasks with
  | none => none
  | some t =>
    some { db with
      tasks := none
      children := fun table =>
        (db.children table).map fun rows =>
          rows.filter fun row => !refersTo table.schema t.ids row }

/-- `ALTER TABLE tasks_new RENAME TO tasks`. -/
def renameTasksNew (db : Database) : Option Database :=
  match db.tasks, db.tasksNew with
  | none, some t => some { db with tasks := some t, tasksNew := none }
  | _, _ => none

/-- `UPDATE tasks SET status = 'open' WHERE status = 'backlogged'`. -/
def reopenBacklogged (db : Database) : Option Database :=
  match db.tasks with
  | none => none
  | some t =>
    let rows := t.rows.map fun r => if r.status = .backlogged then { r with status := .open } else r
    if rows.all fun r => decide (r.status ∈ t.statuses) then
      some { db with tasks := some { t with rows } }
    else none

/-- The rows agree on some `UNIQUE` column list. -/
def clash (schema : ChildSchema) (row row' : Row) : Bool :=
  schema.unique.any fun columns => columns.all fun c => decide (row.get c = row'.get c)

/-- `INSERT INTO <child table>`. -/
def insertChild (schema : ChildSchema) (tasks : TaskTable) (row : Row) (rows : List Row) :
    Option (List Row) :=
  if rows.any (fun row' => decide (row'.id = row.id) || clash schema row row') then none
  else if schema.different.any (fun c => decide (row.get c.1 = row.get c.2)) then none
  else if schema.references.all fun c => decide (row.get c ∈ tasks.ids) then
    some (rows.orderedInsert (fun a b => a.rowid ≤ b.rowid) row)
  else none

/-! ## The migration -/

/-- `ChildSnapshot`. -/
abbrev ChildSnapshot := ChildTable → Option (List Row)

/-- `snapshotChildTables`: the tables that exist. -/
def snapshotChildTables (db : Database) : ChildSnapshot := db.children

/-- The loop over the saved rows of a table. -/
def restoreRows (schema : ChildSchema) (tasks : TaskTable) (columns : List String)
    (surviving : List Value) : List Row → List Row → Option (List Row)
  | [], rows => some rows
  | row :: saved, rows =>
    if row.id ∈ surviving then restoreRows schema tasks columns surviving saved rows
    else match insertChild schema tasks (columns.map fun c => (c, row.get c)) rows with
      | none => none
      | some rows' => restoreRows schema tasks columns surviving saved rows'

/-- One pass of the loop of `restoreChildTables`. -/
def restoreTable (snapshot : ChildSnapshot) (db : Database) (table : ChildTable) :
    Option Database :=
  match snapshot table with
  | none | some [] => some db
  | some (first :: saved) =>
    match db.children table, db.tasks with
    | some rows, some tasks =>
      let columns := first.map Prod.fst
      (restoreRows table.schema tasks columns (rows.map Row.id) (first :: saved) rows).map
        fun rows' => { db with children := Function.update db.children table (some rows') }
    | _, _ => none

/-- `restoreChildTables`. -/
def restoreChildTables (snapshot : ChildSnapshot) (db : Database) : Option Database :=
  taskChildTables.foldlM (restoreTable snapshot) db

/-- The rebuild that `up` and `down` share, around a new `CHECK` on the status. -/
def rebuild (snapshot : ChildSnapshot) (statuses : List TaskStatus) (db : Database) :
    Option Database :=
  createTasksNew statuses db >>= copyTasks >>= dropTasks >>= renameTasksNew >>=
    restoreChildTables snapshot

/-- The statuses before the migration. -/
def oldStatuses : List TaskStatus := [.open, .inProgress, .done, .closed, .blocked]

/-- The statuses after it. -/
def newStatuses : List TaskStatus := [.open, .inProgress, .done, .closed, .blocked, .backlogged]

/-- `up`; `none` when it throws, which rolls it back. -/
def up (db : Database) : Option Database := rebuild (snapshotChildTables db) newStatuses db

/-- `down`: the snapshot is taken before the backlogged tasks are reopened. -/
def down (db : Database) : Option Database :=
  reopenBacklogged db >>= rebuild (snapshotChildTables db) oldStatuses

end WoodFiredTasks.BackloggedStatus
