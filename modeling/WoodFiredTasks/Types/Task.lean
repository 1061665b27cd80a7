import Mathlib.Data.Rat.Floor
import WoodFiredTasks.Types.Wsjf

set_option autoImplicit false

/-! # Task types

The task record, its status machine and the payloads of the task calls (`src/types/task.ts`). A
nullable column is an `Option`. A field of an update that may be absent, null or a value is an
`Option` of it: `none` is an absent key (the column stays), `some none` is an explicit `null`
(the column is cleared).

Instants are kept as the text that stands in the column, because the code compares texts:
JavaScript writes `YYYY-MM-DDTHH:MM:SS.sssZ`, SQLite's `datetime('now')` writes
`YYYY-MM-DD HH:MM:SS`. -/

namespace WoodFiredTasks

/-! ## Status -/

/-- `TASK_STATUSES`. -/
inductive TaskStatus where
  | «open» | inProgress | done | closed | blocked | backlogged
  deriving DecidableEq, Repr

/-- The status as the text stored and shown. -/
def TaskStatus.text : TaskStatus → String
  | .open => "open"
  | .inProgress => "in_progress"
  | .done => "done"
  | .closed => "closed"
  | .blocked => "blocked"
  | .backlogged => "backlogged"

/-- `VALID_STATUS_TRANSITIONS`. -/
def validStatusTransitions : TaskStatus → List TaskStatus
  | .open => [.inProgress, .blocked, .closed, .backlogged]
  | .inProgress => [.done, .blocked, .open]
  | .blocked => [.open, .inProgress]
  | .done => [.closed, .open]
  | .closed => [.open]
  | .backlogged => [.open]

/-- `TASK_PRIORITIES`. -/
inductive TaskPriority where
  | low | medium | high | urgent
  deriving DecidableEq, Repr

/-- The priority as the text stored and shown. -/
def TaskPriority.text : TaskPriority → String
  | .low => "low"
  | .medium => "medium"
  | .high => "high"
  | .urgent => "urgent"

/-! ## Verification evidence -/

inductive VerificationVerdict where
  | pass | fail | partial_ | notVerified
  deriving DecidableEq, Repr

inductive VerificationCheckStatus where
  | pass | fail | skip
  deriving DecidableEq, Repr

structure VerificationCheck where
  name : String
  status : VerificationCheckStatus
  evidenceUrlOrText : String
  deriving DecidableEq, Repr

structure VerificationEvidence where
  verdict : VerificationVerdict
  checks : Option (List VerificationCheck) := none
  verifierSessionId : Option String := none
  verifierRequestId : Option String := none
  verifiedAt : Option String := none
  deriving DecidableEq, Repr

/-! ## Instants -/

/-- A stored instant: JavaScript's ISO text of a millisecond, or SQLite's text of a second. -/
inductive Stamp where
  | iso (ms : Nat)
  | sqlite (sec : Nat)
  deriving DecidableEq, Repr

namespace Stamp

/-- The calendar day, which both texts start with. -/
def day : Stamp → Nat
  | iso ms => ms / 86400000
  | sqlite sec => sec / 86400

/-- The order of the texts. On one day SQLite's text comes first: its eleventh character is a
    blank, the ISO text's is a `T`. -/
def le : Stamp → Stamp → Bool
  | iso a, iso b => a ≤ b
  | sqlite a, sqlite b => a ≤ b
  | iso a, sqlite b => (iso a).day < (sqlite b).day
  | sqlite a, iso b => (sqlite a).day ≤ (iso b).day

/-- The second of the instant. -/
def second : Stamp → Nat
  | iso ms => ms / 1000
  | sqlite sec => sec

/-- `normalizeIsoTimestamp`. -/
def normalizeIso : Stamp → Stamp
  | iso ms => iso ms
  | sqlite sec => iso (sec * 1000)

/-- A text that is at most one of SQLite's is at most every later one. -/
theorem le_sqlite_mono {a : Stamp} {m n : Nat} (h : a.le (sqlite m) = true) (hmn : m ≤ n) :
    a.le (sqlite n) = true := by
  cases a with
  | iso ms =>
    simp only [le, decide_eq_true_eq] at h ⊢
    simp only [day] at h ⊢
    have := Nat.div_le_div_right (c := 86400) hmn
    omega
  | sqlite sec =>
    simp only [le, decide_eq_true_eq] at h ⊢
    omega

end Stamp

/-! ## Records -/

/-- A row of `tasks`, with its rows of `task_tags`. The joined display name of the project is
    left out. -/
structure Task where
  id : Nat
  title : String
  description : Option String
  status : TaskStatus
  priority : TaskPriority
  projectId : Nat
  parentTaskId : Option Nat
  estimatedMinutes : Option Nat
  assignee : Option String
  createdBy : String
  dueDate : Option String
  createdAt : Stamp
  updatedAt : Stamp
  version : Nat
  claimedAt : Option Stamp
  completedAt : Option Stamp
  acceptanceCriteria : Option String
  verificationEvidence : Option VerificationEvidence
  wsjf : WsjfColumns
  createdByUserId : Option Nat
  assigneeUserId : Option Nat
  tags : List String
  deriving DecidableEq, Repr

/-- One ranked value theme of a charter. -/
structure ValueTheme where
  name : String
  weight : Fib
  description : String
  deriving DecidableEq, Repr

/-- The value charter of a project, the reference frame of its scores. -/
structure ValueCharter where
  mission : String
  valueThemes : List ValueTheme
  timeContext : String
  riskPosture : String
  outOfScope : List String
  interviewVersion : Nat
  updatedAt : String
  deriving DecidableEq, Repr

/-- A row of `projects`. -/
structure Project where
  id : Nat
  name : String
  description : Option String := none
  valueCharter : Option ValueCharter := none
  deriving DecidableEq, Repr

/-- A row of `task_dependencies`: `taskId` blocks `blocksTaskId`. -/
structure Dependency where
  id : Nat
  taskId : Nat
  blocksTaskId : Nat
  createdAt : Stamp
  deriving DecidableEq, Repr

/-- What `TaskRepository.create` is given. -/
structure CreateTaskDTO where
  title : String
  description : Option String := none
  status : TaskStatus
  priority : TaskPriority
  projectId : Nat
  parentTaskId : Option Nat := none
  estimatedMinutes : Option Nat := none
  assignee : Option String := none
  createdBy : String
  dueDate : Option String := none
  createdByUserId : Option Nat := none
  assigneeUserId : Option Nat := none
  acceptanceCriteria : Option String := none
  wsjf : Option WsjfWriteDTO := none
  deriving DecidableEq, Repr

/-- What `TaskRepository.update` is given. -/
structure UpdateTaskDTO where
  title : Option String := none
  description : Option (Option String) := none
  status : Option TaskStatus := none
  priority : Option TaskPriority := none
  parentTaskId : Option (Option Nat) := none
  estimatedMinutes : Option (Option Nat) := none
  assignee : Option (Option String) := none
  dueDate : Option (Option String) := none
  tags : Option (List String) := none
  assigneeUserId : Option (Option Nat) := none
  acceptanceCriteria : Option (Option String) := none
  verificationEvidence : Option (Option VerificationEvidence) := none
  wsjf : Option (Option WsjfWriteDTO) := none
  deriving DecidableEq, Repr

/-! ## Paging -/

def defaultPageLimit : Nat := 50
def defaultPageOffset : Nat := 0
def maxPageLimit : Nat := 500

/-- A JavaScript number: `none` is `NaN` or an infinity. -/
abbrev JsNumber := Option ℚ

structure PaginationOptions where
  limit : Option JsNumber := none
  offset : Option JsNumber := none

/-- `resolvePagination`: clamp a page request, falling back to the defaults. -/
def resolvePagination (pagination : PaginationOptions) : Nat × Nat :=
  let limit := match pagination.limit with
    | some (some q) => if q.den = 1 ∧ 0 < q.num then min q.num.toNat maxPageLimit else defaultPageLimit
    | _ => defaultPageLimit
  let offset := match pagination.offset with
    | some (some q) => if q.den = 1 ∧ 0 ≤ q.num then q.num.toNat else defaultPageOffset
    | _ => defaultPageOffset
  (limit, offset)

end WoodFiredTasks
