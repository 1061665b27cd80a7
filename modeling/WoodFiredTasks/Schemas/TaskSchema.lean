import WoodFiredTasks.World

set_option autoImplicit false

/-! # Task schemas

`CreateTaskSchema`, `UpdateTaskSchema` and `ClaimTaskSchema` (`src/schemas/task.schema.ts`) on
inputs that already have the right shape: what is left are the bounds of their fields. A field
check is a list of issues, each with the path of its field. A number that must be an integer is
a natural number here, so of `positive()` only the zero is left. -/

namespace WoodFiredTasks

/-- The body of `create_task`, with the schema's defaults. -/
structure CreateTaskInput where
  title : String
  description : Option String := none
  priority : TaskPriority := .medium
  projectId : Nat
  parentTaskId : Option Nat := none
  estimatedMinutes : Option Nat := none
  assignee : Option String := none
  createdBy : String
  dueDate : Option String := none
  tags : List String := []
  acceptanceCriteria : Option String := none
  createdByUserId : Option Nat := none
  assigneeUserId : Option Nat := none
  wsjf : Option WsjfWriteDTO := none
  deriving DecidableEq, Repr

/-- The body of `update_task`: a patch of the row, and the blockers of an atomic block. -/
structure UpdateTaskInput extends UpdateTaskDTO where
  blockedBy : Option (List Nat) := none
  deriving DecidableEq, Repr

namespace TaskSchema

/-- A broken rule: the path of the field and the message. -/
abbrev Issue := String × Message

/-- `String.prototype.length`: UTF-16 code units. -/
def utf16Length (s : String) : Nat :=
  (s.toList.map fun c => if c.val < 0x10000 then 1 else 2).sum

/-- The field's measure is at least `n`. -/
def atLeast (path : String) (n : Nat) (length : Nat) (message : Message := .schema (.minLength n)) :
    List Issue :=
  if length < n then [(path, message)] else []

/-- The field's measure is at most `n`. -/
def atMost (path : String) (n : Nat) (length : Nat) (message : Message := .schema (.maxLength n)) :
    List Issue :=
  if n < length then [(path, message)] else []

/-- The field is a positive integer. -/
def positive (path : String) (n : Nat) (message : Message := .schema .positive) : List Issue :=
  if n = 0 then [(path, message)] else []

/-- The issues of a field that may be missing. -/
def optional {α : Type} (value : Option α) (check : α → List Issue) : List Issue :=
  match value with
  | none => []
  | some a => check a

/-- The issues of the elements of an array, under the path of the array. -/
def elements {α : Type} (path : String) (values : List α) (check : String → α → List Issue) :
    List Issue :=
  values.zipIdx.flatMap fun (a, idx) => check s!"{path}.{idx}" a

/-- `WsjfEvidenceSchema`: no empty span. -/
def wsjfEvidence (path : String) (e : WsjfEvidence) : List Issue :=
  let span (name : String) (s : String) : List Issue :=
    atLeast s!"{path}.{name}" 1 (utf16Length s) (.text s!"evidence.{name} must be a non-empty span")
  span "value" e.value ++ span "timeCriticality" e.timeCriticality
    ++ span "riskOpportunity" e.riskOpportunity ++ span "jobSize" e.jobSize

/-- `WsjfWriteSchema`. -/
def wsjfWrite (w : WsjfWriteDTO) : List Issue :=
  optional w.evidence (wsjfEvidence "wsjf.evidence")
    ++ optional w.classifications fun c => wsjfEvidence "wsjf.classifications.evidence" c.evidence

/-- `VerificationEvidenceSchema`. -/
def verificationEvidence (env : Env) (e : VerificationEvidence) : List Issue :=
  let path := "verification_evidence"
  let identifier (name : String) (s : String) : List Issue :=
    atLeast s!"{path}.{name}" 1 (utf16Length s) ++ atMost s!"{path}.{name}" 200 (utf16Length s)
  optional e.checks (fun checks => atMost s!"{path}.checks" 50 checks.length
      ++ elements s!"{path}.checks" checks fun p c =>
        atLeast s!"{p}.name" 1 (utf16Length c.name) ++ atMost s!"{p}.name" 200 (utf16Length c.name)
          ++ atMost s!"{p}.evidence_url_or_text" 2000 (utf16Length c.evidenceUrlOrText))
    ++ optional e.verifierSessionId (identifier "verifier_session_id")
    ++ optional e.verifierRequestId (identifier "verifier_request_id")
    ++ optional e.verifiedAt fun s =>
      if env.isDatetime s then [] else [(s!"{path}.verified_at", .schema .datetime)]

/-- The `tags` field of both schemas. -/
def tags (ts : List String) : List Issue :=
  atMost "tags" 20 ts.length ++ elements "tags" ts fun p tag =>
    atLeast p 1 (utf16Length tag) ++ atMost p 50 (utf16Length tag)

/-- `CreateTaskSchema`. -/
def createTask (env : Env) (input : CreateTaskInput) : List Issue :=
  atLeast "title" 1 (utf16Length input.title) (.text "Title is required")
    ++ atMost "title" 255 (utf16Length input.title) (.text "Title must be 255 characters or less")
    ++ optional input.description (fun s => atMost "description" 5000 (utf16Length s))
    ++ positive "project_id" input.projectId (.text "Project ID must be a positive integer")
    ++ optional input.parentTaskId (fun p => positive "parent_task_id" p)
    ++ optional input.estimatedMinutes (fun n =>
        atMost "estimated_minutes" 10080 n (.schema (.maxNumber 10080)))
    ++ optional input.assignee (fun s => atMost "assignee" 100 (utf16Length s))
    ++ atLeast "created_by" 1 (utf16Length input.createdBy) (.text "Created by is required")
    ++ atMost "created_by" 100 (utf16Length input.createdBy)
    ++ optional input.dueDate (fun s =>
        if env.isDatetime s then [] else [("due_date", .text "Due date must be ISO8601 format")])
    ++ tags input.tags
    ++ optional input.acceptanceCriteria (fun s => atMost "acceptance_criteria" 5000 (utf16Length s))
    ++ optional input.createdByUserId (fun u => positive "created_by_user_id" u)
    ++ optional input.assigneeUserId (fun u => positive "assignee_user_id" u)
    ++ optional input.wsjf wsjfWrite

/-- `UpdateTaskSchema`. -/
def updateTask (env : Env) (input : UpdateTaskInput) : List Issue :=
  optional input.title (fun s =>
      atLeast "title" 1 (utf16Length s) ++ atMost "title" 255 (utf16Length s))
    ++ optional input.description.join (fun s => atMost "description" 5000 (utf16Length s))
    ++ optional input.parentTaskId.join (fun p => positive "parent_task_id" p)
    ++ optional input.estimatedMinutes.join (fun n =>
        atMost "estimated_minutes" 10080 n (.schema (.maxNumber 10080)))
    ++ optional input.assignee.join (fun s => atMost "assignee" 100 (utf16Length s))
    ++ optional input.dueDate.join (fun s =>
        if env.isDatetime s then [] else [("due_date", .schema .datetime)])
    ++ optional input.tags tags
    ++ optional input.assigneeUserId.join (fun u => positive "assignee_user_id" u)
    ++ optional input.acceptanceCriteria.join (fun s =>
        atMost "acceptance_criteria" 5000 (utf16Length s))
    ++ optional input.verificationEvidence.join (verificationEvidence env)
    ++ optional input.wsjf.join wsjfWrite
    ++ optional input.blockedBy fun ids =>
        atLeast "blocked_by" 1 ids.length ++ atMost "blocked_by" 50 ids.length
          ++ elements "blocked_by" ids fun p id => positive p id

/-- `ClaimTaskSchema`. -/
def claimTask (assignee : String) : List Issue :=
  atLeast "assignee" 1 (utf16Length assignee) (.text "Assignee is required")
    ++ atMost "assignee" 100 (utf16Length assignee)

/-- `safeParse`, with the field errors as the services raise them. -/
def parse (issues : List Issue) : Except Err Unit :=
  match issues with
  | [] => .ok ()
  | issues => .error (.validation (.ofIssues issues))

/-- A status-only patch breaks no rule. -/
theorem updateTask_status (env : Env) (s : TaskStatus) :
    updateTask env { status := some s } = [] := by
  simp [updateTask, optional]

end TaskSchema

end WoodFiredTasks

/-! ## Project schemas

`CreateProjectSchema` and `UpdateProjectSchema` (`src/schemas/project.schema.ts`), as in
`TaskSchema.lean`: the inputs have the right shape already, and what is left are the bounds. The
model policy and the SCM default of a project are no part of the model. -/

namespace WoodFiredTasks

/-- The body of `create_project`; an absent member and an explicit `null` store the same. -/
structure CreateProjectInput where
  name : String
  description : Option String := none
  valueCharter : Option ValueCharter := none
  deriving DecidableEq, Repr

/-- The body of `update_project`. -/
structure UpdateProjectInput where
  name : Option String := none
  description : Option (Option String) := none
  valueCharter : Option (Option ValueCharter) := none
  deriving DecidableEq, Repr

namespace ProjectSchema

open TaskSchema (Issue utf16Length atLeast atMost optional elements)

/-- `ValueThemeSchema`; the weight is a tier by its type. -/
def valueTheme (path : String) (t : ValueTheme) : List Issue :=
  atLeast s!"{path}.name" 1 (utf16Length t.name) ++ atMost s!"{path}.name" 200 (utf16Length t.name)
    ++ atMost s!"{path}.description" 2000 (utf16Length t.description)

/-- `ValueCharterSchema`. -/
def valueCharter (c : ValueCharter) : List Issue :=
  let path := "value_charter"
  atLeast s!"{path}.mission" 1 (utf16Length c.mission)
    ++ atMost s!"{path}.mission" 5000 (utf16Length c.mission)
    ++ atMost s!"{path}.value_themes" 20 c.valueThemes.length
    ++ elements s!"{path}.value_themes" c.valueThemes valueTheme
    ++ atMost s!"{path}.time_context" 5000 (utf16Length c.timeContext)
    ++ atMost s!"{path}.risk_posture" 5000 (utf16Length c.riskPosture)
    ++ atMost s!"{path}.out_of_scope" 50 c.outOfScope.length
    ++ elements s!"{path}.out_of_scope" c.outOfScope (fun p s => atMost p 500 (utf16Length s))
    ++ atLeast s!"{path}.updated_at" 1 (utf16Length c.updatedAt)

/-- The name of both schemas. -/
def projectName (name : String) : List Issue :=
  atLeast "name" 1 (utf16Length name) (.text "Name is required")
    ++ atMost "name" 100 (utf16Length name) (.text "Name must be 100 characters or less")

/-- `CreateProjectSchema`. -/
def createProject (input : CreateProjectInput) : List Issue :=
  projectName input.name
    ++ optional input.description (fun s => atMost "description" 1000 (utf16Length s))
    ++ optional input.valueCharter valueCharter

/-- `UpdateProjectSchema`. -/
def updateProject (input : UpdateProjectInput) : List Issue :=
  optional input.name projectName
    ++ optional input.description.join (fun s => atMost "description" 1000 (utf16Length s))
    ++ optional input.valueCharter.join valueCharter

end ProjectSchema

end WoodFiredTasks
