import WoodFiredTasks.Router.Template
import WoodFiredTasks.Schemas.TaskSchema

set_option autoImplicit false

/-! # The JSON body of a new task

`CreateTaskClientSchema` (`src/schemas/task.schema.ts`, with `wsjf.schema.ts`) on a JSON value:
first the shape of the object and of its fields, with no key that the schema does not know, then
the bounds of `TaskSchema.createTask`. The fields that the server derives itself are not among
the keys. -/

namespace WoodFiredTasks.TaskBody

open Router (Json)

abbrev Fields := List (String × Json)

/-! ## Values -/

def string : Json → Option String
  | .str s => some s
  | _ => none

def boolean : Json → Option Bool
  | .bool b => some b
  | _ => none

/-- `z.number()` -/
def number : Json → Option Rat
  | .num n => some n
  | _ => none

/-- `z.number().int()` of which the negative numbers are refused anyway; an integer is one that a
    double holds exactly. -/
def natural : Json → Option Nat
  | .num n => if n.den = 1 ∧ 0 ≤ n.num ∧ n.num < 2 ^ 53 then some n.num.toNat else none
  | _ => none

/-- `z.enum`, or a union of literals. -/
def oneOf {α : Type} (values : List (Json × α)) (same : Json → Json → Bool) (value : Json) :
    Option α :=
  (values.find? fun entry => same entry.1 value).map (·.2)

def sameString : Json → Json → Bool
  | .str s, .str t => s = t
  | _, _ => false

def sameNumber : Json → Json → Bool
  | .num m, .num n => m = n
  | _, _ => false

def enumOf {α : Type} (values : List (String × α)) : Json → Option α :=
  oneOf (values.map fun (s, a) => (.str s, a)) sameString

/-- `FibSchema` -/
def fib : Json → Option Fib :=
  oneOf [(.num 1, .one), (.num 2, .two), (.num 3, .three), (.num 5, .five), (.num 8, .eight),
    (.num 13, .thirteen)] sameNumber

def nullable {α : Type} (decode : Json → Option α) : Json → Option (Option α)
  | .null => some none
  | value => (decode value).map some

def array {α : Type} (decode : Json → Option α) : Json → Option (List α)
  | .arr items => items.mapM decode
  | _ => none

/-! ## Fields -/

/-- `.strict()`: the fields, if each of them is known. -/
def strictObject (keys : List String) : Json → Option Fields
  | .obj fields => if fields.all fun field => keys.contains field.1 then some fields else none
  | _ => none

def required {α : Type} (fields : Fields) (key : String) (decode : Json → Option α) : Option α :=
  (fields.lookup key).bind decode

def withDefault {α : Type} (fields : Fields) (key : String) (default : α)
    (decode : Json → Option α) : Option α :=
  match fields.lookup key with
  | none => some default
  | some value => decode value

/-- `.optional().nullable()` -/
def nullish {α : Type} (fields : Fields) (key : String) (decode : Json → Option α) :
    Option (Option α) :=
  withDefault fields key none (nullable decode)

/-! ## The score -/

def perComponent {α : Type} (decode : Json → Option α) (value : Json) :
    Option (PerComponent α) := do
  let fields ← strictObject ["value", "timeCriticality", "riskOpportunity", "jobSize"] value
  return {
    value := ← required fields "value" decode
    timeCriticality := ← required fields "timeCriticality" decode
    riskOpportunity := ← required fields "riskOpportunity" decode
    jobSize := ← required fields "jobSize" decode }

/-- `WsjfClassificationSchema` -/
def wsjfClassification (value : Json) : Option WsjfClassification := do
  let fields ← strictObject
    ["themeName", "alignment", "severity", "decay", "jobSizeTier", "evidence"] value
  return {
    themeName := ← required fields "themeName" (nullable string)
    alignment := ← required fields "alignment"
      (enumOf [("none", .none), ("weak", .weak), ("direct", .direct), ("core", .core)])
    severity := ← required fields "severity"
      (enumOf [("none", .none), ("tech_debt", .techDebt), ("security", .security),
        ("data_loss", .dataLoss), ("compliance", .compliance)])
    decay := ← required fields "decay"
      (nullable (enumOf [("flat", .flat), ("slow", .slow), ("fast", .fast)]))
    jobSizeTier := ← required fields "jobSizeTier" fib
    evidence := ← required fields "evidence" (perComponent string) }

/-- `WsjfFeaturesSchema` -/
def wsjfFeatures (value : Json) : Option WsjfFeatures := do
  let fields ← strictObject
    ["deadlineDate", "daysUntilDeadline", "transitiveDependents", "filesTouched",
      "charterVersion"] value
  return {
    deadlineDate := ← required fields "deadlineDate" (nullable string)
    daysUntilDeadline := ← required fields "daysUntilDeadline" (nullable number)
    transitiveDependents := ← required fields "transitiveDependents" number
    filesTouched := ← required fields "filesTouched" (nullable number)
    charterVersion := ← required fields "charterVersion" (nullable number) }

/-- `WSJF_HISTORY_TRIGGERS` -/
def historyTriggers : List (String × WsjfHistoryTrigger) :=
  [("create", .create), ("update", .update), ("decompose", .decompose),
    ("single_create", .singleCreate), ("rescore", .rescore), ("manual", .manual),
    ("propagation", .propagation), ("auto_size", .autoSize), ("boot_sweep", .bootSweep)]

/-- `WsjfWriteSchema` -/
def wsjfWrite (value : Json) : Option WsjfWriteDTO := do
  let fields ← strictObject
    ["value", "timeCriticality", "riskOpportunity", "jobSize", "evidence", "locked", "source",
      "classifications", "features", "manual", "trigger"] value
  return {
    value := ← required fields "value" fib
    timeCriticality := ← required fields "timeCriticality" fib
    riskOpportunity := ← required fields "riskOpportunity" fib
    jobSize := ← required fields "jobSize" fib
    evidence := ← nullish fields "evidence" (perComponent string)
    locked := ← nullish fields "locked" (perComponent boolean)
    source := ← nullish fields "source"
      (perComponent (enumOf [("auto", .auto), ("manual", .manual)]))
    classifications := ← nullish fields "classifications" wsjfClassification
    features := ← nullish fields "features" wsjfFeatures
    manual := ← withDefault fields "manual" false boolean
    trigger := ← withDefault fields "trigger" none fun v => (enumOf historyTriggers v).map some }

/-! ## The task -/

/-- The keys of `CreateTaskClientSchema`. -/
def createTaskKeys : List String :=
  ["title", "description", "priority", "project_id", "parent_task_id", "estimated_minutes",
    "assignee", "created_by", "due_date", "tags", "acceptance_criteria", "wsjf"]

def priorities : List (String × TaskPriority) :=
  [("low", .low), ("medium", .medium), ("high", .high), ("urgent", .urgent)]

/-- The input that a body of the right shape stands for. -/
def createTaskInput (body : Json) : Option CreateTaskInput := do
  let fields ← strictObject createTaskKeys body
  return {
    title := ← required fields "title" string
    description := ← nullish fields "description" string
    priority := ← withDefault fields "priority" .medium (enumOf priorities)
    projectId := ← required fields "project_id" natural
    parentTaskId := ← nullish fields "parent_task_id" natural
    estimatedMinutes := ← nullish fields "estimated_minutes" natural
    assignee := ← nullish fields "assignee" string
    createdBy := ← required fields "created_by" string
    dueDate := ← nullish fields "due_date" string
    tags := ← withDefault fields "tags" [] (array string)
    acceptanceCriteria := ← nullish fields "acceptance_criteria" string
    wsjf := ← nullish fields "wsjf" wsjfWrite }

/-- `CreateTaskClientSchema` accepts the body. -/
def acceptsCreateTask (env : Env) (body : Json) : Bool :=
  match createTaskInput body with
  | some input => (TaskSchema.createTask env input).isEmpty
  | none => false

/-- What is accepted keeps the bounds of the service's schema. -/
theorem issues_of_acceptsCreateTask {env : Env} {body : Json}
    (h : acceptsCreateTask env body = true) :
    ∃ input, createTaskInput body = some input ∧ TaskSchema.createTask env input = [] := by
  unfold acceptsCreateTask at h
  split at h
  · rename_i input hinput
    exact ⟨input, hinput, List.isEmpty_iff.1 h⟩
  · contradiction

end WoodFiredTasks.TaskBody
