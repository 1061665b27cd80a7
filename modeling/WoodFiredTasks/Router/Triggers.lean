import WoodFiredTasks.Events.Types
import WoodFiredTasks.Router.Template

set_option autoImplicit false

/-! # Triggers

The rules of the router: what `loadAndValidateTriggers` accepts
(`packages/wft-router/src/config/triggers-schema.ts`) and when the `where:` block of a rule holds
of an event (`dispatch/predicate.ts`). Reading the file, its permissions and YAML are left out: a
config is what the schema makes of a file whose objects have the keys and types asked for, and
`accepted` says the rest of what is checked. `max_retries` and the `max_dispatches_per_minute` of a
rule are read by nothing. -/

namespace WoodFiredTasks.Router

/-- `ALLOWED_EVENT_TYPES` -/
inductive AllowedEventType where
  | taskCreated | taskUpdated | taskDeleted | taskStatusChanged | taskClaimed | taskClaimReleased
  | projectCreated | projectUpdated | projectDeleted
  deriving DecidableEq

def AllowedEventType.text : AllowedEventType → String
  | .taskCreated => "task.created"
  | .taskUpdated => "task.updated"
  | .taskDeleted => "task.deleted"
  | .taskStatusChanged => "task.status_changed"
  | .taskClaimed => "task.claimed"
  | .taskClaimReleased => "task.claim_released"
  | .projectCreated => "project.created"
  | .projectUpdated => "project.updated"
  | .projectDeleted => "project.deleted"

/-- A `project:` filter, by slug or by id. -/
inductive ProjectFilter where
  | slug (s : String)
  | id (n : Int)
  deriving DecidableEq

/-- `WhereSchema` -/
structure Where where
  project : Option ProjectFilter := none
  status : Option TaskStatus := none
  statusIn : Option (List TaskStatus) := none
  fromStatus : Option TaskStatus := none
  toStatus : Option TaskStatus := none
  tagsContainsAll : Option (List String) := none
  tagsContainsAny : Option (List String) := none
  taskId : Option Int := none
  parentId : Option Int := none
  assignee : Option String := none
  source : Option EventSource := none
  eventType : Option AllowedEventType := none
  deriving DecidableEq

/-- `HandlerEnum` -/
inductive HandlerName where
  | createTaskInProject | webhookPost | shellExec | agentSessionDispatch
  deriving DecidableEq

/-- `RuleSchema`: a rule with its keys `on:`, `where:`, `do:` and `with:`. -/
structure Rule where
  name : String
  on : AllowedEventType
  whereBlock : Where := {}
  doHandler : HandlerName
  withBlock : List (String × Json)
  debounceMs : Option Nat := none
  idempotencyWindowS : Option Nat := none
  sweepOnStart : Option Bool := none
  sweepIntervalS : Option Nat := none

/-- `DefaultsSchema` -/
structure Defaults where
  debounceMs : Option Nat := none
  idempotencyWindowS : Option Nat := none
  maxDispatchesPerMinute : Option Nat := none
  sweepOnStart : Option Bool := none
  sweepIntervalS : Option Nat := none

/-- `TriggersConfig` -/
structure TriggersConfig where
  defaults : Defaults := {}
  rules : List Rule

/-! ## What is accepted -/

/-- The refinements of `WhereSchema`. -/
def Where.parses (w : Where) : Bool :=
  w.statusIn.all (!·.isEmpty) && w.tagsContainsAll.all (!·.isEmpty) &&
    w.tagsContainsAny.all (!·.isEmpty) && w.taskId.all (0 < ·) && w.parentId.all (0 < ·) &&
    w.assignee.all (!·.isEmpty)

/-- The refinements of `RuleSchema`. -/
def Rule.parses (rule : Rule) : Bool :=
  !rule.name.isEmpty && rule.whereBlock.parses && rule.sweepIntervalS.all (0 < ·)

/-- The refinements of `DefaultsSchema`. -/
def Defaults.parses (defaults : Defaults) : Bool :=
  defaults.maxDispatchesPerMinute.all (0 < ·) && defaults.sweepIntervalS.all (0 < ·)

/-- The refinements of `TriggersConfigSchema`. Nothing is asked of the names of two rules. -/
def TriggersConfig.parses (config : TriggersConfig) : Bool :=
  config.defaults.parses && !config.rules.isEmpty && config.rules.all Rule.parses

def validateTemplating (config : TriggersConfig) : List TemplatingIssue :=
  (config.rules.mapIdx fun i rule =>
    walkWithFields rule.withBlock ("rules[" ++ toString i ++ "].with")).flatten

/-- `loadAndValidateTriggers` accepts the config. -/
def TriggersConfig.accepted (config : TriggersConfig) : Bool :=
  config.parses && (validateTemplating config).isEmpty

/-! ## Predicates -/

/-- `source` as text. -/
def sourceText : EventSource → String
  | .user => "user"
  | .workflow => "workflow"

def matchProject (event : EventPayloadShape) : ProjectFilter → Bool
  | .slug s => event.task.bind (·.projectSlug) = some s
  | .id n => event.task.bind (·.projectId) = some n

/-- An operator that is absent asks nothing; one whose field the event lacks fails. -/
def evaluateWhere (w : Where) (event : EventPayloadShape) : Bool :=
  let status := event.task.bind (·.status)
  let tags := event.task.bind (·.tags)
  w.project.all (matchProject event) &&
  w.status.all (fun s => status = some s.text) &&
  w.statusIn.all (fun allowed => status.any fun s => s ∈ allowed.map TaskStatus.text) &&
  w.fromStatus.all (fun s => event.metadata.bind (·.fromStatus) = some s.text) &&
  w.toStatus.all (fun s => event.metadata.bind (·.toStatus) = some s.text) &&
  w.tagsContainsAll.all (fun required => tags.any fun ts => required.all (· ∈ ts)) &&
  w.tagsContainsAny.all (fun candidates => tags.any fun ts => candidates.any (· ∈ ts)) &&
  w.taskId.all (fun n => event.task.bind (·.id) = some n) &&
  w.parentId.all (fun n => event.task.bind (·.parentTaskId) = some (some n)) &&
  w.assignee.all (fun s => event.task.bind (·.assignee) = some (some s)) &&
  w.source.all (fun s => event.metadata.bind (·.source) = some (sourceText s)) &&
  w.eventType.all (fun t => event.type = t.text)

/-- The rule is for the event: its `on:` is the event's type and its `where:` holds. -/
def Rule.matches (rule : Rule) (event : EventPayloadShape) : Bool :=
  rule.on.text = event.type && evaluateWhere rule.whereBlock event

end WoodFiredTasks.Router
