import WoodFiredTasks.Db.Database
import WoodFiredTasks.Schemas.TaskBody

set_option autoImplicit false

/-! # The project binding

A token may be bound to a project. Before a handler runs, the projects that the request touches are
resolved from its route and its ids (`src/api/plugins/auth/project-binding.ts`), and each of them
has to be that project (`bindingSatisfiesProjects`, `src/schemas/pat-scope.schema.ts`).

Requests are taken as they are after their validation; the scope check in front of the binding is
left out. -/

namespace WoodFiredTasks.ProjectBinding

open Router (Json)
open TaskBody (Fields)

/-! ## Rules -/

/-- One place where a request can carry a project reference. -/
inductive ProjectSource where
  | projectParam (key : String)
  | projectQuery (key : String)
  | projectBody (key : String)
  | taskParam (key : String)
  | taskBody (key : String) (optional : Bool := false)
  | taskBodyArray (key : String) (optional : Bool := false)
  deriving DecidableEq

/-- How one route's target project is determined. -/
inductive BindingRule where
  | global
  | deny
  | resolve (sources : List ProjectSource)
  deriving DecidableEq

/-- `BINDING_RULES` -/
def bindingRules : List (String × BindingRule) :=
  [("/api/v1/audit-events", .deny),
    ("/health/detailed", .global),
    ("/api/v1/me", .global),
    ("/api/v1/me/tokens", .global),
    ("/api/v1/me/tokens/active", .global),
    ("/api/v1/me/tokens/:id", .global),
    ("/api/v1/models", .global),
    ("/api/v1/settings/model-policy", .global),
    ("/api/v1/projects/:id", .resolve [.projectParam "id"]),
    ("/api/v1/projects/:id/charter-history", .resolve [.projectParam "id"]),
    ("/api/v1/projects/:id/dependency-graph", .resolve [.projectParam "id"]),
    ("/api/v1/projects/:id/rescore", .resolve [.projectParam "id"]),
    ("/api/v1/projects/:id/rescore-runs", .resolve [.projectParam "id"]),
    ("/api/v1/projects/:id/resolve-model", .resolve [.projectParam "id"]),
    ("/api/v1/projects/:id/topology", .resolve [.projectParam "id"]),
    ("/api/v1/projects/:id/wsjf-health", .resolve [.projectParam "id"]),
    ("/api/v1/projects/:id/wsjf-ranking", .resolve [.projectParam "id"]),
    ("/api/v1/events", .resolve [.projectQuery "project_id"]),
    ("/api/v1/tasks/completion-report", .resolve [.projectQuery "project_id"]),
    ("/api/v1/tasks/:id", .resolve [.taskParam "id"]),
    ("/api/v1/tasks/:id/claim", .resolve [.taskParam "id"]),
    ("/api/v1/tasks/:id/comments", .resolve [.taskParam "id"]),
    ("/api/v1/tasks/:id/comments/:commentId", .resolve [.taskParam "id"]),
    ("/api/v1/tasks/:id/dependencies", .resolve [.taskParam "id"]),
    ("/api/v1/tasks/:id/dependencies/:blocksTaskId",
      .resolve [.taskParam "id", .taskParam "blocksTaskId"]),
    ("/api/v1/tasks/:id/score-history", .resolve [.taskParam "id"]),
    ("/api/v1/tasks/:id/subtasks", .resolve [.taskParam "id"]),
    ("/api/v1/tasks/:id/wsjf", .resolve [.taskParam "id"])]

/-- `METHOD_BINDING_RULES` -/
def methodBindingRules : List (String × BindingRule) :=
  [("GET /api/v1/projects", .deny),
    ("HEAD /api/v1/projects", .deny),
    ("POST /api/v1/projects", .deny),
    ("PUT /api/v1/settings/model-policy", .deny),
    ("GET /api/v1/tasks", .resolve [.projectQuery "project_id"]),
    ("HEAD /api/v1/tasks", .resolve [.projectQuery "project_id"]),
    ("POST /api/v1/tasks",
      .resolve [.projectBody "project_id", .taskBody "parent_task_id" true]),
    ("PUT /api/v1/tasks/:id",
      .resolve [.taskParam "id", .taskBodyArray "blocked_by" true, .taskBody "parent_task_id" true]),
    ("POST /api/v1/tasks/:id/dependencies",
      .resolve [.taskParam "id", .taskBody "blocks_task_id"])]

/-- `PREFIX_BINDING_RULES` -/
def prefixBindingRules : List (String × BindingRule) := [("/docs", .global)]

def normalizeRouteUrl (url : String) : String :=
  if url.toList.length > 1 ∧ url.toList.getLast? = some '/' then String.ofList url.toList.dropLast
  else url

/-- The rule of a route, `none` if it is not classified. -/
def findBindingRule (method url : String) : Option BindingRule :=
  let normalized := normalizeRouteUrl url
  let verb := String.ofList (method.toList.map Char.toUpper)
  (methodBindingRules.lookup (verb ++ " " ++ normalized)).or <|
    (bindingRules.lookup normalized).or <|
      (prefixBindingRules.find? fun entry =>
        normalized == entry.1 || (entry.1 ++ "/").toList.isPrefixOf normalized.toList).map (·.2)

/-! ## Targets -/

/-- A request as the gate sees it: `url` is that of the route. -/
structure RoutedRequest where
  method : String
  url : String
  params : Fields := []
  query : Fields := []
  body : Fields := []

/-- A positive integer, as a number or in decimal digits. -/
def toPositiveInt : Json → Option Nat
  | .num n => if n.den = 1 ∧ 0 < n.num then some n.num.toNat else none
  | .str s =>
    if s ≠ "" ∧ s.toList.all Char.isDigit = true then
      some (Nat.ofDigitChars 10 s.toList 0) |>.filter (0 < ·)
    else none
  | _ => none

/-- `findProjectIdForTask` -/
def findProjectIdForTask (db : Db) (id : Nat) : Option Nat :=
  (db.tasks.find? id).map (·.projectId)

/-- A reference that has to be there, unless it is optional: `null` counts as absent. -/
def present (optional : Bool) (value : Option Json) (target : Json → Option (List Nat)) :
    Option (List Nat) :=
  match value with
  | none | some .null => if optional then some [] else none
  | some value => target value

/-- The project of a task that the request names. -/
def taskTarget (db : Db) (value : Json) : Option Nat :=
  (toPositiveInt value).bind (findProjectIdForTask db)

/-- The projects that one source contributes, `none` if they cannot be determined. -/
def sourceTargets (db : Db) (request : RoutedRequest) : ProjectSource → Option (List Nat)
  | .projectParam key => ((request.params.lookup key).bind toPositiveInt).map ([·])
  | .projectQuery key => ((request.query.lookup key).bind toPositiveInt).map ([·])
  | .projectBody key => ((request.body.lookup key).bind toPositiveInt).map ([·])
  | .taskParam key =>
    present false (request.params.lookup key) fun value => (taskTarget db value).map ([·])
  | .taskBody key optional =>
    present optional (request.body.lookup key) fun value => (taskTarget db value).map ([·])
  | .taskBodyArray key optional =>
    present optional (request.body.lookup key) fun
      | .arr items => items.mapM (taskTarget db)
      | _ => none

/-- The loop over the sources. -/
def targetsOf (db : Db) (request : RoutedRequest) : List ProjectSource → Option (List Nat)
  | [] => some []
  | source :: sources =>
    (sourceTargets db request source).bind fun targets =>
      (targetsOf db request sources).map (targets ++ ·)

def resolveTargetProjects (db : Db) (request : RoutedRequest) : Option (List Nat) :=
  match findBindingRule request.method request.url with
  | none | some .deny => none
  | some .global => some []
  | some (.resolve sources) => (targetsOf db request sources).filter (· ≠ [])

/-- A token without a binding may touch every project, a bound one only its own. -/
def bindingSatisfiesProjects (binding : Option Nat) (targets : Option (List Nat)) : Bool :=
  match binding, targets with
  | none, _ => true
  | some _, none => false
  | some project, some targets => targets.all (· == project)

/-- `enforceProjectBinding` lets the request through. -/
def admits (binding : Option Nat) (db : Db) (request : RoutedRequest) : Bool :=
  bindingSatisfiesProjects binding (resolveTargetProjects db request)

/-! ## What the gate depends on -/

/-- Both databases have the same tasks in the project. -/
def SameOwned (project : Nat) (db db' : Db) : Prop :=
  ∀ id, findProjectIdForTask db id = some project → findProjectIdForTask db' id = some project

section Gate

variable {project : Nat} {db db' : Db} {request : RoutedRequest}

theorem taskTarget_mono (h : SameOwned project db db') {value : Json}
    (htarget : taskTarget db value = some project) : taskTarget db' value = some project := by
  obtain ⟨id, hid, howner⟩ := Option.bind_eq_some_iff.1 htarget
  exact Option.bind_eq_some_iff.2 ⟨id, hid, h id howner⟩

theorem taskTargets_mono (h : SameOwned project db db') {items : List Json} {targets : List Nat}
    (htargets : items.mapM (taskTarget db) = some targets) (hall : ∀ t ∈ targets, t = project) :
    items.mapM (taskTarget db') = some targets := by
  induction items generalizing targets with
  | nil => exact htargets
  | cons value items ih =>
    simp only [List.mapM_cons, Option.bind_eq_bind, Option.bind_eq_some_iff, Option.pure_def,
      Option.some.injEq] at htargets ⊢
    obtain ⟨target, htarget, rest, hrest, rfl⟩ := htargets
    obtain rfl := hall target List.mem_cons_self
    exact ⟨target, taskTarget_mono h htarget, rest,
      ih hrest fun t ht => hall t (List.mem_cons_of_mem _ ht), rfl⟩

theorem present_mono {optional : Bool} {value : Option Json} {targets : List Nat}
    {target target' : Json → Option (List Nat)}
    (htarget : ∀ json, target json = some targets → target' json = some targets)
    (hpresent : present optional value target = some targets) :
    present optional value target' = some targets := by
  unfold present at hpresent ⊢
  split at hpresent
  · exact hpresent
  · exact hpresent
  · exact htarget _ hpresent

/-- Targets that are all the project are the same for both databases. -/
theorem sourceTargets_mono (h : SameOwned project db db') {source : ProjectSource}
    {targets : List Nat} (htargets : sourceTargets db request source = some targets)
    (hall : ∀ t ∈ targets, t = project) : sourceTargets db' request source = some targets := by
  have hone : ∀ json, (taskTarget db json).map ([·]) = some targets →
      (taskTarget db' json).map ([·]) = some targets := by
    intro json hjson
    obtain ⟨target, htarget, rfl⟩ := Option.map_eq_some_iff.1 hjson
    obtain rfl := hall target (List.mem_singleton_self _)
    rw [taskTarget_mono h htarget]
    rfl
  cases source with
  | projectParam key => exact htargets
  | projectQuery key => exact htargets
  | projectBody key => exact htargets
  | taskParam key => exact present_mono hone htargets
  | taskBody key optional => exact present_mono hone htargets
  | taskBodyArray key optional =>
    refine present_mono (fun json hjson => ?_) htargets
    cases json with
    | arr items => exact taskTargets_mono h hjson hall
    | _ => contradiction

theorem targetsOf_mono (h : SameOwned project db db') {sources : List ProjectSource}
    {targets : List Nat} (htargets : targetsOf db request sources = some targets)
    (hall : ∀ t ∈ targets, t = project) : targetsOf db' request sources = some targets := by
  induction sources generalizing targets with
  | nil => exact htargets
  | cons source sources ih =>
    obtain ⟨own, hown, hmap⟩ := Option.bind_eq_some_iff.1 htargets
    obtain ⟨rest, hrest, rfl⟩ := Option.map_eq_some_iff.1 hmap
    rw [targetsOf, sourceTargets_mono h hown fun t ht => hall t (List.mem_append_left _ ht),
      Option.bind_some, ih hrest fun t ht => hall t (List.mem_append_right _ ht)]
    rfl

theorem admits_mono (h : SameOwned project db db')
    (hadmits : admits (some project) db request = true) :
    admits (some project) db' request = true := by
  unfold admits resolveTargetProjects at hadmits ⊢
  split at hadmits
  · contradiction
  · contradiction
  · rfl
  · rename_i sources hrule
    cases htargets : (targetsOf db request sources).filter (· ≠ []) with
    | none =>
      rw [htargets] at hadmits
      contradiction
    | some targets =>
      rw [htargets] at hadmits
      obtain ⟨hsome, hne⟩ := Option.filter_eq_some_iff.1 htargets
      have hall : ∀ t ∈ targets, t = project := by
        intro t ht
        exact beq_iff_eq.1 (List.all_eq_true.1 hadmits t ht)
      rw [targetsOf_mono h hsome hall, Option.filter_some, if_pos hne]
      exact hadmits

/-- **The gate looks at the bound project only.** Databases with the same tasks in it admit the same
    requests, whatever else they hold. -/
theorem admits_congr (h : SameOwned project db db') (h' : SameOwned project db' db)
    (request : RoutedRequest) :
    admits (some project) db request = admits (some project) db' request := by
  rw [Bool.eq_iff_iff]
  exact ⟨admits_mono h, admits_mono h'⟩

end Gate

end WoodFiredTasks.ProjectBinding
