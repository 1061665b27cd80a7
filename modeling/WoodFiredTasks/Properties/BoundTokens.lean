import WoodFiredTasks.Api.ClaimRoute
import WoodFiredTasks.Api.ProjectBinding
import WoodFiredTasks.Events.SseManager

set_option autoImplicit false

/-! # Tokens that are bound to a project

What a bound token sees on three routes that its binding admits: the event stream, the claim of a
task and the listing of a task's dependencies. A token would see its project only if the answers
were the same in any two states that agree on the rows and events of the project.

The gate itself looks at the bound project only (`ProjectBinding.admits_congr`). What is behind it
does not know of the binding: an event of a project has no `project_id` and passes every filter, a
cached response is found under its key alone, and an edge is listed whatever its other end is. -/

namespace WoodFiredTasks.ProjectBinding

open Router (Json)

/-! ## The stream -/

/-- The payload of a frame. -/
def payload : Frame → Option EventPayload
  | .event _ event => some event
  | .replayGap .. => none

/-- A connection that has been sent nothing. -/
def freshConnection (filters : SseFilters) : SseConnection where
  id := 1
  filters
  lastEventId := 0
  frames := []
  client := 0
  resumedFrom := none

/-- What a manager has sent on its connections. -/
def sent (manager : SseManager) : List EventPayload :=
  (manager.connections.flatMap SseConnection.frames).filterMap payload

/-- The events that a new stream gets while these are broadcast. -/
def streamed (filters : SseFilters) (history : List EventPayload) : List EventPayload :=
  sent (history.foldl (fun manager event => manager.broadcast event.timestamp event)
    (({} : SseManager).addConnection (freshConnection filters) none))

theorem sent_foldl_broadcast (history : List EventPayload) (manager : SseManager)
    (conn : SseConnection) (hconn : manager.connections = [conn]) :
    sent (history.foldl (fun manager event => manager.broadcast event.timestamp event) manager) =
      conn.frames.filterMap payload ++
        history.filter fun event => SseManager.matchesFilters event conn.filters := by
  induction history generalizing manager conn with
  | nil => simp [sent, hconn]
  | cons event history ih =>
    have hsent : (manager.broadcast event.timestamp event).connections =
        [SseManager.sendMatching conn manager.nextEventId event] := by
      simp [SseManager.broadcast, hconn]
    rw [List.foldl_cons, ih _ _ hsent]
    by_cases hmatch : SseManager.matchesFilters event conn.filters = true
    · simp [SseManager.sendMatching, SseManager.sendEvent, hmatch, payload]
    · simp [SseManager.sendMatching, hmatch]

/-- A new stream gets what its filters admit. -/
theorem streamed_eq (filters : SseFilters) (history : List EventPayload) :
    streamed filters history =
      history.filter fun event => SseManager.matchesFilters event filters :=
  sent_foldl_broadcast history _ (freshConnection filters) rfl

/-! ## States -/

/-- `ProjectEventType` -/
def projectEventTypes : List String := ["project.created", "project.updated", "project.deleted"]

/-- The type of an event tells whose row it carries. -/
def EventTyped (event : EventPayload) : Prop :=
  match event.data with
  | .task _ => event.eventType ∉ projectEventTypes
  | .project _ => event.eventType ∈ projectEventTypes

/-- The event is about a project or one of its tasks. -/
def concerns (project : Nat) (event : EventPayload) : Bool :=
  match event.data with
  | .task row => row.projectId == project
  | .project row => row.id == project

/-- A process, and the events that are broadcast while a stream is open. -/
structure ServerState where
  world : World
  history : List EventPayload
  typed : ∀ event ∈ history, EventTyped event

/-- Both ends of the edge are tasks of the project. -/
def ownEdge (db : Db) (project : Nat) (d : Dependency) : Bool :=
  findProjectIdForTask db d.taskId == some project &&
    findProjectIdForTask db d.blocksTaskId == some project

/-- The rows that `keep` selects are the same. -/
structure SameRows (keep : Nat → Bool) (edge edge' : Dependency → Bool) (db db' : Db) : Prop where
  projects : db.projects.rows.filter (fun p => keep p.id) =
    db'.projects.rows.filter fun p => keep p.id
  tasks : db.tasks.rows.filter (fun t => keep t.projectId) =
    db'.tasks.rows.filter fun t => keep t.projectId
  dependencies : db.dependencies.rows.filter edge = db'.dependencies.rows.filter edge'
  wsjfHistory : db.wsjfHistory.rows.filter (fun r => keep r.projectId) =
    db'.wsjfHistory.rows.filter fun r => keep r.projectId
  charterHistory : db.charterHistory.rows.filter (fun r => keep r.projectId) =
    db'.charterHistory.rows.filter fun r => keep r.projectId
  rescoreRuns : db.rescoreRuns.rows.filter (fun r => keep r.projectId) =
    db'.rescoreRuns.rows.filter fun r => keep r.projectId
  idempotencyKeys : db.idempotencyKeys.filter (fun r => keep r.response.projectId) =
    db'.idempotencyKeys.filter fun r => keep r.response.projectId

/-- The databases agree on the rows of the project. -/
def AgreeOn (project : Nat) (db db' : Db) : Prop :=
  SameRows (· == project) (ownEdge db project) (ownEdge db' project) db db'

/-- No row outside the project is different. -/
def SameElsewhere (project : Nat) (db db' : Db) : Prop :=
  SameRows (· != project) (fun d => !ownEdge db project d) (fun d => !ownEdge db' project d) db db'

/-- Two states that differ at most outside the project. -/
structure SameProject (project : Nat) (s s' : ServerState) : Prop where
  world : { s'.world with db := s.world.db } = s.world
  users : s.world.db.users = s'.world.db.users
  rows : AgreeOn project s.world.db s'.world.db
  history : s.history.filter (concerns project) = s'.history.filter (concerns project)

theorem SameRows.refl (keep : Nat → Bool) (edge : Dependency → Bool) (db : Db) :
    SameRows keep edge edge db db := ⟨rfl, rfl, rfl, rfl, rfl, rfl, rfl⟩

theorem AgreeOn.sameOwned {project : Nat} {db db' : Db} (h : AgreeOn project db db') :
    SameOwned project db db' := by
  intro id howner
  obtain ⟨task, hfound, hproject⟩ := Option.map_eq_some_iff.1 howner
  obtain ⟨hmem, hid⟩ := Table.find?_eq_some.1 hfound
  have hown : task ∈ db'.tasks.rows.filter fun t => t.projectId == project := by
    rw [← h.tasks]
    exact List.mem_filter.2 ⟨hmem, beq_iff_eq.2 hproject⟩
  have hfound' : db'.tasks.find? id = some task :=
    Table.find?_eq_some.2 ⟨(List.mem_filter.1 hown).1, hid⟩
  rw [findProjectIdForTask, hfound', Option.map_some, hproject]

theorem SameRows.symm {keep : Nat → Bool} {edge edge' : Dependency → Bool} {db db' : Db}
    (h : SameRows keep edge edge' db db') : SameRows keep edge' edge db' db :=
  ⟨h.projects.symm, h.tasks.symm, h.dependencies.symm, h.wsjfHistory.symm, h.charterHistory.symm,
    h.rescoreRuns.symm, h.idempotencyKeys.symm⟩

/-- The gate decides alike in states that agree on the project, on whatever route. -/
theorem SameProject.admits_eq {project : Nat} {s s' : ServerState} (h : SameProject project s s')
    (request : RoutedRequest) :
    admits (some project) s.world.db request = admits (some project) s'.world.db request :=
  admits_congr h.rows.sameOwned (AgreeOn.sameOwned h.rows.symm) request

/-! ## Requests -/

/-- A request on one of the three routes. A `project_id` that is no natural number never passes the
    gate. -/
inductive BoundRequest where
  | events (projectId : Option Nat) (eventTypes : Option (List String))
  | claim (request : ClaimRequest)
  | dependencies (id : Nat)

/-- What the gate sees of it. -/
def BoundRequest.routed : BoundRequest → RoutedRequest
  | .events projectId _ =>
    { method := "GET"
      url := "/api/v1/events"
      query := projectId.toList.map fun id => ("project_id", .num id) }
  | .claim request =>
    { method := "POST", url := "/api/v1/tasks/:id/claim", params := [("id", .num request.taskId)] }
  | .dependencies id =>
    { method := "GET", url := "/api/v1/tasks/:id/dependencies", params := [("id", .num id)] }

inductive BoundResponse where
  /-- 400 of the request's schemas. -/
  | invalid (issues : List TaskSchema.Issue)
  /-- 403 `project_scope_denied` -/
  | denied
  | stream (events : List EventPayload)
  | claim (result : Except Err ClaimReply)
  | dependencies (result : Except Err (List Dependency × List Dependency))

/-- `GET /tasks/:id/dependencies` -/
def listDependencies (id : Nat) : M (List Dependency × List Dependency) := do
  let blocks ← DependencyRepository.findByTaskId id
  let blockedBy ← DependencyService.getBlockers id
  return (blocks, blockedBy)

/-- The handler of a request. -/
def serve (bypass : Listener) (s : ServerState) : BoundRequest → BoundResponse × World
  | .events projectId eventTypes =>
    (.stream (streamed { projectId := projectId.map Int.ofNat, eventTypes } s.history), s.world)
  | .claim request =>
    let run := (ClaimRoute.handle bypass request).run s.world
    (.claim run.1, run.2)
  | .dependencies id =>
    let run := (listDependencies id).run s.world
    (.dependencies run.1, run.2)

/-- The issues of the request's schemas, which are checked before the gate. -/
def schemaIssues : BoundRequest → List TaskSchema.Issue
  | .claim request => ClaimRoute.requestIssues request
  | .dependencies id => TaskSchema.positive "id" id
  | .events .. => []

/-- The answer to a token that is bound to the project. -/
def respond (bypass : Listener) (project : Nat) (request : BoundRequest) (s : ServerState) :
    BoundResponse × World :=
  if schemaIssues request ≠ [] then
    (.invalid (schemaIssues request), s.world)
  else if admits (some project) s.world.db request.routed then serve bypass s request
  else (.denied, s.world)

/-- States that agree on the project give the same answer, and nothing outside it is written. -/
def Isolated (bypass : Listener) (project : Nat) (request : BoundRequest) : Prop :=
  ∀ s s' : ServerState, SameProject project s s' →
    (respond bypass project request s).1 = (respond bypass project request s').1 ∧
      SameElsewhere project s.world.db (respond bypass project request s).2.db

/-! ## The gate on these routes -/

theorem toPositiveInt_natCast {n : Nat} (hn : 0 < n) : toPositiveInt (.num n) = some n := by
  simp [toPositiveInt, hn]

theorem rule_events : findBindingRule "GET" "/api/v1/events" =
    some (.resolve [.projectQuery "project_id"]) := by decide +kernel

theorem rule_claim : findBindingRule "POST" "/api/v1/tasks/:id/claim" =
    some (.resolve [.taskParam "id"]) := by decide +kernel

theorem rule_dependencies : findBindingRule "GET" "/api/v1/tasks/:id/dependencies" =
    some (.resolve [.taskParam "id"]) := by decide +kernel

section Admission

variable {project : Nat} {db : Db}

/-- A request that touches one project is admitted if that is the bound one. -/
theorem admits_one (request : RoutedRequest) {source : ProjectSource} {id : Nat}
    (hrule : findBindingRule request.method request.url = some (.resolve [source]))
    (htarget : sourceTargets db request source = some [id]) :
    admits (some project) db request = (id == project) := by
  have hne : decide ([id] ≠ []) = true := by simp
  unfold admits resolveTargetProjects
  rw [hrule]
  simp only [targetsOf, htarget, Option.bind_some, Option.map_some, List.append_nil]
  rw [Option.filter_some, if_pos hne, bindingSatisfiesProjects, List.all_cons, List.all_nil,
    Bool.and_true]

theorem admits_events (hproject : 0 < project) (projectId : Option Nat)
    (eventTypes : Option (List String)) :
    admits (some project) db (BoundRequest.events projectId eventTypes).routed = true ↔
      projectId = some project := by
  cases projectId with
  | none =>
    simp [admits, resolveTargetProjects, BoundRequest.routed, rule_events, targetsOf,
      sourceTargets, bindingSatisfiesProjects]
  | some id =>
    by_cases hid : 0 < id
    · have htarget : sourceTargets db (BoundRequest.events (some id) eventTypes).routed
          (.projectQuery "project_id") = some [id] := by
        simp [sourceTargets, BoundRequest.routed, toPositiveInt_natCast hid]
      have hone : admits (some project) db (BoundRequest.events (some id) eventTypes).routed =
          (id == project) := admits_one _ rule_events htarget
      rw [hone, beq_iff_eq, Option.some.injEq]
    · obtain rfl : id = 0 := by omega
      have hne : ¬ 0 = project := by omega
      simp [admits, resolveTargetProjects, BoundRequest.routed, rule_events, targetsOf,
        sourceTargets, bindingSatisfiesProjects, toPositiveInt, hne]

/-- A request that names one task in its path is admitted if the task is one of the project. -/
theorem admits_task (request : RoutedRequest) {id : Nat} (hid : 0 < id)
    (hrule : findBindingRule request.method request.url = some (.resolve [.taskParam "id"]))
    (hparams : request.params = [("id", .num id)])
    (hfound : findProjectIdForTask db id = some project) :
    admits (some project) db request = true := by
  have htarget : sourceTargets db request (.taskParam "id") = some [project] := by
    simp [sourceTargets, present, taskTarget, hparams, toPositiveInt_natCast hid, hfound]
  rw [admits_one request hrule htarget, beq_self_eq_true]

end Admission

/-! ## Streams -/

section Streams

variable {bypass : Listener} {project : Nat}

/-- The type filter leaves no event of a project through. -/
def TasksOnly (eventTypes : Option (List String)) : Prop :=
  ∃ types, eventTypes = some types ∧ ∀ type ∈ projectEventTypes, type ∉ types

/-- Under such a filter a stream of the project has the events of the project only. -/
theorem streamed_own (hproject : 0 < project) {eventTypes : Option (List String)}
    (htasks : TasksOnly eventTypes) {history : List EventPayload}
    (htyped : ∀ event ∈ history, EventTyped event) :
    streamed { projectId := some (project : Int), eventTypes } history =
      streamed { projectId := some (project : Int), eventTypes }
        (history.filter (concerns project)) := by
  obtain ⟨types, rfl, hnone⟩ := htasks
  simp only [streamed_eq, List.filter_filter]
  refine List.filter_congr fun event hevent => ?_
  have htype := htyped event hevent
  cases hdata : event.data with
  | task row =>
    simp [SseManager.matchesFilters, SseManager.matchesProject, getEventProjectId, concerns, hdata]
    rintro - (hnull | hown)
    · omega
    · exact hown
  | project row =>
    rw [EventTyped, hdata] at htype
    simp [SseManager.matchesFilters, SseManager.matchesType, hnone _ htype]

/-- The creation of the next project. -/
def foreignCreated (project : Nat) (eventType : String) : EventPayload where
  eventType
  timestamp := 0
  data := .project { id := project + 1, name := "elsewhere" }

/-- Nothing happens while the stream is open. -/
def silent : ServerState where
  world := World.start .undisturbed .empty 0
  history := []
  typed := by simp

/-- Another project is changed while the stream is open. -/
def noisy (project : Nat) (eventType : String) (htype : eventType ∈ projectEventTypes) :
    ServerState where
  world := World.start .undisturbed .empty 0
  history := [foreignCreated project eventType]
  typed := by
    intro event hevent
    rw [List.mem_singleton.1 hevent]
    exact htype

theorem sameProject_noisy (project : Nat) (eventType : String)
    (htype : eventType ∈ projectEventTypes) :
    SameProject project silent (noisy project eventType htype) where
  world := rfl
  users := rfl
  rows := ⟨rfl, rfl, rfl, rfl, rfl, rfl, rfl⟩
  history := by simp [silent, noisy, foreignCreated, concerns]

/-- A stream of the project is isolated exactly if it asks for events of tasks only. -/
theorem isolated_events_iff (bypass : Listener) (hproject : 0 < project)
    (projectId : Option Nat) (eventTypes : Option (List String)) :
    Isolated bypass project (.events projectId eventTypes) ↔
      (projectId = some project → TasksOnly eventTypes) := by
  have hrespond : ∀ s : ServerState, projectId = some project →
      respond bypass project (.events projectId eventTypes) s =
        (.stream (streamed { projectId := some (project : Int), eventTypes } s.history),
          s.world) := by
    rintro s rfl
    rw [respond, if_neg (by simp [schemaIssues]),
      if_pos ((admits_events hproject _ eventTypes).2 rfl)]
    rfl
  constructor
  · rintro hisolated howner
    by_contra hloud
    -- a type of project events that passes the filter
    obtain ⟨type, htype, hpasses⟩ : ∃ type ∈ projectEventTypes,
        ∀ types, eventTypes = some types → type ∈ types := by
      cases eventTypes with
      | none => exact ⟨"project.created", List.mem_cons_self, by simp⟩
      | some types =>
        by_contra hnone
        push Not at hnone
        refine hloud ⟨types, rfl, fun type htype => ?_⟩
        obtain ⟨types', heq, hmissing⟩ := hnone type htype
        rwa [Option.some.inj heq]
    have hsame := (hisolated silent (noisy project type htype)
      (sameProject_noisy project type htype)).1
    rw [hrespond silent howner, hrespond (noisy project type htype) howner] at hsame
    have hmatches : SseManager.matchesFilters (foreignCreated project type)
        { projectId := some (project : Int), eventTypes } = true := by
      cases eventTypes with
      | none => simp [SseManager.matchesFilters, SseManager.matchesType, SseManager.matchesProject,
          getEventProjectId, foreignCreated]
      | some types => simp [SseManager.matchesFilters, SseManager.matchesType,
          SseManager.matchesProject, getEventProjectId, foreignCreated, hpasses types rfl]
    simp [streamed_eq, silent, noisy, hmatches] at hsame
  · intro htasks s s' hsame
    by_cases howner : projectId = some project
    · rw [hrespond s howner, hrespond s' howner]
      refine ⟨?_, SameRows.refl _ _ _⟩
      rw [streamed_own hproject (htasks howner) s.typed,
        streamed_own hproject (htasks howner) s'.typed, hsame.history]
    · have hdenied : ∀ s : ServerState,
          respond bypass project (.events projectId eventTypes) s = (.denied, s.world) := by
        intro s
        rw [respond, if_neg (by simp [schemaIssues]),
          if_neg fun h => howner ((admits_events hproject _ eventTypes).1 h)]
      rw [hdenied s, hdenied s']
      exact ⟨rfl, SameRows.refl _ _ _⟩

end Streams

/-! ## Listings and cached claims -/

/-- A task with nothing in it but its project. -/
def bareTask (id projectId : Nat) (title : String) : Task :=
  { id, title, description := none, status := .open, priority := .medium, projectId,
    parentTaskId := none, estimatedMinutes := none, assignee := none, createdBy := "user",
    dueDate := none, createdAt := .iso 0, updatedAt := .iso 0, version := 1, claimedAt := none,
    completedAt := none, acceptanceCriteria := none, verificationEvidence := none, wsjf := {},
    createdByUserId := none, assigneeUserId := none, tags := [] }

/-- One task in a project and another one in the next project. -/
def twoProjects (project id : Nat) (hproject : 0 < project) (hid : 0 < id) : Db :=
  { Db.empty with
    projects :=
      { rows := [{ id := project, name := "own" }, { id := project + 1, name := "elsewhere" }]
        next := project + 2
        nodup := by simp
        below := by simp
        pos := by simp [hproject]
        next_pos := by omega }
    tasks :=
      { rows := [bareTask id project "own", bareTask (id + 1) (project + 1) "elsewhere"]
        next := id + 2
        nodup := by simp [bareTask]
        below := by simp [bareTask]
        pos := by simp [bareTask, hid]
        next_pos := by omega } }

theorem owner_twoProjects {project id : Nat} (hproject : 0 < project) (hid : 0 < id) :
    findProjectIdForTask (twoProjects project id hproject hid) id = some project := by
  simp [findProjectIdForTask, twoProjects, Table.find?, bareTask]

/-- The task of the first project blocks that of the second. -/
def crossing (project id : Nat) (hproject : 0 < project) (hid : 0 < id) : Db :=
  { twoProjects project id hproject hid with
    dependencies := Table.empty.insert (newDependency id (id + 1) 0) fun _ => rfl }

/-- A state with a database and no events. -/
def quiet (db : Db) : ServerState where
  world := World.start .undisturbed db 0
  history := []
  typed := by simp

section Leaks

variable {bypass : Listener} {project : Nat}

theorem sameProject_crossing {id : Nat} (hproject : 0 < project) (hid : 0 < id) :
    SameProject project (quiet (twoProjects project id hproject hid))
      (quiet (crossing project id hproject hid)) where
  world := rfl
  users := rfl
  rows :=
    { projects := rfl
      tasks := rfl
      dependencies := by
        show _ = [newDependency id (id + 1) 0 1].filter _
        rw [List.filter_cons, if_neg]
        · rfl
        · -- the blocked task is in the other project
          have hother : findProjectIdForTask (crossing project id hproject hid) (id + 1) =
              some (project + 1) := by
            simp [findProjectIdForTask, crossing, twoProjects, Table.find?, bareTask]
          simp [ownEdge, quiet, World.start, newDependency, hother]
      wsjfHistory := rfl
      charterHistory := rfl
      rescoreRuns := rfl
      idempotencyKeys := rfl }
  history := rfl

/-- No listing is isolated. -/
theorem not_isolated_dependencies (hproject : 0 < project) {id : Nat} (hid : 0 < id) :
    ¬ Isolated bypass project (.dependencies id) := by
  intro hisolated
  have hrespond : ∀ db, findProjectIdForTask db id = some project →
      (respond bypass project (.dependencies id) (quiet db)).1 =
        .dependencies (.ok (db.blocks id, db.blockers id)) := by
    intro db howner
    have hissues : schemaIssues (.dependencies id) = [] := by
      simp [schemaIssues, TaskSchema.positive, hid.ne']
    have hadmits : admits (some project) (quiet db).world.db
        (BoundRequest.dependencies id).routed = true :=
      admits_task _ hid rule_dependencies rfl howner
    rw [respond, if_neg (by simp [hissues]), if_pos hadmits]
    rfl
  have hsame := (hisolated _ _ (sameProject_crossing hproject hid)).1
  rw [hrespond _ (owner_twoProjects hproject hid),
    hrespond (crossing project id hproject hid) (owner_twoProjects hproject hid)] at hsame
  simp [crossing, twoProjects, Db.blocks, Db.blockers, Db.empty, Table.empty, Table.insert,
    newDependency] at hsame

/-- A response that was cached for a claim in the second project. -/
def cached (project id : Nat) (hproject : 0 < project) (hid : 0 < id) (key title : String) : Db :=
  { twoProjects project id hproject hid with
    idempotencyKeys :=
      [{ key, response := bareTask (id + 1) (project + 1) title, createdAt := 0 }] }

theorem sameProject_cached {id : Nat} (hproject : 0 < project) (hid : 0 < id)
    (key title title' : String) :
    SameProject project (quiet (cached project id hproject hid key title))
      (quiet (cached project id hproject hid key title')) where
  world := rfl
  users := rfl
  rows :=
    { projects := rfl
      tasks := rfl
      dependencies := rfl
      wsjfHistory := rfl
      charterHistory := rfl
      rescoreRuns := rfl
      idempotencyKeys := by simp [quiet, World.start, cached, bareTask] }
  history := rfl

/-- No claim with an idempotency key is isolated. -/
theorem not_isolated_claim (hproject : 0 < project) {request : ClaimRequest} {key : String}
    (hissues : ClaimRoute.requestIssues request = [])
    (hkey : ClaimRoute.readKey request.idempotencyKey = .ok (some key)) :
    ¬ Isolated bypass project (.claim request) := by
  intro hisolated
  have hid : 0 < request.taskId := by
    by_contra hzero
    simp [ClaimRoute.requestIssues, TaskSchema.positive, show request.taskId = 0 by omega] at hissues
  have hrespond : ∀ title, (respond bypass project (.claim request)
      (quiet (cached project request.taskId hproject hid key title))).1 =
        .claim (.ok (.ok (bareTask (request.taskId + 1) (project + 1) title))) := by
    intro title
    have hadmits : admits (some project)
        (quiet (cached project request.taskId hproject hid key title)).world.db
        (BoundRequest.claim request).routed = true :=
      admits_task _ hid rule_claim rfl (owner_twoProjects hproject hid)
    have hget : (IdempotencyService.get key).run
        (quiet (cached project request.taskId hproject hid key title)).world =
          (.ok (some (bareTask (request.taskId + 1) (project + 1) title)),
            { (quiet (cached project request.taskId hproject hid key title)).world with
              calls := 1 }) := by
      show (Except.ok (Option.map _ (List.find? _ [_])), _) = _
      rw [List.find?_cons_of_pos (by simp [IdempotencyKey.live, idempotencyTtl, quiet, World.start])]
      rfl
    rw [respond, if_neg (by simp [schemaIssues, hissues]), if_pos hadmits]
    simp only [serve, ClaimRoute.handle, hkey, Prog.run_bind, hget]
    rfl
  have hsame := (hisolated _ _ (sameProject_cached hproject hid key "first" "second")).1
  rw [hrespond, hrespond] at hsame
  simp [bareTask] at hsame

/-- A request that fails its schemas is answered without a look at the database. -/
theorem isolated_of_schemaIssues {request : BoundRequest} (hissues : schemaIssues request ≠ []) :
    Isolated bypass project request := by
  intro s s' _
  rw [respond, respond, if_pos hissues, if_pos hissues]
  exact ⟨rfl, SameRows.refl _ _ _⟩

end Leaks

/-! ## No token is isolated -/

/-- **Main theorem.** The gate decides by the bound project alone, but no bound token sees its
    project only, whatever the project is. A stream of it does if it asks for the events of tasks
    only; a listing of dependencies never does, nor does a claim with an idempotency key, unless
    the request is refused by its schemas. -/
theorem boundTokens_leak (bypass : Listener) (project : Nat) (hproject : 0 < project) :
    (∀ s s' : ServerState, SameProject project s s' → ∀ request,
      admits (some project) s.world.db request = admits (some project) s'.world.db request) ∧
    (¬ ∀ request, Isolated bypass project request) ∧
    (∀ projectId eventTypes, Isolated bypass project (.events projectId eventTypes) ↔
      (projectId = some project → TasksOnly eventTypes)) ∧
    (∀ id, Isolated bypass project (.dependencies id) ↔ id = 0) ∧
    (∀ request key, ClaimRoute.readKey request.idempotencyKey = .ok (some key) →
      (Isolated bypass project (.claim request) ↔ ClaimRoute.requestIssues request ≠ [])) := by
  have hlisting : ∀ id, Isolated bypass project (.dependencies id) ↔ id = 0 := by
    intro id
    constructor
    · intro hisolated
      by_contra hne
      exact not_isolated_dependencies hproject (Nat.pos_of_ne_zero hne) hisolated
    · rintro rfl
      exact isolated_of_schemaIssues (by simp [schemaIssues, TaskSchema.positive])
  refine ⟨fun s s' hsame => hsame.admits_eq, fun hall => ?_,
    isolated_events_iff bypass hproject, hlisting, ?_⟩
  · exact absurd ((hlisting 1).1 (hall _)) Nat.one_ne_zero
  · intro request key hkey
    constructor
    · intro hisolated hissues
      exact not_isolated_claim hproject hissues hkey hisolated
    · intro hissues
      exact isolated_of_schemaIssues hissues

/-- The theorem for the first project. -/
theorem boundTokens_leak_first : ¬ ∀ request, Isolated (fun _ => pure ⟨⟩) 1 request :=
  (boundTokens_leak _ 1 Nat.one_pos).2.1

/-- The stream of project 1 is sent the creation of project 2. -/
theorem boundTokens_foreign_event :
    ¬ ∀ (bypass : Listener) (project : Nat) (request : BoundRequest), 0 < project →
      Isolated bypass project request := by
  intro hall
  have hsame := (hall (fun _ => pure ⟨⟩) 1 (.events (some 1) none) Nat.one_pos silent
    (noisy 1 "project.created" List.mem_cons_self) (sameProject_noisy 1 _ _)).1
  have hsilent : (respond (fun _ => pure ⟨⟩) 1 (.events (some 1) none) silent).1 =
      .stream [] := by
    rw [respond, if_neg (by simp [schemaIssues]),
      if_pos ((admits_events Nat.one_pos _ none).2 rfl)]
    rfl
  have hnoisy : (respond (fun _ => pure ⟨⟩) 1 (.events (some 1) none)
      (noisy 1 "project.created" List.mem_cons_self)).1 =
        .stream [foreignCreated 1 "project.created"] := by
    rw [respond, if_neg (by simp [schemaIssues]),
      if_pos ((admits_events Nat.one_pos _ none).2 rfl)]
    rfl
  rw [hsilent, hnoisy] at hsame
  simp at hsame

end WoodFiredTasks.ProjectBinding
