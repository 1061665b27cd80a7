import WoodFiredTasks.Services.CascadeRefinement
import WoodFiredTasks.Services.ClaimRelease

set_option autoImplicit false

/-! # Processes that share the database

Any number of processes (the server, stdio servers, command lines) work on one SQLite file. A
process runs its calls one after the other, but between two statements of one call the others
may write. A `Point` is a place between two statements of a call, with what the call has read so
far; `Point.segment` is the program from there to the next such place. It issues one statement,
or one transaction: a transaction that reads first and then writes keeps others from writing in
between, or fails (`SQLITE_BUSY_SNAPSHOT`), so it is one step. Reads of `createTask` are taken
together, since what they read never changes. The engine is idle and no buffer is open at every
point (`cascade_atomic`), so a segment starts like a fresh process. -/

namespace WoodFiredTasks

open TaskService

/-- A call that a process can be asked for. -/
inductive Call where
  | claimTask (taskId : Nat) (assignee : String) (user : Option Nat) (source : EventSource)
  | updateTask (id : Nat) (input : UpdateTaskInput) (source : EventSource)
      (callerId : Option String)
  | sweep (timeoutMinutes : Nat)
  | addDependency (taskId blocksTaskId : Nat)
  | removeDependency (taskId blocksTaskId : Nat)
  | createTask (input : CreateTaskInput)
  | deleteTask (id : Nat)
  deriving DecidableEq

/-- The call whose row is being sized. -/
inductive Sizing where
  | created
  | updated (existing : Task) (input : UpdateTaskInput) (source : EventSource)
  deriving DecidableEq

/-- Where a process stands in a call. -/
inductive Point where
  | start (call : Call)
  | claimUpdate (path : ClaimPath) (taskId : Nat) (assignee : String) (user : Option Nat)
      (source : EventSource)
  | renewReload (taskId : Nat) (assignee : String) (source : EventSource)
  | updateWrite (existing : Task) (id : Nat) (input : UpdateTaskInput) (source : EventSource)
  | sizeRead (sizing : Sizing) (taskId : Nat) (jobSize : Fib)
  | sizeWrite (sizing : Sizing) (taskId : Nat) (existing : Task) (jobSize : Fib)
  | announce (existing updated : Task) (input : UpdateTaskInput) (source : EventSource)
  | release (timeoutMinutes : Nat) (claim : StaleClaim) (rest : List StaleClaim)
  | releaseReload (timeoutMinutes : Nat) (claim : StaleClaim) (rest : List StaleClaim)
  | blockedTaskRead (taskId blocksTaskId : Nat)
  | cycleCheck (taskId blocksTaskId : Nat)
  | insertEdge (taskId blocksTaskId : Nat) (existing : List Dependency)
  | insertTask (input : CreateTaskInput)
  | deleteRow (id : Nat)
  deriving DecidableEq

namespace Point

/-- The next release of a sweep. -/
def nextRelease (timeoutMinutes : Nat) : List StaleClaim → Option Point
  | [] => none
  | claim :: rest => some (.release timeoutMinutes claim rest)

/-- What follows the write of `updateTask`: the sizing, or the events. -/
def afterWrite (existing : Task) (id : Nat) (input : UpdateTaskInput) (source : EventSource)
    (written : Task) : Point :=
  if needsResize existing input then
    .sizeRead (.updated existing input source) id (minutesToTier input.estimatedMinutes.join)
  else .announce existing written input source

/-- What follows the sizing of a row. -/
def afterSizing (sized : Task) : Sizing → M (Option Point)
  | .created => announceTask WorkflowEngine.engine .taskCreated sized >>= fun _ => pure none
  | .updated existing input source => pure (some (.announce existing sized input source))

/-- The first segment of a call. -/
def startSegment : Call → M (Option Point)
  | .claimTask taskId assignee user source =>
    claimRead taskId assignee >>= fun path =>
      pure (some (.claimUpdate path taskId assignee user source))
  | .updateTask id input source callerId =>
    readUpdate id input callerId >>= fun existing =>
      pure (some (.updateWrite existing id input source))
  | .sweep timeoutMinutes =>
    ClaimReleaseService.findStaleClaims timeoutMinutes >>= fun claims =>
      pure (nextRelease timeoutMinutes claims)
  | .addDependency taskId blocksTaskId =>
    raiseError (DependencyService.validate taskId blocksTaskId) >>= fun _ =>
      requireTask taskId >>= fun _ => pure (some (.blockedTaskRead taskId blocksTaskId))
  | .removeDependency taskId blocksTaskId =>
    DependencyService.removeDependency taskId blocksTaskId >>= fun _ => pure none
  | .createTask input => readCreate input >>= fun _ => pure (some (.insertTask input))
  | .deleteTask id =>
    requireTask id >>= fun existing =>
      announceTask WorkflowEngine.engine .taskDeleted existing >>= fun _ =>
        pure (some (.deleteRow id))

/-- The program up to the next point, or to the end of the call. -/
def segment : Point → M (Option Point)
  | .start call => startSegment call
  | .claimUpdate .fresh taskId assignee user source =>
    claimFresh taskId assignee user >>= fun task =>
      announceClaim WorkflowEngine.engine task source >>= fun _ => pure none
  | .claimUpdate .renewal taskId assignee _ source =>
    TaskRepository.renewUpdate taskId assignee >>= fun changed =>
      if changed then pure (some (.renewReload taskId assignee source))
      else raise (renewalError taskId)
  | .renewReload taskId _ source =>
    TaskRepository.findById taskId >>= fun
      | some task => announceClaim WorkflowEngine.engine task source >>= fun _ => pure none
      | none => raise (renewalError taskId)
  | .updateWrite existing id input source =>
    writeUpdate existing id input >>= fun written =>
      pure (some (afterWrite existing id input source written))
  | .sizeRead sizing taskId jobSize =>
    requireTask taskId >>= fun existing => pure (some (.sizeWrite sizing taskId existing jobSize))
  | .sizeWrite sizing taskId existing jobSize =>
    autoSizeWrite taskId existing jobSize >>= fun sized => afterSizing sized sizing
  | .announce existing updated input source =>
    announceUpdate WorkflowEngine.engine existing updated input source >>= fun _ => pure none
  | .release timeoutMinutes claim rest =>
    ClaimReleaseService.releaseClaim claim.id >>= fun changed =>
      if changed then pure (some (.releaseReload timeoutMinutes claim rest))
      else pure (nextRelease timeoutMinutes rest)
  | .releaseReload timeoutMinutes claim rest =>
    ClaimReleaseService.announceRelease WorkflowEngine.engine claim >>= fun _ =>
      pure (nextRelease timeoutMinutes rest)
  | .blockedTaskRead taskId blocksTaskId =>
    requireTask blocksTaskId >>= fun _ => pure (some (.cycleCheck taskId blocksTaskId))
  | .cycleCheck taskId blocksTaskId =>
    DependencyRepository.findAll >>= fun existing =>
      raiseError (DependencyService.cycleCheck existing taskId blocksTaskId) >>= fun _ =>
        pure (some (.insertEdge taskId blocksTaskId existing))
  | .insertEdge taskId blocksTaskId _ =>
    DependencyRepository.create taskId blocksTaskId >>= fun _ => pure none
  | .insertTask input =>
    match input.wsjf with
    | some w =>
      createScored input w >>= fun task =>
        announceTask WorkflowEngine.engine .taskCreated task >>= fun _ => pure none
    | none =>
      createRow input >>= fun created =>
        pure (some (.sizeRead .created created.id (minutesToTier input.estimatedMinutes)))
  | .deleteRow id => TaskRepository.delete id >>= fun _ => pure none

end Point

/-! ## Runs -/

/-- The database, the clock and the call in progress in each process. -/
structure Sys where
  db : Db
  now : Nat
  procs : Nat → Option Point

/-- One step of the whole. -/
inductive Action where
  /-- A call arrives in a process. -/
  | call (p : Nat) (c : Call)
  /-- A process runs its next segment. -/
  | step (p : Nat) (env : Env)
  /-- A process is killed. -/
  | crash (p : Nat)
  | wait (ms : Nat)
  /-- A project or a user is added. -/
  | addProject (name : String)
  | addUser (id : Nat)

/-- The database with one more project. -/
def Db.addProject (db : Db) (name : String) : Db :=
  { db with projects := db.projects.insert (fun id => { id, name }) fun _ => rfl }

/-- The run of the segment that a process is at. -/
def Sys.result (s : Sys) (point : Point) (env : Env) : Except Err (Option Point) × World :=
  point.segment.run (World.start env s.db s.now)

/-- The point that a process is left at: a call that has thrown is over. -/
def Sys.nextPoint : Except Err (Option Point) → Option Point
  | .ok next => next
  | .error _ => none

/-- The process `p` is at `point` now. -/
def Sys.setPoint (s : Sys) (p : Nat) (point : Option Point) : Sys :=
  { s with procs := Function.update s.procs p point }

def Sys.step (s : Sys) : Action → Sys
  | .call p c => if (s.procs p).isNone then s.setPoint p (some (.start c)) else s
  | .step p env =>
    match s.procs p with
    | none => s
    | some point =>
      { s with db := (s.result point env).2.db }.setPoint p (Sys.nextPoint (s.result point env).1)
  | .crash p => s.setPoint p none
  | .wait ms => { s with now := s.now + ms }
  | .addProject name => { s with db := s.db.addProject name }
  | .addUser id => { s with db := { s.db with users := s.db.users ++ [id] } }

/-- The point from which the action runs a segment. -/
def Sys.pointAt (s : Sys) : Action → Option Point
  | .step p _ => s.procs p
  | _ => none

/-- A run: the actions, one after the other. -/
def Sys.run (s : Sys) (actions : List Action) : Sys := actions.foldl Sys.step s

/-- A database that nobody is working on. -/
def Sys.quiet (db : Db) (now : Nat) : Sys := ⟨db, now, fun _ => none⟩

end WoodFiredTasks
