import WoodFiredTasks.Types.Task

set_option autoImplicit false

/-! # Event types

The payloads of the domain events of tasks (`src/events/types.ts`). -/

namespace WoodFiredTasks

inductive EventType where
  | taskCreated | taskUpdated | taskDeleted | taskStatusChanged | taskClaimed | taskClaimReleased
  deriving DecidableEq, Repr

/-- Origin of an event: a user's call or the workflow engine. -/
inductive EventSource where
  | user | workflow
  deriving DecidableEq, Repr

/-- What `task.claim_released` tells about the claim that was released. -/
structure ClaimTrail where
  previousAssignee : String
  expiredClaimedAt : Stamp
  releasedAt : Nat
  deriving DecidableEq, Repr

/-- A domain event. `fromStatus` and `toStatus` are set on `task.status_changed` only, `released`
    on `task.claim_released` only. -/
structure BusEvent where
  eventType : EventType
  timestamp : Nat
  data : Task
  source : EventSource
  fromStatus : Option TaskStatus := none
  toStatus : Option TaskStatus := none
  released : Option ClaimTrail := none
  deriving DecidableEq, Repr

end WoodFiredTasks
