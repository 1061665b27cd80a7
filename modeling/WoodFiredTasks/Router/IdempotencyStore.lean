import WoodFiredTasks.Router.Template

set_option autoImplicit false

/-! # The idempotency store

`dispatch_log`, the table in which a handler claims a dispatch before it acts and to which it
writes how the dispatch ended (`packages/wft-router/src/dispatch/idempotency-store.ts`). Rows are
never deleted. `lookupBySecondaryKey`, which only reads and has no caller, is left out. -/

namespace WoodFiredTasks.Router

inductive DispatchStatus where
  | pending | succeeded | failed | permanentlyFailed | superseded
  deriving DecidableEq

/-- What a claim comes to. -/
inductive ClaimResult where
  | claimed
  | alreadyPending
  | alreadyDone (status : DispatchStatus)
  deriving DecidableEq

/-- `DispatchIdentity`: whose dispatch it is. The first two are the primary key. -/
structure DispatchIdentity where
  ruleName : String
  eventId : String
  taskId : Option Int
  toStatus : Option String
  emittedAtMs : Option Nat
  deriving DecidableEq

/-- The primary key `(rule_name, event_id)`. -/
abbrev DispatchKey := String × String

def DispatchIdentity.key (identity : DispatchIdentity) : DispatchKey :=
  (identity.ruleName, identity.eventId)

/-- A row of `dispatch_log`. -/
structure DispatchRow where
  ruleName : String
  eventId : String
  status : DispatchStatus
  renderedWith : List (String × Json)
  startedAtMs : Nat
  completedAtMs : Option Nat
  taskId : Option Int
  toStatus : Option String
  emittedAtMinute : Option Nat

def DispatchRow.key (row : DispatchRow) : DispatchKey := (row.ruleName, row.eventId)

/-- What `replayPending` gives to its caller of a row. -/
structure PendingRow where
  ruleName : String
  eventId : String
  renderedWith : List (String × Json)
  startedAtMs : Nat
  taskId : Option Int
  toStatus : Option String
  emittedAtMinute : Option Nat

def PendingRow.key (row : PendingRow) : DispatchKey := (row.ruleName, row.eventId)

def DispatchRow.toPending (row : DispatchRow) : PendingRow where
  ruleName := row.ruleName
  eventId := row.eventId
  renderedWith := row.renderedWith
  startedAtMs := row.startedAtMs
  taskId := row.taskId
  toStatus := row.toStatus
  emittedAtMinute := row.emittedAtMinute

/-- The table, which keeps one row a key. -/
structure IdempotencyStore where
  rows : List DispatchRow
  nodup : (rows.map DispatchRow.key).Nodup

namespace IdempotencyStore

def empty : IdempotencyStore := ⟨[], List.nodup_nil⟩

/-- The keys that have a row. -/
def keys (store : IdempotencyStore) : List DispatchKey := store.rows.map DispatchRow.key

/-- The status of the row under a key. -/
def status (store : IdempotencyStore) (key : DispatchKey) : Option DispatchStatus :=
  (store.rows.find? fun row => row.key = key).map (·.status)

theorem status_eq_none {store : IdempotencyStore} {key : DispatchKey} :
    store.status key = none ↔ key ∉ store.keys := by
  simp [status, keys]

/-- The row that a claim inserts. -/
def pendingRow (now : Nat) (identity : DispatchIdentity) (renderedWith : List (String × Json)) :
    DispatchRow where
  ruleName := identity.ruleName
  eventId := identity.eventId
  status := .pending
  renderedWith
  startedAtMs := now
  completedAtMs := none
  taskId := identity.taskId
  toStatus := identity.toStatus
  emittedAtMinute := identity.emittedAtMs.map (· / 60000)

/-- `insertPendingStmt` -/
def insertPending (store : IdempotencyStore) (row : DispatchRow) (h : store.status row.key = none) :
    IdempotencyStore where
  rows := store.rows ++ [row]
  nodup := by
    rw [List.map_append, List.nodup_append]
    refine ⟨store.nodup, by simp, ?_⟩
    intro a ha b hb heq
    simp only [List.map_cons, List.map_nil, List.mem_singleton] at hb
    exact status_eq_none.1 h (hb ▸ heq ▸ ha)

def claim (store : IdempotencyStore) (now : Nat) (identity : DispatchIdentity)
    (renderedWith : List (String × Json)) : ClaimResult × IdempotencyStore :=
  match h : store.status identity.key with
  | none => (.claimed, store.insertPending (pendingRow now identity renderedWith) h)
  | some .pending => (.alreadyPending, store)
  | some status => (.alreadyDone status, store)

/-- What `updateToTerminalStmt` makes of a row. -/
def terminated (now : Nat) (key : DispatchKey) (status : DispatchStatus) (row : DispatchRow) :
    DispatchRow :=
  if row.key = key ∧ row.status = .pending then { row with status, completedAtMs := some now }
  else row

@[simp] theorem key_terminated (now : Nat) (key : DispatchKey) (status : DispatchStatus)
    (row : DispatchRow) : (terminated now key status row).key = row.key := by
  unfold terminated
  split <;> rfl

/-- `updateToTerminalStmt` -/
def updateToTerminal (store : IdempotencyStore) (now : Nat) (key : DispatchKey)
    (status : DispatchStatus) : IdempotencyStore where
  rows := store.rows.map (terminated now key status)
  nodup := by
    rw [List.map_map, List.map_congr_left (g := DispatchRow.key) fun row _ => by simp]
    exact store.nodup

/-- `complete`; it is told if a row has changed, which no handler reads. -/
def complete (store : IdempotencyStore) (now : Nat) (key : DispatchKey) (status : DispatchStatus) :
    Bool × IdempotencyStore :=
  if status = .pending then (false, store)
  else (store.status key = some .pending, store.updateToTerminal now key status)

/-- What `markStaleAbandonedStmt` makes of a row. -/
def abandoned (now : Nat) (cutoff : Int) (row : DispatchRow) : DispatchRow :=
  if row.status = .pending ∧ row.startedAtMs < cutoff then
    { row with status := .permanentlyFailed, completedAtMs := some now }
  else row

@[simp] theorem key_abandoned (now : Nat) (cutoff : Int) (row : DispatchRow) :
    (abandoned now cutoff row).key = row.key := by
  unfold abandoned
  split <;> rfl

/-- `markStaleAbandonedStmt` -/
def markStaleAbandoned (store : IdempotencyStore) (now : Nat) (cutoff : Int) :
    IdempotencyStore where
  rows := store.rows.map (abandoned now cutoff)
  nodup := by
    rw [List.map_map, List.map_congr_left (g := DispatchRow.key) fun row _ => by simp]
    exact store.nodup

/-- `selectPendingWithinWindowStmt`; rows of one instant come in the order of their insertion. -/
def selectPendingWithinWindow (store : IdempotencyStore) (cutoff : Int) : List DispatchRow :=
  (store.rows.filter fun row => row.status = .pending ∧ cutoff ≤ row.startedAtMs).mergeSort
    fun row row' => row.startedAtMs ≤ row'.startedAtMs

/-- `replayPending`, which reads the clock twice: for the cutoff, and for `completed_at_ms`. -/
def replayPending (store : IdempotencyStore) (windowMs : Int) (now now' : Nat) :
    List PendingRow × IdempotencyStore :=
  let cutoff := now - windowMs
  let marked := store.markStaleAbandoned now' cutoff
  ((marked.selectPendingWithinWindow cutoff).map DispatchRow.toPending, marked)

/-! ## What the operations do -/

section

variable {store : IdempotencyStore} {now : Nat} {identity : DispatchIdentity}
  {renderedWith : List (String × Json)} {key key' : DispatchKey} {status : DispatchStatus}

@[simp] theorem key_pendingRow : (pendingRow now identity renderedWith).key = identity.key := rfl

@[simp] theorem status_pendingRow : (pendingRow now identity renderedWith).status = .pending := rfl

@[simp] theorem keys_insertPending {row : DispatchRow} (h : store.status row.key = none) :
    (store.insertPending row h).keys = store.keys ++ [row.key] := by
  simp [keys, insertPending]

theorem status_insertPending {row : DispatchRow} (h : store.status row.key = none) :
    (store.insertPending row h).status key =
      if key = row.key then some row.status else store.status key := by
  simp only [IdempotencyStore.status, insertPending, List.find?_append]
  by_cases hk : key = row.key
  · subst hk
    have hnone : store.rows.find? (fun r => r.key = row.key) = none := by
      simpa [IdempotencyStore.status] using h
    rw [hnone]
    simp
  · have hne : row.key ≠ key := fun heq => hk heq.symm
    simp [hk, hne]

/-- A claim on a key without a row inserts one. -/
theorem claim_of_notMem (h : identity.key ∉ store.keys) :
    store.claim now identity renderedWith =
      (.claimed, store.insertPending (pendingRow now identity renderedWith)
        (status_eq_none.2 h)) := by
  unfold claim
  split
  · rfl
  · next hrow =>
    rw [status_eq_none.2 h] at hrow
    cases hrow
  · next hrow =>
    rw [status_eq_none.2 h] at hrow
    cases hrow

/-- A claim on a key with a row does nothing. -/
theorem claim_of_mem (now : Nat) (renderedWith : List (String × Json))
    (h : identity.key ∈ store.keys) :
    (store.claim now identity renderedWith).1 ≠ .claimed ∧
      (store.claim now identity renderedWith).2 = store := by
  unfold claim
  split
  · next hrow => exact absurd h (status_eq_none.1 hrow)
  · exact ⟨nofun, rfl⟩
  · exact ⟨nofun, rfl⟩

/-- A claim goes through exactly when the key has no row. -/
theorem claim_eq_claimed : (store.claim now identity renderedWith).1 = .claimed ↔
    identity.key ∉ store.keys := by
  constructor
  · intro hclaimed hrow
    exact (claim_of_mem now renderedWith hrow).1 hclaimed
  · intro hrow
    rw [claim_of_notMem hrow]

/-- After a claim there is the row of its key, and no other new one. -/
theorem keys_claim : (store.claim now identity renderedWith).2.keys =
    if identity.key ∈ store.keys then store.keys else store.keys ++ [identity.key] := by
  by_cases hrow : identity.key ∈ store.keys
  · rw [if_pos hrow, (claim_of_mem now renderedWith hrow).2]
  · rw [if_neg hrow, claim_of_notMem hrow]
    simp

/-- A claim leaves every key with a row as it is. -/
theorem status_claim (h : key ∈ store.keys) :
    (store.claim now identity renderedWith).2.status key = store.status key := by
  by_cases hrow : identity.key ∈ store.keys
  · rw [(claim_of_mem now renderedWith hrow).2]
  · rw [claim_of_notMem hrow, status_insertPending, if_neg]
    rw [key_pendingRow]
    intro heq
    exact hrow (heq ▸ h)

/-- A row changes when it is completed, and then only if it is pending. -/
theorem status_complete (hkey : key' ≠ key ∨ store.status key' ≠ some .pending) :
    (store.complete now key status).2.status key' = store.status key' := by
  unfold complete
  split
  · rfl
  · simp only [IdempotencyStore.status, updateToTerminal, List.find?_map, Function.comp_def,
      key_terminated, Option.map_map]
    cases hrow : store.rows.find? fun row => row.key = key' with
    | none => rfl
    | some row =>
      have hrowKey : row.key = key' := by simpa using List.find?_some hrow
      have hstays : ¬ (row.key = key ∧ row.status = .pending) := by
        intro hc
        rcases hkey with hne | hne
        · exact hne (hrowKey ▸ hc.1)
        · exact hne (by simp [IdempotencyStore.status, hrow, hc.2])
      simp [terminated, hstays]

/-- To complete a pending row is to give it the status. -/
theorem status_complete_of_pending (hpending : store.status key = some .pending)
    (hstatus : status ≠ .pending) :
    (store.complete now key status).2.status key = some status := by
  unfold complete
  rw [if_neg hstatus]
  simp only [IdempotencyStore.status, updateToTerminal, List.find?_map, Function.comp_def,
    key_terminated, Option.map_map]
  cases hrow : store.rows.find? fun row => row.key = key with
  | none => simp [IdempotencyStore.status, hrow] at hpending
  | some row =>
    have hrowKey : row.key = key := by simpa using List.find?_some hrow
    have hrowStatus : row.status = .pending := by
      simpa [IdempotencyStore.status, hrow] using hpending
    simp [terminated, hrowKey, hrowStatus]

@[simp] theorem keys_complete : (store.complete now key status).2.keys = store.keys := by
  unfold complete
  split
  · rfl
  · simp [keys, updateToTerminal, Function.comp_def]

end

end IdempotencyStore

end WoodFiredTasks.Router
