import WoodFiredTasks.Services.TaskService

set_option autoImplicit false

/-! # The release of stale claims

`src/services/claim-release.service.ts`. The sweep reads the stale claims in one statement and
releases them one by one in further statements; `findStaleClaims`, `releaseClaim` and
`announceRelease` are the programs of these. -/

namespace WoodFiredTasks

/-- `DEFAULT_CLAIM_TTL_MINUTES`. -/
def defaultClaimTtlMinutes : Nat := 30

/-- `stamp <= datetime('now', '-N minutes')`. -/
def Stamp.olderThan (stamp : Stamp) (timeoutMinutes now : Nat) : Bool :=
  60 * timeoutMinutes ≤ now / 1000 && stamp.le (.sqlite (now / 1000 - 60 * timeoutMinutes))

/-- What is old stays old. -/
theorem Stamp.olderThan_mono {stamp : Stamp} {timeoutMinutes now now' : Nat}
    (h : stamp.olderThan timeoutMinutes now = true) (hle : now ≤ now') :
    stamp.olderThan timeoutMinutes now' = true := by
  simp only [olderThan, Bool.and_eq_true, decide_eq_true_eq] at h ⊢
  have hsec := Nat.div_le_div_right (c := 1000) hle
  exact ⟨h.1.trans hsec, Stamp.le_sqlite_mono h.2 (Nat.sub_le_sub_right hsec _)⟩

/-- A row of the SELECT of `findStaleClaims`. -/
structure StaleClaim where
  id : Nat
  assignee : String
  claimedAt : Stamp
  deriving DecidableEq, Repr

/-- The `WHERE` clause of `findStaleClaims`, with the columns it selects. -/
def Task.staleClaim (timeoutMinutes now : Nat) (t : Task) : Option StaleClaim :=
  match t.assignee, t.claimedAt with
  | some assignee, some claimedAt =>
    if t.status = .inProgress ∧ claimedAt.olderThan timeoutMinutes now = true ∧
        t.updatedAt.olderThan timeoutMinutes now = true then
      some ⟨t.id, assignee, claimedAt⟩
    else none
  | _, _ => none

/-- The `WHERE` clause of `releaseClaim`. -/
def Task.releasable (t : Task) : Bool := t.assignee.isSome && t.status == .inProgress

/-- The `SET` clause of `releaseClaim`. -/
def Task.release (now : Nat) (t : Task) : Task :=
  { t with
    assignee := none
    status := .open
    claimedAt := none
    version := t.version + 1
    updatedAt := datetimeNow now }

@[simp] theorem Task.release_id (now : Nat) (t : Task) : (t.release now).id = t.id := rfl

namespace ClaimReleaseService

/-- `findStaleClaims`. -/
def findStaleClaims (timeoutMinutes : Nat) : M (List StaleClaim) :=
  call >>= fun _ => Prog.gets fun w =>
    (w.env.scan w.db.tasks.rows).filterMap (Task.staleClaim timeoutMinutes w.now)

/-- `releaseClaim`: was the row changed? -/
def releaseClaim (taskId : Nat) : M Bool :=
  TaskRepository.updateWhere taskId Task.releasable (fun _ => true) Task.release Task.release_id

/-- The reload of a released task and the two events of its release. The row goes into the events
    as it is, but for its tags, which come in one text. -/
def announceRelease (bypass : Listener) (claim : StaleClaim) : M Unit := do
  let row ← query fun db => db.tasks.find? claim.id
  let now ← Prog.gets fun w => w.now
  match row with
  | none => pure ()
  | some row => do
    let task := { row with tags := splitTags (tagsCsv row.tags) }
    emit bypass { eventType := .taskUpdated, timestamp := now, data := task, source := .workflow }
    emit bypass
      { eventType := .taskClaimReleased
        timestamp := now
        data := task
        source := .workflow
        released := some ⟨claim.assignee, claim.claimedAt, now⟩ }

/-- The body of the loop of `sweep`, with the count of the releases so far. -/
def sweepOne (bypass : Listener) (claim : StaleClaim) : M Nat := do
  let changed ← releaseClaim claim.id
  if changed then
    announceRelease bypass claim
    pure 1
  else pure 0

/-- The loop of `sweep`. -/
def sweepAll (bypass : Listener) : List StaleClaim → M Nat
  | [] => pure 0
  | claim :: rest => do
    let one ← sweepOne bypass claim
    let more ← sweepAll bypass rest
    pure (one + more)

/-- `sweep`: the number of the claims that were released. -/
def sweep (bypass : Listener) (timeoutMinutes : Nat := defaultClaimTtlMinutes) : M Nat := do
  let stale ← findStaleClaims timeoutMinutes
  sweepAll bypass stale

theorem findStaleClaims_spec (timeoutMinutes : Nat) : Spec (findStaleClaims timeoutMinutes)
    (fun v claims db => (∀ c ∈ claims, c.claimedAt.olderThan timeoutMinutes v.now = true) ∧
      db = v.db) Unchanged := by
  refine (Spec.afterCall (Spec.gets _
    (fun v => (v.env.scan v.db.tasks.rows).filterMap (Task.staleClaim timeoutMinutes v.now))
    fun _ => rfl)).post ?_
  rintro v claims _ ⟨rfl, rfl⟩
  refine ⟨fun c hc => ?_, rfl⟩
  obtain ⟨t, -, ht⟩ := List.mem_filterMap.1 hc
  rw [Task.staleClaim] at ht
  split at ht
  · split at ht
    · rename_i hstale
      obtain rfl := Option.some.inj ht
      exact hstale.2.1
    · cases ht
  · cases ht

/-- The release clears the claim of a row that is in progress and held, and leaves any other row
    alone. -/
theorem releaseClaim_spec (taskId : Nat) : Spec (releaseClaim taskId)
    (fun v changed db => (changed = false ∧ db = v.db) ∨ changed = true ∧
      ∃ row, v.db.tasks.find? taskId = some row ∧ row.assignee ≠ none ∧
        row.status = .inProgress ∧
        db = v.db.writeTask taskId (Task.release v.now) (Task.release_id v.now)) Unchanged := by
  refine (TaskRepository.updateWhere_spec taskId _ _ _ _).post ?_
  rintro v changed _ ⟨hchanged, rfl⟩
  cases changed with
  | false => exact .inl ⟨rfl, rfl⟩
  | true =>
    obtain ⟨row, hrow, hguard⟩ := (Option.any_eq_true _ _).1 hchanged.symm
    simp only [Task.releasable, Bool.and_eq_true, beq_iff_eq, Option.isSome_iff_ne_none] at hguard
    exact .inr ⟨rfl, row, hrow, hguard.1, hguard.2, rfl⟩

end ClaimReleaseService

end WoodFiredTasks
