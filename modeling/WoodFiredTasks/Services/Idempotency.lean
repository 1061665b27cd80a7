import WoodFiredTasks.World

set_option autoImplicit false

/-! # The idempotency keys

`src/services/idempotency.service.ts`: the responses of claims, kept for 24 hours under the key
that the client has chosen. -/

namespace WoodFiredTasks

/-- The TTL of a key in seconds, as in `datetime('now', '-24 hours')`. -/
def idempotencyTtl : Nat := 86400

/-- `created_at > datetime('now', '-24 hours')`. -/
def IdempotencyKey.live (now : Nat) (row : IdempotencyKey) : Bool :=
  now / 1000 < row.createdAt + idempotencyTtl

/-- `INSERT OR REPLACE INTO idempotency_keys`. -/
def Db.rememberResponse (db : Db) (row : IdempotencyKey) : Db :=
  { db with idempotencyKeys := db.idempotencyKeys.filter (fun r => r.key != row.key) ++ [row] }

/-- `DELETE FROM idempotency_keys WHERE created_at <= datetime('now', '-24 hours')`. -/
def Db.dropExpiredKeys (db : Db) (now : Nat) : Db :=
  { db with idempotencyKeys := db.idempotencyKeys.filter (IdempotencyKey.live now) }

namespace IdempotencyService

/-- `MAX_ROWS_BEFORE_CLEANUP`. -/
def maxRowsBeforeCleanup : Nat := 10000

/-- `get`. -/
def get (key : String) : M (Option Task) :=
  call >>= fun _ => Prog.gets fun w =>
    (w.db.idempotencyKeys.find? fun row => row.key == key && row.live w.now).map (·.response)

/-- `cleanup`. -/
def cleanup : M Unit :=
  statement (fun _ => none) (fun _ => ()) fun now db => db.dropExpiredKeys now

/-- `set`. -/
def set (key : String) (response : Task) : M Unit := do
  statement (fun _ => none) (fun _ => ()) fun now db =>
    db.rememberResponse ⟨key, response, now / 1000⟩
  let count ← query fun db => db.idempotencyKeys.length
  if count > maxRowsBeforeCleanup then cleanup else pure ()

/-- A response that is found was stored under the key and has not expired. -/
theorem get_spec (key : String) : Spec (get key)
    (fun v cached db => (∀ task, cached = some task → ∃ row ∈ v.db.idempotencyKeys,
      row.key = key ∧ row.response = task ∧ row.live v.now = true) ∧ db = v.db) Unchanged := by
  refine (Spec.afterCall (Spec.gets _ (fun v => (v.db.idempotencyKeys.find? fun row =>
    row.key == key && row.live v.now).map (·.response)) fun _ => rfl)).post ?_
  intro v cached db h
  obtain ⟨hcached, hdb⟩ := h
  refine ⟨fun task htask => ?_, hdb⟩
  rw [hcached] at htask
  obtain ⟨row, hrow, hresponse⟩ := Option.map_eq_some_iff.1 htask
  have hguard := List.find?_some hrow
  simp only [Bool.and_eq_true, beq_iff_eq] at hguard
  exact ⟨row, List.mem_of_find?_eq_some hrow, hguard.1, hresponse, hguard.2⟩

/-- The rows after a write under a key: old ones, and the new one. -/
def Remembered (v : View) (key : String) (response : Task) (db : Db) : Prop :=
  db.tasks = v.db.tasks ∧ ∀ row ∈ db.idempotencyKeys,
    row ∈ v.db.idempotencyKeys ∨ row = ⟨key, response, v.now / 1000⟩

theorem set_spec (key : String) (response : Task) :
    Spec (set key response) (fun v _ db => Remembered v key response db)
      fun v db => Remembered v key response db := by
  have hwritten : ∀ v : View, Remembered v key response
      (v.db.rememberResponse ⟨key, response, v.now / 1000⟩) := by
    intro v
    refine ⟨rfl, fun row hrow => ?_⟩
    rcases List.mem_append.1 hrow with hold | hnew
    · exact .inl (List.mem_of_mem_filter hold)
    · exact .inr (List.mem_singleton.1 hnew)
  have hcleanup : ∀ count : Nat, Spec (if count > maxRowsBeforeCleanup then cleanup else pure ())
      (fun v _ db => db.tasks = v.db.tasks ∧ db.idempotencyKeys ⊆ v.db.idempotencyKeys)
      Unchanged := by
    intro count
    split
    · refine (Spec.statement _ _ _).post fun v _ db h => ?_
      rw [h.2.2]
      exact ⟨rfl, fun _ hrow => List.mem_of_mem_filter hrow⟩
    · exact (Spec.pure ()).post fun v _ db h => h.2 ▸ ⟨rfl, fun _ hrow => hrow⟩
  refine ((Spec.statement _ _ _).bind fun _ => (Spec.query _).bind hcleanup).conseq ?_ ?_
  · rintro v _ db ⟨_, _, ⟨-, -, rfl⟩, _, _, ⟨-, rfl⟩, htasks, hsub⟩
    exact ⟨htasks.trans (hwritten v).1, fun row hrow => (hwritten v).2 row (hsub hrow)⟩
  · rintro v db (rfl | ⟨_, _, ⟨-, -, rfl⟩, rfl | ⟨_, _, ⟨-, rfl⟩, rfl⟩⟩)
    · exact ⟨rfl, fun row hrow => .inl hrow⟩
    · exact hwritten v
    · exact hwritten v

end IdempotencyService

end WoodFiredTasks
