import WoodFiredTasks.Router.IdempotencyStore
import Mathlib.Data.List.Nodup

set_option autoImplicit false

/-! # The dispatch log as a ledger

The three operations of the idempotency store that write, in any order, from any number of
callers, over any keys and with any clock readings. Each is one SQLite transaction or one
statement, so it happens as a whole or, when another process holds the lock for too long, throws
and does nothing (`busy`).

Every run is taken from an arbitrary table: what is true from there is true after every crash and
restart, and in every state that a run reaches. -/

namespace WoodFiredTasks.Router

/-- A call of the store. -/
inductive LedgerOp where
  | claim (now : Nat) (identity : DispatchIdentity) (renderedWith : List (String × Json))
  | complete (now : Nat) (key : DispatchKey) (status : DispatchStatus)
  | replayPending (now now' : Nat)

/-- A call, and whether it fails to get the lock. -/
structure LedgerCall where
  op : LedgerOp
  busy : Bool := false

/-- What a call comes to. -/
inductive LedgerResult where
  | claim (key : DispatchKey) (result : ClaimResult)
  | complete (changed : Bool)
  | replayPending (rows : List PendingRow)
  | threw

namespace IdempotencyStore

/-- One call. -/
def callOp (windowMs : Int) (store : IdempotencyStore) (call : LedgerCall) :
    LedgerResult × IdempotencyStore :=
  if call.busy then (.threw, store)
  else match call.op with
    | .claim now identity renderedWith =>
      let (result, store') := store.claim now identity renderedWith
      (.claim identity.key result, store')
    | .complete now key status =>
      let (changed, store') := store.complete now key status
      (.complete changed, store')
    | .replayPending now now' =>
      let (rows, store') := store.replayPending windowMs now now'
      (.replayPending rows, store')

/-- The table after a call. -/
def step (windowMs : Int) (store : IdempotencyStore) (call : LedgerCall) : IdempotencyStore :=
  (store.callOp windowMs call).2

/-- What the calls of a run come to. -/
def results (windowMs : Int) : IdempotencyStore → List LedgerCall → List LedgerResult
  | _, [] => []
  | store, call :: rest =>
    (store.callOp windowMs call).1 :: results windowMs (store.step windowMs call) rest

/-- A claim of this key was granted. -/
def grants (key : DispatchKey) : LedgerResult → Bool
  | .claim key' .claimed => key' = key
  | _ => false

section

variable {windowMs : Int} {store : IdempotencyStore} {call : LedgerCall} {key : DispatchKey}

/-! ## One grant a key -/

@[simp] theorem keys_markStaleAbandoned (now : Nat) (cutoff : Int) :
    (store.markStaleAbandoned now cutoff).keys = store.keys := by
  simp [keys, markStaleAbandoned, Function.comp_def]

/-- A key that has a row keeps it. -/
theorem mem_keys_step (h : key ∈ store.keys) : key ∈ (store.step windowMs call).keys := by
  unfold step callOp
  split
  · exact h
  · cases call.op with
    | claim now identity renderedWith =>
      show key ∈ (store.claim now identity renderedWith).2.keys
      rw [keys_claim]
      split
      · exact h
      · exact List.mem_append_left _ h
    | complete now key' status =>
      show key ∈ (store.complete now key' status).2.keys
      rw [keys_complete]
      exact h
    | replayPending now now' =>
      show key ∈ (store.markStaleAbandoned _ _).keys
      rw [keys_markStaleAbandoned]
      exact h

/-- A grant is the insertion of the row. -/
theorem grants_step (h : grants key (store.callOp windowMs call).1 = true) :
    key ∉ store.keys ∧ key ∈ (store.step windowMs call).keys := by
  unfold step
  unfold callOp at h ⊢
  split at h
  · simp [grants] at h
  · next hbusy =>
    rw [if_neg hbusy]
    cases hop : call.op with
    | claim now identity renderedWith =>
      rw [hop] at h
      dsimp only at h ⊢
      cases hresult : (store.claim now identity renderedWith).1 with
      | claimed =>
        rw [hresult] at h
        have hkey : identity.key = key := by simpa [grants] using h
        have hrow : identity.key ∉ store.keys := claim_eq_claimed.1 hresult
        refine ⟨hkey ▸ hrow, ?_⟩
        rw [keys_claim, if_neg hrow, hkey]
        simp
      | alreadyPending =>
        rw [hresult] at h
        simp [grants] at h
      | alreadyDone status =>
        rw [hresult] at h
        simp [grants] at h
    | complete now key' status =>
      rw [hop] at h
      simp [grants] at h
    | replayPending now now' =>
      rw [hop] at h
      simp [grants] at h

/-- A key with a row is granted to nobody any more. -/
theorem grants_none (windowMs : Int) (calls : List LedgerCall) (h : key ∈ store.keys) :
    (results windowMs store calls).countP (grants key) = 0 := by
  induction calls generalizing store with
  | nil => rfl
  | cons call rest ih =>
    have hno : ¬ grants key (store.callOp windowMs call).1 = true := fun hg => (grants_step hg).1 h
    rw [results, List.countP_cons_of_neg hno]
    exact ih (mem_keys_step h)

/-- A key is granted at most once. -/
theorem grants_once (calls : List LedgerCall) :
    (results windowMs store calls).countP (grants key) ≤ 1 := by
  induction calls generalizing store with
  | nil => simp [results]
  | cons call rest ih =>
    by_cases hg : grants key (store.callOp windowMs call).1 = true
    · have hrest := grants_none windowMs rest (grants_step hg).2
      rw [results, List.countP_cons_of_pos hg, hrest]
    · rw [results, List.countP_cons_of_neg hg]
      exact ih

/-! ## Terminal rows stay -/

/-- No call writes to a row that is not pending. -/
theorem mem_rows_step {row : DispatchRow} (hrow : row ∈ store.rows) (h : row.status ≠ .pending) :
    row ∈ (store.step windowMs call).rows := by
  unfold step callOp
  split
  · exact hrow
  · cases call.op with
    | claim now identity renderedWith =>
      show row ∈ (store.claim now identity renderedWith).2.rows
      by_cases hkey : identity.key ∈ store.keys
      · rw [(claim_of_mem now renderedWith hkey).2]
        exact hrow
      · rw [claim_of_notMem hkey]
        exact List.mem_append_left _ hrow
    | complete now key status =>
      show row ∈ (store.complete now key status).2.rows
      unfold complete
      split
      · exact hrow
      · exact List.mem_map.2 ⟨row, hrow, by simp [terminated, h]⟩
    | replayPending now now' => exact List.mem_map.2 ⟨row, hrow, by simp [abandoned, h]⟩

theorem mem_rows_run {row : DispatchRow} (calls : List LedgerCall) (hrow : row ∈ store.rows)
    (h : row.status ≠ .pending) : row ∈ (calls.foldl (step windowMs) store).rows := by
  induction calls generalizing store with
  | nil => exact hrow
  | cons call rest ih => exact ih (mem_rows_step hrow h)

/-! ## The split of the pending rows -/

theorem eq_of_key {row row' : DispatchRow} (h : row ∈ store.rows) (h' : row' ∈ store.rows)
    (hkey : row.key = row'.key) : row = row' :=
  List.inj_on_of_nodup_map store.nodup h h' hkey

/-- The marked table keeps a pending row when it is within the window, and only then. -/
theorem mem_selectPending {now : Nat} {cutoff : Int} {row : DispatchRow} :
    row ∈ (store.markStaleAbandoned now cutoff).selectPendingWithinWindow cutoff ↔
      row ∈ store.rows ∧ row.status = .pending ∧ cutoff ≤ row.startedAtMs := by
  simp only [selectPendingWithinWindow, List.mem_mergeSort, List.mem_filter, markStaleAbandoned,
    List.mem_map, decide_eq_true_eq]
  constructor
  · intro h
    obtain ⟨⟨row', hrow', heq⟩, hpending, hcut⟩ := h
    unfold abandoned at heq
    split at heq
    · rw [← heq] at hpending
      cases hpending
    · exact ⟨heq ▸ hrow', hpending, hcut⟩
  · intro h
    obtain ⟨hrow, hpending, hcut⟩ := h
    have hfresh : ¬ (row.startedAtMs : Int) < cutoff := by omega
    exact ⟨⟨row, hrow, by simp [abandoned, hfresh]⟩, hpending, hcut⟩

/-- Nothing is returned twice. -/
theorem nodup_replayPending (now now' : Nat) :
    ((store.replayPending windowMs now now').1.map PendingRow.key).Nodup := by
  have hkeys : ∀ rows : List DispatchRow,
      (rows.map DispatchRow.toPending).map PendingRow.key = rows.map DispatchRow.key := by
    intro rows
    rw [List.map_map]
    rfl
  show (((store.markStaleAbandoned now' _).selectPendingWithinWindow _).map _ |>.map _).Nodup
  rw [hkeys, selectPendingWithinWindow]
  refine ((List.mergeSort_perm _ _).map _).nodup_iff.2 ?_
  exact (store.markStaleAbandoned now' _).nodup.sublist (List.filter_sublist.map _)

end

end IdempotencyStore

open IdempotencyStore in
/-- **Main theorem.** Over every run a key is granted at most once and a row that is not pending
    stays as it is; and of the pending rows, `replayPending` gives up those from before the cutoff
    and returns the others, each once. -/
theorem dispatchLedger_correct (windowMs : Int) (store : IdempotencyStore)
    (calls : List LedgerCall) (now now' : Nat) :
    (∀ key, (results windowMs store calls).countP (grants key) ≤ 1) ∧
    (∀ row ∈ store.rows, row.status ≠ .pending →
      row ∈ (calls.foldl (step windowMs) store).rows) ∧
    (∀ row ∈ store.rows, row.status = .pending →
      let (returned, store') := store.replayPending windowMs now now'
      if (row.startedAtMs : Int) < now - windowMs then
        { row with status := .permanentlyFailed, completedAtMs := some now' } ∈ store'.rows ∧
          row.key ∉ returned.map PendingRow.key
      else row ∈ store'.rows ∧ row.toPending ∈ returned) ∧
    (∀ pending ∈ (store.replayPending windowMs now now').1,
      ∃ row ∈ store.rows, row.status = .pending ∧ row.toPending = pending) ∧
    ((store.replayPending windowMs now now').1.map PendingRow.key).Nodup ∧
    (store.replayPending windowMs now now').2.keys = store.keys := by
  refine ⟨fun key => grants_once calls, fun row hrow h => mem_rows_run calls hrow h,
    fun row hrow hpending => ?_, fun pending hmem => ?_, nodup_replayPending now now',
    keys_markStaleAbandoned now' _⟩
  · show if (row.startedAtMs : Int) < now - windowMs then _ else _
    split
    · next hstale =>
      refine ⟨List.mem_map.2 ⟨row, hrow, by simp [abandoned, hpending, hstale]⟩, fun hmem => ?_⟩
      obtain ⟨pending, hmem, hkey⟩ := List.mem_map.1 hmem
      obtain ⟨row', hselected, rfl⟩ := List.mem_map.1 hmem
      obtain ⟨hrow', -, hcut⟩ := mem_selectPending.1 hselected
      have heq : row' = row := eq_of_key hrow' hrow hkey
      rw [heq] at hcut
      omega
    · next hfresh =>
      refine ⟨List.mem_map.2 ⟨row, hrow, by simp [abandoned, hfresh]⟩, ?_⟩
      exact List.mem_map_of_mem (mem_selectPending.2 ⟨hrow, hpending, by omega⟩)
  · obtain ⟨row, hselected, heq⟩ := List.mem_map.1 hmem
    obtain ⟨hrow, hpending, -⟩ := mem_selectPending.1 hselected
    exact ⟨row, hrow, hpending, heq⟩

end WoodFiredTasks.Router
