import WoodFiredTasks.Mcp.AuditTrail

set_option autoImplicit false

/-! # The audit trail shows tampering, and when it does not verify by itself

The digest of a row commits to the row and, through the digest before it, to every row before it.
So two tables that verify and share the digest of a row share everything up to it, and a table that
was changed before a digest that is still in place does not verify.

A table that only `append` has written verifies as long as every text that was hashed comes back
from the table as it was. A surrogate that stands on its own does not: it is stored as U+FFFD. The
request id of a tool call is such a text, and the client chooses it. -/

namespace WoodFiredTasks

namespace AuditEventRepository

/-! ## Tables that `append` has written -/

theorem appends_append_singleton (sha256 : String → String) (calls : List AppendCall)
    (call : AppendCall) :
    appends sha256 (calls ++ [call]) = step sha256 (appends sha256 calls) call := by
  simp [appends]

/-- A table written by `append` verifies when every record is well-formed; and only then, if
    SHA-256 has no collision. -/
theorem verifyChain_appends (sha256 : String → String) (calls : List AppendCall) :
    ((∀ call ∈ calls, call.busy = false → call.record.isWellFormed = true) →
      verifyChain sha256 (appends sha256 calls) = none) ∧
    (Function.Injective sha256 → verifyChain sha256 (appends sha256 calls) = none →
      ∀ call ∈ calls, call.busy = false → call.record.isWellFormed = true) := by
  induction calls using List.reverseRecOn with
  | nil => exact ⟨fun _ => rfl, by simp⟩
  | append_singleton calls call ih =>
    obtain ⟨hverifies, hwell⟩ := ih
    rw [appends_append_singleton]
    simp only [List.forall_mem_append, List.forall_mem_singleton]
    cases hbusy : call.busy with
    | true =>
      have hstep : step sha256 (appends sha256 calls) call = appends sha256 calls := by
        simp [step, hbusy]
      rw [hstep]
      exact ⟨fun h => hverifies h.1, fun hinj h => ⟨hwell hinj h, nofun⟩⟩
    | false =>
      have hstep : step sha256 (appends sha256 calls) call =
          append sha256 (appends sha256 calls) call.ts call.record := by
        simp [step, hbusy]
      rw [hstep, verifyChain_append]
      constructor
      · intro ⟨hcalls, hcall⟩
        exact ⟨hverifies hcalls, verifyFrom_appendedRow_of_isWellFormed (hcall rfl)⟩
      · intro hinj ⟨hcalls, hrow⟩
        exact ⟨hwell hinj hcalls, fun _ => isWellFormed_of_verifyFrom hinj hrow⟩

/-! ## Samples -/

/-- What the payload of the first row is when this tool call is recorded. -/
def samplePayload (actorId requestId : String) : String :=
  "[\"wft.audit_events.hash-chain.v1\",\"" ++ auditChainGenesisHash ++
    "\",\"2026-01-01 00:00:00\",\"service_account\",\"" ++ actorId ++
    "\",null,\"MCP create_task\",\"tasks\",null,\"" ++ requestId ++
    "\",\"\x7b\\\"surface\\\":\\\"mcp\\\",\\\"outcome\\\":\\\"ok\\\",\\\"authMethod\\\":null\x7d\"]"

/-- A function without collisions that gives the SHA-256 digests of the payloads below. -/
def sampleSha256 (payload : String) : String :=
  if payload = samplePayload "1" "\\ud800" then
    "f30c66c065b3f98d900bdbed9e6f54a767bc9830b4d5ce0fbe126eeafdec9626"
  else if payload = samplePayload "1" "\ufffd" then
    "937e0ba4a21df610fc4c78272d6117b537ad6cbf1b536b4962ab4db2af16f9a4"
  else if payload = samplePayload "1" "7" then
    "2c29be121f02d0448b48676d8bbe4b9fced01043b4e05978ab8b4f363f04d4c7"
  else if payload = samplePayload "2" "7" then
    "6e6eeb9f7a8de02ab7f9dcf32081a7c3e7e56359198d1fe12327ed048bc627e0"
  else "#" ++ payload

/-- The service account creates a task. -/
def sampleCall (actorUserId : Nat) (requestId : Mcp.Scalar) : List AppendCall :=
  (Mcp.recordToolCall { actorUserId := some actorUserId, tokenId := none } .createTask []
    (Mcp.readRequestId (some requestId))
    "\x7b\"surface\":\"mcp\",\"outcome\":\"ok\",\"authMethod\":null\x7d").toList.map
    fun record => { ts := "2026-01-01 00:00:00", record }

/-- The client numbers the call with half a surrogate pair: the payload has it as six characters,
    the table as U+FFFD. -/
theorem verifyChain_appended_surrogate :
    verifyChain sampleSha256
      (appends sampleSha256 (sampleCall 1 (.str ⟨[.surrogate 0], .singleton _⟩))) = some 1 := by
  decide +kernel

/-! ## Tables that agree in a digest -/

section

variable {sha256 : String → String} {before after before' after' : List AuditChainRow}
  {a b : AuditChainRow}

theorem linkDigest_inj (hinj : Function.Injective sha256) (p : String)
    (content : AuditChainContent String) (p' : String) (content' : AuditChainContent String)
    (h : linkDigest sha256 p content = linkDigest sha256 p' content') :
    p = p' ∧ content = content' := by
  obtain ⟨hcontent, hp⟩ := canonicalAuditPayload_inj (hinj h)
  have hback : ∀ c : AuditChainContent String, (c.map JsString.ofString).map JsString.toUtf8 = c := by
    intro c
    rw [AuditChainContent.map_map_eq_self (p := fun _ => true) fun s => by simp]
    simp [AuditChainContent.all]
  refine ⟨?_, ?_⟩
  · rw [← JsString.toUtf8_ofString p, hp, JsString.toUtf8_ofString]
  · rw [← hback content, hcontent, hback]

theorem verifyChain_front (h : verifyChain sha256 (before ++ a :: after) = none) :
    verifyChain sha256 (before ++ [a]) = none := by
  have hsplit : before ++ a :: after = (before ++ [a]) ++ after := by simp
  rw [verifyChain, hsplit, verifyFrom_append_eq_none] at h
  exact h.1

/-- Two tables that verify and have a digest in common are the same up to it. -/
theorem hashed_eq_of_rowHash (hinj : Function.Injective sha256)
    (hgenesis : ∀ payload, sha256 payload ≠ auditChainGenesisHash)
    (hA : verifyChain sha256 (before ++ [a]) = none)
    (hB : verifyChain sha256 (before' ++ [b]) = none) (hhash : b.rowHash = a.rowHash) :
    (before' ++ [b]).map AuditChainRow.hashed = (before ++ [a]).map AuditChainRow.hashed := by
  obtain ⟨hrows, hchain⟩ := verifyFrom_eq_none.1 hA
  obtain ⟨hrows', hchain'⟩ := verifyFrom_eq_none.1 hB
  have hlinks : (before' ++ [b]).map toLink = (before ++ [a]).map toLink := by
    refine Chain.eq_of_lastHash (linkDigest_inj hinj) (fun _ _ => hgenesis _) hchain' hchain ?_
    rw [List.map_append, List.map_append, List.map_singleton, List.map_singleton,
      lastHash_append_singleton, lastHash_append_singleton]
    simp [toLink, hhash]
  have hcolumns : ∀ rows : List AuditChainRow,
      (∀ row ∈ rows, row.hashed =
        ((toLink row).body, some (toLink row).prev, some (toLink row).hash)) →
      rows.map AuditChainRow.hashed =
        (rows.map toLink).map fun link => (link.body, some link.prev, some link.hash) := by
    intro rows hrows
    rw [List.map_map]
    exact List.map_congr_left hrows
  rw [hcolumns _ hrows, hcolumns _ hrows', hlinks]

theorem verifyFrom_mem {p : String} {rows : List AuditChainRow} {id : Nat}
    (h : verifyFrom sha256 p rows = some id) : ∃ row ∈ rows, row.id = id := by
  induction rows generalizing p with
  | nil => cases h
  | cons row rest ih =>
    unfold verifyFrom at h
    split at h
    · exact ⟨row, by simp, Option.some.inj h⟩
    · dsimp only at h
      split at h
      · exact ⟨row, by simp, Option.some.inj h⟩
      · obtain ⟨row', hmem, hid⟩ := ih h
        exact ⟨row', by simp [hmem], hid⟩

/-- A table that was changed before a digest that is still in place does not verify, and the walk
    stops there or earlier. -/
theorem verifyChain_tampered (hinj : Function.Injective sha256)
    (hgenesis : ∀ payload, sha256 payload ≠ auditChainGenesisHash)
    (hA : verifyChain sha256 (before ++ a :: after) = none) (hhash : b.rowHash = a.rowHash)
    (hne : (before' ++ [b]).map AuditChainRow.hashed ≠ (before ++ [a]).map AuditChainRow.hashed) :
    ∃ row ∈ before' ++ [b], verifyChain sha256 (before' ++ b :: after') = some row.id := by
  cases hB : verifyChain sha256 (before' ++ [b]) with
  | none =>
    exact absurd (hashed_eq_of_rowHash hinj hgenesis (verifyChain_front hA) hB hhash) hne
  | some id =>
    obtain ⟨row, hrow, hid⟩ := verifyFrom_mem hB
    have hsplit : before' ++ b :: after' = (before' ++ [b]) ++ after' := by simp
    refine ⟨row, hrow, ?_⟩
    rw [verifyChain, hsplit, hid]
    exact verifyFrom_append_of_some hB

end

/-- **Main theorem.** The payload loses nothing; tables that verify and share a digest share all
    rows up to it; and a table that differs, up to a digest of a table that `append` has written,
    from that table stops the walk at that digest or before. -/
theorem auditChain_tamper_evident (sha256 : String → String) (hinj : Function.Injective sha256)
    (hgenesis : ∀ payload, sha256 payload ≠ auditChainGenesisHash) :
    (∀ content content' prevHash prevHash',
      canonicalAuditPayload content prevHash = canonicalAuditPayload content' prevHash' →
      content = content' ∧ prevHash = prevHash') ∧
    (∀ before a after before' b after',
      verifyChain sha256 (before ++ a :: after) = none →
      verifyChain sha256 (before' ++ b :: after') = none → b.rowHash = a.rowHash →
      (before' ++ [b]).map AuditChainRow.hashed = (before ++ [a]).map AuditChainRow.hashed) ∧
    ∀ calls : List AppendCall,
      (∀ call ∈ calls, call.busy = false → call.record.isWellFormed = true) →
      ∀ before a after before' b after', appends sha256 calls = before ++ a :: after →
      b.rowHash = a.rowHash →
      (before' ++ [b]).map AuditChainRow.hashed ≠ (before ++ [a]).map AuditChainRow.hashed →
      ∃ row ∈ before' ++ [b], verifyChain sha256 (before' ++ b :: after') = some row.id := by
  refine ⟨fun _ _ _ _ h => canonicalAuditPayload_inj h,
    fun before a after before' b after' hA hB hhash => ?_,
    fun calls hcalls before a after before' b after' hsplit hhash hne => ?_⟩
  · exact hashed_eq_of_rowHash hinj hgenesis (verifyChain_front hA) (verifyChain_front hB) hhash
  · have hA := (verifyChain_appends sha256 calls).1 hcalls
    rw [hsplit] at hA
    exact verifyChain_tampered hinj hgenesis hA hhash hne

theorem hash_append_ne {payload digest : String} (h : digest.toList.head? ≠ some '#') :
    "#" ++ payload ≠ digest := by
  intro heq
  apply h
  simp [← heq]

theorem sampleSha256_injective : Function.Injective sampleSha256 := by
  intro a b h
  unfold sampleSha256 at h
  split_ifs at h
  -- two payloads with a digest of their own, or one of them without, cannot agree
  all_goals try subst_vars
  all_goals first
    | rfl
    | exact absurd h (by decide)
    | exact absurd h (hash_append_ne (by decide))
    | exact absurd h.symm (hash_append_ne (by decide))
    | skip
  have hlist := congrArg String.toList h
  simp only [String.toList_append] at hlist
  exact String.toList_injective (List.append_cancel_left hlist)

theorem sampleSha256_ne_genesis (payload : String) :
    sampleSha256 payload ≠ auditChainGenesisHash := by
  unfold sampleSha256
  split_ifs
  · decide
  · decide
  · decide
  · decide
  · exact hash_append_ne (by decide)

/-- The row that request 7 leaves, with the actor named here. -/
def sampleRow (actorId : String) : AuditChainRow where
  id := 1
  content :=
    { timestamp := "2026-01-01 00:00:00"
      actorType := "service_account"
      actorId
      tokenId := none
      action := "MCP create_task"
      resourceType := "tasks"
      resourceId := none
      requestId := some "7"
      metadata := some "\x7b\"surface\":\"mcp\",\"outcome\":\"ok\",\"authMethod\":null\x7d" }
  prevHash := some auditChainGenesisHash
  rowHash := some "2c29be121f02d0448b48676d8bbe4b9fced01043b4e05978ab8b4f363f04d4c7"

/-- Somebody puts another actor into the first row and leaves its digest. -/
theorem auditChain_tamper_evident_actor :
    ∃ row ∈ [] ++ [sampleRow "2"],
      verifyChain sampleSha256 ([] ++ sampleRow "2" :: []) = some row.id :=
  (auditChain_tamper_evident sampleSha256 sampleSha256_injective sampleSha256_ne_genesis).2.2
    (sampleCall 1 (.int 7)) (by decide) [] (sampleRow "1") [] [] (sampleRow "2") []
    (by decide +kernel) rfl (by decide)

end AuditEventRepository

end WoodFiredTasks
