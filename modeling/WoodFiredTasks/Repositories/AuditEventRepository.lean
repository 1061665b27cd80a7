import WoodFiredTasks.Lib.HashChain
import WoodFiredTasks.Lib.JsonText

set_option autoImplicit false

/-! # The audit trail

`AuditEventRepository` (`src/repositories/audit-event.repository.ts`): `append` links a row to the
one before it by a digest of its content, `verifyChain` walks the table and gives the id of the
first row that does not verify.

The digest is taken of the values in memory, JavaScript strings; the table holds UTF-8 text. SHA-256
in hexadecimal digits of the UTF-8 bytes of a text is a parameter of both. The queries over the
table are left out. -/

namespace WoodFiredTasks

/-- `AuditChainContent`: the columns that a row's hash covers, for strings in memory or texts in
    the table. -/
structure AuditChainContent (S : Type) where
  timestamp : S
  actorType : S
  actorId : S
  tokenId : Option S
  action : S
  resourceType : S
  resourceId : Option S
  requestId : Option S
  metadata : Option S
  deriving DecidableEq

def AuditChainContent.map {S T : Type} (f : S → T) (content : AuditChainContent S) :
    AuditChainContent T where
  timestamp := f content.timestamp
  actorType := f content.actorType
  actorId := f content.actorId
  tokenId := content.tokenId.map f
  action := f content.action
  resourceType := f content.resourceType
  resourceId := content.resourceId.map f
  requestId := content.requestId.map f
  metadata := content.metadata.map f

/-- Something holds of every text of the content. -/
def AuditChainContent.all {S : Type} (p : S → Bool) (content : AuditChainContent S) : Bool :=
  p content.timestamp && p content.actorType && p content.actorId && content.tokenId.all p &&
    p content.action && p content.resourceType && content.resourceId.all p &&
    content.requestId.all p && content.metadata.all p

/-- A round trip is the identity on the contents whose texts all come back. -/
theorem AuditChainContent.map_map_eq_self {S T : Type} {f : S → T} {g : T → S} {p : S → Bool}
    (h : ∀ s, g (f s) = s ↔ p s = true) (content : AuditChainContent S) :
    (content.map f).map g = content ↔ content.all p = true := by
  have hoption : ∀ o : Option S, o.map (g ∘ f) = o ↔ o.all p = true := by
    intro o
    cases o <;> simp [h]
  cases content
  simp [AuditChainContent.map, AuditChainContent.all, h, hoption, and_assoc]

/-- A row of `audit_events`. -/
structure AuditChainRow where
  id : Nat
  content : AuditChainContent String
  prevHash : Option String
  rowHash : Option String
  deriving DecidableEq

/-- Everything of a row but its id. -/
def AuditChainRow.hashed (row : AuditChainRow) :
    AuditChainContent String × Option String × Option String :=
  (row.content, row.prevHash, row.rowHash)

/-- `AuditEventRecord`; `metadata` as `JSON.stringify` writes it, which escapes every surrogate
    that stands on its own. -/
structure AuditEventRecord where
  actorType : JsString
  actorId : JsString
  tokenId : Option JsString
  action : JsString
  resourceType : JsString
  resourceId : Option JsString
  requestId : Option JsString
  metadata : Option String

/-- No text of the record has a surrogate that stands on its own. -/
def AuditEventRecord.isWellFormed (record : AuditEventRecord) : Bool :=
  record.actorType.isWellFormed && record.actorId.isWellFormed &&
    record.tokenId.all JsString.isWellFormed && record.action.isWellFormed &&
    record.resourceType.isWellFormed && record.resourceId.all JsString.isWellFormed &&
    record.requestId.all JsString.isWellFormed

namespace AuditEventRepository

/-- `AUDIT_CHAIN_GENESIS_HASH` -/
def auditChainGenesisHash : String := String.ofList (List.replicate 64 '0')

/-- `AUDIT_CHAIN_DOMAIN` -/
def auditChainDomain : String := "wft.audit_events.hash-chain.v1"

def canonicalAuditPayload (content : AuditChainContent JsString) (prevHash : JsString) : String :=
  String.ofList (jsonArray (some (JsString.ofString auditChainDomain).points)
    [some prevHash.points, some content.timestamp.points, some content.actorType.points,
      some content.actorId.points, content.tokenId.map JsString.points,
      some content.action.points, some content.resourceType.points,
      content.resourceId.map JsString.points, content.requestId.map JsString.points,
      content.metadata.map JsString.points])

def computeAuditRowHash (sha256 : String → String) (content : AuditChainContent JsString)
    (prevHash : JsString) : String :=
  sha256 (canonicalAuditPayload content prevHash)

/-- The tail digest that `chainHeadStmt` reads, or the genesis value. -/
def tailHash (rows : List AuditChainRow) : String :=
  (rows.getLast?.bind AuditChainRow.rowHash).getD auditChainGenesisHash

/-- The content of the row for a record, in memory. -/
def contentOf (ts : String) (record : AuditEventRecord) : AuditChainContent JsString where
  timestamp := JsString.ofString ts
  actorType := record.actorType
  actorId := record.actorId
  tokenId := record.tokenId
  action := record.action
  resourceType := record.resourceType
  resourceId := record.resourceId
  requestId := record.requestId
  metadata := record.metadata.map JsString.ofString

/-- The row that `append` inserts. -/
def appendedRow (sha256 : String → String) (rows : List AuditChainRow) (ts : String)
    (record : AuditEventRecord) : AuditChainRow where
  id := (rows.getLast?.map AuditChainRow.id).getD 0 + 1
  content := (contentOf ts record).map JsString.toUtf8
  prevHash := some (tailHash rows)
  rowHash := some
    (computeAuditRowHash sha256 (contentOf ts record) (JsString.ofString (tailHash rows)))

/-- `append`, at a time of the database's clock. -/
def append (sha256 : String → String) (rows : List AuditChainRow) (ts : String)
    (record : AuditEventRecord) : List AuditChainRow :=
  rows ++ [appendedRow sha256 rows ts record]

/-- The walk of `verifyChain`. -/
def verifyFrom (sha256 : String → String) (expectedPrevHash : String) :
    List AuditChainRow → Option Nat
  | [] => none
  | row :: rest =>
    if row.prevHash ≠ some expectedPrevHash then some row.id
    else
      let rowHash := computeAuditRowHash sha256 (row.content.map JsString.ofString)
        (JsString.ofString expectedPrevHash)
      if row.rowHash ≠ some rowHash then some row.id else verifyFrom sha256 rowHash rest

def verifyChain (sha256 : String → String) (rows : List AuditChainRow) : Option Nat :=
  verifyFrom sha256 auditChainGenesisHash rows

/-- A call of `append` by some process, which waits for the lock in vain if `busy`. -/
structure AppendCall where
  ts : String
  record : AuditEventRecord
  busy : Bool := false

/-- The table after a call. -/
def step (sha256 : String → String) (rows : List AuditChainRow) (call : AppendCall) :
    List AuditChainRow :=
  if call.busy then rows else append sha256 rows call.ts call.record

/-- The table after the calls, in the order in which they got the lock. -/
def appends (sha256 : String → String) (calls : List AppendCall) : List AuditChainRow :=
  calls.foldl (step sha256) []

/-! ## The payload -/

/-- The payload determines the content and the previous hash. -/
theorem canonicalAuditPayload_inj {content content' : AuditChainContent JsString}
    {prevHash prevHash' : JsString}
    (h : canonicalAuditPayload content prevHash = canonicalAuditPayload content' prevHash') :
    content = content' ∧ prevHash = prevHash' := by
  have hpoints : Function.Injective (Option.map JsString.points) :=
    Option.map_injective fun s s' hs => JsString.ext hs
  obtain ⟨-, hitems⟩ := jsonArray_inj (String.ofList_injective h)
  simp only [List.cons.injEq, Option.some.injEq, and_true, ← JsString.ext_iff,
    hpoints.eq_iff] at hitems
  obtain ⟨hprev, h1, h2, h3, h4, h5, h6, h7, h8, h9⟩ := hitems
  refine ⟨?_, hprev⟩
  cases content
  cases content'
  simp_all

/-! ## The walk -/

section

variable {sha256 : String → String} {p : String} {rows rest : List AuditChainRow}

/-- A walk that finds a row finds it whatever comes afterwards. -/
theorem verifyFrom_append_of_some {id : Nat} (h : verifyFrom sha256 p rows = some id) :
    verifyFrom sha256 p (rows ++ rest) = some id := by
  induction rows generalizing p with
  | nil => cases h
  | cons row rows ih =>
    rw [List.cons_append]
    unfold verifyFrom at h ⊢
    split
    · next hprev => rwa [if_pos hprev] at h
    · next hprev =>
      rw [if_neg hprev] at h
      dsimp only at h ⊢
      split
      · next hhash => rwa [if_pos hhash] at h
      · next hhash =>
        rw [if_neg hhash] at h
        exact ih h

/-- The digest of a link of the trail. -/
def linkDigest (sha256 : String → String) (prevHash : String) (content : AuditChainContent String) :
    String :=
  computeAuditRowHash sha256 (content.map JsString.ofString) (JsString.ofString prevHash)

/-- A row as a link. -/
def toLink (row : AuditChainRow) : Link String (AuditChainContent String) :=
  ⟨row.prevHash.getD "", row.content, row.rowHash.getD ""⟩

/-- Rows that verify have both hashes, and are a chain. -/
theorem verifyFrom_eq_none : verifyFrom sha256 p rows = none ↔
    (∀ row ∈ rows, row.hashed =
      ((toLink row).body, some (toLink row).prev, some (toLink row).hash)) ∧
    Chain (linkDigest sha256) p (rows.map toLink) := by
  induction rows generalizing p with
  | nil => simp [verifyFrom, Chain]
  | cons row rows ih =>
    unfold verifyFrom
    split
    · next hprev =>
      simp only [reduceCtorEq, List.mem_cons, forall_eq_or_imp, List.map_cons, Chain, false_iff]
      intro h
      obtain ⟨⟨hrow, -⟩, hp, -⟩ := h
      simp only [AuditChainRow.hashed, Prod.mk.injEq] at hrow
      exact hprev (by rw [hrow.2.1, hp])
    · next hprev =>
      rw [not_not] at hprev
      dsimp only
      split
      · next hhash =>
        simp only [reduceCtorEq, List.mem_cons, forall_eq_or_imp, List.map_cons, Chain, false_iff]
        intro h
        obtain ⟨⟨hrow, -⟩, -, hh, -⟩ := h
        simp only [AuditChainRow.hashed, Prod.mk.injEq] at hrow
        exact hhash (by rw [hrow.2.2, hh]; rfl)
      · next hhash =>
        rw [not_not] at hhash
        rw [ih]
        simp only [List.mem_cons, forall_eq_or_imp, List.map_cons, Chain]
        simp [toLink, AuditChainRow.hashed, hprev, hhash, linkDigest]

/-- The digest that the next row of a chain refers to. -/
def tailFrom (p : String) (rows : List AuditChainRow) : String :=
  (rows.getLast?.bind AuditChainRow.rowHash).getD p

/-- In rows that verify the tail is the last hash of the chain. -/
theorem tailFrom_eq_lastHash (h : verifyFrom sha256 p rows = none) :
    tailFrom p rows = lastHash p (rows.map toLink) := by
  obtain ⟨hrows, -⟩ := verifyFrom_eq_none.1 h
  cases hlast : rows.getLast? with
  | none => simp [tailFrom, lastHash, hlast]
  | some row =>
    have hrow := hrows row (List.mem_of_getLast? hlast)
    simp only [AuditChainRow.hashed, Prod.mk.injEq] at hrow
    simp [tailFrom, lastHash, hlast, hrow.2.2]

/-- The walk over a second part begins where the first one ends. -/
theorem verifyFrom_append_eq_none : verifyFrom sha256 p (rows ++ rest) = none ↔
    verifyFrom sha256 p rows = none ∧ verifyFrom sha256 (tailFrom p rows) rest = none := by
  cases hfirst : verifyFrom sha256 p rows with
  | some id => simp [verifyFrom_append_of_some hfirst]
  | none =>
    rw [verifyFrom_eq_none, verifyFrom_eq_none, tailFrom_eq_lastHash hfirst, List.map_append,
      Chain.append_iff]
    obtain ⟨hrows, hchain⟩ := verifyFrom_eq_none.1 hfirst
    simp only [List.mem_append, hchain, true_and]
    constructor
    · intro ⟨hall, hrest⟩
      exact ⟨fun row hr => hall row (.inr hr), hrest⟩
    · intro ⟨hall, hrest⟩
      exact ⟨fun row hr => hr.elim (hrows row) (hall row), hrest⟩

/-- A row verifies after another when it has its digest and the digest of what is stored. -/
theorem verifyFrom_singleton {row : AuditChainRow} : verifyFrom sha256 p [row] = none ↔
    row.prevHash = some p ∧ row.rowHash = some (computeAuditRowHash sha256
      (row.content.map JsString.ofString) (JsString.ofString p)) := by
  unfold verifyFrom
  split
  · next h => simp [h]
  · next h =>
    dsimp only
    split
    · next h' => simp [h']
    · next h' => simp [verifyFrom, not_not.1 h, not_not.1 h']

/-! ## Appending -/

theorem contentOf_isWellFormed (ts : String) (record : AuditEventRecord) :
    (contentOf ts record).all JsString.isWellFormed = record.isWellFormed := by
  have hmetadata : (record.metadata.map JsString.ofString).all JsString.isWellFormed = true := by
    cases record.metadata <;> simp
  simp [AuditChainContent.all, contentOf, AuditEventRecord.isWellFormed, hmetadata]

/-- What comes back of a row is what was hashed, when the record is well-formed, and only then. -/
theorem readBack_eq {ts : String} {record : AuditEventRecord} :
    ((contentOf ts record).map JsString.toUtf8).map JsString.ofString = contentOf ts record ↔
      record.isWellFormed = true := by
  rw [AuditChainContent.map_map_eq_self (p := JsString.isWellFormed)
    (fun s => JsString.ofString_toUtf8), contentOf_isWellFormed]

/-- The row that `append` inserts verifies when both digests are the same. -/
theorem verifyFrom_appendedRow {ts : String} {record : AuditEventRecord} :
    verifyFrom sha256 (tailHash rows) [appendedRow sha256 rows ts record] = none ↔
      computeAuditRowHash sha256 (contentOf ts record) (JsString.ofString (tailHash rows)) =
        computeAuditRowHash sha256
          (((contentOf ts record).map JsString.toUtf8).map JsString.ofString)
          (JsString.ofString (tailHash rows)) := by
  rw [verifyFrom_singleton]
  simp [appendedRow]

theorem verifyFrom_appendedRow_of_isWellFormed {ts : String} {record : AuditEventRecord}
    (h : record.isWellFormed = true) :
    verifyFrom sha256 (tailHash rows) [appendedRow sha256 rows ts record] = none := by
  rw [verifyFrom_appendedRow, readBack_eq.2 h]

theorem isWellFormed_of_verifyFrom {ts : String} {record : AuditEventRecord}
    (hinj : Function.Injective sha256)
    (h : verifyFrom sha256 (tailHash rows) [appendedRow sha256 rows ts record] = none) :
    record.isWellFormed = true := by
  rw [verifyFrom_appendedRow] at h
  exact readBack_eq.1 (canonicalAuditPayload_inj (hinj h)).1.symm

theorem verifyChain_append {ts : String} {record : AuditEventRecord} :
    verifyChain sha256 (append sha256 rows ts record) = none ↔
      verifyChain sha256 rows = none ∧
        verifyFrom sha256 (tailHash rows) [appendedRow sha256 rows ts record] = none := by
  exact verifyFrom_append_eq_none

end

end AuditEventRepository

end WoodFiredTasks
