import Mathlib.Data.List.AList

set_option autoImplicit false

/-! # The device flow store

Two maps in the memory of the server (`device-flow-store.ts`): the sessions by device code, and the
device codes by user code. The session objects are mutable in the source; here a mutation writes the
changed session back (`put`). Times are in milliseconds. The hostname, which only names the minted
token, is left out. -/

namespace WoodFiredTasks

/-- How far a session has come. No function sets `expired`. -/
inductive DeviceFlowStatus where
  | pending
  | approved
  | denied
  | expired
  deriving DecidableEq

structure DeviceFlowSession where
  deviceCode : String
  userCode : String
  clientId : String
  createdAt : Nat
  expiresAt : Nat
  /-- Polling cadence, in seconds. -/
  interval : Nat
  /-- Time of the most recent poll, 0 before the first. -/
  lastPollAt : Nat
  status : DeviceFlowStatus
  approvedUserId : Option Nat
  mintedTokenId : Option Nat
  mintedToken : Option String
  deriving DecidableEq

structure DeviceFlowStore where
  byDeviceCode : AList fun _ : String => DeviceFlowSession
  byUserCode : AList fun _ : String => String

namespace DeviceFlowStore

/-- `SESSION_TTL_MS` -/
def sessionTtlMs : Nat := 600000

/-- `USER_CODE_ALPHABET` -/
def userCodeAlphabet : String := "ABCDEFGHJKMNPQRSTUVWXYZ23456789"

def empty : DeviceFlowStore where
  byDeviceCode := ∅
  byUserCode := ∅

def findByDeviceCode (store : DeviceFlowStore) (deviceCode : String) : Option DeviceFlowSession :=
  store.byDeviceCode.lookup deviceCode

/-- Resolve a user code through the reverse index. -/
def findByUserCode (store : DeviceFlowStore) (userCode : String) : Option DeviceFlowSession :=
  (store.byUserCode.lookup userCode).bind store.findByDeviceCode

/-- The session object after a mutation. -/
def put (store : DeviceFlowStore) (session : DeviceFlowSession) : DeviceFlowStore :=
  { store with byDeviceCode := store.byDeviceCode.insert session.deviceCode session }

/-- The first drawn user code that no stored session has: one draw and up to 32 more. The draw after
    those throws, whatever it yields. -/
def drawUserCode (store : DeviceFlowStore) (generateUserCode : Nat → String) : Option String :=
  ((List.range 33).map generateUserCode).find? fun userCode => !(userCode ∈ store.byUserCode)

/-- Insert a fresh pending session; `none` when the user codes collide. -/
def createSession (store : DeviceFlowStore) (now : Nat) (clientId deviceCode : String)
    (generateUserCode : Nat → String) : Option (DeviceFlowSession × DeviceFlowStore) :=
  (store.drawUserCode generateUserCode).map fun userCode =>
    let session : DeviceFlowSession :=
      { deviceCode, userCode, clientId
        createdAt := now
        expiresAt := now + sessionTtlMs
        interval := 5
        lastPollAt := 0
        status := .pending
        approvedUserId := none
        mintedTokenId := none
        mintedToken := none }
    (session,
      { byDeviceCode := store.byDeviceCode.insert deviceCode session
        byUserCode := store.byUserCode.insert userCode deviceCode })

/-- Approve a pending session. The answer is also `true` when the same user approved it before. -/
def approve (store : DeviceFlowStore) (userCode : String) (userId : Nat) : Bool × DeviceFlowStore :=
  match store.findByUserCode userCode with
  | none => (false, store)
  | some session =>
    if session.status = .approved ∧ session.approvedUserId = some userId then (true, store)
    else if session.status ≠ .pending then (false, store)
    else (true, store.put { session with status := .approved, approvedUserId := some userId })

/-- Deny a pending session. -/
def deny (store : DeviceFlowStore) (userCode : String) : Bool × DeviceFlowStore :=
  match store.findByUserCode userCode with
  | none => (false, store)
  | some session =>
    if session.status ≠ .pending then (false, store)
    else (true, store.put { session with status := .denied })

/-- Stash a minted token on an approved session, over whatever is stashed there. -/
def recordMintedToken (store : DeviceFlowStore) (userCode : String) (tokenId : Nat)
    (token : String) : Bool × DeviceFlowStore :=
  match store.findByUserCode userCode with
  | none => (false, store)
  | some session =>
    if session.status ≠ .approved then (false, store)
    else (true, store.put { session with mintedTokenId := some tokenId, mintedToken := some token })

/-- Delete a session from both maps. -/
def remove (store : DeviceFlowStore) (deviceCode : String) : DeviceFlowStore :=
  match store.findByDeviceCode deviceCode with
  | none => store
  | some session =>
    { byDeviceCode := store.byDeviceCode.erase deviceCode
      byUserCode := store.byUserCode.erase session.userCode }

/-- One turn of the cleanup loop: drop the session if it is past its time. -/
def dropExpired (now : Nat) (store : DeviceFlowStore) (deviceCode : String) : DeviceFlowStore :=
  match store.findByDeviceCode deviceCode with
  | none => store
  | some session => if now > session.expiresAt then store.remove deviceCode else store

/-- The cleanup tick: the loop over all sessions. -/
def cleanup (store : DeviceFlowStore) (now : Nat) : DeviceFlowStore :=
  store.byDeviceCode.keys.foldl (dropExpired now) store

/-! ## The two maps agree -/

/-- Every session is stored under its device code and indexed under its user code, and the index
    leads nowhere else. -/
structure Indexed (store : DeviceFlowStore) : Prop where
  stored : ∀ {deviceCode session}, store.findByDeviceCode deviceCode = some session →
    session.deviceCode = deviceCode ∧ store.byUserCode.lookup session.userCode = some deviceCode
  index : ∀ {userCode deviceCode}, store.byUserCode.lookup userCode = some deviceCode →
    ∃ session, store.findByDeviceCode deviceCode = some session ∧ session.userCode = userCode

variable {store : DeviceFlowStore} {session session' : DeviceFlowSession} {dc uc : String}

theorem indexed_empty : empty.Indexed := ⟨by simp [empty, findByDeviceCode], by simp [empty]⟩

theorem findByDeviceCode_put : (store.put session).findByDeviceCode dc =
    if dc = session.deviceCode then some session else store.findByDeviceCode dc := by
  unfold findByDeviceCode put
  split
  · next h => rw [h, AList.lookup_insert]
  · next h => rw [AList.lookup_insert_ne h]

@[simp] theorem findByDeviceCode_put_self :
    (store.put session).findByDeviceCode session.deviceCode = some session := by
  simp [findByDeviceCode_put]

/-- Writing a session back twice is writing it back once. -/
theorem put_put (h : session'.deviceCode = session.deviceCode) :
    (store.put session).put session' = store.put session' := by
  simp only [put, h, AList.insert_insert]

theorem findByDeviceCode_remove : (store.remove dc).findByDeviceCode uc =
    if uc = dc then none else store.findByDeviceCode uc := by
  by_cases heq : uc = dc
  · subst heq
    rw [if_pos rfl]
    cases h : store.findByDeviceCode uc with
    | none => simp [remove, h]
    | some session =>
      simp only [remove, h]
      exact AList.lookup_erase uc store.byDeviceCode
  · rw [if_neg heq]
    cases h : store.findByDeviceCode dc with
    | none => simp [remove, h]
    | some session =>
      simp only [remove, h]
      exact AList.lookup_erase_ne heq

namespace Indexed

variable (hstore : store.Indexed)

include hstore

/-- A session that is found by its user code is found by its device code. -/
theorem of_userCode (h : store.findByUserCode uc = some session) :
    store.findByDeviceCode session.deviceCode = some session ∧ session.userCode = uc := by
  unfold findByUserCode at h
  obtain ⟨deviceCode, hindex, hfind⟩ := Option.bind_eq_some_iff.1 h
  obtain ⟨found, hfound, huc⟩ := hstore.index hindex
  obtain rfl : session = found := Option.some.inj (hfind.symm.trans hfound)
  rw [(hstore.stored hfind).1]
  exact ⟨hfind, huc⟩

/-- Writing a stored session back leaves the maps in agreement. -/
theorem put (h : store.findByDeviceCode session'.deviceCode = some session)
    (huc : session'.userCode = session.userCode) : (store.put session').Indexed := by
  constructor
  · intro deviceCode found hfound
    rw [findByDeviceCode_put] at hfound
    split at hfound
    · next heq =>
      obtain rfl : session' = found := Option.some.inj hfound
      exact ⟨heq.symm, by rw [huc, heq]; exact (hstore.stored h).2⟩
    · exact hstore.stored hfound
  · intro userCode deviceCode hindex
    obtain ⟨found, hfound, hcode⟩ := hstore.index hindex
    rw [findByDeviceCode_put]
    split
    · next heq =>
      subst heq
      obtain rfl : session = found := Option.some.inj (h.symm.trans hfound)
      exact ⟨session', rfl, huc.trans hcode⟩
    · exact ⟨found, hfound, hcode⟩

/-- After a write the session is found by its user code, as written. -/
theorem findByUserCode_put (h : store.findByUserCode uc = some session)
    (hdc : session'.deviceCode = session.deviceCode) :
    (store.put session').findByUserCode uc = some session' := by
  obtain ⟨hfind, huc⟩ := hstore.of_userCode h
  have hindex : store.byUserCode.lookup uc = some session.deviceCode :=
    huc ▸ (hstore.stored hfind).2
  show (store.byUserCode.lookup uc).bind (store.put session').findByDeviceCode = some session'
  rw [hindex, Option.bind_some, ← hdc, findByDeviceCode_put_self]

theorem remove : (store.remove dc).Indexed := by
  cases hdc : store.findByDeviceCode dc with
  | none =>
    have hsame : store.remove dc = store := by simp [DeviceFlowStore.remove, hdc]
    rwa [hsame]
  | some session =>
    have hindexes : (store.remove dc).byUserCode = store.byUserCode.erase session.userCode := by
      simp [DeviceFlowStore.remove, hdc]
    -- user codes of different sessions differ, as the index is a function
    have hother : ∀ {dc' s'}, dc' ≠ dc → store.findByDeviceCode dc' = some s' →
        s'.userCode ≠ session.userCode := by
      intro dc' s' hne hs' heq
      have hs'' := (hstore.stored hs').2
      rw [heq, (hstore.stored hdc).2] at hs''
      exact hne (Option.some.inj hs'').symm
    constructor
    · intro deviceCode found hfound
      rw [findByDeviceCode_remove] at hfound
      split at hfound
      · cases hfound
      · next hne =>
        rw [hindexes, AList.lookup_erase_ne (hother hne hfound)]
        exact hstore.stored hfound
    · intro userCode deviceCode hindex
      rw [hindexes] at hindex
      by_cases hcode : userCode = session.userCode
      · rw [hcode, AList.lookup_erase] at hindex
        cases hindex
      · rw [AList.lookup_erase_ne hcode] at hindex
        obtain ⟨found, hfound, huc⟩ := hstore.index hindex
        rw [findByDeviceCode_remove]
        split
        · next heq =>
          rw [heq, hdc] at hfound
          exact absurd (huc.symm.trans (congrArg _ (Option.some.inj hfound)).symm) hcode
        · exact ⟨found, hfound, huc⟩

/-- A session that is created under a new device code is pending, and no other session changes. -/
theorem createSession {now : Nat} {clientId : String} {generateUserCode : Nat → String}
    {created : DeviceFlowSession × DeviceFlowStore} (hnew : store.findByDeviceCode dc = none)
    (h : store.createSession now clientId dc generateUserCode = some created) :
    created.2.Indexed ∧ created.2.findByDeviceCode dc = some created.1 ∧
      (∀ dc', dc' ≠ dc → created.2.findByDeviceCode dc' = store.findByDeviceCode dc') ∧
      created.1.status = .pending ∧ created.1.mintedTokenId = none ∧ created.1.mintedToken = none := by
  unfold DeviceFlowStore.createSession at h
  obtain ⟨userCode, hdraw, rfl⟩ := Option.map_eq_some_iff.1 h
  have huc : store.byUserCode.lookup userCode = none := by
    have hfree := List.find?_some hdraw
    simpa [AList.lookup_eq_none] using hfree
  have hother : ∀ {dc'}, dc' ≠ dc → ∀ session, (store.byDeviceCode.insert dc session).lookup dc' =
      store.byDeviceCode.lookup dc' := fun hne _ => AList.lookup_insert_ne hne
  refine ⟨⟨?_, ?_⟩, AList.lookup_insert _, fun dc' hne => hother hne _, rfl, rfl, rfl⟩
  · intro deviceCode found hfound
    simp only [findByDeviceCode] at hfound
    by_cases heq : deviceCode = dc
    · subst heq
      rw [AList.lookup_insert] at hfound
      obtain rfl := Option.some.inj hfound
      exact ⟨rfl, AList.lookup_insert _⟩
    · rw [hother heq] at hfound
      obtain ⟨hdc, hindex⟩ := hstore.stored hfound
      refine ⟨hdc, ?_⟩
      -- the new user code is nobody's
      have hne : found.userCode ≠ userCode := by
        intro hsame
        rw [hsame, huc] at hindex
        cases hindex
      rw [AList.lookup_insert_ne hne, hindex]
  · intro uc deviceCode hindex
    simp only [findByDeviceCode]
    by_cases heq : uc = userCode
    · subst heq
      rw [AList.lookup_insert] at hindex
      obtain rfl := Option.some.inj hindex
      exact ⟨_, AList.lookup_insert _, rfl⟩
    · rw [AList.lookup_insert_ne heq] at hindex
      obtain ⟨found, hfound, hcode⟩ := hstore.index hindex
      have hne : deviceCode ≠ dc := by
        intro hsame
        rw [hsame, hnew] at hfound
        cases hfound
      exact ⟨found, (hother hne _).trans hfound, hcode⟩

end Indexed

end DeviceFlowStore

end WoodFiredTasks
