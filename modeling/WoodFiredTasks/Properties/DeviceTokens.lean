import WoodFiredTasks.Api.DeviceFlow

set_option autoImplicit false

/-! # Who gets the tokens of the device flow

`Lifecycle` is what the flow is for: a device code is approved by one user, one token is minted for
it, and the token is handed out once or is dead. The server follows it as long as no verify request
mints for a session that is approved already, and no session runs out while a live token waits on
it (`deviceTokens_sound`). The verify handler looks at neither, so both happen
(`deviceTokens_unsound`). -/

namespace WoodFiredTasks

/-! ## The life of a device code -/

/-- The token was minted for a pending session before it expired. -/
structure Mint.Timely (m : Mint) : Prop where
  pending : m.session.status = .pending
  unexpired : m.mintedAt ≤ m.session.expiresAt

/-- The session holds exactly this token for its approver. -/
structure DeviceFlowSession.Holds (σ : DeviceFlowSession) (m : Mint) : Prop where
  status : σ.status = .approved
  approvedUserId : σ.approvedUserId = some m.userId
  mintedTokenId : σ.mintedTokenId = some m.tokenId
  mintedToken : σ.mintedToken = some m.token

/-- No token is stashed on the session. -/
structure DeviceFlowSession.Bare (σ : DeviceFlowSession) : Prop where
  mintedTokenId : σ.mintedTokenId = none
  mintedToken : σ.mintedToken = none

/-- What may have happened to a device code, given its session. -/
inductive Lifecycle (now : Nat) (Live : Nat → Prop) : Option DeviceFlowSession → Ledger → Prop
  | unapproved {σ} : σ.status ≠ .approved → σ.Bare → Lifecycle now Live (some σ) {}
  | approved {σ u} : σ.status = .approved → σ.approvedUserId = some u → σ.Bare →
      Lifecycle now Live (some σ) ⟨[u], [], []⟩
  | stashed {σ} {m : Mint} : σ.Holds m → m.Timely → (Live m.tokenId → now ≤ σ.expiresAt) →
      Lifecycle now Live (some σ) ⟨[m.userId], [m], []⟩
  /-- No token was minted, whoever approved. -/
  | closed {us} : Lifecycle now Live none ⟨us, [], []⟩
  | dead {m : Mint} : m.Timely → ¬ Live m.tokenId → Lifecycle now Live none ⟨[m.userId], [m], []⟩
  | delivered {m : Mint} : m.Timely →
      Lifecycle now Live none ⟨[m.userId], [m], [⟨m.token, m.tokenId, m.userId⟩]⟩

namespace Lifecycle

variable {now now' : Nat} {Live Live' : Nat → Prop} {found : Option DeviceFlowSession}
  {σ : DeviceFlowSession} {l : Ledger}

/-- What is stashed on a session is a token that was minted for it, and if it is live then the
    session is within its time. -/
theorem stash (h : Lifecycle now Live (some σ) l) {id : Nat} (hid : σ.mintedTokenId = some id) :
    ∃ m ∈ l.mints, m.tokenId = id ∧ σ.Holds m ∧ (Live id → now ≤ σ.expiresAt) := by
  cases h with
  | unapproved _ hb => simp [hb.mintedTokenId] at hid
  | approved _ _ hb => simp [hb.mintedTokenId] at hid
  | stashed hh _ hl =>
    obtain rfl := Option.some.inj (hh.mintedTokenId.symm.trans hid)
    exact ⟨_, by simp, rfl, hh, hl⟩

/-- Tokens that die do no harm. -/
theorem fade (h : Lifecycle now Live found l)
    (hlive : ∀ m ∈ l.mints, Live' m.tokenId → Live m.tokenId) : Lifecycle now Live' found l := by
  cases h with
  | unapproved hs hb => exact .unapproved hs hb
  | approved hs hu hb => exact .approved hs hu hb
  | stashed hh ht hl => exact .stashed hh ht fun h' => hl (hlive _ (by simp) h')
  | closed => exact .closed
  | dead ht hd => exact .dead ht fun h' => hd (hlive _ (by simp) h')
  | delivered ht => exact .delivered ht

/-- Nor does time, while it leaves no live token on an expired session. -/
theorem later (h : Lifecycle now Live found l)
    (hnow : ∀ σ ∈ found, ∀ id ∈ σ.mintedTokenId, Live id → now' ≤ σ.expiresAt) :
    Lifecycle now' Live found l := by
  cases h with
  | unapproved hs hb => exact .unapproved hs hb
  | approved hs hu hb => exact .approved hs hu hb
  | stashed hh ht => exact .stashed hh ht (hnow _ rfl _ hh.mintedTokenId)
  | closed => exact .closed
  | dead ht hd => exact .dead ht hd
  | delivered ht => exact .delivered ht

/-- A poll that hands nothing out leaves the code where it is. -/
theorem touch (h : Lifecycle now Live (some σ) l) (interval lastPollAt : Nat) :
    Lifecycle now Live (some { σ with interval, lastPollAt }) l := by
  cases h with
  | unapproved hs hb => exact .unapproved hs ⟨hb.1, hb.2⟩
  | approved hs hu hb => exact .approved hs hu ⟨hb.1, hb.2⟩
  | stashed hh ht hl => exact .stashed ⟨hh.1, hh.2, hh.3, hh.4⟩ ht hl

/-- A session may go once no live token waits on it. -/
theorem removed (h : Lifecycle now Live (some σ) l) (hdead : ∀ id ∈ σ.mintedTokenId, ¬ Live id) :
    Lifecycle now Live none l := by
  cases h with
  | unapproved => exact .closed
  | approved => exact .closed
  | stashed hh ht => exact .dead ht (hdead _ hh.mintedTokenId)

/-- Nothing has happened yet to the code of a session that is not approved. -/
theorem eq_of_ne (h : Lifecycle now Live (some σ) l) (hs : σ.status ≠ .approved) :
    l = {} ∧ σ.Bare := by
  cases h with
  | unapproved _ hb => exact ⟨rfl, hb⟩
  | approved ha => exact absurd ha hs
  | stashed hh => exact absurd hh.status hs

/-- Handing out what is stashed is handing out the one token that was minted. -/
theorem handOut (h : Lifecycle now Live (some σ) l) {token : String} {tokenId userId : Nat}
    (htoken : σ.mintedToken = some token) (hid : σ.mintedTokenId = some tokenId)
    (hu : σ.approvedUserId = some userId) : Lifecycle now Live none
      { l with deliveries := l.deliveries ++ [⟨token, tokenId, userId⟩] } := by
  cases h with
  | unapproved _ hb => simp [hb.mintedToken] at htoken
  | approved _ _ hb => simp [hb.mintedToken] at htoken
  | stashed hh ht =>
    obtain rfl := Option.some.inj (hh.mintedToken.symm.trans htoken)
    obtain rfl := Option.some.inj (hh.mintedTokenId.symm.trans hid)
    obtain rfl := Option.some.inj (hh.approvedUserId.symm.trans hu)
    exact .delivered ht

end Lifecycle

namespace DeviceFlow

variable {s s' : DeviceFlow} {dc uc : String} {σ : DeviceFlowSession} {l : Ledger}

/-! ## The invariant -/

structure Inv (s : DeviceFlow) : Prop where
  indexed : s.store.Indexed
  codes : ∀ dc, Lifecycle s.now s.Live (s.store.findByDeviceCode dc) (s.ledger dc)
  minted : ∀ dc, ∀ m ∈ (s.ledger dc).mints, m.session.deviceCode = dc ∧
    m.tokenId < s.apiTokens.next ∧ ∀ row ∈ s.apiTokens.find? m.tokenId, row.userId = m.userId
  distinct : ∀ dc dc', ∀ m ∈ (s.ledger dc).mints, ∀ m' ∈ (s.ledger dc').mints,
    m.tokenId = m'.tokenId → dc = dc'
  /-- The foreign key of `api_tokens`. -/
  users : ∀ row ∈ s.apiTokens.rows, row.userId ∈ s.users

/-- Of the tokens there were, none has come to life, and none belongs to somebody else. -/
structure Fades (s s' : DeviceFlow) : Prop where
  next : s.apiTokens.next ≤ s'.apiTokens.next
  rows : ∀ id < s.apiTokens.next, ∀ row' ∈ s'.apiTokens.find? id, ∃ row ∈ s.apiTokens.find? id,
    row'.userId = row.userId ∧ (row'.revokedAt = none → row.revokedAt = none)
  users : ∀ row ∈ s'.apiTokens.rows, row.userId ∈ s'.users

theorem Fades.live (h : Fades s s') {id : Nat} (hid : id < s.apiTokens.next) (hlive : s'.Live id) :
    s.Live id := by
  obtain ⟨row', hrow', hnone⟩ := hlive
  obtain ⟨row, hrow, -, hrevoked⟩ := h.rows id hid row' hrow'
  exact ⟨row, hrow, hrevoked hnone⟩

theorem Fades.of_eq (htokens : s'.apiTokens = s.apiTokens) (husers : s'.users = s.users)
    (h : ∀ row ∈ s.apiTokens.rows, row.userId ∈ s.users) : Fades s s' := by
  constructor
  · rw [htokens]
  · intro id _ row hrow
    rw [htokens] at hrow
    exact ⟨row, hrow, rfl, fun h => h⟩
  · rw [htokens, husers]
    exact h

theorem Fades.revoke (h : ∀ row ∈ s.apiTokens.rows, row.userId ∈ s.users) (id userId : Nat) :
    Fades s (s.revokeToken id userId) := by
  constructor
  · simp [revokeToken]
  · intro j _ row' hrow'
    simp only [revokeToken, Table.find?_modify, Option.mem_def, Option.map_eq_some_iff] at hrow'
    obtain ⟨row, hrow, rfl⟩ := hrow'
    refine ⟨row, hrow, ?_⟩
    split
    · split
      · next hc => exact ⟨rfl, fun _ => hc.2⟩
      · exact ⟨rfl, fun h => h⟩
    · exact ⟨rfl, fun h => h⟩
  · intro row' hrow'
    simp only [revokeToken, Table.mem_modify] at hrow'
    obtain ⟨row, hrow, rfl⟩ := hrow'
    have huser := h row hrow
    split
    · split <;> exact huser
    · exact huser

theorem Fades.insert (h : ∀ row ∈ s.apiTokens.rows, row.userId ∈ s.users) {userId id : Nat}
    {hash : String} {throws : Bool} (hins : s.insertToken userId hash throws = some (id, s')) :
    Fades s s' := by
  unfold insertToken at hins
  split at hins
  · cases hins
  · next hok =>
    obtain ⟨rfl, rfl⟩ := Option.some.inj hins
    simp only [not_or, not_not] at hok
    refine ⟨by simp, fun j hj row hrow => ?_, fun row hrow => ?_⟩
    · rw [Table.find?_insert, if_neg (Nat.ne_of_lt hj)] at hrow
      exact ⟨row, hrow, rfl, fun h => h⟩
    · rcases Table.mem_insert.1 hrow with hold | rfl
      · exact h row hold
      · exact hok.2.1

/-- A step that deals with one device code keeps the invariant if that code goes on along its
    lifecycle, and what it mints is new. -/
theorem Inv.advance (h : s.Inv) (dc : String) (hnow : s'.now = s.now)
    (hindexed : s'.store.Indexed) (hfades : Fades s s')
    (hother : ∀ dc', dc' ≠ dc → s'.store.findByDeviceCode dc' = s.store.findByDeviceCode dc' ∧
      s'.ledger dc' = s.ledger dc')
    (hcode : Lifecycle s'.now s'.Live (s'.store.findByDeviceCode dc) (s'.ledger dc))
    (hmints : ∀ m ∈ (s'.ledger dc).mints, m ∈ (s.ledger dc).mints ∨
      m.session.deviceCode = dc ∧ s.apiTokens.next ≤ m.tokenId ∧ m.tokenId < s'.apiTokens.next ∧
        ∀ row ∈ s'.apiTokens.find? m.tokenId, row.userId = m.userId) : s'.Inv := by
  have hold : ∀ dc', ∀ m ∈ (s'.ledger dc').mints, m ∈ (s.ledger dc').mints ∨
      dc' = dc ∧ s.apiTokens.next ≤ m.tokenId := by
    intro dc' m hm
    by_cases heq : dc' = dc
    · subst heq
      rcases hmints m hm with hm' | ⟨-, hm', -⟩
      · exact .inl hm'
      · exact .inr ⟨rfl, hm'⟩
    · rw [(hother dc' heq).2] at hm
      exact .inl hm
  refine ⟨hindexed, fun dc' => ?_, fun dc' m hm => ?_, fun d d' m hm m' hm' hid => ?_, hfades.users⟩
  · by_cases heq : dc' = dc
    · rwa [heq]
    · rw [(hother dc' heq).1, (hother dc' heq).2, hnow]
      have hlive : ∀ m ∈ (s.ledger dc').mints, s'.Live m.tokenId → s.Live m.tokenId :=
        fun m hm => hfades.live (h.minted dc' m hm).2.1
      exact (h.codes dc').fade hlive
  · have hm' : m ∈ (s.ledger dc').mints ∨ dc' = dc ∧ m ∈ (s'.ledger dc).mints := by
      rcases hold dc' m hm with hm' | ⟨rfl, -⟩
      · exact .inl hm'
      · exact .inr ⟨rfl, hm⟩
    have hkept : m ∈ (s.ledger dc').mints → m.session.deviceCode = dc' ∧
        m.tokenId < s'.apiTokens.next ∧ ∀ row ∈ s'.apiTokens.find? m.tokenId, row.userId = m.userId := by
      intro hm'
      obtain ⟨hdc, hlt, howner⟩ := h.minted dc' m hm'
      refine ⟨hdc, lt_of_lt_of_le hlt hfades.next, fun row' hrow' => ?_⟩
      obtain ⟨row, hrow, huser, -⟩ := hfades.rows _ hlt row' hrow'
      rw [huser, howner row hrow]
    rcases hm' with hm' | ⟨rfl, hm'⟩
    · exact hkept hm'
    · rcases hmints m hm' with hold' | ⟨hdc, -, hlt, howner⟩
      · exact hkept hold'
      · exact ⟨hdc, hlt, howner⟩
  · rcases hold d m hm with hm | ⟨rfl, hnew⟩ <;> rcases hold d' m' hm' with hm' | ⟨rfl, hnew'⟩
    · exact h.distinct d d' m hm m' hm' hid
    · have := (h.minted d m hm).2.1
      omega
    · have := (h.minted d' m' hm').2.1
      omega
    · rfl

/-- A step that only writes sessions back. -/
theorem Inv.put (h : s.Inv) {σ' : DeviceFlowSession} (hfind : s.store.findByDeviceCode dc = some σ)
    (hdc : σ'.deviceCode = σ.deviceCode) (huc : σ'.userCode = σ.userCode)
    (hcode : Lifecycle s.now s.Live (some σ') (s.ledger dc)) :
    Inv { s with store := s.store.put σ' } := by
  have hkey : σ'.deviceCode = dc := hdc.trans (h.indexed.stored hfind).1
  refine h.advance dc rfl (h.indexed.put (by rwa [hkey]) huc) (.of_eq rfl rfl h.users) ?_ ?_ ?_
  · intro dc' hne
    refine ⟨?_, rfl⟩
    rw [DeviceFlowStore.findByDeviceCode_put, if_neg (by rwa [hkey])]
  · show Lifecycle s.now s.Live ((s.store.put σ').findByDeviceCode dc) (s.ledger dc)
    rwa [← hkey, DeviceFlowStore.findByDeviceCode_put_self, hkey]
  · exact fun m hm => .inl hm

/-- A step that removes a session, with what it notes about the device code. -/
theorem Inv.remove (h : s.Inv) (dc : String) (hnow : s'.now = s.now)
    (hstore : s'.store = s.store.remove dc) (hfades : Fades s s')
    (hother : ∀ dc', dc' ≠ dc → s'.ledger dc' = s.ledger dc')
    (hmints : (s'.ledger dc).mints = (s.ledger dc).mints)
    (hcode : Lifecycle s'.now s'.Live none (s'.ledger dc)) : s'.Inv := by
  refine h.advance dc hnow (hstore ▸ h.indexed.remove) hfades ?_ ?_ fun m hm => .inl (hmints ▸ hm)
  · intro dc' hne
    rw [hstore, DeviceFlowStore.findByDeviceCode_remove, if_neg hne]
    exact ⟨rfl, hother dc' hne⟩
  · rwa [hstore, DeviceFlowStore.findByDeviceCode_remove, if_pos rfl]

/-! ## What each step does -/

theorem inv_start (expectedClientId : String) (now : Nat) : (start expectedClientId now).Inv where
  indexed := DeviceFlowStore.indexed_empty
  codes dc := by
    simp only [start, DeviceFlowStore.empty, DeviceFlowStore.findByDeviceCode, AList.lookup_empty]
    exact .closed
  minted := by simp [start]
  distinct := by simp [start]
  users := by simp [start]

/-- The device code that is drawn is not that of a stored session, nor of one that was approved. -/
def FreshCode (s : DeviceFlow) : Action → Prop
  | .code _ deviceCode _ =>
    s.store.findByDeviceCode deviceCode = none ∧ s.ledger deviceCode = {}
  | _ => True

/-- A verify request that finds its session approved mints nothing (as its insert throws). -/
def MintsOnce (s : DeviceFlow) : Action → Prop
  | .verify request generated insertThrows _ =>
    ∀ target, s.verifyGates request = .ok target → target.2.status = .approved →
      s.insertToken request.userId generated.hash insertThrows = none
  | _ => True

/-- No session runs out while a live token waits on it. -/
def CollectsInTime (s : DeviceFlow) : Action → Prop
  | .wait ms => ∀ entry ∈ s.store.byDeviceCode.entries, ∀ id ∈ entry.2.mintedTokenId, s.Live id →
      s.now + ms ≤ entry.2.expiresAt
  | _ => True

instance (s : DeviceFlow) : DecidablePred s.FreshCode
  | .code _ deviceCode _ => inferInstanceAs (Decidable
      (s.store.findByDeviceCode deviceCode = none ∧ s.ledger deviceCode = {}))
  | .verify .. | .deny _ | .poll .. | .cleanup | .wait _ | .addUser _ | .deleteUser _ => isTrue trivial

instance (s : DeviceFlow) : DecidablePred s.MintsOnce
  | .verify request generated insertThrows _ =>
    match h : s.verifyGates request with
    | .error _ => isTrue (by simp [MintsOnce, h])
    | .ok target =>
      decidable_of_iff (target.2.status = .approved →
        (s.insertToken request.userId generated.hash insertThrows).isNone = true)
        (by simp [MintsOnce, h])
  | .code .. | .deny _ | .poll .. | .cleanup | .wait _ | .addUser _ | .deleteUser _ => isTrue trivial

instance (s : DeviceFlow) : DecidablePred s.CollectsInTime
  | .wait ms => inferInstanceAs (Decidable (∀ entry ∈ s.store.byDeviceCode.entries,
      ∀ id ∈ entry.2.mintedTokenId, s.Live id → s.now + ms ≤ entry.2.expiresAt))
  | .code .. | .verify .. | .deny _ | .poll .. | .cleanup | .addUser _ | .deleteUser _ =>
    isTrue trivial

theorem inv_code (h : s.Inv) (clientId deviceCode : String) (generateUserCode : Nat → String)
    (hfresh : s.FreshCode (.code clientId deviceCode generateUserCode)) :
    (s.code clientId deviceCode generateUserCode).2.Inv := by
  obtain ⟨hnone, hledger⟩ := hfresh
  unfold code
  split
  · exact h
  split
  · exact h
  cases hcreate : s.store.createSession s.now clientId deviceCode generateUserCode with
  | none => exact h
  | some created =>
    obtain ⟨hindexed, hself, hother, hpending⟩ := h.indexed.createSession hnone hcreate
    refine h.advance deviceCode rfl hindexed (.of_eq rfl rfl h.users) ?_ ?_ fun m hm => .inl hm
    · exact fun dc' hne => ⟨hother dc' hne, rfl⟩
    · show Lifecycle s.now s.Live (created.2.findByDeviceCode deviceCode) (s.ledger deviceCode)
      rw [hself, hledger]
      exact .unapproved (by simp [hpending.1]) ⟨hpending.2.1, hpending.2.2⟩

theorem inv_deny (h : s.Inv) (userCode : String) :
    Inv { s with store := (s.store.deny userCode).2 } := by
  unfold DeviceFlowStore.deny
  cases hfind : s.store.findByUserCode userCode with
  | none => exact h
  | some σ =>
    simp only
    split
    · exact h
    · next hpending =>
      have hσ := (h.indexed.of_userCode hfind).1
      have hc := h.codes σ.deviceCode
      rw [hσ] at hc
      obtain ⟨hl, hb⟩ := hc.eq_of_ne (by simp [not_not.1 hpending])
      refine h.put hσ rfl rfl ?_
      rw [hl]
      exact .unapproved (by simp) ⟨hb.1, hb.2⟩

/-- What passes the gates of the verify handler. -/
theorem verifyGates_ok {request : VerifyRequest} {userCode : String}
    (h : s.verifyGates request = .ok (userCode, σ)) : s.store.findByUserCode userCode = some σ ∧
      s.now ≤ σ.expiresAt ∧ (σ.status = .pending ∨ σ.status = .approved) := by
  unfold verifyGates at h
  split at h
  · cases h
  split at h
  · cases h
  split at h
  · cases h
  · next hfind =>
    split at h
    · cases h
    · next hgate =>
      cases h
      simp only [not_or, not_lt] at hgate
      refine ⟨hfind, hgate.2.1, ?_⟩
      cases hstatus : σ.status <;> simp_all

/-- The store after a user has approved a pending session. -/
theorem approve_pending (h : s.Inv) {userCode : String} (userId : Nat)
    (hfind : s.store.findByUserCode userCode = some σ) (hpending : σ.status = .pending) :
    s.approve userCode σ userId = { s with
      store := s.store.put { σ with status := .approved, approvedUserId := some userId }
      ledger := Function.update s.ledger σ.deviceCode ⟨[userId], [], []⟩ } := by
  have hσ := (h.indexed.of_userCode hfind).1
  have hc := h.codes σ.deviceCode
  rw [hσ] at hc
  have hl := (hc.eq_of_ne (by simp [hpending])).1
  simp [approve, DeviceFlowStore.approve, hfind, hpending, note, hl]

/-- A user approves a pending session. -/
theorem inv_approve (h : s.Inv) {userCode : String} (userId : Nat)
    (hfind : s.store.findByUserCode userCode = some σ) (hpending : σ.status = .pending) :
    (s.approve userCode σ userId).Inv := by
  obtain ⟨hσ, huc⟩ := h.indexed.of_userCode hfind
  have hc := h.codes σ.deviceCode
  rw [hσ] at hc
  have hb := (hc.eq_of_ne (by simp [hpending])).2
  rw [approve_pending h userId hfind hpending]
  refine h.advance σ.deviceCode rfl (h.indexed.put hσ rfl) (.of_eq rfl rfl h.users) ?_ ?_ ?_
  · intro dc' hne
    refine ⟨?_, Function.update_of_ne hne _ _⟩
    rw [DeviceFlowStore.findByDeviceCode_put, if_neg hne]
  · simp only [DeviceFlowStore.findByDeviceCode_put, Function.update_self, if_true]
    exact .approved rfl rfl ⟨hb.1, hb.2⟩
  · simp

/-- A token is minted for an approved session on which none is stashed yet. -/
theorem inv_mint (h : s.Inv) {userCode : String} {userId : Nat} (found : DeviceFlowSession)
    (hfind : s.store.findByUserCode userCode = some σ) (happroved : σ.status = .approved)
    (huser : σ.approvedUserId = some userId) (hledger : s.ledger σ.deviceCode = ⟨[userId], [], []⟩)
    (hdc : found.deviceCode = σ.deviceCode) (hpending : found.status = .pending)
    (hfresh : s.now ≤ found.expiresAt) (hexpires : s.now ≤ σ.expiresAt) (generated : GeneratedToken)
    (insertThrows revokeThrows : Bool) :
    (s.mint userCode found userId generated insertThrows revokeThrows).2.Inv := by
  unfold mint
  cases hins : s.insertToken userId generated.hash insertThrows with
  | none => exact h
  | some inserted =>
    obtain ⟨tokenId, s'⟩ := inserted
    have hfades := Fades.insert h.users hins
    unfold insertToken at hins
    split at hins
    · cases hins
    obtain ⟨rfl, rfl⟩ := Option.some.inj hins
    have hσ := (h.indexed.of_userCode hfind).1
    simp only [note, DeviceFlowStore.recordMintedToken, hfind, happroved, hdc, hledger, ne_eq,
      not_true_eq_false, if_false, List.nil_append]
    refine h.advance σ.deviceCode rfl (h.indexed.put hσ rfl)
      ⟨hfades.next, hfades.rows, hfades.users⟩ ?_ ?_ ?_
    · intro dc' hne
      refine ⟨?_, Function.update_of_ne hne _ _⟩
      rw [DeviceFlowStore.findByDeviceCode_put, if_neg hne]
    · simp only [DeviceFlowStore.findByDeviceCode_put, Function.update_self, if_true]
      exact .stashed (m := ⟨found, s.now, userId, s.apiTokens.next, generated.token⟩)
        ⟨rfl, huser, rfl, rfl⟩ ⟨hpending, hfresh⟩ fun _ => hexpires
    · simp [hdc, Table.find?_insert]

theorem inv_verify (h : s.Inv) (request : VerifyRequest) (generated : GeneratedToken)
    (insertThrows revokeThrows : Bool)
    (honce : s.MintsOnce (.verify request generated insertThrows revokeThrows)) :
    (s.verify request generated insertThrows revokeThrows).2.Inv := by
  unfold verify
  cases hgates : s.verifyGates request with
  | error reply => exact h
  | ok target =>
    obtain ⟨userCode, σ⟩ := target
    obtain ⟨hfind, hunexpired, hstatus⟩ := verifyGates_ok hgates
    simp only
    rcases hstatus with hpending | happroved
    · have hinv := inv_approve h request.userId hfind hpending
      have hstore := approve_pending h request.userId hfind hpending
      have hfind' : (s.approve userCode σ request.userId).store.findByUserCode userCode =
          some { σ with status := .approved, approvedUserId := some request.userId } := by
        rw [hstore]
        exact h.indexed.findByUserCode_put hfind rfl
      rw [hfind']
      refine inv_mint hinv σ hfind' rfl rfl ?_ rfl hpending ?_ ?_ generated insertThrows
        revokeThrows
      · rw [hstore]
        simp
      · rw [hstore]
        exact hunexpired
      · rw [hstore]
        exact hunexpired
    · -- the approval changes nothing, and by the condition the insert throws
      have hsame : s.approve userCode σ request.userId = s := by
        simp only [approve, happroved, reduceCtorEq, if_false, DeviceFlowStore.approve, hfind]
        split
        · rfl
        · simp
      have hthrows := honce _ hgates happroved
      simp only [hsame, hfind, mint, hthrows]
      exact h

/-- What passes the gates of the token handler. -/
theorem pollGates_ok {request : PollRequest} (h : s.pollGates request = .ok σ) :
    s.store.findByDeviceCode request.deviceCode = some σ := by
  unfold pollGates at h
  split at h
  · cases h
  split at h
  · cases h
  split at h
  · cases h
  split at h
  · cases h
  · next hfind =>
    split at h
    · cases h
    · cases h
      exact hfind

/-- A revoked token is not live, nor is one whose user is gone. -/
theorem not_live_of_vanished (h : s.Inv) {m : Mint} (hm : m ∈ (s.ledger dc).mints)
    (hgone : m.userId ∉ s.users) : ¬ s.Live m.tokenId := by
  rintro ⟨row, hrow, -⟩
  have howner := (h.minted dc m hm).2.2 row hrow
  exact hgone (howner ▸ h.users row (Table.find?_eq_some.1 hrow).1)

theorem inv_deliver (h : s.Inv) (revokeThrows : Bool)
    (hfind : s.store.findByDeviceCode dc = some σ) : (s.deliver dc σ revokeThrows).2.Inv := by
  have hdc : σ.deviceCode = dc := (h.indexed.stored hfind).1
  have hc := h.codes dc
  rw [hfind] at hc
  unfold deliver
  split
  · next token tokenId userId htoken hid huser =>
    split
    · next hgone =>
      -- the token went with its user, so there is nothing left to revoke
      have hdead : ∀ id ∈ σ.mintedTokenId, ¬ s.Live id := by
        intro id hid'
        obtain ⟨m, hm, rfl, hholds, -⟩ := hc.stash hid'
        have hsame := Option.some.inj (hholds.approvedUserId.symm.trans huser)
        exact not_live_of_vanished h hm (hsame ▸ hgone)
      have hfades : Fades s (if revokeThrows then s else s.revokeToken tokenId userId) := by
        split
        · exact .of_eq rfl rfl h.users
        · exact .revoke h.users tokenId userId
      refine h.remove dc ?_ ?_ ⟨hfades.next, hfades.rows, hfades.users⟩ ?_ ?_ ?_
      · split <;> rfl
      · rw [hdc]
        split <;> rfl
      · intro dc' _
        split <;> rfl
      · split <;> rfl
      · have hledger : (if revokeThrows = true then s else s.revokeToken tokenId userId).ledger =
            s.ledger := by split <;> rfl
        have hnow : (if revokeThrows = true then s else s.revokeToken tokenId userId).now =
            s.now := by split <;> rfl
        simp only [hledger, hnow]
        refine (hc.removed hdead).fade fun m hm => ?_
        exact Fades.live hfades (h.minted dc m hm).2.1
    · simp only [note, hdc]
      refine h.remove dc rfl rfl (.of_eq rfl rfl h.users) ?_ ?_ ?_
      · exact fun dc' hne => Function.update_of_ne hne _ _
      · simp
      · simp only [Function.update_self]
        exact hc.handOut htoken hid huser
  · exact h

theorem inv_poll (h : s.Inv) (request : PollRequest) (revokeThrows : Bool) :
    (s.poll request revokeThrows).2.Inv := by
  unfold poll
  cases hgates : s.pollGates request with
  | error reply => exact h
  | ok σ =>
    have hfind := pollGates_ok hgates
    have hc := h.codes request.deviceCode
    rw [hfind] at hc
    have hkey : σ.deviceCode = request.deviceCode := (h.indexed.stored hfind).1
    have htouch : ∀ interval lastPollAt,
        Inv { s with store := s.store.put { σ with interval, lastPollAt } } :=
      fun interval lastPollAt => h.put hfind rfl rfl (hc.touch interval lastPollAt)
    simp only
    split
    · exact htouch _ _
    · split
      · exact htouch σ.interval s.now
      · refine inv_deliver (htouch σ.interval s.now) revokeThrows ?_
        simp [DeviceFlowStore.findByDeviceCode_put, hkey]
      · exact htouch σ.interval s.now
      · exact htouch σ.interval s.now

/-- One turn of the cleanup loop. -/
theorem inv_dropExpired (h : s.Inv) (dc : String) :
    Inv { s with store := s.store.dropExpired s.now dc } := by
  unfold DeviceFlowStore.dropExpired
  cases hfind : s.store.findByDeviceCode dc with
  | none => exact h
  | some σ =>
    have hc := h.codes dc
    rw [hfind] at hc
    simp only
    split
    · next hexpired =>
      refine h.remove dc rfl rfl (.of_eq rfl rfl h.users) (fun _ _ => rfl) rfl (hc.removed ?_)
      intro id hid hlive
      obtain ⟨-, -, -, -, hwithin⟩ := hc.stash hid
      have hle := hwithin hlive
      omega
    · exact h

theorem inv_cleanup (h : s.Inv) : Inv { s with store := s.store.cleanup s.now } := by
  unfold DeviceFlowStore.cleanup
  generalize s.store.byDeviceCode.keys = keys
  induction keys generalizing s with
  | nil => exact h
  | cons dc rest ih => exact ih (inv_dropExpired h dc)

theorem inv_wait (h : s.Inv) (ms : Nat) (hcollects : s.CollectsInTime (.wait ms)) :
    Inv { s with now := s.now + ms } where
  indexed := h.indexed
  codes dc := (h.codes dc).later fun σ hσ => hcollects ⟨dc, σ⟩ (AList.mem_lookup_iff.1 hσ)
  minted := h.minted
  distinct := h.distinct
  users := h.users

/-- Users come and go; with them only tokens die. -/
theorem inv_users (h : s.Inv) {users : List Nat} {tokens : Table ApiToken ApiToken.id}
    (hfades : Fades s { s with users, apiTokens := tokens }) :
    Inv { s with users, apiTokens := tokens } where
  indexed := h.indexed
  codes dc := (h.codes dc).fade fun m hm => hfades.live (h.minted dc m hm).2.1
  minted dc m hm := by
    obtain ⟨hdc, hlt, howner⟩ := h.minted dc m hm
    refine ⟨hdc, lt_of_lt_of_le hlt hfades.next, fun row' hrow' => ?_⟩
    obtain ⟨row, hrow, huser, -⟩ := hfades.rows _ hlt row' hrow'
    rw [huser, howner row hrow]
  distinct := h.distinct
  users := hfades.users

theorem inv_deleteUser (h : s.Inv) (id : Nat) : (s.step (.deleteUser id)).Inv := by
  refine inv_users h ⟨le_rfl, fun j _ row hrow => ?_, fun row hrow => ?_⟩
  · rw [Table.find?_filter] at hrow
    exact ⟨row, (Option.filter_eq_some_iff.1 hrow).1, rfl, fun h => h⟩
  · obtain ⟨hmem, hne⟩ := Table.mem_filter.1 hrow
    exact List.mem_filter.2 ⟨h.users row hmem, hne⟩

/-- Every step that meets the conditions keeps the invariant. -/
theorem inv_step (h : s.Inv) (a : Action) (hfresh : s.FreshCode a) (honce : s.MintsOnce a)
    (hcollects : s.CollectsInTime a) : (s.step a).Inv := by
  cases a with
  | code clientId deviceCode generateUserCode => exact inv_code h _ _ _ hfresh
  | verify request generated insertThrows revokeThrows => exact inv_verify h _ _ _ _ honce
  | deny userCode => exact inv_deny h userCode
  | poll request revokeThrows => exact inv_poll h request revokeThrows
  | cleanup => exact inv_cleanup h
  | wait ms => exact inv_wait h ms hcollects
  | addUser id =>
    refine inv_users h ⟨le_rfl, fun j _ row hrow => ⟨row, hrow, rfl, fun h => h⟩, fun row hrow => ?_⟩
    exact List.mem_cons_of_mem id (h.users row hrow)
  | deleteUser id => exact inv_deleteUser h id

/-! ## What is promised of the tokens -/

/-- The token waits on the unexpired session of its device code, for its approver. -/
def Awaits (s : DeviceFlow) (deviceCode : String) (m : Mint) : Prop :=
  ∃ σ, s.store.findByDeviceCode deviceCode = some σ ∧ σ.Holds m ∧ s.now ≤ σ.expiresAt

/-- The integrity of the device flow's tokens. -/
structure TokensSound (s : DeviceFlow) : Prop where
  /-- A session that is denied, expired or already approved mints nothing. -/
  timely : ∀ dc, ∀ m ∈ (s.ledger dc).mints, m.Timely
  /-- A token belongs to the one user who approved the session it was minted for. -/
  owner : ∀ dc, ∀ m ∈ (s.ledger dc).mints, m.session.deviceCode = dc ∧
    (s.ledger dc).approvers = [m.userId] ∧ ∀ row ∈ s.apiTokens.find? m.tokenId, row.userId = m.userId
  /-- What is handed out for a device code is a token minted for it. -/
  delivered : ∀ dc, ∀ d ∈ (s.ledger dc).deliveries, ∃ m ∈ (s.ledger dc).mints,
    d = ⟨m.token, m.tokenId, m.userId⟩
  /-- It is handed out at most once, and under no other device code. -/
  once : ∀ dc, (s.ledger dc).deliveries.length ≤ 1
  distinct : ∀ dc dc', ∀ m ∈ (s.ledger dc).mints, ∀ m' ∈ (s.ledger dc').mints,
    m.tokenId = m'.tokenId → dc = dc'
  /-- A live token has been handed out or can still be. -/
  received : ∀ dc, ∀ m ∈ (s.ledger dc).mints, s.Live m.tokenId →
    (∃ d ∈ (s.ledger dc).deliveries, d.tokenId = m.tokenId) ∨ s.Awaits dc m

theorem Inv.tokensSound (h : s.Inv) : s.TokensSound := by
  have hcode : ∀ dc, ∀ m ∈ (s.ledger dc).mints, m.Timely ∧ (s.ledger dc).approvers = [m.userId] ∧
      (s.Live m.tokenId →
        (∃ d ∈ (s.ledger dc).deliveries, d.tokenId = m.tokenId) ∨ s.Awaits dc m) := by
    intro dc m hm
    have hc := h.codes dc
    unfold Awaits
    generalize s.store.findByDeviceCode dc = found at hc ⊢
    generalize s.ledger dc = l at hc hm ⊢
    cases hc with
    | unapproved => cases hm
    | approved => cases hm
    | closed => cases hm
    | stashed hh ht hl =>
      obtain rfl := List.mem_singleton.1 hm
      exact ⟨ht, rfl, fun hlive => .inr ⟨_, rfl, hh, hl hlive⟩⟩
    | dead ht hd =>
      obtain rfl := List.mem_singleton.1 hm
      exact ⟨ht, rfl, fun hlive => absurd hlive hd⟩
    | delivered ht =>
      obtain rfl := List.mem_singleton.1 hm
      exact ⟨ht, rfl, fun _ => .inl ⟨_, List.mem_singleton_self _, rfl⟩⟩
  have hdelivered : ∀ dc, (s.ledger dc).deliveries.length ≤ 1 ∧ ∀ d ∈ (s.ledger dc).deliveries,
      ∃ m ∈ (s.ledger dc).mints, d = ⟨m.token, m.tokenId, m.userId⟩ := by
    intro dc
    have hc := h.codes dc
    generalize s.store.findByDeviceCode dc = found at hc
    generalize s.ledger dc = l at hc ⊢
    cases hc <;> simp
  exact
    { timely := fun dc m hm => (hcode dc m hm).1
      owner := fun dc m hm =>
        ⟨(h.minted dc m hm).1, (hcode dc m hm).2.1, (h.minted dc m hm).2.2⟩
      delivered := fun dc => (hdelivered dc).2
      once := fun dc => (hdelivered dc).1
      distinct := h.distinct
      received := fun dc m hm => (hcode dc m hm).2.2 }

/-- **Main theorem.** In every run that draws new device codes, never mints for a session that is
    approved already, and lets no session run out while a live token waits on it, the tokens are
    sound in every state. -/
theorem deviceTokens_sound (expectedClientId : String) (now : Nat) (actions : List Action)
    (hfresh : RunOk step FreshCode (start expectedClientId now) actions)
    (honce : RunOk step MintsOnce (start expectedClientId now) actions)
    (hcollects : RunOk step CollectsInTime (start expectedClientId now) actions) :
    Always step TokensSound (start expectedClientId now) actions := by
  have hinv : Always step Inv (start expectedClientId now) actions :=
    (hfresh.and (honce.and hcollects)).always (fun s a h hc => inv_step h a hc.1 hc.2.1 hc.2.2)
      (inv_start expectedClientId now)
  exact hinv.mono fun s h => h.tokensSound

/-- A login up to the moment the user has approved the session and a token waits on it. -/
def approvedLogin : List Action :=
  [.addUser 1, .addUser 2, .code "cli" "device" fun _ => "ABCDEFGH",
    .verify ⟨1, true, some "ABCDEFGH"⟩ ⟨"first", "hash of first"⟩ false false]

/-- The client collects the token. -/
def collect : Action := .poll ⟨deviceCodeGrant, "device", "cli"⟩ false

theorem deviceTokens_sound_login :
    Always step TokensSound (start "cli" 0) (approvedLogin ++ [.wait 5000, collect]) :=
  deviceTokens_sound "cli" 0 _ (by decide +kernel) (by decide +kernel) (by decide +kernel)

/-- The token of that login. -/
def firstMint : Mint where
  session := ⟨"device", "ABCDEFGH", "cli", 0, 600000, 5, 0, .pending, none, none, none⟩
  mintedAt := 0
  userId := 1
  tokenId := 1
  token := "first"

/-- A live token that was not handed out and has no session left is nobody's. -/
theorem not_tokensSound (hmint : firstMint ∈ (s.ledger "device").mints) (hlive : s.Live 1)
    (hnot : ¬ ∃ d ∈ (s.ledger "device").deliveries, d.tokenId = 1)
    (hgone : s.store.findByDeviceCode "device" = none) : ¬ s.TokensSound := by
  intro h
  rcases h.received "device" firstMint hmint hlive with hdelivered | ⟨σ, hfind, -⟩
  · exact hnot hdelivered
  · rw [hgone] at hfind
    cases hfind

/-- A second user submits the same user code before the client collects. -/
def secondApproval : List Action :=
  approvedLogin ++
    [.verify ⟨2, true, some "ABCDEFGH"⟩ ⟨"second", "hash of second"⟩ false false, collect]

/-- The second request mints another token over the first, which stays live though nobody got it. -/
theorem deviceTokens_unsound :
    ¬ ∀ expectedClientId now actions, RunOk step FreshCode (start expectedClientId now) actions →
      Always step TokensSound (start expectedClientId now) actions := by
  intro h
  have hlast := (h "cli" 0 secondApproval (by decide +kernel)).last
  exact not_tokensSound (by decide +kernel) (by decide +kernel) (by decide +kernel)
    (by decide +kernel) hlast

/-- The client never collects the token. -/
def uncollected : List Action := approvedLogin ++ [.wait 600001, .cleanup]

/-- Nothing revokes a token that is not collected in time. -/
theorem deviceTokens_unsound_uncollected :
    ¬ ∀ expectedClientId now actions, RunOk step FreshCode (start expectedClientId now) actions →
      RunOk step MintsOnce (start expectedClientId now) actions →
      Always step TokensSound (start expectedClientId now) actions := by
  intro h
  have hlast := (h "cli" 0 uncollected (by decide +kernel) (by decide +kernel)).last
  exact not_tokensSound (by decide +kernel) (by decide +kernel) (by decide +kernel)
    (by decide +kernel) hlast

end DeviceFlow

end WoodFiredTasks
