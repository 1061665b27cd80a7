import WoodFiredTasks.Cli.DeviceLogin

set_option autoImplicit false

/-! # The client and the server of a device login

Whatever others do on the server, a login sends a bounded number of polls and ends soon after its
deadline. As long as nobody else polls with its device code, the server never asks it to slow down
and answers its first poll after the approval with the token (`login_paced`), and hands the token to
nobody else: every token that was handed out for the code is with the client, on its way to it, or
got lost on that way (`login_accounted`). -/

namespace WoodFiredTasks

/-! ## What an action of the server leaves alone -/

namespace DeviceFlow

/-- Every session is stored under its device code. -/
def Keyed (store : DeviceFlowStore) : Prop :=
  ∀ dc σ, store.findByDeviceCode dc = some σ → σ.deviceCode = dc

/-- The session of the device code has the interval of its creation, and no poll after a time. -/
def Quiet (s : DeviceFlow) (dc : String) (time : Nat) : Prop :=
  ∀ σ, s.store.findByDeviceCode dc = some σ → σ.interval = 5 ∧ σ.lastPollAt ≤ time

/-- The server has gone on, polling with no other device codes than these. -/
structure Aside (polled : List String) (s s' : DeviceFlow) : Prop where
  keyed : Keyed s'.store
  now : s.now ≤ s'.now
  client : s'.expectedClientId = s.expectedClientId
  quiet : ∀ dc, dc ∉ polled → ∀ time, s.Quiet dc time → s'.Quiet dc time
  kept : ∀ dc, (s.ledger dc).deliveries ⊆ (s'.ledger dc).deliveries
  deliveries : ∀ dc, dc ∉ polled → (s'.ledger dc).deliveries = (s.ledger dc).deliveries

section

variable {polled : List String} {dc : String} {s s' s'' : DeviceFlow} {σ σ' : DeviceFlowSession}
  {time time' : Nat}

theorem Quiet.mono (h : s.Quiet dc time) (htime : time ≤ time') : s.Quiet dc time' :=
  fun σ hσ => ⟨(h σ hσ).1, Nat.le_trans (h σ hσ).2 htime⟩

theorem Aside.refl (hkeyed : Keyed s.store) : Aside polled s s :=
  ⟨hkeyed, Nat.le_refl _, rfl, fun _ _ _ h => h, fun _ => List.Subset.refl _, fun _ _ => rfl⟩

theorem Aside.trans (h : Aside polled s s') (h' : Aside polled s' s'') : Aside polled s s'' where
  keyed := h'.keyed
  now := Nat.le_trans h.now h'.now
  client := h'.client.trans h.client
  quiet dc hdc time hquiet := h'.quiet dc hdc time (h.quiet dc hdc time hquiet)
  kept dc := List.Subset.trans (h.kept dc) (h'.kept dc)
  deliveries dc hdc := (h'.deliveries dc hdc).trans (h.deliveries dc hdc)

/-- Neither the store nor what was handed out has changed. -/
theorem Aside.of_eq (hkeyed : Keyed s.store) (hstore : s'.store = s.store)
    (hdeliveries : ∀ dc, (s'.ledger dc).deliveries = (s.ledger dc).deliveries)
    (hnow : s.now ≤ s'.now) (hclient : s'.expectedClientId = s.expectedClientId) :
    Aside polled s s' where
  keyed := hstore ▸ hkeyed
  now := hnow
  client := hclient
  quiet dc _ time hquiet σ hσ := hquiet σ (hstore ▸ hσ)
  kept dc := by rw [hdeliveries dc]; exact List.Subset.refl _
  deliveries dc _ := hdeliveries dc

/-- A step that changes the store only. -/
theorem Aside.store {store : DeviceFlowStore} (hkeyed : Keyed store)
    (hquiet : ∀ dc, dc ∉ polled → ∀ time, s.Quiet dc time →
      ({ s with store } : DeviceFlow).Quiet dc time) : Aside polled s { s with store } :=
  ⟨hkeyed, Nat.le_refl _, rfl, hquiet, fun _ => List.Subset.refl _, fun _ _ => rfl⟩

/-- A session is written back, with its pace if its device code has not been polled with. -/
theorem Aside.put (hkeyed : Keyed s.store) (hfind : s.store.findByDeviceCode σ'.deviceCode = some σ)
    (hpace : σ'.deviceCode ∉ polled → σ'.interval = σ.interval ∧ σ'.lastPollAt = σ.lastPollAt) :
    Aside polled s { s with store := s.store.put σ' } := by
  refine .store (fun dc found hfound => ?_) fun dc hdc time hquiet found hfound => ?_
  · rw [DeviceFlowStore.findByDeviceCode_put] at hfound
    split_ifs at hfound with heq
    · rw [← Option.some.inj hfound, heq]
    · exact hkeyed dc found hfound
  · replace hfound : (s.store.put σ').findByDeviceCode dc = some found := hfound
    rw [DeviceFlowStore.findByDeviceCode_put] at hfound
    split_ifs at hfound with heq
    · obtain rfl := Option.some.inj hfound
      obtain ⟨hinterval, hlast⟩ := hpace (heq ▸ hdc)
      rw [hinterval, hlast]
      exact hquiet σ (heq ▸ hfind)
    · exact hquiet found hfound

theorem Aside.remove (hkeyed : Keyed s.store) (code : String) :
    Aside polled s { s with store := s.store.remove code } := by
  have hfind : ∀ dc found, (s.store.remove code).findByDeviceCode dc = some found →
      s.store.findByDeviceCode dc = some found := by
    intro dc found hfound
    rw [DeviceFlowStore.findByDeviceCode_remove] at hfound
    split_ifs at hfound
    exact hfound
  exact .store (fun dc found h => hkeyed dc found (hfind dc found h))
    fun dc _ time hquiet found h => hquiet found (hfind dc found h)

theorem find_of_userCode {store : DeviceFlowStore} (hkeyed : Keyed store) {userCode : String}
    (h : store.findByUserCode userCode = some σ) :
    store.findByDeviceCode σ.deviceCode = some σ := by
  obtain ⟨code, -, hfind⟩ := Option.bind_eq_some_iff.1 h
  rwa [hkeyed code σ hfind]

/-! ## The actions one by one -/

theorem aside_code (hkeyed : Keyed s.store) (clientId deviceCode : String)
    (generateUserCode : Nat → String) :
    Aside polled s (s.code clientId deviceCode generateUserCode).2 := by
  unfold code
  split_ifs
  · exact .refl hkeyed
  · exact .refl hkeyed
  cases hcreate : s.store.createSession s.now clientId deviceCode generateUserCode with
  | none => exact .refl hkeyed
  | some created =>
    obtain ⟨userCode, -, rfl⟩ := Option.map_eq_some_iff.1 hcreate
    refine .store (fun dc found hfound => ?_) fun dc _ time hquiet found hfound => ?_
    · by_cases heq : dc = deviceCode
      · subst heq
        obtain rfl := Option.some.inj ((AList.lookup_insert _).symm.trans hfound)
        rfl
      · exact hkeyed dc found ((AList.lookup_insert_ne heq).symm.trans hfound)
    · by_cases heq : dc = deviceCode
      · subst heq
        obtain rfl := Option.some.inj ((AList.lookup_insert _).symm.trans hfound)
        exact ⟨rfl, Nat.zero_le _⟩
      · exact hquiet found ((AList.lookup_insert_ne heq).symm.trans hfound)

theorem aside_deny (hkeyed : Keyed s.store) (userCode : String) :
    Aside polled s { s with store := (s.store.deny userCode).2 } := by
  unfold DeviceFlowStore.deny
  cases hfind : s.store.findByUserCode userCode with
  | none => exact .refl hkeyed
  | some σ =>
    have hcode := find_of_userCode hkeyed hfind
    simp only
    split_ifs
    · exact .refl hkeyed
    · exact .put hkeyed hcode fun _ => ⟨rfl, rfl⟩

theorem aside_approve (hkeyed : Keyed s.store) (userCode : String) (session : DeviceFlowSession)
    (userId : Nat) : Aside polled s (s.approve userCode session userId) := by
  have hstore : Aside polled s { s with store := (s.store.approve userCode userId).2 } := by
    unfold DeviceFlowStore.approve
    cases hfind : s.store.findByUserCode userCode with
    | none => exact .refl hkeyed
    | some σ =>
      have hcode := find_of_userCode hkeyed hfind
      simp only
      split_ifs
      · exact .refl hkeyed
      · exact .refl hkeyed
      · exact .put hkeyed hcode fun _ => ⟨rfl, rfl⟩
  unfold approve
  split_ifs
  · refine hstore.trans (.of_eq hstore.keyed rfl (fun dc => ?_) (Nat.le_refl _) rfl)
    by_cases heq : dc = session.deviceCode
    · simp [note, heq]
    · simp [note, heq]
  · exact hstore

theorem aside_recordMintedToken (hkeyed : Keyed s.store) (userCode : String) (tokenId : Nat)
    (token : String) :
    Aside polled s { s with store := (s.store.recordMintedToken userCode tokenId token).2 } := by
  unfold DeviceFlowStore.recordMintedToken
  cases hfind : s.store.findByUserCode userCode with
  | none => exact .refl hkeyed
  | some σ =>
    have hcode := find_of_userCode hkeyed hfind
    simp only
    split_ifs
    · exact .refl hkeyed
    · exact .put hkeyed hcode fun _ => ⟨rfl, rfl⟩

theorem aside_mint (hkeyed : Keyed s.store) (userCode : String) (found : DeviceFlowSession)
    (userId : Nat) (generated : GeneratedToken) (insertThrows revokeThrows : Bool) :
    Aside polled s (s.mint userCode found userId generated insertThrows revokeThrows).2 := by
  -- the rows and the note
  have hnoted : ∀ tokens mints, Aside polled s { s with
      apiTokens := tokens
      ledger := Function.update s.ledger found.deviceCode
        { s.ledger found.deviceCode with mints } } := by
    intro tokens mints
    refine .of_eq hkeyed rfl (fun dc => ?_) (Nat.le_refl _) rfl
    by_cases heq : dc = found.deviceCode
    · simp [heq]
    · simp [heq]
  unfold mint
  cases hinsert : s.insertToken userId generated.hash insertThrows with
  | none => exact .refl hkeyed
  | some inserted =>
    obtain ⟨tokenId, s'⟩ := inserted
    unfold insertToken at hinsert
    split_ifs at hinsert
    obtain ⟨rfl, rfl⟩ := Prod.mk.inj (Option.some.inj hinsert)
    simp only [note]
    have hrecorded : Aside polled s { s with
        store := (s.store.recordMintedToken userCode s.apiTokens.next generated.token).2 } :=
      aside_recordMintedToken hkeyed ..
    cases hrecord : s.store.recordMintedToken userCode s.apiTokens.next generated.token with
    | mk recorded store =>
      rw [hrecord] at hrecorded
      cases recorded with
      | false =>
        simp only
        split_ifs
        · exact hnoted _ _
        · exact hnoted _ _
      | true => exact (hnoted _ _).trans (.store hrecorded.keyed hrecorded.quiet)

theorem aside_verify (hkeyed : Keyed s.store) (request : VerifyRequest) (generated : GeneratedToken)
    (insertThrows revokeThrows : Bool) :
    Aside polled s (s.verify request generated insertThrows revokeThrows).2 := by
  unfold verify
  cases hgates : s.verifyGates request with
  | error reply => exact .refl hkeyed
  | ok target =>
    obtain ⟨userCode, session⟩ := target
    have happroved : Aside polled s (s.approve userCode session request.userId) :=
      aside_approve hkeyed userCode session request.userId
    simp only
    split
    · exact happroved
    · exact happroved.trans (aside_mint happroved.keyed ..)

theorem aside_cleanup (hkeyed : Keyed s.store) (codes : List String) :
    Aside polled s
      { s with store := codes.foldl (DeviceFlowStore.dropExpired s.now) s.store } := by
  induction codes generalizing s with
  | nil => exact .refl hkeyed
  | cons code rest ih =>
    have hdrop : Aside polled s
        { s with store := DeviceFlowStore.dropExpired s.now s.store code } := by
      unfold DeviceFlowStore.dropExpired
      split
      · exact .refl hkeyed
      split_ifs
      · exact .remove hkeyed code
      · exact .refl hkeyed
    exact hdrop.trans (ih hdrop.keyed)

/-! ## Polls -/

/-- The session notes the poll. -/
def touched (s : DeviceFlow) (session : DeviceFlowSession) : DeviceFlow :=
  { s with store := s.store.put { session with lastPollAt := s.now } }

/-- What a poll with a device code can come to. -/
inductive Polled (s : DeviceFlow) (dc : String) : PollReply × DeviceFlow → Prop
  | refused {error : String} : error ≠ "slow_down" → Polled s dc (.error error, s)
  | tooSoon {session : DeviceFlowSession} : s.store.findByDeviceCode dc = some session →
      tooSoon s.now session = true → Polled s dc (.error "slow_down", { s with
        store := s.store.put
          { session with interval := min (session.interval + 5) 60, lastPollAt := s.now } })
  | waiting {session : DeviceFlowSession} {error : String} :
      s.store.findByDeviceCode dc = some session → error ≠ "slow_down" →
      Polled s dc (.error error, s.touched session)
  /-- The user is gone. -/
  | gone {session : DeviceFlowSession} {tokens : Table ApiToken ApiToken.id} :
      s.store.findByDeviceCode dc = some session → Polled s dc (.error "expired_token",
        { s with
          store := (s.touched session).store.remove session.deviceCode
          apiTokens := tokens })
  | delivered {session : DeviceFlowSession} {envelope : TokenEnvelope} :
      s.store.findByDeviceCode dc = some session → Polled s dc (.delivered envelope,
        note { s with store := (s.touched session).store.remove session.deviceCode } dc
          fun l => { l with deliveries := l.deliveries ++ [envelope] })

theorem find_of_pollGates {request : PollRequest} (h : s.pollGates request = .ok σ) :
    s.store.findByDeviceCode request.deviceCode = some σ := by
  unfold pollGates at h
  split_ifs at h
  cases hfind : s.store.findByDeviceCode request.deviceCode with
  | none => simp [hfind] at h
  | some found =>
    simp only [hfind] at h
    split_ifs at h
    rw [Except.ok.inj h]

theorem refused_of_pollGates {request : PollRequest} {reply : PollReply}
    (h : s.pollGates request = .error reply) :
    ∃ error, error ≠ "slow_down" ∧ reply = .error error := by
  have herror : ∀ error, error ≠ "slow_down" → PollReply.error error = reply →
      ∃ error, error ≠ "slow_down" ∧ reply = .error error :=
    fun error hne heq => ⟨error, hne, heq.symm⟩
  unfold pollGates at h
  split_ifs at h
  · exact herror _ (by decide) (Except.error.inj h)
  · exact herror _ (by decide) (Except.error.inj h)
  · exact herror _ (by decide) (Except.error.inj h)
  cases hfind : s.store.findByDeviceCode request.deviceCode with
  | none =>
    simp only [hfind] at h
    exact herror _ (by decide) (Except.error.inj h)
  | some found =>
    simp only [hfind] at h
    split_ifs at h
    exact herror _ (by decide) (Except.error.inj h)

theorem polled_poll (request : PollRequest) (revokeThrows : Bool) :
    Polled s request.deviceCode (s.poll request revokeThrows) := by
  unfold poll
  cases hgates : s.pollGates request with
  | error reply =>
    obtain ⟨error, hne, rfl⟩ := refused_of_pollGates hgates
    exact .refused hne
  | ok session =>
    have hfind : s.store.findByDeviceCode request.deviceCode = some session :=
      find_of_pollGates hgates
    simp only
    split_ifs with hsoon
    · exact .tooSoon hfind hsoon
    split
    · exact .waiting hfind (by decide)
    · simp only [deliver]
      split
      · split_ifs
        · exact .delivered hfind
        · exact .gone hfind
        · exact .gone hfind
      · exact .waiting hfind (by decide)
    · exact .waiting hfind (by decide)
    · exact .waiting hfind (by decide)

theorem aside_polled {dc : String} {answer : PollReply × DeviceFlow} (hkeyed : Keyed s.store)
    (h : Polled s dc answer) : Aside [dc] s answer.2 := by
  have hput : ∀ session session', s.store.findByDeviceCode dc = some session →
      session'.deviceCode = session.deviceCode →
      Aside [dc] s { s with store := s.store.put session' } := by
    intro session session' hfind heq
    have hdc : session'.deviceCode = dc := heq.trans (hkeyed dc session hfind)
    exact .put hkeyed (hdc ▸ hfind) fun hnot => absurd (List.mem_singleton.2 hdc) hnot
  have hremoved : ∀ session, s.store.findByDeviceCode dc = some session → Aside [dc] s
      { s with store := (s.touched session).store.remove session.deviceCode } := by
    intro session hfind
    have htouched : Aside [dc] s (s.touched session) := hput session _ hfind rfl
    exact htouched.trans (.remove htouched.keyed _)
  cases h with
  | refused => exact .refl hkeyed
  | tooSoon hfind => exact hput _ _ hfind rfl
  | waiting hfind => exact hput _ _ hfind rfl
  | gone hfind =>
    have hout := hremoved _ hfind
    exact hout.trans (.of_eq hout.keyed rfl (fun _ => rfl) (Nat.le_refl _) rfl)
  | delivered hfind =>
    have hout := hremoved _ hfind
    refine ⟨hout.keyed, hout.now, hout.client, hout.quiet, fun dc' => ?_, fun dc' hdc' => ?_⟩
    · by_cases heq : dc' = dc
      · simp [note, heq]
      · simp [note, heq]
    · simp [note, List.ne_of_not_mem_cons hdc']

/-- The answers that carry a token. -/
def handedOut : PollReply → List TokenEnvelope
  | .delivered envelope => [envelope]
  | .error _ => []

theorem deliveries_polled {answer : PollReply × DeviceFlow} (h : Polled s dc answer) :
    (answer.2.ledger dc).deliveries = (s.ledger dc).deliveries ++ handedOut answer.1 := by
  cases h with
  | refused => simp [handedOut]
  | tooSoon => simp [handedOut]
  | waiting => simp [handedOut, touched]
  | gone => simp [handedOut]
  | delivered => simp [handedOut, note]

/-- A poll that comes five seconds after the last one is not turned away, and the session keeps its
    interval. -/
theorem quiet_polled {answer : PollReply × DeviceFlow} (hkeyed : Keyed s.store)
    (hquiet : s.Quiet dc (s.now - 5000)) (h : Polled s dc answer) :
    answer.1 ≠ .error "slow_down" ∧ answer.2.Quiet dc s.now := by
  have htouched : ∀ session, s.store.findByDeviceCode dc = some session →
      (s.touched session).Quiet dc s.now := by
    intro session hfind found hfound
    have hdc : session.deviceCode = dc := hkeyed dc session hfind
    replace hfound : (s.store.put { session with lastPollAt := s.now }).findByDeviceCode dc =
      some found := hfound
    rw [DeviceFlowStore.findByDeviceCode_put, if_pos hdc.symm] at hfound
    obtain rfl := Option.some.inj hfound
    exact ⟨(hquiet session hfind).1, Nat.le_refl _⟩
  have hremoved : ∀ session, s.store.findByDeviceCode dc = some session → ∀ found,
      ((s.touched session).store.remove session.deviceCode).findByDeviceCode dc ≠ some found := by
    intro session hfind found hfound
    rw [DeviceFlowStore.findByDeviceCode_remove, if_pos (hkeyed dc session hfind).symm] at hfound
    exact absurd hfound.symm (Option.some_ne_none _)
  cases h with
  | refused hne => exact ⟨by simpa using hne, hquiet.mono (Nat.sub_le _ _)⟩
  | @tooSoon session hfind hsoon =>
    obtain ⟨hinterval, hlast⟩ := hquiet session hfind
    simp only [DeviceFlow.tooSoon, hinterval, Bool.and_eq_true, decide_eq_true_eq] at hsoon
    omega
  | waiting hfind hne => exact ⟨by simpa using hne, htouched _ hfind⟩
  | gone hfind => exact ⟨by simp, fun found hfound => absurd hfound (hremoved _ hfind found)⟩
  | delivered hfind => exact ⟨by simp, fun found hfound => absurd hfound (hremoved _ hfind found)⟩

end

/-- Only a poll concerns the pace of a session, and only that of the code it names. -/
theorem aside_step {s : DeviceFlow} (hkeyed : Keyed s.store) (a : Action) :
    Aside (DeviceLogin.Login.codesPolled a) s (s.step a) := by
  cases a with
  | code clientId deviceCode generateUserCode => exact aside_code hkeyed ..
  | verify request generated insertThrows revokeThrows => exact aside_verify hkeyed ..
  | deny userCode => exact aside_deny hkeyed userCode
  | poll request revokeThrows => exact aside_polled hkeyed (polled_poll request revokeThrows)
  | cleanup => exact aside_cleanup hkeyed s.store.byDeviceCode.keys
  | wait ms => exact .of_eq hkeyed rfl (fun _ => rfl) (Nat.le_add_right _ _) rfl
  | addUser id => exact .of_eq hkeyed rfl (fun _ => rfl) (Nat.le_refl _) rfl
  | deleteUser id => exact .of_eq hkeyed rfl (fun _ => rfl) (Nat.le_refl _) rfl

end DeviceFlow

namespace DeviceLogin.Login

open DeviceFlow (Keyed Quiet Aside handedOut aside_step polled_poll aside_polled deliveries_polled
  quiet_polled aside_code)

variable {s s' : Login}

/-! ## The pace of the client -/

/-- Polls lie five seconds apart, so that there are at most 120 of them before the deadline. -/
def Pace (s : Login) : Prop :=
  match s.phase with
  | .idle => s.polls = 0 ∧ s.lost = []
  | .requested => s.polls = 0
  | .sleeping wakeAt => 5 ≤ s.poller.interval ∧ s.poller.interval ≤ 5 + 5 * s.polls ∧
      s.polls < 120 ∧ s.poller.deadline + 5000 * (s.polls + 1) ≤ wakeAt + 600000 ∧
      wakeAt < s.poller.deadline + s.poller.interval * 1000
  | .polling | .answered _ => 5 ≤ s.poller.interval ∧ s.poller.interval ≤ 5 * s.polls ∧
      s.polls ≤ 120 ∧ s.poller.deadline + 5000 * s.polls ≤ s.server.now + 600000
  | .done _ => s.polls ≤ 120

theorem Pace.polls_le (h : s.Pace) : s.polls ≤ 120 := by
  unfold Pace at h
  split at h <;> omega

/-- What the pace is in a given phase. -/
theorem Pace.at_phase (h : s.Pace) {phase : Phase} (hphase : s.phase = phase) :
    Pace { s with phase } := by
  subst hphase
  exact h

/-- Time passes on the server. -/
theorem Pace.later (h : s.Pace) {server : DeviceFlow} (codes : List String)
    (hnow : s.server.now ≤ server.now) : Pace { s with server, polledByOthers := codes } := by
  obtain ⟨server₀, poller, phase, polls, codes₀, lost⟩ := s
  cases phase with
  | idle => exact h
  | requested => exact h
  | sleeping wakeAt => exact h
  | polling =>
    obtain ⟨hge, hle, hpolls, htime⟩ := h
    exact ⟨hge, hle, hpolls, Nat.le_trans htime (Nat.add_le_add_right hnow _)⟩
  | answered reply =>
    obtain ⟨hge, hle, hpolls, htime⟩ := h
    exact ⟨hge, hle, hpolls, Nat.le_trans htime (Nat.add_le_add_right hnow _)⟩
  | done result => exact h

theorem pace_turn (hge : 5 ≤ s.poller.interval) (hle : s.poller.interval ≤ 5 + 5 * s.polls)
    (hpolls : s.polls ≤ 120)
    (hpace : s.poller.deadline + 5000 * s.polls ≤ s.server.now + 600000) : s.turn.Pace := by
  unfold turn
  split_ifs with hlate
  · exact hpolls
  · show 5 ≤ s.poller.interval ∧ s.poller.interval ≤ 5 + 5 * s.polls ∧ s.polls < 120 ∧
      s.poller.deadline + 5000 * (s.polls + 1) ≤
        s.server.now + s.poller.interval * 1000 + 600000 ∧
      s.server.now + s.poller.interval * 1000 < s.poller.deadline + s.poller.interval * 1000
    omega

/-! ## The invariant -/

/-- The token that the client has, or that is on its way to it. -/
def inHand (s : Login) : List TokenEnvelope :=
  match s.phase with
  | .answered reply => handedOut reply
  | .done (.ok envelope) => [envelope]
  | _ => []

/-- No poll of the client has come to the server after this time. -/
def lastPoll (s : Login) : Nat :=
  match s.phase with
  | .idle | .requested => 0
  | .sleeping wakeAt => wakeAt - 5000
  | .polling => s.server.now - 5000
  | .answered _ | .done _ => s.server.now

/-- What holds of the client's device code while nobody else polls with it. -/
structure Own (s : Login) : Prop where
  quiet : s.server.Quiet s.poller.deviceCode s.lastPoll
  deliveries : (s.server.ledger s.poller.deviceCode).deliveries = s.lost ++ s.inHand
  notSlowed : s.phase ≠ .answered (.error "slow_down")

structure Inv (s : Login) : Prop where
  keyed : Keyed s.server.store
  pace : s.Pace
  client : (s.phase = .idle ∨ ∃ result, s.phase = .done result) ∨
    s.poller.clientId = s.server.expectedClientId ∧ s.poller.clientId ≠ ""
  /-- No session has been polled under a code that is neither the client's nor polled by others. -/
  untouched : ∀ dc, dc ∉ s.polledByOthers → s.phase = .idle ∨ dc ≠ s.poller.deviceCode →
    s.server.Quiet dc 0 ∧ (s.server.ledger dc).deliveries = []
  own : s.phase ≠ .idle → s.poller.deviceCode ∉ s.polledByOthers → s.Own
  handedOut : ∀ envelope ∈ s.lost ++ s.inHand,
    envelope ∈ (s.server.ledger s.poller.deviceCode).deliveries

theorem inv_start (expectedClientId : String) (now : Nat) : (start expectedClientId now).Inv := by
  have hnone : ∀ dc σ, (start expectedClientId now).server.store.findByDeviceCode dc ≠ some σ := by
    intro dc σ h
    exact absurd ((AList.lookup_empty dc).symm.trans h).symm (Option.some_ne_none _)
  exact ⟨fun dc σ h => absurd h (hnone dc σ), ⟨rfl, rfl⟩, .inl (.inl rfl),
    fun dc _ _ => ⟨fun σ h => absurd h (hnone dc σ), rfl⟩, fun h => absurd rfl h,
    by simp [start, inHand]⟩

/-- In a login that is under way, the client is one that the server knows. -/
theorem Inv.known (h : s.Inv) (hidle : s.phase ≠ .idle) (hopen : ∀ result, s.phase ≠ .done result) :
    s.poller.clientId = s.server.expectedClientId ∧ s.poller.clientId ≠ "" := by
  rcases h.client with (hphase | ⟨result, hphase⟩) | hclient
  · exact absurd hphase hidle
  · exact absurd hphase (hopen result)
  · exact hclient

/-- The client goes on without the server. -/
theorem Inv.move (h : s.Inv) (hserver : s'.server = s.server)
    (hcode : s'.poller.deviceCode = s.poller.deviceCode)
    (hclient : s'.poller.clientId = s.poller.clientId)
    (hothers : s'.polledByOthers = s.polledByOthers) (hphase : s.phase ≠ .idle)
    (hopen : ∀ result, s.phase ≠ .done result) (hphase' : s'.phase ≠ .idle) (hpace : s'.Pace)
    (hlast : s.lastPoll ≤ s'.lastPoll) (hheld : s'.lost ++ s'.inHand = s.lost ++ s.inHand)
    (hslowed : s'.phase ≠ .answered (.error "slow_down")) : s'.Inv := by
  refine ⟨hserver ▸ h.keyed, hpace, .inr ?_, fun dc hdc hne => ?_, fun _ hown => ?_, ?_⟩
  · rw [hclient, hserver]
    exact h.known hphase hopen
  · rw [hserver]
    refine h.untouched dc (hothers ▸ hdc) (.inr ?_)
    rcases hne with hidle | hne
    · exact absurd hidle hphase'
    · exact hcode ▸ hne
  · have hs := h.own hphase (hcode ▸ hothers ▸ hown)
    refine ⟨?_, ?_, hslowed⟩
    · rw [hserver, hcode]
      exact hs.quiet.mono hlast
    · rw [hserver, hcode, hheld]
      exact hs.deliveries
  · rw [hheld, hserver, hcode]
    exact h.handedOut

/-- The login ends, with the token that it has or without one. -/
theorem Inv.finish (h : s.Inv) {result : Result} {lost : List TokenEnvelope}
    (hphase : s.phase ≠ .idle) (hopen : ∀ result, s.phase ≠ .done result)
    (hlast : s.lastPoll ≤ s.server.now)
    (hheld : lost ++ inHand { s with phase := .done result } = s.lost ++ s.inHand) :
    ({ s with phase := .done result, lost } : Login).Inv :=
  h.move rfl rfl rfl rfl hphase hopen (by simp) h.pace.polls_le hlast hheld (by simp)

/-- The loop goes round. -/
theorem Inv.turn (h : s.Inv) {poller : Poller} (hcode : poller.deviceCode = s.poller.deviceCode)
    (hclient : poller.clientId = s.poller.clientId) (hphase : s.phase ≠ .idle)
    (hopen : ∀ result, s.phase ≠ .done result) (hhand : s.inHand = [])
    (hlast : s.lastPoll ≤ s.server.now) (hge : 5 ≤ poller.interval)
    (hle : poller.interval ≤ 5 + 5 * s.polls)
    (hpace : poller.deadline + 5000 * s.polls ≤ s.server.now + 600000) :
    (Login.turn { s with poller }).Inv := by
  have hturned : (Login.turn { s with poller }).Pace := pace_turn hge hle h.pace.polls_le hpace
  unfold Login.turn at hturned ⊢
  split_ifs at hturned ⊢
  · exact h.move rfl hcode hclient rfl hphase hopen (by simp) hturned hlast
      (by rw [hhand]; rfl) (by simp)
  · refine h.move rfl hcode hclient rfl hphase hopen (by simp) hturned ?_ (by rw [hhand]; rfl)
      (by simp)
    -- the interval is five seconds at least
    show s.lastPoll ≤ s.server.now + poller.interval * 1000 - 5000
    omega

theorem inv_other (h : s.Inv) (a : DeviceFlow.Action) : (s.step (.other a)).Inv := by
  have haside := aside_step h.keyed a
  have hnow : s.server.now ≤ (s.server.step a).now := haside.now
  have hlast : s.lastPoll ≤ (s.step (.other a)).lastPoll := by
    simp only [lastPoll, step]
    split <;> omega
  refine ⟨haside.keyed, ?_, ?_, fun dc hdc hne => ?_, fun hphase hown => ?_, fun e he => ?_⟩
  · exact h.pace.later _ hnow
  · rcases h.client with hphase | ⟨hid, hne⟩
    · exact .inl hphase
    · exact .inr ⟨hid.trans haside.client.symm, hne⟩
  · obtain ⟨hdc, hpolled⟩ := not_or.1 fun hor => hdc (List.mem_append.2 hor)
    obtain ⟨hquiet, hnone⟩ := h.untouched dc hdc hne
    exact ⟨haside.quiet dc hpolled 0 hquiet, (haside.deliveries dc hpolled).trans hnone⟩
  · obtain ⟨hown, hpolled⟩ := not_or.1 fun hor => hown (List.mem_append.2 hor)
    obtain ⟨hquiet, hdeliveries, hslowed⟩ := h.own hphase hown
    exact ⟨(haside.quiet _ hpolled _ hquiet).mono hlast,
      (haside.deliveries _ hpolled).trans hdeliveries, hslowed⟩
  · exact haside.kept _ (h.handedOut e he)

/-- What a code request that is answered has got past. -/
theorem code_created {server server' : DeviceFlow} {clientId deviceCode : String}
    {generateUserCode : Nat → String} {dc uc : String}
    (h : server.code clientId deviceCode generateUserCode = (.created dc uc, server')) :
    clientId = server.expectedClientId ∧ clientId ≠ "" := by
  unfold DeviceFlow.code at h
  split_ifs at h with hempty hclient
  · simp at h
  · simp at h
  · exact ⟨not_not.1 hclient, hempty⟩

theorem inv_request (h : s.Inv) (hphase : s.phase = .idle) (clientId deviceCode : String)
    (generateUserCode : Nat → String) :
    (s.request clientId deviceCode generateUserCode).Inv := by
  have haside : Aside [] s.server (s.server.code clientId deviceCode generateUserCode).2 :=
    aside_code h.keyed clientId deviceCode generateUserCode
  obtain ⟨hpolls, hlost⟩ : s.polls = 0 ∧ s.lost = [] := h.pace.at_phase hphase
  have huntouched : ∀ dc, dc ∉ s.polledByOthers →
      (s.server.code clientId deviceCode generateUserCode).2.Quiet dc 0 ∧
        ((s.server.code clientId deviceCode generateUserCode).2.ledger dc).deliveries = [] := by
    intro dc hdc
    obtain ⟨hquiet, hnone⟩ := h.untouched dc hdc (.inl hphase)
    exact ⟨haside.quiet dc (List.not_mem_nil) 0 hquiet,
      (haside.deliveries dc (List.not_mem_nil)).trans hnone⟩
  unfold request
  cases hcode : s.server.code clientId deviceCode generateUserCode with
  | mk reply server =>
    rw [hcode] at haside huntouched
    cases reply with
    | error code error =>
      refine ⟨haside.keyed, ?_, .inl (.inr ⟨_, rfl⟩), fun dc hdc _ => huntouched dc hdc,
        fun _ hown => ⟨?_, ?_, by simp⟩, by simp [inHand, hlost]⟩
      · show s.polls ≤ 120
        omega
      · exact (huntouched _ hown).1.mono (Nat.zero_le _)
      · exact (huntouched _ hown).2.trans (by simp [inHand, hlost])
    | created dc uc =>
      obtain ⟨hclient, hne⟩ := code_created hcode
      refine ⟨haside.keyed, hpolls, .inr ⟨hclient.trans haside.client.symm, hne⟩,
        fun dc hdc _ => huntouched dc hdc, fun _ hown => ⟨?_, ?_, by simp⟩, by simp [inHand, hlost]⟩
      · exact (huntouched _ hown).1
      · exact (huntouched _ hown).2.trans (by simp [inHand, hlost])

theorem inv_arrive (h : s.Inv) (hphase : s.phase = .polling) (revokeThrows : Bool) :
    (s.arrive revokeThrows).Inv := by
  have hpolled := polled_poll (s := s.server)
    ⟨DeviceFlow.deviceCodeGrant, s.poller.deviceCode, s.poller.clientId⟩ revokeThrows
  unfold arrive
  cases hpoll : s.server.poll ⟨DeviceFlow.deviceCodeGrant, s.poller.deviceCode, s.poller.clientId⟩
      revokeThrows with
  | mk reply server =>
    rw [hpoll] at hpolled
    have haside := aside_polled h.keyed hpolled
    have hdeliveries := deliveries_polled hpolled
    refine ⟨haside.keyed, ?_, .inr ?_, fun dc hdc hne => ?_, fun _ hown => ?_, fun e he => ?_⟩
    · obtain ⟨hge, hle, hpolls, htime⟩ := h.pace.at_phase hphase
      exact ⟨hge, hle, hpolls, Nat.le_trans htime (Nat.add_le_add_right haside.now _)⟩
    · obtain ⟨hid, hne⟩ := h.known (by simp [hphase]) (by simp [hphase])
      exact ⟨hid.trans haside.client.symm, hne⟩
    · have hne : dc ≠ s.poller.deviceCode := hne.resolve_left (by simp)
      obtain ⟨hquiet, hnone⟩ := h.untouched dc hdc (.inr hne)
      have hdc' : dc ∉ [s.poller.deviceCode] := by simpa using hne
      exact ⟨haside.quiet dc hdc' 0 hquiet, (haside.deliveries dc hdc').trans hnone⟩
    · obtain ⟨hquiet, hheld, -⟩ := h.own (by simp [hphase]) hown
      simp only [lastPoll, hphase] at hquiet
      simp only [inHand, hphase, List.append_nil] at hheld
      obtain ⟨hslowed, hquiet'⟩ := quiet_polled h.keyed hquiet hpolled
      exact ⟨hquiet'.mono haside.now, hdeliveries.trans (by rw [hheld]; rfl),
        by simpa using hslowed⟩
    · show e ∈ (server.ledger s.poller.deviceCode).deliveries
      have hold := h.handedOut e
      simp only [inHand, hphase, List.append_nil] at hold
      rw [hdeliveries]
      rcases List.mem_append.1 he with hlost | hnew
      · exact List.mem_append_left _ (hold hlost)
      · exact List.mem_append_right _ hnew

theorem inv_receive (h : s.Inv) {reply : DeviceFlow.PollReply}
    (hphase : s.phase = .answered reply) : (s.receive reply).Inv := by
  have hidle : s.phase ≠ .idle := by simp [hphase]
  have hopen : ∀ result, s.phase ≠ .done result := by simp [hphase]
  have hlast : s.lastPoll = s.server.now := by simp [lastPoll, hphase]
  obtain ⟨hge, hle, hpolls, htime⟩ : 5 ≤ s.poller.interval ∧ s.poller.interval ≤ 5 * s.polls ∧
      s.polls ≤ 120 ∧ s.poller.deadline + 5000 * s.polls ≤ s.server.now + 600000 :=
    h.pace.at_phase hphase
  cases reply with
  | delivered envelope =>
    exact h.finish hidle hopen (Nat.le_of_eq hlast)
      (by simp [inHand, hphase, DeviceFlow.handedOut])
  | error error =>
    have hhand : s.inHand = [] := by simp [inHand, hphase, DeviceFlow.handedOut]
    have hdone : ∀ code message,
        ({ s with phase := .done (.terminalError code message) } : Login).Inv :=
      fun _ _ => h.finish hidle hopen (Nat.le_of_eq hlast) (by rw [hhand]; rfl)
    simp only [receive]
    split_ifs
    · exact h.turn rfl rfl hidle hopen hhand (Nat.le_of_eq hlast) hge (by omega) htime
    · exact h.turn rfl rfl hidle hopen hhand (Nat.le_of_eq hlast) (Nat.le_add_right_of_le hge)
        (by simp only; omega) htime
    · split
      · exact hdone _ _
      · exact hdone _ _

theorem inv_fail (h : s.Inv) (message : String) : (s.step (.fail message)).Inv := by
  simp only [step]
  split
  · next hphase =>
    exact h.finish (by simp [hphase]) (by simp [hphase]) (by simp [lastPoll, hphase])
      (by simp [inHand, hphase])
  · next hphase =>
    exact h.finish (by simp [hphase]) (by simp [hphase]) (by simp [lastPoll, hphase])
      (by simp [inHand, hphase])
  · next envelope hphase =>
    -- the token was on its way
    exact h.finish (by simp [hphase]) (by simp [hphase]) (by simp [lastPoll, hphase])
      (by simp [inHand, hphase, DeviceFlow.handedOut])
  · next error hphase =>
    exact h.finish (by simp [hphase]) (by simp [hphase]) (by simp [lastPoll, hphase])
      (by simp [inHand, hphase, DeviceFlow.handedOut])
  · exact h

theorem inv_step (h : s.Inv) (a : Action) : (s.step a).Inv := by
  cases a with
  | other a => exact inv_other h a
  | request clientId deviceCode generateUserCode =>
    simp only [step]
    split
    · next hphase => exact inv_request h hphase clientId deviceCode generateUserCode
    · exact h
  | pollForToken =>
    simp only [step]
    split
    · next hphase =>
      have hpolls : s.polls = 0 := h.pace.at_phase hphase
      have hinterval : max minIntervalS publishedInterval = 5 := rfl
      have hexpires : min maxExpiresInS publishedExpiresIn * 1000 = 600000 := rfl
      refine h.turn rfl rfl (by simp [hphase]) (by simp [hphase]) (by simp [inHand, hphase])
        (by simp [lastPoll, hphase]) (Nat.le_of_eq hinterval.symm) ?_ ?_
      · simp only [hpolls, hinterval]
        omega
      · simp only [hpolls, hexpires]
        omega
    · exact h
  | wake =>
    simp only [step]
    split
    · next wakeAt hphase =>
      split_ifs with hwake
      · obtain ⟨hge, hle, hpolls, htime, -⟩ : 5 ≤ s.poller.interval ∧
            s.poller.interval ≤ 5 + 5 * s.polls ∧ s.polls < 120 ∧
            s.poller.deadline + 5000 * (s.polls + 1) ≤ wakeAt + 600000 ∧
            wakeAt < s.poller.deadline + s.poller.interval * 1000 := h.pace.at_phase hphase
        refine h.move rfl rfl rfl rfl (by simp [hphase]) (by simp [hphase]) (by simp) ?_ ?_
          (by simp [inHand, hphase]) (by simp)
        · exact ⟨hge, by simp only; omega, hpolls, by simp only; omega⟩
        · simp only [lastPoll, hphase]
          omega
      · exact h
    · exact h
  | arrive revokeThrows =>
    simp only [step]
    split
    · next hphase => exact inv_arrive h hphase revokeThrows
    · exact h
  | receive =>
    simp only [step]
    split
    · next reply hphase => exact inv_receive h hphase
    · exact h
  | fail message => exact inv_fail h message

theorem inv_run (expectedClientId : String) (now : Nat) (actions : List Action) :
    (actions.foldl step (start expectedClientId now)).Inv :=
  (RunOk.of_forall (C := fun _ _ => True) fun _ _ _ => trivial).invariant
    (fun _ a h _ => inv_step h a) (inv_start expectedClientId now)

/-! ## What a login can rely on -/

/-- The user has approved the login in time, and the token waits for it. -/
structure Ready (s : Login) (envelope : TokenEnvelope) (session : DeviceFlowSession) : Prop where
  found : s.server.store.findByDeviceCode s.poller.deviceCode = some session
  unexpired : s.server.now ≤ session.expiresAt
  status : session.status = .approved
  mintedToken : session.mintedToken = some envelope.token
  mintedTokenId : session.mintedTokenId = some envelope.tokenId
  approvedUserId : session.approvedUserId = some envelope.userId
  user : envelope.userId ∈ s.server.users

/-- The next poll takes the token. -/
theorem arrive_ready (h : s.Inv) (hphase : s.phase = .polling) (hne : s.poller.deviceCode ≠ "")
    (hown : s.poller.deviceCode ∉ s.polledByOthers) {envelope : TokenEnvelope}
    {session : DeviceFlowSession} (hready : s.Ready envelope session) (revokeThrows : Bool) :
    (s.arrive revokeThrows).phase = .answered (.delivered envelope) := by
  obtain ⟨hclient, hid⟩ := h.known (by simp [hphase]) (by simp [hphase])
  have hgates : s.server.pollGates ⟨DeviceFlow.deviceCodeGrant, s.poller.deviceCode,
      s.poller.clientId⟩ = .ok session := by
    unfold DeviceFlow.pollGates
    have hgrant : DeviceFlow.deviceCodeGrant ≠ "" := by decide
    simp [hgrant, hne, hclient ▸ hid, hclient, hready.found, Nat.not_lt.2 hready.unexpired]
  have hsoon : DeviceFlow.tooSoon s.server.now session = false := by
    obtain ⟨hinterval, hlast⟩ := (h.own (by simp [hphase]) hown).quiet session hready.found
    simp only [lastPoll, hphase] at hlast
    simp only [DeviceFlow.tooSoon, hinterval, Bool.and_eq_false_iff, decide_eq_false_iff_not]
    omega
  unfold arrive DeviceFlow.poll
  simp [hgates, hsoon, hready.status, DeviceFlow.deliver, hready.mintedToken,
    hready.mintedTokenId, hready.approvedUserId, hready.user]

/-- **Main theorem.** In every run, a login polls at most 120 times and does not sleep past its
    deadline for longer than its interval. While nobody else polls with its device code, it is never
    asked to slow down, and a poll that comes once the token waits is answered with it. -/
theorem login_paced (expectedClientId : String) (now : Nat) (actions : List Action) :
    let s := actions.foldl step (start expectedClientId now)
    s.polls ≤ 120 ∧
    (∀ wakeAt, s.phase = .sleeping wakeAt → s.poller.interval ≤ 5 + 5 * s.polls ∧
      wakeAt < s.poller.deadline + s.poller.interval * 1000) ∧
    (s.poller.deviceCode ∉ s.polledByOthers → s.phase ≠ .answered (.error "slow_down") ∧
      (s.phase = .polling → s.poller.deviceCode ≠ "" → ∀ envelope session,
        s.Ready envelope session → ∀ revokeThrows,
          (s.step (.arrive revokeThrows)).phase = .answered (.delivered envelope))) := by
  intro s
  have h : s.Inv := inv_run expectedClientId now actions
  refine ⟨h.pace.polls_le, fun wakeAt hphase => ?_, fun hown => ⟨fun hslowed => ?_, ?_⟩⟩
  · obtain ⟨-, hle, -, -, hwake⟩ := h.pace.at_phase hphase
    exact ⟨hle, hwake⟩
  · exact (h.own (by simp [hslowed]) hown).notSlowed hslowed
  · intro hphase hne envelope session hready revokeThrows
    simp only [step, hphase]
    exact arrive_ready h hphase hne hown hready revokeThrows

/-- **Main theorem.** In every run, the token that a login ends with was handed out for its device
    code. While nobody else polls with that code, nobody else gets a token for it: what was handed
    out got lost on the way, is on its way, or is what the login ended with. -/
theorem login_accounted (expectedClientId : String) (now : Nat) (actions : List Action) :
    let s := actions.foldl step (start expectedClientId now)
    (∀ envelope ∈ s.lost ++ s.inHand,
      envelope ∈ (s.server.ledger s.poller.deviceCode).deliveries) ∧
    (s.phase ≠ .idle → s.poller.deviceCode ∉ s.polledByOthers →
      (s.server.ledger s.poller.deviceCode).deliveries = s.lost ++ s.inHand) := by
  intro s
  have h : s.Inv := inv_run expectedClientId now actions
  exact ⟨h.handedOut, fun hphase hown => (h.own hphase hown).deliveries⟩

/-- The user approves while the client sleeps, and the first poll takes the token. -/
def approvedLogin : List Action :=
  [.other (.addUser 7), .request "cli" "device" (fun _ => "ABCDEFGH"), .pollForToken,
    .other (.verify ⟨7, true, some "ABCDEFGH"⟩ ⟨"token", "hash"⟩ false false), .other (.wait 5000),
    .wake, .arrive false, .receive]

example : (approvedLogin.foldl step (start "cli" 1)).phase =
    .done (.ok ⟨"token", 1, 7⟩) := by decide

end DeviceLogin.Login

end WoodFiredTasks
