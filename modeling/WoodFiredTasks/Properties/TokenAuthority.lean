import WoodFiredTasks.Api.AuthChain
import WoodFiredTasks.Lib.Runs

set_option autoImplicit false

/-! # The authority of a token

What a personal access token can do, over whole runs in which requests, their handlers and every
other writer take their steps in any order. A token lets its holder in exactly as long as it is
minted, not revoked, not deleted with its project, in its time, and its user is not disabled
(`tryPat_matched_iff`). It never mints a token, and revokes none but itself (`tokens_attributed`).
Every call that it has in flight is within the tier and the project that it was minted with
(`calls_confined`).

`TokenStep` says once what a step can do to the tokens; the invariants are derived from it. -/

namespace WoodFiredTasks.AuthChain

open Router (Json)
open PatScope (findUnknownScopes grantSatisfiesScope)
open ProjectBinding (admits)

/-! ## Calls in flight -/

/-- The gates let the call through. -/
structure Call.Gated (call : Call) : Prop where
  sessionOnly : call.endpoint.config.sessionOnly = true → call.principal.authMethod = .session
  scope : ∀ required ∈ call.endpoint.config.requiredScope,
    grantSatisfiesScope call.principal.scopes required = true
  binding : ∀ project ∈ call.principal.projectId,
    admits (some project) call.arrivedIn call.endpoint.routed = true

namespace Server

variable {p : Platform} {s s' : Server}

theorem gated_of_enforce {endpoint : Endpoint} {result : AuthResult}
    (h : s.enforce endpoint result = none) : Call.Gated ⟨result, endpoint, s.db⟩ := by
  unfold enforce at h
  obtain ⟨hsession, hrest⟩ := Option.or_eq_none_iff.1 h
  obtain ⟨hscope, hbinding⟩ := Option.or_eq_none_iff.1 hrest
  refine ⟨fun honly => ?_, fun required hrequired => ?_, fun project hproject => ?_⟩
  · by_contra hne
    rw [enforceSessionOnly, if_pos ⟨honly, hne⟩] at hsession
    contradiction
  · rw [enforceRequiredScope, Option.mem_def.1 hrequired] at hscope
    by_contra hne
    simp only [hne, if_false, reduceCtorEq] at hscope
  · rw [enforceProjectBinding, Option.mem_def.1 hproject] at hbinding
    by_contra hne
    simp only [hne, if_false, reduceCtorEq] at hbinding

/-! ## What a step does to the tokens -/

/-- Only a session of the user mints a token, apart from the command line. -/
def Minter (caller : Option AuthResult) (input : TokenInput) : Prop :=
  ∀ c ∈ caller, c.authMethod = .session ∧ input.userId = c.user.id

/-- Only a session of its user or the token itself revokes it, apart from the device flow. -/
def Revoker (caller : Option AuthResult) (row : ApiToken) : Prop :=
  ∀ c ∈ caller, row.userId = c.user.id ∧ (c.authMethod = .session ∨ c.tokenId = some row.id)

inductive TokenStep (s s' : Server) : Prop
  | idle : s'.apiTokens = s.apiTokens → s'.ledger = s.ledger → TokenStep s s'
  | mint (input : TokenInput) (caller : Option AuthResult) :
      s.rowFits input = true → findUnknownScopes input.scopes = [] → Minter caller input →
      s'.apiTokens = s.apiTokens.insert (s.tokenRow input) (s.tokenRow_id input) →
      s'.ledger = s.ledger ++ [.minted s.apiTokens.next input caller] → TokenStep s s'
  | revoke (row : ApiToken) (caller : Option AuthResult) :
      s.apiTokens.find? row.id = some row → Revoker caller row →
      s'.apiTokens = s.apiTokens.modify row.id (ApiToken.setRevokedAt s.now) (fun _ => rfl) →
      s'.ledger = s.ledger ++ [.revoked row.id caller] → TokenStep s s'
  | drop (db : Db) :
      s'.apiTokens = s.apiTokens.filter (fun row => !orphaned db row) →
      s'.ledger = s.ledger ++ [.dropped ((s.apiTokens.rows.filter (orphaned db)).map ApiToken.id)] →
      TokenStep s s'
  | touch (id : Nat) :
      s'.apiTokens = s.apiTokens.modify id (ApiToken.setLastUsedAt s.now) (fun _ => rfl) →
      s'.ledger = s.ledger → TokenStep s s'

/-- What the handlers leave alone. -/
structure Frame (s s' : Server) : Prop where
  inFlight : s'.inFlight = s.inFlight
  touchCache : s'.touchCache = s.touchCache
  touchLog : s'.touchLog = s.touchLog

theorem Frame.refl (s : Server) : Frame s s := ⟨rfl, rfl, rfl⟩

theorem insert_step {caller : Option AuthResult} {input : TokenInput} {row : ApiToken}
    (hcaller : Minter caller input) (h : s.insert caller input = .ok (row, s')) :
    TokenStep s s' ∧ Frame s s' := by
  unfold insert at h
  split_ifs at h with hscopes hproject hfits
  obtain ⟨-, rfl⟩ := Prod.mk.inj (Except.ok.inj h)
  exact ⟨.mint input caller (by simpa using hfits) (not_not.1 hscopes) hcaller rfl rfl,
    ⟨rfl, rfl, rfl⟩⟩

theorem revoke_step {caller : Option AuthResult} {id userId : Nat}
    (hcaller : ∀ c ∈ caller, userId = c.user.id ∧ (c.authMethod = .session ∨ c.tokenId = some id)) :
    TokenStep s (s.revoke caller id userId).2 ∧ Frame s (s.revoke caller id userId).2 := by
  unfold revoke
  split
  · exact ⟨.idle rfl rfl, .refl s⟩
  · rename_i row hrow
    split_ifs with h
    · obtain ⟨-, rfl⟩ := Table.find?_eq_some.1 hrow
      refine ⟨.revoke row caller hrow (fun c hc => ?_) rfl rfl, ⟨rfl, rfl, rfl⟩⟩
      exact ⟨h.1.trans (hcaller c hc).1, (hcaller c hc).2⟩
    · exact ⟨.idle rfl rfl, .refl s⟩

theorem scheduleLastUsedTouch_tokens (s : Server) (tokenId : Option Nat) :
    (s.scheduleLastUsedTouch tokenId).apiTokens = s.apiTokens ∧
      (s.scheduleLastUsedTouch tokenId).ledger = s.ledger ∧
      (s.scheduleLastUsedTouch tokenId).inFlight = s.inFlight ∧
      (s.scheduleLastUsedTouch tokenId).db = s.db := by
  unfold scheduleLastUsedTouch
  split
  · exact ⟨rfl, rfl, rfl, rfl⟩
  · split_ifs <;> exact ⟨rfl, rfl, rfl, rfl⟩

/-- A caller that the chain has found, in a server. -/
def Found (p : Platform) (s : Server) (result : AuthResult) : Prop :=
  (∃ authorization, s.tryPat p authorization = .matched result) ∨
    ∃ user, result = sessionResult user

/-- What a step does to the calls in flight and to the debounce. -/
structure ArrivalStep (p : Platform) (s s' : Server) : Prop where
  calls : ∀ call ∈ s'.inFlight, call ∈ s.inFlight ∨ call.Gated ∧ Found p s call.principal
  touches : ∃ tokenId, s'.touchCache = (s.scheduleLastUsedTouch tokenId).touchCache ∧
    s'.touchLog = (s.scheduleLastUsedTouch tokenId).touchLog

theorem ArrivalStep.of_frame (h : Frame s s') : ArrivalStep p s s' where
  calls := fun _ hcall => .inl (h.inFlight ▸ hcall)
  touches := ⟨none, h.touchCache, h.touchLog⟩

theorem admit_step {t : Server} {endpoint : Endpoint} {result : AuthResult} {tokenId : Option Nat}
    (ht : t = s.scheduleLastUsedTouch tokenId) (hfound : Found p s result) :
    (t.letIn endpoint result).2.apiTokens = s.apiTokens ∧
      (t.letIn endpoint result).2.ledger = s.ledger ∧
      ArrivalStep p s (t.letIn endpoint result).2 := by
  obtain ⟨htokens, hledger, hcalls, -⟩ := scheduleLastUsedTouch_tokens s tokenId
  rw [← ht] at htokens hledger hcalls
  unfold letIn
  split
  · exact ⟨htokens, hledger, fun call hcall => .inl (hcalls ▸ hcall), tokenId, by rw [ht], by rw [ht]⟩
  · rename_i henforce
    refine ⟨htokens, hledger, fun call hcall => ?_, tokenId, by rw [ht], by rw [ht]⟩
    rcases List.mem_append.1 hcall with hold | hlast
    · exact .inl (hcalls ▸ hold)
    · obtain rfl := List.mem_singleton.1 hlast
      exact .inr ⟨gated_of_enforce henforce, hfound⟩

/-- What `preHandler` does: nothing to the tokens, and at most it lets one call through the gates. -/
theorem preHandler_step (p : Platform) (s : Server) (request : Request) (endpoint : Endpoint) :
    (s.preHandler p request endpoint).2.apiTokens = s.apiTokens ∧
      (s.preHandler p request endpoint).2.ledger = s.ledger ∧
      ArrivalStep p s (s.preHandler p request endpoint).2 := by
  unfold preHandler
  split
  · exact ⟨rfl, rfl, .of_frame (.refl s)⟩
  · rename_i result hmatched
    exact admit_step rfl (.inl ⟨_, hmatched⟩)
  · split
    · rename_i result hmatched
      have hfound : Found p s result := by
        unfold trySession at hmatched
        split at hmatched
        · contradiction
        · exact .inr ⟨_, (StrategyOutcome.matched.inj hmatched).symm⟩
      have hnone : s = s.scheduleLastUsedTouch none := rfl
      exact admit_step hnone hfound
    · exact ⟨rfl, rfl, .of_frame (.refl s)⟩
    · exact ⟨rfl, rfl, .of_frame (.refl s)⟩

/-- What a handler does, of a call that has passed the gates. -/
theorem handle_step {call : Call} (hcall : call.Gated) (randomBytes : List UInt8)
    (effect : Db → Db) :
    TokenStep s (s.handle p call randomBytes effect).2 ∧
      Frame s (s.handle p call randomBytes effect).2 := by
  have hinsert : ∀ {input : TokenInput} {row : ApiToken} {s' : Server},
      s.insert (some call.principal) input = .ok (row, s') →
      call.endpoint.config.sessionOnly = true → input.userId = call.principal.user.id →
      TokenStep s s' ∧ Frame s s' := by
    intro input row s' h honly huser
    refine insert_step (fun c hc => ?_) h
    obtain rfl := Option.some.inj hc
    exact ⟨hcall.sessionOnly honly, huser⟩
  have hsession : ∀ endpoint, call.endpoint = endpoint → endpoint.config.sessionOnly = true →
      call.endpoint.config.sessionOnly = true := by
    rintro endpoint rfl h
    exact h
  unfold handle
  split
  · rename_i body hendpoint
    unfold mintToken
    split
    · exact ⟨.idle rfl rfl, .refl s⟩
    · simp only
      split_ifs
      · exact ⟨.idle rfl rfl, .refl s⟩
      · exact ⟨.idle rfl rfl, .refl s⟩
      · split
        · exact ⟨.idle rfl rfl, .refl s⟩
        · rename_i hinserted
          exact hinsert hinserted (hsession _ hendpoint rfl) rfl
  · rename_i csrfOk parsed hendpoint
    unfold mintTokenForm
    split_ifs
    · exact ⟨.idle rfl rfl, .refl s⟩
    · split
      · exact ⟨.idle rfl rfl, .refl s⟩
      · split_ifs
        · exact ⟨.idle rfl rfl, .refl s⟩
        · simp only
          split
          · exact ⟨.idle rfl rfl, .refl s⟩
          · rename_i hinserted
            exact hinsert hinserted (hsession _ hendpoint rfl) rfl
  · exact ⟨.idle rfl rfl, .refl s⟩
  · unfold revokeActive
    split
    · exact ⟨.idle rfl rfl, .refl s⟩
    · rename_i tokenId htoken
      refine revoke_step fun c hc => ?_
      obtain rfl := Option.some.inj hc
      exact ⟨rfl, .inr htoken⟩
  · rename_i id hendpoint
    refine revoke_step fun c hc => ?_
    obtain rfl := Option.some.inj hc
    exact ⟨rfl, .inl (hcall.sessionOnly (hsession _ hendpoint rfl))⟩
  · rename_i tokenName hendpoint
    unfold approveDevice
    simp only
    split
    · exact ⟨.idle rfl rfl, .refl s⟩
    · rename_i hinserted
      exact hinsert hinserted (hsession _ hendpoint rfl) rfl
  · exact ⟨.drop _ rfl rfl, ⟨rfl, rfl, rfl⟩⟩

/-- **What a step can do.** -/
theorem step_cases (hcalls : ∀ call ∈ s.inFlight, call.Gated) (a : Action) :
    TokenStep s (step p s a) ∧ ArrivalStep p s (step p s a) := by
  have hsame : ∀ {s'}, s'.apiTokens = s.apiTokens → s'.ledger = s.ledger → Frame s s' →
      TokenStep s s' ∧ ArrivalStep p s s' :=
    fun htokens hledger hframe => ⟨.idle htokens hledger, .of_frame hframe⟩
  cases a with
  | clock now => exact hsame rfl rfl ⟨rfl, rfl, rfl⟩
  | provision displayName email isLegacy isServiceAccount => exact hsame rfl rfl ⟨rfl, rfl, rfl⟩
  | setDisabled id disabledAt => exact hsame rfl rfl ⟨rfl, rfl, rfl⟩
  | write effect => exact ⟨.drop _ rfl rfl, .of_frame ⟨rfl, rfl, rfl⟩⟩
  | arrive request endpoint =>
    obtain ⟨htokens, hledger, harrival⟩ := preHandler_step p s request endpoint
    exact ⟨.idle htokens hledger, harrival⟩
  | handle i randomBytes effect =>
    rw [show step p s (.handle i randomBytes effect) = s.runCall p i randomBytes effect from rfl]
    unfold runCall
    split
    · exact hsame rfl rfl (.refl s)
    · rename_i call hcall
      -- the handler runs in a server that the call has left
      obtain ⟨htokens, hframe⟩ := handle_step (p := p)
        (s := { s with inFlight := s.inFlight.eraseIdx i })
        (hcalls call (List.mem_of_getElem? hcall)) randomBytes effect
      refine ⟨?_, fun call' hcall' => .inl (List.mem_of_mem_eraseIdx (hframe.inFlight ▸ hcall')),
        none, hframe.touchCache, hframe.touchLog⟩
      cases htokens with
      | idle h h' => exact .idle h h'
      | mint input caller hfits hscopes hcaller h h' =>
        exact .mint input caller hfits hscopes hcaller h h'
      | revoke row caller hrow hcaller h h' => exact .revoke row caller hrow hcaller h h'
      | drop db h h' => exact .drop db h h'
      | touch id h h' => exact .touch id h h'
  | touch =>
    rw [show step p s .touch = s.runTouch from rfl]
    unfold runTouch
    split
    · exact hsame rfl rfl (.refl s)
    · exact ⟨.touch _ rfl rfl, .of_frame ⟨rfl, rfl, rfl⟩⟩
  | webRevoke session csrfOk id =>
    rw [show step p s (.webRevoke session csrfOk id) = s.webRevoke session csrfOk id from rfl]
    unfold webRevoke
    split
    · exact hsame rfl rfl (.refl s)
    · rename_i user _
      split_ifs
      · have hcaller : ∀ c ∈ some (sessionResult user), user.id = c.user.id ∧
            (c.authMethod = .session ∨ c.tokenId = some id) := by
          rintro c ⟨⟩
          exact ⟨rfl, .inl rfl⟩
        obtain ⟨htokens, hframe⟩ := revoke_step (s := s) hcaller
        exact ⟨htokens, .of_frame hframe⟩
      · exact hsame rfl rfl (.refl s)
  | cliMint userId name scopes expiresAt randomBytes =>
    rw [show step p s (.cliMint userId name scopes expiresAt randomBytes)
      = s.cliMint p userId name scopes expiresAt randomBytes from rfl]
    unfold cliMint
    simp only
    split_ifs
    · exact hsame rfl rfl (.refl s)
    · split
      · exact hsame rfl rfl (.refl s)
      · rename_i row s' hinsert
        obtain ⟨htokens, hframe⟩ := insert_step (by rintro c ⟨⟩) hinsert
        exact ⟨htokens, .of_frame hframe⟩
  | deviceRevoke id userId =>
    have hcaller : ∀ c ∈ (none : Option AuthResult), userId = c.user.id ∧
        (c.authMethod = .session ∨ c.tokenId = some id) := by
      rintro c ⟨⟩
    obtain ⟨htokens, hframe⟩ := revoke_step (s := s) hcaller
    exact ⟨htokens, .of_frame hframe⟩

end Server

/-! ## The tokens and their history -/

/-- The columns of a row that no statement writes again. -/
structure ApiToken.Records (row : ApiToken) (input : TokenInput) : Prop where
  userId : row.userId = input.userId
  hash : row.hash = input.hash
  scopes : row.scopes = some (.arr (input.scopes.map .str))
  expiresAt : row.expiresAt = input.expiresAt
  projectId : row.projectId = input.projectId

def Revoked (ledger : List TokenEvent) (id : Nat) : Prop := ∃ caller, .revoked id caller ∈ ledger

def Dropped (ledger : List TokenEvent) (id : Nat) : Prop := ∃ ids, .dropped ids ∈ ledger ∧ id ∈ ids

/-- The token was minted like this. -/
def Minted (ledger : List TokenEvent) (id : Nat) (input : TokenInput) : Prop :=
  ∃ caller, .minted id input caller ∈ ledger

namespace Server

variable {p : Platform} {s s' : Server}

/-- The table is what the history says. -/
structure Faithful (s : Server) : Prop where
  recorded : ∀ row ∈ s.apiTokens.rows, ∃ input, Minted s.ledger row.id input ∧ row.Records input
  revoked : ∀ row ∈ s.apiTokens.rows, row.revokedAt = none ↔ ¬ Revoked s.ledger row.id
  kept : ∀ row ∈ s.apiTokens.rows, ¬ Dropped s.ledger row.id
  minted : ∀ id input, Minted s.ledger id input →
    Dropped s.ledger id ∨ ∃ row ∈ s.apiTokens.rows, row.id = id ∧ row.Records input
  taxonomy : ∀ id input, Minted s.ledger id input → findUnknownScopes input.scopes = []
  below : ∀ id, Revoked s.ledger id ∨ Dropped s.ledger id → id < s.apiTokens.next
  hashes : ∀ row ∈ s.apiTokens.rows, ∀ row' ∈ s.apiTokens.rows, row.hash = row'.hash → row = row'

theorem faithful_start (db : Db) (now : Nat) : (start db now).Faithful := by
  constructor <;> simp [start, Minted, Revoked, Dropped, Table.empty]

section Step

variable {input : TokenInput} {caller : Option AuthResult} {row : ApiToken}

theorem faithful_mint (h : s.Faithful) (hfits : s.rowFits input = true)
    (hscopes : findUnknownScopes input.scopes = [])
    (htokens : s'.apiTokens = s.apiTokens.insert (s.tokenRow input) (s.tokenRow_id input))
    (hledger : s'.ledger = s.ledger ++ [.minted s.apiTokens.next input caller]) : s'.Faithful := by
  have hminted : ∀ id input', Minted s'.ledger id input' ↔
      Minted s.ledger id input' ∨ (id = s.apiTokens.next ∧ input' = input) := by
    intro id input'
    simp [Minted, hledger, exists_or]
  have hrevoked : ∀ id, Revoked s'.ledger id ↔ Revoked s.ledger id := by simp [Revoked, hledger]
  have hdropped : ∀ id, Dropped s'.ledger id ↔ Dropped s.ledger id := by simp [Dropped, hledger]
  have hrows : ∀ row, row ∈ s'.apiTokens.rows ↔
      row ∈ s.apiTokens.rows ∨ row = s.tokenRow input s.apiTokens.next := by
    simp [htokens]
  have hfresh : ∀ row ∈ s.apiTokens.rows, row.hash ≠ input.hash := by
    simp only [rowFits, Bool.and_eq_true, List.all_eq_true, bne_iff_ne] at hfits
    exact hfits.2
  have hnew : (s.tokenRow input s.apiTokens.next).Records input := ⟨rfl, rfl, rfl, rfl, rfl⟩
  refine ⟨fun row hrow => ?_, fun row hrow => ?_, fun row hrow => ?_, fun id input' h' => ?_,
    fun id input' h' => ?_, fun id h' => ?_, fun row hrow row' hrow' hhash => ?_⟩
  · rcases (hrows row).1 hrow with hold | rfl
    · obtain ⟨input', hm, hrecords⟩ := h.recorded row hold
      exact ⟨input', (hminted _ _).2 (.inl hm), hrecords⟩
    · exact ⟨input, (hminted _ _).2 (.inr ⟨rfl, rfl⟩), hnew⟩
  · rw [hrevoked]
    rcases (hrows row).1 hrow with hold | rfl
    · exact h.revoked row hold
    · exact ⟨fun _ hr => Nat.lt_irrefl _ (h.below _ (.inl hr)), fun _ => rfl⟩
  · rw [hdropped]
    rcases (hrows row).1 hrow with hold | rfl
    · exact h.kept row hold
    · exact fun hd => Nat.lt_irrefl _ (h.below _ (.inr hd))
  · rw [hdropped]
    rcases (hminted id input').1 h' with hold | ⟨rfl, rfl⟩
    · rcases h.minted id input' hold with hd | ⟨row, hrow, hid, hrecords⟩
      · exact .inl hd
      · exact .inr ⟨row, (hrows row).2 (.inl hrow), hid, hrecords⟩
    · exact .inr ⟨_, (hrows _).2 (.inr rfl), rfl, hnew⟩
  · rcases (hminted id input').1 h' with hold | ⟨-, rfl⟩
    · exact h.taxonomy id input' hold
    · exact hscopes
  · rw [hrevoked, hdropped] at h'
    rw [htokens, Table.next_insert]
    exact Nat.lt_succ_of_lt (h.below id h')
  · rcases (hrows row).1 hrow with hold | rfl
    · rcases (hrows row').1 hrow' with hold' | rfl
      · exact h.hashes row hold row' hold' hhash
      · exact absurd hhash (hfresh row hold)
    · rcases (hrows row').1 hrow' with hold' | rfl
      · exact absurd hhash.symm (hfresh row' hold')
      · rfl

/-- A rewriting of one row that keeps the columns which no statement writes again. -/
theorem faithful_modify (h : s.Faithful) {id : Nat} {f : ApiToken → ApiToken}
    {hf : ∀ row, (f row).id = row.id} (htokens : s'.apiTokens = s.apiTokens.modify id f hf)
    (hkept : ∀ row input, row.Records input → (f row).Records input)
    (hhash : ∀ row, (f row).hash = row.hash)
    (hminted : ∀ id input, Minted s'.ledger id input ↔ Minted s.ledger id input)
    (hdropped : ∀ id, Dropped s'.ledger id ↔ Dropped s.ledger id)
    (hbelow : ∀ id, Revoked s'.ledger id → id < s.apiTokens.next)
    (hrevoked : ∀ row ∈ s.apiTokens.rows, (if row.id = id then f row else row).revokedAt = none ↔
      ¬ Revoked s'.ledger row.id) : s'.Faithful := by
  have hmem : ∀ row', row' ∈ s'.apiTokens.rows ↔
      ∃ row ∈ s.apiTokens.rows, row' = if row.id = id then f row else row := by
    intro row'
    rw [htokens]
    exact Table.mem_modify
  have hid : ∀ row, (if row.id = id then f row else row).id = row.id := by
    intro row
    split_ifs
    · exact hf row
    · rfl
  have hrecords : ∀ row input, row.Records input →
      (if row.id = id then f row else row).Records input := by
    intro row input hr
    split_ifs
    · exact hkept row input hr
    · exact hr
  have hhash' : ∀ row, (if row.id = id then f row else row).hash = row.hash := by
    intro row
    split_ifs
    · exact hhash row
    · rfl
  refine ⟨fun row' hrow' => ?_, fun row' hrow' => ?_, fun row' hrow' => ?_, fun id' input h' => ?_,
    fun id' input h' => ?_, fun id' h' => ?_, fun row' hrow' row'' hrow'' heq => ?_⟩
  · obtain ⟨row, hrow, rfl⟩ := (hmem row').1 hrow'
    obtain ⟨input, hm, hr⟩ := h.recorded row hrow
    exact ⟨input, by rw [hid, hminted]; exact hm, hrecords row input hr⟩
  · obtain ⟨row, hrow, rfl⟩ := (hmem row').1 hrow'
    rw [hid]
    exact hrevoked row hrow
  · obtain ⟨row, hrow, rfl⟩ := (hmem row').1 hrow'
    rw [hid, hdropped]
    exact h.kept row hrow
  · rw [hdropped]
    rcases h.minted id' input ((hminted id' input).1 h') with hd | ⟨row, hrow, hrow', hr⟩
    · exact .inl hd
    · exact .inr ⟨_, (hmem _).2 ⟨row, hrow, rfl⟩, (hid row).trans hrow', hrecords row input hr⟩
  · exact h.taxonomy id' input ((hminted id' input).1 h')
  · rw [htokens, Table.next_modify]
    rcases h' with hr | hd
    · exact hbelow id' hr
    · exact h.below id' (.inr ((hdropped id').1 hd))
  · obtain ⟨row, hrow, rfl⟩ := (hmem row').1 hrow'
    obtain ⟨other, hother, rfl⟩ := (hmem row'').1 hrow''
    rw [hhash', hhash'] at heq
    rw [h.hashes row hrow other hother heq]

theorem faithful_revoke (h : s.Faithful) (hrow : s.apiTokens.find? row.id = some row)
    (htokens : s'.apiTokens = s.apiTokens.modify row.id (ApiToken.setRevokedAt s.now) fun _ => rfl)
    (hledger : s'.ledger = s.ledger ++ [.revoked row.id caller]) : s'.Faithful := by
  have hrevoked : ∀ id, Revoked s'.ledger id ↔ Revoked s.ledger id ∨ id = row.id := by
    simp [Revoked, hledger, exists_or]
  refine faithful_modify h htokens
    (fun _ _ hr => ⟨hr.userId, hr.hash, hr.scopes, hr.expiresAt, hr.projectId⟩) (fun _ => rfl)
    (by simp [Minted, hledger]) (by simp [Dropped, hledger])
    (fun id hid => ?_) fun other hother => ?_
  · rcases (hrevoked id).1 hid with hold | rfl
    · exact h.below id (.inl hold)
    · exact Table.lt_next_of_find? hrow
  · rw [hrevoked]
    by_cases heq : other.id = row.id
    · simp [heq, ApiToken.setRevokedAt]
    · rw [if_neg heq, h.revoked other hother]
      simp [heq]

theorem faithful_touch (h : s.Faithful) {id : Nat}
    (htokens : s'.apiTokens = s.apiTokens.modify id (ApiToken.setLastUsedAt s.now) fun _ => rfl)
    (hledger : s'.ledger = s.ledger) : s'.Faithful := by
  refine faithful_modify h htokens
    (fun _ _ hr => ⟨hr.userId, hr.hash, hr.scopes, hr.expiresAt, hr.projectId⟩) (fun _ => rfl)
    (by simp [hledger]) (by simp [hledger]) (fun id hid => ?_)
    fun row hrow => ?_
  · exact h.below id (.inl (hledger ▸ hid))
  · rw [hledger, ← h.revoked row hrow]
    split_ifs <;> rfl

theorem faithful_drop (h : s.Faithful) {db : Db}
    (htokens : s'.apiTokens = s.apiTokens.filter fun row => !orphaned db row)
    (hledger : s'.ledger
      = s.ledger ++ [.dropped ((s.apiTokens.rows.filter (orphaned db)).map ApiToken.id)]) :
    s'.Faithful := by
  have hminted : ∀ id input, Minted s'.ledger id input ↔ Minted s.ledger id input := by
    simp [Minted, hledger]
  have hrevoked : ∀ id, Revoked s'.ledger id ↔ Revoked s.ledger id := by simp [Revoked, hledger]
  have hdropped : ∀ id, Dropped s'.ledger id ↔ Dropped s.ledger id ∨
      ∃ row ∈ s.apiTokens.rows, orphaned db row = true ∧ row.id = id := by
    intro id
    simp [Dropped, hledger, or_and_right, exists_or, and_assoc]
  have hmem : ∀ row, row ∈ s'.apiTokens.rows ↔ row ∈ s.apiTokens.rows ∧ orphaned db row = false := by
    simp [htokens]
  refine ⟨fun row hrow => ?_, fun row hrow => ?_, fun row hrow => ?_, fun id input h' => ?_,
    fun id input h' => ?_, fun id h' => ?_, fun row hrow row' hrow' heq => ?_⟩
  · obtain ⟨input, hm, hr⟩ := h.recorded row ((hmem row).1 hrow).1
    exact ⟨input, (hminted _ _).2 hm, hr⟩
  · rw [hrevoked]
    exact h.revoked row ((hmem row).1 hrow).1
  · rw [hdropped]
    rintro (hd | ⟨other, hother, horphaned, hid⟩)
    · exact h.kept row ((hmem row).1 hrow).1 hd
    · obtain rfl := s.apiTokens.key_inj hother ((hmem row).1 hrow).1 hid
      exact absurd horphaned (by simp [((hmem other).1 hrow).2])
  · rw [hdropped]
    rcases h.minted id input ((hminted id input).1 h') with hd | ⟨row, hrow, hid, hr⟩
    · exact .inl (.inl hd)
    · by_cases horphaned : orphaned db row = true
      · exact .inl (.inr ⟨row, hrow, horphaned, hid⟩)
      · exact .inr ⟨row, (hmem row).2 ⟨hrow, by simpa using horphaned⟩, hid, hr⟩
  · exact h.taxonomy id input ((hminted id input).1 h')
  · rw [hrevoked, hdropped] at h'
    rw [htokens, Table.next_filter]
    rcases h' with hr | hd | ⟨row, hrow, -, rfl⟩
    · exact h.below id (.inl hr)
    · exact h.below id (.inr hd)
    · exact s.apiTokens.below row hrow
  · exact h.hashes row ((hmem row).1 hrow).1 row' ((hmem row').1 hrow').1 heq

theorem faithful_step (h : s.Faithful) (hstep : TokenStep s s') : s'.Faithful := by
  cases hstep with
  | idle htokens hledger =>
    refine ⟨?_, ?_, ?_, ?_, hledger ▸ h.taxonomy, ?_, htokens ▸ h.hashes⟩ <;> rw [htokens, hledger]
    · exact h.recorded
    · exact h.revoked
    · exact h.kept
    · exact h.minted
    · exact h.below
  | mint input caller hfits hscopes _ htokens hledger =>
    exact faithful_mint h hfits hscopes htokens hledger
  | revoke row caller hrow _ htokens hledger => exact faithful_revoke h hrow htokens hledger
  | drop db htokens hledger => exact faithful_drop h htokens hledger
  | touch id htokens hledger => exact faithful_touch h htokens hledger

end Step

/-! ## Who did it -/

/-- Every entry of the history has an author who was entitled to it. -/
structure Attributed (ledger : List TokenEvent) : Prop where
  mints : ∀ id input c, .minted id input (some c) ∈ ledger →
    c.authMethod = .session ∧ input.userId = c.user.id
  revocations : ∀ id c, .revoked id (some c) ∈ ledger →
    (c.authMethod = .session ∨ c.tokenId = some id) ∧
      ∃ input, Minted ledger id input ∧ input.userId = c.user.id

theorem minted_mono {ledger more : List TokenEvent} {id : Nat} {input : TokenInput}
    (h : Minted ledger id input) : Minted (ledger ++ more) id input := by
  obtain ⟨caller, hmem⟩ := h
  exact ⟨caller, List.mem_append_left more hmem⟩

theorem Attributed.append {ledger : List TokenEvent} {event : TokenEvent} (h : Attributed ledger)
    (hmint : ∀ id input c, event = .minted id input (some c) →
      c.authMethod = .session ∧ input.userId = c.user.id)
    (hrevoke : ∀ id c, event = .revoked id (some c) →
      (c.authMethod = .session ∨ c.tokenId = some id) ∧
        ∃ input, Minted ledger id input ∧ input.userId = c.user.id) :
    Attributed (ledger ++ [event]) := by
  constructor
  · intro id input c hmem
    rcases List.mem_append.1 hmem with hold | hnew
    · exact h.mints id input c hold
    · exact hmint id input c (List.mem_singleton.1 hnew).symm
  · intro id c hmem
    rcases List.mem_append.1 hmem with hold | hnew
    · obtain ⟨hcaller, input, hminted, huser⟩ := h.revocations id c hold
      exact ⟨hcaller, input, minted_mono hminted, huser⟩
    · obtain ⟨hcaller, input, hminted, huser⟩ := hrevoke id c (List.mem_singleton.1 hnew).symm
      exact ⟨hcaller, input, minted_mono hminted, huser⟩

theorem attributed_step (hfaithful : s.Faithful) (h : Attributed s.ledger)
    (hstep : TokenStep s s') : Attributed s'.ledger := by
  cases hstep with
  | idle _ hledger => exact hledger ▸ h
  | touch id _ hledger => exact hledger ▸ h
  | mint input caller _ _ hcaller _ hledger =>
    rw [hledger]
    refine h.append (fun id input' c heq => ?_) fun id c heq => by cases heq
    obtain ⟨-, rfl, rfl⟩ := TokenEvent.minted.inj heq
    exact hcaller c rfl
  | revoke row caller hrow hcaller _ hledger =>
    rw [hledger]
    refine h.append (fun id input c heq => by cases heq) fun id c heq => ?_
    obtain ⟨rfl, rfl⟩ := TokenEvent.revoked.inj heq
    obtain ⟨input, hminted, hrecords⟩ :=
      hfaithful.recorded row (Table.find?_eq_some.1 hrow).1
    exact ⟨(hcaller c rfl).2, input, hminted, hrecords.userId.symm.trans (hcaller c rfl).1⟩
  | drop db _ hledger =>
    rw [hledger]
    exact h.append (fun _ _ _ heq => by cases heq) fun _ _ heq => by cases heq

/-! ## What lets a caller in -/

theorem tryPat_eq_matched {authorization : Option String} {result : AuthResult} :
    s.tryPat p authorization = .matched result ↔ ∃ token row user,
      patCredential authorization = .token token ∧
      s.findByHash (p.hashToken token) = some row ∧ row.revokedAt = none ∧
      isExpired p s.now row.expiresAt = false ∧ s.activeUser row.userId = some user ∧
      result = ⟨toAuthenticatedUser user, .pat, some row.id, some (parseScopes row.scopes),
        row.projectId⟩ := by
  unfold tryPat
  constructor
  · intro h
    split at h
    · contradiction
    · contradiction
    · rename_i token htoken
      split at h
      · contradiction
      · rename_i row hrow
        split_ifs at h with hrevoked hexpired
        split at h
        · contradiction
        · rename_i user huser
          refine ⟨token, row, user, htoken, hrow, by simpa using hrevoked, by simpa using hexpired,
            huser, (StrategyOutcome.matched.inj h).symm⟩
  · rintro ⟨token, row, user, htoken, hrow, hrevoked, hexpired, huser, rfl⟩
    simp only [htoken, hrow, hrevoked, hexpired, huser]
    rfl

theorem findByHash_eq_some (h : s.Faithful) {hash : String} {row : ApiToken} :
    s.findByHash hash = some row ↔ row ∈ s.apiTokens.rows ∧ row.hash = hash := by
  unfold findByHash
  constructor
  · intro hfind
    exact ⟨List.mem_of_find?_eq_some hfind, by simpa using List.find?_some hfind⟩
  · rintro ⟨hrow, rfl⟩
    cases hfind : s.apiTokens.rows.find? fun other => other.hash == row.hash with
    | none => exact absurd (List.find?_eq_none.1 hfind row hrow) (by simp)
    | some other =>
      have hother : other.hash = row.hash := by simpa using List.find?_some hfind
      rw [h.hashes other (List.mem_of_find?_eq_some hfind) row hrow hother]

theorem parseScopes_map (scopes : List String) :
    parseScopes (some (.arr (scopes.map .str))) = scopes.filterMap PatScope.ofText := by
  unfold parseScopes
  simp only
  induction scopes with
  | nil => rfl
  | cons value rest ih =>
    rw [List.map_cons, List.filterMap_cons, List.filterMap_cons, ih]

/-- The caller is a session, or the token with what it was minted with. -/
inductive Credited (ledger : List TokenEvent) (result : AuthResult) : Prop
  | session : result.authMethod = .session → result.tokenId = none → result.scopes = none →
      result.projectId = none → Credited ledger result
  | token (id : Nat) (input : TokenInput) : Minted ledger id input → result.authMethod = .pat →
      result.tokenId = some id → result.user.id = input.userId →
      result.scopes = some (input.scopes.filterMap PatScope.ofText) →
      result.projectId = input.projectId → Credited ledger result

theorem activeUser_eq_some {id : Nat} {user : User} :
    s.activeUser id = some user ↔ s.users.find? id = some user ∧ user.disabledAt = none := by
  unfold activeUser
  rw [Option.filter_eq_some_iff, Option.isNone_iff_eq_none]

theorem credited_of_found (h : s.Faithful) {result : AuthResult} (hfound : Found p s result) :
    Credited s.ledger result := by
  obtain ⟨authorization, hmatched⟩ | ⟨user, rfl⟩ := hfound
  · obtain ⟨token, row, user, -, hrow, -, -, huser, rfl⟩ := tryPat_eq_matched.1 hmatched
    obtain ⟨hmem, -⟩ := (findByHash_eq_some h).1 hrow
    obtain ⟨input, hminted, hrecords⟩ := h.recorded row hmem
    have huserId : user.id = row.userId :=
      (Table.find?_eq_some.1 (activeUser_eq_some.1 huser).1).2
    refine .token row.id input hminted rfl rfl (huserId.trans hrecords.userId) ?_ hrecords.projectId
    rw [hrecords.scopes, parseScopes_map]
  · exact .session rfl rfl rfl rfl

theorem Credited.mono {ledger more : List TokenEvent} {result : AuthResult}
    (h : Credited ledger result) : Credited (ledger ++ more) result := by
  cases h with
  | session hmethod htoken hscopes hproject => exact .session hmethod htoken hscopes hproject
  | token id input hminted hmethod htoken huser hscopes hproject =>
    exact .token id input (minted_mono hminted) hmethod htoken huser hscopes hproject

theorem ledger_grows (hstep : TokenStep s s') : ∃ more, s'.ledger = s.ledger ++ more := by
  cases hstep with
  | idle _ hledger => exact ⟨[], by rw [hledger, List.append_nil]⟩
  | mint _ _ _ _ _ _ hledger => exact ⟨_, hledger⟩
  | revoke _ _ _ _ _ hledger => exact ⟨_, hledger⟩
  | drop _ _ hledger => exact ⟨_, hledger⟩
  | touch _ _ hledger => exact ⟨[], by rw [hledger, List.append_nil]⟩

/-! ## Runs -/

structure Inv (s : Server) : Prop where
  faithful : s.Faithful
  attributed : Attributed s.ledger
  gated : ∀ call ∈ s.inFlight, call.Gated
  credited : ∀ call ∈ s.inFlight, Credited s.ledger call.principal

theorem inv_start (db : Db) (now : Nat) : (start db now).Inv where
  faithful := faithful_start db now
  attributed := ⟨fun _ _ _ h => absurd h List.not_mem_nil, fun _ _ h => absurd h List.not_mem_nil⟩
  gated := fun _ h => absurd h List.not_mem_nil
  credited := fun _ h => absurd h List.not_mem_nil

theorem inv_step (h : s.Inv) (a : Action) : (step p s a).Inv := by
  obtain ⟨htokens, harrival⟩ := step_cases (p := p) h.gated a
  obtain ⟨more, hledger⟩ := ledger_grows htokens
  refine ⟨faithful_step h.faithful htokens, attributed_step h.faithful h.attributed htokens,
    fun call hcall => ?_, fun call hcall => ?_⟩
  · rcases harrival.calls call hcall with hold | ⟨hgated, -⟩
    · exact h.gated call hold
    · exact hgated
  · rw [hledger]
    rcases harrival.calls call hcall with hold | ⟨-, hfound⟩
    · exact (h.credited call hold).mono
    · exact (credited_of_found h.faithful hfound).mono

/-- What a run reaches. -/
def run (p : Platform) (db : Db) (now : Nat) (as : List Action) : Server :=
  as.foldl (step p) (start db now)

theorem inv_run (p : Platform) (db : Db) (now : Nat) (as : List Action) :
    (run p db now as).Inv :=
  (RunOk.of_forall (C := fun _ _ => True) fun _ _ _ => trivial).invariant
    (fun _ a h _ => inv_step h a) (inv_start db now)

/-- **Main theorem: who is let in.** After any run, a header is accepted as a token exactly if it
    carries a well-formed token whose digest is that of one that was minted, and since then that one
    was neither revoked nor deleted with its project, its time is not over and its user is not
    disabled. The caller then has the tiers and the binding that it was minted with. -/
theorem tryPat_matched_iff (p : Platform) (db : Db) (now : Nat) (as : List Action)
    (authorization : Option String) (result : AuthResult) :
    let s := run p db now as
    s.tryPat p authorization = .matched result ↔ ∃ token id input user,
      patCredential authorization = .token token ∧
      Minted s.ledger id input ∧ input.hash = p.hashToken token ∧
      ¬ Revoked s.ledger id ∧ ¬ Dropped s.ledger id ∧
      isExpired p s.now input.expiresAt = false ∧
      s.users.find? input.userId = some user ∧ user.disabledAt = none ∧
      ∃ scopes, scopes.map PatScope.text = input.scopes ∧
        result = ⟨toAuthenticatedUser user, .pat, some id, some scopes, input.projectId⟩ := by
  intro s
  have h : s.Faithful := (inv_run p db now as).faithful
  rw [tryPat_eq_matched]
  constructor
  · rintro ⟨token, row, user, htoken, hrow, hrevoked, hexpired, huser, rfl⟩
    obtain ⟨hmem, hhash⟩ := (findByHash_eq_some h).1 hrow
    obtain ⟨input, hminted, hrecords⟩ := h.recorded row hmem
    obtain ⟨hfind, hactive⟩ := activeUser_eq_some.1 huser
    refine ⟨token, row.id, input, user, htoken, hminted, hrecords.hash.symm.trans hhash,
      (h.revoked row hmem).1 hrevoked, h.kept row hmem, hrecords.expiresAt ▸ hexpired,
      hrecords.userId ▸ hfind, hactive, input.scopes.filterMap PatScope.ofText,
      PatScope.map_text_filterMap (h.taxonomy _ _ hminted), ?_⟩
    rw [hrecords.scopes, parseScopes_map, hrecords.projectId]
  · rintro ⟨token, id, input, user, htoken, hminted, hhash, hrevoked, hdropped, hexpired, hfind,
      hactive, scopes, hscopes, rfl⟩
    rcases h.minted id input hminted with hd | ⟨row, hmem, rfl, hrecords⟩
    · exact absurd hd hdropped
    · refine ⟨token, row, user, htoken, (findByHash_eq_some h).2 ⟨hmem, ?_⟩,
        (h.revoked row hmem).2 hrevoked, hrecords.expiresAt ▸ hexpired,
        activeUser_eq_some.2 ⟨hrecords.userId ▸ hfind, hactive⟩, ?_⟩
      · exact hrecords.hash.trans hhash
      · rw [hrecords.scopes, parseScopes_map, hrecords.projectId, ← hscopes,
          PatScope.filterMap_map_text]

/-- **Nobody exceeds their authority.** In the history of any run, a token that a request minted was
    minted by a session, for the user of that session; and a token that a request revoked belongs to
    the user of that request, which was one of a session or was authenticated by that very token. -/
theorem tokens_attributed (p : Platform) (db : Db) (now : Nat) (as : List Action) :
    let ledger := (run p db now as).ledger
    (∀ id input c, .minted id input (some c) ∈ ledger →
      c.authMethod = .session ∧ input.userId = c.user.id) ∧
    ∀ id c, .revoked id (some c) ∈ ledger →
      (c.authMethod = .session ∨ c.tokenId = some id) ∧
        ∃ input, Minted ledger id input ∧ input.userId = c.user.id :=
  have h := (inv_run p db now as).attributed
  ⟨h.mints, h.revocations⟩

/-- **A token stays within what it was minted with.** Whatever call of a token is in flight, the
    token was minted without tiers or with one that the route's tier is not above, the route is not
    kept to sessions, and if the token was bound to a project then the request that arrived touched
    no other one. -/
theorem calls_confined (p : Platform) (db : Db) (now : Nat) (as : List Action) :
    ∀ call ∈ (run p db now as).inFlight, call.principal.authMethod = .pat →
      ∃ id input, Minted (run p db now as).ledger id input ∧ call.principal.tokenId = some id ∧
        call.endpoint.config.sessionOnly = false ∧
        (∀ required ∈ call.endpoint.config.requiredScope, input.scopes = [] ∨
          ∃ granted : PatScope, granted.text ∈ input.scopes ∧ required.rank ≤ granted.rank) ∧
        ∀ project ∈ input.projectId,
          admits (some project) call.arrivedIn call.endpoint.routed = true := by
  intro call hcall hpat
  have h := inv_run p db now as
  have hgated := h.gated call hcall
  cases h.credited call hcall with
  | session hmethod => rw [hmethod] at hpat; contradiction
  | token id input hminted _ htoken _ hscopes hproject =>
    refine ⟨id, input, hminted, htoken, ?_, fun required hrequired => ?_, fun project hbound => ?_⟩
    · by_contra honly
      have hsession := hgated.sessionOnly (by simpa using honly)
      rw [hsession] at hpat
      contradiction
    · have hgrant := hgated.scope required hrequired
      rw [hscopes] at hgrant
      have htexts := PatScope.map_text_filterMap (h.faithful.taxonomy id input hminted)
      cases hparsed : input.scopes.filterMap PatScope.ofText with
      | nil => exact .inl (by rw [← htexts, hparsed]; rfl)
      | cons scope rest =>
        rw [hparsed] at hgrant
        obtain ⟨granted, hmem, hrank⟩ := List.any_eq_true.1 hgrant
        refine .inr ⟨granted, ?_, of_decide_eq_true hrank⟩
        rw [← htexts, hparsed]
        exact List.mem_map_of_mem hmem
    · exact hgated.binding project (hproject ▸ hbound)

/-- A user gets a token for reading from the command line and opens the event stream with it. -/
def readRun : List Action :=
  [.provision "Ada" none false false, .cliMint 1 "laptop" ["read"] none (List.replicate 20 0),
    .arrive ⟨some "Bearer wft_pat_AAAAAAAAAAAAAAAAAAAAAAAAAAAAAAAA", none⟩
      (.other { requiredScope := some .read } { method := "GET", url := "/api/v1/events" })]

theorem calls_confined_read :
    let s := run ⟨id, fun _ => none, fun _ => true⟩ Db.empty 0 readRun
    ∃ call ∈ s.inFlight, ∃ id input, Minted s.ledger id input ∧
      call.principal.tokenId = some id := by
  intro s
  have hlength : s.inFlight.length = 1 := by decide +kernel
  have hpat : s.inFlight.all (·.principal.authMethod = .pat) = true := by decide +kernel
  obtain ⟨call, hcall⟩ := List.exists_mem_of_length_pos (hlength ▸ Nat.one_pos)
  obtain ⟨id, input, hminted, htoken, -⟩ :=
    calls_confined _ Db.empty 0 readRun call hcall
      (of_decide_eq_true (List.all_eq_true.1 hpat call hcall))
  exact ⟨call, hcall, id, input, hminted, htoken⟩

/-! ## Generated tokens -/

theorem afterPrefix_append (start text : String) : afterPrefix start (start ++ text) = some text := by
  unfold afterPrefix
  rw [String.toList_append, if_pos (by simp), List.drop_left, String.ofList_toList]

/-- **A generated token is recognised, and no two are the same.** The chain takes a token made of
    twenty bytes for a well-formed credential, and tokens of different random bytes differ. -/
theorem generateToken_recognised (hashToken : String → String) :
    (∀ bytes : List UInt8, bytes.length = 20 →
      patCredential (some ("Bearer " ++ (PatHash.generateToken hashToken bytes).token))
        = .token (PatHash.generateToken hashToken bytes).token) ∧
    Function.Injective fun bytes => (PatHash.generateToken hashToken bytes).token := by
  constructor
  · intro bytes hbytes
    have hpattern : patBodyPattern (String.ofList (PatHash.encodeBase32 bytes)) = true := by
      rw [patBodyPattern, String.toList_ofList, Bool.and_eq_true, beq_iff_eq, List.all_eq_true]
      refine ⟨?_, fun c hc => ?_⟩
      · rw [PatHash.length_encodeBase32, hbytes]
      · exact List.contains_iff_mem.2 (PatHash.mem_base32Alphabet hc)
    unfold patCredential
    rw [Option.bind_some, afterPrefix_append]
    simp only [PatHash.generateToken, afterPrefix_append, hpattern, if_true]
  · intro bytes bytes' h
    refine PatHash.encodeBase32_injective (String.ofList_injective ?_)
    have hlists := congrArg String.toList h
    simp only [PatHash.generateToken, String.toList_append] at hlists
    exact String.toList_inj.1 (List.append_cancel_left hlists)

/-! ## The writes of `last_used_at` -/

/-- The cache has the latest write of every token that is on the record. -/
structure TouchesSpaced (s : Server) : Prop where
  spaced : s.touchLog.Pairwise fun earlier later =>
    earlier.1 = later.1 → earlier.2 + touchTtlMs ≤ later.2
  cached : ∀ entry ∈ s.touchLog, ∃ last, s.touchCache entry.1 = some last ∧ entry.2 ≤ last

theorem touchesSpaced_schedule (h : s.TouchesSpaced) (tokenId : Option Nat) :
    (s.scheduleLastUsedTouch tokenId).TouchesSpaced := by
  unfold scheduleLastUsedTouch
  split
  · exact h
  · rename_i id
    split_ifs with hshould
    · -- an earlier write of this token is at most what the cache has, which is old enough
      have hold : ∀ entry ∈ s.touchLog, entry.1 = id → entry.2 + touchTtlMs ≤ s.now := by
        rintro entry hentry rfl
        obtain ⟨last, hlast, hle⟩ := h.cached entry hentry
        simp only [shouldTouchLastUsed, hlast, Bool.not_eq_true', decide_eq_false_iff_not] at hshould
        omega
      constructor
      · rw [List.pairwise_append]
        refine ⟨h.spaced, List.pairwise_singleton _ _, fun entry hentry later hlater heq => ?_⟩
        obtain rfl := List.mem_singleton.1 hlater
        exact hold entry hentry heq
      · intro entry hentry
        simp only
        by_cases heq : entry.1 = id
        · rw [heq, Function.update_self]
          refine ⟨s.now, rfl, ?_⟩
          rcases List.mem_append.1 hentry with hmem | hnew
          · exact Nat.le_trans (Nat.le_add_right _ _) (hold entry hmem heq)
          · rw [List.mem_singleton.1 hnew]
        · rw [Function.update_of_ne heq]
          rcases List.mem_append.1 hentry with hmem | hnew
          · exact h.cached entry hmem
          · exact absurd (by rw [List.mem_singleton.1 hnew]) heq
    · exact h

theorem touchesSpaced_step (h : s.TouchesSpaced) (hstep : ArrivalStep p s s') :
    s'.TouchesSpaced := by
  obtain ⟨tokenId, hcache, hlog⟩ := hstep.touches
  obtain ⟨hspaced, hcached⟩ := touchesSpaced_schedule h tokenId
  exact ⟨hlog ▸ hspaced, by rw [hlog, hcache]; exact hcached⟩

/-- **The writes of `last_used_at` are rare.** In any run, however the clock is set, two writes that
    are scheduled for the same token are ten minutes or more apart. -/
theorem touches_spaced (p : Platform) (db : Db) (now : Nat) (as : List Action) :
    (run p db now as).touchLog.Pairwise fun earlier later =>
      earlier.1 = later.1 → earlier.2 + touchTtlMs ≤ later.2 := by
  have hstart : (start db now).Inv ∧ (start db now).TouchesSpaced :=
    ⟨inv_start db now, List.Pairwise.nil, fun _ h => absurd h List.not_mem_nil⟩
  have hrun : (run p db now as).Inv ∧ (run p db now as).TouchesSpaced :=
    (RunOk.of_forall (C := fun _ _ => True) fun _ _ _ => trivial).invariant
      (I := fun s : Server => s.Inv ∧ s.TouchesSpaced)
      (fun _ a h _ => ⟨inv_step h.1 a, touchesSpaced_step h.2 (step_cases (p := p) h.1.gated a).2⟩)
      hstart
  exact hrun.2.spaced

end Server

end WoodFiredTasks.AuthChain
