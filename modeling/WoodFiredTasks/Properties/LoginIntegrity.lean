import WoodFiredTasks.Api.OidcLogin
import WoodFiredTasks.Lib.Runs

set_option autoImplicit false

/-! # Who a session stands for

Over runs in which logins, callbacks and the statements of concurrent callbacks come in any order,
from any cookies that were ever sent: a session that names a user was made by a callback that came
back with the `state` of its own handshake and with a verified address, and it names the one row of
the identity that the provider has vouched for (`sessions_authentic`). Callbacks that race to insert
the same identity all end with the same row; none is refused but by the storage or for want of a
name (`refused_only_if`). -/

namespace WoodFiredTasks.OidcLogin

/-! ## The table of users -/

/-- The identity of a row, if it has one. -/
def User.identity (row : User) : Option (String × String) :=
  row.oidcProvider.bind fun provider => row.oidcSub.map fun sub => (provider, sub)

/-- No two rows have the same identity. -/
def Unique (users : Users) : Prop :=
  ∀ row ∈ users.rows, ∀ row' ∈ users.rows, ∀ identity,
    row.identity = some identity → row'.identity = some identity → row.id = row'.id

/-- There is a row with this id and identity. -/
def Holds (users : Users) (id : Nat) (identity : String × String) : Prop :=
  ∃ row, users.find? id = some row ∧ row.identity = some identity

/-- What every statement does to the users. -/
structure UsersStep (users users' : Users) : Prop where
  unique : Unique users → Unique users'
  holds : ∀ id identity, Holds users id identity → Holds users' id identity

theorem UsersStep.refl (users : Users) : UsersStep users users := ⟨id, fun _ _ h => h⟩

theorem matchesSub_iff {provider sub : String} {row : User} :
    UserRepository.matchesSub provider sub row = true ↔ row.identity = some (provider, sub) := by
  unfold UserRepository.matchesSub User.identity
  cases row.oidcProvider with
  | none => simp
  | some p =>
    cases row.oidcSub with
    | none => simp
    | some q => simp

theorem Holds.of_mem {users : Users} {row : User} (h : row ∈ users.rows)
    {identity : String × String} (hidentity : row.identity = some identity) :
    Holds users row.id identity :=
  ⟨row, Table.find?_key h, hidentity⟩

theorem Unique.id_eq {users : Users} (h : Unique users) {id id' : Nat} {identity : String × String}
    (hid : Holds users id identity) (hid' : Holds users id' identity) : id = id' := by
  obtain ⟨row, hrow, hidentity⟩ := hid
  obtain ⟨row', hrow', hidentity'⟩ := hid'
  obtain ⟨hmem, rfl⟩ := Table.find?_eq_some.1 hrow
  obtain ⟨hmem', rfl⟩ := Table.find?_eq_some.1 hrow'
  exact h row hmem row' hmem' identity hidentity hidentity'

/-- A write that leaves the identities alone. -/
theorem usersStep_modify (users : Users) (id : Nat) {f : User → User}
    (hf : ∀ row, (f row).id = row.id) (hidentity : ∀ row, (f row).identity = row.identity) :
    UsersStep users (users.modify id f hf) := by
  have hsame : ∀ row ∈ (users.modify id f hf).rows, ∃ old ∈ users.rows,
      row.id = old.id ∧ row.identity = old.identity := by
    intro row hrow
    obtain ⟨old, hold, rfl⟩ := Table.mem_modify.1 hrow
    refine ⟨old, hold, ?_⟩
    split_ifs
    · exact ⟨hf old, hidentity old⟩
    · exact ⟨rfl, rfl⟩
  constructor
  · intro hunique row hrow row' hrow' identity h h'
    obtain ⟨old, hold, hid, heq⟩ := hsame row hrow
    obtain ⟨old', hold', hid', heq'⟩ := hsame row' hrow'
    rw [hid, hid']
    exact hunique old hold old' hold' identity (heq ▸ h) (heq' ▸ h')
  · rintro j identity ⟨row, hrow, h⟩
    refine ⟨if j = id then f row else row, ?_, ?_⟩
    · rw [Table.find?_modify, hrow, Option.map_some]
    · split_ifs
      · rw [hidentity, h]
      · exact h

/-- A new row, whose identity is none or nobody's. -/
theorem usersStep_insert (users : Users) {mk : Nat → User} (hmk : ∀ id, (mk id).id = id)
    (hnew : ∀ identity, (mk users.next).identity = some identity →
      ∀ row ∈ users.rows, row.identity ≠ some identity) :
    UsersStep users (users.insert mk hmk) := by
  constructor
  · intro hunique row hrow row' hrow' identity h h'
    rcases Table.mem_insert.1 hrow with hrow | rfl
    · rcases Table.mem_insert.1 hrow' with hrow' | rfl
      · exact hunique row hrow row' hrow' identity h h'
      · exact absurd h (hnew identity h' row hrow)
    · rcases Table.mem_insert.1 hrow' with hrow' | rfl
      · exact absurd h' (hnew identity h row' hrow')
      · rfl
  · rintro j identity ⟨row, hrow, h⟩
    refine ⟨row, ?_, h⟩
    rw [Table.find?_insert, if_neg (Table.lt_next_of_find? hrow).ne, hrow]

theorem findByOidcSub_ok {users : Users} {provider sub : String} {found : Option User}
    (h : UserRepository.findByOidcSub users provider sub = .ok found) :
    sub ≠ "" ∧ (∀ row ∈ found, row ∈ users.rows ∧ row.identity = some (provider, sub)) ∧
      (found = none → ∀ row ∈ users.rows, row.identity ≠ some (provider, sub)) := by
  unfold UserRepository.findByOidcSub at h
  split_ifs at h with hprovider hsub
  obtain rfl := Except.ok.inj h
  refine ⟨hsub, fun row hrow => ?_, fun hnone row hrow hidentity => ?_⟩
  · have hmatches := List.find?_some hrow
    exact ⟨List.mem_of_find?_eq_some hrow, matchesSub_iff.1 hmatches⟩
  · exact List.find?_eq_none.1 hnone row hrow (matchesSub_iff.2 hidentity)

/-! ## One statement of `upsertFromOidc` -/

/-- What a callback knows at the point where it stands. -/
def PointInv (users : Users) (input : UserUpsertInput) (faulted : Bool) : UpsertPoint → Prop
  | .lookup => True
  | .update existing => existing.id ≠ 0 ∧ Holds users existing.id (input.provider, input.sub)
  | .insert => input.sub ≠ ""
  | .resolve error => input.sub ≠ "" ∧
      match error with
      | .typeError => input.displayName = ""
      | .unique => ∃ id, Holds users id (input.provider, input.sub)
      | .storage => faulted = true
      | .disappeared => False

theorem PointInv.mono {users users' : Users} (h : UsersStep users users') {input : UserUpsertInput}
    {faulted : Bool} {point : UpsertPoint} (hpoint : PointInv users input faulted point) :
    PointInv users' input faulted point := by
  cases point with
  | lookup => trivial
  | update existing => exact ⟨hpoint.1, h.holds _ _ hpoint.2⟩
  | insert => exact hpoint
  | resolve error =>
    cases error with
    | unique =>
      obtain ⟨hsub, id, hid⟩ := hpoint
      exact ⟨hsub, id, h.holds _ _ hid⟩
    | typeError => exact hpoint
    | storage => exact hpoint
    | disappeared => exact hpoint

/-- How a callback goes on after a statement. -/
def ResultInv (users : Users) (input : UserUpsertInput) (faulted : Bool) : UpsertResult → Prop
  | .next point => PointInv users input faulted point
  | .done row => Holds users row.id (input.provider, input.sub)
  | .failed _ => faulted = true ∨ input.sub = "" ∨ input.displayName = ""

theorem holds_of_rowId {users : Users} (row : User) {identity : String × String}
    (h : users.find? row.id = some row) (hidentity : row.identity = some identity) :
    Holds users row.id identity := ⟨row, h, hidentity⟩

theorem upsertStep_spec {users : Users} {input : UserUpsertInput} {faulted : Bool} (fault : Bool)
    {point : UpsertPoint} (hprovider : input.provider ≠ "")
    (h : PointInv users input faulted point) :
    UsersStep users (upsertStep users input fault point).2 ∧
      ResultInv (upsertStep users input fault point).2 input (faulted || fault)
        (upsertStep users input fault point).1 := by
  have hfault : ∀ fault, fault = true → (faulted || fault) = true := by
    intro fault h
    rw [h, Bool.or_true]
  -- a lookup that throws does so for want of a sub
  have hthrown : ∀ error,
      UserRepository.findByOidcSub users input.provider input.sub = .error error →
      input.sub = "" := by
    intro error herror
    unfold UserRepository.findByOidcSub at herror
    rw [if_neg hprovider] at herror
    by_contra hsub
    rw [if_neg hsub] at herror
    contradiction
  cases point with
  | lookup =>
    unfold upsertStep
    by_cases hf : fault = true
    · rw [if_pos hf]
      exact ⟨.refl users, .inl (hfault fault hf)⟩
    · rw [if_neg hf]
      cases hfound : UserRepository.findByOidcSub users input.provider input.sub with
      | error error => exact ⟨.refl users, .inr (.inl (hthrown error hfound))⟩
      | ok found =>
        obtain ⟨hsub, hrow, -⟩ := findByOidcSub_ok hfound
        cases found with
        | none => exact ⟨.refl users, hsub⟩
        | some existing =>
          obtain ⟨hmem, hidentity⟩ := hrow existing rfl
          have hholds := Holds.of_mem hmem hidentity
          simp only
          split_ifs
          · exact ⟨.refl users, hholds⟩
          · exact ⟨.refl users, (users.pos existing hmem).ne', hholds⟩
  | update existing =>
    unfold upsertStep
    simp only
    by_cases hf : fault = true
    · rw [if_pos hf]
      exact ⟨.refl users, .inl (hfault fault hf)⟩
    · rw [if_neg hf]
      obtain ⟨hpos, row, hrow, hidentity⟩ := h
      unfold UserRepository.updateProfile
      rw [if_neg hpos]
      by_cases hname : (drift existing input).displayName = some ""
      · rw [if_pos hname]
        refine ⟨.refl users, .inr (.inr ?_)⟩
        unfold drift at hname
        simp only at hname
        split_ifs at hname
        exact Option.some.inj hname
      · rw [if_neg hname]
        simp only
        rw [Table.find?_modify_self, hrow, Option.map_some]
        obtain ⟨hmem, hid⟩ := Table.find?_eq_some.1 hrow
        refine ⟨usersStep_modify users existing.id (drift existing input).apply_id fun _ => rfl, ?_⟩
        refine holds_of_rowId ((drift existing input).apply row) ?_ hidentity
        show Table.find? _ row.id = _
        rw [hid, Table.find?_modify_self, hrow, Option.map_some]
  | insert =>
    unfold upsertStep
    simp only
    by_cases hf : fault = true
    · rw [if_pos hf]
      exact ⟨.refl users, h, hfault fault hf⟩
    · rw [if_neg hf]
      unfold UserRepository.insert
      rw [if_neg hprovider, if_neg (show input.sub ≠ "" from h)]
      by_cases hname : input.displayName = ""
      · rw [if_pos hname]
        exact ⟨.refl users, h, hname⟩
      rw [if_neg hname]
      by_cases hany : users.rows.any (UserRepository.matchesSub input.provider input.sub) = true
      · rw [if_pos hany]
        obtain ⟨row, hrow, hmatches⟩ := List.any_eq_true.1 hany
        exact ⟨.refl users, h, row.id, Holds.of_mem hrow (matchesSub_iff.1 hmatches)⟩
      · rw [if_neg hany]
        refine ⟨usersStep_insert users (UserRepository.newRow_id input) ?_, ?_⟩
        · intro identity hidentity row hrow hsame
          obtain rfl : (input.provider, input.sub) = identity := Option.some.inj hidentity
          exact hany (List.any_eq_true.2 ⟨row, hrow, matchesSub_iff.2 hsame⟩)
        · refine holds_of_rowId (UserRepository.newRow input users.next) ?_ rfl
          show Table.find? _ users.next = _
          rw [Table.find?_insert, if_pos rfl]
  | resolve error =>
    unfold upsertStep
    simp only
    by_cases hf : fault = true
    · rw [if_pos hf]
      exact ⟨.refl users, .inl (hfault fault hf)⟩
    · rw [if_neg hf]
      obtain ⟨hsub, herror⟩ := h
      cases hfound : UserRepository.findByOidcSub users input.provider input.sub with
      | error error' => exact ⟨.refl users, .inr (.inl (hthrown error' hfound))⟩
      | ok found =>
        obtain ⟨-, hrow, hnone⟩ := findByOidcSub_ok hfound
        cases found with
        | some racer =>
          obtain ⟨hmem, hidentity⟩ := hrow racer rfl
          exact ⟨.refl users, Holds.of_mem hmem hidentity⟩
        | none =>
          refine ⟨.refl users, ?_⟩
          cases error with
          | typeError => exact .inr (.inr herror)
          | unique =>
            obtain ⟨id, row, hfind, hidentity⟩ := herror
            exact absurd hidentity (hnone rfl row (Table.find?_eq_some.1 hfind).1)
          | storage =>
            refine .inl ?_
            rw [show faulted = true from herror, Bool.true_or]
          | disappeared => contradiction

/-! ## Sessions, callbacks and events -/

/-- What the session of a cookie holds. -/
structure SessionInv (ledger : List LoginEvent) (session : Session) : Prop where
  begun : ∀ handshake, session.handshake = some handshake → .begun handshake ∈ ledger
  user : ∀ user, session.user = some user → session.handshake = none ∧
    ∃ handshake claims, .signedIn handshake claims user.id ∈ ledger

/-- A session with a handshake is nobody's yet. -/
theorem SessionInv.user_eq_none {ledger : List LoginEvent} {session : Session}
    (h : SessionInv ledger session) {handshake : Handshake}
    (hhandshake : session.handshake = some handshake) : session.user = none := by
  cases huser : session.user with
  | none => rfl
  | some user =>
    have hnone := (h.user user huser).1
    rw [hhandshake] at hnone
    contradiction

/-- What a callback in `upsertFromOidc` has been through. -/
structure CallbackInv (users : Users) (ledger : List LoginEvent) (cb : Callback) : Prop where
  begun : .begun cb.handshake ∈ ledger
  verified : cb.claims.emailVerified = true
  noUser : cb.session.user = none
  point : PointInv users cb.claims.input cb.faulted cb.point

def EventInv (users : Users) (ledger : List LoginEvent) : LoginEvent → Prop
  | .begun _ => True
  | .signedIn handshake claims id => .begun handshake ∈ ledger ∧ claims.emailVerified = true ∧
      Holds users id ("google", claims.sub)
  | .refused claims faulted => faulted = true ∨ claims.sub = "" ∨ claims.displayName = ""

section Mono

variable {users users' : Users} {ledger ledger' : List LoginEvent}

theorem SessionInv.mono {session : Session} (h : SessionInv ledger session)
    (hledger : ledger ⊆ ledger') : SessionInv ledger' session where
  begun handshake hhandshake := hledger (h.begun handshake hhandshake)
  user user huser := by
    obtain ⟨hnone, handshake, claims, hevent⟩ := h.user user huser
    exact ⟨hnone, handshake, claims, hledger hevent⟩

theorem CallbackInv.mono {cb : Callback} (h : CallbackInv users ledger cb)
    (husers : UsersStep users users') (hledger : ledger ⊆ ledger') :
    CallbackInv users' ledger' cb :=
  ⟨hledger h.begun, h.verified, h.noUser, h.point.mono husers⟩

theorem EventInv.mono {event : LoginEvent} (h : EventInv users ledger event)
    (husers : UsersStep users users') (hledger : ledger ⊆ ledger') :
    EventInv users' ledger' event := by
  cases event with
  | begun handshake => trivial
  | signedIn handshake claims id => exact ⟨hledger h.1, h.2.1, husers.holds _ _ h.2.2⟩
  | refused claims faulted => exact h

end Mono

namespace Server

variable {s : Server}

/-- The invariant of the runs. -/
structure Inv (s : Server) : Prop where
  unique : Unique s.users
  cookies : ∀ session ∈ s.cookies, SessionInv s.ledger session
  callbacks : ∀ cb ∈ s.callbacks, CallbackInv s.users s.ledger cb
  events : ∀ event ∈ s.ledger, EventInv s.users s.ledger event

theorem Inv.start : Inv {} where
  unique _ h := absurd h List.not_mem_nil
  cookies _ h := absurd h List.not_mem_nil
  callbacks _ h := absurd h List.not_mem_nil
  events _ h := absurd h List.not_mem_nil

theorem Inv.write (h : Inv s) {users : Users} (husers : UsersStep s.users users) :
    Inv { s with users } where
  unique := husers.unique h.unique
  cookies := h.cookies
  callbacks cb hcb := (h.callbacks cb hcb).mono husers (List.Subset.refl _)
  events event hevent := (h.events event hevent).mono husers (List.Subset.refl _)

theorem Inv.record (h : Inv s) (event : LoginEvent) (hnew : EventInv s.users s.ledger event) :
    Inv { s with ledger := s.ledger ++ [event] } := by
  have hledger : s.ledger ⊆ s.ledger ++ [event] := List.subset_append_left _ _
  refine ⟨h.unique, fun session hsession => (h.cookies session hsession).mono hledger,
    fun cb hcb => (h.callbacks cb hcb).mono (.refl _) hledger, fun e he => ?_⟩
  rcases List.mem_append.1 he with he | he
  · exact (h.events e he).mono (.refl _) hledger
  · rw [List.mem_singleton.1 he]
    exact hnew.mono (.refl _) hledger

theorem Inv.sendCookie (h : Inv s) {session : Session} (hsession : SessionInv s.ledger session) :
    Inv (s.sendCookie session) := by
  refine ⟨h.unique, fun c hc => ?_, h.callbacks, h.events⟩
  rcases List.mem_append.1 hc with hc | hc
  · exact h.cookies c hc
  · rw [List.mem_singleton.1 hc]
    exact hsession

theorem Inv.withCallbacks (h : Inv s) (callbacks : List Callback)
    (hcallbacks : ∀ cb ∈ callbacks, CallbackInv s.users s.ledger cb) : Inv { s with callbacks } :=
  ⟨h.unique, h.cookies, hcallbacks, h.events⟩

theorem sessionInv_empty (ledger : List LoginEvent) : SessionInv ledger {} :=
  ⟨fun _ h => absurd h.symm (Option.some_ne_none _),
    fun _ h => absurd h.symm (Option.some_ne_none _)⟩

theorem sessionInv_presented (h : Inv s) (cookie : Option Nat) :
    SessionInv s.ledger (s.presented cookie) := by
  unfold presented
  cases hc : cookie.bind fun i => s.cookies[i]? with
  | none => exact sessionInv_empty s.ledger
  | some session =>
    obtain ⟨i, -, hi⟩ := Option.bind_eq_some_iff.1 hc
    exact h.cookies session (List.mem_of_getElem? hi)

theorem Inv.clearHandshake (h : Inv s) {session : Session} (hnobody : session.user = none) :
    Inv (s.clearHandshake session) := by
  refine h.sendCookie ⟨fun _ hnone => absurd hnone.symm (Option.some_ne_none _), ?_⟩
  intro user huser
  rw [show _ = _ from huser] at hnobody
  contradiction

/-! ## The steps -/

theorem Inv.login (h : Inv s) (cookie : Option Nat) (path : String) :
    Inv (s.login cookie path).2 := by
  unfold Server.login
  simp only
  by_cases huser : (s.presented cookie).user.isSome = true
  · rw [if_pos huser]
    exact h
  rw [if_neg huser]
  have hrecord := h.record (.begun ⟨s.drawn, path⟩) trivial
  refine ⟨hrecord.unique, (hrecord.sendCookie ⟨fun handshake hh => ?_, fun user hu => ?_⟩).cookies,
    hrecord.callbacks, hrecord.events⟩
  · rw [← Option.some.inj hh]
    exact List.mem_append_right _ List.mem_cons_self
  · exact absurd (Option.isSome_iff_exists.2 ⟨user, hu⟩) huser

theorem Inv.callback (h : Inv s) (cookie state : Option Nat) (answer : Answer) :
    Inv (s.callback cookie state answer).2 := by
  unfold Server.callback
  simp only
  have hsession := sessionInv_presented h cookie
  cases hhandshake : (s.presented cookie).handshake with
  | none => exact h
  | some handshake =>
    have hnobody := hsession.user_eq_none hhandshake
    simp only
    by_cases hstate : state ≠ some handshake.state
    · rw [if_pos hstate]
      exact h.clearHandshake hnobody
    rw [if_neg hstate]
    cases answer with
    | failed => exact h.clearHandshake hnobody
    | noClaims => exact h.clearHandshake hnobody
    | claims claims =>
      simp only
      by_cases hverified : claims.emailVerified = true
      · rw [if_pos hverified]
        refine h.withCallbacks _ fun cb hcb => ?_
        rcases List.mem_append.1 hcb with hcb | hcb
        · exact h.callbacks cb hcb
        · rw [List.mem_singleton.1 hcb]
          exact ⟨hsession.begun handshake hhandshake, hverified, hnobody, trivial⟩
      · rw [if_neg hverified]
        exact h.clearHandshake hnobody

theorem Inv.signIn (h : Inv s) {cb : Callback} (hcb : CallbackInv s.users s.ledger cb) {row : User}
    (hrow : Holds s.users row.id ("google", cb.claims.sub)) : Inv (s.signIn cb row).2 := by
  have hrecord := h.record (.signedIn cb.handshake cb.claims row.id)
    ⟨hcb.begun, hcb.verified, hrow⟩
  refine hrecord.sendCookie ⟨fun _ hnone => absurd hnone.symm (Option.some_ne_none _), ?_⟩
  intro user huser
  rw [← Option.some.inj huser]
  exact ⟨rfl, cb.handshake, cb.claims, List.mem_append_right _ List.mem_cons_self⟩

theorem Inv.refuse (h : Inv s) {cb : Callback} (hcb : CallbackInv s.users s.ledger cb)
    {faulted : Bool} (hwhy : faulted = true ∨ cb.claims.sub = "" ∨ cb.claims.displayName = "") :
    Inv (s.refuse cb faulted).2 :=
  (h.record (.refused cb.claims faulted) hwhy).clearHandshake hcb.noUser

theorem Inv.runCallback (h : Inv s) (i : Nat) (fault : Bool) : Inv (s.runCallback i fault).2 := by
  unfold Server.runCallback
  cases hi : s.callbacks[i]? with
  | none => exact h
  | some cb =>
    have hcb := h.callbacks cb (List.mem_of_getElem? hi)
    have hspec := upsertStep_spec fault (show "google" ≠ "" by decide) hcb.point
    simp only
    generalize upsertStep s.users cb.claims.input fault cb.point = outcome at hspec
    obtain ⟨result, users⟩ := outcome
    obtain ⟨husers, hresult⟩ := hspec
    have hwrite := h.write husers
    have hcb' := hcb.mono husers (List.Subset.refl s.ledger)
    have herase := hwrite.withCallbacks (s.callbacks.eraseIdx i)
      fun cb' hcb' => hwrite.callbacks cb' (List.mem_of_mem_eraseIdx hcb')
    cases result with
    | next point =>
      refine hwrite.withCallbacks _ fun cb' hmem => ?_
      rcases List.mem_or_eq_of_mem_set hmem with hmem | rfl
      · exact hwrite.callbacks cb' hmem
      · exact ⟨hcb'.begun, hcb'.verified, hcb'.noUser, hresult⟩
    | done row => exact herase.signIn hcb' hresult
    | failed error => exact herase.refuse hcb' hresult

theorem inv_step (h : Inv s) (a : Action) : Inv (s.step a) := by
  cases a with
  | login cookie path => exact h.login cookie path
  | callback cookie state answer => exact h.callback cookie state answer
  | runCallback i fault => exact h.runCallback i fault
  | logout => exact h.sendCookie (sessionInv_empty s.ledger)
  | provision displayName isLegacy isServiceAccount =>
    refine h.write (usersStep_insert s.users _ fun identity hidentity => ?_)
    exact absurd hidentity.symm (Option.some_ne_none _)
  | setDisabled id disabledAt =>
    exact h.write (usersStep_modify s.users id _ fun _ => rfl)
  | wait ms => exact ⟨h.unique, h.cookies, h.callbacks, h.events⟩

theorem inv_run (actions : List Action) : Inv (actions.foldl step {}) :=
  (RunOk.of_forall (C := fun _ _ => True) fun _ _ _ => trivial).invariant
    (fun _ a h _ => inv_step h a) .start

/-- **Main theorem.** In every state of every run, a cookie whose session names a user holds no
    handshake any more; the user was signed in by a callback to a handshake that had begun, with a
    verified address, and there is a row with its id and the identity that the provider vouched for.
    Two logins end with the same user exactly when they were for the same subject. -/
theorem sessions_authentic (actions : List Action) :
    let s := actions.foldl step {}
    (∀ session ∈ s.cookies, ∀ user ∈ session.user, session.handshake = none ∧
      ∃ handshake claims row, .begun handshake ∈ s.ledger ∧
        .signedIn handshake claims user.id ∈ s.ledger ∧ claims.emailVerified = true ∧
        s.users.find? user.id = some row ∧ row.identity = some ("google", claims.sub)) ∧
    ∀ handshake handshake' claims claims' id id', .signedIn handshake claims id ∈ s.ledger →
      .signedIn handshake' claims' id' ∈ s.ledger → (claims.sub = claims'.sub ↔ id = id') := by
  intro s
  have hinv : Inv s := inv_run actions
  refine ⟨fun session hsession user huser => ?_, ?_⟩
  · obtain ⟨hnone, handshake, claims, hsigned⟩ := (hinv.cookies session hsession).user user huser
    obtain ⟨hbegun, hverified, row, hrow, hidentity⟩ := hinv.events _ hsigned
    exact ⟨hnone, handshake, claims, row, hbegun, hsigned, hverified, hrow, hidentity⟩
  · intro handshake handshake' claims claims' id id' h h'
    obtain ⟨-, -, hholds⟩ := hinv.events _ h
    obtain ⟨-, -, hholds'⟩ := hinv.events _ h'
    constructor
    · intro hsub
      rw [← hsub] at hholds'
      exact hinv.unique.id_eq hholds hholds'
    · rintro rfl
      obtain ⟨row, hrow, hidentity⟩ := hholds
      obtain ⟨row', hrow', hidentity'⟩ := hholds'
      obtain rfl : row = row' := Option.some.inj (hrow ▸ hrow')
      exact congrArg Prod.snd (Option.some.inj (hidentity ▸ hidentity'))

/-- **Main theorem.** However the statements of concurrent callbacks interleave, no two rows have
    the same identity, and a callback that has come as far as `upsertFromOidc` is refused only when
    the storage has failed in one of its own statements, or without a subject or a name. -/
theorem refused_only_if (actions : List Action) :
    let s := actions.foldl step {}
    (∀ row ∈ s.users.rows, ∀ row' ∈ s.users.rows, row.oidcProvider.isSome → row.oidcSub.isSome →
      row.oidcProvider = row'.oidcProvider → row.oidcSub = row'.oidcSub → row.id = row'.id) ∧
    ∀ claims faulted, .refused claims faulted ∈ s.ledger →
      faulted = true ∨ claims.sub = "" ∨ claims.displayName = "" := by
  intro s
  have hinv : Inv s := inv_run actions
  refine ⟨fun row hrow row' hrow' hprovider hsub hprovider' hsub' => ?_,
    fun claims faulted h => hinv.events _ h⟩
  obtain ⟨provider, hprovider⟩ := Option.isSome_iff_exists.1 hprovider
  obtain ⟨sub, hsub⟩ := Option.isSome_iff_exists.1 hsub
  refine hinv.unique row hrow row' hrow' (provider, sub) ?_ ?_
  · unfold User.identity
    rw [hprovider, hsub]
    rfl
  · unfold User.identity
    rw [← hprovider', ← hsub', hprovider, hsub]
    rfl

/-- Two callbacks for a new subject that both look it up before either inserts it. -/
example :
    let claims : Claims := ⟨"108", true, some "ada@example.com", some "Ada", none⟩
    let s := ([.login none "", .login none "/tasks", .callback (some 0) (some 0) (.claims claims),
      .callback (some 1) (some 1) (.claims claims), .runCallback 0 false, .runCallback 1 false,
      .runCallback 1 false, .runCallback 0 false, .runCallback 0 false] : List Action).foldl step {}
    s.users.rows.length = 1 ∧ (s.cookies.filterMap (·.user)).map (·.id) = [1, 1] := by
  decide +kernel

end Server

end WoodFiredTasks.OidcLogin
