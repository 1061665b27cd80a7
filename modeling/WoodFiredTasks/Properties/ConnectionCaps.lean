import WoodFiredTasks.Api.EventsRoute
import WoodFiredTasks.Lib.Runs
import WoodFiredTasks.Lib.Text

set_option autoImplicit false

/-! # Caps and ages of the event connections

Over runs in which the steps of requests, sockets and the heartbeat come in any order: a cap is
exceeded by no more than the requests that overtook each other between the check and the
registration (`caps_hold`), so it holds where the two follow each other directly. A stream that the
server has forgotten is one that it has ended or whose socket was gone (`streams_accounted`), so no
client is left with an open stream that stays silent. -/

namespace WoodFiredTasks.EventsRoute

/-! ## Buckets -/

/-- The bucket of a principal. -/
def Principal.text : Principal → String
  | .token id => "pat:" ++ toString id
  | .user id => "session:" ++ toString id
  | .key label => "legacy:" ++ label

theorem derivePrincipalId_eq {hashKey : String → String} {r : Request} {p : Principal}
    (h : r.principal = some p) : derivePrincipalId hashKey r = p.text := by
  unfold Request.principal at h
  unfold derivePrincipalId
  split at h
  · obtain ⟨id, hid, rfl⟩ := Option.map_eq_some_iff.1 h
    rw [hid]
    rfl
  · obtain ⟨id, hid, rfl⟩ := Option.map_eq_some_iff.1 h
    rw [hid]
    rfl
  · obtain ⟨label, hlabel, rfl⟩ := Option.map_eq_some_iff.1 h
    rw [hlabel]
    rfl
  · contradiction

/-- No two principals share a bucket. -/
theorem Principal.text_injective : Function.Injective Principal.text := by
  intro p p' h
  have hchars := congrArg String.toList h
  cases p with
  | token id =>
    cases p' with
    | token id' =>
      have hid : (toString id).toList = (toString id').toList := by simpa [text] using hchars
      rw [toString_nat_inj.1 (String.toList_inj.1 hid)]
    | user id' => simp [text] at hchars
    | key label' => simp [text] at hchars
  | user id =>
    cases p' with
    | token id' => simp [text] at hchars
    | user id' =>
      have hid : (toString id).toList = (toString id').toList := by simpa [text] using hchars
      rw [toString_nat_inj.1 (String.toList_inj.1 hid)]
    | key label' => simp [text] at hchars
  | key label =>
    cases p' with
    | token id' => simp [text] at hchars
    | user id' => simp [text] at hchars
    | key label' =>
      have hlabel : label.toList = label'.toList := by simpa [text] using hchars
      rw [String.toList_inj.1 hlabel]

namespace Server

variable {hashKey : String → String} {config : Config} {s : Server}

/-! ## What the steps do -/

theorem preHandler_cases (hashKey : String → String) (config : Config) (s : Server) (r : Request) :
    s.preHandler hashKey config r = s ∨
    (∃ reason, s.preHandler hashKey config r =
      { s with refused := (s.nextId, reason) :: s.refused, nextId := s.nextId + 1 }) ∨
    ∃ p, r.principal = some p ∧ s.canAccept config p.text r.ip = none ∧
      s.preHandler hashKey config r =
        { s with admitted := s.admitted ++ [⟨s.nextId, r, p⟩], nextId := s.nextId + 1 } := by
  unfold preHandler
  cases hp : r.principal with
  | none => exact .inl rfl
  | some p =>
    simp only
    rw [derivePrincipalId_eq hp]
    cases hcap : s.canAccept config p.text r.ip with
    | some reason => exact .inr (.inl ⟨reason, rfl⟩)
    | none => exact .inr (.inr ⟨p, rfl, hcap, rfl⟩)

theorem handler_cases (hashKey : String → String) (s : Server) (id : Nat) :
    s.handler hashKey id = s ∨
    ∃ a ∈ s.admitted, a.id = id ∧
      (s.handler hashKey id = { s with admitted := s.admitted.filter (·.id ≠ id) } ∨
        s.handler hashKey id = { s with
          admitted := s.admitted.filter (·.id ≠ id)
          connections := s.connections ++
            [⟨id, derivePrincipalId hashKey a.request, a.request.ip, s.now, a.principal⟩]
          registered := id :: s.registered }) := by
  unfold handler
  cases ha : s.admitted.find? (·.id = id) with
  | none => exact .inl rfl
  | some a =>
    refine .inr ⟨a, List.mem_of_find?_eq_some ha, ?_, ?_⟩
    · simpa using List.find?_some ha
    · simp only
      by_cases haccepts : a.request.acceptsEventStream = true
      · rw [if_pos haccepts]
        exact .inr rfl
      · rw [if_neg haccepts]
        exact .inl rfl

/-! ## The invariant -/

structure Inv (config : Config) (s : Server) : Prop where
  keyed : ∀ conn ∈ s.connections, conn.apiKeyFingerprint = conn.principal.text
  named : ∀ a ∈ s.admitted, a.request.principal = some a.principal
  nodup : (s.admitted.map (·.id)).Nodup
  waiting : ∀ a ∈ s.admitted, a.id < s.nextId ∧ a.id ∉ s.registered
  known : ∀ id ∈ s.registered, id < s.nextId
  distinct : (s.connections.map (·.id)).Nodup
  live : ∀ conn ∈ s.connections, conn.id ∈ s.registered ∧ conn.id ∉ s.ended
  ended : ∀ id ∈ s.ended, id ∈ s.registered
  accounted : ∀ id ∈ s.registered, id ∈ s.connections.map (·.id) ∨ id ∈ s.ended ∨ id ∈ s.gone
  young : ∀ conn ∈ s.connections, s.sweptAt ≤ conn.createdAt + config.maxConnectionAgeMs
  swept : s.sweptAt ≤ s.now

theorem Inv.start (config : Config) : Inv config {} where
  keyed := fun _ h => absurd h List.not_mem_nil
  named := fun _ h => absurd h List.not_mem_nil
  nodup := List.nodup_nil
  waiting := fun _ h => absurd h List.not_mem_nil
  known := fun _ h => absurd h List.not_mem_nil
  distinct := List.nodup_nil
  live := fun _ h => absurd h List.not_mem_nil
  ended := fun _ h => absurd h List.not_mem_nil
  accounted := fun _ h => absurd h List.not_mem_nil
  young := fun _ h => absurd h List.not_mem_nil
  swept := Nat.le_refl 0

theorem mem_removeConnection {id : Nat} {conn : Connection} :
    conn ∈ (s.removeConnection id).connections ↔ conn ∈ s.connections ∧ conn.id ≠ id := by
  unfold removeConnection
  rw [List.mem_filter, decide_eq_true_eq]

theorem distinct_removeConnection (h : (s.connections.map (·.id)).Nodup) (id : Nat) :
    ((s.removeConnection id).connections.map (·.id)).Nodup :=
  h.sublist (List.filter_sublist.map _)

theorem mem_ids_removeConnection {id x : Nat} :
    x ∈ (s.removeConnection id).connections.map (·.id) ↔
      x ∈ s.connections.map (·.id) ∧ x ≠ id := by
  constructor
  · intro hx
    obtain ⟨conn, hconn, rfl⟩ := List.mem_map.1 hx
    obtain ⟨hmem, hne⟩ := mem_removeConnection.1 hconn
    exact ⟨List.mem_map_of_mem hmem, hne⟩
  · rintro ⟨hx, hne⟩
    obtain ⟨conn, hconn, rfl⟩ := List.mem_map.1 hx
    exact List.mem_map_of_mem (mem_removeConnection.2 ⟨hconn, hne⟩)

/-- A closed connection is not there any more; its stream has been ended if it was. -/
theorem closeConnection_eq (s : Server) (id : Nat) : s.closeConnection id =
    { s.removeConnection id with
      ended := if id ∈ s.connections.map (·.id) then id :: s.ended else s.ended } := by
  unfold closeConnection
  have hany : s.connections.any (·.id = id) = true ↔ id ∈ s.connections.map (·.id) := by
    rw [List.any_eq_true, List.mem_map]
    simp only [decide_eq_true_eq]
  by_cases hid : id ∈ s.connections.map (·.id)
  · rw [if_pos (hany.2 hid), if_pos hid]
  · rw [if_neg fun h => hid (hany.1 h), if_neg hid]
    unfold removeConnection
    rw [List.filter_eq_self.2]
    intro conn hconn
    exact decide_eq_true fun heq => hid (heq ▸ List.mem_map_of_mem hconn)

theorem inv_closeConnection (h : Inv config s) (id : Nat) : Inv config (s.closeConnection id) := by
  rw [closeConnection_eq]
  refine { h with
    keyed := fun conn hconn => h.keyed conn (mem_removeConnection.1 hconn).1
    distinct := distinct_removeConnection h.distinct id
    young := fun conn hconn => h.young conn (mem_removeConnection.1 hconn).1
    live := fun conn hconn => ?_
    ended := fun x hx => ?_
    accounted := fun x hx => ?_ }
  · obtain ⟨hmem, hne⟩ := mem_removeConnection.1 hconn
    obtain ⟨hregistered, hlive⟩ := h.live conn hmem
    refine ⟨hregistered, fun hended => ?_⟩
    split_ifs at hended
    · exact (List.mem_cons.1 hended).elim hne hlive
    · exact hlive hended
  · split_ifs at hx with hid
    · rcases List.mem_cons.1 hx with rfl | hx
      · obtain ⟨conn, hconn, rfl⟩ := List.mem_map.1 hid
        exact (h.live conn hconn).1
      · exact h.ended x hx
    · exact h.ended x hx
  · rcases h.accounted x hx with hmap | hended | hgone
    · by_cases hxid : x = id
      · refine .inr (.inl ?_)
        rw [if_pos (hxid ▸ hmap)]
        exact List.mem_cons.2 (.inl hxid)
      · exact .inl (mem_ids_removeConnection.2 ⟨hmap, hxid⟩)
    · refine .inr (.inl ?_)
      split_ifs
      · exact List.mem_cons_of_mem id hended
      · exact hended
    · exact .inr (.inr hgone)

/-! ## Closing several -/

/-- What closing connections leaves as it was. -/
structure SameBut (s s' : Server) : Prop where
  now : s'.now = s.now
  sweptAt : s'.sweptAt = s.sweptAt
  admitted : s'.admitted = s.admitted
  nextId : s'.nextId = s.nextId
  gone : s'.gone = s.gone
  registered : s'.registered = s.registered
  connections : s'.connections.Sublist s.connections

theorem SameBut.trans {s' s'' : Server} (h : SameBut s s') (h' : SameBut s' s'') :
    SameBut s s'' where
  now := h'.now.trans h.now
  sweptAt := h'.sweptAt.trans h.sweptAt
  admitted := h'.admitted.trans h.admitted
  nextId := h'.nextId.trans h.nextId
  gone := h'.gone.trans h.gone
  registered := h'.registered.trans h.registered
  connections := h'.connections.trans h.connections

theorem sameBut_closeConnection (s : Server) (id : Nat) : SameBut s (s.closeConnection id) := by
  rw [closeConnection_eq]
  exact ⟨rfl, rfl, rfl, rfl, rfl, rfl, List.filter_sublist⟩

theorem closeAll_spec (h : Inv config s) (ids : List Nat) :
    Inv config (s.closeAll ids) ∧ SameBut s (s.closeAll ids) ∧
      ∀ conn ∈ (s.closeAll ids).connections, conn.id ∉ ids := by
  induction ids generalizing s with
  | nil =>
    exact ⟨h, ⟨rfl, rfl, rfl, rfl, rfl, rfl, List.Sublist.refl _⟩, fun _ _ => List.not_mem_nil⟩
  | cons id rest ih =>
    obtain ⟨hinv, hsame, hrest⟩ := ih (inv_closeConnection h id)
    refine ⟨hinv, (sameBut_closeConnection s id).trans hsame, fun conn hconn hmem => ?_⟩
    rcases List.mem_cons.1 hmem with heq | hmem
    · have hthere := hsame.connections.subset hconn
      rw [closeConnection_eq] at hthere
      exact (mem_removeConnection.1 hthere).2 heq
    · exact hrest conn hconn hmem

/-! ## One step -/

theorem inv_preHandler (h : Inv config s) (r : Request) :
    Inv config (s.preHandler hashKey config r) := by
  rcases preHandler_cases hashKey config s r with heq | ⟨reason, heq⟩ | ⟨p, hp, -, heq⟩
  · rw [heq]
    exact h
  · rw [heq]
    exact { h with
      waiting := fun a ha => ⟨Nat.lt_succ_of_lt (h.waiting a ha).1, (h.waiting a ha).2⟩
      known := fun id hid => Nat.lt_succ_of_lt (h.known id hid) }
  · rw [heq]
    refine { h with
      named := fun a ha => ?_
      nodup := ?_
      waiting := fun a ha => ?_
      known := fun id hid => Nat.lt_succ_of_lt (h.known id hid) }
    · rcases List.mem_append.1 ha with ha | ha
      · exact h.named a ha
      · rw [List.mem_singleton.1 ha]
        exact hp
    · rw [List.map_append]
      refine List.nodup_append.2 ⟨h.nodup, List.nodup_singleton _, fun x hx y hy hxy => ?_⟩
      obtain ⟨a, ha, rfl⟩ := List.mem_map.1 hx
      have hlt := (h.waiting a ha).1
      rw [hxy, List.mem_singleton.1 hy] at hlt
      exact Nat.lt_irrefl _ hlt
    · rcases List.mem_append.1 ha with ha | ha
      · exact ⟨Nat.lt_succ_of_lt (h.waiting a ha).1, (h.waiting a ha).2⟩
      · rw [List.mem_singleton.1 ha]
        exact ⟨Nat.lt_succ_self _, fun hmem => Nat.lt_irrefl _ (h.known _ hmem)⟩

theorem mem_waiting {id : Nat} {a : Admitted} (ha : a ∈ s.admitted.filter (·.id ≠ id)) :
    a ∈ s.admitted ∧ a.id ≠ id := by
  rwa [List.mem_filter, decide_eq_true_eq] at ha

theorem inv_handler (h : Inv config s) (id : Nat) : Inv config (s.handler hashKey id) := by
  rcases handler_cases hashKey s id with heq | ⟨a, ha, rfl, heq | heq⟩
  · rw [heq]
    exact h
  · rw [heq]
    exact { h with
      named := fun b hb => h.named b (mem_waiting hb).1
      nodup := h.nodup.sublist (List.filter_sublist.map _)
      waiting := fun b hb => h.waiting b (mem_waiting hb).1 }
  · obtain ⟨hlt, hnew⟩ := h.waiting a ha
    rw [heq]
    refine {
      keyed := fun conn hconn => ?_
      named := fun b hb => h.named b (mem_waiting hb).1
      nodup := h.nodup.sublist (List.filter_sublist.map _)
      waiting := fun b hb => ⟨(h.waiting b (mem_waiting hb).1).1, fun hmem => ?_⟩
      known := fun x hx => ?_
      distinct := ?_
      live := fun conn hconn => ?_
      ended := fun x hx => List.mem_cons_of_mem _ (h.ended x hx)
      accounted := fun x hx => ?_
      young := fun conn hconn => ?_
      swept := h.swept }
    · rcases List.mem_append.1 hconn with hconn | hconn
      · exact h.keyed conn hconn
      · rw [List.mem_singleton.1 hconn]
        exact derivePrincipalId_eq (h.named a ha)
    · rcases List.mem_cons.1 hmem with heq | hmem
      · exact (mem_waiting hb).2 heq
      · exact (h.waiting b (mem_waiting hb).1).2 hmem
    · rcases List.mem_cons.1 hx with rfl | hx
      · exact hlt
      · exact h.known x hx
    · rw [List.map_append]
      refine List.nodup_append.2 ⟨h.distinct, List.nodup_singleton _, fun x hx y hy hxy => ?_⟩
      obtain ⟨conn, hconn, rfl⟩ := List.mem_map.1 hx
      obtain rfl : y = a.id := List.mem_singleton.1 hy
      exact hnew (hxy ▸ (h.live conn hconn).1)
    · rcases List.mem_append.1 hconn with hconn | hconn
      · exact ⟨List.mem_cons_of_mem _ (h.live conn hconn).1, (h.live conn hconn).2⟩
      · rw [List.mem_singleton.1 hconn]
        exact ⟨List.mem_cons_self, fun hended => hnew (h.ended _ hended)⟩
    · rw [List.map_append]
      rcases List.mem_cons.1 hx with rfl | hx
      · exact .inl (List.mem_append_right _ List.mem_cons_self)
      · exact (h.accounted x hx).imp_left (List.mem_append_left _)
    · rcases List.mem_append.1 hconn with hconn | hconn
      · exact h.young conn hconn
      · rw [List.mem_singleton.1 hconn]
        exact Nat.le_add_right_of_le h.swept

theorem inv_socketGone (h : Inv config s) (id : Nat) :
    Inv config { s.removeConnection id with gone := id :: s.gone } := by
  refine { h with
    keyed := fun conn hconn => h.keyed conn (mem_removeConnection.1 hconn).1
    distinct := distinct_removeConnection h.distinct id
    young := fun conn hconn => h.young conn (mem_removeConnection.1 hconn).1
    live := fun conn hconn => h.live conn (mem_removeConnection.1 hconn).1
    accounted := fun x hx => ?_ }
  by_cases hxid : x = id
  · exact .inr (.inr (List.mem_cons.2 (.inl hxid)))
  · rcases h.accounted x hx with hmap | hended | hgone
    · exact .inl (mem_ids_removeConnection.2 ⟨hmap, hxid⟩)
    · exact .inr (.inl hended)
    · exact .inr (.inr (List.mem_cons_of_mem _ hgone))

theorem inv_heartbeatSweep (h : Inv config s) : Inv config (s.heartbeatSweep config) := by
  obtain ⟨hinv, hsame, hclosed⟩ :=
    closeAll_spec h ((s.connections.filter (s.aged config)).map (·.id))
  refine { hinv with young := fun conn hconn => ?_, swept := ?_ }
  · -- it was there before the sweep and did not belong to those that were closed
    have hthere := hsame.connections.subset hconn
    by_contra hold
    refine hclosed conn hconn (List.mem_map_of_mem (List.mem_filter.2 ⟨hthere, ?_⟩))
    refine decide_eq_true ?_
    have hlt : conn.createdAt + config.maxConnectionAgeMs < s.now := Nat.not_le.1 hold
    show config.maxConnectionAgeMs < s.now - conn.createdAt
    omega
  · exact Nat.le_of_eq hsame.now.symm

theorem inv_shutdown (h : Inv config s) : Inv config s.shutdown := by
  obtain ⟨hinv, hsame, hclosed⟩ := closeAll_spec h (s.connections.map (·.id))
  have hempty : (s.closeAll (s.connections.map (·.id))).connections = [] := by
    refine List.eq_nil_iff_forall_not_mem.2 fun conn hconn => ?_
    exact hclosed conn hconn (List.mem_map_of_mem (hsame.connections.subset hconn))
  unfold shutdown
  rw [show ([] : List Connection) = (s.closeAll (s.connections.map (·.id))).connections
    from hempty.symm]
  exact { hinv with }

theorem inv_step (h : Inv config s) (a : Action) : Inv config (s.step hashKey config a) := by
  cases a with
  | preHandler r => exact inv_preHandler h r
  | handler id => exact inv_handler h id
  | socketGone id =>
    show Inv config (if id < s.nextId then _ else _)
    split_ifs
    · exact inv_socketGone h id
    · exact h
  | sendFailed id => exact inv_closeConnection h id
  | sweep =>
    show Inv config (if s.heartbeat then _ else _)
    split_ifs
    · exact inv_heartbeatSweep h
    · exact h
  | shutdown => exact inv_shutdown h
  | wait ms => exact { h with swept := Nat.le_add_right_of_le h.swept }

theorem inv_run (hashKey : String → String) (config : Config) (actions : List Action) :
    Inv config (actions.foldl (step hashKey config) {}) :=
  (RunOk.of_forall (C := fun _ _ => True) fun _ _ _ => trivial).invariant
    (fun _ a h _ => inv_step h a) (Inv.start config)

/-! ## The load of a cap -/

/-- The connections that a cap counts, and the requests that will be when they are registered. -/
def load (counts : Principal → String → Bool) (s : Server) : Nat :=
  s.connections.countP (fun conn => counts conn.principal conn.ip) +
    s.admitted.countP fun a => counts a.principal a.request.ip

theorem canAccept_eq_none_iff {fingerprint ip : String} :
    s.canAccept config fingerprint ip = none ↔
      s.connections.length < config.maxConnections ∧
      s.connections.countP (·.apiKeyFingerprint = fingerprint) < config.maxConnectionsPerKey ∧
      s.connections.countP (·.ip = ip) < config.maxConnectionsPerIp := by
  unfold canAccept
  simp only
  split_ifs with hglobal hkey hip <;> simp <;> omega

/-- The fingerprint of a principal counts its own connections and no others. -/
theorem Inv.countP_fingerprint (h : Inv config s) (p : Principal) :
    s.connections.countP (·.apiKeyFingerprint = p.text) =
      s.connections.countP (·.principal = p) := by
  refine List.countP_congr fun conn hconn => ?_
  rw [decide_eq_true_eq, decide_eq_true_eq, h.keyed conn hconn]
  exact Principal.text_injective.eq_iff

/-- A request that the cap counts is only accepted below the cap. -/
def Checked (config : Config) (counts : Principal → String → Bool) (cap : Nat) : Prop :=
  ∀ (s : Server) (p : Principal) (ip : String), Inv config s →
    s.canAccept config p.text ip = none → counts p ip = true →
    s.connections.countP (fun conn => counts conn.principal conn.ip) < cap

variable {counts : Principal → String → Bool} {cap overlap : Nat}

/-- The load does not change hands: what the request had counts for its connection. -/
theorem countP_waiting_le (counts : Principal → String → Bool) (h : Inv config s) {a : Admitted}
    (ha : a ∈ s.admitted) :
    (s.admitted.filter (·.id ≠ a.id)).countP (fun b => counts b.principal b.request.ip) +
      (if counts a.principal a.request.ip then 1 else 0) ≤
    s.admitted.countP fun b => counts b.principal b.request.ip := by
  have hnotin : a ∉ s.admitted.filter (·.id ≠ a.id) := fun hmem => (mem_waiting hmem).2 rfl
  have hnodup : (a :: s.admitted.filter (·.id ≠ a.id)).Nodup :=
    List.nodup_cons.2 ⟨hnotin, (List.Nodup.of_map _ h.nodup).filter _⟩
  have hsub : a :: s.admitted.filter (·.id ≠ a.id) ⊆ s.admitted :=
    List.cons_subset.2 ⟨ha, List.filter_subset_self _⟩
  have hle := (hnodup.subperm hsub).countP_le fun b => counts b.principal b.request.ip
  rwa [List.countP_cons] at hle

theorem load_preHandler (hchecked : Checked config counts cap) (h : Inv config s) (r : Request)
    (hload : load counts s ≤ cap + (overlap - 1))
    (hoverlap : (s.preHandler hashKey config r).admitted.length ≤ overlap) :
    load counts (s.preHandler hashKey config r) ≤ cap + (overlap - 1) := by
  rcases preHandler_cases hashKey config s r with heq | ⟨reason, heq⟩ | ⟨p, -, haccept, heq⟩
  · rwa [heq]
  · rw [heq]
    exact hload
  · rw [heq] at hoverlap ⊢
    unfold load at hload ⊢
    simp only [List.countP_append, List.countP_singleton, List.length_append,
      List.length_singleton] at hoverlap ⊢
    have hfew := List.countP_le_length (p := fun a : Admitted => counts a.principal a.request.ip)
      (l := s.admitted)
    by_cases hcounts : counts p r.ip = true
    · -- below the cap, with at most the requests that overlap added
      have hbelow := hchecked s p r.ip h haccept hcounts
      rw [if_pos hcounts]
      omega
    · rw [if_neg hcounts]
      omega

theorem load_handler (h : Inv config s) (id : Nat) :
    load counts (s.handler hashKey id) ≤ load counts s := by
  rcases handler_cases hashKey s id with heq | ⟨a, ha, rfl, heq | heq⟩
  · rw [heq]
  · rw [heq]
    exact Nat.add_le_add_left (List.Sublist.countP_le List.filter_sublist) _
  · have hle := countP_waiting_le counts h ha
    rw [heq]
    unfold load
    simp only [List.countP_append, List.countP_singleton]
    omega

theorem SameBut.load_le {s' : Server} (h : SameBut s s') : load counts s' ≤ load counts s := by
  unfold load
  rw [h.admitted]
  exact Nat.add_le_add_right h.connections.countP_le _

theorem load_step (hchecked : Checked config counts cap) (h : Inv config s) (a : Action)
    (hload : load counts s ≤ cap + (overlap - 1))
    (hoverlap : (s.step hashKey config a).admitted.length ≤ overlap) :
    load counts (s.step hashKey config a) ≤ cap + (overlap - 1) := by
  cases a with
  | preHandler r => exact load_preHandler hchecked h r hload hoverlap
  | handler id => exact (load_handler h id).trans hload
  | socketGone id =>
    show load counts (if id < s.nextId then _ else _) ≤ _
    split_ifs
    · exact (Nat.add_le_add_right (List.Sublist.countP_le List.filter_sublist) _).trans hload
    · exact hload
  | sendFailed id => exact (sameBut_closeConnection s id).load_le.trans hload
  | sweep =>
    show load counts (if s.heartbeat then _ else _) ≤ _
    split_ifs
    · exact (closeAll_spec h _).2.1.load_le.trans hload
    · exact hload
  | shutdown =>
    have hsame := (closeAll_spec h (s.connections.map (·.id))).2.1
    refine le_trans ?_ hload
    show (0 : Nat) + (s.closeAll (s.connections.map (·.id))).admitted.countP _ ≤ _
    rw [hsame.admitted]
    unfold load
    omega
  | wait ms => exact hload

theorem runOk_of_crowd {actions : List Action}
    (h : crowd hashKey config s actions ≤ overlap) :
    RunOk (step hashKey config) (fun s a => (s.step hashKey config a).admitted.length ≤ overlap)
      s actions := by
  induction actions generalizing s with
  | nil => trivial
  | cons a rest ih =>
    have hrest : crowd hashKey config (s.step hashKey config a) rest ≤ overlap :=
      le_trans (Nat.le_max_right _ _) h
    refine ⟨le_trans ?_ hrest, ih hrest⟩
    cases rest with
    | nil => exact Nat.le_refl _
    | cons b rest => exact Nat.le_max_left _ _

/-- A run keeps a cap, but for the requests that overlap. -/
theorem load_run (hchecked : Checked config counts cap) (actions : List Action) :
    load counts (actions.foldl (step hashKey config) {}) ≤
      cap + (crowd hashKey config {} actions - 1) := by
  refine ((runOk_of_crowd (Nat.le_refl _)).invariant
    (I := fun s => Inv config s ∧ load counts s ≤ cap + (crowd hashKey config {} actions - 1))
    (fun s a hs hoverlap => ⟨inv_step hs.1 a, load_step hchecked hs.1 a hs.2 hoverlap⟩)
    ⟨Inv.start config, ?_⟩).2
  exact Nat.zero_le _

theorem countP_connections_le_load (counts : Principal → String → Bool) (s : Server) :
    s.connections.countP (fun conn => counts conn.principal conn.ip) ≤ load counts s :=
  Nat.le_add_right _ _

/-- **Main theorem.** In every state of every run, no principal, no address and all of them together
    hold more streams than their cap and one less than the most requests that were ever between
    the check and the registration at the same time: exactly the caps where the one follows the
    other directly. A request is accepted exactly when its own principal, its address and the
    server are below their caps; the streams of other principals do not count. -/
theorem caps_hold (hashKey : String → String) (config : Config) (actions : List Action) :
    let s := actions.foldl (step hashKey config) {}
    let excess := crowd hashKey config {} actions - 1
    (∀ p, s.connections.countP (·.principal = p) ≤ config.maxConnectionsPerKey + excess) ∧
    (∀ ip, s.connections.countP (·.ip = ip) ≤ config.maxConnectionsPerIp + excess) ∧
    s.connections.length ≤ config.maxConnections + excess ∧
    ∀ r p, r.principal = some p →
      (s.canAccept config (derivePrincipalId hashKey r) r.ip = none ↔
        s.connections.length < config.maxConnections ∧
        s.connections.countP (·.principal = p) < config.maxConnectionsPerKey ∧
        s.connections.countP (·.ip = r.ip) < config.maxConnectionsPerIp) := by
  intro s excess
  have hinv : Inv config s := inv_run hashKey config actions
  refine ⟨fun p => ?_, fun ip => ?_, ?_, fun r p hp => ?_⟩
  · refine le_trans (countP_connections_le_load (fun q _ => q = p) s)
      (load_run (fun s q ip h haccept hq => ?_) actions)
    rw [← of_decide_eq_true hq, ← h.countP_fingerprint]
    exact (canAccept_eq_none_iff.1 haccept).2.1
  · refine le_trans (countP_connections_le_load (fun _ ip' => ip' = ip) s)
      (load_run (fun s q ip' h haccept hip => ?_) actions)
    rw [← of_decide_eq_true hip]
    exact (canAccept_eq_none_iff.1 haccept).2.2
  · have hglobal : Checked config (fun _ _ => true) config.maxConnections := by
      intro s q ip _ haccept _
      rw [List.countP_true]
      exact (canAccept_eq_none_iff.1 haccept).1
    have hall := le_trans (countP_connections_le_load (fun _ _ => true) s)
      (load_run hglobal actions)
    rwa [List.countP_true] at hall
  · rw [derivePrincipalId_eq hp, canAccept_eq_none_iff, hinv.countP_fingerprint]

/-- Two requests of one token that are both checked before either is registered exceed a cap of
    one. -/
example :
    let r : Request := ⟨some .pat, some 7, none, none, none, "10.0.0.1", true⟩
    let s := ([.preHandler r, .preHandler r, .handler 0, .handler 1] : List Action).foldl
      (step id { maxConnectionsPerKey := 1 }) {}
    s.connections.countP (·.principal = .token 7) = 2 := by decide +kernel

/-- **Main theorem.** In every state of every run, the streams that were ever registered are those
    in the map, each once and none of them ended by the server, and those that the server has ended
    or whose socket was gone. One in the map is not older than the cap on its age and the time
    since the last sweep. -/
theorem streams_accounted (hashKey : String → String) (config : Config) (actions : List Action) :
    let s := actions.foldl (step hashKey config) {}
    (s.connections.map (·.id)).Nodup ∧
    (∀ conn ∈ s.connections, conn.id ∈ s.registered ∧ conn.id ∉ s.ended) ∧
    (∀ id ∈ s.registered, id ∈ s.connections.map (·.id) ∨ id ∈ s.ended ∨ id ∈ s.gone) ∧
    ∀ conn ∈ s.connections,
      s.now - conn.createdAt ≤ config.maxConnectionAgeMs + (s.now - s.sweptAt) := by
  intro s
  have hinv : Inv config s := inv_run hashKey config actions
  refine ⟨hinv.distinct, hinv.live, hinv.accounted, fun conn hconn => ?_⟩
  have hyoung := hinv.young conn hconn
  have hswept := hinv.swept
  omega

end Server

end WoodFiredTasks.EventsRoute
