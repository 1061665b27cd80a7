import WoodFiredTasks.Events.CallTree
import Mathlib.Data.List.Nodup

set_option autoImplicit false

/-! # What a call tree leaves in the trace

A program on the bus appends a stretch to the trace. `Segment` says what such a stretch looks
like whatever the program was: which numbers it uses up, that every transaction it opens is
settled, that a bypass subscriber got every call of it between the call and its return. `Ran` adds
what became of the buffers: inside a transaction the innermost one has grown by the calls of the
stretch that are still to be delivered; outside, they have been delivered. Both are closed under
everything a call tree is made of, and so hold of every call tree. -/

namespace WoodFiredTasks

namespace EventBus

variable {Name Payload : Type}

/-! ## Committed transactions and kept calls -/

@[simp] theorem committedIn_iff {acts : List (Act Name Payload)} {t : Nat} :
    committedIn acts t = true ↔ .committed t ∈ acts := by
  induction acts with
  | nil => simp [committedIn]
  | cons a acts ih =>
    simp only [committedIn, List.any_cons, Bool.or_eq_true, List.mem_cons] at ih ⊢
    rw [ih]
    cases a <;> simp [eq_comm]

@[simp] theorem mem_returnedCalls {acts : List (Act Name Payload)} {c : EmitCall Name Payload} :
    c ∈ returnedCalls acts ↔ .returned c ∈ acts := by
  simp only [returnedCalls, List.mem_filterMap]
  constructor
  · intro ⟨a, ha, hc⟩
    cases a <;> simp_all
  · intro h
    exact ⟨_, h, rfl⟩

@[simp] theorem returnedCalls_append (acts acts' : List (Act Name Payload)) :
    returnedCalls (acts ++ acts') = returnedCalls acts ++ returnedCalls acts' := by
  simp [returnedCalls]

theorem kept_iff {acts : List (Act Name Payload)} {t : Nat} {c : EmitCall Name Payload} :
    (c.inside.all fun x => x < t || committedIn acts x) = true ↔
      ∀ x ∈ c.inside, t ≤ x → .committed x ∈ acts := by
  simp only [List.all_eq_true, Bool.or_eq_true, decide_eq_true_eq, committedIn_iff]
  refine forall₂_congr fun x _ => ?_
  rw [← not_le, or_iff_not_imp_left, not_not]

theorem mem_keptCalls {acts : List (Act Name Payload)} {t : Nat} {c : EmitCall Name Payload} :
    c ∈ keptCalls t acts ↔
      .returned c ∈ acts ∧ ∀ x ∈ c.inside, t ≤ x → .committed x ∈ acts := by
  rw [keptCalls, List.mem_filter, mem_returnedCalls, kept_iff]

@[simp] theorem deliveries_append (s : Subscriber Name) (acts acts' : List (Act Name Payload)) :
    deliveries s (acts ++ acts') = deliveries s acts ++ deliveries s acts' := by
  simp [deliveries]

/-! ## Segments -/

/-- A bypass subscriber got this call exactly once, after the call began and before it returned. -/
def ReceivedAtCall (id : Nat) (c : EmitCall Name Payload) (acts : List (Act Name Payload)) :
    Prop :=
  ∃ before during during' after,
    acts = before ++ .called c :: during ++ .received id c :: during' ++ .returned c :: after ∧
    .received id c ∉ before ++ during ++ during' ++ after

/-- A stretch of the trace inside the transactions `base`, with the emit calls from number `n` to
    `n'` and the transactions from number `t` to `t'`. `cur` is a call that is being delivered. -/
structure Segment (subs : Subscriptions Name) (cur : Option (EmitCall Name Payload))
    (base : List Nat) (n n' t t' : Nat) (acts : List (Act Name Payload)) : Prop where
  calls_le : n ≤ n'
  transactions_le : t ≤ t'
  called : ∀ c, .called c ∈ acts → n ≤ c.id ∧ c.id < n'
  received : ∀ i c, .received i c ∈ acts → cur = some c ∨ (n ≤ c.id ∧ c.id < n')
  returns : ∀ c, .called c ∈ acts ↔ .returned c ∈ acts
  distinct : ((returnedCalls acts).map EmitCall.id).Nodup
  inside : ∀ c, .returned c ∈ acts →
    base ⊆ c.inside ∧ ∀ x ∈ c.inside, x ∈ base ∨ (t ≤ x ∧ x < t')
  settled : ∀ x, (.committed x ∈ acts ∨ .dropped x ∈ acts) ↔ t ≤ x ∧ x < t'
  once : ∀ x, .committed x ∈ acts → .dropped x ∉ acts
  afterCommit : ∀ s ∈ subs.list, s.ignoreTransaction = false → ∀ before c after,
    acts = before ++ .received s.id c :: after → ∀ x ∈ c.inside, .committed x ∈ before
  bypass : ∀ s ∈ subs.list, s.ignoreTransaction = true → ∀ c, .called c ∈ acts →
    c.event = s.event → ReceivedAtCall s.id c acts

theorem ReceivedAtCall.extend {id : Nat} {c : EmitCall Name Payload}
    {acts l r : List (Act Name Payload)} (h : ReceivedAtCall id c acts)
    (hl : .received id c ∉ l) (hr : .received id c ∉ r) :
    ReceivedAtCall id c (l ++ acts ++ r) := by
  obtain ⟨before, during, during', after, rfl, hno⟩ := h
  refine ⟨l ++ before, during, during', after ++ r, by simp, ?_⟩
  simp only [List.mem_append, not_or] at hno ⊢
  exact ⟨⟨⟨⟨hl, hno.1.1.1⟩, hno.1.1.2⟩, hno.1.2⟩, hno.2, hr⟩

namespace Segment

variable {subs : Subscriptions Name} {cur : Option (EmitCall Name Payload)} {base : List Nat}
  {n n' n'' t t' t'' : Nat} {acts acts' : List (Act Name Payload)}

theorem nil : Segment subs cur base n n t t [] where
  calls_le := le_refl n
  transactions_le := le_refl t
  called := by simp
  received := by simp
  returns := by simp
  distinct := by simp [returnedCalls]
  inside := by simp
  settled := by simp
  once := by simp
  afterCommit := by simp
  bypass := by simp

theorem returned (h : Segment subs cur base n n' t t' acts) {c : EmitCall Name Payload}
    (hc : .returned c ∈ acts) : n ≤ c.id ∧ c.id < n' :=
  h.called c ((h.returns c).2 hc)

/-- Nothing of a stretch depends on the call that is being delivered around it. -/
theorem deliver (h : Segment subs none base n n' t t' acts) :
    Segment subs cur base n n' t t' acts :=
  { h with received := fun i c hc => .inr ((h.received i c hc).resolve_left (by simp)) }

theorem append (h : Segment subs cur base n n' t t' acts)
    (h' : Segment subs cur base n' n'' t' t'' acts') (hcur : ∀ c, cur = some c → c.id < n) :
    Segment subs cur base n n'' t t'' (acts ++ acts') := by
  have hn := h.calls_le
  have hn' := h'.calls_le
  have ht := h.transactions_le
  have ht' := h'.transactions_le
  -- a call of one part is received in that part only
  have hleft : ∀ i c, .called c ∈ acts → .received i c ∉ acts' := by
    intro i c hc hr
    have := h.called c hc
    rcases h'.received i c hr with hr | hr
    · have := hcur c hr
      omega
    · omega
  have hright : ∀ i c, .called c ∈ acts' → .received i c ∉ acts := by
    intro i c hc hr
    have := h'.called c hc
    rcases h.received i c hr with hr | hr
    · have := hcur c hr
      omega
    · omega
  constructor
  case calls_le => omega
  case transactions_le => omega
  case called =>
    intro c hc
    rcases List.mem_append.1 hc with hc | hc
    · have := h.called c hc
      omega
    · have := h'.called c hc
      omega
  case received =>
    intro i c hc
    rcases List.mem_append.1 hc with hc | hc
    · rcases h.received i c hc with hc | hc
      · exact .inl hc
      · exact .inr (by omega)
    · rcases h'.received i c hc with hc | hc
      · exact .inl hc
      · exact .inr (by omega)
  case returns =>
    intro c
    rw [List.mem_append, List.mem_append, h.returns, h'.returns]
  case distinct =>
    rw [returnedCalls_append, List.map_append, List.nodup_append]
    refine ⟨h.distinct, h'.distinct, fun i hi j hj => ?_⟩
    obtain ⟨c, hc, rfl⟩ := List.mem_map.1 hi
    obtain ⟨c', hc', rfl⟩ := List.mem_map.1 hj
    have := h.returned (mem_returnedCalls.1 hc)
    have := h'.returned (mem_returnedCalls.1 hc')
    omega
  case inside =>
    intro c hc
    rcases List.mem_append.1 hc with hc | hc
    · obtain ⟨hb, hx⟩ := h.inside c hc
      refine ⟨hb, fun x hm => (hx x hm).imp_right fun hx => ?_⟩
      omega
    · obtain ⟨hb, hx⟩ := h'.inside c hc
      refine ⟨hb, fun x hm => (hx x hm).imp_right fun hx => ?_⟩
      omega
  case settled =>
    intro x
    -- every transaction is settled in the part that it belongs to
    rw [List.mem_append, List.mem_append, or_or_or_comm, h.settled, h'.settled]
    omega
  case once =>
    intro x hc hd
    have hx := h.settled x
    have hx' := h'.settled x
    rcases List.mem_append.1 hc with hc | hc <;> rcases List.mem_append.1 hd with hd | hd
    · exact h.once x hc hd
    · have := hx.1 (.inl hc)
      have := hx'.1 (.inr hd)
      omega
    · have := hx'.1 (.inl hc)
      have := hx.1 (.inr hd)
      omega
    · exact h'.once x hc hd
  case afterCommit =>
    intro s hs hord before c after heq x hx
    rcases List.append_eq_append_iff.1 heq with ⟨mid, hb, ha⟩ | ⟨mid, ha, hb⟩
    · rw [hb]
      exact List.mem_append_right _ (h'.afterCommit s hs hord mid c after ha x hx)
    · cases mid with
      | nil =>
        have := h'.afterCommit s hs hord [] c after (by simpa using hb.symm) x hx
        simp at this
      | cons a mid =>
        obtain ⟨rfl, -⟩ := List.cons.inj hb
        exact h.afterCommit s hs hord before c mid ha x hx
  case bypass =>
    intro s hs hby c hc hev
    rcases List.mem_append.1 hc with hc' | hc'
    · simpa using (h.bypass s hs hby c hc' hev).extend (l := []) (by simp) (hleft s.id c hc')
    · simpa using (h'.bypass s hs hby c hc' hev).extend (r := []) (hright s.id c hc') (by simp)

/-- Which calls of two stretches are kept is decided in each of them. -/
theorem keptCalls_append (h : Segment subs cur base n n' t t' acts)
    (h' : Segment subs cur base n' n'' t' t'' acts') (hbase : ∀ x ∈ base, x < t) :
    keptCalls t (acts ++ acts') = keptCalls t acts ++ keptCalls t' acts' := by
  have hmem : ∀ x, .committed x ∈ acts → x < t' := fun x hx => ((h.settled x).1 (.inl hx)).2
  have hmem' : ∀ x, .committed x ∈ acts' → t' ≤ x := fun x hx => ((h'.settled x).1 (.inl hx)).1
  rw [keptCalls, returnedCalls_append, List.filter_append, keptCalls, keptCalls]
  congr 1
  · refine List.filter_congr fun c hc => ?_
    rw [Bool.eq_iff_iff, kept_iff, kept_iff]
    refine forall₂_congr fun x hx => ?_
    have hin := (h.inside c (mem_returnedCalls.1 hc)).2 x hx
    have hb := hbase x
    have := hmem' x
    have := h.transactions_le
    grind
  · refine List.filter_congr fun c hc => ?_
    rw [Bool.eq_iff_iff, kept_iff, kept_iff]
    refine forall₂_congr fun x hx => ?_
    have hin := (h'.inside c (mem_returnedCalls.1 hc)).2 x hx
    have hb := hbase x
    have := hmem x
    have := h.transactions_le
    grind

/-- A call around what its listeners do. -/
theorem call {c : EmitCall Name Payload} (hid : c.id = n) (hin : c.inside = base)
    (h : Segment subs (some c) base (n + 1) n' t t' acts)
    (hgot : ∀ s ∈ subs.list, s.ignoreTransaction = true → c.event = s.event →
      ∃ during during', acts = during ++ .received s.id c :: during' ∧
        .received s.id c ∉ during ++ during') :
    Segment subs cur base n n' t t' (.called c :: (acts ++ [.returned c])) where
  calls_le := by
    have := h.calls_le
    omega
  transactions_le := h.transactions_le
  called c' hc := by
    have hn := h.calls_le
    simp only [List.mem_cons, List.mem_append, List.not_mem_nil, or_false, reduceCtorEq,
      Act.called.injEq] at hc
    rcases hc with rfl | hc
    · omega
    · have := h.called c' hc
      omega
  received i c' hc := by
    have hn := h.calls_le
    simp only [List.mem_cons, List.mem_append, List.not_mem_nil, or_false, reduceCtorEq,
      false_or] at hc
    rcases h.received i c' hc with hc | hc
    · cases hc
      exact .inr (by omega)
    · exact .inr (by omega)
  returns c' := by simp [h.returns c', or_comm]
  distinct := by
    have hnew : c.id ∉ (returnedCalls acts).map EmitCall.id := by
      intro hm
      obtain ⟨c', hc', hid'⟩ := List.mem_map.1 hm
      have := h.returned (mem_returnedCalls.1 hc')
      omega
    have hret : returnedCalls (.called c :: (acts ++ [.returned c])) = returnedCalls acts ++ [c] := by
      simp [returnedCalls]
    rw [hret, List.map_append, List.map_singleton, List.nodup_append]
    refine ⟨h.distinct, List.nodup_singleton _, fun i hi j hj => ?_⟩
    rw [List.mem_singleton] at hj
    intro heq
    exact hnew (by rwa [← hj, ← heq])
  inside c' hc := by
    simp only [List.mem_cons, List.mem_append, List.not_mem_nil, or_false, reduceCtorEq,
      Act.returned.injEq, false_or] at hc
    rcases hc with hc | rfl
    · exact h.inside c' hc
    · rw [hin]
      exact ⟨List.Subset.refl _, fun x hx => .inl hx⟩
  settled x := by simpa using h.settled x
  once x hc := by simpa using h.once x (by simpa using hc)
  afterCommit s hs hord before c' after heq x hx := by
    cases before with
    | nil => simp at heq
    | cons a before =>
      obtain ⟨rfl, heq'⟩ := List.cons.inj heq
      rcases List.append_eq_append_iff.1 heq' with ⟨mid, -, ha⟩ | ⟨mid, ha, hb⟩
      · rcases mid with _ | ⟨b, _ | _⟩ <;> simp at ha
      · cases mid with
        | nil => simp at hb
        | cons b mid =>
          obtain ⟨rfl, -⟩ := List.cons.inj hb
          exact List.mem_cons_of_mem _ (h.afterCommit s hs hord before c' mid ha x hx)
  bypass s hs hby c' hc hev := by
    simp only [List.mem_cons, List.mem_append, List.not_mem_nil, or_false, reduceCtorEq,
      Act.called.injEq] at hc
    rcases hc with rfl | hc
    · obtain ⟨during, during', rfl, hno⟩ := hgot s hs hby hev
      exact ⟨[], during, during', [], by simp, by simpa using hno⟩
    · exact (h.bypass s hs hby c' hc hev).extend (l := [.called c]) (r := [.returned c])
        (by simp) (by simp)

/-- A listener gets a call, an ordinary one only outside every transaction. -/
theorem delivered {c : EmitCall Name Payload} {i : Nat}
    (hto : ∀ s ∈ subs.list, s.ignoreTransaction = false → s.id = i → c.inside = []) :
    Segment subs (some c) base n n t t [.received i c] where
  calls_le := le_refl n
  transactions_le := le_refl t
  called := by simp
  received i' c' hc := by
    simp only [List.mem_singleton, Act.received.injEq] at hc
    exact .inl (by rw [hc.2])
  returns := by simp
  distinct := by simp [returnedCalls]
  inside := by simp
  settled x := by
    simp only [List.mem_singleton, reduceCtorEq, or_self, false_iff]
    omega
  once := by simp
  afterCommit s hs hord before c' after heq x hx := by
    cases before with
    | nil =>
      simp only [List.nil_append, List.cons.injEq, Act.received.injEq] at heq
      rw [← heq.1.2, hto s hs hord heq.1.1.symm] at hx
      simp at hx
    | cons a before => simp at heq
  bypass := by simp

/-- A transaction around what runs inside it. -/
theorem transaction {a : Act Name Payload} (cur : Option (EmitCall Name Payload))
    (ha : a = .committed t ∨ a = .dropped t)
    (h : Segment subs none (t :: base) n n' (t + 1) t' acts) :
    Segment subs cur base n n' t t' (.opened t :: (acts ++ [a])) where
  calls_le := h.calls_le
  transactions_le := by
    have := h.transactions_le
    omega
  called c hc := h.called c (by rcases ha with rfl | rfl <;> simpa using hc)
  received i c hc := h.deliver.received i c (by rcases ha with rfl | rfl <;> simpa using hc)
  returns c := by rcases ha with rfl | rfl <;> simpa using h.returns c
  distinct := by rcases ha with rfl | rfl <;> simpa [returnedCalls] using h.distinct
  inside c hc := by
    obtain ⟨hb, hx⟩ := h.inside c (by rcases ha with rfl | rfl <;> simpa using hc)
    have ht := h.transactions_le
    refine ⟨fun x hm => hb (List.mem_cons_of_mem _ hm), fun x hm => ?_⟩
    rcases hx x hm with hx | hx
    · rcases List.mem_cons.1 hx with rfl | hx
      · exact .inr (by omega)
      · exact .inl hx
    · exact .inr (by omega)
  settled x := by
    have ht := h.transactions_le
    have hx := h.settled x
    have hset : (.committed x ∈ .opened t :: (acts ++ [a]) ∨
        .dropped x ∈ .opened t :: (acts ++ [a])) ↔
        (.committed x ∈ acts ∨ .dropped x ∈ acts) ∨ x = t := by
      rcases ha with rfl | rfl <;> simp <;> tauto
    rw [hset, hx]
    omega
  once x hc hd := by
    have hx := h.settled x
    rcases ha with rfl | rfl
    · simp only [List.mem_cons, List.mem_append, List.not_mem_nil, or_false, reduceCtorEq,
        Act.committed.injEq, false_or] at hc hd
      rcases hc with hc | rfl
      · exact h.once x hc hd
      · have := hx.1 (.inr hd)
        omega
    · simp only [List.mem_cons, List.mem_append, List.not_mem_nil, or_false, reduceCtorEq,
        Act.dropped.injEq, false_or] at hc hd
      rcases hd with hd | rfl
      · exact h.once x hc hd
      · have := hx.1 (.inl hc)
        omega
  afterCommit s hs hord before c after heq x hx := by
    cases before with
    | nil => simp at heq
    | cons b before =>
      obtain ⟨rfl, heq'⟩ := List.cons.inj heq
      rcases List.append_eq_append_iff.1 heq' with ⟨mid, -, hmid⟩ | ⟨mid, hacts, hmid⟩
      · rcases ha with rfl | rfl <;> rcases mid with _ | ⟨b, _ | _⟩ <;> simp at hmid
      · cases mid with
        | nil => rcases ha with rfl | rfl <;> simp at hmid
        | cons b mid =>
          obtain ⟨rfl, -⟩ := List.cons.inj hmid
          exact List.mem_cons_of_mem _ (h.afterCommit s hs hord before c mid hacts x hx)
  bypass s hs hby c hc hev := by
    have hc' : .called c ∈ acts := by rcases ha with rfl | rfl <;> simpa using hc
    exact (h.bypass s hs hby c hc' hev).extend (l := [.opened t]) (r := [a]) (by simp)
      (by rcases ha with rfl | rfl <;> simp)

/-- What a committed transaction keeps is what its callback kept. -/
theorem keptCalls_commit (h : Segment subs none (t :: base) n n' (t + 1) t' acts) :
    keptCalls t (.opened t :: (acts ++ [.committed t])) = keptCalls (t + 1) acts := by
  have hret : returnedCalls (.opened t :: (acts ++ [.committed t])) = returnedCalls acts := by
    simp [returnedCalls]
  rw [keptCalls, keptCalls, hret]
  refine List.filter_congr fun c hc => ?_
  rw [Bool.eq_iff_iff, kept_iff, kept_iff]
  simp only [List.mem_append, List.mem_cons, List.not_mem_nil, or_false, reduceCtorEq, false_or,
    Act.committed.injEq]
  refine forall₂_congr fun x _ => ?_
  have hx := fun hc => ((h.settled x).1 (.inl hc)).1
  grind

/-- A transaction that threw keeps nothing. -/
theorem keptCalls_drop (h : Segment subs none (t :: base) n n' (t + 1) t' acts) :
    keptCalls t (.opened t :: (acts ++ [.dropped t])) = [] := by
  rw [List.eq_nil_iff_forall_not_mem]
  intro c hc
  obtain ⟨hret, hcommitted⟩ := mem_keptCalls.1 hc
  have ht : .committed t ∈ acts := by
    simpa using hcommitted t ((h.inside c (by simpa using hret)).1 (by simp)) (le_refl t)
  have := (h.settled t).1 (.inl ht)
  omega

/-- Outside every transaction, no call is kept for an enclosing one. -/
theorem keptCalls_zero (h : Segment subs cur [] n n' t t' acts) :
    keptCalls 0 acts = keptCalls t acts := by
  refine List.filter_congr fun c hc => ?_
  rw [Bool.eq_iff_iff, kept_iff, kept_iff]
  refine forall₂_congr fun x hx => ?_
  have := ((h.inside c (mem_returnedCalls.1 hc)).2 x hx).resolve_left (by simp)
  simp [this.1]

end Segment

/-! ## The flush -/

theorem Subscriptions.eq_of_id (subs : Subscriptions Name) {s s' : Subscriber Name}
    (hs : s ∈ subs.list) (hs' : s' ∈ subs.list) (h : s.id = s'.id) : s = s' :=
  List.inj_on_of_nodup_map subs.distinct hs hs' h

/-- One entry goes once to each listener it is sent to. -/
theorem deliveries_received {c : EmitCall Name Payload} (hin : c.inside ≠ [])
    {listeners : List (Subscriber Name)} (hnodup : (listeners.map Subscriber.id).Nodup)
    (s : Subscriber Name) :
    deliveries s (listeners.map fun s' => .received s'.id c) =
      if s.id ∈ listeners.map Subscriber.id then [c] else [] := by
  induction listeners with
  | nil => rfl
  | cons s' listeners ih =>
    rw [List.map_cons, List.nodup_cons] at hnodup
    have hrest := ih hnodup.2
    simp only [deliveries, List.map_cons, List.filterMap_cons, List.mem_cons] at hrest ⊢
    by_cases hid : s'.id = s.id
    · rw [hid] at hnodup
      simp [hid, hin, hrest, hnodup.1]
    · simp [hid, hrest, Ne.symm hid]

/-- Every open transaction has its buffer and a number that was given out. -/
structure Bus.Ok (bus : Bus Name Payload) : Prop where
  fresh : ∀ x ∈ bus.active, x < bus.transactions
  depth : bus.active.length = bus.bufferStack.length

theorem Bus.Ok.nil {bus : Bus Name Payload} (hok : bus.Ok) (h : bus.bufferStack = []) :
    bus.active = [] := by
  have := hok.depth
  rw [h] at this
  exact List.length_eq_zero_iff.1 this

theorem run_callListener (c : EmitCall Name Payload) (s : Subscriber Name)
    (handler : BusProg Name Payload Unit) (bus : Bus Name Payload) :
    (callListener c s handler).run bus =
      (.ok (), (handler.run (bus.record [.received s.id c])).2) := by
  show (Prog.tryCatch handler fun _ => Pure.pure ()).run (bus.record [.received s.id c]) = _
  rw [Prog.run_tryCatch]
  rcases handler.run (bus.record [.received s.id c]) with ⟨_ | _, bus'⟩ <;> rfl

/-- A call is kept after the calls made while it was delivered. -/
theorem keptCalls_call {c : EmitCall Name Payload} {t : Nat} {acts : List (Act Name Payload)}
    (hin : ∀ x ∈ c.inside, x < t) :
    keptCalls t (.called c :: (acts ++ [.returned c])) = keptCalls t acts ++ [c] := by
  have hlast : (c.inside.all fun x => x < t ||
      committedIn (.called c :: (acts ++ [.returned c])) x) = true :=
    kept_iff.2 fun x hx ht => absurd (hin x hx) (not_lt.2 ht)
  have hsame : ∀ x, committedIn (.called c :: (acts ++ [.returned c])) x = committedIn acts x := by
    intro x
    simp [committedIn]
  have hret : returnedCalls (.called c :: (acts ++ [.returned c])) = returnedCalls acts ++ [c] := by
    simp [returnedCalls]
  rw [keptCalls, hret, List.filter_append, List.filter_singleton, hlast]
  simp [hsame, keptCalls]

theorem drop_eq {bus : Bus Name Payload} {t : Nat} {base : List Nat} {popped : List (EmitCall Name Payload)}
    {stack : List (List (EmitCall Name Payload))} (ha : bus.active = t :: base)
    (hb : bus.bufferStack = popped :: stack) :
    drop bus = { bus with
      bufferStack := stack, active := base, trace := bus.trace ++ [.dropped t] } := by
  simp [drop, Bus.pop, Bus.record, ha, hb]

theorem deliveries_settled (s : Subscriber Name) {acts : List (Act Name Payload)} {t : Nat} {a : Act Name Payload}
    (ha : a = .committed t ∨ a = .dropped t) :
    deliveries s (.opened t :: (acts ++ [a])) = deliveries s acts := by
  rcases ha with rfl | rfl <;> simp [deliveries]

section Flush

variable [DecidableEq Name]

theorem mem_flush {subs : Subscriptions Name} {entries : List (EmitCall Name Payload)}
    {a : Act Name Payload} : a ∈ flush subs entries ↔
      ∃ c ∈ entries, ∃ s ∈ subs.list, s.event = c.event ∧ s.ignoreTransaction = false ∧
        a = .received s.id c := by
  simp only [flush, Subscriptions.listeners, List.mem_flatMap, List.mem_map, List.mem_filter,
    decide_eq_true_eq, Bool.not_eq_true', and_assoc, @eq_comm _ _ a]

theorem returnedCalls_flush (subs : Subscriptions Name) (entries : List (EmitCall Name Payload)) :
    returnedCalls (flush subs entries) = [] := by
  rw [List.eq_nil_iff_forall_not_mem]
  intro c hc
  obtain ⟨c', -, s, -, -, -, heq⟩ := mem_flush.1 (mem_returnedCalls.1 hc)
  cases heq

/-- An ordinary subscriber gets every entry for its event once, in the order of the buffer. -/
theorem deliveries_flush {subs : Subscriptions Name} {entries : List (EmitCall Name Payload)}
    (hentries : ∀ c ∈ entries, c.inside ≠ []) {s : Subscriber Name} (hs : s ∈ subs.list)
    (hord : s.ignoreTransaction = false) :
    deliveries s (flush subs entries) = entries.filter fun c => c.event = s.event := by
  induction entries with
  | nil => rfl
  | cons c entries ih =>
    have hnodup : ((((subs.listeners c.event).filter fun s => !s.ignoreTransaction).map
        Subscriber.id)).Nodup :=
      subs.distinct.sublist ((List.filter_sublist.trans List.filter_sublist).map _)
    have hmem : s.id ∈ ((subs.listeners c.event).filter fun s => !s.ignoreTransaction).map
        Subscriber.id ↔ c.event = s.event := by
      simp only [Subscriptions.listeners, List.mem_map, List.mem_filter, decide_eq_true_eq,
        Bool.not_eq_true']
      constructor
      · intro ⟨s', ⟨⟨hs', hev⟩, _⟩, hid⟩
        rw [← subs.eq_of_id hs' hs hid, hev]
      · intro hev
        exact ⟨s, ⟨⟨hs, hev.symm⟩, hord⟩, rfl⟩
    rw [flush, List.flatMap_cons, ← flush, deliveries_append,
      ih fun c hc => hentries c (by simp [hc]), deliveries_received (hentries c (by simp)) hnodup,
      List.filter_cons]
    by_cases hev : c.event = s.event
    · rw [if_pos (hmem.2 hev), if_pos (by simpa using hev), List.singleton_append]
    · rw [if_neg (mt hmem.1 hev), if_neg (by simpa using hev), List.nil_append]

/-- The flush of calls of the stretch whose transactions have all committed. -/
theorem Segment.flushed {subs : Subscriptions Name} {cur : Option (EmitCall Name Payload)}
    {n n' t t' : Nat} {acts : List (Act Name Payload)} {entries : List (EmitCall Name Payload)}
    (h : Segment subs cur [] n n' t t' acts)
    (hentries : ∀ c ∈ entries, .returned c ∈ acts ∧ ∀ x ∈ c.inside, .committed x ∈ acts) :
    Segment subs cur [] n n' t t' (acts ++ flush subs entries) := by
  have honly : ∀ a ∈ flush subs entries, ∃ c ∈ entries, ∃ s ∈ subs.list,
      s.ignoreTransaction = false ∧ a = .received s.id c := by
    intro a ha
    obtain ⟨c, hc, s, hs, -, hord, rfl⟩ := mem_flush.1 ha
    exact ⟨c, hc, s, hs, hord, rfl⟩
  have hmem : ∀ a, (∀ i c, a ≠ .received i c) → (a ∈ acts ++ flush subs entries ↔ a ∈ acts) := by
    intro a ha
    rw [List.mem_append, or_iff_left]
    intro hf
    obtain ⟨c, -, s, -, -, rfl⟩ := honly a hf
    exact ha _ _ rfl
  constructor
  case calls_le => exact h.calls_le
  case transactions_le => exact h.transactions_le
  case called => exact fun c hc => h.called c ((hmem _ (by simp)).1 hc)
  case received =>
    intro i c hc
    rcases List.mem_append.1 hc with hc | hc
    · exact h.received i c hc
    · obtain ⟨c', hc', s, -, -, heq⟩ := honly _ hc
      obtain ⟨-, rfl⟩ := Act.received.inj heq
      exact .inr (h.returned (hentries c hc').1)
  case returns =>
    intro c
    rw [hmem _ (by simp), hmem _ (by simp)]
    exact h.returns c
  case distinct =>
    rw [returnedCalls_append, returnedCalls_flush, List.append_nil]
    exact h.distinct
  case inside => exact fun c hc => h.inside c ((hmem _ (by simp)).1 hc)
  case settled =>
    intro x
    rw [hmem _ (by simp), hmem _ (by simp)]
    exact h.settled x
  case once =>
    intro x
    rw [hmem _ (by simp), hmem _ (by simp)]
    exact h.once x
  case afterCommit =>
    intro s hs hord before c after heq x hx
    rcases List.append_eq_append_iff.1 heq with ⟨mid, rfl, hmid⟩ | ⟨mid, hacts, hmid⟩
    · have hc : .received s.id c ∈ flush subs entries := by rw [hmid]; simp
      obtain ⟨c', hc', s', -, -, heq⟩ := honly _ hc
      obtain ⟨-, rfl⟩ := Act.received.inj heq
      exact List.mem_append_left _ ((hentries c hc').2 x hx)
    · cases mid with
      | nil =>
        have hc : .received s.id c ∈ flush subs entries := by
          rw [← List.nil_append (flush subs entries), ← hmid]
          simp
        obtain ⟨c', hc', s', -, -, heq⟩ := honly _ hc
        obtain ⟨-, rfl⟩ := Act.received.inj heq
        rw [List.append_nil] at hacts
        rw [← hacts]
        exact (hentries c hc').2 x hx
      | cons a mid =>
        obtain ⟨rfl, -⟩ := List.cons.inj hmid
        exact h.afterCommit s hs hord before c mid hacts x hx
  case bypass =>
    intro s hs hby c hc hev
    have hno : .received s.id c ∉ flush subs entries := by
      intro hf
      obtain ⟨c', -, s', hs', hord, heq⟩ := honly _ hf
      obtain ⟨hid, -⟩ := Act.received.inj heq
      rw [subs.eq_of_id hs hs' hid, hord] at hby
      exact Bool.noConfusion hby
    exact (h.bypass s hs hby c ((hmem _ (by simp)).1 hc) hev).extend (l := []) (by simp) hno

theorem keptCalls_flush {subs : Subscriptions Name} {entries : List (EmitCall Name Payload)}
    {t : Nat} {acts : List (Act Name Payload)} :
    keptCalls t (acts ++ flush subs entries) = keptCalls t acts := by
  have hnone : ∀ x, committedIn (acts ++ flush subs entries) x = committedIn acts x := by
    intro x
    rw [Bool.eq_iff_iff, committedIn_iff, committedIn_iff, List.mem_append, or_iff_left]
    intro h
    obtain ⟨c, -, s, -, -, -, heq⟩ := mem_flush.1 h
    cases heq
  simp only [keptCalls, hnone, returnedCalls_append, returnedCalls_flush, List.append_nil]

/-! ## Programs on the bus -/

/-- What became of the buffers. Outside every transaction, what the stretch completed has been
    delivered; inside one, it waits in the innermost buffer. -/
def Buffered (subs : Subscriptions Name) (stack stack' : List (List (EmitCall Name Payload)))
    (t : Nat) (acts : List (Act Name Payload)) : Prop :=
  match stack with
  | [] => stack' = [] ∧ ∀ s ∈ subs.list, s.ignoreTransaction = false →
      deliveries s acts = completedCalls s acts
  | buffer :: rest => stack' = (buffer ++ keptCalls t acts) :: rest ∧
      ∀ s ∈ subs.list, s.ignoreTransaction = false → deliveries s acts = []

/-- From one state of the bus to another by a stretch of the trace. -/
structure Ran (subs : Subscriptions Name) (cur : Option (EmitCall Name Payload))
    (bus bus' : Bus Name Payload) (acts : List (Act Name Payload)) : Prop where
  trace : bus'.trace = bus.trace ++ acts
  active : bus'.active = bus.active
  segment : Segment subs cur bus.active bus.calls bus'.calls bus.transactions bus'.transactions acts
  buffered : Buffered subs bus.bufferStack bus'.bufferStack bus.transactions acts

/-- Whatever the state, the program appends a stretch. -/
def Runs (subs : Subscriptions Name) (p : BusProg Name Payload Unit) : Prop :=
  ∀ bus, bus.Ok → ∃ acts, Ran subs none bus (p.run bus).2 acts

section Rules

variable {subs : Subscriptions Name} {cur : Option (EmitCall Name Payload)}
  {bus bus' bus'' : Bus Name Payload} {acts acts' : List (Act Name Payload)}

theorem Ran.refl (hbus : bus.bufferStack = bus'.bufferStack) (ht : bus'.trace = bus.trace)
    (ha : bus'.active = bus.active) (hc : bus'.calls = bus.calls)
    (hx : bus'.transactions = bus.transactions) : Ran subs cur bus bus' [] where
  trace := by rw [ht, List.append_nil]
  active := ha
  segment := by
    rw [hc, hx]
    exact Segment.nil
  buffered := by
    rw [← hbus]
    unfold Buffered
    split
    · exact ⟨by assumption, fun s _ _ => rfl⟩
    · exact ⟨by simpa [keptCalls, returnedCalls], fun s _ _ => rfl⟩

theorem Ran.ok (h : Ran subs cur bus bus' acts) (hok : bus.Ok) : bus'.Ok where
  fresh x hx := by
    rw [h.active] at hx
    exact lt_of_lt_of_le (hok.fresh x hx) h.segment.transactions_le
  depth := by
    have hb := h.buffered
    have hd := hok.depth
    rw [h.active, hd]
    unfold Buffered at hb
    split at hb <;> simp_all

theorem Ran.trans (h : Ran subs cur bus bus' acts) (h' : Ran subs cur bus' bus'' acts')
    (hok : bus.Ok) (hcur : ∀ c, cur = some c → c.id < bus.calls) :
    Ran subs cur bus bus'' (acts ++ acts') := by
  have hseg' := h'.segment
  rw [h.active] at hseg'
  have hseg := h.segment.append hseg' hcur
  have hkept := h.segment.keptCalls_append hseg' hok.fresh
  refine ⟨by rw [h'.trace, h.trace, List.append_assoc], h'.active.trans h.active, hseg, ?_⟩
  have hb := h.buffered
  have hb' := h'.buffered
  cases hstack : bus.bufferStack with
  | nil =>
    rw [hstack] at hb
    obtain ⟨hstack', hdel⟩ := hb
    rw [hstack'] at hb'
    refine ⟨hb'.1, fun s hs hord => ?_⟩
    rw [hok.nil hstack] at hseg hseg'
    have hseg₁ := h.segment
    rw [hok.nil hstack] at hseg₁
    rw [deliveries_append, hdel s hs hord, hb'.2 s hs hord, completedCalls, completedCalls,
      completedCalls, hseg.keptCalls_zero, hkept, hseg₁.keptCalls_zero, hseg'.keptCalls_zero,
      List.filter_append]
  | cons buffer rest =>
    rw [hstack] at hb
    obtain ⟨hstack', hdel⟩ := hb
    rw [hstack'] at hb'
    refine ⟨?_, fun s hs hord => ?_⟩
    · rw [hb'.1, hkept, List.append_assoc]
    · rw [deliveries_append, hdel s hs hord, hb'.2 s hs hord, List.append_nil]

theorem Runs.pure (a : Unit) : Runs subs (pure a : BusProg Name Payload Unit) :=
  fun _ _ => ⟨[], Ran.refl rfl rfl rfl rfl rfl⟩

theorem Runs.throw : Runs subs (Prog.throw () : BusProg Name Payload Unit) :=
  fun _ _ => ⟨[], Ran.refl rfl rfl rfl rfl rfl⟩

theorem Runs.bind {p : BusProg Name Payload Unit} {f : Unit → BusProg Name Payload Unit}
    (hp : Runs subs p) (hf : ∀ a, Runs subs (f a)) : Runs subs (p >>= f) := by
  intro bus hok
  obtain ⟨acts, h⟩ := hp bus hok
  rw [Prog.run_bind]
  split
  · rename_i a bus' hr
    rw [hr] at h
    obtain ⟨acts', h'⟩ := hf a bus' (h.ok hok)
    exact ⟨acts ++ acts', h.trans h' hok (by simp)⟩
  · rename_i e bus' hr
    rw [hr] at h
    exact ⟨acts, h⟩

theorem Runs.tryCatch {p : BusProg Name Payload Unit} {f : Unit → BusProg Name Payload Unit}
    (hp : Runs subs p) (hf : ∀ e, Runs subs (f e)) : Runs subs (Prog.tryCatch p f) := by
  intro bus hok
  obtain ⟨acts, h⟩ := hp bus hok
  rw [Prog.run_tryCatch]
  split
  · rename_i a bus' hr
    rw [hr] at h
    exact ⟨acts, h⟩
  · rename_i e bus' hr
    rw [hr] at h
    obtain ⟨acts', h'⟩ := hf e bus' (h.ok hok)
    exact ⟨acts ++ acts', h.trans h' hok (by simp)⟩

/-- A listener gets a call: a bypass listener, or any listener of a call outside every
    transaction. -/
theorem Ran.received {c : EmitCall Name Payload} {s : Subscriber Name} (hs : s ∈ subs.list)
    (hto : s.ignoreTransaction = true ∨ c.inside = []) :
    Ran subs (some c) bus (bus.record [.received s.id c]) [.received s.id c] := by
  have hto' : ∀ s' ∈ subs.list, s'.ignoreTransaction = false → s'.id = s.id → c.inside = [] := by
    intro s' hs' hord hid
    rw [subs.eq_of_id hs' hs hid] at hord
    exact hto.resolve_left (by simp [hord])
  have hdel : ∀ s' ∈ subs.list, s'.ignoreTransaction = false →
      deliveries s' [.received s.id c] = [] := by
    intro s' hs' hord
    by_cases hid : s'.id = s.id
    · simp [deliveries, hto' s' hs' hord hid]
    · simp [deliveries, Ne.symm hid]
  refine ⟨rfl, rfl, ?_, ?_⟩
  · exact Segment.delivered hto'
  · show Buffered subs bus.bufferStack bus.bufferStack bus.transactions _
    unfold Buffered
    split
    · exact ⟨by assumption, fun s' hs' hord => by rw [hdel s' hs' hord]; rfl⟩
    · exact ⟨by simpa [keptCalls, returnedCalls], hdel⟩

/-- The loop over the listeners of a call: each of them gets it once. -/
theorem run_listeners {c : EmitCall Name Payload} {handler : Subscriber Name →
    BusProg Name Payload Unit} (hhandler : ∀ s, Runs subs (handler s))
    (listeners : List (Subscriber Name)) (hmem : ∀ s ∈ listeners, s ∈ subs.list ∧
      (s.ignoreTransaction = true ∨ c.inside = []))
    (hnodup : (listeners.map Subscriber.id).Nodup) (hok : bus.Ok) (hid : c.id < bus.calls) :
    ∃ acts bus', (Prog.forEach listeners fun s => callListener c s (handler s)).run bus =
        (.ok (), bus') ∧ Ran subs (some c) bus bus' acts ∧
      (∀ i, .received i c ∈ acts → i ∈ listeners.map Subscriber.id) ∧
      ∀ s ∈ listeners, ∃ during during', acts = during ++ .received s.id c :: during' ∧
        .received s.id c ∉ during ++ during' := by
  induction listeners generalizing bus with
  | nil => exact ⟨[], bus, rfl, Ran.refl rfl rfl rfl rfl rfl, by simp, by simp⟩
  | cons s listeners ih =>
    rw [List.map_cons, List.nodup_cons] at hnodup
    obtain ⟨hs, hto⟩ := hmem s (by simp)
    -- the listener itself, then what it does
    have hgot : Ran subs (some c) bus (bus.record [.received s.id c]) [.received s.id c] :=
      Ran.received hs hto
    have hok₁ := hgot.ok hok
    obtain ⟨acts, hacts⟩ := hhandler s _ hok₁
    have hok₂ := hacts.ok hok₁
    have hid₂ : c.id < ((handler s).run (bus.record [.received s.id c])).2.calls :=
      lt_of_lt_of_le hid hacts.segment.calls_le
    have hnot : ∀ i, .received i c ∉ acts := by
      intro i hi
      have := (hacts.segment.received i c hi).resolve_left (by simp)
      have hcalls : bus.calls ≤ c.id := this.1
      omega
    -- the rest of the listeners
    obtain ⟨acts', bus', hrun, hran, honly, hrest⟩ :=
      ih (fun s' hs' => hmem s' (by simp [hs'])) hnodup.2 hok₂ hid₂
    have hcur : ∀ c', some c = some c' → c'.id < bus.calls := by simpa using hid
    have hacts' : Ran subs (some c) (bus.record [.received s.id c])
        ((handler s).run (bus.record [.received s.id c])).2 acts :=
      { hacts with segment := hacts.segment.deliver }
    refine ⟨.received s.id c :: (acts ++ acts'), bus', ?_,
      (hgot.trans (hacts'.trans hran hok₁ hcur) hok hcur), ?_, ?_⟩
    · show ((callListener c s (handler s)) >>= fun _ => _).run bus = _
      rw [Prog.run_bind_ok (run_callListener c s (handler s) bus)]
      exact hrun
    · intro i hi
      simp only [List.mem_cons, List.mem_append, Act.received.injEq, and_true] at hi
      rcases hi with rfl | hi | hi
      · simp
      · exact absurd hi (hnot i)
      · exact List.mem_cons_of_mem _ (honly i hi)
    · intro s' hs'
      rcases List.mem_cons.1 hs' with rfl | hs'
      · refine ⟨[], acts ++ acts', rfl, ?_⟩
        simp only [List.nil_append, List.mem_append, not_or]
        exact ⟨hnot s'.id, fun h => hnodup.1 (honly s'.id h)⟩
      · obtain ⟨during, during', rfl, hno⟩ := hrest s' hs'
        refine ⟨.received s.id c :: (acts ++ during), during', by simp, ?_⟩
        have hne : s'.id ≠ s.id := fun h => hnodup.1 (h ▸ List.mem_map_of_mem hs')
        simp only [List.mem_append, not_or] at hno
        simp only [List.cons_append, List.mem_cons, List.mem_append, Act.received.injEq, and_true,
          not_or]
        exact ⟨hne, ⟨hnot s'.id, hno.1⟩, hno.2⟩

/-- `emit` never throws: it begins the call, goes through the listeners, and returns. -/
theorem Runs.emit {event : Name} {payload : Payload} {reaction : Nat → BusProg Name Payload Unit}
    (hreaction : ∀ i, Runs subs (reaction i)) : Runs subs (emit subs event payload reaction) := by
  intro bus hok
  let c := bus.nextCall event payload
  have hbegin : (bus.beginCall c).Ok := ⟨hok.fresh, hok.depth⟩
  have hid : c.id < (bus.beginCall c).calls := Nat.lt_succ_self bus.calls
  have hlisteners : ((subs.listeners event).map Subscriber.id).Nodup :=
    subs.distinct.sublist (List.filter_sublist.map _)
  cases hstack : bus.bufferStack with
  | nil =>
    -- `this.emitter.emit`: every listener, at once
    obtain ⟨acts, bus', hrun, hran, -, hgot⟩ := run_listeners (c := c)
      (fun s => show Runs subs (if s.ignoreTransaction then reaction s.id else Pure.pure ()) by
        split
        · exact hreaction s.id
        · exact Runs.pure ())
      (subs.listeners event) (fun s hs => ⟨(List.mem_filter.1 hs).1, .inr (hok.nil hstack)⟩)
      hlisteners hbegin hid
    have hcall : (EventBus.emit subs event payload reaction).run bus =
        (.ok (), bus'.record [.returned c]) := by
      rw [EventBus.emit, Prog.run_withState, Prog.run_bind_ok (Prog.run_modify _ _), hstack,
        List.isEmpty_nil, if_pos rfl, Prog.run_bind_ok hrun]
      rfl
    rw [hcall]
    obtain ⟨hbuf, hdel⟩ : Buffered subs [] bus'.bufferStack bus.transactions acts :=
      hstack ▸ hran.buffered
    refine ⟨.called c :: (acts ++ [.returned c]), by simp [Bus.record, hran.trace, Bus.beginCall],
      hran.active, Segment.call rfl rfl hran.segment fun s hs _ hev =>
        hgot s (List.mem_filter.2 ⟨hs, decide_eq_true hev.symm⟩), ?_⟩
    rw [hstack]
    refine ⟨hbuf, fun s hs hord => ?_⟩
    have hin : c.inside = [] := hok.nil hstack
    have h := hdel s hs hord
    rw [completedCalls, keptCalls_call (by simp [hin]), List.filter_append, ← completedCalls, ← h]
    simp [deliveries, hin]
  | cons buffer rest =>
    -- the bypass listeners, then the active buffer
    obtain ⟨acts, bus', hrun, hran, -, hgot⟩ := run_listeners (c := c)
      (fun s => hreaction s.id) ((subs.listeners event).filter fun s => s.ignoreTransaction)
      (fun s hs => by
        obtain ⟨hs, hby⟩ := List.mem_filter.1 hs
        exact ⟨(List.mem_filter.1 hs).1, .inl (by simpa using hby)⟩)
      (hlisteners.sublist (List.filter_sublist.map _)) hbegin hid
    obtain ⟨hbuf, hdel⟩ : Buffered subs (buffer :: rest) bus'.bufferStack bus.transactions acts :=
      hstack ▸ hran.buffered
    have hcall : (EventBus.emit subs event payload reaction).run bus =
        (.ok (), { bus' with bufferStack := (buffer ++ keptCalls bus.transactions acts ++ [c]) ::
          rest }.record [.returned c]) := by
      rw [EventBus.emit, Prog.run_withState, Prog.run_bind_ok (Prog.run_modify _ _), hstack,
        List.isEmpty_cons, if_neg (by simp), Prog.bind_assoc, Prog.run_bind_ok hrun, pushActive,
        Prog.run_bind, Prog.run_withState, hbuf]
      rfl
    rw [hcall]
    refine ⟨.called c :: (acts ++ [.returned c]), by simp [Bus.record, hran.trace, Bus.beginCall],
      hran.active, Segment.call rfl rfl hran.segment fun s hs hby hev =>
        hgot s (List.mem_filter.2 ⟨List.mem_filter.2 ⟨hs, decide_eq_true hev.symm⟩, hby⟩), ?_⟩
    rw [hstack]
    refine ⟨?_, fun s hs hord => ?_⟩
    · rw [keptCalls_call hok.fresh, ← List.append_assoc]
      rfl
    · have h := hdel s hs hord
      simpa [deliveries] using h

theorem commit_outermost {t : Nat} {base : List Nat} {popped : List (EmitCall Name Payload)}
    (ha : bus.active = t :: base) (hb : bus.bufferStack = [popped]) :
    commit subs bus = { bus with
      bufferStack := [], active := base
      trace := bus.trace ++ [.committed t] ++ flush subs popped } := by
  simp [commit, Bus.pop, Bus.record, ha, hb]

theorem commit_nested {t : Nat} {base : List Nat} {popped parent : List (EmitCall Name Payload)}
    {rest : List (List (EmitCall Name Payload))} (ha : bus.active = t :: base)
    (hb : bus.bufferStack = popped :: parent :: rest) :
    commit subs bus = { bus with
      bufferStack := (parent ++ popped) :: rest, active := base
      trace := bus.trace ++ [.committed t] } := by
  simp [commit, Bus.pop, Bus.record, ha, hb]

/-- `runInTransaction` commits what its callback buffered, or drops it. -/
theorem Runs.runInTransaction {fn : BusProg Name Payload Unit} (hfn : Runs subs fn) :
    Runs subs (runInTransaction subs fn) := by
  intro bus hok
  have hbegin : bus.begin.Ok := by
    refine ⟨fun x hx => ?_, congrArg (· + 1) hok.depth⟩
    rcases List.mem_cons.1 hx with rfl | hx
    · exact Nat.lt_succ_self _
    · exact Nat.lt_succ_of_lt (hok.fresh x hx)
  obtain ⟨acts, hran⟩ := hfn bus.begin hbegin
  rcases hr : fn.run bus.begin with ⟨_ | _, bus'⟩ <;> rw [hr] at hran
  all_goals
    have hseg : Segment subs none (bus.transactions :: bus.active) bus.calls bus'.calls
      (bus.transactions + 1) bus'.transactions acts := hran.segment
    have hactive : bus'.active = bus.transactions :: bus.active := hran.active
    have htrace : bus'.trace = bus.trace ++ [.opened bus.transactions] ++ acts := hran.trace
    obtain ⟨hbuf, hdel⟩ : bus'.bufferStack = keptCalls (bus.transactions + 1) acts ::
      bus.bufferStack ∧ ∀ s ∈ subs.list, s.ignoreTransaction = false → deliveries s acts = [] :=
      hran.buffered
  · -- the callback threw
    have hrun : ((EventBus.runInTransaction subs fn).run bus).2 = drop bus' := by
      rw [Prog.run, EventBus.runInTransaction, hr]
    rw [hrun, drop_eq hactive hbuf]
    have hthrew := hseg.transaction none (.inr rfl)
    refine ⟨.opened bus.transactions :: (acts ++ [.dropped bus.transactions]), by simp [htrace],
      rfl, hthrew, ?_⟩
    cases hstack : bus.bufferStack with
    | nil =>
      rw [hok.nil hstack] at hthrew
      refine ⟨rfl, fun s hs hord => ?_⟩
      rw [deliveries_settled s (.inr rfl), hdel s hs hord, completedCalls, hthrew.keptCalls_zero,
        hseg.keptCalls_drop, List.filter_nil]
    | cons buffer rest =>
      refine ⟨?_, fun s hs hord => ?_⟩
      · rw [hseg.keptCalls_drop, List.append_nil]
      · rw [deliveries_settled s (.inr rfl), hdel s hs hord]
  · -- it returned
    have hrun : ((EventBus.runInTransaction subs fn).run bus).2 = commit subs bus' := by
      rw [Prog.run, EventBus.runInTransaction, hr]
    rw [hrun]
    have hcommit := hseg.transaction none (.inl rfl)
    cases hstack : bus.bufferStack with
    | nil =>
      rw [hstack] at hbuf
      rw [commit_outermost hactive hbuf]
      have hnil := hok.nil hstack
      have hentries : ∀ c ∈ keptCalls (bus.transactions + 1) acts,
          .returned c ∈ .opened bus.transactions :: (acts ++ [.committed bus.transactions]) ∧
          ∀ x ∈ c.inside, .committed x ∈
            .opened bus.transactions :: (acts ++ [.committed bus.transactions]) := by
        intro c hc
        rw [← hseg.keptCalls_commit] at hc
        rw [hnil] at hcommit
        rw [← hcommit.keptCalls_zero] at hc
        obtain ⟨hret, hall⟩ := mem_keptCalls.1 hc
        exact ⟨hret, fun x hx => hall x hx (Nat.zero_le x)⟩
      have hinside : ∀ c ∈ keptCalls (bus.transactions + 1) acts, c.inside ≠ [] := by
        intro c hc
        exact List.ne_nil_of_mem ((hseg.inside c (mem_keptCalls.1 hc).1).1 List.mem_cons_self)
      refine ⟨.opened bus.transactions :: (acts ++ [.committed bus.transactions]) ++
        flush subs (keptCalls (bus.transactions + 1) acts), by simp [htrace], rfl, ?_, ?_⟩
      · rw [hnil] at hcommit ⊢
        exact hcommit.flushed hentries
      · rw [hstack]
        refine ⟨rfl, fun s hs hord => ?_⟩
        rw [hnil] at hcommit
        rw [deliveries_append, deliveries_settled s (.inl rfl), hdel s hs hord, List.nil_append,
          deliveries_flush hinside hs hord, completedCalls, keptCalls_flush,
          hcommit.keptCalls_zero, hseg.keptCalls_commit]
        refine List.filter_congr fun c hc => ?_
        simp [hinside c hc]
    | cons buffer rest =>
      rw [hstack] at hbuf
      rw [commit_nested hactive hbuf]
      refine ⟨.opened bus.transactions :: (acts ++ [.committed bus.transactions]),
        by simp [htrace], rfl, hcommit, ?_⟩
      rw [hstack]
      refine ⟨?_, fun s hs hord => ?_⟩
      · rw [hseg.keptCalls_commit]
      · rw [deliveries_settled s (.inl rfl), hdel s hs hord]

theorem CallTree.runs (tree : CallTree Name Payload) (subs : Subscriptions Name) :
    Runs subs (tree.run subs) := by
  induction tree with
  | done => exact Runs.pure ()
  | throw => exact Runs.throw
  | emit event payload reaction ih => exact Runs.emit ih
  | seq first second ih ih' => exact ih.bind fun _ => ih'
  | tryCatch body handler ih ih' => exact ih.tryCatch fun _ => ih'
  | transaction body ih => exact ih.runInTransaction

end Rules

end Flush

end EventBus

end WoodFiredTasks
