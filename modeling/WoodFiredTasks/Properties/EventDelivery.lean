import WoodFiredTasks.Events.Delivery

set_option autoImplicit false

/-! # Which events reach which subscriber, and when

For every list of subscriptions and every call tree, run from a bus with no open transaction:
an ordinary subscriber receives the events of its name that were emitted inside transactions all
of which completed, each once, after the outermost of them committed; it receives nothing that was
emitted inside a transaction that threw. A bypass subscriber receives every event of its name once,
while the emit is running.

The order of delivery is the order in which the emit calls *return*. It is not the order in which
they are made: `emit` calls the bypass subscribers first and appends to the buffer afterwards, so
what a bypass subscriber emits is delivered before the event it reacts to. -/

namespace WoodFiredTasks

namespace EventBus

variable {Name Payload : Type} [DecidableEq Name]

/-- The whole trace of a call tree is a stretch outside every transaction. -/
theorem CallTree.trace_segment (tree : CallTree Name Payload) (subs : Subscriptions Name) :
    (∃ n t, Segment subs none [] 0 n 0 t (tree.traceOf subs)) ∧
    ∀ s ∈ subs.list, s.ignoreTransaction = false →
      deliveries s (tree.traceOf subs) = completedCalls s (tree.traceOf subs) := by
  obtain ⟨acts, hran⟩ := tree.runs subs {} ⟨by simp, rfl⟩
  have htrace : tree.traceOf subs = acts := by
    rw [CallTree.traceOf, hran.trace]
    rfl
  have hsegment := hran.segment
  have hbuffered := hran.buffered
  rw [htrace]
  exact ⟨⟨_, _, hsegment⟩, hbuffered.2⟩

/-- A call is among the completed ones if it was made for this event, inside transactions, and all
    of them committed. -/
theorem mem_completedCalls {s : Subscriber Name} {acts : List (Act Name Payload)}
    {c : EmitCall Name Payload} : c ∈ completedCalls s acts ↔
      .returned c ∈ acts ∧ c.event = s.event ∧ c.inside ≠ [] ∧
        ∀ t ∈ c.inside, .committed t ∈ acts := by
  simp only [completedCalls, List.mem_filter, mem_keptCalls, Nat.zero_le, forall_const,
    decide_eq_true_eq]
  tauto

/-- **Main theorem.** Exactly-once delivery of what committed, in the order in which the emit calls
    returned, after the commit; nothing of what threw; bypass subscribers at the emit. -/
theorem events_delivered (subs : Subscriptions Name) (tree : CallTree Name Payload) :
    (∀ s ∈ subs.list, s.ignoreTransaction = false →
      deliveries s (tree.traceOf subs) = completedCalls s (tree.traceOf subs) ∧
      ((deliveries s (tree.traceOf subs)).map EmitCall.id).Nodup ∧
      (∀ c, .called c ∈ tree.traceOf subs → c.event = s.event → c.inside ≠ [] →
        (∀ t ∈ c.inside, .committed t ∈ tree.traceOf subs) →
        c ∈ deliveries s (tree.traceOf subs)) ∧
      (∀ before c after, tree.traceOf subs = before ++ .received s.id c :: after →
        ∀ t ∈ c.inside, .committed t ∈ before) ∧
      ∀ c, ∀ t ∈ c.inside, .dropped t ∈ tree.traceOf subs →
        .received s.id c ∉ tree.traceOf subs) ∧
    (∀ s ∈ subs.list, s.ignoreTransaction = true → ∀ c, .called c ∈ tree.traceOf subs →
      c.event = s.event → ReceivedAtCall s.id c (tree.traceOf subs)) ∧
    ∀ c, .called c ∈ tree.traceOf subs → ∀ t ∈ c.inside,
      .committed t ∈ tree.traceOf subs ∨ .dropped t ∈ tree.traceOf subs := by
  obtain ⟨⟨n, t, hsegment⟩, hdelivered⟩ := tree.trace_segment subs
  refine ⟨fun s hs hord => ⟨hdelivered s hs hord, ?_, ?_, ?_, ?_⟩, fun s hs hby c hc hev => ?_, ?_⟩
  · rw [hdelivered s hs hord]
    exact hsegment.distinct.sublist
      ((List.filter_sublist.trans List.filter_sublist).map EmitCall.id)
  · intro c hc hev hin hall
    rw [hdelivered s hs hord, mem_completedCalls]
    exact ⟨(hsegment.returns c).1 hc, hev, hin, hall⟩
  · exact hsegment.afterCommit s hs hord
  · intro c x hx hd hr
    obtain ⟨before, after, hsplit⟩ := List.append_of_mem hr
    have hcommitted := hsegment.afterCommit s hs hord before c after hsplit x hx
    refine hsegment.once x ?_ hd
    rw [hsplit]
    exact List.mem_append_left _ hcommitted
  · exact hsegment.bypass s hs hby c hc hev
  · intro c hc x hx
    have hrange := ((hsegment.inside c ((hsegment.returns c).1 hc)).2 x hx).resolve_left (by simp)
    exact (hsegment.settled x).2 hrange

/-! ## The order of the calls

The workflow engine gets the status change of a child inside a cascade and, before the emit of it
returns, completes the parent and emits that. -/

/-- The engine, and a relay that waits for the commit. -/
def engineAndRelay : Subscriptions String where
  list := [{ id := 0, event := "task.status_changed", ignoreTransaction := true },
    { id := 1, event := "task.status_changed" }]
  distinct := by decide

/-- A child's status change, to which the engine reacts with the parent's. -/
def childThenParent : CallTree String Nat :=
  .transaction (.emit "task.status_changed" 7 fun _ =>
    .emit "task.status_changed" 3 fun _ => .done)

/-- The relay gets the parent's event, the second emit call, before the child's, the first. -/
theorem delivered_before_earlier_call :
    (deliveries { id := 1, event := "task.status_changed" }
      (childThenParent.traceOf engineAndRelay)).map (fun c => (c.id, c.payload)) =
        [(1, 3), (0, 7)] ∧
    ¬ ∀ s ∈ engineAndRelay.list, s.ignoreTransaction = false →
      ((deliveries s (childThenParent.traceOf engineAndRelay)).map EmitCall.id).Pairwise
        (· < ·) := by
  decide

/-! ## The bus of the cascade

`Events/EventBus.lean` keeps only the payloads, and has its two buffer operations on the state of
the process. They are those of this bus. -/

/-- The payloads in the buffers. -/
def Bus.payloads (bus : Bus Name Payload) : List (List Payload) :=
  bus.bufferStack.map fun buffer => buffer.map EmitCall.payload

theorem publish_payloads {Name : Type} {bus : Bus Name BusEvent} {w : World} (h : w.bufferStack = bus.payloads)
    (hopen : bus.bufferStack ≠ []) (c : EmitCall Name BusEvent) :
    (w.publish c.payload).bufferStack = (((pushActive c).run bus).2).payloads := by
  obtain ⟨buffer, rest, hstack⟩ := List.exists_cons_of_ne_nil hopen
  have hw : w.bufferStack = buffer.map EmitCall.payload ::
      rest.map fun buffer => buffer.map EmitCall.payload := by
    rw [h, Bus.payloads, hstack, List.map_cons]
  simp only [World.publish, hw, pushActive, Prog.run_withState, hstack]
  simp [Bus.payloads]

theorem commitBuffer_payloads {bus : Bus Name BusEvent} {w : World}
    (h : w.bufferStack = bus.payloads) (subs : Subscriptions Name) :
    w.commitBuffer.bufferStack = (commit subs bus).payloads := by
  unfold World.commitBuffer
  rcases hstack : bus.bufferStack with _ | ⟨popped, _ | ⟨parent, rest⟩⟩ <;>
    simp [h, Bus.payloads, commit, hstack, Bus.pop, Bus.record]

end EventBus

end WoodFiredTasks
