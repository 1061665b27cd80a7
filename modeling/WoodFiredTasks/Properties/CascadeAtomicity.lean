import WoodFiredTasks.Services.CascadeRefinement

set_option autoImplicit false

/-! # A failed cascade leaves nothing behind

Any statement inside a cascade may throw, at any depth. The error is swallowed by the bus and by
`processCascade` on its way out, comes back at the end of the cascade's transaction, and is
swallowed once more by the outermost handler. `cascade_atomic` says what is left after that. -/

namespace WoodFiredTasks

open WorkflowEngine TaskService

/-- The events that an update itself publishes. -/
def updateEvents (now : Nat) (existing updated : Task) (input : UpdateTaskInput)
    (source : EventSource) : List BusEvent :=
  updatedEvent now updated source ::
    (nextStatus existing input).toList.map
      (statusChangedEvent now updated source existing.status)

theorem World.publish_delivered {w : World} (hb : w.bufferStack = []) (event : BusEvent) :
    (w.publish event).delivered = w.delivered ++ [event] ∧ (w.publish event).bufferStack = [] ∧
      (w.publish event).db = w.db := by
  simp only [World.publish, hb, and_self]

/-- What is left of the engine's work after an event, if anything in it threw. -/
structure World.Untouched (w w' : World) : Prop where
  db : w'.db = w.db
  delivered : w'.delivered = w.delivered
  bufferStack : w'.bufferStack = w.bufferStack

/-- The outermost handler: it never throws, it leaves the engine idle, and if anything threw the
    rest of the world is as before. -/
theorem engine_atomic (event : BusEvent) {w : World} (hw : w.Idle) :
    (engine event).run w = (.ok (), (engine event).exec w) ∧ ((engine event).exec w).Idle ∧
      (w.throws < ((engine event).exec w).throws → w.Untouched ((engine event).exec w)) := by
  by_cases he : event.eventType = .taskStatusChanged
  · obtain ⟨hrun, hidle, -, -, hend⟩ := engine_outcome he hw
    refine ⟨hrun, hidle, fun hthrows => ?_⟩
    cases hend with
    | committed hcommit => exact absurd hcommit hthrows.ne'
    | rolledBack _ hdb hstack hdelivered => exact ⟨hdb, hdelivered, hstack⟩
  · rw [engine_other he]
    exact ⟨rfl, hw, fun hthrows => absurd hthrows (lt_irrefl _)⟩

/-- The events of an update, with the engine listening: it never throws, and what the engine did
    is there as a whole or not at all when the call returns. -/
theorem announceUpdate_atomic (existing updated : Task) (input : UpdateTaskInput)
    (source : EventSource) {w : World} (hw : w.Idle) (hb : w.bufferStack = []) :
    let w' := (announceUpdate engine existing updated input source).exec w
    (announceUpdate engine existing updated input source).run w = (.ok (), w') ∧ w'.Idle ∧
      (w.throws < w'.throws → w'.db = w.db ∧ w'.bufferStack = [] ∧
        w'.delivered = w.delivered ++ updateEvents w.now existing updated input source) := by
  have hfirst : (engine (updatedEvent w.now updated source)).exec w = w := by
    rw [engine_other (by simp [updatedEvent])]
    rfl
  rw [Prog.exec] at hfirst
  simp only [Prog.exec, announceUpdate, updateEvents, Prog.run_bind, Prog.run_gets,
    run_emit_engine, hfirst]
  generalize updatedEvent w.now updated source = event
  obtain ⟨hdelivered, hstack, hdb⟩ := World.publish_delivered hb event
  have hidle := hw.publish event
  rcases nextStatus existing input with _ | next
  · refine ⟨rfl, hidle, fun hthrows => ?_⟩
    rw [Prog.run_pure, World.throws_publish] at hthrows
    exact absurd hthrows (lt_irrefl _)
  · simp only [run_emit_engine, Option.toList_some, List.map_cons, List.map_nil]
    obtain ⟨-, hidle', hatomic⟩ :=
      engine_atomic (statusChangedEvent w.now updated source existing.status next) hidle
    refine ⟨trivial, hidle'.publish _, fun hthrows => ?_⟩
    rw [World.throws_publish, ← w.throws_publish event] at hthrows
    obtain ⟨hdb', hdelivered', hstack'⟩ := hatomic hthrows
    obtain ⟨hdelivered'', hstack'', hdb''⟩ := World.publish_delivered (hstack'.trans hstack)
      (statusChangedEvent w.now updated source existing.status next)
    refine ⟨hdb''.trans (hdb'.trans hdb), hstack'', ?_⟩
    rw [hdelivered'', hdelivered', hdelivered, List.append_assoc]
    rfl

/-- **Main theorem.** Whatever throws in a cascade and wherever it does: the engine's handler
    ends normally and leaves the engine idle, the database is the one before the cascade, and no
    event of the cascade is delivered or buffered. An `updateTask` whose own statements have gone
    through returns its row all the same; the only events that it has published are its own. -/
theorem cascade_atomic {w : World} (hw : w.Idle) :
    (∀ event, (engine event).run w = (.ok (), (engine event).exec w) ∧
      ((engine event).exec w).Idle ∧
      (w.throws < ((engine event).exec w).throws → w.Untouched ((engine event).exec w))) ∧
    ∀ {id input source callerId existing written updated} {w₁ w₂ w₃ : World},
      w.bufferStack = [] → (readUpdate id input callerId).run w = (.ok existing, w₁) →
      (writeUpdate existing id input).run w₁ = (.ok written, w₂) →
      (resizeAfterUpdate existing id input written).run w₂ = (.ok updated, w₃) →
      let w' := (updateTask engine id input source callerId).exec w
      (updateTask engine id input source callerId).run w = (.ok updated, w') ∧ w'.Idle ∧
        (w₃.throws < w'.throws → w'.db = w₃.db ∧ w'.bufferStack = [] ∧
          w'.delivered = w.delivered ++ updateEvents w.now existing updated input source) := by
  refine ⟨fun event => engine_atomic event hw, ?_⟩
  intro id input source callerId existing written updated w₁ w₂ w₃ hb hread hwrite hresize
  obtain ⟨hw₁, -⟩ := (readUpdate_spec id input callerId).ok hread
  obtain ⟨hw₂, -⟩ := (writeUpdate_spec existing id input).ok hwrite
  obtain ⟨hw₃, -⟩ := (resizeAfterUpdate_spec existing id input written).ok hresize
  have hsame : w₃ = { w with db := w₃.db, calls := w₃.calls } := by rw [hw₃, hw₂, hw₁]
  have hidle : w₃.Idle := by
    rw [hsame]
    exact ⟨hw.cascadeDepth, hw.cascadeError⟩
  have hstack : w₃.bufferStack = [] := by rw [hsame, hb]
  have hnow : w₃.now = w.now := by rw [hsame]
  have hdelivered : w₃.delivered = w.delivered := by rw [hsame]
  obtain ⟨hrun, hidle', hatomic⟩ := announceUpdate_atomic existing updated input source hidle hstack
  have hwhole : (updateTask engine id input source callerId).run w =
      (.ok updated, (announceUpdate engine existing updated input source).exec w₃) := by
    rw [updateTask, Prog.run_bind_ok hread, Prog.run_bind_ok hwrite, Prog.run_bind_ok hresize,
      Prog.run_bind_ok hrun, Prog.run_pure]
  simp only [Prog.exec] at hwhole hidle' hatomic ⊢
  rw [hwhole]
  rw [hnow, hdelivered] at hatomic
  exact ⟨rfl, hidle', hatomic⟩

/-- The seventh statement, inside the completion of the parent, finds the disk full. -/
def Env.diskFull : Env :=
  { Env.undisturbed with faults := fun n => if n = 6 then some (.sqlite "SQLITE_FULL") else none }

/-- The parent of a done task is open again after that. -/
theorem cascade_atomic_diskFull :
    let w := World.start .diskFull (Db.withTasks [plainTask .open none, plainTask .done (some 1)]) 0
    let event := statusChangedEvent 0 ((plainTask .done (some 1)).row [] 0 2) .user .inProgress .done
    w.Untouched ((engine event).exec w) ∧ ((engine event).exec w).db.status? 1 = some .open :=
  ⟨((cascade_atomic (World.idle_start _ _ _)).1 _).2.2 (by decide +kernel), by decide +kernel⟩

end WoodFiredTasks
