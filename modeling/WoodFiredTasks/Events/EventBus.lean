import WoodFiredTasks.World

set_option autoImplicit false

/-! # The event bus

`EventBus.emit` and `EventBus.runInTransaction` (`src/events/event-bus.ts`). While a buffer is
active, an event goes to the bypass listeners at once and into the innermost buffer for
everybody else; the buffer reaches its parent, or the ordinary subscribers, only when the
wrapped function returns.

The bypass listeners of an event are a parameter of `emit`: the program registers a single one,
the workflow engine's, and registers it before any other. Every listener is wrapped in
`try`/`catch` when it subscribes, so what it throws stops there. -/

namespace WoodFiredTasks

variable {α : Type}

/-- A bypass listener. -/
abbrev Listener := BusEvent → M Unit

/-- `subscribe`'s wrapper: an error of the handler is logged and dropped. -/
def wrapped (handler : Listener) : Listener := fun event =>
  Prog.tryCatch (handler event) fun _ => pure ()

/-- `activeBuffer.push(event)`, or delivery to the ordinary subscribers when no buffer is
    active. -/
def World.publish (event : BusEvent) (w : World) : World :=
  match w.bufferStack with
  | [] => { w with delivered := w.delivered ++ [event] }
  | buffer :: rest => { w with bufferStack := (buffer ++ [event]) :: rest }

/-- `EventBus.emit`. -/
def emit (bypass : Listener) (event : BusEvent) : M Unit :=
  wrapped bypass event >>= fun _ => Prog.modify fun w => w.publish event

/-- The `finally` of `runInTransaction` after a normal return: hand the buffer to the parent
    buffer, or flush it to the ordinary subscribers. -/
def World.commitBuffer (w : World) : World :=
  match w.bufferStack with
  | [] => w
  | [buffer] => { w with bufferStack := [], delivered := w.delivered ++ buffer }
  | buffer :: parent :: rest => { w with bufferStack := (parent ++ buffer) :: rest }

/-- `EventBus.runInTransaction`. -/
def runInTransaction (p : M α) : M α := fun w =>
  match p.run { w with bufferStack := [] :: w.bufferStack } with
  | (.ok a, w') => (.ok a, w'.commitBuffer)
  | (.error e, w') => (.error e, { w' with bufferStack := w'.bufferStack.tail })

/-- `emit` never throws. -/
theorem emit_ok (bypass : Listener) (event : BusEvent) (w : World) :
    ((emit bypass event).run w).1 = .ok () := by
  rw [emit, Prog.run_bind, wrapped, Prog.run_tryCatch]
  rcases (bypass event).run w with ⟨_ | _, w'⟩ <;> rfl

theorem World.frame_publish (event : BusEvent) (w : World) : w.Frame (w.publish event) := by
  unfold publish
  split
  · rename_i hb
    exact { World.Frame.refl w with delivered := fun h => absurd hb h }
  · rename_i buffer rest hb
    exact { World.Frame.refl w with
      bufferStack := fun _ => ⟨List.cons_ne_nil _ _, by rw [hb]; rfl⟩ }

@[simp] theorem World.view_publish (event : BusEvent) (w : World) :
    (w.publish event).view = w.view := by
  unfold publish
  split <;> rfl

@[simp] theorem World.throws_publish (event : BusEvent) (w : World) :
    (w.publish event).throws = w.throws := by
  unfold publish
  split <;> rfl

@[simp] theorem World.cascadeError_publish (event : BusEvent) (w : World) :
    (w.publish event).cascadeError = w.cascadeError := by
  unfold publish
  split <;> rfl

theorem disciplined_publish {d : Nat → Prop} (event : BusEvent) :
    Disciplined d (Prog.modify fun w => w.publish event) fun v _ v' => v' = v := by
  intro w _
  rw [Prog.run_modify]
  refine ⟨w.frame_publish event, fun _ hb => ⟨?_, (), rfl, w.view_publish event⟩, fun hc => ?_⟩
  · simpa [cascadeDiscipline] using hb
  · simp [cascadeDiscipline] at hc

/-- Emitting inside the cascade: a listener that never throws keeps its discipline. -/
theorem disciplined_emit {d : Nat → Prop} {bypass : Listener} {event : BusEvent}
    {Q : View → Unit → View → Prop} (hp : Disciplined d (bypass event) Q)
    (hok : ∀ w, ((bypass event).run w).1 = .ok ()) : Disciplined d (emit bypass event) Q := by
  have hwrapped : Disciplined d (wrapped bypass event) Q := by
    intro w hw
    have h := hp w hw
    rw [wrapped, Prog.run_tryCatch]
    rcases hr : (bypass event).run w with ⟨e | a, w'⟩
    · have := hok w
      rw [hr] at this
      cases this
    · rwa [hr] at h
  refine (hwrapped.bind fun _ => disciplined_publish event).post ?_
  rintro v b v'' ⟨a, v', hq, rfl⟩
  exact hq

end WoodFiredTasks
