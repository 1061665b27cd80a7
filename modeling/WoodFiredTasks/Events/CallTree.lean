import WoodFiredTasks.Events.EventBus

set_option autoImplicit false

/-! # Call trees on the event bus

`src/events/event-bus.ts` once more, now with every subscriber, and with a trace of what happens.
`Events/EventBus.lean` fixes the one bypass subscriber that the program has; here any list of
subscribers is admitted, each for one event, each with or without `ignoreTransaction`.

The code that calls the bus is a `CallTree`: emits, nested transactions, throws and `try`/`catch`
in any arrangement. What a bypass subscriber does when it gets an event is a call tree as well,
given with the emit. An ordinary subscriber makes no call on the bus; its part is to receive.

`active`, `calls`, `transactions` and `trace` are no state of the source: they number the emit
calls and the transactions, and record what happens in which order. -/

namespace WoodFiredTasks

namespace EventBus

variable {Name Payload : Type}

/-- A subscription. -/
structure Subscriber (Name : Type) where
  id : Nat
  event : Name
  ignoreTransaction : Bool := false

/-- The subscriptions, in the order in which `subscribe` was called. -/
structure Subscriptions (Name : Type) where
  list : List (Subscriber Name)
  distinct : (list.map Subscriber.id).Nodup

/-- `this.emitter.listeners(event)` -/
def Subscriptions.listeners [DecidableEq Name] (subs : Subscriptions Name) (event : Name) :
    List (Subscriber Name) :=
  subs.list.filter fun s => s.event = event

/-- A call of `emit`, with its number and the transactions it is made in, innermost first. -/
structure EmitCall (Name Payload : Type) where
  id : Nat
  event : Name
  payload : Payload
  inside : List Nat

/-- What is recorded. -/
inductive Act (Name Payload : Type) where
  | called (call : EmitCall Name Payload)
  | received (subscriber : Nat) (call : EmitCall Name Payload)
  | returned (call : EmitCall Name Payload)
  | opened (transaction : Nat)
  | committed (transaction : Nat)
  | dropped (transaction : Nat)

/-- The bus. `bufferStack` has the innermost buffer first, `active` the number of the transaction
    of each buffer. -/
structure Bus (Name Payload : Type) where
  bufferStack : List (List (EmitCall Name Payload)) := []
  active : List Nat := []
  calls : Nat := 0
  transactions : Nat := 0
  trace : List (Act Name Payload) := []

/-- A program on the bus; the errors it throws are not told apart. -/
abbrev BusProg (Name Payload : Type) : Type → Type := Prog (Bus Name Payload) Unit

namespace Bus

/-- Add to the trace. -/
def record (acts : List (Act Name Payload)) (bus : Bus Name Payload) : Bus Name Payload :=
  { bus with trace := bus.trace ++ acts }

/-- The call that `emit(event, payload)` is at this moment. -/
def nextCall (event : Name) (payload : Payload) (bus : Bus Name Payload) :
    EmitCall Name Payload :=
  ⟨bus.calls, event, payload, bus.active⟩

/-- A call of `emit` begins. -/
def beginCall (call : EmitCall Name Payload) (bus : Bus Name Payload) : Bus Name Payload :=
  { bus with calls := bus.calls + 1 }.record [.called call]

/-- `this.bufferStack.push(buffer)` for a new buffer. -/
def begin (bus : Bus Name Payload) : Bus Name Payload :=
  { bus with
    bufferStack := [] :: bus.bufferStack
    active := bus.transactions :: bus.active
    transactions := bus.transactions + 1 }.record [.opened bus.transactions]

/-- `this.bufferStack.pop()` -/
def pop (bus : Bus Name Payload) : Bus Name Payload :=
  { bus with bufferStack := bus.bufferStack.tail, active := bus.active.tail }

end Bus

/-- Call a listener: `subscribe` has wrapped its handler in `try`/`catch`. -/
def callListener (call : EmitCall Name Payload) (s : Subscriber Name)
    (handler : BusProg Name Payload Unit) : BusProg Name Payload Unit :=
  Prog.modify (Bus.record [.received s.id call]) >>= fun _ =>
    Prog.tryCatch handler fun _ => pure ()

/-- `activeBuffer.push(…)` -/
def pushActive (call : EmitCall Name Payload) : BusProg Name Payload Unit :=
  Prog.withState fun bus =>
    match bus.bufferStack with
    | [] => Prog.throw ()
    | buffer :: rest => Prog.modify fun bus => { bus with bufferStack := (buffer ++ [call]) :: rest }

variable [DecidableEq Name]

/-- `EventBus.emit`. `reaction` is what each bypass subscriber does with this event. -/
def emit (subs : Subscriptions Name) (event : Name) (payload : Payload)
    (reaction : Nat → BusProg Name Payload Unit) : BusProg Name Payload Unit :=
  Prog.withState fun bus =>
    Prog.modify (Bus.beginCall (bus.nextCall event payload)) >>= fun _ =>
    (if bus.bufferStack.isEmpty then
      -- `this.emitter.emit(event, payload)`
      Prog.forEach (subs.listeners event) fun s =>
        callListener (bus.nextCall event payload) s
          (if s.ignoreTransaction then reaction s.id else pure ())
    else
      Prog.forEach ((subs.listeners event).filter fun s => s.ignoreTransaction) (fun s =>
        callListener (bus.nextCall event payload) s (reaction s.id)) >>= fun _ =>
      pushActive (bus.nextCall event payload)) >>= fun _ =>
    Prog.modify (Bus.record [.returned (bus.nextCall event payload)])

/-- The flush of a committed buffer: every entry to every listener that does not bypass. -/
def flush (subs : Subscriptions Name) (popped : List (EmitCall Name Payload)) :
    List (Act Name Payload) :=
  popped.flatMap fun entry =>
    ((subs.listeners entry.event).filter fun s => !s.ignoreTransaction).map fun s =>
      .received s.id entry

/-- The `finally` of `runInTransaction` after a normal return. -/
def commit (subs : Subscriptions Name) (bus : Bus Name Payload) : Bus Name Payload :=
  let done := bus.record (bus.active.take 1 |>.map .committed)
  match bus.bufferStack with
  | [] => done.pop
  | [popped] => done.pop.record (flush subs popped)
  | popped :: parent :: rest => { done.pop with bufferStack := (parent ++ popped) :: rest }

/-- The `finally` of `runInTransaction` after a throw: the popped buffer is dropped. -/
def drop (bus : Bus Name Payload) : Bus Name Payload :=
  (bus.record (bus.active.take 1 |>.map .dropped)).pop

/-- `EventBus.runInTransaction`. -/
def runInTransaction (subs : Subscriptions Name) (fn : BusProg Name Payload Unit) :
    BusProg Name Payload Unit := fun bus =>
  match fn.run bus.begin with
  | (.ok a, bus') => (.ok a, commit subs bus')
  | (.error e, bus') => (.error e, drop bus')

/-! ## Call trees -/

/-- Code that uses the bus. `reaction` of an emit says, for every subscriber by its id, what its
    handler does when it bypasses the buffer. -/
inductive CallTree (Name Payload : Type) where
  | done
  | throw
  | emit (event : Name) (payload : Payload) (reaction : Nat → CallTree Name Payload)
  | seq (first second : CallTree Name Payload)
  | tryCatch (body handler : CallTree Name Payload)
  | transaction (body : CallTree Name Payload)

/-- Run a call tree. -/
def CallTree.run (subs : Subscriptions Name) : CallTree Name Payload → BusProg Name Payload Unit
  | .done => pure ()
  | .throw => Prog.throw ()
  | .emit event payload reaction =>
    EventBus.emit subs event payload fun s => CallTree.run subs (reaction s)
  | .seq first second => first.run subs >>= fun _ => second.run subs
  | .tryCatch body handler => Prog.tryCatch (body.run subs) fun _ => handler.run subs
  | .transaction body => runInTransaction subs (body.run subs)

/-- The trace of a call tree, from a bus with no open transaction. -/
def CallTree.traceOf (tree : CallTree Name Payload) (subs : Subscriptions Name) :
    List (Act Name Payload) :=
  ((tree.run subs).run {}).2.trace

/-! ## Reading a trace -/

/-- The calls inside transactions whose event a subscriber received, in the order in which it
    received them. -/
def deliveries (s : Subscriber Name) (acts : List (Act Name Payload)) :
    List (EmitCall Name Payload) :=
  acts.filterMap fun
    | .received id call => if id = s.id ∧ call.inside ≠ [] then some call else none
    | _ => none

/-- The transaction has committed. -/
def committedIn (acts : List (Act Name Payload)) (t : Nat) : Bool :=
  acts.any fun
    | .committed t' => t' = t
    | _ => false

/-- The emit calls, in the order in which they returned. -/
def returnedCalls (acts : List (Act Name Payload)) : List (EmitCall Name Payload) :=
  acts.filterMap fun
    | .returned call => some call
    | _ => none

/-- The calls whose transactions, those from number `t` on, have all committed, in the order in
    which they returned. -/
def keptCalls (t : Nat) (acts : List (Act Name Payload)) : List (EmitCall Name Payload) :=
  (returnedCalls acts).filter fun call => call.inside.all fun x => x < t || committedIn acts x

/-- The calls for the event of a subscriber that were made inside transactions all of which
    completed, in the order in which they returned. -/
def completedCalls (s : Subscriber Name) (acts : List (Act Name Payload)) :
    List (EmitCall Name Payload) :=
  (keptCalls 0 acts).filter fun call => call.inside ≠ [] ∧ call.event = s.event

end EventBus

end WoodFiredTasks
