import WoodFiredTasks.Db.Database
import WoodFiredTasks.Events.Types
import WoodFiredTasks.Lib.Discipline

set_option autoImplicit false

/-! # One server process

A process owns an event bus and a workflow engine and has a connection to the database. Its code
runs synchronously, so a call is a program over `World`: it reads and writes the database, the
stack of event buffers and the engine's fields, and it may throw.

Any SQL statement may throw (a busy lock, a full disk). Which ones do is the environment's
choice, `Env.faults`, indexed by the number of statements issued so far. `throws` counts every
exception that is raised, by the driver or by the program itself; no code reads it. -/

namespace WoodFiredTasks

/-- What a process gets from outside. -/
structure Env where
  /-- The error of the `n`-th SQL statement, if it throws. -/
  faults : Nat → Option Err
  /-- `config.WFT_STRICT_EVIDENCE`. -/
  strictEvidence : Bool
  /-- `z.string().datetime()` of the schema library. -/
  isDatetime : String → Bool
  /-- `String.prototype.toLowerCase`. -/
  toLowerCase : String → String
  /-- `String.prototype.trim`. -/
  trim : String → String
  /-- The order in which SQLite visits the rows of a query, which decides among equal sort keys. -/
  scan : List Task → List Task
  scan_perm : ∀ l, (scan l).Perm l

/-- No statement throws, and rows are visited in the order of the table. -/
def Env.undisturbed : Env where
  faults := fun _ => none
  strictEvidence := true
  isDatetime := fun _ => true
  toLowerCase := fun s => s.map Char.toLower
  trim := fun s => s.trimAscii.toString
  scan := id
  scan_perm := List.Perm.refl

structure World where
  env : Env
  db : Db
  /-- The clock, in milliseconds. -/
  now : Nat
  /-- `EventBus.bufferStack`, innermost buffer first. -/
  bufferStack : List (List BusEvent)
  /-- What ordinary (non-bypass) subscribers have been given so far. -/
  delivered : List BusEvent
  /-- `WorkflowEngine.cascadeDepth`. -/
  cascadeDepth : Nat
  /-- `WorkflowEngine.cascadeError`. -/
  cascadeError : Option Err
  /-- SQL statements issued so far. -/
  calls : Nat
  /-- Exceptions raised so far. -/
  throws : Nat
  /-- The engine has returned early because of its depth limit. -/
  depthLimitHit : Bool

/-- A program of a process. -/
abbrev M (α : Type) : Type := Prog World Err α

/-- `datetime('now')` at a clock value. -/
def datetimeNow (now : Nat) : Stamp := .sqlite (now / 1000)

/-- A freshly started process on a database. -/
def World.start (env : Env) (db : Db) (now : Nat) : World where
  env := env
  db := db
  now := now
  bufferStack := []
  delivered := []
  cascadeDepth := 0
  cascadeError := none
  calls := 0
  throws := 0
  depthLimitHit := false

/-- `throw e`. -/
def raise {α : Type} (e : Err) : M α := fun w => (.error e, { w with throws := w.throws + 1 })

/-- Raise the error of a pure computation. -/
def raiseError {α : Type} : Except Err α → M α
  | .ok a => pure a
  | .error e => raise e

/-- Issue one SQL statement; it may throw before it does anything. -/
def call : M Unit := fun w =>
  match w.env.faults w.calls with
  | none => (.ok (), { w with calls := w.calls + 1 })
  | some e => (.error e, { w with calls := w.calls + 1, throws := w.throws + 1 })

/-- A SELECT. -/
def query {α : Type} (f : Db → α) : M α := call >>= fun _ => Prog.gets fun w => f w.db

/-- An INSERT, UPDATE or DELETE run at the clock's instant: it may be refused by a constraint,
    and it reports a value (the new key, the number of changed rows) of the old database. -/
def statement {α : Type} (check : Db → Option Err) (value : Db → α) (f : Nat → Db → Db) : M α :=
  call >>= fun _ => Prog.withState fun w =>
    match check w.db with
    | some e => raise e
    | none => Prog.modify (fun w => { w with db := f w.now w.db }) >>= fun _ => pure (value w.db)

/-- `db.transaction(p)()`: BEGIN, the body, COMMIT; a throw anywhere rolls the database back. A
    nested one is a savepoint, which behaves the same. -/
def transaction {α : Type} (p : M α) : M α :=
  call >>= fun _ => Prog.atomically (fun w w' => { w' with db := w.db })
    (p >>= fun a => call >>= fun _ => pure a)

/-! ## What a run respects -/

/-- The part of the world a program's result depends on. -/
structure View where
  env : Env
  now : Nat
  cascadeDepth : Nat
  depthLimitHit : Bool
  db : Db

def World.view (w : World) : View := ⟨w.env, w.now, w.cascadeDepth, w.depthLimitHit, w.db⟩

/-- What every program of the cascade respects, however it ends: it hands nothing to ordinary
    subscribers and touches only the innermost buffer, the depth is what it was, and an error
    once recorded stays recorded. -/
structure World.Frame (w w' : World) : Prop where
  env : w'.env = w.env
  now : w'.now = w.now
  cascadeDepth : w'.cascadeDepth = w.cascadeDepth
  throws : w.throws ≤ w'.throws
  delivered : w.bufferStack ≠ [] → w'.delivered = w.delivered
  bufferStack : w.bufferStack ≠ [] →
    w'.bufferStack ≠ [] ∧ w'.bufferStack.tail = w.bufferStack.tail
  cascadeError : w.cascadeError ≠ none → w'.cascadeError ≠ none

theorem World.Frame.refl (w : World) : w.Frame w where
  env := rfl
  now := rfl
  cascadeDepth := rfl
  throws := Nat.le_refl _
  delivered := fun _ => rfl
  bufferStack := fun h => ⟨h, rfl⟩
  cascadeError := id

theorem World.Frame.trans {w₁ w₂ w₃ : World} (h : w₁.Frame w₂) (h' : w₂.Frame w₃) :
    w₁.Frame w₃ where
  env := h'.env.trans h.env
  now := h'.now.trans h.now
  cascadeDepth := h'.cascadeDepth.trans h.cascadeDepth
  throws := h.throws.trans h'.throws
  delivered := fun hb => (h'.delivered (h.bufferStack hb).1).trans (h.delivered hb)
  bufferStack := fun hb =>
    ⟨(h'.bufferStack (h.bufferStack hb).1).1,
      (h'.bufferStack (h.bufferStack hb).1).2.trans (h.bufferStack hb).2⟩
  cascadeError := fun he => h'.cascadeError (h.cascadeError he)

/-- The discipline of the cascade: errors are swallowed by the event bus and remembered in
    `cascadeError`. -/
def cascadeDiscipline : Discipline World View where
  view := World.view
  frame := World.Frame
  frame_refl := World.Frame.refl
  frame_trans := World.Frame.trans
  count := World.throws
  count_le := World.Frame.throws
  bad := fun w => w.cascadeError ≠ none
  bad_mono := fun h => h.cascadeError

/-- A program of the cascade, run inside a buffered transaction at any depth satisfying `d`. -/
def Disciplined {α : Type} (d : Nat → Prop) (p : M α) (Q : View → α → View → Prop) : Prop :=
  cascadeDiscipline.Holds (fun w => w.bufferStack ≠ [] ∧ d w.cascadeDepth) p Q

section Rules

variable {α β : Type} {d d' : Nat → Prop}

theorem stable_depth (d : Nat → Prop) :
    cascadeDiscipline.Stable fun w => w.bufferStack ≠ [] ∧ d w.cascadeDepth := by
  rintro w w' ⟨hb, hd⟩ hframe
  refine ⟨(hframe.bufferStack hb).1, ?_⟩
  rwa [World.Frame.cascadeDepth hframe]

theorem Disciplined.bind {p : M α} {f : α → M β} {Q : View → α → View → Prop}
    {R : α → View → β → View → Prop} (hp : Disciplined d p Q)
    (hf : ∀ a, Disciplined d (f a) (R a)) :
    Disciplined d (p >>= f) fun v b v'' => ∃ a v', Q v a v' ∧ R a v' b v'' :=
  Discipline.Holds.bind (stable_depth d) hp hf

theorem Disciplined.conseq {p : M α} {Q Q' : View → α → View → Prop} (h : Disciplined d p Q)
    (hd : ∀ n, d' n → d n) (hQ : ∀ v a v', Q v a v' → Q' v a v') : Disciplined d' p Q' :=
  Discipline.Holds.conseq h (fun _ hw => ⟨hw.1, hd _ hw.2⟩) hQ

theorem Disciplined.post {p : M α} {Q Q' : View → α → View → Prop} (h : Disciplined d p Q)
    (hQ : ∀ v a v', Q v a v' → Q' v a v') : Disciplined d p Q' :=
  h.conseq (fun _ => id) hQ

theorem Disciplined.forEach {γ : Type} {f : γ → M Unit} (g : View → γ → View) (xs : List γ)
    (hf : ∀ x, Disciplined d (f x) fun v _ v' => v' = g v x) :
    Disciplined d (Prog.forEach xs f) fun v _ v' => v' = xs.foldl g v :=
  Discipline.Holds.forEach (stable_depth d) xs fun x _ => hf x

theorem disciplined_pure (a : α) : Disciplined d (pure a) fun v b v' => b = a ∧ v' = v :=
  Discipline.Holds.pure a fun _ _ => ⟨rfl, rfl⟩

end Rules

/-! ## Programs that only issue SQL

Repositories and most of the services neither emit events nor catch exceptions. Their
specification says what a normal end returns and leaves in the database, and what a throw leaves
there; everything else in the world is untouched, and a throw is counted. -/

/-- What a program of SQL statements does: after a normal end `Q` relates the view before it, the
    result and the database after it, and after a throw `E` relates the view and the database. -/
structure Spec {α : Type} (p : M α) (Q : View → α → Db → Prop) (E : View → Db → Prop) : Prop where
  ok : ∀ {w a w'}, p.run w = (.ok a, w') →
    w' = { w with db := w'.db, calls := w'.calls } ∧ Q w.view a w'.db
  error : ∀ {w e w'}, p.run w = (.error e, w') →
    w' = { w with db := w'.db, calls := w'.calls, throws := w'.throws } ∧ w.throws < w'.throws ∧
      E w.view w'.db

/-- What a throw leaves behind where nothing has been written yet. -/
def Unchanged (v : View) (db : Db) : Prop := db = v.db

section SpecRules

variable {α β : Type} {p : M α} {Q Q' : View → α → Db → Prop} {E E' : View → Db → Prop}

theorem Spec.conseq (h : Spec p Q E) (hQ : ∀ v a db, Q v a db → Q' v a db)
    (hE : ∀ v db, E v db → E' v db) : Spec p Q' E' where
  ok hr := ⟨(h.ok hr).1, hQ _ _ _ (h.ok hr).2⟩
  error hr := ⟨(h.error hr).1, (h.error hr).2.1, hE _ _ (h.error hr).2.2⟩

theorem Spec.post (h : Spec p Q E) (hQ : ∀ v a db, Q v a db → Q' v a db) : Spec p Q' E :=
  h.conseq hQ fun _ _ => id

theorem Spec.pure (a : α) : Spec (pure a) (fun v b db => b = a ∧ db = v.db) E where
  ok hr := by
    cases hr
    exact ⟨rfl, rfl, rfl⟩
  error hr := by cases hr

theorem Spec.raise (e : Err) : Spec (raise e : M α) Q Unchanged where
  ok hr := by cases hr
  error hr := by
    cases hr
    exact ⟨rfl, Nat.lt_succ_self _, rfl⟩

theorem Spec.raiseError (x : Except Err α) :
    Spec (raiseError x) (fun v a db => x = .ok a ∧ db = v.db) Unchanged := by
  cases x with
  | ok a => exact (Spec.pure a).post fun v b db ⟨hb, hdb⟩ => ⟨hb ▸ rfl, hdb⟩
  | error e => exact Spec.raise e

theorem Spec.gets (f : World → α) (g : View → α) (hf : ∀ w, f w = g w.view) :
    Spec (Prog.gets f) (fun v a db => a = g v ∧ db = v.db) E where
  ok hr := by
    cases hr
    exact ⟨rfl, hf _, rfl⟩
  error hr := by cases hr

theorem Spec.call : Spec call (fun v _ db => db = v.db) Unchanged where
  ok {w a w'} hr := by
    rw [Prog.run, WoodFiredTasks.call] at hr
    split at hr <;> cases hr
    exact ⟨rfl, rfl⟩
  error {w e w'} hr := by
    rw [Prog.run, WoodFiredTasks.call] at hr
    split at hr <;> cases hr
    exact ⟨rfl, Nat.lt_succ_self _, rfl⟩

theorem Spec.bind {f : α → M β} {R : α → View → β → Db → Prop} {F : α → View → Db → Prop}
    (hp : Spec p Q E) (hf : ∀ a, Spec (f a) (R a) (F a)) :
    Spec (p >>= f) (fun v b db'' => ∃ a db', Q v a db' ∧ R a { v with db := db' } b db'')
      fun v db'' => E v db'' ∨ ∃ a db', Q v a db' ∧ F a { v with db := db' } db'' := by
  have hview : ∀ {w w' : World}, w' = { w with db := w'.db, calls := w'.calls } →
      w'.view = { w.view with db := w'.db } ∧ w'.throws = w.throws := by
    intro w w' hw'
    rw [hw']
    exact ⟨rfl, rfl⟩
  constructor
  · intro w b w'' hr
    rw [Prog.run_bind] at hr
    rcases hrp : p.run w with ⟨e | a, w'⟩ <;> rw [hrp] at hr
    · cases hr
    · obtain ⟨hw', hq⟩ := hp.ok hrp
      obtain ⟨hw'', hq'⟩ := (hf a).ok hr
      rw [(hview hw').1] at hq'
      exact ⟨by rw [hw'', hw'], a, w'.db, hq, hq'⟩
  · intro w e w'' hr
    rw [Prog.run_bind] at hr
    rcases hrp : p.run w with ⟨e' | a, w'⟩ <;> rw [hrp] at hr
    · cases hr
      obtain ⟨hw', hlt, he⟩ := hp.error hrp
      exact ⟨hw', hlt, .inl he⟩
    · obtain ⟨hw', hq⟩ := hp.ok hrp
      obtain ⟨hw'', hlt, he⟩ := (hf a).error hr
      rw [(hview hw').1] at he
      rw [(hview hw').2] at hlt
      exact ⟨by rw [hw'', hw'], hlt, .inr ⟨a, w'.db, hq, he⟩⟩

/-- A composition that has written nothing when it throws. -/
theorem Spec.bindUnchanged {f : α → M β} {R : α → View → β → Db → Prop}
    (hp : Spec p (fun v a db => Q v a db ∧ db = v.db) Unchanged)
    (hf : ∀ a, Spec (f a) (R a) Unchanged) :
    Spec (p >>= f) (fun v b db => ∃ a, Q v a v.db ∧ R a v b db) Unchanged := by
  refine (hp.bind hf).conseq ?_ ?_
  · rintro v b db ⟨a, _, ⟨hq, rfl⟩, hr⟩
    exact ⟨a, hq, hr⟩
  · rintro v db (h | ⟨a, _, ⟨hq, rfl⟩, h⟩)
    · exact h
    · exact h

theorem Spec.afterCall (hp : Spec p Q Unchanged) : Spec (WoodFiredTasks.call >>= fun _ => p) Q Unchanged := by
  refine (Spec.bindUnchanged (Q := fun _ _ _ => True) (Spec.call.post fun _ _ _ h => ⟨trivial, h⟩)
    fun _ => hp).post ?_
  rintro v b db ⟨_, -, h⟩
  exact h

theorem Spec.query (f : Db → α) :
    Spec (query f) (fun v a db => a = f v.db ∧ db = v.db) Unchanged :=
  Spec.afterCall (Spec.gets _ (fun v => f v.db) fun _ => rfl)

/-- A read of a row that has to be there. -/
theorem Spec.queryOr {f : Db → Option α} {g : Option α → M α} {e : Err}
    (hsome : ∀ a, g (some a) = Pure.pure a) (hnone : g none = WoodFiredTasks.raise e) :
    Spec (WoodFiredTasks.query f >>= g) (fun v a db => f v.db = some a ∧ db = v.db) Unchanged := by
  refine (Spec.bindUnchanged (Spec.query f) (R := fun found v a db => found = some a ∧ db = v.db)
    fun found => ?_).post ?_
  · cases found with
    | none =>
      rw [hnone]
      exact Spec.raise e
    | some a =>
      rw [hsome]
      exact (Spec.pure a).post fun _ _ _ h => ⟨h.1 ▸ rfl, h.2⟩
  · intro v a db h
    obtain ⟨_, rfl, hfound⟩ := h
    exact hfound

theorem Spec.statement (check : Db → Option Err) (value : Db → α) (f : Nat → Db → Db) :
    Spec (statement check value f)
      (fun v a db => check v.db = none ∧ a = value v.db ∧ db = f v.now v.db) Unchanged := by
  refine Spec.afterCall ?_
  constructor
  · intro w a w' hr
    rw [Prog.run_withState] at hr
    split at hr
    · cases hr
    · rename_i hcheck
      cases hr
      exact ⟨rfl, hcheck, rfl, rfl⟩
  · intro w e w' hr
    rw [Prog.run_withState] at hr
    split at hr
    · cases hr
      exact ⟨rfl, Nat.lt_succ_self _, rfl⟩
    · cases hr

/-- A loop whose body keeps a preorder on databases keeps it. -/
theorem Spec.forEach {γ : Type} {R : Db → Db → Prop} {f : γ → M Unit} (hrefl : ∀ db, R db db)
    (htrans : ∀ {a b c}, R a b → R b c → R a c) (xs : List γ)
    (hf : ∀ x, Spec (f x) (fun v _ db => R v.db db) fun _ _ => True) :
    Spec (Prog.forEach xs f) (fun v _ db => R v.db db) fun _ _ => True := by
  induction xs with
  | nil => exact (Spec.pure _).post fun _ _ _ ⟨_, hdb⟩ => hdb ▸ hrefl _
  | cons x rest ih =>
    refine ((hf x).bind fun _ => ih).conseq ?_ fun _ _ _ => trivial
    rintro v _ db ⟨_, db', hfirst, hrest⟩
    exact htrans hfirst hrest

/-- A transaction that throws has written nothing. -/
theorem Spec.transaction (hp : Spec p Q E) : Spec (transaction p) Q Unchanged := by
  have hbody : Spec (p >>= fun a => WoodFiredTasks.call >>= fun _ => Pure.pure a) Q fun _ _ => True := by
    refine (hp.bind fun a => Spec.afterCall (Spec.pure a)).conseq ?_ fun _ _ _ => trivial
    rintro v b _ ⟨a, db', hq, rfl, rfl⟩
    exact hq
  refine Spec.afterCall ?_
  constructor
  · intro w a w' hr
    rw [Prog.run, Prog.atomically] at hr
    split at hr
    · rename_i hrun
      cases hr
      exact hbody.ok hrun
    · cases hr
  · intro w e w' hr
    rw [Prog.run, Prog.atomically] at hr
    split at hr
    · cases hr
    · rename_i hrun
      cases hr
      obtain ⟨hw', hlt, -⟩ := hbody.error hrun
      refine ⟨?_, hlt, rfl⟩
      rw [hw']

/-- Inside the cascade such a program keeps the discipline. -/
theorem Spec.disciplined {d : Nat → Prop} (h : Spec p Q E) :
    Disciplined d p fun v a v' => ∃ db, Q v a db ∧ v' = { v with db := db } := by
  intro w _
  rcases hr : p.run w with ⟨e | a, w'⟩
  · obtain ⟨hw', hlt, -⟩ := h.error hr
    refine ⟨?_, fun hc => absurd hc hlt.ne', fun _ => .inl ⟨e, rfl⟩⟩
    rw [hw']
    exact { World.Frame.refl w with throws := hlt.le }
  · obtain ⟨hw', hq⟩ := h.ok hr
    refine ⟨?_, fun _ hb => ⟨?_, a, rfl, w'.db, hq, ?_⟩, fun hc => ?_⟩
    · rw [hw']
      exact { World.Frame.refl w with }
    · rw [hw']
      exact hb
    · rw [hw']
      rfl
    · rw [hw'] at hc
      exact absurd hc (Nat.lt_irrefl _)

/-- A program that only reads. -/
theorem Spec.disciplinedRead {d : Nat → Prop} {Q : View → α → Prop}
    (h : Spec p (fun v a db => Q v a ∧ db = v.db) E) :
    Disciplined d p fun v a v' => Q v a ∧ v' = v := by
  refine h.disciplined.post ?_
  rintro v a _ ⟨_, ⟨hq, rfl⟩, rfl⟩
  exact ⟨hq, rfl⟩

end SpecRules

/-! ## Programs that cannot fail

A `Spec` says what a normal end has done, not that there is one. -/

/-- From a view with `P`, if no statement throws, the program ends normally. -/
def Succeeds {α : Type} (P : View → Prop) (p : M α) : Prop :=
  ∀ w : World, (∀ n, w.env.faults n = none) → P w.view →
    ∃ a w', p.run w = (.ok a, w') ∧ w'.env = w.env

section SucceedsRules

variable {α β : Type} {p : M α} {P : View → Prop}

theorem Succeeds.pure (a : α) : Succeeds P (pure a) := fun w _ _ => ⟨a, w, rfl, rfl⟩

theorem Succeeds.raiseError {x : Except Err α} (h : ∀ v, P v → ∃ a, x = .ok a) :
    Succeeds P (raiseError x) := by
  intro w _ hP
  obtain ⟨a, rfl⟩ := h w.view hP
  exact ⟨a, w, rfl, rfl⟩

theorem Succeeds.bind {f : α → M β} {Q : View → α → Db → Prop} {E : View → Db → Prop}
    {R : α → View → Prop} (hp : Succeeds P p) (hspec : Spec p Q E)
    (hf : ∀ a, Succeeds (R a) (f a))
    (hP : ∀ v a db, P v → Q v a db → R a { v with db := db }) : Succeeds P (p >>= f) := by
  intro w hfaults hw
  obtain ⟨a, w', hr, henv⟩ := hp w hfaults hw
  obtain ⟨hw', hq⟩ := hspec.ok hr
  have hview : w'.view = { w.view with db := w'.db } := by
    rw [hw']
    rfl
  obtain ⟨b, w'', hr', henv'⟩ := hf a w' (henv ▸ hfaults) (hview ▸ hP _ a _ hw hq)
  exact ⟨b, w'', by rw [Prog.run_bind_ok hr, hr'], henv'.trans henv⟩

theorem Succeeds.afterCall (h : Succeeds P p) : Succeeds P (call >>= fun _ => p) := by
  intro w hfaults hw
  have hr : call.run w = (.ok (), { w with calls := w.calls + 1 }) := by
    rw [Prog.run, call, hfaults]
  obtain ⟨a, w', hr', henv⟩ := h { w with calls := w.calls + 1 } hfaults hw
  exact ⟨a, w', by rw [Prog.run_bind_ok hr, hr'], henv⟩

theorem Succeeds.query (f : Db → α) : Succeeds P (query f) :=
  Succeeds.afterCall fun w _ _ => ⟨f w.db, w, rfl, rfl⟩

/-- A read of a row that is there. -/
theorem Succeeds.queryOr {f : Db → Option α} {g : Option α → M α}
    (hsome : ∀ a, g (some a) = Pure.pure a) :
    Succeeds (fun v => (f v.db).isSome = true) (WoodFiredTasks.query f >>= g) := by
  refine Succeeds.bind (R := fun found _ => found.isSome = true) (Succeeds.query f) (Spec.query f)
    (fun found => ?_) ?_
  · cases found with
    | none => exact fun _ _ h => nomatch h
    | some a =>
      rw [hsome]
      exact Succeeds.pure a
  · intro v found db hv h
    rw [h.1]
    exact hv

theorem Succeeds.statement {check : Db → Option Err} {value : Db → α} {f : Nat → Db → Db}
    (h : ∀ v, P v → check v.db = none) : Succeeds P (statement check value f) := by
  refine Succeeds.afterCall fun w _ hw => ?_
  have hcheck : check w.db = none := h w.view hw
  exact ⟨value w.db, { w with db := f w.now w.db }, by rw [Prog.run_withState, hcheck]; rfl, rfl⟩

theorem Succeeds.transaction (h : Succeeds P p) : Succeeds P (transaction p) := by
  refine Succeeds.afterCall fun w hfaults hw => ?_
  obtain ⟨a, w', hr, henv⟩ := h w hfaults hw
  have hcommit : (p >>= fun a => call >>= fun _ => Pure.pure a).run w =
      (.ok a, { w' with calls := w'.calls + 1 }) := by
    rw [Prog.run_bind_ok hr, Prog.run_bind, Prog.run, call, henv, hfaults]
    rfl
  rw [Prog.run] at hcommit
  refine ⟨a, { w' with calls := w'.calls + 1 }, ?_, henv⟩
  rw [Prog.run, Prog.atomically, hcommit]

end SucceedsRules

end WoodFiredTasks
