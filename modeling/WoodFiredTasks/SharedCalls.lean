import WoodFiredTasks.ProcessSteps

set_option autoImplicit false

/-! # Calls on a shared database, in general

The system of `Processes.lean` for any repertoire of calls: processes, named by `P`, run calls
whose points are `K` on one database, one segment at a time. With a single process (`P` is `Unit`)
a run is a sequence of calls; a `crash` abandons the one in progress.

What a step does is stated once, in terms of the effects of the segments (`Shared.step_cases`). -/

namespace WoodFiredTasks

/-- The calls that processes can be asked for, with the points that their programs stop at. -/
structure Repertoire (C K : Type) where
  start : C → K
  /-- The program from a point to the next one, or to the end of the call. -/
  segment : K → M (Option K)

/-- The database, the clock and the call in progress in each process. -/
structure Shared (P K : Type) where
  db : Db
  now : Nat
  procs : P → Option K

namespace Shared

variable {P C K : Type} [DecidableEq P]

/-- One step of the whole. -/
inductive Action (P C : Type) where
  | call (p : P) (c : C)
  | step (p : P) (env : Env)
  | crash (p : P)
  | wait (ms : Nat)

/-- Nobody is working on the database. -/
def quiet (db : Db) (now : Nat) : Shared P K := ⟨db, now, fun _ => none⟩

/-- The process `p` is at `point` now. -/
def setPoint (s : Shared P K) (p : P) (point : Option K) : Shared P K :=
  { s with procs := Function.update s.procs p point }

/-- The run of the segment that a process is at. -/
def result (r : Repertoire C K) (s : Shared P K) (point : K) (env : Env) :
    Except Err (Option K) × World :=
  (r.segment point).run (World.start env s.db s.now)

/-- The point that a process is left at: a call that has thrown is over. -/
def nextPoint : Except Err (Option K) → Option K
  | .ok next => next
  | .error _ => none

def step (r : Repertoire C K) (s : Shared P K) : Action P C → Shared P K
  | .call p c => if (s.procs p).isNone then s.setPoint p (some (r.start c)) else s
  | .step p env =>
    match s.procs p with
    | none => s
    | some point =>
      { s with db := (s.result r point env).2.db }.setPoint p
        (nextPoint (s.result r point env).1)
  | .crash p => s.setPoint p none
  | .wait ms => { s with now := s.now + ms }

/-- The point from which the action runs a segment. -/
def pointAt (s : Shared P K) : Action P C → Option K
  | .step p _ => s.procs p
  | _ => none

/-- A run: the actions, one after the other. -/
abbrev run (r : Repertoire C K) (s : Shared P K) (actions : List (Action P C)) : Shared P K :=
  actions.foldl (step r) s

section Steps

variable {r : Repertoire C K} {s : Shared P K} {a : Action P C}
  {E : K → Env → Nat → Db → Option K → Db → Prop}

/-- A step of a process has the effect of its segment, or the segment has thrown and nothing is
    written. Every other action leaves the database alone. -/
theorem step_cases
    (hE : ∀ point, Leaves (r.segment point) fun v next db => E point v.env v.now v.db next db) :
    (s.step r a).db = s.db ∨ ∃ p env point next db', a = .step p env ∧ s.procs p = some point ∧
      E point env s.now s.db next db' ∧ s.step r a = { s with db := db' }.setPoint p next := by
  cases a with
  | call p c =>
    left
    show (if (s.procs p).isNone then s.setPoint p (some (r.start c)) else s).db = s.db
    split <;> rfl
  | crash p => exact .inl rfl
  | wait ms => exact .inl rfl
  | step p env =>
    cases hpoint : s.procs p with
    | none =>
      left
      simp [step, hpoint]
    | some point =>
      have hidle := World.idle_start env s.db s.now
      have hstep : s.step r (.step p env) = { s with db := (s.result r point env).2.db }.setPoint p
          (nextPoint (s.result r point env).1) := by
        simp [step, hpoint]
      cases hr : s.result r point env with
      | mk answer w' =>
        rw [hstep, hr]
        cases answer with
        | error e =>
          left
          exact (hE point).error hidle hr
        | ok next =>
          right
          exact ⟨p, env, point, next, w'.db, rfl, hpoint, (hE point).ok hidle hr, rfl⟩

/-- A property of databases that every effect keeps is kept by every step. -/
theorem step_db {I : Db → Prop}
    (hE : ∀ point, Leaves (r.segment point) fun v next db => E point v.env v.now v.db next db)
    (heffect : ∀ p env point next db', a = .step p env → s.procs p = some point →
      E point env s.now s.db next db' → I db') (h : I s.db) : I (s.step r a).db := by
  obtain hdb | ⟨p, env, point, next, db', ha, hpoint, hdo, hstep⟩ :=
    step_cases (s := s) (a := a) hE
  · rwa [hdb]
  · rw [hstep]
    exact heffect p env point next db' ha hpoint hdo

end Steps

/-- With a single process, a property of the database and the point that the process is at is kept
    if a call can start and be abandoned under it and every effect keeps it. -/
theorem step_single {r : Repertoire C K} {s : Shared Unit K} {a : Action Unit C}
    {E : K → Env → Nat → Db → Option K → Db → Prop} {I : Db → Option K → Prop}
    (hE : ∀ point, Leaves (r.segment point) fun v next db => E point v.env v.now v.db next db)
    (hstart : ∀ c, I s.db none → I s.db (some (r.start c)))
    (hstop : ∀ point, I s.db (some point) → I s.db none)
    (heffect : ∀ env point next db', a = .step () env → s.procs () = some point →
      E point env s.now s.db next db' → I s.db (some point) → I db' next)
    (h : I s.db (s.procs ())) : I (s.step r a).db ((s.step r a).procs ()) := by
  have hset : ∀ (t : Shared Unit K) (point : Option K), (t.setPoint () point).procs () = point := by
    intro t point
    simp [setPoint]
  have hnone : I s.db none := by
    cases hpoint : s.procs () with
    | none => rwa [hpoint] at h
    | some point =>
      rw [hpoint] at h
      exact hstop point h
  cases a with
  | call p c =>
    show I (if (s.procs p).isNone then s.setPoint p (some (r.start c)) else s).db
      ((if (s.procs p).isNone then s.setPoint p (some (r.start c)) else s).procs ())
    split
    · rw [hset]
      exact hstart c hnone
    · exact h
  | crash p =>
    show I s.db ((s.setPoint () none).procs ())
    rw [hset]
    exact hnone
  | wait ms => exact h
  | step p env =>
    cases hpoint : s.procs () with
    | none =>
      have hstep : s.step r (.step p env) = s := by simp [step, hpoint]
      rwa [hstep]
    | some point =>
      rw [hpoint] at h
      have hidle := World.idle_start env s.db s.now
      have hstep : s.step r (.step p env) = { s with db := (s.result r point env).2.db }.setPoint p
          (nextPoint (s.result r point env).1) := by
        simp [step, hpoint]
      cases hr : s.result r point env with
      | mk answer w' =>
        rw [hstep, hset, hr]
        cases answer with
        | error e =>
          have hdb : w'.db = s.db := (hE point).error hidle hr
          show I w'.db none
          rw [hdb]
          exact hnone
        | ok next => exact heffect env point next w'.db rfl hpoint ((hE point).ok hidle hr) h

end Shared

end WoodFiredTasks
