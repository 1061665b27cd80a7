import Mathlib.Data.List.Basic

set_option autoImplicit false

/-! # Programs with state and exceptions

A program over a state `σ` either ends with a value or throws, and in both cases it leaves a
state behind: what was written before a throw stays written unless the program itself takes it
back (`atomically`). This is the meaning of `try`/`catch`/`finally` in a language with mutable
state, and it is what separates `Prog` from a state monad under an exception monad.

The program logic is the usual one, with a separate postcondition for the throws (`Triple`);
`Keeps` is its invariant form. -/

universe u

/-- A program with state `σ`, exceptions `ε` and result `α`. -/
def Prog (σ ε α : Type u) : Type u := σ → Except ε α × σ

namespace Prog

variable {σ ε α β : Type u}

/-- Run a program from a state. -/
def run (p : Prog σ ε α) (s : σ) : Except ε α × σ := p s

/-- The state a run leaves behind. -/
def exec (p : Prog σ ε α) (s : σ) : σ := (p.run s).2

instance : Monad (Prog σ ε) where
  pure a := fun s => (.ok a, s)
  bind p f := fun s =>
    match p s with
    | (.ok a, s') => f a s'
    | (.error e, s') => (.error e, s')

/-- `throw e`. -/
def throw (e : ε) : Prog σ ε α := fun s => (.error e, s)

/-- Read a component of the state. -/
def gets (f : σ → α) : Prog σ ε α := fun s => (.ok (f s), s)

/-- Change the state. -/
def modify (f : σ → σ) : Prog σ ε PUnit := fun s => (.ok ⟨⟩, f s)

/-- Continue with a program that depends on the present state. -/
def withState (f : σ → Prog σ ε α) : Prog σ ε α := fun s => f s s

/-- `try { p } catch (e) { h(e) }`. -/
def tryCatch (p : Prog σ ε α) (h : ε → Prog σ ε α) : Prog σ ε α := fun s =>
  match p s with
  | (.ok a, s') => (.ok a, s')
  | (.error e, s') => h e s'

/-- `enter; try { p } finally { leave }`, for an entry and an exit that only move the state. -/
def bracket (enter leave : σ → σ) (p : Prog σ ε α) : Prog σ ε α := fun s =>
  ((p (enter s)).1, leave (p (enter s)).2)

/-- Run `p`; on a throw, undo what it did to the state by `undo start finish`. -/
def atomically (undo : σ → σ → σ) (p : Prog σ ε α) : Prog σ ε α := fun s =>
  match p s with
  | (.ok a, s') => (.ok a, s')
  | (.error e, s') => (.error e, undo s s')

/-- `for (const x of xs) f(x)`. -/
def forEach {γ : Type u} : List γ → (γ → Prog σ ε PUnit) → Prog σ ε PUnit
  | [], _ => pure ⟨⟩
  | x :: xs, f => f x >>= fun _ => forEach xs f

/-- Raise the error of a pure computation. -/
def lift : Except ε α → Prog σ ε α
  | .ok a => pure a
  | .error e => throw e

theorem pure_bind_eq (a : α) (f : α → Prog σ ε β) : (pure a >>= f) = f a := rfl

@[simp] theorem run_pure (a : α) (s : σ) : (pure a : Prog σ ε α).run s = (.ok a, s) := rfl
@[simp] theorem run_throw (e : ε) (s : σ) : (throw e : Prog σ ε α).run s = (.error e, s) := rfl
@[simp] theorem run_gets (f : σ → α) (s : σ) :
    (gets f : Prog σ ε α).run s = (.ok (f s), s) := rfl
@[simp] theorem run_modify (f : σ → σ) (s : σ) :
    (modify f : Prog σ ε PUnit).run s = (.ok ⟨⟩, f s) := rfl
@[simp] theorem run_withState (f : σ → Prog σ ε α) (s : σ) :
    (withState f).run s = (f s).run s := rfl
@[simp] theorem run_bracket (enter leave : σ → σ) (p : Prog σ ε α) (s : σ) :
    (bracket enter leave p).run s = ((p.run (enter s)).1, leave (p.run (enter s)).2) := rfl

theorem run_bind (p : Prog σ ε α) (f : α → Prog σ ε β) (s : σ) :
    (p >>= f).run s = match p.run s with
      | (.ok a, s') => (f a).run s'
      | (.error e, s') => (.error e, s') := rfl

theorem run_tryCatch (p : Prog σ ε α) (h : ε → Prog σ ε α) (s : σ) :
    (tryCatch p h).run s = match p.run s with
      | (.ok a, s') => (.ok a, s')
      | (.error e, s') => (h e).run s' := rfl

theorem run_bind_ok {p : Prog σ ε α} {f : α → Prog σ ε β} {s s' : σ} {a : α}
    (h : p.run s = (.ok a, s')) : (p >>= f).run s = (f a).run s' := by
  rw [run_bind, h]

theorem run_bind_error {p : Prog σ ε α} {f : α → Prog σ ε β} {s s' : σ} {e : ε}
    (h : p.run s = (.error e, s')) : (p >>= f).run s = (.error e, s') := by
  rw [run_bind, h]

theorem bind_assoc {γ : Type u} (p : Prog σ ε α) (f : α → Prog σ ε β) (g : β → Prog σ ε γ) :
    (p >>= f) >>= g = p >>= fun a => f a >>= g := by
  funext s
  show ((p >>= f) >>= g).run s = (p >>= fun a => f a >>= g).run s
  rw [run_bind, run_bind, run_bind]
  rcases p.run s with ⟨_ | a, s'⟩ <;> rfl

/-! ## Triples -/

/-- From a state with `P`, a normal end satisfies `Q` and a throw leaves a state with `E`. -/
def Triple (P : σ → Prop) (p : Prog σ ε α) (Q : α → σ → Prop) (E : σ → Prop) : Prop :=
  ∀ s, P s → (∀ a s', p.run s = (.ok a, s') → Q a s') ∧
    (∀ e s', p.run s = (.error e, s') → E s')

/-- The program leaves `I` true, however it ends. -/
def Keeps (I : σ → Prop) (p : Prog σ ε α) : Prop := ∀ s, I s → I (p.exec s)

section Rules

variable {P P' I E E' : σ → Prop} {Q Q' : α → σ → Prop} {R : β → σ → Prop}

theorem Triple.conseq {p : Prog σ ε α} (h : Triple P p Q E) (hP : ∀ s, P' s → P s)
    (hQ : ∀ a s, Q a s → Q' a s) (hE : ∀ s, E s → E' s) : Triple P' p Q' E' := by
  intro s hs
  obtain ⟨hok, herr⟩ := h s (hP s hs)
  exact ⟨fun a s' hr => hQ a s' (hok a s' hr), fun e s' hr => hE s' (herr e s' hr)⟩

theorem Triple.pure {a : α} (h : ∀ s, P s → Q a s) :
    Triple P (pure a : Prog σ ε α) Q E := by
  intro s hs
  refine ⟨fun b s' hr => ?_, fun e s' hr => ?_⟩
  · rw [run_pure] at hr
    cases hr
    exact h s hs
  · rw [run_pure] at hr
    cases hr

theorem Triple.throw {e : ε} (h : ∀ s, P s → E s) :
    Triple P (throw e : Prog σ ε α) Q E := by
  intro s hs
  refine ⟨fun b s' hr => ?_, fun e s' hr => ?_⟩
  · rw [run_throw] at hr
    cases hr
  · rw [run_throw] at hr
    cases hr
    exact h s hs

theorem Triple.bind {p : Prog σ ε α} {f : α → Prog σ ε β} (hp : Triple P p Q E)
    (hf : ∀ a, Triple (Q a) (f a) R E) : Triple P (p >>= f) R E := by
  intro s hs
  obtain ⟨hok, herr⟩ := hp s hs
  rw [run_bind]
  split
  · rename_i a s' hr
    exact hf a s' (hok a s' hr)
  · rename_i e s' hr
    refine ⟨fun b s'' h => ?_, fun e' s'' h => ?_⟩
    · cases h
    · cases h
      exact herr e s' hr

theorem Triple.lift {x : Except ε α} (hok : ∀ a, x = .ok a → ∀ s, P s → Q a s)
    (herr : ∀ s, P s → E s) : Triple P (lift x : Prog σ ε α) Q E := by
  cases x with
  | ok a => exact Triple.pure (hok a rfl)
  | error e => exact Triple.throw herr

theorem Triple.modify {f : σ → σ} {R : PUnit → σ → Prop} (h : ∀ s, P s → R ⟨⟩ (f s)) :
    Triple P (modify f : Prog σ ε PUnit) R E := by
  intro s hs
  refine ⟨fun b s' hr => ?_, fun e s' hr => ?_⟩
  · rw [run_modify] at hr
    cases hr
    exact h s hs
  · rw [run_modify] at hr
    cases hr

/-- A program that reads the state is met by the programs it may turn into. -/
theorem Triple.withState {f : σ → Prog σ ε α} (h : ∀ s, P s → Triple (fun t => t = s) (f s) Q E) :
    Triple P (withState f) Q E := by
  intro s hs
  exact h s hs s rfl

/-- Where a run ends, however it ends. -/
theorem Triple.exec {p : Prog σ ε α} {I : σ → Prop} (h : Triple P p Q E) (hQ : ∀ a s, Q a s → I s)
    (hE : ∀ s, E s → I s) {s : σ} (hs : P s) : I (p.exec s) := by
  obtain ⟨hok, herr⟩ := h s hs
  rw [Prog.exec]
  rcases hr : p.run s with ⟨e | a, s'⟩
  · exact hE s' (herr e s' hr)
  · exact hQ a s' (hok a s' hr)

/-- A loop keeps what its body keeps. -/
theorem Triple.forEach {γ : Type u} {xs : List γ} {f : γ → Prog σ ε PUnit}
    (hf : ∀ x ∈ xs, Triple I (f x) (fun _ => I) E) :
    Triple I (forEach xs f) (fun _ => I) E := by
  induction xs with
  | nil => exact Triple.pure fun _ h => h
  | cons x rest ih =>
    exact Triple.bind (hf x (by simp)) fun _ => ih fun y hy => hf y (by simp [hy])

end Rules

section KeepsRules

variable {I : σ → Prop}

theorem keeps_iff_triple {p : Prog σ ε α} : Keeps I p ↔ Triple I p (fun _ => I) I := by
  constructor
  · intro h s hs
    have hk := h s hs
    refine ⟨fun a s' hr => ?_, fun e s' hr => ?_⟩ <;> rwa [exec, hr] at hk
  · intro h s hs
    obtain ⟨hok, herr⟩ := h s hs
    rw [exec]
    rcases hr : p.run s with ⟨_ | _, s'⟩
    · exact herr _ s' hr
    · exact hok _ s' hr

theorem Keeps.pure (a : α) : Keeps I (pure a : Prog σ ε α) := fun _ h => h

theorem Keeps.throw (e : ε) : Keeps I (throw e : Prog σ ε α) := fun _ h => h

theorem Keeps.gets (f : σ → α) : Keeps I (gets f : Prog σ ε α) := fun _ h => h

theorem Keeps.modify {f : σ → σ} (h : ∀ s, I s → I (f s)) :
    Keeps I (modify f : Prog σ ε PUnit) := h

theorem Keeps.withState {f : σ → Prog σ ε α} (h : ∀ s, I s → I ((f s).exec s)) :
    Keeps I (withState f) := h

theorem Keeps.lift (x : Except ε α) : Keeps I (lift x : Prog σ ε α) := by
  cases x with
  | ok a => exact Keeps.pure a
  | error e => exact Keeps.throw e

theorem Keeps.bind {p : Prog σ ε α} {f : α → Prog σ ε β} (hp : Keeps I p)
    (hf : ∀ a, Keeps I (f a)) : Keeps I (p >>= f) :=
  keeps_iff_triple.2 (Triple.bind (keeps_iff_triple.1 hp) fun a => keeps_iff_triple.1 (hf a))

theorem Keeps.tryCatch {p : Prog σ ε α} {h : ε → Prog σ ε α} (hp : Keeps I p)
    (hh : ∀ e, Keeps I (h e)) : Keeps I (tryCatch p h) := by
  intro s hs
  have hk := hp s hs
  rw [exec] at hk ⊢
  rw [run_tryCatch]
  split
  · rename_i a s' hr
    rwa [hr] at hk
  · rename_i e s' hr
    rw [hr] at hk
    exact hh e s' hk

theorem Keeps.bracket {enter leave : σ → σ} {p : Prog σ ε α} (he : ∀ s, I s → I (enter s))
    (hl : ∀ s, I s → I (leave s)) (hp : Keeps I p) : Keeps I (bracket enter leave p) :=
  fun s hs => hl _ (hp _ (he s hs))

theorem Keeps.atomically {undo : σ → σ → σ} {p : Prog σ ε α}
    (hu : ∀ s s', I s → I s' → I (undo s s')) (hp : Keeps I p) :
    Keeps I (atomically undo p) := by
  intro s hs
  have hk := hp s hs
  rw [exec, run] at hk ⊢
  rw [Prog.atomically]
  split
  · rename_i a s' hr
    rwa [hr] at hk
  · rename_i e s' hr
    rw [hr] at hk
    exact hu s s' hs hk

theorem Keeps.forEach {γ : Type u} {xs : List γ} {f : γ → Prog σ ε PUnit}
    (hf : ∀ x ∈ xs, Keeps I (f x)) : Keeps I (forEach xs f) := by
  induction xs with
  | nil => exact Keeps.pure _
  | cons x rest ih =>
    exact Keeps.bind (hf x (by simp)) fun _ => ih fun y hy => hf y (by simp [hy])

end KeepsRules

end Prog
