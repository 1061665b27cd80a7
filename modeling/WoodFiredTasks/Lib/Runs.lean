import Mathlib.Data.List.Basic

set_option autoImplicit false

/-! # Runs of a transition function

A run is the list of the actions that are taken one after the other from a state. `RunOk` asks of
every action that it meets a condition on the state it is taken in, `Always` asks it of every state
that is reached; an invariant that every such step keeps holds in every state of such a run. -/

universe u v

variable {σ : Type u} {α : Type v} {step : σ → α → σ}

/-- Every action of the run meets the condition in the state that it is taken in. -/
def RunOk (step : σ → α → σ) (C : σ → α → Prop) : σ → List α → Prop
  | _, [] => True
  | s, a :: rest => C s a ∧ RunOk step C (step s a) rest

instance (step : σ → α → σ) (C : σ → α → Prop) [∀ s a, Decidable (C s a)] :
    ∀ s as, Decidable (RunOk step C s as)
  | _, [] => isTrue trivial
  | s, a :: rest =>
    have := instDecidableRunOk step C (step s a) rest
    inferInstanceAs (Decidable (C s a ∧ RunOk step C (step s a) rest))

/-- Some action of the run meets the condition in the state that it is taken in. -/
def RunSome (step : σ → α → σ) (C : σ → α → Prop) : σ → List α → Prop
  | _, [] => False
  | s, a :: rest => C s a ∨ RunSome step C (step s a) rest

instance (step : σ → α → σ) (C : σ → α → Prop) [∀ s a, Decidable (C s a)] :
    ∀ s as, Decidable (RunSome step C s as)
  | _, [] => isFalse id
  | s, a :: rest =>
    have := instDecidableRunSome step C (step s a) rest
    inferInstanceAs (Decidable (C s a ∨ RunSome step C (step s a) rest))

/-- The property holds in every state of the run, the first and the last one included. -/
def Always (step : σ → α → σ) (P : σ → Prop) : σ → List α → Prop
  | s, [] => P s
  | s, a :: rest => P s ∧ Always step P (step s a) rest

namespace RunOk

variable {C C' : σ → α → Prop} {I P : σ → Prop} {s : σ} {as bs : List α}

theorem mono (h : RunOk step C s as) (hC : ∀ s a, C s a → C' s a) : RunOk step C' s as := by
  induction as generalizing s with
  | nil => trivial
  | cons a rest ih => exact ⟨hC s a h.1, ih h.2⟩

theorem and (h : RunOk step C s as) (h' : RunOk step C' s as) :
    RunOk step (fun s a => C s a ∧ C' s a) s as := by
  induction as generalizing s with
  | nil => trivial
  | cons a rest ih => exact ⟨⟨h.1, h'.1⟩, ih h.2 h'.2⟩

/-- Under an invariant of the steps, one condition may imply another. -/
theorem mono_of_invariant (h : RunOk step C s as) (hs : I s)
    (hstep : ∀ s a, I s → C s a → I (step s a)) (hC : ∀ s a, I s → C s a → C' s a) :
    RunOk step C' s as := by
  induction as generalizing s with
  | nil => trivial
  | cons a rest ih => exact ⟨hC s a hs h.1, ih h.2 (hstep s a hs h.1)⟩

theorem append_iff : RunOk step C s (as ++ bs) ↔
    RunOk step C s as ∧ RunOk step C (as.foldl step s) bs := by
  induction as generalizing s with
  | nil => simp [RunOk]
  | cons a rest ih =>
    simp only [List.cons_append, RunOk, ih, List.foldl_cons]
    exact and_assoc.symm

/-- What is true of every action of every run. -/
theorem of_forall (h : ∀ s, ∀ a ∈ as, C s a) : RunOk step C s as := by
  induction as generalizing s with
  | nil => trivial
  | cons a rest ih =>
    exact ⟨h s a List.mem_cons_self, ih fun s b hb => h s b (List.mem_cons_of_mem a hb)⟩

/-- An invariant of the steps that meet the condition is one of the runs that do. -/
theorem invariant (h : RunOk step C s as) (hstep : ∀ s a, I s → C s a → I (step s a)) (hs : I s) :
    I (as.foldl step s) := by
  induction as generalizing s with
  | nil => exact hs
  | cons a rest ih => exact ih h.2 (hstep s a hs h.1)

/-- Such an invariant holds in every state that is reached. -/
theorem always (h : RunOk step C s as) (hstep : ∀ s a, I s → C s a → I (step s a)) (hs : I s) :
    Always step I s as := by
  induction as generalizing s with
  | nil => exact hs
  | cons a rest ih => exact ⟨hs, ih h.2 (hstep s a hs h.1)⟩

end RunOk

/-- Under an invariant, a run that makes a property true has a step that does. -/
theorem RunSome.of_change {C : σ → α → Prop} {I P : σ → Prop} {s : σ} {as : List α}
    (hstep : ∀ s a, I s → I (step s a)) (hC : ∀ s a, I s → ¬ P s → P (step s a) → C s a) (hs : I s)
    (hP : ¬ P s) (hP' : P (as.foldl step s)) : RunSome step C s as := by
  induction as generalizing s with
  | nil => exact absurd hP' hP
  | cons a rest ih =>
    by_cases hnext : P (step s a)
    · exact .inl (hC s a hs hP hnext)
    · exact .inr (ih (hstep s a hs) hnext hP')

/-- The same for a run whose steps meet a condition. -/
theorem RunOk.some_of_change {C C' : σ → α → Prop} {I P : σ → Prop} {s : σ} {as : List α}
    (h : RunOk step C s as) (hstep : ∀ s a, I s → C s a → I (step s a))
    (hC : ∀ s a, I s → C s a → ¬ P s → P (step s a) → C' s a) (hs : I s) (hP : ¬ P s)
    (hP' : P (as.foldl step s)) : RunSome step C' s as := by
  induction as generalizing s with
  | nil => exact absurd hP' hP
  | cons a rest ih =>
    by_cases hnext : P (step s a)
    · exact .inl (hC s a hs h.1 hP hnext)
    · exact .inr (ih h.2 (hstep s a hs h.1) hnext hP')

namespace Always

variable {C : σ → α → Prop} {P Q : σ → Prop} {s : σ} {as : List α}

theorem start (h : Always step P s as) : P s := by
  cases as with
  | nil => exact h
  | cons a rest => exact h.1

theorem last (h : Always step P s as) : P (as.foldl step s) := by
  induction as generalizing s with
  | nil => exact h
  | cons a rest ih => exact ih h.2

theorem mono (h : Always step P s as) (hP : ∀ s, P s → Q s) : Always step Q s as := by
  induction as generalizing s with
  | nil => exact hP s h
  | cons a rest ih => exact ⟨hP s h.1, ih h.2⟩

/-- What follows for every step from the states before and after it. -/
theorem runOk (h : Always step P s as) (hC : ∀ s a, P s → P (step s a) → C s a) :
    RunOk step C s as := by
  induction as generalizing s with
  | nil => trivial
  | cons a rest ih => exact ⟨hC s a h.1 h.2.start, ih h.2⟩

end Always
