import WoodFiredTasks.Lib.Prog

set_option autoImplicit false

/-! # Programs that swallow exceptions and remember them

Some code catches an exception deep inside and goes on, keeping the error in a side field so
that an outer layer can raise it again. A postcondition for normal ends says little about such
a program, because it may end normally after an error. A `Discipline` follows three things
through a run: what no step ever changes (`frame`), how many exceptions were raised so far
(`count`), and whether the side field holds an error (`bad`). A program holds the discipline
when a run in which nothing was raised ends normally, with the postcondition, and every other
run still shows its error, as a throw or in the side field. The postcondition is a relation
between the *views* of the first and the last state, the part of the state it is about. -/

universe u v

/-- What is followed through a run. -/
structure Discipline (σ : Type u) (ν : Type v) where
  /-- The part of a state that postconditions speak about. -/
  view : σ → ν
  /-- What every run respects, whether it ends well or not. -/
  frame : σ → σ → Prop
  frame_refl : ∀ s, frame s s
  frame_trans : ∀ {s₁ s₂ s₃}, frame s₁ s₂ → frame s₂ s₃ → frame s₁ s₃
  /-- The number of exceptions raised so far. -/
  count : σ → Nat
  count_le : ∀ {s s'}, frame s s' → count s ≤ count s'
  /-- The side field holds an error. -/
  bad : σ → Prop
  bad_mono : ∀ {s s'}, frame s s' → bad s → bad s'

namespace Discipline

variable {σ ε α β : Type u} {ν : Type v} {D : Discipline σ ν}

/-- How a run from `s` ended. -/
structure Outcome (D : Discipline σ ν) (s : σ) (r : Except ε α) (s' : σ)
    (Q : ν → α → ν → Prop) : Prop where
  frame : D.frame s s'
  quiet : D.count s' = D.count s → ¬ D.bad s →
    ¬ D.bad s' ∧ ∃ a, r = .ok a ∧ Q (D.view s) a (D.view s')
  noisy : D.count s < D.count s' → (∃ e, r = .error e) ∨ D.bad s'

/-- From every state with `P` the program holds the discipline, with postcondition `Q`. -/
def Holds (D : Discipline σ ν) (P : σ → Prop) (p : Prog σ ε α) (Q : ν → α → ν → Prop) : Prop :=
  ∀ s, P s → D.Outcome s (p.run s).1 (p.run s).2 Q

/-- An assumption that runs cannot destroy. -/
def Stable (D : Discipline σ ν) (P : σ → Prop) : Prop := ∀ s s', P s → D.frame s s' → P s'

variable {P P' : σ → Prop} {Q Q' : ν → α → ν → Prop} {R : α → ν → β → ν → Prop}

theorem Holds.conseq {p : Prog σ ε α} (h : D.Holds P p Q) (hP : ∀ s, P' s → P s)
    (hQ : ∀ v a v', Q v a v' → Q' v a v') : D.Holds P' p Q' := by
  intro s hs
  obtain ⟨hframe, hquiet, hnoisy⟩ := h s (hP s hs)
  refine ⟨hframe, fun hc hb => ?_, hnoisy⟩
  obtain ⟨hb', a, hr, hq⟩ := hquiet hc hb
  exact ⟨hb', a, hr, hQ _ _ _ hq⟩

theorem Holds.pure (a : α) (h : ∀ s, P s → Q (D.view s) a (D.view s)) :
    D.Holds P (pure a : Prog σ ε α) Q := by
  intro s hs
  refine ⟨D.frame_refl s, fun _ hb => ⟨hb, a, rfl, h s hs⟩, fun hc => ?_⟩
  exact absurd hc (Nat.lt_irrefl _)

theorem Holds.gets (f : σ → α) (h : ∀ s, P s → Q (D.view s) (f s) (D.view s)) :
    D.Holds P (Prog.gets f : Prog σ ε α) Q := by
  intro s hs
  refine ⟨D.frame_refl s, fun _ hb => ⟨hb, f s, rfl, h s hs⟩, fun hc => ?_⟩
  exact absurd hc (Nat.lt_irrefl _)

theorem Holds.bind {p : Prog σ ε α} {f : α → Prog σ ε β} (hst : D.Stable P)
    (hp : D.Holds P p Q) (hf : ∀ a, D.Holds P (f a) (R a)) :
    D.Holds P (p >>= f) fun v b v'' => ∃ a v', Q v a v' ∧ R a v' b v'' := by
  intro s hs
  obtain ⟨hframe, hquiet, hnoisy⟩ := hp s hs
  rw [Prog.run_bind]
  rcases hr : p.run s with ⟨e | a, s'⟩ <;> rw [hr] at hframe hquiet hnoisy
  · refine ⟨hframe, fun hc hb => ?_, fun _ => .inl ⟨e, rfl⟩⟩
    obtain ⟨-, a, ha, -⟩ := hquiet hc hb
    cases ha
  · obtain ⟨hframe', hquiet', hnoisy'⟩ := hf a s' (hst s s' hs hframe)
    have hle := D.count_le hframe
    have hle' := D.count_le hframe'
    refine ⟨D.frame_trans hframe hframe', fun hc hb => ?_, fun hc => ?_⟩
    · have htotal : D.count ((f a).run s').2 = D.count s := hc
      have hfirst : D.count s' = D.count s := by
        have : D.count s ≤ D.count s' := hle
        omega
      obtain ⟨hb', a', ha', hq⟩ := hquiet hfirst hb
      cases ha'
      obtain ⟨hb'', b, hr', hq'⟩ := hquiet' (htotal.trans hfirst.symm) hb'
      exact ⟨hb'', b, hr', a, D.view s', hq, hq'⟩
    · by_cases hc' : D.count s < D.count s'
      · rcases hnoisy hc' with ⟨e, he⟩ | hb
        · cases he
        · exact .inr (D.bad_mono hframe' hb)
      · have htotal : D.count s < D.count ((f a).run s').2 := hc
        exact hnoisy' (by omega)

/-- A loop whose body acts on the view as a function acts as the fold of that function. -/
theorem Holds.forEach {γ : Type u} {f : γ → Prog σ ε PUnit} {g : ν → γ → ν}
    (hst : D.Stable P) (xs : List γ)
    (hf : ∀ x ∈ xs, D.Holds P (f x) fun v _ v' => v' = g v x) :
    D.Holds P (Prog.forEach xs f) fun v _ v' => v' = xs.foldl g v := by
  induction xs with
  | nil => exact Holds.pure _ fun _ _ => rfl
  | cons x rest ih =>
    have hbody := hf x (by simp)
    have hrest := ih fun y hy => hf y (by simp [hy])
    refine (Holds.bind hst hbody fun _ => hrest).conseq (fun _ h => h) ?_
    rintro v a v'' ⟨_, _, rfl, hr⟩
    exact hr

/-- `try { p } catch (e) { mark(e) }`, where `mark` records the error: it never throws. -/
theorem Holds.catchInto {p : Prog σ ε α} {mark : ε → Prog σ ε α} (hp : D.Holds P p Q)
    (hmark : ∀ e s, D.frame s ((mark e).exec s) ∧ D.bad ((mark e).exec s) ∧
      D.count ((mark e).exec s) = D.count s) :
    D.Holds P (Prog.tryCatch p mark) Q := by
  intro s hs
  obtain ⟨hframe, hquiet, hnoisy⟩ := hp s hs
  rw [Prog.run_tryCatch]
  rcases hr : p.run s with ⟨e | a, s'⟩ <;> rw [hr] at hframe hquiet hnoisy
  · obtain ⟨hf, hb, hcount⟩ := hmark e s'
    rw [Prog.exec] at hf hb hcount
    refine ⟨D.frame_trans hframe hf, fun hc hbad => ?_, fun _ => .inr hb⟩
    obtain ⟨-, a, ha, -⟩ := hquiet (hcount.symm.trans hc) hbad
    cases ha
  · exact ⟨hframe, hquiet, hnoisy⟩

/-- A bracket whose entry and exit the discipline does not see. -/
theorem Holds.bracket {p : Prog σ ε α} {enter leave : σ → σ} (hp : D.Holds P' p Q)
    (hP : ∀ s, P s → P' (enter s))
    (hframe : ∀ s s', P s → D.frame (enter s) s' → D.frame s (leave s'))
    (hcount : ∀ s, D.count (enter s) = D.count s ∧ D.count (leave s) = D.count s)
    (hbad : ∀ s, (D.bad (enter s) ↔ D.bad s) ∧ (D.bad (leave s) ↔ D.bad s))
    (hQ : ∀ s s' a, P s → D.frame (enter s) s' → Q (D.view (enter s)) a (D.view s') →
      Q' (D.view s) a (D.view (leave s'))) :
    D.Holds P (Prog.bracket enter leave p) Q' := by
  intro s hs
  obtain ⟨hf, hquiet, hnoisy⟩ := hp (enter s) (hP s hs)
  rw [Prog.run_bracket]
  refine ⟨hframe s _ hs hf, fun hc hb => ?_, fun hc => ?_⟩
  · rw [(hcount _).2, ← (hcount s).1] at hc
    obtain ⟨hb', a, hr, hq⟩ := hquiet hc ((hbad s).1.not.2 hb)
    exact ⟨(hbad _).2.not.2 hb', a, hr, hQ s _ a hs hf hq⟩
  · rw [(hcount _).2, ← (hcount s).1] at hc
    exact (hnoisy hc).imp id (hbad _).2.2

/-- Undoing a thrown program's writes, where the undoing keeps the count and the side field. -/
theorem Holds.atomically {p : Prog σ ε α} {undo : σ → σ → σ} (hp : D.Holds P p Q)
    (hframe : ∀ s s', D.frame s s' → D.frame s (undo s s'))
    (hcount : ∀ s s', D.count (undo s s') = D.count s') :
    D.Holds P (Prog.atomically undo p) Q := by
  intro s hs
  obtain ⟨hf, hquiet, hnoisy⟩ := hp s hs
  rw [Prog.run, Prog.atomically]
  rcases hr : p.run s with ⟨e | a, s'⟩ <;> rw [hr] at hf hquiet hnoisy <;> rw [Prog.run] at hr <;>
    rw [hr]
  · refine ⟨hframe s s' hf, fun hc hb => ?_, fun _ => .inl ⟨e, rfl⟩⟩
    obtain ⟨-, a, ha, -⟩ := hquiet ((hcount s s').symm.trans hc) hb
    cases ha
  · exact ⟨hf, hquiet, hnoisy⟩

end Discipline
