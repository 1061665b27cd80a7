import Mathlib.Logic.Relation

set_option autoImplicit false

/-! # Relations without cycles -/

universe u

variable {α : Type u} {r r' : α → α → Prop}

/-- No element reaches itself. -/
def Acyclic (r : α → α → Prop) : Prop := ∀ x, ¬ Relation.TransGen r x x

namespace Acyclic

/-- A relation with fewer edges has no more cycles. -/
theorem mono (h : Acyclic r) (hsub : ∀ x y, r' x y → r x y) : Acyclic r' :=
  fun x hcycle => h x (Relation.TransGen.mono hsub x x hcycle)

/-- A path over one more edge uses it or not. -/
theorem path_of_insert {a b : α} (hsub : ∀ x y, r' x y → r x y ∨ (x = a ∧ y = b)) {x y : α}
    (h : Relation.TransGen r' x y) :
    Relation.TransGen r x y ∨ (Relation.ReflTransGen r x a ∧ Relation.ReflTransGen r b y) := by
  induction h using Relation.TransGen.head_induction_on with
  | single hxy =>
    rcases hsub _ _ hxy with hr | ⟨rfl, rfl⟩
    · exact .inl (.single hr)
    · exact .inr ⟨.refl, .refl⟩
  | head hxz _ ih =>
    rcases hsub _ _ hxz with hr | ⟨rfl, rfl⟩
    · exact ih.imp (.head hr) fun h => ⟨.head hr h.1, h.2⟩
    · exact .inr ⟨.refl, ih.elim Relation.TransGen.to_reflTransGen And.right⟩

/-- A new edge closes no cycle if there was no path from its end to its start. -/
theorem insert {a b : α} (h : Acyclic r) (hpath : ¬ Relation.ReflTransGen r b a)
    (hsub : ∀ x y, r' x y → r x y ∨ (x = a ∧ y = b)) : Acyclic r' := by
  intro x hcycle
  rcases path_of_insert hsub hcycle with hr | ⟨hxa, hbx⟩
  · exact h x hr
  · exact hpath (hbx.trans hxa)

end Acyclic
