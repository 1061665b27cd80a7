import Mathlib.Data.List.Basic

set_option autoImplicit false

/-! # Prefix codes

A code that writes every value as a word can be read back from a longer text when no word is a
prefix of the text of another one. `PrefixFree` says so in the form in which it is used: a text
that begins with a word determines the value and the rest. Words in a row, closed by a symbol that
no word begins with, are such a code for lists. -/

universe u v

variable {α : Type u} {β : Type v}

/-- A text that begins with a word determines the word's value and the rest. -/
def PrefixFree (f : α → List β) : Prop :=
  ∀ a b r r', f a ++ r = f b ++ r' → a = b ∧ r = r'

namespace PrefixFree

variable {f : α → List β}

/-- A code is prefix free if it can be decoded from the front of a text. -/
theorem of_decode {decode : List β → Option (α × List β)}
    (h : ∀ a r, decode (f a ++ r) = some (a, r)) : PrefixFree f := by
  intro a b r r' heq
  have hdecode := h a r
  rw [heq, h b r'] at hdecode
  obtain ⟨hb, hr⟩ := Prod.mk.inj (Option.some.inj hdecode)
  exact ⟨hb.symm, hr.symm⟩

theorem injective (h : PrefixFree f) : Function.Injective f := by
  intro a b heq
  exact (h a b [] [] (by rw [heq])).1

/-- A fixed first symbol. -/
theorem cons (h : PrefixFree f) (x : β) : PrefixFree fun a => x :: f a := by
  intro a b r r' heq
  exact h a b r r' (List.cons.inj heq).2

/-- Words in a row with a closing symbol that begins none of them. -/
theorem block (h : PrefixFree f) {stop : β} (hstop : ∀ a, ∃ x l, f a = x :: l ∧ x ≠ stop) :
    PrefixFree fun as : List α => as.flatMap f ++ [stop] := by
  intro as
  induction as with
  | nil =>
    intro bs r r' heq
    cases bs with
    | nil => exact ⟨rfl, by simpa using heq⟩
    | cons b bs =>
      obtain ⟨x, l, hx, hne⟩ := hstop b
      simp only [List.flatMap_nil, List.flatMap_cons, List.nil_append, hx, List.cons_append,
        List.cons.injEq] at heq
      exact absurd heq.1.symm hne
  | cons a as ih =>
    intro bs r r' heq
    cases bs with
    | nil =>
      obtain ⟨x, l, hx, hne⟩ := hstop a
      simp only [List.flatMap_nil, List.flatMap_cons, List.nil_append, hx, List.cons_append,
        List.cons.injEq] at heq
      exact absurd heq.1 hne
    | cons b bs =>
      simp only [List.flatMap_cons, List.append_assoc] at heq
      obtain ⟨rfl, hrest⟩ := h a b _ _ heq
      obtain ⟨rfl, hr⟩ := ih bs r r' (by simpa using hrest)
      exact ⟨rfl, hr⟩

/-- An optional value: its word, or a word of its own that begins in another way. -/
theorem option (h : PrefixFree f) {x : β} {absent : List β}
    (hx : ∀ a, ∃ y l, f a = y :: l ∧ y ≠ x) :
    PrefixFree fun o : Option α => o.elim (x :: absent) f := by
  intro o o' r r' heq
  cases o with
  | none =>
    cases o' with
    | none => exact ⟨rfl, by simpa using heq⟩
    | some b =>
      obtain ⟨y, l, hy, hne⟩ := hx b
      simp only [Option.elim_none, Option.elim_some, hy, List.cons_append, List.cons.injEq] at heq
      exact absurd heq.1.symm hne
  | some a =>
    cases o' with
    | none =>
      obtain ⟨y, l, hy, hne⟩ := hx a
      simp only [Option.elim_none, Option.elim_some, hy, List.cons_append, List.cons.injEq] at heq
      exact absurd heq.1 hne
    | some b =>
      obtain ⟨rfl, hr⟩ := h a b r r' heq
      exact ⟨rfl, hr⟩

end PrefixFree
