import Mathlib.Data.List.Basic
import Mathlib.Data.List.Induction

set_option autoImplicit false

/-! # Hash chains

Every link holds a body, the hash of the link before it, and a hash of both. When the hash loses
nothing and never gives the value that stands before the first link, the hash of one link commits
to all links up to it: two chains that agree in it agree in everything before it, and it stands at
the same place in both. -/

universe u v

variable {H : Type u} {B : Type v}

/-- A link of a chain. -/
structure Link (H : Type u) (B : Type v) where
  prev : H
  body : B
  hash : H

/-- The links continue a chain whose last hash is the first argument. -/
def Chain (digest : H → B → H) : H → List (Link H B) → Prop
  | _, [] => True
  | p, link :: rest => link.prev = p ∧ link.hash = digest p link.body ∧ Chain digest link.hash rest

/-- The hash that the next link of a chain refers to. -/
def lastHash (p : H) (links : List (Link H B)) : H :=
  (links.getLast?.map Link.hash).getD p

@[simp] theorem lastHash_nil (p : H) : lastHash p ([] : List (Link H B)) = p := rfl

@[simp] theorem lastHash_cons (p : H) (link : Link H B) (rest : List (Link H B)) :
    lastHash p (link :: rest) = lastHash link.hash rest := by
  cases rest with
  | nil => rfl
  | cons next rest => simp [lastHash, List.getLast?_cons]

@[simp] theorem lastHash_append_singleton (p : H) (links : List (Link H B)) (link : Link H B) :
    lastHash p (links ++ [link]) = link.hash := by
  simp [lastHash]

namespace Chain

variable {digest : H → B → H} {p genesis : H} {links links' : List (Link H B)}

theorem append_iff : Chain digest p (links ++ links') ↔
    Chain digest p links ∧ Chain digest (lastHash p links) links' := by
  induction links generalizing p with
  | nil => simp [Chain]
  | cons link rest ih =>
    simp only [List.cons_append, Chain, ih, lastHash_cons]
    tauto

/-- In a chain that is not empty the last hash is a digest. -/
theorem lastHash_ne (h : Chain digest p links) (hne : links ≠ []) (hp : ∀ q b, digest q b ≠ p) :
    lastHash p links ≠ p := by
  obtain ⟨front, link, rfl⟩ := (List.eq_nil_or_concat' links).resolve_left hne
  obtain ⟨-, hlink⟩ := append_iff.1 h
  rw [lastHash_append_singleton, hlink.2.1]
  exact hp _ _

/-- **Commitment.** Two chains from the same value that end in the same hash are the same. -/
theorem eq_of_lastHash (hinj : ∀ q b q' b', digest q b = digest q' b' → q = q' ∧ b = b')
    (hgenesis : ∀ q b, digest q b ≠ genesis) (h : Chain digest genesis links)
    (h' : Chain digest genesis links') (hlast : lastHash genesis links = lastHash genesis links') :
    links = links' := by
  induction links using List.reverseRecOn generalizing links' with
  | nil =>
    by_contra hne
    exact h'.lastHash_ne (Ne.symm hne) hgenesis hlast.symm
  | append_singleton front link ih =>
    have hne : links' ≠ [] := by
      rintro rfl
      exact h.lastHash_ne (by simp) hgenesis hlast
    obtain ⟨front', link', rfl⟩ := (List.eq_nil_or_concat' links').resolve_left hne
    obtain ⟨hfront, hprev, hhash, -⟩ := append_iff.1 h
    obtain ⟨hfront', hprev', hhash', -⟩ := append_iff.1 h'
    rw [lastHash_append_singleton, lastHash_append_singleton] at hlast
    -- the digests agree, so the bodies do, and the hashes before
    obtain ⟨hbefore, hbody⟩ := hinj _ _ _ _ (hhash.symm.trans (hlast.trans hhash'))
    have heq : link = link' := by
      cases link
      cases link'
      simp_all
    rw [heq, ih hfront hfront' hbefore]

end Chain
