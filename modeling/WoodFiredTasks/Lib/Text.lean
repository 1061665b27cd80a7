import Mathlib.Data.List.Basic

set_option autoImplicit false

/-! # Texts

The digits of a number, and texts that are joined by a separator. -/

/-! ## Digits -/

theorem isDigit_of_mem_toString {n : Nat} {c : Char} (h : c ∈ (toString n).toList) :
    c.isDigit = true := by
  have hdigits : c ∈ Nat.toDigits 10 n := by simpa using h
  exact Nat.isDigit_of_mem_toDigits (by decide) (by decide) hdigits

theorem toString_nat_inj {m n : Nat} : toString m = toString n ↔ m = n := by
  constructor
  · intro h
    have hdigits : Nat.toDigits 10 m = Nat.toDigits 10 n := by
      simpa using congrArg String.toList h
    rw [← Nat.ofDigitChars_ten_toDigits (n := m), hdigits, Nat.ofDigitChars_ten_toDigits]
  · intro h
    rw [h]

theorem nul_notMem_toString (n : Nat) : '\x00' ∉ (toString n).toList := by
  intro h
  exact absurd (isDigit_of_mem_toString h) (by decide)

theorem nul_notMem_toString_int (n : Int) : '\x00' ∉ (toString n).toList := by
  cases n with
  | ofNat m => exact nul_notMem_toString m
  | negSucc m =>
    intro h
    have hdigits : '\x00' ∈ (toString (m + 1)).toList := by simpa [toString, Int.repr] using h
    exact nul_notMem_toString (m + 1) hdigits

/-! ## Separators -/

/-- What follows the first separator of a text. -/
theorem afterFirst_inj {α : Type} {c : α} {xs xs' ys ys' : List α} (hxs : c ∉ xs) (hxs' : c ∉ xs')
    (h : xs ++ c :: ys = xs' ++ c :: ys') : ys = ys' := by
  induction xs generalizing xs' with
  | nil =>
    cases xs' with
    | nil => simpa using h
    | cons x rest =>
      simp only [List.nil_append, List.cons_append, List.cons.injEq] at h
      exact absurd (by simp [h.1]) hxs'
  | cons x rest ih =>
    cases xs' with
    | nil =>
      simp only [List.nil_append, List.cons_append, List.cons.injEq] at h
      exact absurd (by simp [h.1]) hxs
    | cons x' rest' =>
      simp only [List.cons_append, List.cons.injEq] at h
      exact ih (fun hc => hxs (List.mem_cons_of_mem _ hc))
        (fun hc => hxs' (List.mem_cons_of_mem _ hc)) h.2

/-- A part without the separator lies on one side of it. -/
theorem infix_of_infix_separator {α : Type} {c : α} {p xs ys : List α} (hp : c ∉ p)
    (h : p <:+: xs ++ c :: ys) : p <:+: xs ∨ p <:+: ys := by
  -- what starts at the separator is empty, because the part does not hold it
  have hempty : ∀ {q : List α}, c ∉ q → q <+: c :: ys → q = [] := by
    intro q hq hprefix
    cases q with
    | nil => rfl
    | cons a rest => exact absurd (List.cons_prefix_cons.1 hprefix).1 fun h => hq (by simp [h])
  rcases List.infix_append_iff.1 h with hleft | hright | ⟨q, q', rfl, hsuffix, hprefix⟩
  · exact .inl hleft
  · rcases List.infix_cons_iff.1 hright with hprefix | hinfix
    · rw [hempty hp hprefix]
      exact .inl List.nil_infix
    · exact .inr hinfix
  · rw [hempty (fun hc => hp (List.mem_append_right q hc)) hprefix, List.append_nil]
    exact .inl hsuffix.isInfix

/-- A part without the separator lies in one of the texts that are joined. -/
theorem infix_intercalate_iff {α : Type} {c : α} {p : List α} (hp : c ∉ p) :
    ∀ {texts : List (List α)}, texts ≠ [] →
      (p <:+: [c].intercalate texts ↔ ∃ text ∈ texts, p <:+: text)
  | [text], _ => by simp
  | text :: next :: rest, _ => by
    have ih := infix_intercalate_iff hp (List.cons_ne_nil next rest)
    rw [List.intercalate_cons_cons, List.append_assoc, List.singleton_append]
    constructor
    · intro h
      rcases infix_of_infix_separator hp h with hfirst | hrest
      · exact ⟨text, List.mem_cons_self, hfirst⟩
      · obtain ⟨part, hpart, hinfix⟩ := ih.1 hrest
        exact ⟨part, List.mem_cons_of_mem _ hpart, hinfix⟩
    · intro h
      obtain ⟨part, hpart, hinfix⟩ := h
      rcases List.mem_cons.1 hpart with rfl | hmem
      · exact hinfix.trans (List.prefix_append _ _).isInfix
      · have hrest := ih.2 ⟨part, hmem, hinfix⟩
        exact (hrest.trans (List.suffix_cons _ _).isInfix).trans (List.suffix_append _ _).isInfix

/-- No piece of a list that is split holds the separator. -/
theorem separator_notMem_splitOn {α : Type} [BEq α] [LawfulBEq α] {c : α} {xs : List α} :
    ∀ piece ∈ xs.splitOn c, c ∉ piece := by
  induction xs with
  | nil => simp
  | cons x rest ih =>
    rw [List.splitOn_cons_eq_if_modifyHead]
    split
    · intro piece hpiece
      rcases List.mem_cons.1 hpiece with rfl | hrest
      · exact List.not_mem_nil
      · exact ih piece hrest
    · rename_i hx
      obtain ⟨first, others, heq⟩ := List.exists_cons_of_ne_nil (List.splitOn_ne_nil c rest)
      rw [heq] at ih
      rw [heq, List.modifyHead_cons]
      intro piece hpiece
      -- the element goes to the front of the first piece
      rcases List.mem_cons.1 hpiece with rfl | hothers
      · intro hc
        rcases List.mem_cons.1 hc with rfl | hfirst
        · exact hx (by simp)
        · exact ih first List.mem_cons_self hfirst
      · exact ih piece (List.mem_cons_of_mem _ hothers)

/-- What comes before the last separator of a text. -/
theorem beforeLast_inj {α : Type} {c : α} {xs xs' ys ys' : List α} (hys : c ∉ ys) (hys' : c ∉ ys')
    (h : xs ++ c :: ys = xs' ++ c :: ys') : xs = xs' := by
  have hreverse := congrArg List.reverse h
  simp only [List.reverse_append, List.reverse_cons, List.append_assoc, List.singleton_append]
    at hreverse
  have hxs := afterFirst_inj (by simpa using hys) (by simpa using hys') hreverse
  exact List.reverse_injective hxs
