import WoodFiredTasks.Db.Migrate

set_option autoImplicit false

/-! # Slack mrkdwn

A JavaScript text is the list of its UTF-16 code units, so that `slice` may cut between the two
units of a character. In a mrkdwn text Slack reads `<…>` as a control sequence and `&amp;`, `&lt;`
and `&gt;` as the three characters; a text is *inert* if it has no angle bracket and each of its
ampersands begins one of the three. -/

namespace WoodFiredTasks.Slack

open Migrate (codeUnits)

/-- A JavaScript text. -/
abbrev JsText := List Nat

/-- The code unit of `&`. -/
def amp : Nat := 0x26

/-- The code unit of `<`. -/
def lt : Nat := 0x3C

/-- The code unit of `>`. -/
def gt : Nat := 0x3E

/-! ## Escaping -/

/-- `s.replace(/c/g, r)`, for a single character. -/
def replaceAll (c : Nat) (r : JsText) (s : JsText) : JsText :=
  s.flatMap fun u => if u = c then r else [u]

/-- `escapeSlackMrkdwn` of a text. -/
def escape (s : JsText) : JsText :=
  replaceAll gt (codeUnits "&gt;") (replaceAll lt (codeUnits "&lt;")
    (replaceAll amp (codeUnits "&amp;") s))

/-- `escapeSlackMrkdwn`; an absent value gives the empty text. -/
def escapeSlackMrkdwn (value : Option JsText) : JsText := (value.map escape).getD []

/-- What stands for one code unit. -/
def entity (u : Nat) : JsText :=
  if u = amp then codeUnits "&amp;"
  else if u = lt then codeUnits "&lt;"
  else if u = gt then codeUnits "&gt;"
  else [u]

/-- The three passes are one, since the ampersand comes first. -/
theorem escape_eq (s : JsText) : escape s = s.flatMap entity := by
  induction s with
  | nil => rfl
  | cons u rest ih =>
    have happend : ∀ (c : Nat) (r x y : JsText),
        replaceAll c r (x ++ y) = replaceAll c r x ++ replaceAll c r y := by
      intro c r x y
      simp [replaceAll]
    have hone : escape [u] = entity u := by
      by_cases hamp : u = amp
      · subst hamp
        decide
      · by_cases hlt : u = lt
        · subst hlt
          decide
        · by_cases hgt : u = gt
          · subst hgt
            decide
          · simp [escape, replaceAll, entity, hamp, hlt, hgt]
    have hcons : escape (u :: rest) = escape [u] ++ escape rest := by
      show escape ([u] ++ rest) = _
      simp only [escape, happend]
    rw [hcons, hone, ih, List.flatMap_cons]

/-! ## Reading -/

/-- The text as Slack shows it, where `&`, `a`, `m`, `p`, `;`, `l`, `t` and `g` are 38, 97, 109,
    112, 59, 108, 116 and 103. -/
def unescape : JsText → JsText
  | 38 :: 97 :: 109 :: 112 :: 59 :: rest => amp :: unescape rest
  | 38 :: 108 :: 116 :: 59 :: rest => lt :: unescape rest
  | 38 :: 103 :: 116 :: 59 :: rest => gt :: unescape rest
  | u :: rest => u :: unescape rest
  | [] => []

/-- What follows an ampersand makes it one of the three entities. -/
def beginsEntity (rest : JsText) : Bool :=
  (codeUnits "amp;").isPrefixOf rest || (codeUnits "lt;").isPrefixOf rest ||
    (codeUnits "gt;").isPrefixOf rest

/-- No angle bracket, and every ampersand begins an entity. -/
def isInert : JsText → Bool
  | [] => true
  | u :: rest => u ≠ lt && u ≠ gt && (u ≠ amp || beginsEntity rest) && isInert rest

/-- None of the three characters. -/
def isPlain (s : JsText) : Bool := s.all fun u => u ≠ amp && u ≠ lt && u ≠ gt

theorem unescape_cons {u : Nat} (hu : u ≠ amp) (rest : JsText) :
    unescape (u :: rest) = u :: unescape rest := by
  rw [unescape.eq_def (u :: rest)]
  split <;> simp_all [amp]

/-- Escaping is undone exactly. -/
theorem unescape_escape (s : JsText) : unescape (escape s) = s := by
  rw [escape_eq]
  induction s with
  | nil => rfl
  | cons u rest ih =>
    rw [List.flatMap_cons]
    by_cases hamp : u = amp
    · subst hamp
      show amp :: unescape (rest.flatMap entity) = amp :: rest
      rw [ih]
    · by_cases hlt : u = lt
      · subst hlt
        show lt :: unescape (rest.flatMap entity) = lt :: rest
        rw [ih]
      · by_cases hgt : u = gt
        · subst hgt
          show gt :: unescape (rest.flatMap entity) = gt :: rest
          rw [ih]
        · have hself : entity u = [u] := by simp [entity, hamp, hlt, hgt]
          rw [hself, List.singleton_append, unescape_cons hamp, ih]

theorem beginsEntity_append {x y : JsText} (h : beginsEntity x = true) :
    beginsEntity (x ++ y) = true := by
  simp only [beginsEntity, Bool.or_eq_true, List.isPrefixOf_iff_prefix] at h ⊢
  rcases h with (h | h) | h
  · exact Or.inl (Or.inl (h.trans (List.prefix_append x y)))
  · exact Or.inl (Or.inr (h.trans (List.prefix_append x y)))
  · exact Or.inr (h.trans (List.prefix_append x y))

theorem isInert_append {x y : JsText} (hx : isInert x = true) (hy : isInert y = true) :
    isInert (x ++ y) = true := by
  induction x with
  | nil => exact hy
  | cons u rest ih =>
    simp only [isInert, List.cons_append, Bool.and_eq_true, Bool.or_eq_true] at hx ⊢
    refine ⟨⟨hx.1.1, ?_⟩, ih hx.2⟩
    rcases hx.1.2 with hu | hentity
    · exact Or.inl hu
    · exact Or.inr (beginsEntity_append hentity)

theorem isInert_of_append {x y : JsText} (h : isInert (x ++ y) = true) : isInert y = true := by
  induction x with
  | nil => exact h
  | cons u rest ih =>
    simp only [List.cons_append, isInert, Bool.and_eq_true] at h
    exact ih h.2

theorem isInert_of_isPlain {s : JsText} (h : isPlain s = true) : isInert s = true := by
  induction s with
  | nil => rfl
  | cons u rest ih =>
    simp only [isPlain, List.all_cons, Bool.and_eq_true, decide_eq_true_eq] at h
    have hrest : isInert rest = true := ih (by simpa [isPlain] using h.2)
    simp [isInert, h.1.1.1, h.1.1.2, h.1.2, hrest]

/-- An escaped text is inert. -/
theorem isInert_escape (s : JsText) : isInert (escape s) = true := by
  rw [escape_eq]
  induction s with
  | nil => rfl
  | cons u rest ih =>
    rw [List.flatMap_cons]
    refine isInert_append ?_ ih
    unfold entity
    split
    · decide
    · split
      · decide
      · split
        · decide
        · simp_all [isInert]

/-- Escaping changes nothing exactly in the plain texts, and reading them changes nothing. -/
theorem unescape_of_isPlain {s : JsText} (h : isPlain s = true) : unescape s = s := by
  induction s with
  | nil => rfl
  | cons u rest ih =>
    simp only [isPlain, List.all_cons, Bool.and_eq_true, decide_eq_true_eq] at h
    rw [unescape_cons h.1.1.1, ih (by simpa [isPlain] using h.2)]

theorem length_unescape_le (s : JsText) : (unescape s).length ≤ s.length := by
  fun_induction unescape s <;> simp_all <;> omega

/-- A prefix without line feeds does not reach into what follows a line. -/
theorem prefix_of_prefix_append {p x suffix : JsText} (hp : 10 ∉ p)
    (hsuffix : suffix = [] ∨ suffix.head? = some 10) (h : p <+: x ++ suffix) : p <+: x := by
  induction x generalizing p with
  | nil =>
    cases p with
    | nil => exact List.nil_prefix
    | cons c rest =>
      rcases hsuffix with rfl | hhead
      · simp at h
      · obtain ⟨tail, htail⟩ := h
        simp only [List.nil_append, List.cons_append] at htail
        rw [← htail] at hhead
        simp only [List.head?_cons, Option.some.injEq] at hhead
        exact absurd (by simp [hhead]) hp
  | cons u rest ih =>
    cases p with
    | nil => exact List.nil_prefix
    | cons c tail =>
      rw [List.cons_append, List.cons_prefix_cons] at h
      rw [List.cons_prefix_cons]
      exact ⟨h.1, ih (fun hmem => hp (by simp [hmem])) h.2⟩

theorem beginsEntity_of_append {x suffix : JsText}
    (hsuffix : suffix = [] ∨ suffix.head? = some 10) (h : beginsEntity (x ++ suffix) = true) :
    beginsEntity x = true := by
  simp only [beginsEntity, Bool.or_eq_true, List.isPrefixOf_iff_prefix] at h ⊢
  rcases h with (h | h) | h
  · exact Or.inl (Or.inl (prefix_of_prefix_append (by decide) hsuffix h))
  · exact Or.inl (Or.inr (prefix_of_prefix_append (by decide) hsuffix h))
  · exact Or.inr (prefix_of_prefix_append (by decide) hsuffix h)

/-- Reading an entity makes the text shorter. -/
theorem unescape_ne_self {rest : JsText} (h : beginsEntity rest = true) :
    unescape (amp :: rest) ≠ amp :: rest := by
  simp only [beginsEntity, Bool.or_eq_true, List.isPrefixOf_iff_prefix] at h
  intro hself
  have hlength := congrArg List.length hself
  rcases h with (⟨tail, rfl⟩ | ⟨tail, rfl⟩) | ⟨tail, rfl⟩
  · have hread : unescape (amp :: (codeUnits "amp;" ++ tail)) = amp :: unescape tail := rfl
    have hle := length_unescape_le tail
    rw [hread] at hlength
    simp [codeUnits] at hlength
    omega
  · have hread : unescape (amp :: (codeUnits "lt;" ++ tail)) = lt :: unescape tail := rfl
    have hle := length_unescape_le tail
    rw [hread] at hlength
    simp [codeUnits] at hlength
    omega
  · have hread : unescape (amp :: (codeUnits "gt;" ++ tail)) = gt :: unescape tail := rfl
    have hle := length_unescape_le tail
    rw [hread] at hlength
    simp [codeUnits] at hlength
    omega

/-- At the end of a line, an inert text that reads as itself has none of the three characters. -/
theorem isPlain_of_unescape_eq_self {s suffix : JsText}
    (hsuffix : suffix = [] ∨ suffix.head? = some 10) (hinert : isInert (s ++ suffix) = true)
    (hself : unescape s = s) : isPlain s = true := by
  induction s with
  | nil => rfl
  | cons u rest ih =>
    simp only [List.cons_append, isInert, Bool.and_eq_true, Bool.or_eq_true,
      decide_eq_true_eq] at hinert
    have hamp : u ≠ amp := by
      rintro rfl
      rcases hinert.1.2 with hne | hentity
      · exact hne rfl
      · exact unescape_ne_self (beginsEntity_of_append hsuffix hentity) hself
    rw [unescape_cons hamp, List.cons.injEq] at hself
    have hrest := ih hinert.2 hself.2
    simp only [isPlain, List.all_cons, Bool.and_eq_true, decide_eq_true_eq]
    exact ⟨⟨⟨hamp, hinert.1.1.1⟩, hinert.1.1.2⟩, by simpa [isPlain] using hrest⟩

end WoodFiredTasks.Slack
