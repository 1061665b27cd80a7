import Mathlib.Data.List.Infix
import Mathlib.Data.List.Induction

set_option autoImplicit false

/-! # Trees as maps from paths

What stands below a directory, by the names on the way to it. Whatever stands somewhere stands in a
directory; the structure carries this, so every call below either gives a tree again or is refused.
A call changes nothing but at the paths it touches (`Call.entry_of_not_mem`), which is all that the
programs on top of it need to say what they leave alone (`Call.kept`). -/

namespace PathTree

/-- What stands at a path. -/
inductive Entry (ρ : Type) where
  | file (content : ρ)
  | directory
  | symlink
  | special
  deriving DecidableEq

structure Tree (ν ρ : Type) where
  entry : List ν → Option (Entry ρ)
  closed : ∀ path name, entry (path ++ [name]) ≠ none → entry path = some .directory

variable {ν ρ : Type}

namespace Tree

/-- Nothing, not even the directory itself. -/
def empty : Tree ν ρ := ⟨fun _ => none, fun _ _ h => absurd rfl h⟩

variable {t t' : Tree ν ρ} {path q above : List ν}

/-- What stands somewhere stands in directories all the way. -/
theorem entry_of_isPrefix (h : above <+: path) (hne : above ≠ path) (hpath : t.entry path ≠ none) :
    t.entry above = some .directory := by
  obtain ⟨rest, rfl⟩ := h
  induction rest using List.reverseRecOn with
  | nil => exact absurd (List.append_nil above).symm hne
  | append_singleton rest name ih =>
    rw [← List.append_assoc] at hpath
    have hparent := t.closed _ _ hpath
    cases rest with
    | nil => rwa [List.append_nil] at hparent
    | cons head rest =>
      refine ih ?_ ?_
      · intro heq
        have := congrArg List.length heq
        simp only [List.length_append, List.length_cons] at this
        omega
      · rw [hparent]
        exact Option.some_ne_none _

/-- The directory that the path is in is there. -/
def HasParent (t : Tree ν ρ) (path : List ν) : Prop :=
  path = [] ∨ t.entry path.dropLast = some .directory

section Put

variable [DecidableEq ν]

/-- With this at a path where no directory stands. -/
def put (t : Tree ν ρ) (path : List ν) (e : Entry ρ) (hparent : t.HasParent path)
    (hfree : t.entry path ≠ some .directory) : Tree ν ρ where
  entry q := if q = path then some e else t.entry q
  closed above name h := by
    have hne : above ≠ above ++ [name] := fun heq => by
      have := congrArg List.length heq
      rw [List.length_append, List.length_singleton] at this
      omega
    by_cases hpath : above ++ [name] = path
    · subst hpath
      rw [if_neg hne]
      rcases hparent with hnil | hparent
      · exact absurd hnil (by simp)
      · rwa [List.dropLast_concat] at hparent
    · rw [if_neg hpath] at h
      have habove := t.closed above name h
      have hne' : above ≠ path := by
        rintro rfl
        exact hfree habove
      rw [if_neg hne', habove]

/-- With nothing at a path where no directory stands. -/
def erase (t : Tree ν ρ) (path : List ν) (hfree : t.entry path ≠ some .directory) : Tree ν ρ where
  entry q := if q = path then none else t.entry q
  closed above name h := by
    by_cases hpath : above ++ [name] = path
    · rw [if_pos hpath] at h
      exact absurd rfl h
    · rw [if_neg hpath] at h
      have habove := t.closed above name h
      have hne' : above ≠ path := by
        rintro rfl
        exact hfree habove
      rw [if_neg hne', habove]

end Put

end Tree

/-! ## Calls -/

/-- A call of the file system that changes it. -/
inductive Call (ν ρ : Type) where
  | mkdir (path : List ν)
  /-- A new empty file; what stands there already is an error. -/
  | create (path : List ν) (blank : ρ)
  /-- The content of a file that is there. -/
  | write (path : List ν) (content : ρ)
  | rename (source target : List ν)
  | unlink (path : List ν)

namespace Call

/-- Where a call may change something. -/
def touched : Call ν ρ → List (List ν)
  | .mkdir path => [path]
  | .create path _ => [path]
  | .write path _ => [path]
  | .rename source target => [source, target]
  | .unlink path => [path]

/-- The file at a path, if one is there. -/
def fileAt (t : Tree ν ρ) (path : List ν) : Option ρ :=
  match t.entry path with
  | some (.file content) => some content
  | _ => none

theorem fileAt_eq_some {t : Tree ν ρ} {path : List ν} {content : ρ} :
    fileAt t path = some content ↔ t.entry path = some (.file content) := by
  unfold fileAt
  split
  · next c h => rw [h, Option.some.injEq, Option.some.injEq, Entry.file.injEq]
  · next h =>
    exact ⟨fun heq => absurd heq.symm (Option.some_ne_none _), fun heq => absurd heq (h _)⟩

variable [DecidableEq ν] [DecidableEq ρ]

instance (t : Tree ν ρ) (path : List ν) : Decidable (t.HasParent path) :=
  inferInstanceAs (Decidable (_ ∨ _))

/-- The file at a path, new or in the place of what stood there, unless it was a directory. -/
def place (t : Tree ν ρ) (path : List ν) (content : ρ) : Option (Tree ν ρ) :=
  if h : t.HasParent path ∧ t.entry path ≠ some .directory then
    some (t.put path (.file content) h.1 h.2)
  else none

/-- Without what stands at a path, unless it is a directory. -/
def drop (t : Tree ν ρ) (path : List ν) : Option (Tree ν ρ) :=
  if h : t.entry path ≠ none ∧ t.entry path ≠ some .directory then some (t.erase path h.2) else none

/-- The tree after a call, if it does not throw. -/
def apply : Call ν ρ → Tree ν ρ → Option (Tree ν ρ)
  | .mkdir path, t =>
    if t.entry path = some .directory then some t
    else if h : t.HasParent path ∧ t.entry path = none then
      some (t.put path .directory h.1 (fun heq => Option.some_ne_none _ (heq.symm.trans h.2)))
    else none
  | .create path blank, t => if t.entry path = none then place t path blank else none
  | .write path content, t => if (fileAt t path).isSome then place t path content else none
  | .rename source target, t =>
    (fileAt t source).bind fun content => (drop t source).bind fun rest => place rest target content
  | .unlink path, t => drop t path

section

variable {t t' : Tree ν ρ} {path source target q : List ν} {content : ρ}

theorem entry_place (h : place t path content = some t') (q : List ν) :
    t'.entry q = if q = path then some (.file content) else t.entry q := by
  unfold place at h
  split_ifs at h
  obtain rfl := Option.some.inj h
  rfl

theorem entry_drop (h : drop t path = some t') (q : List ν) :
    t'.entry q = if q = path then none else t.entry q := by
  unfold drop at h
  split_ifs at h
  obtain rfl := Option.some.inj h
  rfl

theorem entry_mkdir (h : (mkdir path : Call ν ρ).apply t = some t') :
    (t.entry path = none ∨ t.entry path = some .directory) ∧
      ∀ q, t'.entry q = if q = path then some .directory else t.entry q := by
  simp only [apply] at h
  split_ifs at h with hdir hnone
  · obtain rfl := Option.some.inj h
    refine ⟨.inr hdir, fun q => ?_⟩
    split_ifs with hq
    · rw [hq, hdir]
    · rfl
  · obtain rfl := Option.some.inj h
    exact ⟨.inl hnone.2, fun q => rfl⟩

theorem entry_create {blank : ρ} (h : (create path blank).apply t = some t') :
    t.entry path = none ∧ ∀ q, t'.entry q = if q = path then some (.file blank) else t.entry q := by
  simp only [apply] at h
  split_ifs at h with hnone
  exact ⟨hnone, entry_place h⟩

theorem entry_write (h : (write path content).apply t = some t') (q : List ν) :
    t'.entry q = if q = path then some (.file content) else t.entry q := by
  simp only [apply] at h
  split_ifs at h
  exact entry_place h q

theorem entry_rename (h : (rename source target : Call ν ρ).apply t = some t') :
    ∃ content, t.entry source = some (.file content) ∧
      ∀ q, t'.entry q = if q = target then some (.file content)
        else if q = source then none else t.entry q := by
  obtain ⟨content, hcontent, hrest⟩ := Option.bind_eq_some_iff.1 h
  obtain ⟨rest, hdrop, hplace⟩ := Option.bind_eq_some_iff.1 hrest
  refine ⟨content, fileAt_eq_some.1 hcontent, fun q => ?_⟩
  rw [entry_place hplace, entry_drop hdrop]

theorem entry_unlink (h : (unlink path : Call ν ρ).apply t = some t') (q : List ν) :
    t'.entry q = if q = path then none else t.entry q := entry_drop h q

/-- A call leaves alone what it does not touch. -/
theorem entry_of_not_mem {c : Call ν ρ} (h : c.apply t = some t') (hq : q ∉ c.touched) :
    t'.entry q = t.entry q := by
  cases c with
  | mkdir path => rw [(entry_mkdir h).2, if_neg (List.mem_singleton.not.1 hq)]
  | create path blank => rw [(entry_create h).2, if_neg (List.mem_singleton.not.1 hq)]
  | write path content => rw [entry_write h, if_neg (List.mem_singleton.not.1 hq)]
  | rename source target =>
    obtain ⟨content, -, hentry⟩ := entry_rename h
    obtain ⟨hsource, htarget⟩ := not_or.1 (List.mem_cons.not.1 hq)
    rw [hentry, if_neg (List.mem_singleton.not.1 htarget), if_neg hsource]
  | unlink path => rw [entry_unlink h, if_neg (List.mem_singleton.not.1 hq)]

/-- Two trees that differ only at paths of one kind. -/
def Kept (Free : List ν → Prop) (t t' : Tree ν ρ) : Prop := ∀ q, ¬ Free q → t'.entry q = t.entry q

/-- A call that touches only such paths. -/
theorem kept {Free : List ν → Prop} {start : Tree ν ρ} {c : Call ν ρ} (hstart : Kept Free start t)
    (h : c.apply t = some t') (htouched : ∀ q ∈ c.touched, Free q) : Kept Free start t' := by
  intro q hq
  rw [entry_of_not_mem h (fun hmem => hq (htouched q hmem)), hstart q hq]

end

end Call

end PathTree
