import Mathlib.Data.List.Basic

set_option autoImplicit false

/-! # File trees and their edits

A directory is the list of its entries in the order a reader meets them; an entry is a leaf (what a
file system keeps under a name that is not a directory) or a directory. An edit puts a leaf in
place, makes a directory, removes an entry with all below it, or renames one. Whatever the edit,
a leaf of the tree after it is the one that the edit put, or stood in the tree before
(`Edit.mem_leaves_apply`): a rename moves leaves and makes none. -/

namespace FileTree

mutual

/-- What stands under a name. -/
inductive Node (ν ρ : Type) where
  | leaf (content : ρ)
  | directory (entries : Dirents ν ρ)

/-- The entries of a directory. -/
inductive Dirents (ν ρ : Type) where
  | nil
  | cons (name : ν) (node : Node ν ρ) (rest : Dirents ν ρ)

end

variable {ν ρ : Type}

/-! ## Leaves -/

mutual

/-- The leaves at a node or below it. -/
def Node.leaves : Node ν ρ → List ρ
  | .leaf content => [content]
  | .directory entries => entries.leaves

/-- The leaves below a directory. -/
def Dirents.leaves : Dirents ν ρ → List ρ
  | .nil => []
  | .cons _ node rest => node.leaves ++ rest.leaves

end

namespace Dirents

theorem mem_leaves_cons {name : ν} {node : Node ν ρ} {rest : Dirents ν ρ} {content : ρ} :
    content ∈ (cons name node rest).leaves ↔ content ∈ node.leaves ∨ content ∈ rest.leaves := by
  rw [leaves, List.mem_append]

variable [DecidableEq ν]

/-! ## One directory -/

/-- The entry of this name. -/
def find (name : ν) : Dirents ν ρ → Option (Node ν ρ)
  | .nil => none
  | .cons name' node rest => if name' = name then some node else rest.find name

/-- Without the entry of this name. -/
def erase (name : ν) : Dirents ν ρ → Dirents ν ρ
  | .nil => .nil
  | .cons name' node rest => if name' = name then rest else .cons name' node (rest.erase name)

/-- With the node under this name, in the place of what stood there. -/
def insert (name : ν) (node : Node ν ρ) : Dirents ν ρ → Dirents ν ρ
  | .nil => .cons name node .nil
  | .cons name' node' rest =>
    if name' = name then .cons name node rest else .cons name' node' (rest.insert name node)

/-- With this under the name, if anything. -/
def set (name : ν) (entries : Dirents ν ρ) : Option (Node ν ρ) → Dirents ν ρ
  | none => entries.erase name
  | some node => entries.insert name node

variable {name : ν} {node : Node ν ρ} {content : ρ}

theorem mem_leaves_of_find (hmem : content ∈ node.leaves) :
    (entries : Dirents ν ρ) → entries.find name = some node → content ∈ entries.leaves
  | .nil, h => by cases h
  | .cons name' node' rest, h => by
    rw [mem_leaves_cons]
    rw [find] at h
    by_cases heq : name' = name
    · rw [if_pos heq, Option.some.injEq] at h
      exact .inl (h ▸ hmem)
    · rw [if_neg heq] at h
      exact .inr (mem_leaves_of_find hmem rest h)

theorem mem_leaves_of_erase :
    (entries : Dirents ν ρ) → content ∈ (entries.erase name).leaves → content ∈ entries.leaves
  | .nil, h => h
  | .cons name' node' rest, h => by
    rw [mem_leaves_cons]
    rw [erase] at h
    by_cases heq : name' = name
    · rw [if_pos heq] at h
      exact .inr h
    · rw [if_neg heq, mem_leaves_cons] at h
      exact h.imp_right (mem_leaves_of_erase rest)

theorem mem_leaves_of_insert :
    (entries : Dirents ν ρ) → content ∈ (entries.insert name node).leaves →
      content ∈ entries.leaves ∨ content ∈ node.leaves
  | .nil, h => by
    rw [insert, mem_leaves_cons] at h
    exact h.symm
  | .cons name' node' rest, h => by
    rw [mem_leaves_cons]
    rw [insert] at h
    by_cases heq : name' = name
    · rw [if_pos heq, mem_leaves_cons] at h
      exact h.symm.imp_left .inr
    · rw [if_neg heq, mem_leaves_cons] at h
      rcases h with hnode | hrest
      · exact .inl (.inl hnode)
      · exact (mem_leaves_of_insert rest hrest).imp_left .inr

/-! ## Paths -/

/-- What stands at a path. -/
def lookup : List ν → Dirents ν ρ → Option (Node ν ρ)
  | [], _ => none
  | [name], entries => entries.find name
  | name :: path, entries =>
    match entries.find name with
    | some (.directory sub) => sub.lookup path
    | _ => none

/-- What stands at a path is changed to what `f` makes of it, if it allows that; the directories
    above must be there. -/
def update (f : Option (Node ν ρ) → Option (Option (Node ν ρ))) :
    List ν → Dirents ν ρ → Option (Dirents ν ρ)
  | [], _ => none
  | [name], entries => (f (entries.find name)).map (entries.set name)
  | name :: path, entries =>
    match entries.find name with
    | some (.directory sub) =>
      (sub.update f path).map fun sub' => entries.insert name (.directory sub')
    | _ => none

theorem mem_leaves_of_lookup {path : List ν} {entries : Dirents ν ρ}
    (h : entries.lookup path = some node) (hmem : content ∈ node.leaves) :
    content ∈ entries.leaves := by
  induction path generalizing entries with
  | nil => cases h
  | cons name path ih =>
    cases path with
    | nil => exact mem_leaves_of_find hmem entries h
    | cons name' path =>
      rw [lookup] at h
      · split at h
        · next sub hsub => exact mem_leaves_of_find (ih h) entries hsub
        · cases h
      · simp

/-- A leaf of the tree after an update came with what `f` made, or stood there before. -/
theorem mem_leaves_of_update {f : Option (Node ν ρ) → Option (Option (Node ν ρ))} {path : List ν}
    {entries entries' : Dirents ν ρ} (h : entries.update f path = some entries')
    (hmem : content ∈ entries'.leaves) :
    content ∈ entries.leaves ∨ ∃ old node, f old = some (some node) ∧ content ∈ node.leaves := by
  induction path generalizing entries entries' with
  | nil => cases h
  | cons name path ih =>
    cases path with
    | nil =>
      obtain ⟨made, hmade, rfl⟩ := Option.map_eq_some_iff.1 h
      cases made with
      | none => exact .inl (mem_leaves_of_erase entries hmem)
      | some node =>
        exact (mem_leaves_of_insert entries hmem).imp_right fun hnode => ⟨_, node, hmade, hnode⟩
    | cons name' path =>
      rw [update] at h
      · split at h
        · next sub hsub =>
          obtain ⟨sub', hsub', rfl⟩ := Option.map_eq_some_iff.1 h
          rcases mem_leaves_of_insert entries hmem with hold | hnew
          · exact .inl hold
          · exact (ih hsub' hnew).imp_left fun hmem' => mem_leaves_of_find hmem' entries hsub
        · cases h
      · simp

end Dirents

/-! ## Edits -/

/-- A change of the tree. -/
inductive Edit (ν ρ : Type) where
  | put (path : List ν) (content : ρ)
  | mkdir (path : List ν)
  | remove (path : List ν)
  | rename (source target : List ν)
  deriving Repr

namespace Edit

variable [DecidableEq ν]

/-- The tree after an edit, if it can be made: a leaf does not take the place of a directory, and a
    directory is not made where something stands. -/
def apply : Edit ν ρ → Dirents ν ρ → Option (Dirents ν ρ)
  | .put path content, entries =>
    entries.update (fun
      | some (.directory _) => none
      | _ => some (some (.leaf content))) path
  | .mkdir path, entries =>
    entries.update (fun
      | none => some (some (.directory .nil))
      | some _ => none) path
  | .remove path, entries => entries.update (Option.map fun _ => none) path
  | .rename source target, entries =>
    (entries.lookup source).bind fun node =>
      (entries.update (Option.map fun _ => none) source).bind fun rest =>
        rest.update (fun _ => some (some node)) target

theorem mem_leaves_of_remove {path : List ν} {entries entries' : Dirents ν ρ} {content : ρ}
    (h : entries.update (Option.map fun _ => none) path = some entries')
    (hmem : content ∈ entries'.leaves) : content ∈ entries.leaves := by
  rcases Dirents.mem_leaves_of_update h hmem with hold | ⟨old, node, hnew, -⟩
  · exact hold
  · cases old <;> cases hnew

/-- A leaf of the tree after an edit is the one it put, or stood in the tree before. -/
theorem mem_leaves_apply {edit : Edit ν ρ} {entries entries' : Dirents ν ρ} {content : ρ}
    (h : edit.apply entries = some entries') (hmem : content ∈ entries'.leaves) :
    content ∈ entries.leaves ∨ ∃ path, edit = .put path content := by
  cases edit with
  | put path new =>
    rcases Dirents.mem_leaves_of_update h hmem with hold | ⟨old, node, hnew, hnode⟩
    · exact .inl hold
    · refine .inr ⟨path, ?_⟩
      split at hnew
      · cases hnew
      · cases hnew
        rw [Node.leaves, List.mem_singleton] at hnode
        rw [hnode]
  | mkdir path =>
    rcases Dirents.mem_leaves_of_update h hmem with hold | ⟨old, node, hnew, hnode⟩
    · exact .inl hold
    · split at hnew
      · cases hnew
        cases hnode
      · cases hnew
  | remove path => exact .inl (mem_leaves_of_remove h hmem)
  | rename source target =>
    obtain ⟨moved, hmoved, hrest⟩ := Option.bind_eq_some_iff.1 h
    obtain ⟨rest, hremove, htarget⟩ := Option.bind_eq_some_iff.1 hrest
    rcases Dirents.mem_leaves_of_update htarget hmem with hold | ⟨old, node, hnew, hnode⟩
    · exact .inl (mem_leaves_of_remove hremove hold)
    · cases hnew
      exact .inl (Dirents.mem_leaves_of_lookup hmoved hnode)

end Edit
end FileTree
