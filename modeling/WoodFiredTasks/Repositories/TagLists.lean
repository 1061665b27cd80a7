import Mathlib.Data.List.Sort
import WoodFiredTasks.Db.Migrate
import WoodFiredTasks.Lib.PrefixCode
import WoodFiredTasks.Lib.Text

set_option autoImplicit false

/-! # The tags of a listed row

A statement of `src/repositories/task.repository.ts` that returns many rows has the tags of each in
one text: SQLite joins them with commas, in an order of its own, and the code splits the text again
and sorts the parts. -/

namespace WoodFiredTasks

open Migrate (codeUnits textLe)

/-- `GROUP_CONCAT(tt.tag, ',')`: `NULL` when no row of `task_tags` was joined. -/
def tagsCsv (tags : List String) : Option String :=
  if tags = [] then none else some (",".intercalate tags)

/-- `tags_csv ? tags_csv.split(',').sort() : []`. -/
def splitTags : Option String → List String
  | none => []
  | some csv =>
    if csv = "" then []
    else ((csv.toList.splitOn ',').map String.ofList).insertionSort textLe

/-! ## The order of `sort()` -/

section Order

/-- The words of `codeUnits`. -/
def unitsOf (c : Char) : List Nat :=
  if c.toNat < 0x10000 then [c.toNat]
  else [0xD800 + (c.toNat - 0x10000) / 0x400, 0xDC00 + (c.toNat - 0x10000) % 0x400]

/-- No unit of a character in one unit begins a pair. -/
theorem toNat_surrogates (c : Char) : c.toNat < 0xD800 ∨ 0xDFFF < c.toNat ∧ c.toNat < 0x110000 :=
  c.valid

theorem prefixFree_unitsOf : PrefixFree unitsOf := by
  intro a b r r' heq
  have ha := toNat_surrogates a
  have hb := toNat_surrogates b
  have hcode : a.toNat = b.toNat → a = b := fun h => Char.toNat_inj.1 h
  unfold unitsOf at heq
  split at heq <;> split at heq <;> simp only [List.cons_append, List.nil_append,
    List.cons.injEq] at heq
  · exact ⟨hcode heq.1, heq.2⟩
  · omega
  · omega
  · exact ⟨hcode (by omega), heq.2.2⟩

theorem codeUnits_injective {a b : String} (h : codeUnits a = codeUnits b) : a = b := by
  have hunits : ∀ xs ys : List Char, xs.flatMap unitsOf = ys.flatMap unitsOf → xs = ys := by
    intro xs
    induction xs with
    | nil =>
      intro ys heq
      cases ys with
      | nil => rfl
      | cons y ys =>
        rw [List.flatMap_nil, List.flatMap_cons, unitsOf] at heq
        split at heq <;> simp at heq
    | cons x xs ih =>
      intro ys heq
      cases ys with
      | nil =>
        rw [List.flatMap_nil, List.flatMap_cons, unitsOf] at heq
        split at heq <;> simp at heq
      | cons y ys =>
        obtain ⟨rfl, hrest⟩ := prefixFree_unitsOf x y _ _ heq
        rw [ih ys hrest]
  exact String.toList_inj.1 (hunits a.toList b.toList h)

instance : Std.Total textLe := ⟨fun a b => le_total (codeUnits a) (codeUnits b)⟩
instance : IsTrans String textLe := ⟨fun _ _ _ h h' => le_trans h h'⟩
instance : Std.Antisymm textLe := ⟨fun _ _ h h' => codeUnits_injective (le_antisymm h h')⟩

/-- Two orders sort a list in the same way if and only if they agree on its elements. -/
theorem insertionSort_eq_iff {α : Type} {r s : α → α → Prop} [DecidableRel r] [DecidableRel s]
    [Std.Total r] [IsTrans α r] [Std.Antisymm r] [Std.Total s] [IsTrans α s] [Std.Antisymm s]
    {xs : List α} :
    xs.insertionSort r = xs.insertionSort s ↔ ∀ a ∈ xs, ∀ b ∈ xs, s a b → r a b := by
  have hr := List.pairwise_insertionSort r xs
  have hs := List.pairwise_insertionSort s xs
  constructor
  · intro h a ha b hb hab
    rw [h] at hr
    obtain ⟨i, hi, rfl⟩ := List.mem_iff_getElem.1 ((List.mem_insertionSort s).2 ha)
    obtain ⟨j, hj, rfl⟩ := List.mem_iff_getElem.1 ((List.mem_insertionSort s).2 hb)
    rcases Nat.lt_trichotomy i j with hlt | rfl | hgt
    · exact List.pairwise_iff_getElem.1 hr i j hi hj hlt
    · exact (total_of r _ _).elim id id
    · -- the two are equal, for the list has them the other way round
      have heq := antisymm (r := s) hab (List.pairwise_iff_getElem.1 hs j i hj hi hgt)
      rw [heq]
      exact (total_of r _ _).elim id id
  · intro h
    have hsorted : (xs.insertionSort s).Pairwise r := hs.imp_of_mem fun ha hb hab =>
      h _ ((List.mem_insertionSort s).1 ha) _ ((List.mem_insertionSort s).1 hb) hab
    exact ((List.perm_insertionSort r xs).trans (List.perm_insertionSort s xs).symm).eq_of_pairwise'
      hr hsorted

end Order

/-! ## What comes back -/

section Splitting

variable {tags : List String}

/-- The parts of one tag. -/
def partsOf (tag : String) : List String := (tag.toList.splitOn ',').map String.ofList

/-- A text that is joined and split again has the parts of what was joined. -/
theorem splitOn_intercalate_flatMap {c : Char} {texts : List (List Char)} (hne : texts ≠ []) :
    ([c].intercalate texts).splitOn c = texts.flatMap (·.splitOn c) := by
  induction texts with
  | nil => exact absurd rfl hne
  | cons text rest ih =>
    by_cases hrest : rest = []
    · simp [hrest]
    · rw [List.intercalate_cons_of_ne_nil hrest, List.append_assoc, List.singleton_append,
        List.splitOn_append_cons_self, ih hrest, List.flatMap_cons]

theorem intercalate_comma_eq_empty (hne : tags ≠ []) :
    ",".intercalate tags = "" ↔ tags = [""] := by
  constructor
  · intro h
    have hlist : [','].intercalate (tags.map String.toList) = [] := by
      rw [← String.toList_eq_nil_iff, String.toList_intercalate] at h
      exact h
    cases tags with
    | nil => exact absurd rfl hne
    | cons tag rest =>
      cases rest with
      | nil => simpa using hlist
      | cons next rest => simp at hlist
  · rintro rfl
    rfl

/-- What is read of tags that the statement joined. -/
theorem splitTags_tagsCsv (hne : tags ≠ []) (hblank : tags ≠ [""]) :
    splitTags (tagsCsv tags) = (tags.flatMap partsOf).insertionSort textLe := by
  have hparts : ((",".intercalate tags).toList.splitOn ',').map String.ofList =
      tags.flatMap partsOf := by
    rw [String.toList_intercalate, show ",".toList = [','] from rfl,
      splitOn_intercalate_flatMap (by simpa using hne), List.flatMap_map, List.map_flatMap]
    rfl
  rw [tagsCsv, if_neg hne, splitTags, if_neg (by rwa [intercalate_comma_eq_empty hne]), hparts]

/-- The order in which the statement joined the tags is lost. -/
theorem splitTags_perm {tags' : List String} (h : tags.Perm tags') :
    splitTags (tagsCsv tags) = splitTags (tagsCsv tags') := by
  by_cases hne : tags = []
  · rw [hne] at h
    rw [hne, h.nil_eq]
  by_cases hblank : tags = [""]
  · rw [hblank] at h
    rw [hblank, List.singleton_perm.1 h]
  have hne' : tags' ≠ [] := fun hnil => hne (by rw [hnil] at h; exact h.eq_nil)
  have hblank' : tags' ≠ [""] := fun hone => hblank (by rw [hone] at h; exact List.perm_singleton.1 h)
  rw [splitTags_tagsCsv hne hblank, splitTags_tagsCsv hne' hblank']
  have hflat := h.flatMap_right partsOf
  have hsorted : ((tags.flatMap partsOf).insertionSort textLe).Perm
      ((tags'.flatMap partsOf).insertionSort textLe) :=
    (List.perm_insertionSort _ _).trans (hflat.trans (List.perm_insertionSort _ _).symm)
  exact hsorted.eq_of_pairwise' (List.pairwise_insertionSort textLe _)
    (List.pairwise_insertionSort textLe _)

/-- No tag has a comma, and no two tags are in another order as sequences of UTF-16 units than as
    sequences of characters. A lone empty tag, which the schemas refuse, is lost as well. -/
structure KeepsTags (tags : List String) : Prop where
  noComma : ∀ tag ∈ tags, ',' ∉ tag.toList
  sameOrder : ∀ a ∈ tags, ∀ b ∈ tags, a ≤ b → textLe a b
  notBlank : tags ≠ [""]

/-- The tags come back as `ORDER BY tag` has them if and only if they survive the text. -/
theorem splitTags_eq_iff :
    splitTags (tagsCsv tags) = tags.insertionSort (· ≤ ·) ↔ KeepsTags tags := by
  by_cases hne : tags = []
  · subst hne
    exact ⟨fun _ => ⟨by simp, by simp, by simp⟩, fun _ => rfl⟩
  by_cases hblank : tags = [""]
  · subst hblank
    exact ⟨fun h => absurd h (by decide), fun h => absurd rfl h.notBlank⟩
  rw [splitTags_tagsCsv hne hblank]
  have hflat : (∀ tag ∈ tags, ',' ∉ tag.toList) → tags.flatMap partsOf = tags := by
    intro hcomma
    have hone : ∀ tag ∈ tags, partsOf tag = [tag] := by
      intro tag htag
      rw [partsOf, List.splitOn_eq_singleton (hcomma tag htag), List.map_singleton,
        String.ofList_toList]
    rw [List.flatMap_congr hone]
    simp
  constructor
  · intro h
    have hcomma : ∀ tag ∈ tags, ',' ∉ tag.toList := by
      intro tag htag
      -- the tag is one of the parts, none of which has a comma
      have hpart : tag ∈ tags.flatMap partsOf := by
        rw [← List.mem_insertionSort textLe, h, List.mem_insertionSort]
        exact htag
      obtain ⟨whole, -, hpart⟩ := List.mem_flatMap.1 hpart
      obtain ⟨chars, hchars, rfl⟩ := List.mem_map.1 hpart
      rw [String.toList_ofList]
      exact separator_notMem_splitOn chars hchars
    rw [hflat hcomma] at h
    exact ⟨hcomma, insertionSort_eq_iff.1 h, hblank⟩
  · intro h
    rw [hflat h.noComma]
    exact insertionSort_eq_iff.2 h.sameOrder

end Splitting

end WoodFiredTasks
