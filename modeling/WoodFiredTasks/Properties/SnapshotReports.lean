import WoodFiredTasks.Scm.NoneBackend
import WoodFiredTasks.Lib.Runs
import Mathlib.Data.Set.Insert

set_option autoImplicit false

/-! # What the snapshot backend reports

The shortcut of the walk trusts a record whose size and `mtime` a file still has. Where every write
takes a later time from the clock, an `mtime` names one write for ever: whatever bears it, moved or
not, is what that write left. So the record is the one that reading the file would make, and the
reports are those of a walk that reads every file. -/

namespace WoodFiredTasks.Scm.Snapshot

open FileTree
open SlashPath (Text)

variable {sha256 : List UInt8 → String}

/-! ## Records -/

/-- The record of a leaf whose bytes are read. -/
def Leaf.entry (sha256 : List UInt8 → String) (rel : Text) : Leaf → Option NoneManifestEntry
  | .file content mtimeMs =>
    some (fileEntry sha256 (fun _ => none) none rel content mtimeMs)
  | .symbolicLink target mtimeMs => some (linkEntry sha256 rel target mtimeMs)
  | .other => none

/-- The record is that of one of these leaves. -/
def Records (sha256 : List UInt8 → String) (leaves : Set Leaf) (e : NoneManifestEntry) : Prop :=
  ∃ leaf ∈ leaves, leaf.entry sha256 e.path = some e

/-- No two of these leaves were written at the same time. -/
def Distinct (leaves : Set Leaf) : Prop :=
  ∀ a ∈ leaves, ∀ b ∈ leaves, ∀ t, a.mtimeMs = some t → b.mtimeMs = some t → a = b

theorem Leaf.mtimeMs_of_entry {leaf : Leaf} {rel : Text} {e : NoneManifestEntry}
    (h : leaf.entry sha256 rel = some e) : leaf.mtimeMs = some e.mtimeMs := by
  cases leaf with
  | file content t =>
    cases h
    rfl
  | symbolicLink target t =>
    cases h
    rfl
  | other => cases h

theorem Records.mono {known known' : Set Leaf} (hsub : known ⊆ known') {e : NoneManifestEntry}
    (h : Records sha256 known e) : Records sha256 known' e := by
  obtain ⟨leaf, hleaf, he⟩ := h
  exact ⟨leaf, hsub hleaf, he⟩

theorem byPath_eq_some {entries : List NoneManifestEntry} {path : Text} {e : NoneManifestEntry}
    (h : byPath entries path = some e) : e ∈ entries ∧ e.path = path := by
  have hmem := List.mem_of_find?_eq_some h
  have hpath := List.find?_some h
  exact ⟨List.mem_reverse.1 hmem, by simpa using hpath⟩

/-! ## The shortcut -/

/-- A record that is taken over is the one that reading the file would make. -/
theorem fileEntry_eq {known : Set Leaf} {entries : List NoneManifestEntry} {content : List UInt8}
    {mtimeMs : ℚ} (hdistinct : Distinct known) (hentries : ∀ e ∈ entries, Records sha256 known e)
    (hfile : Leaf.file content mtimeMs ∈ known) (cutoff : Option ℚ) (rel : Text) :
    fileEntry sha256 (byPath entries) cutoff rel content mtimeMs =
      fileEntry sha256 (fun _ => none) none rel content mtimeMs := by
  unfold fileEntry
  cases hprev : byPath entries rel with
  | none => rfl
  | some previous =>
    obtain ⟨hmem, rfl⟩ := byPath_eq_some hprev
    dsimp only
    split_ifs with hsame
    · obtain ⟨-, hmtime, -⟩ := hsame
      obtain ⟨leaf, hleaf, hentry⟩ := hentries previous hmem
      -- the `mtime` leads back to the write that the record was made of
      have hleaf_eq : leaf = .file content mtimeMs :=
        hdistinct leaf hleaf _ hfile mtimeMs (hmtime ▸ Leaf.mtimeMs_of_entry hentry) rfl
      rw [hleaf_eq] at hentry
      exact (Option.some.inj hentry).symm
    · rfl

section Walk

variable {known : Set Leaf} {entries : List NoneManifestEntry}

mutual

theorem walkNode_eq (hdistinct : Distinct known)
    (hentries : ∀ e ∈ entries, Records sha256 known e) (ignore : List Text) (cutoff : Option ℚ) :
    (node : Node Text Leaf) → (∀ leaf ∈ node.leaves, leaf ∈ known) → (rel : Text) →
      walkNode sha256 ignore (byPath entries) cutoff rel node =
        walkNode sha256 ignore (fun _ => none) none rel node
  | .leaf (.symbolicLink target t), _, rel => by rw [walkNode, walkNode]
  | .leaf .other, _, rel => by rw [walkNode, walkNode]
  | .leaf (.file content t), hknown, rel => by
    have hfile : Leaf.file content t ∈ known := hknown _ (List.mem_singleton_self _)
    rw [walkNode, walkNode, fileEntry_eq hdistinct hentries hfile]
  | .directory sub, hknown, rel => by
    rw [walkNode, walkNode]
    exact walk_eq hdistinct hentries ignore cutoff sub hknown rel

theorem walk_eq (hdistinct : Distinct known)
    (hentries : ∀ e ∈ entries, Records sha256 known e) (ignore : List Text) (cutoff : Option ℚ) :
    (root : Dirents Text Leaf) → (∀ leaf ∈ root.leaves, leaf ∈ known) → (dir : Text) →
      walk sha256 ignore (byPath entries) cutoff dir root =
        walk sha256 ignore (fun _ => none) none dir root
  | .nil, _, dir => by rw [walk, walk]
  | .cons name node rest, hknown, dir => by
    have hnode : ∀ leaf ∈ node.leaves, leaf ∈ known := fun leaf hleaf =>
      hknown leaf (Dirents.mem_leaves_cons.2 (.inl hleaf))
    have hrest : ∀ leaf ∈ rest.leaves, leaf ∈ known := fun leaf hleaf =>
      hknown leaf (Dirents.mem_leaves_cons.2 (.inr hleaf))
    rw [walk, walk, walkNode_eq hdistinct hentries ignore cutoff node hnode,
      walk_eq hdistinct hentries ignore cutoff rest hrest]

end

/-- The walk of a later tree makes the records that reading every file makes. -/
theorem buildEntries_eq {root : Dirents Text Leaf} (hdistinct : Distinct known)
    (hentries : ∀ e ∈ entries, Records sha256 known e)
    (hknown : ∀ leaf ∈ root.leaves, leaf ∈ known) (ignore : List Text) (cutoff : Option ℚ) :
    buildEntries sha256 ignore (byPath entries) cutoff root =
      buildEntries sha256 ignore (fun _ => none) none root := by
  unfold buildEntries
  rw [walk_eq hdistinct hentries ignore cutoff root hknown]

end Walk

/-! ## The records of a baseline -/

section Baseline

variable (ignore : List Text)

mutual

theorem records_walkNode : (node : Node Text Leaf) → (rel : Text) →
    ∀ e ∈ walkNode sha256 ignore (fun _ => none) none rel node,
      Records sha256 {leaf | leaf ∈ node.leaves} e
  | .leaf (.symbolicLink target t), rel, e, he => by
    rw [walkNode, List.mem_singleton] at he
    subst he
    exact ⟨_, List.mem_singleton_self _, rfl⟩
  | .leaf (.file content t), rel, e, he => by
    rw [walkNode, List.mem_singleton] at he
    subst he
    exact ⟨_, List.mem_singleton_self _, rfl⟩
  | .leaf .other, rel, e, he => by
    rw [walkNode] at he
    cases he
  | .directory sub, rel, e, he => by
    rw [walkNode] at he
    exact records_walk sub rel e he

theorem records_walk : (root : Dirents Text Leaf) → (dir : Text) →
    ∀ e ∈ walk sha256 ignore (fun _ => none) none dir root,
      Records sha256 {leaf | leaf ∈ root.leaves} e
  | .nil, dir, e, he => by
    rw [walk] at he
    cases he
  | .cons name node rest, dir, e, he => by
    rw [walk] at he
    have hnode : {leaf | leaf ∈ node.leaves} ⊆
        {leaf | leaf ∈ (Dirents.cons name node rest).leaves} := fun leaf hleaf =>
      Dirents.mem_leaves_cons.2 (.inl hleaf)
    have hrest : {leaf | leaf ∈ rest.leaves} ⊆
        {leaf | leaf ∈ (Dirents.cons name node rest).leaves} := fun leaf hleaf =>
      Dirents.mem_leaves_cons.2 (.inr hleaf)
    rcases List.mem_append.1 he with hfirst | hlater
    · split_ifs at hfirst
      · cases hfirst
      · exact (records_walkNode node _ e hfirst).mono hnode
    · exact (records_walk rest dir e hlater).mono hrest

end

theorem records_buildEntries (root : Dirents Text Leaf) :
    ∀ e ∈ buildEntries sha256 ignore (fun _ => none) none root,
      Records sha256 {leaf | leaf ∈ root.leaves} e := by
  intro e he
  unfold buildEntries at he
  rw [List.mem_insertionSort] at he
  exact records_walk ignore root [] e he

end Baseline

/-! ## Runs -/

/-- Some leaves were written at distinct times, all past, and the tree has no others; what is
    recorded is recorded of them. -/
structure Tracks (sha256 : List UInt8 → String) (known : Set Leaf) (w : World) : Prop where
  distinct : Distinct known
  past : ∀ leaf ∈ known, ∀ t, leaf.mtimeMs = some t → t ≤ w.clock
  tree : ∀ leaf ∈ w.root.leaves, leaf ∈ known
  walked : ∀ walk ∈ w.walked, ∀ e ∈ walk.2, Records sha256 known e
  manifests : ∀ m ∈ w.manifests, ∀ e ∈ m.2.entries, Records sha256 known e

namespace Tracks

variable {known : Set Leaf} {w : World}

/-- A leaf that is written now is not written at the time of a known one. -/
theorem distinct_insert (h : Tracks sha256 known w) {leaf : Leaf}
    (hlater : ∀ t, leaf.mtimeMs = some t → w.clock < t) : Distinct (insert leaf known) := by
  have hfresh : ∀ a ∈ known, ∀ t, a.mtimeMs = some t → leaf.mtimeMs ≠ some t := by
    intro a ha t hat hleaf
    exact absurd (h.past a ha t hat) (not_le_of_gt (hlater t hleaf))
  rintro a (rfl | ha) b (rfl | hb) t hat hbt
  · rfl
  · exact absurd hat (hfresh b hb t hbt)
  · exact absurd hbt (hfresh a ha t hat)
  · exact h.distinct a ha b hb t hat hbt

/-- What is recorded stays recorded when more leaves are known. -/
theorem grow (h : Tracks sha256 known w) {known' : Set Leaf} {root : Dirents Text Leaf} {clock : ℚ}
    (hsub : known ⊆ known') (hdistinct : Distinct known')
    (hpast : ∀ leaf ∈ known', ∀ t, leaf.mtimeMs = some t → t ≤ clock)
    (htree : ∀ leaf ∈ root.leaves, leaf ∈ known') :
    Tracks sha256 known' { w with root := root, clock := clock } where
  distinct := hdistinct
  past := hpast
  tree := htree
  walked := fun walk hwalk e he => (h.walked walk hwalk e he).mono hsub
  manifests := fun m hm e he => (h.manifests m hm e he).mono hsub

/-- A leaf is put where the clock has gone on to its time, if it has one. -/
theorem put (h : Tracks sha256 known w) {leaf : Leaf} {root : Dirents Text Leaf}
    (hlater : ∀ t, leaf.mtimeMs = some t → w.clock < t)
    (htree : ∀ a ∈ root.leaves, a ∈ w.root.leaves ∨ a = leaf) :
    Tracks sha256 (insert leaf known) { w with root := root, clock := leaf.mtimeMs.getD w.clock } := by
  have hclock : w.clock ≤ leaf.mtimeMs.getD w.clock := by
    cases hleaf : leaf.mtimeMs with
    | none => exact le_rfl
    | some t => exact (hlater t hleaf).le
  refine h.grow (Set.subset_insert leaf known) (h.distinct_insert hlater) ?_ ?_
  · rintro a (rfl | ha) t ht
    · rw [ht]
      exact le_rfl
    · exact (h.past a ha t ht).trans hclock
  · intro a ha
    rcases htree a ha with hold | rfl
    · exact Set.mem_insert_of_mem leaf (h.tree a hold)
    · exact Set.mem_insert a known

/-- Nothing is put. -/
theorem kept (h : Tracks sha256 known w) {root : Dirents Text Leaf}
    (htree : ∀ a ∈ root.leaves, a ∈ w.root.leaves) :
    Tracks sha256 known { w with root := root } :=
  h.grow (le_refl known) h.distinct h.past fun a ha => h.tree a (htree a ha)

theorem edit (h : Tracks sha256 known w) {e : Edit Text Leaf} (hticks : w.Ticks (.edit e)) :
    ∃ known', Tracks sha256 known' (w.step sha256 (.edit e)) := by
  rw [World.step]
  cases hroot : e.apply w.root with
  | none => exact ⟨known, h⟩
  | some root =>
    have hleaves : ∀ leaf ∈ root.leaves, leaf ∈ w.root.leaves ∨ ∃ path, e = .put path leaf :=
      fun leaf hleaf => Edit.mem_leaves_apply hroot hleaf
    cases e with
    | put path new =>
      have htree : ∀ a ∈ root.leaves, a ∈ w.root.leaves ∨ a = new := by
        intro a ha
        refine (hleaves a ha).imp_right ?_
        rintro ⟨_, heq⟩
        cases heq
        rfl
      have hlater : ∀ t, new.mtimeMs = some t → w.clock < t := by
        intro t ht
        have hchain : (w.clock :: new.mtimeMs.toList).IsChain (· < ·) := hticks
        rw [ht] at hchain
        simpa using hchain
      have htime : (ScmEvent.edit (.put path new)).times.getLast? = new.mtimeMs := by
        show new.mtimeMs.toList.getLast? = new.mtimeMs
        cases new.mtimeMs <;> rfl
      dsimp only
      rw [htime]
      exact ⟨_, h.put hlater htree⟩
    | mkdir path | remove path | rename source target =>
      refine ⟨known, h.kept fun a ha => (hleaves a ha).resolve_right ?_⟩
      rintro ⟨_, heq⟩
      cases heq

theorem baselineWalk (h : Tracks sha256 known w) (context : Text) (config : Option (List Text)) :
    Tracks sha256 known (NoneBackend.baselineWalk sha256 w context config) where
  distinct := h.distinct
  past := h.past
  tree := h.tree
  walked := by
    intro walk hwalk e he
    rcases List.mem_cons.1 hwalk with rfl | hold
    · exact (records_buildEntries _ w.root e he).mono h.tree
    · exact h.walked walk hold e he
  manifests := h.manifests

theorem baselineWrite (h : Tracks sha256 known w) {context : Text} {first second : ℚ}
    (hticks : w.Ticks (.baselineWrite context first second)) :
    Tracks sha256 known (NoneBackend.baselineWrite sha256 w context first second) := by
  unfold NoneBackend.baselineWrite
  cases hwalk : w.walked.lookup context with
  | none => exact h
  | some entries =>
    have hclock : w.clock ≤ second := by
      have hchain : [w.clock, first, second].IsChain (· < ·) := hticks
      rw [List.isChain_cons_cons, List.isChain_cons_cons] at hchain
      exact (hchain.1.trans hchain.2.1).le
    have hentries : ∀ e ∈ entries, Records sha256 known e := by
      obtain ⟨before, after, hsplit, -⟩ := List.lookup_eq_some_iff.1 hwalk
      exact h.walked (context, entries) (by simp [hsplit])
    exact
      { distinct := h.distinct
        past := fun leaf hleaf t ht => (h.past leaf hleaf t ht).trans hclock
        tree := h.tree
        walked := fun walk hmem => h.walked walk (List.mem_of_mem_filter hmem)
        manifests := by
          intro m hm
          rcases List.mem_cons.1 hm with rfl | hold
          · exact hentries
          · exact h.manifests m hold }

/-- One event: a later write is of a new leaf, and nothing else makes one. -/
theorem step (h : Tracks sha256 known w) {event : ScmEvent} (hticks : w.Ticks event) :
    ∃ known', Tracks sha256 known' (w.step sha256 event) := by
  cases event with
  | edit e => exact h.edit hticks
  | baselineWalk context config => exact ⟨known, h.baselineWalk context config⟩
  | baselineWrite context first second => exact ⟨known, h.baselineWrite hticks⟩
  | discard context =>
    exact ⟨known,
      { distinct := h.distinct
        past := h.past
        tree := h.tree
        walked := h.walked
        manifests := fun m hm => h.manifests m (List.mem_of_mem_filter hm) }⟩

end Tracks

/-- An empty tree. -/
def World.empty (start : ℚ) : World where
  root := .nil
  clock := start

theorem tracks_empty (start : ℚ) : Tracks sha256 ∅ (World.empty start) where
  distinct := fun a ha => ha.elim
  past := fun a ha => ha.elim
  tree := fun a ha => by cases ha
  walked := fun walk hwalk => by cases hwalk
  manifests := fun m hm => by cases hm

theorem tracks_of_run {start : ℚ} {events : List ScmEvent}
    (hrun : RunOk (World.step sha256) World.Ticks (World.empty start) events) :
    ∃ known, Tracks sha256 known (events.foldl (World.step sha256) (World.empty start)) := by
  have hstep : ∀ w event, (∃ known, Tracks sha256 known w) → w.Ticks event →
      ∃ known, Tracks sha256 known (w.step sha256 event) := by
    rintro w event ⟨known, h⟩ hticks
    exact h.step hticks
  exact hrun.invariant hstep ⟨∅, tracks_empty start⟩

/-! ## Reading every file -/

namespace NoneBackend

/-- The walk that reads every file. -/
def rehashed (sha256 : List UInt8 → String) (w : World) (config : Option (List Text)) :
    List NoneManifestEntry :=
  buildEntries sha256 (resolveIgnore config) (fun _ => none) none w.root

/-- The changes since a manifest, where every file is read. -/
def changes (sha256 : List UInt8 → String) (w : World) (config : Option (List Text))
    (manifest : NoneManifest) : List ScmChangedFile :=
  diffEntries manifest.entries (rehashed sha256 w config)

theorem current_eq {known : Set Leaf} {w : World} (h : Tracks sha256 known w) {context : Text}
    {manifest : NoneManifest} (hread : w.readManifest context = some manifest)
    (config : Option (List Text)) :
    current sha256 w config manifest = rehashed sha256 w config := by
  obtain ⟨before, after, hsplit, -⟩ := List.lookup_eq_some_iff.1 hread
  have hmem : (manifestRelPath context, manifest) ∈ w.manifests := by simp [hsplit]
  exact buildEntries_eq h.distinct (h.manifests _ hmem) h.tree (resolveIgnore config)
    (some manifest.capturedAtMs)

end NoneBackend

/-- The digests of the texts `aa` and `bb`, and of the empty one. -/
def sampleDigest (bytes : List UInt8) : String :=
  if bytes = [97, 97] then "961b6dd3ede3cb8ecbaacbd68de040cd78eb2ed5889130cceb4c49268ea4d506"
  else if bytes = [98, 98] then "3b64db95cb55c763391c707108489ae18b4112d783300de38e033b4c98c3deaf"
  else "e3b0c44298fc1c149afbf4c8996fb92427ae41e4649b934ca495991b7852b855"

/-- Two files and a link, a baseline, and then: a file is renamed over another of the same size,
    the link is replaced by a file with its bytes, and a file is added. -/
def sampleEvents : List ScmEvent :=
  [.edit (.mkdir ["src".toList]),
   .edit (.put ["src".toList, "a.ts".toList] (.file [97, 97] 1)),
   .edit (.put ["b.ts".toList] (.file [98, 98] 2)),
   .edit (.put ["link".toList] (.symbolicLink "aa" 3)),
   .baselineWalk "run".toList none,
   .baselineWrite "run".toList 4 5,
   .edit (.rename ["b.ts".toList] ["src".toList, "a.ts".toList]),
   .edit (.put ["link".toList] (.file [97, 97] 6)),
   .edit (.put ["new.ts".toList] (.file [] 7))]

/-- The report on it. -/
def sampleReport : List ScmChangedFile :=
  [{ path := "new.ts".toList, change := .added },
   { path := "src/a.ts".toList, change := .modified },
   { path := "b.ts".toList, change := .deleted }]

end WoodFiredTasks.Scm.Snapshot
