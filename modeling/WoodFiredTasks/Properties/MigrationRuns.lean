import Mathlib.Data.List.TakeWhile
import WoodFiredTasks.Db.Migrate
import WoodFiredTasks.Lib.Runs

set_option autoImplicit false

/-! # Migrations are applied exactly once

A name counts as recorded under its canonical form. One call adds exactly the names of the
pending files to the recorded ones (`applyAll_spec`), or nothing; so over a run of calls the
recorded names only grow, and a name that is recorded is not applied again
(`Ledger.Inv`). -/

namespace WoodFiredTasks.Migrate

variable {σ : Type}

/-! ## Canonical names -/

theorem dropExtension_of_no_dot {chars : List Char} (h : '.' ∉ chars) :
    dropExtension chars = chars := by
  unfold dropExtension
  split
  · simp at h
  · simp at h
  · rfl

theorem canonicalName_of_no_dot {name : String} (h : '.' ∉ name.toList) :
    canonicalName name = name := by
  rw [canonicalName, dropExtension_of_no_dot (by simpa using h), List.reverse_reverse,
    String.ofList_toList]

/-- The characters of a migration file before its extension. -/
theorem stem_of_isMigrationFile {ext : Extension} {f : String} (h : isMigrationFile ext f = true) :
    ∃ stem, '.' ∉ stem ∧ f.toList = stem ++ '.' :: ext.chars := by
  unfold isMigrationFile at h
  split at h
  · rename_i a b c rest hf
    simp only [Bool.and_eq_true, beq_iff_eq] at h
    obtain ⟨⟨⟨⟨ha, hb⟩, hc⟩, -⟩, hdot⟩ := h
    have hdigit : ∀ d : Char, d.isDigit = true → d ≠ '.' := by
      intro d hd heq
      subst heq
      exact absurd hd (by decide)
    refine ⟨a :: b :: c :: '-' :: rest.takeWhile (· != '.'), ?_, ?_⟩
    · have hslug : '.' ∉ rest.takeWhile (· != '.') := by
        intro hmem
        have := List.mem_takeWhile_imp hmem
        simp at this
      simp [hslug, (hdigit a ha).symm, (hdigit b hb).symm, (hdigit c hc).symm]
    · rw [hf, ← hdot]
      simp [List.takeWhile_append_dropWhile]
  · exact absurd h (by simp)

theorem canonicalName_of_stem {ext : Extension} {f : String} {stem : List Char}
    (h : f.toList = stem ++ '.' :: ext.chars) : canonicalName f = String.ofList stem := by
  rw [canonicalName, h]
  cases ext <;> simp [Extension.chars, dropExtension]

theorem no_dot_of_isMigrationFile {ext : Extension} {f : String}
    (h : isMigrationFile ext f = true) : '.' ∉ (canonicalName f).toList := by
  obtain ⟨stem, hstem, hf⟩ := stem_of_isMigrationFile h
  simpa [canonicalName_of_stem hf] using hstem

/-! ## Discovery -/

section Discovery

variable {ext : Extension} {listing : List String} {m : MigrationFile}

theorem mem_discover : m ∈ discoverMigrations ext listing ↔
    m.path ∈ listing ∧ isMigrationFile ext m.path = true ∧ m.name = canonicalName m.path := by
  simp only [discoverMigrations, List.mem_map, List.mem_insertionSort, List.mem_filter]
  constructor
  · intro h
    obtain ⟨f, ⟨hf, hfile⟩, rfl⟩ := h
    exact ⟨hf, hfile, rfl⟩
  · intro h
    obtain ⟨hf, hfile, hname⟩ := h
    exact ⟨m.path, ⟨hf, hfile⟩, by rw [← hname]⟩

/-- The files are discovered in the order of their names. -/
theorem discover_sorted :
    (discoverMigrations ext listing).Pairwise fun m m' => textLe m.path m'.path := by
  have htotal : Std.Total textLe := ⟨fun a b => le_total (codeUnits a) (codeUnits b)⟩
  have htrans : IsTrans String textLe := ⟨fun _ _ _ h h' => le_trans h h'⟩
  rw [discoverMigrations, List.pairwise_map]
  exact List.pairwise_insertionSort textLe _

end Discovery

/-! ## The tracking table -/

/-- The row under its canonical name. -/
def MigrationRow.canonical (r : MigrationRow) : MigrationRow :=
  { r with name := canonicalName r.name }

/-- The rows of a tracking table that may be missing. -/
def rowsOf (tracking : Option Tracking) : List MigrationRow :=
  (tracking.map Tracking.rows).getD []

theorem rename_rows {t t' : Tracking} {done rest : List MigrationRow} {r : MigrationRow}
    (hrows : t.rows = done ++ r :: rest) (h : t.rename r.name (canonicalName r.name) = some t') :
    t'.rows = (done ++ [r.canonical]) ++ rest := by
  rw [Tracking.rename] at h
  split at h
  · cases h
  · rw [Option.some.injEq] at h
    subst h
    have hnodup := t.nodup
    rw [hrows, List.map_append, List.map_cons, List.nodup_append, List.nodup_cons] at hnodup
    obtain ⟨-, ⟨hrest, -⟩, hdone⟩ := hnodup
    -- the other rows have other names
    have hkeep : ∀ l : List MigrationRow, (∀ q ∈ l, q.name ≠ r.name) →
        l.map (fun q => if q.name = r.name then { q with name := canonicalName r.name } else q)
          = l := by
      intro l hl
      refine (List.map_congr_left fun q hq => if_neg (hl q hq)).trans (List.map_id _)
    have hdone' : ∀ q ∈ done, q.name ≠ r.name := by
      intro q hq
      exact hdone q.name (List.mem_map_of_mem hq) r.name List.mem_cons_self
    have hrest' : ∀ q ∈ rest, q.name ≠ r.name := by
      intro q hq heq
      exact hrest (heq ▸ List.mem_map_of_mem hq)
    simp only [hrows, List.map_append, List.map_cons, hkeep done hdone', hkeep rest hrest', if_true,
      List.append_assoc, List.cons_append, List.nil_append, MigrationRow.canonical]

theorem canonicalizeAll_rows {rest : List MigrationRow} :
    ∀ (done : List MigrationRow) {t t' : Tracking}, t.rows = done ++ rest →
      canonicalizeAll (rest.map MigrationRow.name) t = .ok t' →
      t'.rows = done ++ rest.map MigrationRow.canonical := by
  induction rest with
  | nil =>
    intro done t t' hrows h
    simp only [List.map_nil, canonicalizeAll, Except.ok.injEq] at h
    subst h
    simpa using hrows
  | cons r rest ih =>
    intro done t t' hrows h
    rw [List.map_cons, canonicalizeAll] at h
    by_cases hname : canonicalName r.name = r.name
    · rw [if_pos hname] at h
      have hr : r.canonical = r := by rw [MigrationRow.canonical, hname]
      have := ih (done ++ [r]) (by simpa using hrows) h
      simpa [hr] using this
    · rw [if_neg hname] at h
      cases hrename : t.rename r.name (canonicalName r.name) with
      | none => simp [hrename] at h
      | some t₁ =>
        rw [hrename] at h
        have := ih _ (rename_rows hrows hrename) h
        simpa using this

/-- The table after the fix-up holds the same rows under their canonical names. -/
theorem prepareTrackingTable_rows {tracking : Option Tracking} {t : Tracking}
    (h : prepareTrackingTable tracking = .ok t) :
    t.rows = (rowsOf tracking).map MigrationRow.canonical := by
  cases tracking with
  | none => exact canonicalizeAll_rows [] rfl h
  | some t₀ => exact canonicalizeAll_rows [] rfl h

/-- The fix-up changes nothing in a table of canonical names. -/
theorem prepareTrackingTable_of_canonical {t : Tracking}
    (h : ∀ r ∈ t.rows, canonicalName r.name = r.name) :
    prepareTrackingTable (some t) = .ok t := by
  have hall : ∀ names : List String, (∀ name ∈ names, canonicalName name = name) →
      canonicalizeAll names t = .ok t := by
    intro names
    induction names with
    | nil => exact fun _ => rfl
    | cons name names ih =>
      intro hnames
      rw [canonicalizeAll, if_pos (hnames name List.mem_cons_self)]
      exact ih fun n hn => hnames n (List.mem_cons_of_mem _ hn)
  refine hall _ fun name hname => ?_
  obtain ⟨r, hr, rfl⟩ := List.mem_map.1 hname
  exact h r hr

/-- The canonical names that a database records. -/
def recorded (db : Database σ) : List String :=
  (rowsOf db.tracking).map fun r => canonicalName r.name

/-- Every recorded name is that of a migration, with or without one of the extensions. -/
def Legacy (db : Database σ) : Prop := ∀ name ∈ recorded db, '.' ∉ name.toList

instance (db : Database σ) : Decidable (Legacy db) := by
  unfold Legacy
  infer_instance

/-! ## One call -/

/-- The files that are not recorded, in apply order. -/
def pendingFiles (ext : Extension) (listing : List String) (db : Database σ) :
    List MigrationFile :=
  (discoverMigrations ext listing).filter fun m => !(recorded db).contains m.name

/-- What the `up` functions of some files make of the database, if none fails. -/
def upAll (call : Call σ) : List MigrationFile → σ → Option σ
  | [], rest => some rest
  | m :: files, rest =>
    match call.modules m.path with
    | none => none
    | some mod => if (mod.up rest).2 then none else upAll call files (mod.up rest).1

theorem insert_rows {t t' : Tracking} {name : String} {now : Nat}
    (h : t.insert name now = some t') : t'.rows = t.rows ++ [⟨name, now⟩] := by
  rw [Tracking.insert] at h
  split at h
  · cases h
  · rw [Option.some.injEq] at h
    subst h
    rfl

theorem applyAll_spec {call : Call σ} {executed : List String} {files : List MigrationFile} :
    ∀ {w w' : Work σ}, applyAll call executed files w = .ok w' →
      let pending := files.filter fun m => !executed.contains m.name
      w'.ups = w.ups ++ pending.map MigrationFile.name ∧
        w'.tracking.rows = w.tracking.rows ++ pending.map (fun m => ⟨m.name, call.now⟩) ∧
        upAll call pending w.rest = some w'.rest := by
  induction files with
  | nil =>
    intro w w' h
    simp only [applyAll, Except.ok.injEq] at h
    subst h
    simp [upAll]
  | cons m files ih =>
    intro w w' h
    rw [applyAll] at h
    by_cases hexec : executed.contains m.name = true
    · rw [if_pos hexec] at h
      simpa only [List.filter_cons, hexec, Bool.not_true, Bool.false_eq_true, if_false] using ih h
    · rw [if_neg hexec] at h
      cases hmod : call.modules m.path with
      | none => simp [hmod] at h
      | some mod =>
        simp only [hmod] at h
        by_cases hthrew : (mod.up w.rest).2 = true
        · simp [hthrew] at h
        · by_cases hfails : call.recordFails m.name = true
          · simp [hthrew, hfails] at h
          · simp only [hthrew, hfails, Bool.false_eq_true, if_false] at h
            cases hinsert : w.tracking.insert m.name call.now with
            | none => simp [hinsert] at h
            | some t =>
              rw [hinsert] at h
              obtain ⟨hups, hrows, hrest⟩ := ih h
              have hfilter : (m :: files).filter (fun m => !executed.contains m.name)
                  = m :: files.filter fun m => !executed.contains m.name :=
                List.filter_cons_of_pos (by simpa using hexec)
              rw [hfilter]
              refine ⟨?_, ?_, ?_⟩
              · rw [hups]
                simp
              · rw [hrows, insert_rows hinsert]
                simp
              · simpa [upAll, hmod, hthrew] using hrest

/-- What a call that ends well has done. -/
structure Applied (call : Call σ) (db db' : Database σ) (ups : List String) : Prop where
  listed : ∃ listing, call.listing = some listing ∧
    ups = (pendingFiles call.extension listing db).map MigrationFile.name ∧
    upAll call (pendingFiles call.extension listing db) db.rest = some db'.rest ∧
    rowsOf db'.tracking = (rowsOf db.tracking).map MigrationRow.canonical
      ++ (pendingFiles call.extension listing db).map (fun m => ⟨m.name, call.now⟩)

theorem runMigrations_spec (call : Call σ) (db : Database σ) :
    match runMigrations call db with
    | (.error _, db') => db' = db
    | (.ok ups, db') => Applied call db db' ups := by
  rw [runMigrations]
  by_cases hbusy : call.busy = true
  · rw [if_pos hbusy]
  · rw [if_neg hbusy]
    cases htx : transaction call db with
    | error e => rfl
    | ok w =>
      by_cases hcommit : call.commitFails = true
      · simp only [hcommit, if_true]
      · simp only [hcommit, Bool.false_eq_true, if_false]
        rw [transaction] at htx
        by_cases htrack : call.trackingFails = true
        · simp [htrack] at htx
        · rw [if_neg htrack] at htx
          cases hprepare : prepareTrackingTable db.tracking with
          | error e => simp [hprepare] at htx
          | ok t =>
            cases hlisting : call.listing with
            | none => simp [hprepare, hlisting] at htx
            | some listing =>
              simp only [hprepare, hlisting] at htx
              obtain ⟨hups, hrows, hrest⟩ := applyAll_spec htx
              have hexec : executedMigrations t = recorded db := by
                rw [executedMigrations, prepareTrackingTable_rows hprepare, List.map_map]
                rfl
              rw [hexec] at hups hrows hrest
              rw [prepareTrackingTable_rows hprepare] at hrows
              exact ⟨listing, hlisting, by simpa [pendingFiles] using hups, hrest, hrows⟩

/-! ## Runs of calls -/

/-- A database and the names of the migrations whose `up` has been committed by a run, oldest
    first. -/
structure Ledger (σ : Type) where
  db : Database σ
  committed : List String

/-- One call, from any process: `BEGIN EXCLUSIVE` lets one at a time through. -/
def Ledger.call (s : Ledger σ) (call : Call σ) : Ledger σ :=
  match runMigrations call s.db with
  | (.error _, db') => ⟨db', s.committed⟩
  | (.ok ups, db') => ⟨db', s.committed ++ ups⟩

/-- What holds after every call of a run from `db₀`. -/
structure Ledger.Inv (db₀ : Database σ) (s : Ledger σ) : Prop where
  legacy : Legacy s.db
  nodup : s.committed.Nodup
  stored : ∀ name ∈ s.committed, name ∈ recorded s.db
  initial : ∀ name ∈ recorded db₀, name ∈ recorded s.db
  fresh : ∀ name ∈ s.committed, name ∉ recorded db₀

section Run

variable {db db' db₀ : Database σ} {call : Call σ} {ups : List String}

theorem Applied.recorded_eq (h : Applied call db db' ups) (hlegacy : Legacy db) :
    recorded db' = recorded db ++ ups := by
  obtain ⟨listing, -, hups, -, hrows⟩ := h.listed
  have hold : ∀ r ∈ rowsOf db.tracking,
      canonicalName r.canonical.name = canonicalName r.name := by
    intro r hr
    exact canonicalName_of_no_dot (hlegacy _ (List.mem_map_of_mem hr))
  have hnew : ∀ m ∈ pendingFiles call.extension listing db, canonicalName m.name = m.name := by
    intro m hm
    obtain ⟨-, hfile, hname⟩ := mem_discover.1 (List.mem_of_mem_filter hm)
    rw [hname]
    exact canonicalName_of_no_dot (no_dot_of_isMigrationFile hfile)
  rw [recorded, hrows, hups, recorded, List.map_append, List.map_map, List.map_map]
  exact congrArg₂ _ (List.map_congr_left hold) (List.map_congr_left hnew)

theorem Applied.no_dot (h : Applied call db db' ups) : ∀ name ∈ ups, '.' ∉ name.toList := by
  obtain ⟨listing, -, hups, -, -⟩ := h.listed
  intro name hname
  rw [hups] at hname
  obtain ⟨m, hm, rfl⟩ := List.mem_map.1 hname
  obtain ⟨-, hfile, hname⟩ := mem_discover.1 (List.mem_of_mem_filter hm)
  rw [hname]
  exact no_dot_of_isMigrationFile hfile

theorem Applied.legacy (h : Applied call db db' ups) (hlegacy : Legacy db) : Legacy db' := by
  intro name hname
  rw [h.recorded_eq hlegacy, List.mem_append] at hname
  rcases hname with hname | hname
  · exact hlegacy name hname
  · exact h.no_dot name hname

theorem Applied.new (h : Applied call db db' ups) : ∀ name ∈ ups, name ∉ recorded db := by
  obtain ⟨listing, -, hups, -, -⟩ := h.listed
  intro name hname
  rw [hups] at hname
  obtain ⟨m, hm, rfl⟩ := List.mem_map.1 hname
  simpa using (List.mem_filter.1 hm).2

theorem Applied.nodup (h : Applied call db db' ups) : ups.Nodup := by
  obtain ⟨listing, -, hups, -, hrows⟩ := h.listed
  have hnodup : ((rowsOf db'.tracking).map MigrationRow.name).Nodup := by
    cases htracking : db'.tracking with
    | none => simp [rowsOf]
    | some t => exact t.nodup
  have hnames : ((pendingFiles call.extension listing db).map
      (fun m => (⟨m.name, call.now⟩ : MigrationRow))).map MigrationRow.name = ups := by
    rw [hups, List.map_map]
    rfl
  rw [hrows, List.map_append, hnames] at hnodup
  exact hnodup.of_append_right

/-- After a call that ends well nothing is pending. -/
theorem Applied.pending_eq_nil (h : Applied call db db' ups) (hlegacy : Legacy db)
    {listing : List String} (hlisting : call.listing = some listing) :
    pendingMigrations call.extension listing db'.tracking = .ok [] := by
  have hcanonical : ∀ r ∈ rowsOf db'.tracking, canonicalName r.name = r.name := by
    obtain ⟨listing, -, -, -, hrows⟩ := h.listed
    intro r hr
    rw [hrows, List.mem_append] at hr
    rcases hr with hr | hr
    · obtain ⟨q, hq, rfl⟩ := List.mem_map.1 hr
      exact canonicalName_of_no_dot (hlegacy _ (List.mem_map_of_mem hq))
    · obtain ⟨m, hm, rfl⟩ := List.mem_map.1 hr
      obtain ⟨-, hfile, hname⟩ := mem_discover.1 (List.mem_of_mem_filter hm)
      show canonicalName m.name = m.name
      rw [hname]
      exact canonicalName_of_no_dot (no_dot_of_isMigrationFile hfile)
  obtain ⟨t, ht, hrows⟩ : ∃ t, prepareTrackingTable db'.tracking = .ok t ∧
      t.rows = rowsOf db'.tracking := by
    cases htracking : db'.tracking with
    | none => exact ⟨⟨[], List.nodup_nil⟩, rfl, rfl⟩
    | some t =>
      rw [htracking] at hcanonical
      exact ⟨t, prepareTrackingTable_of_canonical hcanonical, rfl⟩
  have hexec : executedMigrations t = recorded db ++ ups := by
    rw [← h.recorded_eq hlegacy, recorded, executedMigrations, hrows]
    exact (List.map_congr_left hcanonical).symm
  have hdone : ∀ m ∈ discoverMigrations call.extension listing,
      (executedMigrations t).contains m.name = true := by
    intro m hm
    obtain ⟨listing', hlisting', hups, -, -⟩ := h.listed
    rw [hlisting, Option.some.injEq] at hlisting'
    subst hlisting'
    rw [hexec, List.contains_iff_mem, List.mem_append]
    by_cases hold : m.name ∈ recorded db
    · exact .inl hold
    · have hpending : m ∈ pendingFiles call.extension listing db :=
        List.mem_filter.2 ⟨hm, by simpa using hold⟩
      exact .inr (hups ▸ List.mem_map_of_mem hpending)
  rw [pendingMigrations, ht]
  simp only [Except.ok.injEq, List.map_eq_nil_iff, List.filter_eq_nil_iff]
  intro m hm
  rw [hdone m hm]
  decide

theorem Ledger.inv_start (hlegacy : Legacy db₀) : Ledger.Inv db₀ ⟨db₀, []⟩ :=
  ⟨hlegacy, List.nodup_nil, by simp, fun _ h => h, by simp⟩

theorem Ledger.Inv.next {s : Ledger σ} (h : Ledger.Inv db₀ s) (call : Call σ) :
    Ledger.Inv db₀ (s.call call) := by
  have hspec := runMigrations_spec call s.db
  rw [Ledger.call]
  rcases hrun : runMigrations call s.db with ⟨result, db'⟩
  rw [hrun] at hspec
  cases result with
  | error e =>
    dsimp only at hspec ⊢
    subst hspec
    exact ⟨h.legacy, h.nodup, h.stored, h.initial, h.fresh⟩
  | ok ups =>
    dsimp only at hspec ⊢
    have hrecorded := hspec.recorded_eq h.legacy
    refine ⟨hspec.legacy h.legacy, ?_, ?_, ?_, ?_⟩
    · refine List.nodup_append.2 ⟨h.nodup, hspec.nodup, fun a ha b hb hab => ?_⟩
      exact hspec.new b hb (hab ▸ h.stored a ha)
    · intro name hname
      rw [hrecorded]
      rcases List.mem_append.1 hname with hname | hname
      · exact List.mem_append_left _ (h.stored name hname)
      · exact List.mem_append_right _ hname
    · intro name hname
      rw [hrecorded]
      exact List.mem_append_left _ (h.initial name hname)
    · intro name hname hinitial
      rcases List.mem_append.1 hname with hname | hname
      · exact h.fresh name hname hinitial
      · exact hspec.new name hname (h.initial name hinitial)

end Run

/-- A call from the compiled tree or from the sources, over two migrations; the second one fails
    on an odd database, after it has changed it. -/
def sampleCall (extension : Extension) : Call Nat where
  extension := extension
  now := 0
  busy := false
  trackingFails := false
  listing := some ["002-b.ts", "001-a.ts", "001-a.js", "002-b.js", "001-a.d.ts", "notes.md"]
  modules := fun path =>
    if path = "002-b.ts" ∨ path = "002-b.js" then some ⟨fun n => (n + 1, n % 2 == 1)⟩
    else some ⟨fun n => (n + 10, false)⟩
  recordFails := fun _ => false
  commitFails := false

/-- A database where a run from the sources has recorded the first migration. -/
def sampleDatabase (n : Nat) : Database Nat := ⟨some ⟨[⟨"001-a.ts", 0⟩], by decide⟩, n⟩

example : (runMigrations (sampleCall .js) (sampleDatabase 4)).1 = .ok ["002-b"] ∧
    (runMigrations (sampleCall .js) (sampleDatabase 5)).1 = .error (.up "002-b") ∧
    (runMigrations (sampleCall .js) ⟨none, 4⟩).1 = .ok ["001-a", "002-b"] := by
  decide +kernel

end WoodFiredTasks.Migrate
