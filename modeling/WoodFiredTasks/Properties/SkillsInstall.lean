import WoodFiredTasks.Setup.CodexSkills
import WoodFiredTasks.Lib.Runs

set_option autoImplicit false

/-! # The installer and the files of users

However runs of the installer, with whatever bundles, and changes by users follow each other, and
wherever a run fails or dies, it replaces or removes only what it has put there itself
(`foreign_kept`). A run that ends well leaves the files of its bundle and a manifest of them, and
another one then finds nothing to do (`copyCodexSkills_settles`). -/

namespace WoodFiredTasks.CodexSkills

open PathTree

variable {β : Type} {host : Host β}

/-! ## Names -/

/-- The name of a temporary file. -/
def IsTemp (host : Host β) (path : Path) : Prop :=
  ∃ file n, path = tempFile file (host.randomUUID n)

theorem dest_ne_nil (file : Path) : dest file ≠ [] := List.cons_ne_nil _ _

theorem dest_injective {file file' : Path} (h : dest file = dest file') : file = file' :=
  List.append_cancel_left h

theorem dest_isPrefix {file file' : Path} : dest file <+: dest file' ↔ file <+: file' :=
  List.prefix_append_right_inj skillsDir

/-- A safe name does not end below the directory of the manifest. -/
theorem dest_ne_manifestPath {file : Path} (h : safeRelative file = true) :
    dest file ≠ manifestPath := by
  intro heq
  rw [dest_injective heq] at h
  exact absurd h (by decide)

/-- A safe name starts with a directory of a skill, or it has three parts. -/
theorem safeRelative_cases {file : Path} (h : safeRelative file = true) :
    ∃ first second rest, file = first :: second :: rest ∧
      (isSkillDirectory first = true ∨ rest ≠ []) := by
  unfold safeRelative at h
  rw [Bool.and_eq_true] at h
  obtain ⟨-, h⟩ := h
  split at h
  · next first second rest =>
    refine ⟨first, second, rest, rfl, ?_⟩
    rcases Bool.or_eq_true_iff.1 h with hskill | hreference
    · exact .inl hskill
    · refine .inr ?_
      rintro rfl
      simp at hreference
  · contradiction

theorem two_le_length {file : Path} (h : safeRelative file = true) : 2 ≤ file.length := by
  obtain ⟨first, second, rest, rfl, -⟩ := safeRelative_cases h
  rw [List.length_cons, List.length_cons]
  omega

theorem length_tempFile {file : Path} (hne : file ≠ []) (uuid : String) :
    (tempFile file uuid).length = file.length := by
  unfold tempFile
  have hpos := List.length_pos_iff.2 hne
  rw [List.length_append, List.length_dropLast, List.length_singleton]
  omega

theorem tempFile_ne_manifestPath {file : Path} {uuid : String}
    (hfile : (∃ file', safeRelative file' = true ∧ file = dest file') ∨ file = manifestPath) :
    tempFile file uuid ≠ manifestPath := by
  rcases hfile with ⟨file', hsafe, rfl⟩ | rfl
  · obtain ⟨first, second, rest, rfl, hcases⟩ := safeRelative_cases hsafe
    intro heq
    rcases hcases with hskill | hrest
    · cases rest with
      | nil =>
        have hfirst : first = ".wood-fired-tasks" := (List.cons.inj (List.cons.inj heq).2).1
        rw [hfirst] at hskill
        exact absurd hskill (by decide)
      | cons name rest =>
        have hlength := congrArg List.length heq
        rw [length_tempFile (dest_ne_nil _)] at hlength
        simp [dest, skillsDir, manifestPath] at hlength
    · have hlength := congrArg List.length heq
      rw [length_tempFile (dest_ne_nil _)] at hlength
      have hpos := List.length_pos_iff.2 hrest
      simp [dest, skillsDir, manifestPath] at hlength
      contradiction
  · intro heq
    have hname := congrArg (fun path => (path.getLastD "").length) heq
    have : ("manifest.json" ++ ".tmp-" ++ uuid).length = "manifest.json".length := hname
    rw [String.length_append] at this
    have hlong : ("manifest.json" ++ ".tmp-").length = "manifest.json".length + 5 := by decide
    omega

theorem tempFile_ne (file : Path) (uuid : String) : tempFile file uuid ≠ file := by
  intro heq
  have hname := congrArg (fun path => (path.getLastD "").length) heq
  have : (file.getLastD "" ++ ".tmp-" ++ uuid).length = (file.getLastD "").length := by
    unfold tempFile at hname
    simpa only [List.getLastD_concat] using hname
  rw [String.length_append, String.length_append] at this
  have hlong : ".tmp-".length = 5 := by decide
  omega

/-! ## Manifests -/

theorem mapM_eq_some_iff_forall {α γ : Type} {f : α → Option γ} {g : α → γ} :
    ∀ l : List α, (∀ a ∈ l, f a = some (g a)) → l.mapM f = some (l.map g)
  | [], _ => rfl
  | a :: l, h => by
    rw [List.mapM_cons, h a List.mem_cons_self,
      mapM_eq_some_iff_forall l fun b hb => h b (List.mem_cons_of_mem a hb)]
    rfl

theorem mem_of_mapM {α γ : Type} {f : α → Option γ} :
    ∀ {l : List α} {l' : List γ}, l.mapM f = some l' → ∀ c ∈ l', ∃ a ∈ l, f a = some c
  | [], l', h, c, hc => by
    obtain rfl : [] = l' := Option.some.inj h
    contradiction
  | a :: l, l', h, c, hc => by
    rw [List.mapM_cons] at h
    obtain ⟨b, hb, h⟩ := Option.bind_eq_some_iff.1 h
    obtain ⟨rest, hrest, h⟩ := Option.bind_eq_some_iff.1 h
    obtain rfl : b :: rest = l' := Option.some.inj h
    rcases List.mem_cons.1 hc with rfl | hc
    · exact ⟨a, List.mem_cons_self, hb⟩
    · obtain ⟨a', ha', hfa'⟩ := mem_of_mapM hrest c hc
      exact ⟨a', List.mem_cons_of_mem a ha', hfa'⟩

theorem safe_of_parseManifest {content : β} {m : Manifest}
    (h : parseManifest host content = some m) : ∀ entry ∈ m, safeRelative entry.1 = true := by
  intro entry hentry
  obtain ⟨data, -, hvalid⟩ := Option.bind_eq_some_iff.1 h
  unfold validManifest at hvalid
  split_ifs at hvalid
  obtain ⟨files, -, hfiles⟩ := Option.bind_eq_some_iff.1 hvalid
  obtain ⟨listed, -, hlisted⟩ := mem_of_mapM hfiles entry hentry
  obtain ⟨digest, -, hdigest⟩ := Option.bind_eq_some_iff.1 hlisted
  split_ifs at hdigest with hsafe
  rw [← Option.some.inj hdigest]
  exact (Bool.and_eq_true_iff.1 hsafe).1

/-- The manifest of a bundle of safe names is read back as it was written. -/
theorem parseManifest_stringify {bundle : Bundle β}
    (hsafe : ∀ entry ∈ bundle.files, safeRelative entry.1 = true) :
    parseManifest host (host.stringify (bundle.manifest host)) = some (bundle.manifest host) := by
  have hnames : (bundle.manifest host).map (·.1) = bundle.files.map (·.1) := by
    unfold Bundle.manifest
    rw [List.map_map]
    rfl
  have hsafe' : ∀ entry ∈ bundle.manifest host, safeRelative entry.1 = true := by
    intro entry hentry
    obtain ⟨file, hfile, rfl⟩ := List.mem_map.1 hentry
    exact hsafe file hfile
  unfold parseManifest
  rw [host.parse_stringify _ (hnames ▸ bundle.nodup) hsafe', Option.bind_some]
  show (if _ then _ else _) = _
  rw [if_pos ⟨rfl, rfl⟩]
  show ((bundle.manifest host).map _).mapM _ = _
  rw [mapM_eq_some_iff_forall (g := fun entry => (entry.1, entry.2.getD "")), List.map_map]
  · exact congrArg some (List.map_id' _)
  · intro entry hentry
    obtain ⟨listed, hlisted, rfl⟩ := List.mem_map.1 hentry
    obtain ⟨file, hfile, rfl⟩ := List.mem_map.1 hlisted
    show (if _ then _ else _) = _
    rw [if_pos (Bool.and_eq_true_iff.2 ⟨hsafe file hfile, host.hash_isDigest file.2⟩)]
    rfl

/-! ## What the checks have seen -/

/-- What is known once all checks have passed. -/
structure Checked (host : Host β) (bundle : Bundle β) (tree : Files β) (previous : Manifest) :
    Prop where
  manifest : (tree.entry manifestPath = none ∧ previous = []) ∨
    ∃ content, tree.entry manifestPath = some (.file content) ∧
      parseManifest host content = some previous
  safe : ∀ entry ∈ bundle.files, safeRelative entry.1 = true
  files : ∀ entry ∈ bundle.files, tree.entry (dest entry.1) = none ∨
    ∃ content, tree.entry (dest entry.1) = some (.file content) ∧
      previous.lookup entry.1 = some (host.hash content)
  owned : ∀ entry ∈ previous, tree.entry (dest entry.1) = none ∨
    ∃ content, tree.entry (dest entry.1) = some (.file content) ∧ host.hash content = entry.2

theorem addConflict_ne_nil (conflicts : List Path) (name : Path) :
    addConflict conflicts name ≠ [] := by
  unfold addConflict
  split_ifs with h
  · exact List.ne_nil_of_mem h
  · exact List.append_ne_nil_of_right_ne_nil _ (List.cons_ne_nil _ _)

section

variable {tree : Files β} {previous : Manifest} {conflicts : List Path}

theorem readManifest_ok {found : Option Manifest} (h : readManifest host tree = .ok found) :
    (tree.entry manifestPath = none ∧ found = none) ∨
      ∃ content m, tree.entry manifestPath = some (.file content) ∧
        parseManifest host content = some m ∧ found = some m := by
  unfold readManifest at h
  split at h
  · contradiction
  · split at h
    · next hnone => exact .inl ⟨hnone, (Except.ok.inj h).symm⟩
    · next content hcontent =>
      split at h
      · next m hm => exact .inr ⟨content, m, hcontent, hm, (Except.ok.inj h).symm⟩
      · contradiction
    · contradiction

theorem scanFile_ok {entry : Path × β} (h : scanFile host tree previous conflicts entry = .ok []) :
    conflicts = [] ∧ safeRelative entry.1 = true ∧
      (tree.entry (dest entry.1) = none ∨ ∃ content,
        tree.entry (dest entry.1) = some (.file content) ∧
          previous.lookup entry.1 = some (host.hash content)) := by
  unfold scanFile at h
  simp only at h
  split_ifs at h with hsafe hadopt
  · -- a directory that is not the installer's own
    exfalso
    split at h
    · contradiction
    · split at h
      · exact addConflict_ne_nil _ _ (Except.ok.inj h)
      · split_ifs at h
        · exact addConflict_ne_nil _ _ (Except.ok.inj h)
        · exact addConflict_ne_nil _ _ (Except.ok.inj h)
      · exact addConflict_ne_nil _ _ (Except.ok.inj h)
  · split at h
    · contradiction
    · split at h
      · next hnone => exact ⟨Except.ok.inj h, hsafe, .inl hnone⟩
      · next content hcontent =>
        split_ifs at h with hlookup
        · exact ⟨Except.ok.inj h, hsafe, .inr ⟨content, hcontent, hlookup⟩⟩
        · exact absurd (Except.ok.inj h) (addConflict_ne_nil _ _)
      · exact absurd (Except.ok.inj h) (addConflict_ne_nil _ _)

theorem scanOwned_ok {entry : Path × String} (h : scanOwned host tree conflicts entry = .ok []) :
    conflicts = [] ∧ (tree.entry (dest entry.1) = none ∨ ∃ content,
      tree.entry (dest entry.1) = some (.file content) ∧ host.hash content = entry.2) := by
  unfold scanOwned at h
  split at h
  · contradiction
  · split at h
    · next hnone => exact ⟨Except.ok.inj h, .inl hnone⟩
    · next content hcontent =>
      by_cases hhash : host.hash content = entry.2
      · rw [if_neg (not_not.2 hhash)] at h
        exact ⟨Except.ok.inj h, .inr ⟨content, hcontent, hhash⟩⟩
      · rw [if_pos hhash] at h
        exact absurd (Except.ok.inj h) (addConflict_ne_nil _ _)
    · exact absurd (Except.ok.inj h) (addConflict_ne_nil _ _)

/-- A fold that ends without a conflict has met none. -/
theorem foldlM_conflicts {α : Type} (scan : List Path → α → Except SetupError (List Path))
    {Good : α → Prop} (hscan : ∀ conflicts a, scan conflicts a = .ok [] → conflicts = [] ∧ Good a) :
    ∀ {entries : List α} {conflicts : List Path}, entries.foldlM scan conflicts = .ok [] →
      conflicts = [] ∧ ∀ a ∈ entries, Good a
  | [], conflicts, h => ⟨Except.ok.inj h, fun a ha => absurd ha List.not_mem_nil⟩
  | a :: rest, conflicts, h => by
    rw [List.foldlM_cons] at h
    cases hfirst : scan conflicts a with
    | error e =>
      rw [hfirst] at h
      contradiction
    | ok conflicts' =>
      rw [hfirst] at h
      obtain ⟨rfl, hrest⟩ :=
        foldlM_conflicts scan hscan (show rest.foldlM scan conflicts' = .ok [] from h)
      obtain ⟨hnil, hgood⟩ := hscan conflicts a hfirst
      exact ⟨hnil, List.forall_mem_cons.2 ⟨hgood, hrest⟩⟩

theorem check_ok {bundle : Bundle β} (h : check host bundle tree = .ok previous) :
    Checked host bundle tree previous := by
  unfold check at h
  cases hread : readManifest host tree with
  | error e =>
    rw [hread] at h
    contradiction
  | ok found =>
    rw [hread] at h
    change (bundle.files.foldlM (scanFile host tree (found.getD [])) [] >>= fun conflicts =>
      (found.getD []).foldlM (scanOwned host tree) conflicts >>= fun conflicts =>
      if conflicts.isEmpty then .ok (found.getD []) else .error (.conflicts conflicts)) = _ at h
    cases hfiles : bundle.files.foldlM (scanFile host tree (found.getD [])) [] with
    | error e =>
      rw [hfiles] at h
      contradiction
    | ok conflicts =>
      rw [hfiles] at h
      change ((found.getD []).foldlM (scanOwned host tree) conflicts >>= fun conflicts =>
        if conflicts.isEmpty then .ok (found.getD []) else .error (.conflicts conflicts)) = _ at h
      cases howned : (found.getD []).foldlM (scanOwned host tree) conflicts with
      | error e =>
        rw [howned] at h
        contradiction
      | ok conflicts' =>
        rw [howned] at h
        change (if conflicts'.isEmpty then _ else _) = _ at h
        split_ifs at h with hempty
        obtain rfl := Except.ok.inj h
        obtain rfl := List.isEmpty_iff.1 hempty
        obtain ⟨rfl, hkept⟩ :=
          foldlM_conflicts (scanOwned host tree) (fun _ _ => scanOwned_ok) howned
        obtain ⟨-, hgood⟩ := foldlM_conflicts (scanFile host tree _) (fun _ _ => scanFile_ok) hfiles
        refine ⟨?_, fun entry hentry => (hgood entry hentry).1,
          fun entry hentry => (hgood entry hentry).2, hkept⟩
        rcases readManifest_ok hread with ⟨hnone, rfl⟩ | ⟨content, m, hcontent, hm, rfl⟩
        · exact .inl ⟨hnone, rfl⟩
        · exact .inr ⟨content, hcontent, hm⟩

end

/-! ## The state while a run goes on -/

/-- What the ledger says about manifests. -/
structure Inv (host : Host β) (s : Machine β) : Prop where
  /-- The files of a manifest that was written have been put there, with the digests it names. -/
  covered : ∀ content m, (manifestPath, content) ∈ s.ledger → parseManifest host content = some m →
    ∀ entry ∈ m, ∃ bytes, (dest entry.1, bytes) ∈ s.ledger ∧ host.hash bytes = entry.2
  /-- The manifest that is there says what one says that was written. -/
  genuine : ∀ content m, s.tree.entry manifestPath = some (.file content) →
    parseManifest host content = some m →
    ∃ content', (manifestPath, content') ∈ s.ledger ∧ parseManifest host content' = some m

/-- In a run that has started with this tree and this ledger, only free paths have changed. -/
structure Phase (host : Host β) (Free : Path → Prop) (start : Files β) (base : List (Path × β))
    (s : Machine β) : Prop where
  kept : Call.Kept Free start s.tree
  inv : Inv host s
  ledger : base ⊆ s.ledger

/-- What every run may change. -/
structure Usual (host : Host β) (Free : Path → Prop) (start : Files β) : Prop where
  absent : ∀ q, start.entry q = none → Free q
  temp : ∀ q, IsTemp host q → Free q

section Phase

variable {Free : Path → Prop} {start tree : Files β} {base : List (Path × β)} {s : Machine β}

theorem Phase.withTree (h : Phase host Free start base s) (hkept : Call.Kept Free start tree)
    (hmanifest : ∀ content, tree.entry manifestPath = some (.file content) →
      s.tree.entry manifestPath = some (.file content)) (fates : List (Fate β)) :
    Phase host Free start base { s with tree, fates } :=
  ⟨hkept, ⟨h.inv.covered, fun content m hcontent => h.inv.genuine content m
    (hmanifest content hcontent)⟩, h.ledger⟩

theorem ends_ok {α : Type} {Q : α → Machine β → Prop} {E : Machine β → Prop} {a : α} (h : Q a s) :
    (∀ a' s', ((.ok a, s) : Except SetupError α × Machine β) = (.ok a', s') → Q a' s') ∧
      ∀ e s', ((.ok a, s) : Except SetupError α × Machine β) = (.error e, s') → E s' := by
  refine ⟨fun a' s' heq => ?_, fun e s' heq => ?_⟩
  · cases heq
    exact h
  · cases heq

theorem ends_error {α : Type} {Q : α → Machine β → Prop} {E : Machine β → Prop} {e : SetupError}
    (h : E s) :
    (∀ a' s', ((.error e, s) : Except SetupError α × Machine β) = (.ok a', s') → Q a' s') ∧
      ∀ e' s', ((.error e, s) : Except SetupError α × Machine β) = (.error e', s') → E s' := by
  refine ⟨fun a' s' heq => ?_, fun e s' heq => ?_⟩
  · cases heq
  · cases heq
    exact h

theorem Phase.fates (h : Phase host Free start base s) (fates : List (Fate β)) :
    Phase host Free start base { s with fates } :=
  ⟨h.kept, ⟨h.inv.covered, h.inv.genuine⟩, h.ledger⟩

theorem triple_tryFinally {P E : Machine β → Prop} {Q R : Unit → Machine β → Prop}
    {body cleanup : M β Unit} (hbody : Prog.Triple P body Q E)
    (hcleanup : Prog.Triple (Q ()) cleanup R E)
    (hfailed : Prog.Triple E cleanup (fun _ => E) E) :
    Prog.Triple P (tryFinally body cleanup) R E := by
  intro s hs
  obtain ⟨hok, herr⟩ := hbody s hs
  unfold tryFinally Prog.run
  beta_reduce
  split
  · next u s' h => exact hcleanup s' (hok u s' h)
  · next s' h => exact ends_error (herr _ s' h)
  · next e s' _ h =>
    exact (hfailed.bind (f := fun _ => Prog.throw e) (R := R) fun _ => .throw fun _ hE => hE) s'
      (herr e s' h)

/-- Directories have been made, each among these paths and where nothing stood. -/
def Made (paths : List Path) (f f' : Path → Option (Entry β)) : Prop :=
  ∀ q, f' q = f q ∨ (f q = none ∧ f' q = some .directory ∧ q ∈ paths)

theorem Made.cons {above : Path} {paths : List Path} {f f' f'' : Path → Option (Entry β)}
    (h : Made [above] f f') (h' : Made paths f' f'') : Made (above :: paths) f f'' := by
  intro q
  rcases h' q with heq' | ⟨hnone, hdir, hmem⟩
  · rcases h q with heq | ⟨hnone, hdir, hmem⟩
    · exact .inl (heq'.trans heq)
    · exact .inr ⟨hnone, heq'.trans hdir, List.mem_cons.2 (.inl (List.mem_singleton.1 hmem))⟩
  · rcases h q with heq | ⟨-, hdir', -⟩
    · exact .inr ⟨heq.symm.trans hnone, hdir, List.mem_cons_of_mem _ hmem⟩
    · rw [hdir'] at hnone
      contradiction

/-- What is put at the path of the manifest names only files that have been put. -/
def Puts (host : Host β) (base : List (Path × β)) (file : Path) (bytes : β) : Prop :=
  file = manifestPath → ∀ m, parseManifest host bytes = some m →
    ∀ entry ∈ m, ∃ bytes', (dest entry.1, bytes') ∈ base ∧ host.hash bytes' = entry.2

/-- A file has been put in place of the temporary one. -/
theorem Phase.put (h : Phase host Free start base s) {file temp : Path} {bytes : β}
    (hfile : Free file) (htemp : Free temp) (hputs : Puts host base file bytes)
    (hentry : ∀ q, tree.entry q = if q = file then some (.file bytes)
      else if q = temp then none else s.tree.entry q) (fates : List (Fate β)) :
    Phase host Free start base (record file bytes { s with tree, fates }) := by
  have hgrow : s.ledger ⊆ s.ledger ++ [(file, bytes)] := List.subset_append_left _ _
  refine ⟨fun q hq => ?_, ⟨fun content m hmem hm entry hentry' => ?_,
    fun content m hcontent hm => ?_⟩, fun put hput => hgrow (h.ledger hput)⟩
  · have hne : q ≠ file := by
      rintro rfl
      exact hq hfile
    have hne' : q ≠ temp := by
      rintro rfl
      exact hq htemp
    show tree.entry q = _
    rw [hentry, if_neg hne, if_neg hne', h.kept q hq]
  · rcases List.mem_append.1 hmem with hmem | hmem
    · obtain ⟨bytes', hput, hhash⟩ := h.inv.covered content m hmem hm entry hentry'
      exact ⟨bytes', hgrow hput, hhash⟩
    · obtain ⟨rfl, rfl⟩ := Prod.mk.inj (List.mem_singleton.1 hmem)
      obtain ⟨bytes', hput, hhash⟩ := hputs rfl m hm entry hentry'
      exact ⟨bytes', hgrow (h.ledger hput), hhash⟩
  · have hcontent' : tree.entry manifestPath = some (.file content) := hcontent
    rw [hentry] at hcontent'
    split_ifs at hcontent' with hman htempman
    · obtain rfl : bytes = content := Entry.file.inj (Option.some.inj hcontent')
      exact ⟨bytes, List.mem_append_right _ (List.mem_singleton.2 (by rw [hman])), hm⟩
    · obtain ⟨content', hput, hm'⟩ := h.inv.genuine content m hcontent' hm
      exact ⟨content', hgrow hput, hm'⟩

/-- A file is there, and nothing else has changed but for directories above it. -/
structure Put (file : Path) (bytes : β) (f f' : Path → Option (Entry β)) : Prop where
  there : f' file = some (.file bytes)
  others : ∀ q, q ≠ file → f' q = f q ∨ (f q = none ∧ f' q = some .directory ∧ q <+: file)

theorem Phase.rebase (h : Phase host Free start base s) {base' : List (Path × β)}
    (hbase : base' ⊆ base) : Phase host Free start base' s :=
  ⟨h.kept, h.inv, fun _ hput => h.ledger (hbase hput)⟩

/-- The files are there, and nothing else has changed but for directories above them. -/
structure Placed (files : List (Path × β)) (f f' : Path → Option (Entry β)) : Prop where
  there : ∀ entry ∈ files, f' (dest entry.1) = some (.file entry.2)
  others : ∀ q, (∀ entry ∈ files, q ≠ dest entry.1) →
    f' q = f q ∨ (f q = none ∧ f' q = some .directory)

theorem Placed.cons {entry : Path × β} {files : List (Path × β)}
    {f f' f'' : Path → Option (Entry β)} (hput : Put (dest entry.1) entry.2 f f')
    (hrest : Placed files f' f'') (hnew : ∀ other ∈ files, dest entry.1 ≠ dest other.1) :
    Placed (entry :: files) f f'' := by
  refine ⟨List.forall_mem_cons.2 ⟨?_, hrest.there⟩, fun q hq => ?_⟩
  · rcases hrest.others _ hnew with heq | ⟨hnone, -⟩
    · rw [heq, hput.there]
    · rw [hput.there] at hnone
      contradiction
  · obtain ⟨hne, hq⟩ := List.forall_mem_cons.1 hq
    rcases hrest.others q hq with heq | ⟨hnone, hdir⟩
    · rcases hput.others q hne with heq' | ⟨hnone, hdir, -⟩
      · exact .inl (heq.trans heq')
      · exact .inr ⟨hnone, heq.trans hdir⟩
    · rcases hput.others q hne with heq' | ⟨-, hdir', -⟩
      · exact .inr ⟨heq'.symm.trans hnone, hdir⟩
      · rw [hdir'] at hnone
        contradiction

/-- Each file of the bundle has been put, or was there with its content. -/
def Recorded (files : List (Path × β)) (f : Path → Option (Entry β)) (ledger : List (Path × β)) :
    Prop :=
  ∀ entry ∈ files, (dest entry.1, entry.2) ∈ ledger ∨ f (dest entry.1) = some (.file entry.2)

/-! ## Writing a file -/

variable [DecidableEq β]

/-- The rule of a call. -/
theorem triple_call {c : Call String β} {P Q E : Machine β → Prop}
    (hok : ∀ s tree fates, P s → c.apply s.tree = some tree → Q { s with tree, fates })
    (herr : ∀ s fates, P s → E { s with fates })
    (htorn : ∀ s tree fates path content left, P s → c = .write path content →
      (Call.write path left).apply s.tree = some tree → E { s with tree, fates }) :
    Prog.Triple P (call c) (fun _ => Q) E := by
  have hfailed : ∀ s left fates, P s → E { s with tree := torn s.tree left c, fates } := by
    intro s left fates hs
    unfold torn
    split
    · next path content =>
      cases happly : (Call.write path left).apply s.tree with
      | none => exact herr s fates hs
      | some tree => exact htorn s tree fates path content left hs rfl happly
    · exact herr s fates hs
  intro s hs
  unfold call Prog.run
  beta_reduce
  split
  · exact ends_error (hfailed s _ _ hs)
  · exact ends_error (hfailed s _ _ hs)
  · split
    · next tree happly => exact ends_ok (hok s tree _ hs happly)
    · exact ends_error (herr s _ hs)

/-- A call at free paths that leaves the manifest alone. -/
theorem Phase.call (h : Phase host Free start base s) {c : Call String β}
    (happly : c.apply s.tree = some tree) (hfree : ∀ q ∈ c.touched, Free q)
    (hmanifest : manifestPath ∉ c.touched) (fates : List (Fate β)) :
    Phase host Free start base { s with tree, fates } :=
  h.withTree (Call.kept h.kept happly hfree) (fun content hcontent => by
    rwa [Call.entry_of_not_mem happly hmanifest] at hcontent) fates

theorem triple_mkdir (hu : Usual host Free start) (above : Path) (f : Path → Option (Entry β)) :
    Prog.Triple (fun s => Phase host Free start base s ∧ s.tree.entry = f) (call (.mkdir above))
      (fun _ s => Phase host Free start base s ∧ Made [above] f s.tree.entry)
      (Phase host Free start base) := by
  refine triple_call (fun s tree fates hs happly => ?_) (fun s fates hs => hs.1.fates fates)
    (fun _ _ _ _ _ _ _ hc _ => by cases hc)
  obtain ⟨hphase, rfl⟩ := hs
  obtain ⟨hwas, hentry⟩ := Call.entry_mkdir happly
  have hmade : Made [above] s.tree.entry tree.entry := by
    intro q
    rw [hentry q]
    split_ifs with hq
    · rcases hwas with hnone | hdir
      · exact .inr ⟨hq ▸ hnone, rfl, List.mem_singleton.2 hq⟩
      · exact .inl (hq ▸ hdir.symm)
    · exact .inl rfl
  refine ⟨hphase.withTree (fun q hq => ?_) (fun content hcontent => ?_) fates, hmade⟩
  · rcases hmade q with heq | ⟨hnone, -, -⟩
    · rw [heq, hphase.kept q hq]
    · exact absurd (hu.absent q ((hphase.kept q hq).symm.trans hnone)) hq
  · rcases hmade manifestPath with heq | ⟨-, hdir, -⟩
    · rw [← heq, hcontent]
    · rw [hcontent] at hdir
      cases hdir

theorem triple_mkdirs (hu : Usual host Free start) (paths : List Path) :
    ∀ f : Path → Option (Entry β),
      Prog.Triple (fun s => Phase host Free start base s ∧ s.tree.entry = f)
        (Prog.forEach paths fun above => call (.mkdir above))
        (fun _ s => Phase host Free start base s ∧ Made paths f s.tree.entry)
        (Phase host Free start base) := by
  induction paths with
  | nil => exact fun f => .pure fun s hs => ⟨hs.1, fun q => .inl (congrFun hs.2 q)⟩
  | cons above rest ih =>
    intro f
    refine (triple_mkdir hu above f).bind fun _ s hs => ?_
    exact (ih s.tree.entry).conseq (fun _ h => h) (fun _ _ h => ⟨h.1, hs.2.cons h.2⟩)
      (fun _ h => h) s ⟨hs.1, rfl⟩

theorem triple_writeAndRename {file temp : Path} {bytes : β}
    (f : Path → Option (Entry β)) (hfile : Free file) (htemp : Free temp) (hne : temp ≠ file)
    (hmanifest : temp ≠ manifestPath) (hputs : Puts host base file bytes) :
    Prog.Triple (fun s => Phase host Free start base s ∧ s.tree.entry = f)
      (writeAndRename host file bytes temp)
      (fun _ s => Phase host Free start base s ∧ s.tree.entry temp = none ∧
        (file, bytes) ∈ s.ledger ∧
        ∀ q, s.tree.entry q = if q = file then some (.file bytes) else f q)
      (Phase host Free start base) := by
  have htouched : ∀ q ∈ [temp], Free q := fun q hq => List.mem_singleton.1 hq ▸ htemp
  have hmanifest' : manifestPath ∉ [temp] := fun hmem => hmanifest (List.mem_singleton.1 hmem).symm
  have hcreate : Prog.Triple (fun s => Phase host Free start base s ∧ s.tree.entry = f)
      (call (.create temp host.empty)) (fun _ s => Phase host Free start base s ∧ f temp = none ∧
        ∀ q, q ≠ temp → s.tree.entry q = f q) (Phase host Free start base) := by
    refine triple_call (fun s tree fates hs happly => ?_) (fun s fates hs => hs.1.fates fates)
      (fun _ _ _ _ _ _ _ hc _ => by cases hc)
    obtain ⟨hphase, rfl⟩ := hs
    obtain ⟨hnone, hentry⟩ := Call.entry_create happly
    exact ⟨hphase.call happly htouched hmanifest' fates, hnone, fun q hq => by
      rw [hentry, if_neg hq]⟩
  have hwrite : Prog.Triple (fun s => Phase host Free start base s ∧ f temp = none ∧
        ∀ q, q ≠ temp → s.tree.entry q = f q) (call (.write temp bytes))
      (fun _ s => Phase host Free start base s ∧ f temp = none ∧
        s.tree.entry temp = some (.file bytes) ∧ ∀ q, q ≠ temp → s.tree.entry q = f q)
      (Phase host Free start base) := by
    refine triple_call (fun s tree fates hs happly => ?_) (fun s fates hs => hs.1.fates fates)
      (fun s tree fates path content left hs hc happly => ?_)
    · obtain ⟨hphase, hnone, hothers⟩ := hs
      refine ⟨hphase.call happly htouched hmanifest' fates, hnone, ?_, fun q hq => ?_⟩
      · show tree.entry temp = _
        rw [Call.entry_write happly, if_pos rfl]
      · show tree.entry q = _
        rw [Call.entry_write happly, if_neg hq, hothers q hq]
    · cases hc
      exact hs.1.call happly htouched hmanifest' fates
  have hrename : Prog.Triple (fun s => Phase host Free start base s ∧ f temp = none ∧
        s.tree.entry temp = some (.file bytes) ∧ ∀ q, q ≠ temp → s.tree.entry q = f q)
      (call (.rename temp file))
      (fun _ s => Phase host Free start base (record file bytes s) ∧ s.tree.entry temp = none ∧
        ∀ q, s.tree.entry q = if q = file then some (.file bytes) else f q)
      (Phase host Free start base) := by
    refine triple_call (fun s tree fates hs happly => ?_) (fun s fates hs => hs.1.fates fates)
      (fun _ _ _ _ _ _ _ hc _ => by cases hc)
    obtain ⟨hphase, hnone, hbytes, hothers⟩ := hs
    obtain ⟨content, hcontent, hentry⟩ := Call.entry_rename happly
    obtain rfl : content = bytes := by
      rw [hbytes] at hcontent
      exact (Entry.file.inj (Option.some.inj hcontent)).symm
    refine ⟨hphase.put hfile htemp hputs hentry fates, ?_, fun q => ?_⟩
    · show tree.entry temp = none
      rw [hentry, if_neg hne, if_pos rfl]
    · show tree.entry q = _
      rw [hentry]
      split_ifs with hq hq'
      · rfl
      · rw [hq', hnone]
      · exact hothers q hq'
  refine hcreate.bind fun _ => hwrite.bind fun _ => hrename.bind fun _ => .modify fun s hs => ?_
  exact ⟨hs.1, hs.2.1, List.mem_append_right _ (List.mem_singleton.2 rfl), hs.2.2⟩

theorem triple_removeFile {file : Path} (f : Path → Option (Entry β)) (hfile : Free file)
    (hmanifest : file ≠ manifestPath) :
    Prog.Triple (fun s => Phase host Free start base s ∧ s.tree.entry = f) (removeFile file)
      (fun _ s => Phase host Free start base s ∧
        ∀ q, s.tree.entry q = if q = file then none else f q)
      (Phase host Free start base) := by
  refine .withState fun s hs => ?_
  obtain ⟨hphase, rfl⟩ := hs
  by_cases hthere : (s.tree.entry file).isSome = true
  · rw [if_pos hthere]
    refine triple_call (fun s' tree fates hs happly => ?_) (fun s' fates hs => ?_)
      (fun _ _ _ _ _ _ _ hc _ => by cases hc)
    · subst hs
      refine ⟨hphase.call happly (fun q hq => List.mem_singleton.1 hq ▸ hfile)
        (fun hmem => hmanifest (List.mem_singleton.1 hmem).symm) fates, fun q => ?_⟩
      exact Call.entry_unlink happly q
    · exact hs ▸ hphase.fates fates
  · rw [if_neg hthere]
    refine .pure fun s' hs => ?_
    subst hs
    refine ⟨hphase, fun q => ?_⟩
    split_ifs with hq
    · rw [hq]
      exact Option.not_isSome_iff_eq_none.1 hthere
    · rfl

theorem triple_writeAtomic (hu : Usual host Free start) {file : Path} {bytes : β}
    (f : Path → Option (Entry β)) (hfile : Free file)
    (htemp : ∀ uuid, tempFile file uuid ≠ manifestPath) (hputs : Puts host base file bytes) :
    Prog.Triple (fun s => Phase host Free start base s ∧ s.tree.entry = f)
      (writeAtomic host file bytes)
      (fun _ s => Phase host Free start base s ∧ (file, bytes) ∈ s.ledger ∧
        Put file bytes f s.tree.entry)
      (Phase host Free start base) := by
  refine (triple_mkdirs hu file.dropLast.inits f).bind fun _ => .withState fun s hs => ?_
  obtain ⟨hphase, hmade⟩ := hs
  have hfreeTemp : Free (tempFile file (host.randomUUID s.drawn)) := hu.temp _ ⟨file, s.drawn, rfl⟩
  have hdraw : Prog.Triple (fun s' => s' = s) (Prog.modify draw : M β PUnit)
      (fun _ s' => Phase host Free start base s' ∧ s'.tree.entry = s.tree.entry)
      (Phase host Free start base) := .modify fun s' hs' => by
    subst hs'
    exact ⟨⟨hphase.kept, ⟨hphase.inv.covered, hphase.inv.genuine⟩, hphase.ledger⟩, rfl⟩
  refine hdraw.bind fun _ => triple_tryFinally (triple_writeAndRename s.tree.entry hfile hfreeTemp
    (tempFile_ne file _) (htemp _) hputs) ?_ ?_
  · -- the temporary file has been renamed, so there is nothing to clean up
    refine .withState fun s' hs' => ?_
    obtain ⟨hphase', hgone, hput, hentry⟩ := hs'
    rw [if_neg (by rw [hgone]; exact Bool.false_ne_true)]
    refine .pure fun s'' hs'' => hs'' ▸ ⟨hphase', hput, ?_, fun q hq => ?_⟩
    · rw [hentry, if_pos rfl]
    · rw [hentry, if_neg hq]
      rcases hmade q with heq | ⟨hnone, hdir, hmem⟩
      · exact .inl heq
      · exact .inr ⟨hnone, hdir, ((List.mem_inits _ _).1 hmem).trans (List.dropLast_prefix file)⟩
  · intro s' hs'
    exact (triple_removeFile s'.tree.entry hfreeTemp (htemp _)).conseq (fun _ h => h)
      (fun _ _ h => h.1) (fun _ h => h) s' ⟨hs', rfl⟩

/-- A file has been written, or has been there with this content. -/
theorem triple_putFile (hu : Usual host Free start) {file : Path} {bytes : β}
    (f : Path → Option (Entry β)) (hfile : Free file)
    (htemp : ∀ uuid, tempFile file uuid ≠ manifestPath) (hputs : Puts host base file bytes) :
    Prog.Triple (fun s => Phase host Free start base s ∧ s.tree.entry = f)
      (putFile host file bytes)
      (fun _ s => Phase host Free start base s ∧ Put file bytes f s.tree.entry ∧
        ((file, bytes) ∈ s.ledger ∨ f file = some (.file bytes)))
      (Phase host Free start base) := by
  have hwrite : ∀ s, Phase host Free start base s → s.tree.entry = f →
      Prog.Triple (fun s' => s' = s)
        (writeAtomic host file bytes >>= fun _ => (pure true : M β Bool))
        (fun _ s => Phase host Free start base s ∧ Put file bytes f s.tree.entry ∧
          ((file, bytes) ∈ s.ledger ∨ f file = some (.file bytes)))
        (Phase host Free start base) := by
    intro s hphase hf
    refine (Prog.Triple.bind (triple_writeAtomic hu f hfile htemp hputs) fun _ =>
      .pure fun s' hs' => ⟨hs'.1, hs'.2.2, .inl hs'.2.1⟩).conseq (fun s' hs' => ?_)
        (fun _ _ h => h) (fun _ h => h)
    rw [hs']
    exact ⟨hphase, hf⟩
  refine .withState fun s hs => ?_
  split
  · exact hwrite s hs.1 hs.2
  · next content hcontent =>
    split_ifs with hsame
    · refine .pure fun s' hs' => ?_
      rw [hs.2, hsame] at hcontent
      subst hs'
      exact ⟨hs.1, ⟨hs.2 ▸ hcontent, fun q _ => .inl (congrFun hs.2 q)⟩, .inr hcontent⟩
    · exact hwrite s hs.1 hs.2
  · exact .throw fun s' hs' => hs' ▸ hs.1

/-! ## A whole run -/

theorem triple_putFiles (hu : Usual host Free start) (files : List (Path × β)) :
    ∀ (base : List (Path × β)) (f : Path → Option (Entry β)), (files.map (·.1)).Nodup →
      (∀ entry ∈ files, safeRelative entry.1 = true) → (∀ entry ∈ files, Free (dest entry.1)) →
      Prog.Triple (fun s => Phase host Free start base s ∧ s.tree.entry = f) (putFiles host files)
        (fun _ s => Phase host Free start base s ∧ Placed files f s.tree.entry ∧
          Recorded files f s.ledger)
        (Phase host Free start base) := by
  induction files with
  | nil =>
    intro base f _ _ _
    refine .pure fun s hs => ⟨hs.1, ⟨fun _ h => absurd h List.not_mem_nil, fun q _ => ?_⟩,
      fun _ h => absurd h List.not_mem_nil⟩
    exact .inl (congrFun hs.2 q)
  | cons entry rest ih =>
    intro base f hnodup hsafe hfree
    obtain ⟨hnew, hnodup⟩ := List.nodup_cons.1 hnodup
    obtain ⟨hsafe₁, hsafe⟩ := List.forall_mem_cons.1 hsafe
    obtain ⟨hfree₁, hfree⟩ := List.forall_mem_cons.1 hfree
    have hnew' : ∀ other ∈ rest, dest entry.1 ≠ dest other.1 := by
      intro other hother heq
      exact hnew (List.mem_map.2 ⟨other, hother, (dest_injective heq).symm⟩)
    have hputs : Puts host base (dest entry.1) entry.2 :=
      fun heq => absurd heq (dest_ne_manifestPath hsafe₁)
    refine (triple_putFile hu f hfree₁
      (fun uuid => tempFile_ne_manifestPath (.inl ⟨entry.1, hsafe₁, rfl⟩)) hputs).bind
      fun written s hs => ?_
    obtain ⟨hphase, hput, hrecorded⟩ := hs
    -- from here on the ledger of the first file is part of the base
    have hphase' : Phase host Free start s.ledger s := ⟨hphase.kept, hphase.inv, fun _ h => h⟩
    refine ((ih s.ledger s.tree.entry hnodup hsafe hfree).bind fun others => .pure fun s' hs' => ?_)
      |>.conseq (fun _ h => h) (fun _ _ h => h) (fun _ h => h.rebase hphase.ledger) s ⟨hphase', rfl⟩
    obtain ⟨hphase₂, hplaced, hrest⟩ := hs'
    refine ⟨hphase₂.rebase hphase.ledger, hplaced.cons hput hnew',
      List.forall_mem_cons.2 ⟨?_, fun other hother => ?_⟩⟩
    · exact hrecorded.imp_left fun hmem => hphase₂.ledger hmem
    · rcases hrest other hother with hmem | hthere
      · exact .inl hmem
      · rcases hput.others _ (hnew' other hother).symm with heq | ⟨-, hdir, -⟩
        · exact .inr (heq.symm.trans hthere)
        · rw [hdir] at hthere
          cases hthere

theorem triple_removeFiles (base : List (Path × β)) (files : List Path) :
    ∀ f : Path → Option (Entry β), (∀ file ∈ files, safeRelative file = true) →
      (∀ file ∈ files, Free (dest file)) →
      Prog.Triple (fun s => Phase host Free start base s ∧ s.tree.entry = f)
        (Prog.forEach files fun file => removeFile (dest file))
        (fun _ s => Phase host Free start base s ∧
          ∀ q, s.tree.entry q = if q ∈ files.map dest then none else f q)
        (Phase host Free start base) := by
  induction files with
  | nil => exact fun f _ _ => .pure fun s hs => ⟨hs.1, fun q => congrFun hs.2 q⟩
  | cons file rest ih =>
    intro f hsafe hfree
    obtain ⟨hsafe₁, hsafe⟩ := List.forall_mem_cons.1 hsafe
    obtain ⟨hfree₁, hfree⟩ := List.forall_mem_cons.1 hfree
    refine (triple_removeFile f hfree₁ (dest_ne_manifestPath hsafe₁)).bind fun _ s hs => ?_
    refine (ih s.tree.entry hsafe hfree).conseq (fun _ h => h) (fun _ s' h => ⟨h.1, fun q => ?_⟩)
      (fun _ h => h) s ⟨hs.1, rfl⟩
    rw [h.2 q, hs.2 q, List.map_cons]
    by_cases hrest : q ∈ rest.map dest
    · rw [if_pos hrest, if_pos (List.mem_cons_of_mem _ hrest)]
    · rw [if_neg hrest]
      by_cases hq : q = dest file
      · rw [if_pos hq, if_pos (hq ▸ List.mem_cons_self)]
      · rw [if_neg hq, if_neg (fun hmem => (List.mem_cons.1 hmem).elim hq hrest)]

end Phase

/-- What a run that has ended well leaves behind. -/
structure Installed (host : Host β) (bundle : Bundle β) (previous : Manifest)
    (start tree : Files β) : Prop where
  files : ∀ entry ∈ bundle.files, tree.entry (dest entry.1) = some (.file entry.2)
  manifest : tree.entry manifestPath = some (.file (host.stringify (bundle.manifest host)))
  gone : ∀ file ∈ retired bundle previous, tree.entry (dest file) = none
  others : ∀ q, q ≠ manifestPath → (∀ entry ∈ bundle.files, q ≠ dest entry.1) →
    q ∉ (retired bundle previous).map dest →
    tree.entry q = start.entry q ∨ (start.entry q = none ∧ tree.entry q = some .directory)

/-- The paths at which a run with this earlier manifest may change something. -/
def MayChange (host : Host β) (start : Files β) (previous : Manifest) (q : Path) : Prop :=
  start.entry q = none ∨ IsTemp host q ∨
  (q = manifestPath ∧ ∃ content, start.entry q = some (.file content) ∧
    parseManifest host content = some previous) ∨
  ∃ entry ∈ previous, q = dest entry.1 ∧
    ∃ content, start.entry q = some (.file content) ∧ host.hash content = entry.2

theorem usual_mayChange (previous : Manifest) (start : Files β) :
    Usual host (MayChange host start previous) start :=
  ⟨fun _ h => .inl h, fun _ h => .inr (.inl h)⟩

section Install

variable {bundle : Bundle β} {previous : Manifest} {start : Files β}

theorem Checked.mem_of_lookup {file : Path} {digest : String}
    (h : previous.lookup file = some digest) : (file, digest) ∈ previous := by
  induction previous with
  | nil => contradiction
  | cons entry rest ih =>
    rw [List.lookup_cons] at h
    split at h
    · next heq =>
      obtain rfl := Option.some.inj h
      rw [eq_of_beq heq]
      exact List.mem_cons_self
    · exact List.mem_cons_of_mem _ (ih h)

theorem Checked.safe_previous (h : Checked host bundle start previous) :
    ∀ entry ∈ previous, safeRelative entry.1 = true := by
  rcases h.manifest with ⟨-, rfl⟩ | ⟨content, -, hparse⟩
  · exact fun entry hentry => absurd hentry List.not_mem_nil
  · exact safe_of_parseManifest hparse

theorem Checked.free_file (h : Checked host bundle start previous) :
    ∀ entry ∈ bundle.files, MayChange host start previous (dest entry.1) := by
  intro entry hentry
  rcases h.files entry hentry with hnone | ⟨content, hcontent, hlookup⟩
  · exact .inl hnone
  · exact .inr (.inr (.inr
      ⟨_, Checked.mem_of_lookup hlookup, rfl, content, hcontent, rfl⟩))

theorem Checked.free_owned (h : Checked host bundle start previous) :
    ∀ entry ∈ previous, MayChange host start previous (dest entry.1) := by
  intro entry hentry
  rcases h.owned entry hentry with hnone | ⟨content, hcontent, hhash⟩
  · exact .inl hnone
  · exact .inr (.inr (.inr ⟨entry, hentry, rfl, content, hcontent, hhash⟩))

theorem Checked.free_manifest (h : Checked host bundle start previous) :
    MayChange host start previous manifestPath := by
  rcases h.manifest with ⟨hnone, -⟩ | ⟨content, hcontent, hparse⟩
  · exact .inl hnone
  · exact .inr (.inr (.inl ⟨rfl, content, hcontent, hparse⟩))

/-- The manifest of the bundle may be put once its files have been. -/
theorem Checked.puts (h : Checked host bundle start previous) {s₀ : Machine β} (hinv : Inv host s₀)
    (hstart : s₀.tree = start) {ledger : List (Path × β)} (hgrow : s₀.ledger ⊆ ledger)
    (hrecorded : Recorded bundle.files start.entry ledger) :
    Puts host ledger manifestPath (host.stringify (bundle.manifest host)) := by
  intro _ m hm entry hentry
  rw [parseManifest_stringify h.safe] at hm
  obtain rfl := Option.some.inj hm
  obtain ⟨file, hfile, rfl⟩ := List.mem_map.1 hentry
  rcases hrecorded file hfile with hmem | hthere
  · exact ⟨file.2, hmem, rfl⟩
  · -- the file was there already: an earlier run has put it
    rcases h.files file hfile with hnone | ⟨content, hcontent, hlookup⟩
    · rw [hthere] at hnone
      contradiction
    · obtain rfl : file.2 = content := by
        rw [hthere] at hcontent
        exact Entry.file.inj (Option.some.inj hcontent)
      have hprevious := Checked.mem_of_lookup hlookup
      rcases h.manifest with ⟨-, rfl⟩ | ⟨text, htext, hparse⟩
      · contradiction
      · obtain ⟨text', htext', hparse'⟩ := hinv.genuine text previous (hstart ▸ htext) hparse
        obtain ⟨bytes, hput, hhash⟩ := hinv.covered text' previous htext' hparse' _ hprevious
        exact ⟨bytes, hgrow hput, hhash⟩

theorem mem_retired {file : Path} : file ∈ retired bundle previous ↔
    (∃ entry ∈ previous, entry.1 = file) ∧ ∀ entry ∈ bundle.files, file ≠ entry.1 := by
  unfold retired
  rw [List.mem_filter, List.mem_map, Bool.not_eq_true', List.contains_eq_mem,
    decide_eq_false_iff_not, List.mem_map]
  refine and_congr Iff.rfl ⟨fun h entry hentry heq => h ⟨entry, hentry, heq.symm⟩, ?_⟩
  rintro h ⟨entry, hentry, heq⟩
  exact h entry hentry heq.symm

theorem Phase.init {s₀ : Machine β} (hinv : Inv host s₀) (Free : Path → Prop) :
    Phase host Free s₀.tree s₀.ledger s₀ := ⟨fun _ _ => rfl, hinv, fun _ hput => hput⟩

variable [DecidableEq β]

theorem triple_install (h : Checked host bundle start previous) {s₀ : Machine β}
    (hinv : Inv host s₀) (hstart : s₀.tree = start) :
    Prog.Triple (fun s => Phase host (MayChange host start previous) start s₀.ledger s ∧
        s.tree.entry = start.entry)
      (install host bundle previous)
      (fun _ s => Phase host (MayChange host start previous) start s₀.ledger s ∧
        Installed host bundle previous start s.tree)
      (Phase host (MayChange host start previous) start s₀.ledger) := by
  have hretired : ∀ file ∈ retired bundle previous, ∃ entry ∈ previous, entry.1 = file :=
    fun file hfile => (mem_retired.1 hfile).1
  have hsafe : ∀ file ∈ retired bundle previous, safeRelative file = true := by
    intro file hfile
    obtain ⟨entry, hentry, rfl⟩ := hretired file hfile
    exact h.safe_previous entry hentry
  have hfree : ∀ file ∈ retired bundle previous, MayChange host start previous (dest file) := by
    intro file hfile
    obtain ⟨entry, hentry, rfl⟩ := hretired file hfile
    exact h.free_owned entry hentry
  refine (triple_putFiles (usual_mayChange previous start) bundle.files s₀.ledger start.entry
    bundle.nodup h.safe h.free_file).bind fun written s₁ hs₁ => ?_
  obtain ⟨hphase₁, hplaced, hrecorded⟩ := hs₁
  have hphase₁' : Phase host (MayChange host start previous) start s₁.ledger s₁ :=
    ⟨hphase₁.kept, hphase₁.inv, fun _ hput => hput⟩
  have hputs := h.puts hinv hstart hphase₁.ledger hrecorded
  refine Prog.Triple.conseq
    ((triple_removeFiles s₁.ledger (retired bundle previous) s₁.tree.entry hsafe
      hfree).bind fun _ s₂ hs₂ => ?_)
    (fun _ hs => hs) (fun _ _ hs => hs) (fun _ hs => hs.rebase hphase₁.ledger) s₁ ⟨hphase₁', rfl⟩
  obtain ⟨hphase₂, hremoved⟩ := hs₂
  refine ((triple_putFile (usual_mayChange previous start) s₂.tree.entry h.free_manifest
    (fun uuid => tempFile_ne_manifestPath (.inr rfl)) hputs).bind fun _ =>
      .pure fun s₃ hs₃ => ?_) s₂ ⟨hphase₂, rfl⟩
  obtain ⟨hphase₃, hput, -⟩ := hs₃
  refine ⟨hphase₃.rebase hphase₁.ledger, ⟨fun entry hentry => ?_, hput.there, fun file hfile => ?_,
    fun q hmanifest hfiles hnot => ?_⟩⟩
  · -- a file of the bundle: neither removed nor in the way of the manifest
    have hnot : dest entry.1 ∉ (retired bundle previous).map dest := by
      intro hmem
      obtain ⟨file, hfile, heq⟩ := List.mem_map.1 hmem
      exact (mem_retired.1 hfile).2 entry hentry (dest_injective heq)
    have hthere : s₂.tree.entry (dest entry.1) = some (.file entry.2) := by
      rw [hremoved, if_neg hnot, hplaced.there entry hentry]
    rcases hput.others _ (dest_ne_manifestPath (h.safe entry hentry)) with heq | ⟨hnone, -, -⟩
    · rw [heq, hthere]
    · rw [hthere] at hnone
      contradiction
  · have hnone : s₂.tree.entry (dest file) = none := by
      rw [hremoved, if_pos (List.mem_map_of_mem hfile)]
    have hne := dest_ne_manifestPath (hsafe file hfile)
    rcases hput.others _ hne with heq | ⟨-, -, hbelow⟩
    · rw [heq, hnone]
    · -- a safe name is too long to be that of a directory above the manifest
      have hlength := two_le_length (hsafe file hfile)
      refine absurd (hbelow.eq_of_length_le ?_) hne
      show ["skills", ".wood-fired-tasks", "manifest.json"].length ≤ (skillsDir ++ file).length
      rw [List.length_append]
      exact Nat.add_le_add_left hlength 1
  · rcases hput.others q hmanifest with heq | ⟨hnone, hdir, -⟩
    · rw [heq, hremoved, if_neg hnot]
      exact hplaced.others q hfiles
    · rw [hremoved, if_neg hnot] at hnone
      rcases hplaced.others q hfiles with heq | ⟨-, hdir'⟩
      · exact .inr ⟨heq.symm.trans hnone, hdir⟩
      · rw [hdir'] at hnone
        contradiction

/-- What a run has done when it ends: nothing, unless all checks have passed. -/
theorem copyCodexSkills_cases (host : Host β) (s : Machine β) (bundle : Bundle β)
    (dryRun : Bool) :
    (∃ outcome, (copyCodexSkills host bundle dryRun).run s = (outcome, s)) ∨
      ∃ previous, check host bundle s.tree = .ok previous ∧ dryRun = false ∧
        (copyCodexSkills host bundle dryRun).run s = (install host bundle previous).run s := by
  unfold copyCodexSkills
  by_cases hskill : (bundle.files.any fun entry => isSkillFile entry.1) = true
  · rw [if_pos hskill, Prog.run_withState]
    cases hcheck : check host bundle s.tree with
    | error e => exact .inl ⟨.error e, rfl⟩
    | ok previous =>
      cases dryRun with
      | true => exact .inl ⟨.ok [], rfl⟩
      | false => exact .inr ⟨previous, rfl, rfl, rfl⟩
  · rw [if_neg hskill]
    exact .inl ⟨.error .missing, rfl⟩

theorem install_spec {s : Machine β} (hinv : Inv host s)
    (hcheck : check host bundle s.tree = .ok previous) :
    Phase host (MayChange host s.tree previous) s.tree s.ledger
        ((install host bundle previous).exec s) ∧
      ∀ written s', (install host bundle previous).run s = (.ok written, s') →
        Installed host bundle previous s.tree s'.tree := by
  have htriple := triple_install (check_ok hcheck) hinv rfl
  refine ⟨htriple.exec (fun _ _ h => h.1) (fun _ h => h) ⟨.init hinv _, rfl⟩,
    fun written s' hrun => ?_⟩
  exact ((htriple s ⟨.init hinv _, rfl⟩).1 written s' hrun).2

end Install

/-! ## A run after a run -/

section Settled

variable {tree start : Files β} {bundle : Bundle β} {previous : Manifest}

/-- The names above a file are those of directories. -/
theorem checkPath_of_file {content : β} {rest : Path} :
    ∀ above : Path, tree.entry (above ++ rest) = some (.file content) →
      checkPath tree above rest = .ok () := by
  induction rest with
  | nil =>
    intro above h
    unfold checkPath
    rw [List.append_nil] at h
    rw [h]
  | cons name rest ih =>
    intro above h
    have hdir : tree.entry above = some .directory := by
      refine Tree.entry_of_isPrefix (List.prefix_append above (name :: rest)) ?_ ?_
      · intro heq
        have := congrArg List.length heq
        rw [List.length_append, List.length_cons] at this
        omega
      · rw [h]
        exact Option.some_ne_none _
    unfold checkPath
    rw [hdir]
    refine ih (above ++ [name]) ?_
    rw [List.append_assoc]
    exact h

theorem checkPath_file {path : Path} {content : β} (h : tree.entry path = some (.file content)) :
    checkPath tree [] path = .ok () := checkPath_of_file [] h

theorem foldlM_eq_nil {α : Type} {scan : List Path → α → Except SetupError (List Path)} :
    ∀ {entries : List α}, (∀ a ∈ entries, scan [] a = .ok []) → entries.foldlM scan [] = .ok []
  | [], _ => rfl
  | a :: rest, h => by
    rw [List.foldlM_cons, h a List.mem_cons_self]
    exact foldlM_eq_nil fun b hb => h b (List.mem_cons_of_mem a hb)

theorem lookup_of_mem (host : Host β) {entries : List (Path × β)}
    (hnodup : (entries.map (·.1)).Nodup) {entry : Path × β} (h : entry ∈ entries) :
    (entries.map fun entry => (entry.1, host.hash entry.2)).lookup entry.1 =
      some (host.hash entry.2) := by
  induction entries with
  | nil => contradiction
  | cons first rest ih =>
    obtain ⟨hnew, hnodup⟩ := List.nodup_cons.1 hnodup
    rw [List.map_cons, List.lookup_cons]
    rcases List.mem_cons.1 h with rfl | h
    · simp
    · have hne : (entry.1 == first.1) = false := by
        refine beq_eq_false_iff_ne.2 fun heq => hnew ?_
        exact List.mem_map.2 ⟨entry, h, heq⟩
      rw [hne]
      exact ih hnodup h

theorem scanFile_installed (h : Installed host bundle previous start tree)
    (hsafe : ∀ entry ∈ bundle.files, safeRelative entry.1 = true) {entry : Path × β}
    (hentry : entry ∈ bundle.files) :
    scanFile host tree (bundle.manifest host) [] entry = .ok [] := by
  have hthere := h.files entry hentry
  have howns : ownsDirectory (bundle.manifest host) entry.1 = true := by
    refine List.any_eq_true.2
      ⟨(entry.1, host.hash entry.2), List.mem_map.2 ⟨entry, hentry, rfl⟩, ?_⟩
    have hlength := two_le_length (hsafe entry hentry)
    simp only [decide_true, Bool.true_and, decide_eq_true_eq]
    omega
  have hlookup := lookup_of_mem host bundle.nodup hentry
  unfold scanFile
  simp only [hsafe entry hentry, if_true, howns, Bool.not_true, Bool.false_and]
  rw [checkPath_file hthere, hthere]
  show (if (bundle.manifest host).lookup entry.1 = _ then _ else _) = _
  rw [if_pos (show (bundle.manifest host).lookup entry.1 = _ from hlookup)]
  rfl

theorem check_installed (h : Installed host bundle previous start tree)
    (hsafe : ∀ entry ∈ bundle.files, safeRelative entry.1 = true) :
    check host bundle tree = .ok (bundle.manifest host) := by
  have hread : readManifest host tree = .ok (some (bundle.manifest host)) := by
    unfold readManifest
    rw [checkPath_file h.manifest, h.manifest]
    simp only [parseManifest_stringify hsafe]
  have hfiles : bundle.files.foldlM (scanFile host tree (bundle.manifest host)) [] = .ok [] :=
    foldlM_eq_nil fun entry hentry => scanFile_installed h hsafe hentry
  have howned : (bundle.manifest host).foldlM (scanOwned host tree) [] = .ok [] := by
    refine foldlM_eq_nil fun entry hentry => ?_
    obtain ⟨file, hfile, rfl⟩ := List.mem_map.1 hentry
    have hthere := h.files file hfile
    unfold scanOwned
    rw [checkPath_file hthere, hthere]
    exact if_neg (not_not.2 rfl)
  unfold check
  rw [hread]
  show (bundle.files.foldlM (scanFile host tree (bundle.manifest host)) [] >>= _) = _
  rw [hfiles]
  show ((bundle.manifest host).foldlM (scanOwned host tree) [] >>= _) = _
  rw [howned]
  rfl

variable [DecidableEq β]

theorem putFile_there {s : Machine β} {file : Path} {bytes : β}
    (h : s.tree.entry file = some (.file bytes)) :
    (putFile host file bytes).run s = (.ok false, s) := by
  unfold putFile
  rw [Prog.run_withState, h]
  simp only [if_true]
  rfl

theorem putFiles_there {s : Machine β} {files : List (Path × β)}
    (h : ∀ entry ∈ files, s.tree.entry (dest entry.1) = some (.file entry.2)) :
    (putFiles host files).run s = (.ok [], s) := by
  induction files with
  | nil => rfl
  | cons entry rest ih =>
    obtain ⟨hfirst, hrest⟩ := List.forall_mem_cons.1 h
    show ((putFile host (dest entry.1) entry.2) >>= _).run s = _
    rw [Prog.run_bind_ok (putFile_there hfirst), Prog.run_bind_ok (ih hrest)]
    rfl

theorem install_installed {s : Machine β} (h : Installed host bundle previous start s.tree) :
    (install host bundle (bundle.manifest host)).run s = (.ok [], s) := by
  have hretired : retired bundle (bundle.manifest host) = [] := by
    refine List.eq_nil_iff_forall_not_mem.2 fun file hfile => ?_
    obtain ⟨⟨entry, hentry, rfl⟩, hnew⟩ := mem_retired.1 hfile
    obtain ⟨listed, hlisted, rfl⟩ := List.mem_map.1 hentry
    exact hnew listed hlisted rfl
  unfold install
  rw [Prog.run_bind_ok (putFiles_there h.files), hretired]
  show (putFile host manifestPath _ >>= _).run s = _
  rw [Prog.run_bind_ok (putFile_there h.manifest)]
  rfl

end Settled

/-! ## Histories -/

section Runs

variable [DecidableEq β]

theorem inv_copyCodexSkills {s : Machine β} (h : Inv host s) (bundle : Bundle β) (dryRun : Bool) :
    Inv host ((copyCodexSkills host bundle dryRun).exec s) := by
  unfold Prog.exec
  rcases copyCodexSkills_cases host s bundle dryRun with
    ⟨outcome, hrun⟩ | ⟨previous, hcheck, -, hrun⟩
  · rw [hrun]
    exact h
  · rw [hrun]
    exact (install_spec h hcheck).1.inv

theorem inv_step {s : Machine β} (h : Inv host s) (a : Action β) : Inv host (step host s a) := by
  cases a with
  | copyCodexSkills bundle dryRun fates =>
    exact inv_copyCodexSkills (s := { s with fates }) ⟨h.covered, h.genuine⟩ bundle dryRun
  | edit tree =>
    show Inv host (if genuine host s tree then _ else s)
    split_ifs with hgenuine
    · refine ⟨h.covered, fun content m hcontent hm => ?_⟩
      unfold genuine at hgenuine
      rw [show tree.entry manifestPath = _ from hcontent] at hgenuine
      simp only [hm] at hgenuine
      obtain ⟨⟨path, bytes⟩, hput, hsame⟩ := List.any_eq_true.1 hgenuine
      rw [Bool.and_eq_true, decide_eq_true_eq, decide_eq_true_eq] at hsame
      obtain ⟨rfl, hparse⟩ := hsame
      exact ⟨bytes, hput, hparse⟩
    · exact h

theorem inv_run (host : Host β) (actions : List (Action β)) :
    Inv host (actions.foldl (step host) {}) :=
  (RunOk.of_forall (C := fun _ _ => True) fun _ _ _ => trivial).invariant
    (fun _ a h _ => inv_step h a)
    ⟨fun _ _ h => absurd h List.not_mem_nil, fun _ _ h => absurd h.symm (Option.some_ne_none _)⟩

/-- **Main theorem.** After any history, a run that ends well leaves exactly the files of its bundle
    and their manifest, without those that it has taken over from an earlier bundle; all else is as
    it was, but for directories that were made. Any run of the same bundle after it writes nothing
    and ends well. What a dry run refuses, the run refuses in the same way. -/
theorem copyCodexSkills_settles (host : Host β) (actions : List (Action β)) (bundle : Bundle β)
    (fates : List (Fate β)) :
    let s := { actions.foldl (step host) {} with fates }
    (∀ written s', (copyCodexSkills host bundle false).run s = (.ok written, s') →
      (∃ previous, check host bundle s.tree = .ok previous ∧
        Installed host bundle previous s.tree s'.tree) ∧
      ∀ dryRun fates', (copyCodexSkills host bundle dryRun).run { s' with fates := fates' } =
        (.ok [], { s' with fates := fates' })) ∧
    ∀ e s', (copyCodexSkills host bundle true).run s = (.error e, s') →
      s' = s ∧ (copyCodexSkills host bundle false).run s = (.error e, s) := by
  intro s
  have hinv : Inv host s := ⟨(inv_run host actions).covered, (inv_run host actions).genuine⟩
  by_cases hskill : (bundle.files.any fun entry => isSkillFile entry.1) = true
  · have hrun : ∀ dryRun s, (copyCodexSkills host bundle dryRun).run s =
        (Prog.lift (check host bundle s.tree) >>= fun previous =>
          if dryRun then pure [] else install host bundle previous).run s := by
      intro dryRun s
      unfold copyCodexSkills
      rw [if_pos hskill, Prog.run_withState]
    constructor
    · intro written s' hwet
      rw [hrun] at hwet
      cases hcheck : check host bundle s.tree with
      | error e =>
        rw [hcheck] at hwet
        cases hwet
      | ok previous =>
        rw [hcheck] at hwet
        have hinstalled := (install_spec hinv hcheck).2 written s' hwet
        refine ⟨⟨previous, rfl, hinstalled⟩, fun dryRun fates' => ?_⟩
        have hsettled := check_installed hinstalled (check_ok hcheck).safe
        rw [hrun, show check host bundle s'.tree = _ from hsettled]
        cases dryRun with
        | true => rfl
        | false => exact install_installed (s := { s' with fates := fates' }) hinstalled
    · intro e s' hdry
      rw [hrun] at hdry
      rw [hrun]
      cases hcheck : check host bundle s.tree with
      | error e' =>
        rw [hcheck] at hdry
        cases hdry
        exact ⟨rfl, rfl⟩
      | ok previous =>
        rw [hcheck] at hdry
        cases hdry
  · have hrun : ∀ dryRun, (copyCodexSkills host bundle dryRun).run s = (.error .missing, s) := by
      intro dryRun
      unfold copyCodexSkills
      rw [if_neg hskill]
      rfl
    refine ⟨fun written s' hwet => ?_, fun e s' hdry => ?_⟩
    · rw [hrun] at hwet
      cases hwet
    · rw [hrun] at hdry
      cases hdry
      exact ⟨rfl, hrun false⟩

end Runs

/-- A host for contents that are one of two texts or a manifest. -/
def twoTexts : Host (Bool ⊕ Manifest) where
  hash
    | .inl true => String.ofList (List.replicate 64 '1')
    | .inl false => String.ofList (List.replicate 64 '0')
    | .inr _ => String.ofList (List.replicate 64 'f')
  hash_isDigest bytes := by
    rcases bytes with (_ | _) | m
    · decide +kernel
    · decide +kernel
    · show isDigest (String.ofList (List.replicate 64 'f')) = true
      decide +kernel
  stringify := .inr
  parse
    | .inl _ => none
    | .inr m => some m.data
  parse_stringify _ _ _ := rfl
  randomUUID n := toString n
  empty := .inl false

/-- A skill that the user has changed after the installation stays as it is. -/
example :
    let file : Path := ["tasks-a", "SKILL.md"]
    let bundle : Bundle (Bool ⊕ Manifest) := ⟨[(file, .inl true)], by decide⟩
    let s := (copyCodexSkills twoTexts bundle false).exec {}
    let changed := ((Call.write (dest file) (.inl false)).apply s.tree).getD s.tree
    let s' := step twoTexts s (.edit changed)
    ((copyCodexSkills twoTexts bundle false).run s).1.toOption = some [] ∧
      ((copyCodexSkills twoTexts bundle false).run s').1.toOption = none ∧
      ((copyCodexSkills twoTexts bundle false).exec s').tree.entry (dest file) =
        some (.file (.inl false)) := by decide +kernel

end WoodFiredTasks.CodexSkills
