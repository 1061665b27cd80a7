import Mathlib.Order.Lattice.Nat
import WoodFiredTasks.Services.Ranking

set_option autoImplicit false

/-! # WSJF ranking equals its specification

The specification speaks of the edges of the project as a relation: the dependents of a task are
the tasks it reaches, at the length of a shortest walk. What the ranking computes from the lists
it loaded is determined by the tasks as a set and by that relation (`Loaded`), so the order in
which tasks and edges are supplied does not matter. -/

namespace WoodFiredTasks

namespace Ranking

/-! ## The specification -/

/-- The distance from a task to a dependent. -/
noncomputable def dist (db : Db) (projectId a b : Nat) : Nat :=
  sInf {n | Bfs.Walk (db.ProjectEdge projectId) n a b}

open Classical in
/-- The distinct transitive dependents of a task. -/
noncomputable def dependents (db : Db) (projectId id : Nat) : Finset Nat :=
  {d ∈ (db.projectIds projectId).toFinset | Relation.TransGen (db.ProjectEdge projectId) id d}

/-- The cost of delay that a task of the project passes on: none if it is unscored. -/
def costOfDelay (db : Db) (projectId id : Nat) : ℚ :=
  (baseCoDOf (db.projectTasks projectId) id).getD 0

/-- The effective score of a scored task. -/
noncomputable def effectiveScore (db : Db) (projectId id : Nat) (c : WsjfComponents) : ℚ :=
  min (baseCoD c + ∑ d ∈ dependents db projectId id,
      costOfDelay db projectId d * propagationGamma ^ (dist db projectId id d - 1))
    (3 * baseCoD c) / c.jobSize.toNat

/-- The tasks that a scope ranks. -/
def InScope (db : Db) (projectId : Nat) (t : Task) : RankScope → Prop
  | .all => True
  | .frontier => t.status ≠ .blocked ∧
      ∀ b ∈ db.projectTasks projectId, db.ProjectEdge projectId b.id t.id →
        b.status = .done ∨ b.status = .closed

/-- The order of the result: effective score descending, then `created_at`, then id. -/
def Before (db : Db) (projectId : Nat) (a b : RankedTask) : Prop :=
  b.effectiveWsjf < a.effectiveWsjf ∨
    (a.effectiveWsjf = b.effectiveWsjf ∧ ∃ ta ∈ db.projectTasks projectId,
      ∃ tb ∈ db.projectTasks projectId, ta.id = a.taskId ∧ tb.id = b.taskId ∧
        ta.createdAt.le tb.createdAt = true ∧ (ta.createdAt = tb.createdAt → a.taskId < b.taskId))

/-- What the row of a task says. -/
structure Describes (db : Db) (projectId : Nat) (t : Task) (row : RankedTask) : Prop where
  taskId : row.taskId = t.id
  components : row.components = hasComponents t
  scored : row.scored = (hasComponents t).isSome
  effective : ∀ c, hasComponents t = some c →
    row.effectiveWsjf = effectiveScore db projectId t.id c ∧ row.baseWsjf = some (computeWsjf c) ∧
      computeWsjf c ≤ row.effectiveWsjf ∧ row.effectiveWsjf ≤ 3 * computeWsjf c
  fallback : hasComponents t = none →
    row.effectiveWsjf = priorityFallbackScore t.priority ∧ row.baseWsjf = none

/-- The same rows of `tasks` and the same edges, in any order. -/
structure SameContent (db db' : Db) : Prop where
  tasks : db.tasks.rows.Perm db'.tasks.rows
  edges : ∀ a b, (a, b) ∈ db.edges ↔ (a, b) ∈ db'.edges

/-! ## What was loaded -/

/-- The tasks of a project and its edges, as lists. -/
structure Loaded (db : Db) (projectId : Nat) (tasks : List Task) (edges : List ProjectEdge) :
    Prop where
  tasks : tasks.Perm ((db.projectTasks projectId).map Task.untagged)
  edges : ∀ a b, (a, b) ∈ edges ↔ db.ProjectEdge projectId a b

section Loaded

variable {db db' : Db} {projectId : Nat} {tasks tasks' : List Task}
  {edges edges' : List ProjectEdge} {t : Task} {id : Nat}

theorem Loaded.of_sameContent (hsame : SameContent db db') (h : Loaded db' projectId tasks edges) :
    Loaded db projectId tasks edges := by
  have htasks : (db.projectTasks projectId).Perm (db'.projectTasks projectId) :=
    hsame.tasks.filter _
  have hids : ∀ a, a ∈ db.projectIds projectId ↔ a ∈ db'.projectIds projectId :=
    fun a => (htasks.map Task.id).mem_iff
  refine ⟨h.tasks.trans (htasks.map _).symm, fun a b => ?_⟩
  rw [h.edges, Db.ProjectEdge, Db.ProjectEdge, hids, hids, hsame.edges]

theorem Loaded.ids (h : Loaded db projectId tasks edges) :
    (tasks.map Task.id).Perm (db.projectIds projectId) := by
  have := h.tasks.map Task.id
  simpa [Db.projectIds, Function.comp_def] using this

theorem Loaded.nodup (h : Loaded db projectId tasks edges) : (tasks.map Task.id).Nodup :=
  h.ids.nodup_iff.2 Db.projectIds_nodup

theorem taskById_eq_some (hnodup : (tasks.map Task.id).Nodup) :
    taskById tasks id = some t ↔ t ∈ tasks ∧ t.id = id := by
  constructor
  · intro h
    exact ⟨List.mem_of_find?_eq_some h, by simpa using List.find?_some h⟩
  · intro h
    obtain ⟨hmem, rfl⟩ := h
    have hsome : (taskById tasks t.id).isSome = true := by
      rw [taskById, List.find?_isSome]
      exact ⟨t, hmem, by simp⟩
    obtain ⟨u, hu⟩ := Option.isSome_iff_exists.1 hsome
    have hid : u.id = t.id := by simpa using List.find?_some hu
    rw [hu, List.inj_on_of_nodup_map hnodup (List.mem_of_find?_eq_some hu) hmem hid]

/-- Lookups do not depend on the order of the tasks. -/
theorem taskById_perm (hnodup : (tasks.map Task.id).Nodup) (hperm : tasks.Perm tasks') :
    taskById tasks id = taskById tasks' id := by
  have hnodup' := (hperm.map Task.id).nodup_iff.1 hnodup
  ext t
  rw [taskById_eq_some hnodup, taskById_eq_some hnodup', hperm.mem_iff]

theorem taskById_untagged (rows : List Task) :
    taskById (rows.map Task.untagged) id = (taskById rows id).map Task.untagged := by
  rw [taskById, List.find?_map]
  rfl

theorem Loaded.taskById_eq (h : Loaded db projectId tasks edges) :
    taskById tasks id = (taskById (db.projectTasks projectId) id).map Task.untagged := by
  rw [taskById_perm h.nodup h.tasks, taskById_untagged]

theorem Loaded.baseCoDOf_eq (h : Loaded db projectId tasks edges) :
    baseCoDOf tasks id = baseCoDOf (db.projectTasks projectId) id := by
  rw [baseCoDOf, baseCoDOf, h.taskById_eq]
  cases taskById (db.projectTasks projectId) id <;> rfl

theorem Loaded.createdAt_eq (h : Loaded db projectId tasks edges) :
    createdAt tasks id = createdAt (db.projectTasks projectId) id := by
  rw [createdAt, createdAt, h.taskById_eq]
  cases taskById (db.projectTasks projectId) id <;> rfl

/-! ## Distances -/

theorem Loaded.edge_eq (h : Loaded db projectId tasks edges) :
    Bfs.Edge (Kahn.successors edges) = db.ProjectEdge projectId := by
  funext a b
  rw [eq_iff_iff, ← h.edges]
  simp [Bfs.Edge, Kahn.successors]

theorem Loaded.distances_spec (h : Loaded db projectId tasks edges)
    (hid : id ∈ db.projectIds projectId) :
    ((distances tasks edges id).map Prod.fst).Nodup ∧
      ∀ b d, (b, d) ∈ distances tasks edges id ↔
        Bfs.IsDist (db.ProjectEdge projectId) id b d := by
  have hclosed : ∀ a ∈ tasks.map Task.id, ∀ b ∈ Kahn.successors edges a,
      b ∈ tasks.map Task.id := by
    intro a _ b hb
    have hedge : Bfs.Edge (Kahn.successors edges) a b := hb
    rw [h.edge_eq] at hedge
    exact h.ids.mem_iff.2 hedge.2.2
  obtain ⟨ds, hds, hnodup, hmem⟩ := Bfs.distances_spec (h.ids.mem_iff.2 hid) hclosed
  rw [List.length_map] at hds
  rw [h.edge_eq] at hmem
  have heq : distances tasks edges id = ds := by rw [distances, hds, Option.getD_some]
  rw [heq]
  exact ⟨hnodup, hmem⟩

theorem lookup_eq_some_of_nodup {l : List (Nat × Nat)} (hnodup : (l.map Prod.fst).Nodup)
    {a d : Nat} : l.lookup a = some d ↔ (a, d) ∈ l := by
  induction l with
  | nil => simp
  | cons p l ih =>
    obtain ⟨b, e⟩ := p
    rw [List.map_cons, List.nodup_cons] at hnodup
    by_cases hab : a = b
    · subst hab
      have hnot : (a, d) ∉ l := fun hmem => hnodup.1 (List.mem_map.2 ⟨(a, d), hmem, rfl⟩)
      simp [hnot, eq_comm]
    · have hbeq : (a == b) = false := by simpa using hab
      simp [List.lookup_cons, hbeq, hab, ih hnodup.2]

theorem dist_eq {d b : Nat} (h : Bfs.IsDist (db.ProjectEdge projectId) id b d) :
    dist db projectId id b = d := by
  have hmem : dist db projectId id b ∈ {n | Bfs.Walk (db.ProjectEdge projectId) n id b} :=
    Nat.sInf_mem ⟨d, h.walk⟩
  exact Nat.le_antisymm (Nat.sInf_le h.walk) (h.le _ hmem)

theorem mem_dependents {d : Nat} :
    d ∈ dependents db projectId id ↔ Relation.TransGen (db.ProjectEdge projectId) id d := by
  simp only [dependents, Finset.mem_filter, List.mem_toFinset, and_iff_right_iff_imp]
  intro h
  obtain ⟨c, -, hedge⟩ := Relation.TransGen.tail'_iff.1 h
  exact hedge.2.2

/-- The dependent ids that the code runs over. -/
def dependentIds (tasks : List Task) (edges : List ProjectEdge) (id : Nat) : List Nat :=
  sortIds (((distances tasks edges id).map Prod.fst).filter fun depId => depId ≠ id)

theorem Loaded.mem_dependentIds (h : Loaded db projectId tasks edges)
    (hacyclic : Acyclic (db.ProjectEdge projectId)) (hid : id ∈ db.projectIds projectId)
    (d : Nat) : d ∈ dependentIds tasks edges id ↔ d ∈ dependents db projectId id := by
  rw [dependentIds, sortIds, List.mem_insertionSort, List.mem_filter, mem_dependents, List.mem_map,
    decide_eq_true_eq]
  constructor
  · intro hd
    obtain ⟨⟨p, hp, rfl⟩, hne⟩ := hd
    have hdist := (h.distances_spec hid).2 p.1 p.2 |>.1 hp
    have hreach := Bfs.exists_walk_iff.1 ⟨_, hdist.walk⟩
    rcases Relation.reflTransGen_iff_eq_or_transGen.1 hreach with heq | htrans
    · exact absurd heq hne
    · exact htrans
  · intro htrans
    obtain ⟨n, hn⟩ := Bfs.exists_isDist htrans.to_reflTransGen
    refine ⟨⟨(d, n), (h.distances_spec hid).2 d n |>.2 hn, rfl⟩, ?_⟩
    intro heq
    subst heq
    exact hacyclic d htrans

theorem Loaded.dependentIds_nodup (h : Loaded db projectId tasks edges)
    (hid : id ∈ db.projectIds projectId) : (dependentIds tasks edges id).Nodup := by
  rw [dependentIds, sortIds, (List.perm_insertionSort _ _).nodup_iff]
  exact (h.distances_spec hid).1.filter _

theorem Loaded.lookup_dist (h : Loaded db projectId tasks edges)
    (hid : id ∈ db.projectIds projectId) {d : Nat} (hd : d ∈ dependents db projectId id) :
    (distances tasks edges id).lookup d = some (dist db projectId id d) := by
  obtain ⟨n, hn⟩ := Bfs.exists_isDist (mem_dependents.1 hd).to_reflTransGen
  have hspec := h.distances_spec hid
  rw [dist_eq hn, lookup_eq_some_of_nodup hspec.1]
  exact (hspec.2 d n).2 hn

/-! ## Contributions -/

theorem baseCoD_pos (c : WsjfComponents) : 0 < baseCoD c := by
  have htier : ∀ f : Fib, (1 : ℚ) ≤ f.toNat := by
    intro f
    cases f <;> simp [Fib.toNat]
  have h₁ := htier c.value
  have h₂ := htier c.timeCriticality
  have h₃ := htier c.riskOpportunity
  rw [baseCoD]
  linarith

theorem baseCoDOf_pos {q : ℚ} (hq : baseCoDOf tasks id = some q) : 0 < q := by
  rw [baseCoDOf, Option.bind_eq_some_iff] at hq
  obtain ⟨t, -, ht⟩ := hq
  obtain ⟨c, -, rfl⟩ := Option.map_eq_some_iff.1 ht
  exact baseCoD_pos c

/-- The share of a dependent, in terms of the specification. -/
theorem Loaded.contribution_eq (h : Loaded db projectId tasks edges)
    (hid : id ∈ db.projectIds projectId) {d : Nat} (hd : d ∈ dependents db projectId id) :
    contribution tasks (distances tasks edges id) d =
      (baseCoDOf (db.projectTasks projectId) d).map fun base =>
        ⟨d, base * propagationGamma ^ (dist db projectId id d - 1)⟩ := by
  rw [contribution, h.lookup_dist hid hd, ← h.baseCoDOf_eq]
  cases hbase : baseCoDOf tasks d with
  | none => rfl
  | some base =>
    have hpos : base * propagationGamma ^ (dist db projectId id d - 1) ≠ 0 := by
      have hbase := baseCoDOf_pos hbase
      have hgamma : (0 : ℚ) < propagationGamma := by norm_num [propagationGamma]
      positivity
    simp [hpos]

theorem sum_filterMap (f : Nat → Option Contribution) (l : List Nat) :
    ((l.filterMap f).map Contribution.contribution).sum
      = (l.map fun d => ((f d).map Contribution.contribution).getD 0).sum := by
  induction l with
  | nil => rfl
  | cons d l ih =>
    cases hd : f d with
    | none => simp [hd, ih]
    | some p => simp [hd, ih]

theorem Loaded.sum_contributions (h : Loaded db projectId tasks edges)
    (hacyclic : Acyclic (db.ProjectEdge projectId)) (hid : id ∈ db.projectIds projectId) :
    ((contributions tasks edges id).map Contribution.contribution).sum =
      ∑ d ∈ dependents db projectId id,
        costOfDelay db projectId d * propagationGamma ^ (dist db projectId id d - 1) := by
  have hfin : (dependentIds tasks edges id).toFinset = dependents db projectId id := by
    ext d
    rw [List.mem_toFinset, h.mem_dependentIds hacyclic hid]
  have hsum : ((contributions tasks edges id).map Contribution.contribution).sum
      = ((dependentIds tasks edges id).map fun d =>
          costOfDelay db projectId d * propagationGamma ^ (dist db projectId id d - 1)).sum := by
    rw [contributions, sum_filterMap]
    refine congrArg List.sum (List.map_congr_left fun d hd => ?_)
    rw [h.contribution_eq hid ((h.mem_dependentIds hacyclic hid d).1 hd), costOfDelay]
    cases baseCoDOf (db.projectTasks projectId) d <;> simp
  rw [hsum, ← hfin, List.sum_toFinset _ (h.dependentIds_nodup hid)]

theorem Loaded.effectiveCoD_eq (h : Loaded db projectId tasks edges)
    (hacyclic : Acyclic (db.ProjectEdge projectId)) (hid : id ∈ db.projectIds projectId)
    (c : WsjfComponents) :
    effectiveCoD tasks edges id c / max (c.jobSize.toNat : ℚ) 1
      = effectiveScore db projectId id c := by
  have hsize : max (c.jobSize.toNat : ℚ) 1 = c.jobSize.toNat := by
    cases c.jobSize <;> norm_num [Fib.toNat]
  rw [effectiveCoD, effectiveScore, h.sum_contributions hacyclic hid, hsize, propagationCap,
    mul_comm (baseCoD c) 3]

theorem costOfDelay_nonneg (d : Nat) : 0 ≤ costOfDelay db projectId d := by
  rw [costOfDelay]
  cases hbase : baseCoDOf (db.projectTasks projectId) d with
  | none => simp
  | some base => exact (baseCoDOf_pos hbase).le

/-- The effective score lies between the base score and three times it. -/
theorem effectiveScore_bounds (db : Db) (projectId id : Nat) (c : WsjfComponents) :
    computeWsjf c ≤ effectiveScore db projectId id c ∧
      effectiveScore db projectId id c ≤ 3 * computeWsjf c := by
  have hsize : max (c.jobSize.toNat : ℚ) 1 = c.jobSize.toNat := by
    cases c.jobSize <;> norm_num [Fib.toNat]
  have hpos : (0 : ℚ) < c.jobSize.toNat := by cases c.jobSize <;> norm_num [Fib.toNat]
  have hsum : 0 ≤ ∑ d ∈ dependents db projectId id,
      costOfDelay db projectId d * propagationGamma ^ (dist db projectId id d - 1) := by
    refine Finset.sum_nonneg fun d _ => mul_nonneg (costOfDelay_nonneg d) ?_
    have hgamma : (0 : ℚ) < propagationGamma := by norm_num [propagationGamma]
    positivity
  have hbase := baseCoD_pos c
  have hscore : computeWsjf c = baseCoD c / c.jobSize.toNat := by rw [computeWsjf, hsize]; rfl
  rw [hscore, effectiveScore, ← mul_div_assoc]
  constructor
  · refine div_le_div_of_nonneg_right (le_min ?_ ?_) hpos.le
    · linarith
    · linarith
  · exact div_le_div_of_nonneg_right (min_le_right _ _) hpos.le

/-! ## Rows -/

theorem mem_projectIds (ht : t ∈ db.projectTasks projectId) : t.id ∈ db.projectIds projectId :=
  List.mem_map_of_mem ht

theorem Loaded.rankedTask_describes (h : Loaded db projectId tasks edges)
    (hacyclic : Acyclic (db.ProjectEdge projectId)) (ht : t ∈ db.projectTasks projectId) :
    Describes db projectId t (rankedTask tasks edges t.untagged) := by
  cases hc : hasComponents t with
  | none =>
    have hrow : rankedTask tasks edges t.untagged =
        ⟨t.id, false, none, priorityFallbackScore t.priority, none, [], none⟩ := by
      simp [rankedTask, hc]
    rw [hrow]
    exact ⟨rfl, hc.symm, by simp [hc], by simp [hc], by simp⟩
  | some c =>
    have hscore := h.effectiveCoD_eq hacyclic (mem_projectIds ht) c
    have hrow : rankedTask tasks edges t.untagged =
        ⟨t.id, true, some (computeWsjf c), effectiveScore db projectId t.id c, some c,
          contributions tasks edges t.id, t.wsjf.evidence⟩ := by
      simp [rankedTask, hc, hscore]
    have hbounds := effectiveScore_bounds db projectId t.id c
    rw [hrow]
    refine ⟨rfl, hc.symm, by simp [hc], ?_, by simp [hc]⟩
    intro c' hc'
    rw [hc, Option.some.injEq] at hc'
    subst hc'
    exact ⟨rfl, rfl, hbounds⟩

theorem Loaded.isReady_iff (h : Loaded db projectId tasks edges) :
    isReady tasks edges t.untagged = true ↔ InScope db projectId t .frontier := by
  have hblocker : ∀ a, a ∈ Kahn.successors (edges.map Prod.swap) t.id ↔
      db.ProjectEdge projectId a t.id := by
    intro a
    rw [← h.edges]
    simp [Kahn.successors]
  simp only [isReady, Task.untagged_status, Task.untagged_id, Bool.and_eq_true, bne_iff_ne, ne_eq,
    List.all_eq_true, InScope, hblocker]
  refine and_congr_right fun _ => ⟨fun hall b hb hedge => ?_, fun hall a hedge => ?_⟩
  · have hget : taskById tasks b.id = some b.untagged :=
      (taskById_eq_some h.nodup).2 ⟨h.tasks.mem_iff.2 (List.mem_map_of_mem hb), rfl⟩
    have := hall b.id hedge
    rw [hget] at this
    simpa using this
  · obtain ⟨b, hb, rfl⟩ := List.mem_map.1 hedge.2.1
    have hget : taskById tasks b.id = some b.untagged :=
      (taskById_eq_some h.nodup).2 ⟨h.tasks.mem_iff.2 (List.mem_map_of_mem hb), rfl⟩
    rw [hget]
    simpa using hall b hb hedge

/-- A list of rows does not depend on the order of what was loaded. -/
theorem Loaded.contributions_congr (h : Loaded db projectId tasks edges)
    (h' : Loaded db projectId tasks' edges') (hacyclic : Acyclic (db.ProjectEdge projectId))
    (hid : id ∈ db.projectIds projectId) :
    contributions tasks edges id = contributions tasks' edges' id := by
  have hids : dependentIds tasks edges id = dependentIds tasks' edges' id := by
    have hsorted : ∀ l : List Nat, (sortIds l).Pairwise (· ≤ ·) := List.pairwise_insertionSort _
    refine List.Perm.eq_of_pairwise (fun a b _ _ => Nat.le_antisymm) (hsorted _) (hsorted _) ?_
    refine (List.perm_ext_iff_of_nodup (h.dependentIds_nodup hid) (h'.dependentIds_nodup hid)).2 ?_
    intro d
    exact (h.mem_dependentIds hacyclic hid d).trans (h'.mem_dependentIds hacyclic hid d).symm
  show (dependentIds tasks edges id).filterMap _ = (dependentIds tasks' edges' id).filterMap _
  rw [← hids]
  refine List.filterMap_congr fun d hd => ?_
  have hdep := (h.mem_dependentIds hacyclic hid d).1 hd
  rw [h.contribution_eq hid hdep, h'.contribution_eq hid hdep]

theorem Loaded.rankedTask_congr (h : Loaded db projectId tasks edges)
    (h' : Loaded db projectId tasks' edges') (hacyclic : Acyclic (db.ProjectEdge projectId))
    (ht : t ∈ db.projectTasks projectId) :
    rankedTask tasks edges t.untagged = rankedTask tasks' edges' t.untagged := by
  have hcontrib := h.contributions_congr h' hacyclic (mem_projectIds ht)
  simp only [rankedTask, effectiveCoD, Task.untagged_id, hcontrib]

/-! ## Sorting -/

theorem rankedLe_iff {a b : RankedTask} : rankedLe tasks a b ↔
    b.effectiveWsjf < a.effectiveWsjf ∨ (a.effectiveWsjf = b.effectiveWsjf ∧
      (createdAt tasks a.taskId).le (createdAt tasks b.taskId) = true ∧
      (createdAt tasks a.taskId = createdAt tasks b.taskId → a.taskId ≤ b.taskId)) := by
  rw [rankedLe]
  by_cases heff : b.effectiveWsjf = a.effectiveWsjf
  · by_cases hcreated : createdAt tasks a.taskId = createdAt tasks b.taskId
    · simp [heff, hcreated, Stamp.le_refl]
    · simp [heff, hcreated]
  · have hne : ¬ a.effectiveWsjf = b.effectiveWsjf := fun h => heff h.symm
    simp [heff, hne, le_iff_lt_or_eq]

theorem rankedLe_total (a b : RankedTask) : rankedLe tasks a b ∨ rankedLe tasks b a := by
  rw [rankedLe_iff, rankedLe_iff]
  rcases lt_trichotomy a.effectiveWsjf b.effectiveWsjf with hlt | heq | hgt
  · exact .inr (.inl hlt)
  · by_cases hcreated : createdAt tasks a.taskId = createdAt tasks b.taskId
    · rcases Nat.le_total a.taskId b.taskId with hle | hle
      · exact .inl (.inr ⟨heq, hcreated ▸ Stamp.le_refl _, fun _ => hle⟩)
      · exact .inr (.inr ⟨heq.symm, hcreated ▸ Stamp.le_refl _, fun _ => hle⟩)
    · rcases Stamp.le_total (createdAt tasks a.taskId) (createdAt tasks b.taskId) with hle | hle
      · exact .inl (.inr ⟨heq, hle, fun h => absurd h hcreated⟩)
      · exact .inr (.inr ⟨heq.symm, hle, fun h => absurd h.symm hcreated⟩)
  · exact .inl (.inl hgt)

theorem rankedLe_trans {a b c : RankedTask} (h : rankedLe tasks a b) (h' : rankedLe tasks b c) :
    rankedLe tasks a c := by
  rw [rankedLe_iff] at h h' ⊢
  rcases h with hlt | ⟨heq, hle, hid⟩
  · rcases h' with hlt' | ⟨heq', -, -⟩
    · exact .inl (hlt'.trans hlt)
    · exact .inl (heq' ▸ hlt)
  · rcases h' with hlt' | ⟨heq', hle', hid'⟩
    · exact .inl (heq ▸ hlt')
    · refine .inr ⟨heq.trans heq', Stamp.le_trans hle hle', fun hac => ?_⟩
      -- all three instants are equal, so the ids decide
      have hab := Stamp.le_antisymm hle (hac ▸ hle')
      exact (hid hab).trans (hid' (hab ▸ hac))

theorem sortRanked_pairwise (rows : List RankedTask) :
    (rows.insertionSort (rankedLe tasks)).Pairwise (rankedLe tasks) := by
  have htotal : Std.Total (rankedLe tasks) := ⟨rankedLe_total⟩
  have htrans : IsTrans RankedTask (rankedLe tasks) := ⟨fun _ _ _ => rankedLe_trans⟩
  exact List.pairwise_insertionSort _ rows

theorem Loaded.rankedLe_eq (h : Loaded db projectId tasks edges) :
    rankedLe tasks = rankedLe (db.projectTasks projectId) := by
  funext a b
  simp only [rankedLe, h.createdAt_eq]

theorem createdAt_eq (ht : t ∈ db.projectTasks projectId) :
    createdAt (db.projectTasks projectId) t.id = t.createdAt := by
  have hnodup : ((db.projectTasks projectId).map Task.id).Nodup := Db.projectIds_nodup
  rw [createdAt, (taskById_eq_some hnodup).2 ⟨ht, rfl⟩, Option.map_some, Option.getD_some]

/-- The comparison of the sort, between rows of different tasks of the project. -/
theorem before_of_rankedLe {a b : RankedTask} (hne : a.taskId ≠ b.taskId)
    (ha : a.taskId ∈ db.projectIds projectId) (hb : b.taskId ∈ db.projectIds projectId)
    (hle : rankedLe (db.projectTasks projectId) a b) : Before db projectId a b := by
  rw [rankedLe_iff] at hle
  rcases hle with hlt | ⟨heq, hcreated, hid⟩
  · exact .inl hlt
  · obtain ⟨ta, hta, hta'⟩ := List.mem_map.1 ha
    obtain ⟨tb, htb, htb'⟩ := List.mem_map.1 hb
    rw [← hta', ← htb', createdAt_eq hta, createdAt_eq htb] at hcreated hid
    refine .inr ⟨heq, ta, hta, tb, htb, hta', htb', hcreated, fun h => ?_⟩
    have := hid h
    omega

end Loaded

/-! ## The ranking -/

/-- What the ranking of a scope is. -/
structure IsRanking (db : Db) (projectId : Nat) (scope : RankScope) (rows : List RankedTask) :
    Prop where
  once : (rows.map RankedTask.taskId).Nodup
  members : ∀ id, id ∈ rows.map RankedTask.taskId ↔
    ∃ t ∈ db.projectTasks projectId, t.id = id ∧ InScope db projectId t scope
  described : ∀ row ∈ rows, ∃ t ∈ db.projectTasks projectId, Describes db projectId t row
  sorted : rows.Pairwise (Before db projectId)

/-- The result in terms of what was loaded. -/
def rankLoaded (tasks : List Task) (edges : List ProjectEdge) (scope : RankScope) :
    List RankedTask :=
  let scopedTasks := match scope with
    | .frontier => tasks.filter (isReady tasks edges)
    | .all => tasks
  (scopedTasks.map (rankedTask tasks edges)).insertionSort (rankedLe tasks)

section Result

variable {db : Db} {projectId : Nat} {tasks tasks' : List Task} {edges edges' : List ProjectEdge}

open Classical in
/-- The rows of the tasks in scope, in the order of the table. -/
noncomputable def scopedRows (db : Db) (projectId : Nat) (tasks : List Task)
    (edges : List ProjectEdge) (scope : RankScope) : List RankedTask :=
  ((db.projectTasks projectId).filter fun t => InScope db projectId t scope).map fun t =>
    rankedTask tasks edges t.untagged

theorem Loaded.rankLoaded_perm (h : Loaded db projectId tasks edges) (scope : RankScope) :
    (rankLoaded tasks edges scope).Perm (scopedRows db projectId tasks edges scope) := by
  classical
  refine (List.perm_insertionSort _ _).trans ?_
  cases scope with
  | all =>
    have hall : (db.projectTasks projectId).filter (fun t => InScope db projectId t .all)
        = db.projectTasks projectId := List.filter_eq_self.2 fun _ _ => decide_eq_true trivial
    have := h.tasks.map (rankedTask tasks edges)
    rw [List.map_map] at this
    rw [scopedRows, hall]
    exact this
  | frontier =>
    have hready : (isReady tasks edges ∘ Task.untagged)
        = fun t => decide (InScope db projectId t .frontier) := by
      funext t
      rw [Function.comp_apply, Bool.eq_iff_iff, h.isReady_iff, decide_eq_true_eq]
    have := (h.tasks.filter (isReady tasks edges)).map (rankedTask tasks edges)
    rw [List.filter_map, hready, List.map_map] at this
    exact this

theorem scopedRows_nodup (scope : RankScope) :
    ((scopedRows db projectId tasks edges scope).map RankedTask.taskId).Nodup := by
  have hid : ∀ t : Task, (rankedTask tasks edges t.untagged).taskId = t.id := by
    intro t
    rw [rankedTask]
    cases hasComponents t.untagged <;> rfl
  rw [scopedRows, List.map_map]
  simp only [Function.comp_def, hid]
  exact (List.filter_sublist.map Task.id).nodup Db.projectIds_nodup

theorem Loaded.rankLoaded_sorted (h : Loaded db projectId tasks edges) (scope : RankScope) :
    (rankLoaded tasks edges scope).Pairwise (rankedLe (db.projectTasks projectId)) := by
  rw [← h.rankedLe_eq]
  exact sortRanked_pairwise _

theorem Loaded.isRanking (h : Loaded db projectId tasks edges)
    (hacyclic : Acyclic (db.ProjectEdge projectId)) (scope : RankScope) :
    IsRanking db projectId scope (rankLoaded tasks edges scope) := by
  have hperm := h.rankLoaded_perm scope
  have hdesc : ∀ t ∈ db.projectTasks projectId,
      Describes db projectId t (rankedTask tasks edges t.untagged) :=
    fun t ht => h.rankedTask_describes hacyclic ht
  have hmem : ∀ row, row ∈ rankLoaded tasks edges scope ↔ ∃ t ∈ db.projectTasks projectId,
      InScope db projectId t scope ∧ rankedTask tasks edges t.untagged = row := by
    intro row
    rw [hperm.mem_iff]
    simp [scopedRows, and_assoc]
  have honce := (hperm.map RankedTask.taskId).nodup_iff.2 (scopedRows_nodup scope)
  have hids : ∀ row ∈ rankLoaded tasks edges scope, row.taskId ∈ db.projectIds projectId := by
    intro row hrow
    obtain ⟨t, ht, -, rfl⟩ := (hmem row).1 hrow
    rw [(hdesc t ht).taskId]
    exact mem_projectIds ht
  refine ⟨honce, fun id => ?_, fun row hrow => ?_, ?_⟩
  · rw [List.mem_map]
    constructor
    · intro hrow
      obtain ⟨row, hrow, rfl⟩ := hrow
      obtain ⟨t, ht, hscope, rfl⟩ := (hmem row).1 hrow
      exact ⟨t, ht, (hdesc t ht).taskId.symm, hscope⟩
    · intro ht
      obtain ⟨t, ht, rfl, hscope⟩ := ht
      exact ⟨_, (hmem _).2 ⟨t, ht, hscope, rfl⟩, (hdesc t ht).taskId⟩
  · obtain ⟨t, ht, -, rfl⟩ := (hmem row).1 hrow
    exact ⟨t, ht, hdesc t ht⟩
  · have hsorted := (h.rankLoaded_sorted scope).and (List.pairwise_map.1 honce)
    refine hsorted.imp_of_mem fun ha hb hab => ?_
    exact before_of_rankedLe hab.2 (hids _ ha) (hids _ hb) hab.1

theorem Loaded.rankLoaded_congr (h : Loaded db projectId tasks edges)
    (h' : Loaded db projectId tasks' edges') (hacyclic : Acyclic (db.ProjectEdge projectId))
    (scope : RankScope) : rankLoaded tasks edges scope = rankLoaded tasks' edges' scope := by
  have hrows : scopedRows db projectId tasks edges scope
      = scopedRows db projectId tasks' edges' scope := by
    refine List.map_congr_left fun t ht => ?_
    exact h.rankedTask_congr h' hacyclic (List.mem_of_mem_filter ht)
  have hperm : (rankLoaded tasks edges scope).Perm (rankLoaded tasks' edges' scope) :=
    (h.rankLoaded_perm scope).trans (hrows ▸ (h'.rankLoaded_perm scope).symm)
  have hnodup := ((h.rankLoaded_perm scope).map RankedTask.taskId).nodup_iff.2
    (scopedRows_nodup scope)
  refine List.Perm.eq_of_pairwise (fun a b ha hb hab hba => ?_) (h.rankLoaded_sorted scope)
    (h'.rankLoaded_sorted scope) hperm
  -- rows that compare as equal have one id, so they are one row
  refine List.inj_on_of_nodup_map hnodup ha (hperm.mem_iff.2 hb) ?_
  rw [rankedLe_iff] at hab hba
  rcases hab with hlt | ⟨heq, hle, hid⟩
  · rcases hba with hlt' | ⟨heq, -, -⟩
    · exact absurd hlt' (lt_asymm hlt)
    · exact absurd heq hlt.ne
  · rcases hba with hlt' | ⟨-, hle', hid'⟩
    · exact absurd heq hlt'.ne
    · have hcreated := Stamp.le_antisymm hle hle'
      exact Nat.le_antisymm (hid hcreated) (hid' hcreated.symm)

theorem loaded (order order' : RowOrder) (db : Db) (projectId : Nat) :
    Loaded db projectId (loadProjectTasks order' db projectId)
      (TopologyService.classify order db projectId).edges := by
  refine ⟨loadProjectTasks_perm, fun a b => ?_⟩
  rw [← Db.mem_projectEdges, TopologyService.classify, TopologyService.edges_eq]
  by_cases hnil : db.projectEdges projectId = []
  · simp [hnil]
  · by_cases hc : TopologyService.hasCycle (db.projectEdges projectId) = true <;>
      simp [hnil, hc, mem_sortEdges]

theorem rankFrontier_eq (order order' : RowOrder) (db : Db) (projectId : Nat)
    (scope : RankScope) :
    rankFrontier order order' db projectId scope =
      if (TopologyService.classify order db projectId).topology = .dagCyclic then
        .error (.business s!"Cannot rank project {projectId}: dependency graph is cyclic (DAG_CYCLIC); break the cycle before ranking")
      else .ok (rankLoaded (loadProjectTasks order' db projectId)
        (TopologyService.classify order db projectId).edges scope) := rfl

end Result

/-- **Main theorem.** The ranking of a project throws a `BusinessError` exactly when the edges in
    the project contain a directed cycle, and is else the sorted list of the tasks in scope with
    their effective scores; it is the same for every order of the tasks and the edges. -/
theorem rankFrontier_spec (order order' : RowOrder) (db : Db) (projectId : Nat)
    (scope : RankScope) :
    (match rankFrontier order order' db projectId scope with
      | .error e => (∃ message, e = .business message) ∧
          ∃ x, Relation.TransGen (db.ProjectEdge projectId) x x
      | .ok rows => (¬ ∃ x, Relation.TransGen (db.ProjectEdge projectId) x x) ∧
          IsRanking db projectId scope rows) ∧
    ∀ (order₁ order₁' : RowOrder) (db' : Db), SameContent db db' →
      rankFrontier order₁ order₁' db' projectId scope
        = rankFrontier order order' db projectId scope := by
  have hcyclic : ∀ (order : RowOrder) (db : Db),
      (TopologyService.classify order db projectId).topology = .dagCyclic ↔
        ¬ Acyclic (db.ProjectEdge projectId) :=
    fun order db => (TopologyService.classify_describes order db projectId).cyclic
  have hex : (∃ x, Relation.TransGen (db.ProjectEdge projectId) x x) ↔
      ¬ Acyclic (db.ProjectEdge projectId) := by simp [Acyclic]
  rw [rankFrontier_eq]
  by_cases hacyclic : Acyclic (db.ProjectEdge projectId)
  · have hno : ¬ (TopologyService.classify order db projectId).topology = .dagCyclic :=
      fun h => (hcyclic order db).1 h hacyclic
    rw [if_neg hno]
    refine ⟨⟨fun h => hex.1 h hacyclic, (loaded order order' db projectId).isRanking hacyclic _⟩, ?_⟩
    intro order₁ order₁' db' hsame
    have hloaded := Loaded.of_sameContent hsame (loaded order₁ order₁' db' projectId)
    have hedge : db'.ProjectEdge projectId = db.ProjectEdge projectId := by
      funext a b
      rw [← (loaded order₁ order₁' db' projectId).edge_eq, hloaded.edge_eq]
    have hno' : ¬ (TopologyService.classify order₁ db' projectId).topology = .dagCyclic := by
      intro h
      exact (hcyclic order₁ db').1 h (hedge ▸ hacyclic)
    rw [rankFrontier_eq, if_neg hno',
      hloaded.rankLoaded_congr (loaded order order' db projectId) hacyclic]
  · have hyes := (hcyclic order db).2 hacyclic
    rw [if_pos hyes]
    refine ⟨⟨⟨_, rfl⟩, hex.2 hacyclic⟩, ?_⟩
    intro order₁ order₁' db' hsame
    have hloaded := Loaded.of_sameContent hsame (loaded order₁ order₁' db' projectId)
    have hedge : db'.ProjectEdge projectId = db.ProjectEdge projectId := by
      funext a b
      rw [← (loaded order₁ order₁' db' projectId).edge_eq, hloaded.edge_eq]
    rw [rankFrontier_eq, if_pos ((hcyclic order₁ db').2 (hedge ▸ hacyclic))]

/-! ## Samples -/

/-- A scored task of project 1 with a cost of delay of 3. -/
def sampleTask (id : Nat) : Task where
  id := id
  title := "task"
  description := none
  status := .open
  priority := .medium
  projectId := 1
  parentTaskId := none
  estimatedMinutes := none
  assignee := none
  createdBy := "agent"
  dueDate := none
  createdAt := .iso id
  updatedAt := .iso id
  version := 1
  claimedAt := none
  completedAt := none
  acceptanceCriteria := none
  verificationEvidence := none
  wsjf := { value := some .one, timeCriticality := some .one, riskOpportunity := some .one,
            jobSize := some .three }
  createdByUserId := none
  assigneeUserId := none
  tags := []

/-- A diamond: the dependents of task 1 bring it to the cap. -/
example :
    (rankLoaded ([4, 3, 2, 1].map sampleTask) [(1, 2), (1, 3), (2, 4), (3, 4)] .all).map
      (fun row => (row.taskId, row.effectiveWsjf)) = [(1, 3), (2, 2), (3, 2), (4, 1)] := by
  decide +kernel

/-- Two tasks, in either order, and no edges. -/
def sampleDb (first second : Nat) (h : first ≠ second ∧ 0 < first ∧ 0 < second) : Db :=
  { Db.empty with
    tasks :=
      { rows := [sampleTask first, sampleTask second]
        next := first + second
        nodup := by simpa [sampleTask] using h.1
        below := by simpa [sampleTask] using h.2.symm
        pos := by simpa [sampleTask] using h.2
        next_pos := Nat.add_pos_left h.2.1 second } }

/-- The ranking of the two tasks is the same whichever row comes first. -/
theorem rankFrontier_spec_swap :
    rankFrontier .stable .stable (sampleDb 2 1 (by decide)) 1 .frontier
      = rankFrontier .stable .stable (sampleDb 1 2 (by decide)) 1 .frontier :=
  (rankFrontier_spec .stable .stable (sampleDb 1 2 (by decide)) 1 .frontier).2 .stable .stable
    (sampleDb 2 1 (by decide)) ⟨List.Perm.swap _ _ _, fun _ _ => Iff.rfl⟩

end Ranking

end WoodFiredTasks
