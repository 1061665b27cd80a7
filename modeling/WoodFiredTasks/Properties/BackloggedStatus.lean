import Mathlib.Data.List.Nodup
import Mathlib.Data.List.Pairwise
import Mathlib.Data.List.Perm.Subperm
import WoodFiredTasks.Db.BackloggedStatus

set_option autoImplicit false

/-! # Migration 005 loses no data

Restoring a child table puts back exactly the rows that are missing, whichever they are: a table
is ordered by rowid, so it is determined by its rows (`restoreRows_eq`). The cascade may
therefore remove any part of the child tables. -/

namespace WoodFiredTasks.BackloggedStatus

/-! ## Valid databases -/

/-- What the constraints of a child table say of its rows. -/
structure ChildRows (schema : ChildSchema) (tasks : TaskTable) (rows : List Row) : Prop where
  columns : ∀ row ∈ rows, row.map Prod.fst = schema.columns
  ids : ∀ row ∈ rows, row.id = .integer row.rowid
  sorted : rows.Pairwise fun a b => a.rowid < b.rowid
  unique : rows.Pairwise fun a b => clash schema a b = false
  different : ∀ row ∈ rows, ∀ c ∈ schema.different, row.get c.1 ≠ row.get c.2
  references : ∀ row ∈ rows, ∀ c ∈ schema.references, row.get c ∈ tasks.ids

/-- A database at the schema of migrations 001 to 004 (with the old statuses) or 005 (with the
    new ones), referentially valid, with the task rows `rows`. -/
structure Valid (statuses : List TaskStatus) (rows : List TaskRow) (db : Database) : Prop where
  tasks : db.tasks = some ⟨statuses, rows⟩
  tasksNew : db.tasksNew = none
  consistent : TaskTable.consistent db.projects ⟨statuses, rows⟩ = true
  children : ∀ table, ∃ children, db.children table = some children ∧
    ChildRows table.schema ⟨statuses, rows⟩ children

/-! ## Restoring a table -/

section Restore

variable {schema : ChildSchema} {tasks : TaskTable} {all : List Row}

theorem clash_symm (row row' : Row) : clash schema row row' = clash schema row' row := by
  simp only [clash, eq_comm]

theorem ChildRows.eq_of_rowid (h : ChildRows schema tasks all) {a b : Row} (ha : a ∈ all)
    (hb : b ∈ all) (heq : a.rowid = b.rowid) : a = b := by
  by_contra hne
  have hsymm : Std.Symm fun a b : Row => a.rowid ≠ b.rowid := ⟨fun _ _ h => h.symm⟩
  have hdiff : all.Pairwise fun a b => a.rowid ≠ b.rowid := h.sorted.imp fun hlt => ne_of_lt hlt
  exact hdiff.forall ha hb hne heq

theorem ChildRows.nodup (h : ChildRows schema tasks all) : all.Nodup :=
  h.sorted.imp fun hlt heq => absurd (congrArg Row.rowid heq) (ne_of_lt hlt)

/-- A saved row, rebuilt from its columns. -/
theorem rebuildRow {row : Row} (hnodup : (row.map Prod.fst).Nodup) :
    (row.map Prod.fst).map (fun c => (c, row.get c)) = row := by
  have hget : ∀ p ∈ row, row.get p.1 = p.2 := by
    intro p hp
    induction row with
    | nil => simp at hp
    | cons q rest ih =>
      obtain ⟨column, value⟩ := q
      rw [List.map_cons, List.nodup_cons] at hnodup
      rcases List.mem_cons.1 hp with rfl | hp
      · simp [Row.get]
      · have hne : p.1 ≠ column := fun heq => hnodup.1 (List.mem_map.2 ⟨p, hp, heq⟩)
        have hbeq : (p.1 == column) = false := by simpa using hne
        simpa [Row.get, List.lookup_cons, hbeq] using ih hnodup.2 hp
  rw [List.map_map]
  refine (List.map_congr_left fun p hp => ?_).trans (List.map_id row)
  simp [hget p hp]

/-- One more row of a table goes to its place. -/
theorem ChildRows.orderedInsert_filter (h : ChildRows schema tasks all) {row : Row}
    (hrow : row ∈ all) {p q : Row → Bool} (hp : p row = false)
    (hq : ∀ r ∈ all, q r = true ↔ p r = true ∨ r = row) :
    (all.filter p).orderedInsert (fun a b => a.rowid ≤ b.rowid) row = all.filter q := by
  have hle : all.Pairwise fun a b => a.rowid ≤ b.rowid := h.sorted.imp Int.le_of_lt
  have htotal : Std.Total fun a b : Row => a.rowid ≤ b.rowid := ⟨fun a b => Int.le_total _ _⟩
  have htrans : IsTrans Row fun a b => a.rowid ≤ b.rowid := ⟨fun _ _ _ => Int.le_trans⟩
  have hperm : ((all.filter p).orderedInsert (fun a b => a.rowid ≤ b.rowid) row).Perm
      (all.filter q) := by
    refine (List.perm_orderedInsert _ row _).trans ?_
    have hnew : row ∉ all.filter p := by simp [hp]
    refine (List.perm_ext_iff_of_nodup (List.nodup_cons.2 ⟨hnew, h.nodup.filter _⟩)
      (h.nodup.filter _)).2 fun r => ?_
    simp only [List.mem_cons, List.mem_filter]
    constructor
    · intro hr
      rcases hr with rfl | ⟨hr, hpr⟩
      · exact ⟨hrow, (hq r hrow).2 (.inr rfl)⟩
      · exact ⟨hr, (hq r hr).2 (.inl hpr)⟩
    · intro hr
      rcases (hq r hr.1).1 hr.2 with hpr | rfl
      · exact .inr ⟨hr.1, hpr⟩
      · exact .inl rfl
  refine List.Perm.eq_of_pairwise (fun a b ha hb hab hba => ?_)
    ((hle.filter _).orderedInsert row _) (hle.filter _) hperm
  have ha' := List.mem_of_mem_filter (hperm.mem_iff.1 ha)
  exact h.eq_of_rowid ha' (List.mem_of_mem_filter hb) (Int.le_antisymm hab hba)

/-- Inserting a saved row that is missing. -/
theorem ChildRows.insertChild_eq (h : ChildRows schema tasks all) {row : Row} (hrow : row ∈ all)
    (rows : List Row) (hsub : ∀ r ∈ rows, r ∈ all) (hnew : row ∉ rows) :
    insertChild schema tasks row rows
      = some (rows.orderedInsert (fun a b => a.rowid ≤ b.rowid) row) := by
  have hfree : (rows.any fun r => decide (r.id = row.id) || clash schema row r) = false := by
    rw [List.any_eq_false]
    intro r hr
    have hne : row ≠ r := fun heq => hnew (heq ▸ hr)
    have hsymm : Std.Symm fun a b : Row => clash schema a b = false :=
      ⟨fun a b hab => by rw [clash_symm, hab]⟩
    have hclash : clash schema row r = false := h.unique.forall hrow (hsub r hr) hne
    have hid : r.id ≠ row.id := by
      rw [h.ids r (hsub r hr), h.ids row hrow, Ne, Value.integer.injEq]
      exact fun heq => hne (h.eq_of_rowid hrow (hsub r hr) heq.symm)
    simp [hclash, hid]
  have hdifferent : (schema.different.any fun c => decide (row.get c.1 = row.get c.2)) = false := by
    rw [List.any_eq_false]
    intro c hc
    simpa using h.different row hrow c hc
  have hreferences : (schema.references.all fun c => decide (row.get c ∈ tasks.ids)) = true := by
    rw [List.all_eq_true]
    intro c hc
    simpa using h.references row hrow c hc
  rw [insertChild, hfree, hdifferent, hreferences]
  rfl

/-- The loop over the saved rows, with `done` behind it: the table holds the rows that survived
    and those in `done`. -/
theorem restoreRows_eq (h : ChildRows schema tasks all) (hcolumns : schema.columns.Nodup)
    (keep : Row → Bool) (saved : List Row) :
    ∀ done, all = done ++ saved →
      restoreRows schema tasks schema.columns ((all.filter keep).map Row.id) saved
        (all.filter fun r => keep r || decide (r ∈ done)) = some all := by
  induction saved with
  | nil =>
    intro done hall
    rw [List.append_nil] at hall
    subst hall
    rw [restoreRows, List.filter_eq_self.2 fun r hr => by simp [hr]]
  | cons row saved ih =>
    intro done hall
    have hrow : row ∈ all := by simp [hall]
    have hdone : row ∉ done := by
      have hnodup := h.nodup
      rw [hall, List.nodup_append] at hnodup
      exact fun hmem => hnodup.2.2 row hmem row List.mem_cons_self rfl
    have hkeep : row.id ∈ (all.filter keep).map Row.id ↔ keep row = true := by
      constructor
      · intro hmem
        obtain ⟨r, hr, heq⟩ := List.mem_map.1 hmem
        rw [List.mem_filter] at hr
        rw [h.ids r hr.1, h.ids row hrow, Value.integer.injEq] at heq
        exact h.eq_of_rowid hr.1 hrow heq ▸ hr.2
      · intro hk
        exact List.mem_map_of_mem (List.mem_filter.2 ⟨hrow, hk⟩)
    have ih := ih (done ++ [row]) (by simpa using hall)
    rw [restoreRows]
    by_cases hk : keep row = true
    · rw [if_pos (hkeep.2 hk)]
      have hsame : (all.filter fun r => keep r || decide (r ∈ done))
          = all.filter fun r => keep r || decide (r ∈ done ++ [row]) := by
        refine List.filter_congr fun r _ => ?_
        by_cases hr : r = row
        · simp [hr, hk]
        · simp [hr]
      rwa [hsame]
    · rw [if_neg fun hmem => hk (hkeep.1 hmem)]
      have hcols : schema.columns = row.map Prod.fst := (h.columns row hrow).symm
      have hback : schema.columns.map (fun c => (c, row.get c)) = row := by
        rw [hcols]
        exact rebuildRow (hcols ▸ hcolumns)
      have hinsert := h.insertChild_eq hrow
        (all.filter fun r => keep r || decide (r ∈ done))
        (fun r hr => List.mem_of_mem_filter hr) (by simp [hk, hdone])
      rw [hback, hinsert]
      have hplace := h.orderedInsert_filter hrow
        (p := fun r => keep r || decide (r ∈ done))
        (q := fun r => keep r || decide (r ∈ done ++ [row])) (by simp [hk, hdone])
        (fun r _ => by simp [or_assoc])
      dsimp only
      rw [hplace]
      exact ih

end Restore

/-! ## The rebuild -/

theorem schema_columns_nodup (table : ChildTable) : table.schema.columns.Nodup := by
  cases table <;> decide

/-- Restoring one table, whatever part of it is left. -/
theorem restoreTable_eq {snapshot : ChildSnapshot} {db : Database} {table : ChildTable}
    {tasks : TaskTable} {all : List Row} (keep : Row → Bool) (htasks : db.tasks = some tasks)
    (hsnapshot : snapshot table = some all) (hall : ChildRows table.schema tasks all)
    (hleft : db.children table = some (all.filter keep)) :
    restoreTable snapshot db table
      = some { db with children := Function.update db.children table (some all) } := by
  cases all with
  | nil =>
    have hsame : Function.update db.children table (some []) = db.children := by
      rw [← show db.children table = some [] by simpa using hleft, Function.update_eq_self]
    simp only [restoreTable, hsnapshot, hsame]
  | cons first saved =>
    have hcolumns : first.map Prod.fst = table.schema.columns := hall.columns first (by simp)
    have hrestore := restoreRows_eq hall (schema_columns_nodup table) keep (first :: saved) [] rfl
    simp only [List.not_mem_nil, decide_false, Bool.or_false] at hrestore
    simp only [restoreTable, hsnapshot, hleft, htasks, hcolumns, hrestore, Option.map_some]

theorem restoreChildTables_eq (snapshot : ChildSnapshot) (db : Database) {tasks : TaskTable}
    {rows : ChildTable → List Row} (keep : ChildTable → Row → Bool)
    (htasks : db.tasks = some tasks) (hsnapshot : ∀ table, snapshot table = some (rows table))
    (hrows : ∀ table, ChildRows table.schema tasks (rows table))
    (hleft : ∀ table, db.children table = some ((rows table).filter (keep table))) :
    restoreChildTables snapshot db = some { db with children := fun table => some (rows table) } := by
  have htable : ∀ (db' : Database) (table : ChildTable), db'.tasks = some tasks →
      db'.children table = db.children table →
      restoreTable snapshot db' table
        = some { db' with children := Function.update db'.children table (some (rows table)) } :=
    fun db' table ht hc => restoreTable_eq (keep table) ht (hsnapshot table) (hrows table)
      (hc.trans (hleft table))
  let db₁ : Database :=
    { db with children := Function.update db.children .taskTags (some (rows .taskTags)) }
  let db₂ : Database :=
    { db with
      children := Function.update db₁.children .taskDependencies (some (rows .taskDependencies)) }
  have h₁ : restoreTable snapshot db .taskTags = some db₁ := htable db _ htasks rfl
  have h₂ : restoreTable snapshot db₁ .taskDependencies = some db₂ :=
    htable db₁ _ htasks (by simp [db₁])
  have h₃ := htable db₂ .taskComments htasks (by simp [db₂, db₁])
  simp only [restoreChildTables, taskChildTables, List.foldlM_cons, List.foldlM_nil, h₁, h₂, h₃,
    Option.bind_eq_bind, Option.bind_some, Option.pure_def, Option.some.injEq]
  have hchildren : Function.update db₂.children .taskComments (some (rows .taskComments))
      = fun table => some (rows table) := by
    funext table
    cases table <;> simp [db₂, db₁, Function.update]
  rw [hchildren]

/-- The rebuild changes the `CHECK` on the status and nothing else. -/
theorem rebuild_eq {db : Database} {t : TaskTable} {statuses : List TaskStatus}
    (htasks : db.tasks = some t) (hnew : db.tasksNew = none)
    (hconsistent : TaskTable.consistent db.projects ⟨statuses, t.rows⟩ = true)
    (hchildren : ∀ table, ∃ rows, db.children table = some rows ∧
      ChildRows table.schema ⟨statuses, t.rows⟩ rows) :
    rebuild db.children statuses db = some { db with tasks := some ⟨statuses, t.rows⟩ } := by
  choose rows hrows hvalid using hchildren
  have hcreate : createTasksNew statuses db = some { db with tasksNew := some ⟨statuses, []⟩ } := by
    simp [createTasksNew, hnew]
  have hcopy : copyTasks { db with tasksNew := some ⟨statuses, []⟩ }
      = some { db with tasksNew := some ⟨statuses, t.rows⟩ } := by
    simp [copyTasks, htasks, hconsistent]
  have hdrop : dropTasks { db with tasksNew := some ⟨statuses, t.rows⟩ }
      = some { db with
          tasks := none
          tasksNew := some ⟨statuses, t.rows⟩
          children := fun table => some ((rows table).filter fun row =>
            !refersTo table.schema t.ids row) } := by
    simp [dropTasks, htasks, hrows]
  have hrestore := restoreChildTables_eq db.children
    { db with
      tasks := some ⟨statuses, t.rows⟩
      tasksNew := none
      children := fun table => some ((rows table).filter fun row =>
        !refersTo table.schema t.ids row) }
    (fun table row => !refersTo table.schema t.ids row) rfl hrows hvalid fun _ => rfl
  have hsame : (fun table => some (rows table)) = db.children := by
    funext table
    exact (hrows table).symm
  simp only [rebuild, hcreate, hcopy, hdrop, renameTasksNew, Option.bind_eq_bind, Option.bind_some,
    hrestore, hsame]
  rw [← hnew]

/-! ## The migration -/

section Migration

variable {statuses statuses' : List TaskStatus} {rows rows' : List TaskRow} {db : Database}

/-- What a tasks table says of its rows, apart from their status, is the same for every list of
    rows with the same ids, projects and parents. -/
theorem consistent_map {projects : List Nat} {f : TaskRow → TaskRow}
    (hf : ∀ r, (f r).id = r.id ∧ (f r).projectId = r.projectId ∧
      (f r).parentTaskId = r.parentTaskId)
    (hstatus : ∀ r ∈ rows, r.status ∈ statuses → (f r).status ∈ statuses')
    (h : TaskTable.consistent projects ⟨statuses, rows⟩ = true) :
    TaskTable.consistent projects ⟨statuses', rows.map f⟩ = true := by
  have hids : (rows.map f).map TaskRow.id = rows.map TaskRow.id := by
    rw [List.map_map]
    exact List.map_congr_left fun r _ => (hf r).1
  simp only [TaskTable.consistent, Bool.and_eq_true, List.all_eq_true, decide_eq_true_eq] at h ⊢
  rw [hids]
  refine ⟨h.1, fun r hr => ?_⟩
  obtain ⟨q, hq, rfl⟩ := List.mem_map.1 hr
  obtain ⟨⟨hs, hproject⟩, hparent⟩ := h.2 q hq
  rw [(hf q).2.1, (hf q).2.2]
  exact ⟨⟨hstatus q hq hs, hproject⟩, hparent⟩

theorem ChildRows.congr {schema : ChildSchema} {t t' : TaskTable} {children : List Row}
    (h : ChildRows schema t children) (hids : t'.ids = t.ids) : ChildRows schema t' children :=
  ⟨h.columns, h.ids, h.sorted, h.unique, h.different, hids ▸ h.references⟩

/-- The new `CHECK` admits every row. -/
theorem Valid.consistent_new (h : Valid oldStatuses rows db) :
    TaskTable.consistent db.projects ⟨newStatuses, rows⟩ = true := by
  have hsub : ∀ s ∈ oldStatuses, s ∈ newStatuses := by decide
  have := consistent_map (f := fun r => r) (fun _ => ⟨rfl, rfl, rfl⟩)
    (fun r _ hs => hsub r.status hs) h.consistent
  rwa [List.map_id'] at this

theorem Valid.up_eq (h : Valid oldStatuses rows db) :
    up db = some { db with tasks := some ⟨newStatuses, rows⟩ } := by
  refine rebuild_eq (t := ⟨oldStatuses, rows⟩) h.tasks h.tasksNew h.consistent_new fun table => ?_
  obtain ⟨children, hchildren, hvalid⟩ := h.children table
  exact ⟨children, hchildren, hvalid.congr rfl⟩

/-- The row after `down`. -/
def reopened (r : TaskRow) : TaskRow :=
  if r.status = .backlogged then { r with status := .open } else r

theorem reopened_fields (r : TaskRow) : (reopened r).id = r.id ∧
    (reopened r).projectId = r.projectId ∧ (reopened r).parentTaskId = r.parentTaskId := by
  unfold reopened
  split <;> simp

theorem reopened_status (r : TaskRow) : (reopened r).status ∈ oldStatuses := by
  unfold reopened
  split
  · simp [oldStatuses]
  · rename_i hne
    cases hs : r.status <;> simp_all [oldStatuses]

theorem reopened_ids : TaskTable.ids ⟨statuses, rows.map reopened⟩ = TaskTable.ids ⟨statuses', rows⟩ := by
  rw [TaskTable.ids, TaskTable.ids, List.map_map]
  exact List.map_congr_left fun r _ => congrArg (fun n : Nat => Value.integer n) (reopened_fields r).1

/-- The old `CHECK` admits every row once no task is backlogged. -/
theorem Valid.consistent_reopened (h : Valid newStatuses rows db) :
    TaskTable.consistent db.projects ⟨oldStatuses, rows.map reopened⟩ = true :=
  consistent_map reopened_fields (fun r _ _ => reopened_status r) h.consistent

theorem Valid.down_eq (h : Valid newStatuses rows db) :
    down db = some { db with tasks := some ⟨oldStatuses, rows.map reopened⟩ } := by
  have hsub : ∀ s ∈ oldStatuses, s ∈ newStatuses := by decide
  have hreopen : reopenBacklogged db
      = some { db with tasks := some ⟨newStatuses, rows.map reopened⟩ } := by
    have hall : ((rows.map reopened).all fun r => decide (r.status ∈ newStatuses)) = true := by
      rw [List.all_eq_true]
      intro r hr
      obtain ⟨q, -, rfl⟩ := List.mem_map.1 hr
      exact decide_eq_true (hsub _ (reopened_status q))
    simp only [reopenBacklogged, h.tasks]
    exact if_pos hall
  rw [down, hreopen, Option.bind_eq_bind, Option.bind_some]
  refine rebuild_eq (t := ⟨newStatuses, rows.map reopened⟩) rfl h.tasksNew h.consistent_reopened
    fun table => ?_
  obtain ⟨children, hchildren, hvalid⟩ := h.children table
  exact ⟨children, hchildren, hvalid.congr reopened_ids⟩

theorem Valid.with_tasks (h : Valid statuses rows db)
    (hconsistent : TaskTable.consistent db.projects ⟨statuses', rows'⟩ = true)
    (hids : TaskTable.ids ⟨statuses', rows'⟩ = TaskTable.ids ⟨statuses, rows⟩) :
    Valid statuses' rows' { db with tasks := some ⟨statuses', rows'⟩ } := by
  refine ⟨rfl, h.tasksNew, hconsistent, fun table => ?_⟩
  obtain ⟨children, hchildren, hvalid⟩ := h.children table
  exact ⟨children, hchildren, hvalid.congr hids⟩

end Migration

/-- **Main theorem.** On a valid database `up` keeps every row of `tasks` and of the child tables
    and leaves a valid database. `down` keeps them too, except that backlogged tasks become open;
    so where no task is backlogged the rows are the same again. -/
theorem up_down_lossless :
    (∀ rows db, Valid oldStatuses rows db →
      ∃ db', up db = some db' ∧ Valid newStatuses rows db' ∧ db'.children = db.children ∧
        down db' = some db) ∧
    ∀ rows db, Valid newStatuses rows db →
      ∃ db', down db = some db' ∧ Valid oldStatuses (rows.map reopened) db' ∧
        db'.children = db.children ∧
        ((∀ r ∈ rows, r.status ≠ .backlogged) → rows.map reopened = rows) := by
  constructor
  · intro rows db h
    have hvalid := h.with_tasks h.consistent_new rfl
    have hnone : rows.map reopened = rows := by
      have hstatus := h.consistent
      simp only [TaskTable.consistent, Bool.and_eq_true, List.all_eq_true, decide_eq_true_eq]
        at hstatus
      refine (List.map_congr_left fun r hr => ?_).trans (List.map_id rows)
      have hne : r.status ≠ .backlogged := by
        intro heq
        have := (hstatus.2 r hr).1.1
        rw [heq] at this
        exact absurd this (by decide)
      simp [reopened, hne]
    refine ⟨_, h.up_eq, hvalid, rfl, ?_⟩
    rw [hvalid.down_eq, hnone, ← h.tasks]
  · intro rows db h
    refine ⟨_, h.down_eq, h.with_tasks h.consistent_reopened reopened_ids, rfl, fun hnone => ?_⟩
    refine (List.map_congr_left fun r hr => ?_).trans (List.map_id rows)
    simp [reopened, hnone r hr]

/-! ## Samples -/

def sampleTask (id : Nat) (parentTaskId : Option Nat) : TaskRow where
  id := id
  title := "task"
  description := none
  status := .open
  priority := .medium
  projectId := 1
  parentTaskId := parentTaskId
  assignee := none
  createdBy := "agent"
  dueDate := none
  createdAt := "2026-01-01 00:00:00"
  updatedAt := "2026-01-01 00:00:00"
  estimatedMinutes := none
  version := 1
  claimedAt := none

/-- A task with a subtask that it blocks, each with a child row. -/
def sampleChildren : ChildTable → List Row
  | .taskTags => [[("id", .integer 4), ("task_id", .integer 1), ("tag", .text "api")]]
  | .taskDependencies =>
    [[("id", .integer 2), ("task_id", .integer 1), ("blocks_task_id", .integer 7),
      ("created_at", .text "2026-01-01 00:00:00")]]
  | .taskComments =>
    [[("id", .integer 9), ("task_id", .integer 7), ("author", .text "agent"),
      ("content", .text "done"), ("created_at", .text "2026-01-01 00:00:00"),
      ("updated_at", .null)]]

def sampleDatabase : Database where
  projects := [1]
  tasks := some ⟨oldStatuses, [sampleTask 1 none, sampleTask 7 (some 1)]⟩
  tasksNew := none
  children := fun table => some (sampleChildren table)

theorem sampleDatabase_valid :
    Valid oldStatuses [sampleTask 1 none, sampleTask 7 (some 1)] sampleDatabase := by
  refine ⟨rfl, rfl, by decide, fun table => ⟨sampleChildren table, rfl, ?_⟩⟩
  cases table <;> constructor <;> decide

theorem up_down_lossless_sample :
    ∃ db', up sampleDatabase = some db' ∧
      Valid newStatuses [sampleTask 1 none, sampleTask 7 (some 1)] db' ∧
      db'.children = sampleDatabase.children ∧ down db' = some sampleDatabase :=
  up_down_lossless.1 _ _ sampleDatabase_valid

end WoodFiredTasks.BackloggedStatus
