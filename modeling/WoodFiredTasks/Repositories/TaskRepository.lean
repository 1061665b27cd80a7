import Mathlib.Data.List.Sort
import WoodFiredTasks.Repositories.TagLists
import WoodFiredTasks.World

set_option autoImplicit false

/-! # The task repository

The SQL of `src/repositories/task.repository.ts`. What a statement writes is a pure function of
the row (`UpdateTaskDTO.apply`, `Task.claim`, …), and a WHERE clause is a predicate of the row,
so the `UPDATE`s are all one program, `updateWhere`. A row and its tags are inserted by one
statement here; in the source the tags follow in the same transaction. -/

namespace WoodFiredTasks

/-! ## Rows -/

/-- `value || null` for a text: the empty text is stored as NULL. -/
def orNull : Option String → Option String
  | some "" => none
  | value => value

/-- `id || null`: an id counts when it is neither NULL nor 0. -/
def presentId (id : Option Nat) : Option Nat := id.filter fun n => n != 0

/-- What `findById` makes of a row: the canonical `updated_at`, the tags in order. -/
def Task.inflate (t : Task) : Task :=
  { t with
    updatedAt := t.updatedAt.normalizeIso
    tags := t.tags.insertionSort (· ≤ ·) }

/-- What a statement that returns many rows makes of a row: its tags come in one text. -/
def Task.listed (t : Task) : Task := { t.inflate with tags := splitTags (tagsCsv t.tags) }

/-- The row that `create` inserts. -/
def CreateTaskDTO.row (dto : CreateTaskDTO) (tags : List String) (now id : Nat) : Task where
  id := id
  title := dto.title
  description := orNull dto.description
  status := dto.status
  priority := dto.priority
  projectId := dto.projectId
  parentTaskId := presentId dto.parentTaskId
  estimatedMinutes := dto.estimatedMinutes
  assignee := orNull dto.assignee
  createdBy := dto.createdBy
  dueDate := orNull dto.dueDate
  createdAt := .iso now
  updatedAt := .iso now
  version := 1
  claimedAt := none
  completedAt := none
  acceptanceCriteria := dto.acceptanceCriteria
  verificationEvidence := none
  wsjf := match dto.wsjf with
    | none => {}
    | some w => w.columns
  createdByUserId := dto.createdByUserId
  assigneeUserId := dto.assigneeUserId
  tags := tags

/-- `completed_at` after a write of `status` over `current`. -/
def completedAtAfter (status : TaskStatus) (current : Option TaskStatus) (now : Nat)
    (completedAt : Option Stamp) : Option Stamp :=
  if status = .done ∧ current ≠ some .done then some (datetimeNow now)
  else if current = some .done ∧ status ≠ .done then none
  else completedAt

/-- The `SET` clause of `update`; `current` is the status read in the same transaction. -/
def UpdateTaskDTO.apply (dto : UpdateTaskDTO) (current : Option TaskStatus) (now : Nat)
    (t : Task) : Task :=
  { t with
    title := dto.title.getD t.title
    description := dto.description.getD t.description
    status := dto.status.getD t.status
    completedAt := match dto.status with
      | none => t.completedAt
      | some status => completedAtAfter status current now t.completedAt
    priority := dto.priority.getD t.priority
    assignee := dto.assignee.getD t.assignee
    assigneeUserId := dto.assigneeUserId.getD t.assigneeUserId
    dueDate := dto.dueDate.getD t.dueDate
    parentTaskId := dto.parentTaskId.getD t.parentTaskId
    estimatedMinutes := dto.estimatedMinutes.getD t.estimatedMinutes
    acceptanceCriteria := dto.acceptanceCriteria.getD t.acceptanceCriteria
    verificationEvidence := dto.verificationEvidence.getD t.verificationEvidence
    wsjf := match dto.wsjf with
      | none => t.wsjf
      | some none => {}
      | some (some w) => w.columns
    updatedAt := datetimeNow now
    tags := dto.tags.getD t.tags }

/-- The `SET` clause of `writeAutoJobSize`. -/
def Task.autoJobSize (jobSize : Fib) (source : WsjfSource) (now : Nat) (t : Task) : Task :=
  { t with
    wsjf := { t.wsjf with jobSize := some jobSize, source := some source }
    updatedAt := datetimeNow now }

/-- The `WHERE` clause of the claim's compare-and-swap. -/
def Task.claimable (version : Nat) (t : Task) : Bool :=
  t.assignee.isNone && t.status == .open && t.version == version

/-- The `SET` clause of `claimTask`. -/
def Task.claim (assignee : String) (assigneeUserId : Option Nat) (now : Nat) (t : Task) : Task :=
  { t with
    assignee := some assignee
    assigneeUserId := assigneeUserId
    status := .inProgress
    version := t.version + 1
    claimedAt := some (datetimeNow now)
    updatedAt := datetimeNow now }

/-- The `WHERE` clause of `renewClaim`. -/
def Task.heldBy (assignee : String) (t : Task) : Bool :=
  t.assignee == some assignee && t.status == .inProgress

/-- The `SET` clause of `renewClaim`. -/
def Task.renew (now : Nat) (t : Task) : Task :=
  { t with
    claimedAt := some (datetimeNow now)
    updatedAt := datetimeNow now
    version := t.version + 1 }

@[simp] theorem CreateTaskDTO.row_id (dto : CreateTaskDTO) (tags : List String) (now id : Nat) :
    (dto.row tags now id).id = id := rfl

theorem CreateTaskDTO.row_wsjf (dto : CreateTaskDTO) (tags : List String) (now id : Nat) :
    (dto.row tags now id).wsjf = (dto.wsjf.map WsjfWriteDTO.columns).getD {} := by
  unfold row
  cases dto.wsjf <;> rfl

@[simp] theorem UpdateTaskDTO.apply_id (dto : UpdateTaskDTO) (current : Option TaskStatus)
    (now : Nat) (t : Task) : (dto.apply current now t).id = t.id := rfl

@[simp] theorem Task.autoJobSize_id (jobSize : Fib) (source : WsjfSource) (now : Nat) (t : Task) :
    (t.autoJobSize jobSize source now).id = t.id := rfl

@[simp] theorem Task.claim_id (assignee : String) (user : Option Nat) (now : Nat) (t : Task) :
    (t.claim assignee user now).id = t.id := rfl

@[simp] theorem Task.renew_id (now : Nat) (t : Task) : (t.renew now).id = t.id := rfl

@[simp] theorem Task.inflate_id (t : Task) : t.inflate.id = t.id := rfl
@[simp] theorem Task.inflate_status (t : Task) : t.inflate.status = t.status := rfl
@[simp] theorem Task.inflate_parentTaskId (t : Task) :
    t.inflate.parentTaskId = t.parentTaskId := rfl
@[simp] theorem Task.inflate_assignee (t : Task) : t.inflate.assignee = t.assignee := rfl
@[simp] theorem Task.inflate_version (t : Task) : t.inflate.version = t.version := rfl
@[simp] theorem Task.inflate_projectId (t : Task) : t.inflate.projectId = t.projectId := rfl

@[simp] theorem Task.listed_id (t : Task) : t.listed.id = t.id := rfl

/-- `task.status === 'done'`. -/
def Task.isDone (t : Task) : Bool := t.status == .done

@[simp] theorem Task.isDone_inflate (t : Task) : t.inflate.isDone = t.isDone := rfl
@[simp] theorem Task.isDone_listed (t : Task) : t.listed.isDone = t.isDone := rfl

theorem Task.isDone_iff {t : Task} : t.isDone = true ↔ t.status = .done := by simp [isDone]

/-! ## Constraints -/

def foreignKeyError : Err := .sqlite "SQLITE_CONSTRAINT_FOREIGNKEY"
def uniqueError : Err := .sqlite "SQLITE_CONSTRAINT_UNIQUE"
def checkError : Err := .sqlite "SQLITE_CONSTRAINT_CHECK"

/-- The id is NULL or in `users`. -/
def Db.userOk (db : Db) : Option Nat → Bool
  | none => true
  | some u => u ∈ db.users

/-- The id is NULL or in `tasks`. -/
def Db.parentOk (db : Db) : Option Nat → Bool
  | none => true
  | some p => (db.tasks.find? p).isSome

/-- Why SQLite would refuse the INSERT of a row with its tags. -/
def Db.insertTaskError (db : Db) (t : Task) : Option Err :=
  if (db.projects.find? t.projectId).isNone || !db.parentOk t.parentTaskId
    || !db.userOk t.createdByUserId || !db.userOk t.assigneeUserId then some foreignKeyError
  else if t.tags.Nodup then none
  else some uniqueError

/-- Why SQLite would refuse an UPDATE: it checks the columns that are written. -/
def Db.updateTaskError (db : Db) (id : Nat) (dto : UpdateTaskDTO) : Option Err :=
  if (db.tasks.find? id).isNone then none
  else if !db.parentOk (dto.parentTaskId.getD none) || !db.userOk (dto.assigneeUserId.getD none) then
    some foreignKeyError
  else if (dto.tags.getD []).Nodup then none
  else some uniqueError

/-- The constraints look at tasks and users only. -/
theorem Db.SameTasks.updateTaskError {db db' : Db} (h : db.SameTasks db') (id : Nat)
    (dto : UpdateTaskDTO) : db'.updateTaskError id dto = db.updateTaskError id dto := by
  have hparent : ∀ p, db'.parentOk p = db.parentOk p := by
    intro p
    cases p with
    | none => rfl
    | some p => rw [Db.parentOk, Db.parentOk, h.tasks]
  have huser : ∀ u, db'.userOk u = db.userOk u := by
    intro u
    cases u with
    | none => rfl
    | some u => simp only [Db.userOk, h.users]
  rw [Db.updateTaskError, Db.updateTaskError, hparent, huser, h.tasks]

/-- `SET … WHERE …` on one row. -/
def setWhere (guard : Task → Bool) (set : Task → Task) (t : Task) : Task :=
  if guard t then set t else t

theorem setWhere_id {guard : Task → Bool} {set : Task → Task} (hset : ∀ t, (set t).id = t.id)
    (t : Task) : (setWhere guard set t).id = t.id := by
  unfold setWhere
  split
  · exact hset t
  · rfl

/-- A guarded write, on a row that passes the guard and on one that does not. -/
theorem Db.writeTask_setWhere {db : Db} {id : Nat} {guard : Task → Bool} {set : Task → Task}
    {hset : ∀ t, (set t).id = t.id} :
    db.writeTask id (setWhere guard set) (setWhere_id hset) =
      if (db.tasks.find? id).any guard then db.writeTask id set hset else db := by
  split
  · rename_i h
    refine writeTask_congr fun t ht => ?_
    rw [ht, Option.any_some] at h
    exact if_pos h
  · rename_i h
    refine writeTask_eq_self fun t ht => ?_
    rw [ht, Option.any_some] at h
    exact if_neg h

/-- The UPDATE of `update`. -/
def Db.applyUpdate (db : Db) (id : Nat) (updates : UpdateTaskDTO) (current : Option TaskStatus)
    (now : Nat) : Db :=
  db.writeTask id (updates.apply current now) (updates.apply_id current now)

/-- The INSERT of `create`. -/
def Db.insertTask (db : Db) (dto : CreateTaskDTO) (tags : List String) (now : Nat) : Db :=
  { db with tasks := db.tasks.insert (dto.row tags now) (dto.row_id tags now) }

theorem Db.find?_insertTask {db : Db} {dto : CreateTaskDTO} {tags : List String} {now j : Nat} :
    (db.insertTask dto tags now).tasks.find? j =
      if j = db.tasks.next then some (dto.row tags now db.tasks.next) else db.tasks.find? j := by
  rw [insertTask, Table.find?_insert]

/-- The parent of a row that may be inserted is there. -/
theorem Db.parentOk_of_insertTaskError {db : Db} {t : Task} (h : db.insertTaskError t = none) :
    db.parentOk t.parentTaskId = true := by
  unfold insertTaskError at h
  split at h
  · cases h
  · rename_i hrefs
    simp only [Bool.or_eq_true, not_or, Bool.not_eq_true', Bool.not_eq_false] at hrefs
    exact hrefs.1.1.2

/-- The row is there, unassigned and open. -/
def Db.Free (db : Db) (t : Nat) : Prop :=
  ∃ row ∈ db.tasks.find? t, row.assignee = none ∧ row.status = .open

instance (db : Db) (t : Nat) : Decidable (db.Free t) :=
  inferInstanceAs (Decidable (∃ row ∈ db.tasks.find? t, _))

/-! ## Statements -/

namespace TaskRepository

/-- `UPDATE tasks SET … WHERE id = ? AND …`: was the row changed? A change is refused when a
    column that is written refers to no row, which `refs` decides. -/
def updateWhere (id : Nat) (guard : Task → Bool) (refs : Db → Bool) (set : Nat → Task → Task)
    (hset : ∀ now t, (set now t).id = t.id) : M Bool :=
  statement
    (fun db => if (db.tasks.find? id).any guard && !refs db then some foreignKeyError else none)
    (fun db => (db.tasks.find? id).any guard) fun now db =>
      db.writeTask id (setWhere guard (set now)) (setWhere_id (hset now))

/-- `findById`. -/
def findById (id : Nat) : M (Option Task) := query fun db => (db.tasks.find? id).map Task.inflate

/-- The row or `throw new Error(…)`. -/
def orThrow (message : String) : Option Task → M Task
  | some t => pure t
  | none => raise (.generic message)

/-- `create`. -/
def create (dto : CreateTaskDTO) (tags : List String) : M Task :=
  transaction (do
    let taskId ← statement (fun db => db.insertTaskError (dto.row tags 0 0)) (fun db => db.tasks.next)
      fun now db => db.insertTask dto tags now
    findById taskId) >>= orThrow "Failed to create task"

/-- The read of the current row in `update`, made only when the status is written. -/
def readCurrent (id : Nat) (updates : UpdateTaskDTO) : M (Option Task) :=
  match updates.status with
  | some _ => findById id
  | none => pure none

/-- `update`. -/
def update (id : Nat) (updates : UpdateTaskDTO) : M Task :=
  transaction (do
    let current ← readCurrent id updates
    statement (fun db => db.updateTaskError id updates) (fun _ => ()) fun now db =>
      db.applyUpdate id updates (current.map (·.status)) now
    findById id) >>= orThrow s!"Task with id {id} not found"

/-- `writeAutoJobSize`. -/
def writeAutoJobSize (id : Nat) (jobSize : Fib) (source : WsjfSource) : M Task := do
  let changed ← updateWhere id (fun _ => true) (fun _ => true) (Task.autoJobSize jobSize source)
    (Task.autoJobSize_id jobSize source)
  if changed then findById id >>= orThrow s!"Task with id {id} not found"
  else raise (.generic s!"Task with id {id} not found")

/-- `delete`. -/
def delete (id : Nat) : M Unit := statement (fun _ => none) (fun _ => ()) fun _ db => db.deleteTask id

/-- `claimTask`: the compare-and-swap, in a `BEGIN IMMEDIATE` transaction. -/
def claimTask (id : Nat) (assignee : String) (assigneeUserId : Option Nat) : M (Option Task) :=
  transaction (findById id >>= fun
    | none => pure none
    | some task => do
      let changed ← updateWhere id (Task.claimable task.version) (fun db => db.userOk assigneeUserId)
        (Task.claim assignee assigneeUserId) (Task.claim_id assignee assigneeUserId)
      if changed then findById id else pure none)

/-- The UPDATE of `renewClaim`. -/
def renewUpdate (id : Nat) (assignee : String) : M Bool :=
  updateWhere id (Task.heldBy assignee) (fun _ => true) Task.renew Task.renew_id

/-- `renewClaim`: the UPDATE, then the read of the row, in two statements. -/
def renewClaim (id : Nat) (assignee : String) : M (Option Task) := do
  let changed ← renewUpdate id assignee
  if changed then findById id else pure none

/-- The children of a task in the order of their creation. -/
def childrenInOrder (env : Env) (db : Db) (parentId : Nat) : List Task :=
  (env.scan (db.children parentId)).insertionSort fun a b => a.createdAt.le b.createdAt = true

/-- A page of the children of a task. -/
def childrenPage (env : Env) (db : Db) (parentId : Nat) (pagination : PaginationOptions) :
    List Task :=
  let page := resolvePagination pagination
  (childrenInOrder env db parentId).drop page.2 |>.take page.1 |>.map Task.listed

theorem mem_childrenInOrder {env : Env} {db : Db} {parentId : Nat} {t : Task} :
    t ∈ childrenInOrder env db parentId ↔ t ∈ db.tasks.rows ∧ t.parentTaskId = some parentId := by
  rw [childrenInOrder, List.mem_insertionSort, (env.scan_perm _).mem_iff, Db.children,
    List.mem_filter, beq_iff_eq]

/-- The default page is the first fifty children. -/
theorem all_childrenPage {env : Env} {db : Db} {parentId : Nat} :
    (childrenPage env db parentId {}).all Task.isDone =
      ((childrenInOrder env db parentId).take defaultPageLimit).all Task.isDone := by
  rw [childrenPage, List.all_map]
  rfl

/-- `findChildren`. -/
def findChildren (parentId : Nat) (pagination : PaginationOptions := {}) : M (List Task) :=
  call >>= fun _ => Prog.gets fun w => childrenPage w.env w.db parentId pagination

/-! ## What the statements do -/

theorem findById_spec (id : Nat) : Spec (findById id)
    (fun v t db => t = (v.db.tasks.find? id).map Task.inflate ∧ db = v.db) Unchanged :=
  Spec.query _

theorem findChildren_spec (parentId : Nat) (pagination : PaginationOptions) :
    Spec (findChildren parentId pagination)
      (fun v ts db => ts = childrenPage v.env v.db parentId pagination ∧ db = v.db) Unchanged :=
  Spec.afterCall (Spec.gets _ (fun v => childrenPage v.env v.db parentId pagination) fun _ => rfl)

theorem orThrow_spec (message : String) (t : Option Task) : Spec (orThrow message t)
    (fun v t' db => t = some t' ∧ db = v.db) fun v db => t = none ∧ db = v.db := by
  cases t with
  | none => exact (Spec.raise _).conseq (fun _ _ _ => id) fun _ _ h => ⟨rfl, h⟩
  | some t => exact (Spec.pure t).post fun _ _ _ ⟨ha, hdb⟩ => ⟨ha ▸ rfl, hdb⟩

theorem readCurrent_spec (id : Nat) (updates : UpdateTaskDTO) : Spec (readCurrent id updates)
    (fun v current db =>
      (current = updates.status.bind fun _ => (v.db.tasks.find? id).map Task.inflate) ∧ db = v.db)
    Unchanged := by
  rw [readCurrent]
  cases updates.status with
  | none => exact Spec.pure none
  | some _ => exact findById_spec id

/-- The write of `update`, on a row that is there. -/
theorem update_spec (id : Nat) (updates : UpdateTaskDTO) : Spec (update id updates)
    (fun v t db => ∃ row, v.db.tasks.find? id = some row ∧
      v.db.updateTaskError id updates = none ∧
      t = (updates.apply (updates.status.map fun _ => row.status) v.now row).inflate ∧
      db = v.db.applyUpdate id updates (updates.status.map fun _ => row.status) v.now)
    Unchanged := by
  have hcurrent : ∀ row : Task, (updates.status.bind fun _ => some row.inflate).map (·.status) =
      updates.status.map fun _ => row.status := by
    intro row
    cases updates.status <;> rfl
  refine (Spec.bind (Spec.transaction ((readCurrent_spec id updates).bind fun current =>
    (Spec.statement _ _ _).bind fun _ => findById_spec id)) fun t => orThrow_spec _ t).conseq ?_ ?_
  · rintro v t' _ ⟨t, _, ⟨current, _, ⟨rfl, rfl⟩, _, _, ⟨hcheck, -, rfl⟩, rfl, rfl⟩, ht, rfl⟩
    simp only [Db.applyUpdate, Db.find?_writeTask_self] at ht
    rcases hrow : v.db.tasks.find? id with _ | row
    · simp [hrow] at ht
    · rw [hrow] at ht
      simp only [Option.map_some, hcurrent row] at ht ⊢
      exact ⟨row, rfl, hcheck, by simpa using ht.symm, rfl⟩
  · rintro v db (h | ⟨t, _, ⟨current, _, ⟨rfl, rfl⟩, _, _, ⟨-, -, rfl⟩, rfl, rfl⟩, ht, rfl⟩)
    · exact h
    · simp only [Db.applyUpdate, Db.find?_writeTask_self, Option.map_eq_none_iff] at ht
      exact Db.writeTask_of_none ht

/-- A row that is there is updated if no statement throws and the constraints allow it. -/
theorem update_succeeds (id : Nat) (updates : UpdateTaskDTO) :
    Succeeds (fun v => (v.db.tasks.find? id).isSome = true ∧ v.db.updateTaskError id updates = none)
      (update id updates) := by
  have hread : Succeeds
      (fun v => (v.db.tasks.find? id).isSome = true ∧ v.db.updateTaskError id updates = none)
      (readCurrent id updates) := by
    rw [readCurrent]
    cases updates.status with
    | none => exact Succeeds.pure none
    | some _ => exact Succeeds.query _
  have hthere : ∀ v : View, ∀ current, (v.db.tasks.find? id).isSome = true →
      ((v.db.applyUpdate id updates current v.now).tasks.find? id).isSome = true := by
    intro v current hv
    rw [Db.applyUpdate, Db.find?_writeTask_self, Option.isSome_map]
    exact hv
  have hbody : Succeeds
      (fun v => (v.db.tasks.find? id).isSome = true ∧ v.db.updateTaskError id updates = none)
      (readCurrent id updates >>= fun current =>
        statement (fun db => db.updateTaskError id updates) (fun _ => ()) (fun now db =>
          db.applyUpdate id updates (current.map (·.status)) now) >>= fun _ => findById id) := by
    refine hread.bind (readCurrent_spec id updates) (R := fun _ v =>
      (v.db.tasks.find? id).isSome = true ∧ v.db.updateTaskError id updates = none)
      (fun current => ?_) ?_
    · exact Succeeds.bind (R := fun _ _ => True) (Succeeds.statement fun _ hv => hv.2)
        (Spec.statement _ _ _) (fun _ => Succeeds.query _) fun _ _ _ _ _ => trivial
    · intro v current db hv hread
      rw [hread.2]
      exact hv
  refine Succeeds.bind (R := fun t _ => t.isSome = true) (Succeeds.transaction hbody)
    (Spec.transaction ((readCurrent_spec id updates).bind fun current =>
      (Spec.statement _ _ _).bind fun _ => findById_spec id)) (fun t => ?_) ?_
  · cases t with
    | none => exact fun _ _ h => nomatch h
    | some t => exact Succeeds.pure t
  · intro v t db hv h
    obtain ⟨current, _, ⟨-, rfl⟩, _, _, ⟨-, -, rfl⟩, rfl, rfl⟩ := h
    rw [Option.isSome_map]
    exact hthere v _ hv.1

theorem updateWhere_spec (id : Nat) (guard : Task → Bool) (refs : Db → Bool)
    (set : Nat → Task → Task) (hset : ∀ now t, (set now t).id = t.id) :
    Spec (updateWhere id guard refs set hset)
    (fun v changed db => changed = (v.db.tasks.find? id).any guard ∧
      db = if changed then v.db.writeTask id (set v.now) (hset v.now) else v.db) Unchanged := by
  refine (Spec.statement _ _ _).post ?_
  rintro v _ _ ⟨-, rfl, rfl⟩
  exact ⟨rfl, Db.writeTask_setWhere⟩

theorem updateWhere_succeeds {P : View → Prop} {id : Nat} {guard : Task → Bool} {refs : Db → Bool}
    {set : Nat → Task → Task} {hset : ∀ now t, (set now t).id = t.id}
    (h : ∀ v, P v → refs v.db = true) :
    Succeeds P (updateWhere id guard refs set hset) := by
  refine Succeeds.statement fun v hv => ?_
  rw [h v hv, Bool.not_true, Bool.and_false]
  rfl

/-- An INSERT, and what comes back. -/
theorem create_spec (dto : CreateTaskDTO) (tags : List String) : Spec (create dto tags)
    (fun v t db => v.db.insertTaskError (dto.row tags 0 0) = none ∧
      t = (dto.row tags v.now v.db.tasks.next).inflate ∧ db = v.db.insertTask dto tags v.now)
    Unchanged := by
  have hfind : ∀ (db : Db) now, (db.insertTask dto tags now).tasks.find? db.tasks.next =
      some (dto.row tags now db.tasks.next) := by
    intro db now
    have hmem : dto.row tags now db.tasks.next ∈ (db.insertTask dto tags now).tasks.rows := by
      simp [Db.insertTask]
    exact Table.find?_eq_some.2 ⟨hmem, dto.row_id tags now _⟩
  refine ((Spec.transaction ((Spec.statement _ _ _).bind fun taskId => findById_spec taskId)).bind
    fun t => orThrow_spec _ t).conseq ?_ ?_
  · rintro v t' _ ⟨_, _, ⟨_, _, ⟨hcheck, rfl, rfl⟩, rfl, rfl⟩, ht, rfl⟩
    rw [hfind] at ht
    exact ⟨hcheck, (Option.some.inj ht).symm, rfl⟩
  · rintro v db (h | ⟨_, _, ⟨_, _, ⟨hcheck, rfl, rfl⟩, rfl, rfl⟩, ht, -⟩)
    · exact h
    · rw [hfind] at ht
      cases ht

/-- The write of a size, on a row that is there. -/
theorem writeAutoJobSize_spec (id : Nat) (jobSize : Fib) (source : WsjfSource) :
    Spec (writeAutoJobSize id jobSize source)
      (fun v t db => ∃ row, v.db.tasks.find? id = some row ∧
        t = (row.autoJobSize jobSize source v.now).inflate ∧
        db = v.db.writeTask id (Task.autoJobSize jobSize source v.now)
          (Task.autoJobSize_id jobSize source v.now)) fun _ _ => True := by
  refine ((updateWhere_spec id _ _ _ _).bind
    (R := fun changed v t db => (changed = true ∧
      (v.db.tasks.find? id).map Task.inflate = some t) ∧ db = v.db)
    (F := fun _ _ _ => True) fun changed => ?_).conseq ?_ fun _ _ _ => trivial
  · cases changed with
    | false => exact (Spec.raise _).conseq (fun _ _ _ h => h) fun _ _ _ => trivial
    | true =>
      refine ((findById_spec id).bind fun t => orThrow_spec _ t).conseq ?_ fun _ _ _ => trivial
      intro v t' db h
      obtain ⟨_, _, ⟨rfl, rfl⟩, ht, rfl⟩ := h
      exact ⟨⟨rfl, ht⟩, rfl⟩
  · intro v t db h
    obtain ⟨_, _, ⟨-, rfl⟩, ⟨rfl, ht⟩, rfl⟩ := h
    rw [if_pos rfl, Db.find?_writeTask_self, Option.map_map] at ht
    obtain ⟨row, hrow, rfl⟩ := Option.map_eq_some_iff.1 ht
    exact ⟨row, hrow, rfl, by rw [if_pos rfl]⟩

/-- A row that is there is sized if no statement throws. -/
theorem writeAutoJobSize_succeeds (id : Nat) (jobSize : Fib) (source : WsjfSource) :
    Succeeds (fun v => (v.db.tasks.find? id).isSome = true)
      (writeAutoJobSize id jobSize source) := by
  have hreload : Succeeds (fun v => (v.db.tasks.find? id).isSome = true)
      (findById id >>= orThrow s!"Task with id {id} not found") := by
    refine Succeeds.bind (R := fun t _ => t.isSome = true) (Succeeds.query _) (findById_spec id)
      (fun t => ?_) ?_
    · cases t with
      | none => exact fun _ _ h => nomatch h
      | some t => exact Succeeds.pure t
    · intro v t db hv ht
      rw [ht.1, Option.isSome_map]
      exact hv
  refine Succeeds.bind (R := fun changed v => changed = true ∧ (v.db.tasks.find? id).isSome = true)
    (updateWhere_succeeds fun _ _ => rfl) (updateWhere_spec id _ _ _ _) (fun changed => ?_) ?_
  · cases changed with
    | false => exact fun _ _ h => nomatch h.1
    | true => exact fun w hfaults hw => hreload w hfaults hw.2
  · intro v changed db hv hchanged
    obtain ⟨rfl, rfl⟩ := hchanged
    obtain ⟨row, hrow⟩ := Option.isSome_iff_exists.1 hv
    simp [hrow, Db.find?_writeTask_self]

/-- The compare-and-swap: a row that is unassigned and open is claimed, any other is left
    alone. -/
theorem claimTask_spec (id : Nat) (assignee : String) (user : Option Nat) :
    Spec (claimTask id assignee user)
      (fun v t db => (t = none ∧ db = v.db ∧ ¬ v.db.Free id) ∨
        ∃ row, v.db.tasks.find? id = some row ∧ row.assignee = none ∧ row.status = .open ∧
          t = some (row.claim assignee user v.now).inflate ∧
          db = v.db.writeTask id (Task.claim assignee user v.now)
            (Task.claim_id assignee user v.now)) Unchanged := by
  refine Spec.transaction (E := fun _ _ => True) (((findById_spec id).bind
    (R := fun task v t db => task = (v.db.tasks.find? id).map Task.inflate →
      (t = none ∧ db = v.db ∧ ¬ v.db.Free id) ∨ ∃ row, v.db.tasks.find? id = some row ∧ row.assignee = none ∧ row.status = .open ∧
        t = some (row.claim assignee user v.now).inflate ∧
        db = v.db.writeTask id (Task.claim assignee user v.now) (Task.claim_id assignee user v.now))
    (F := fun _ _ _ => True) fun task => ?_).conseq ?_ fun _ _ _ => trivial)
  · cases task with
    | none =>
      refine (Spec.pure none).post fun v t db h htask => .inl ⟨h.1, h.2, fun hfree => ?_⟩
      obtain ⟨row, hrow, -⟩ := hfree
      rw [hrow] at htask
      cases htask
    | some task =>
      refine ((updateWhere_spec id _ _ _ _).bind (R := fun changed v t db =>
        (t = if changed then (v.db.tasks.find? id).map Task.inflate else none) ∧ db = v.db)
        (F := fun _ _ _ => True) fun changed => ?_).conseq ?_ fun _ _ _ => trivial
      · cases changed with
        | false => exact Spec.pure none
        | true => exact (findById_spec id).conseq (fun _ _ _ h => h) fun _ _ _ => trivial
      · rintro v t _ ⟨changed, _, ⟨hchanged, rfl⟩, rfl, rfl⟩ htask
        obtain ⟨row, hrow, rfl⟩ := Option.map_eq_some_iff.1 htask.symm
        rw [hrow, Option.any_some, Task.inflate_version] at hchanged
        cases changed with
        | false =>
          refine .inl ⟨rfl, rfl, fun hfree => ?_⟩
          obtain ⟨row', hrow', hassignee, hstatus⟩ := hfree
          cases hrow.symm.trans hrow'
          simp [Task.claimable, hassignee, hstatus] at hchanged
        | true =>
          right
          simp only [Task.claimable, Bool.and_eq_true, beq_iff_eq, Option.isNone_iff_eq_none,
            Bool.true_eq] at hchanged
          refine ⟨row, hrow, hchanged.1.1, hchanged.1.2, ?_, rfl⟩
          simp only [if_true, Db.find?_writeTask_self, hrow, Option.map_some]
  · rintro v t db ⟨_, _, ⟨rfl, rfl⟩, h⟩
    exact h rfl

theorem renewUpdate_spec (id : Nat) (assignee : String) : Spec (renewUpdate id assignee)
    (fun v changed db => (changed = false ∧ db = v.db) ∨ changed = true ∧
      ∃ row, v.db.tasks.find? id = some row ∧ row.assignee = some assignee ∧
        row.status = .inProgress ∧ db = v.db.writeTask id (Task.renew v.now) (Task.renew_id v.now))
    Unchanged := by
  refine (updateWhere_spec id _ _ _ _).post ?_
  rintro v changed _ ⟨hchanged, rfl⟩
  cases changed with
  | false => exact .inl ⟨rfl, rfl⟩
  | true =>
    obtain ⟨row, hrow, hguard⟩ := (Option.any_eq_true _ _).1 hchanged.symm
    simp only [Task.heldBy, Bool.and_eq_true, beq_iff_eq] at hguard
    exact .inr ⟨rfl, row, hrow, hguard.1, hguard.2, rfl⟩

end TaskRepository

/-! ## Sample rows -/

/-- A task of project 1. -/
def plainTask (status : TaskStatus) (parentTaskId : Option Nat) : CreateTaskDTO where
  title := "task"
  status := status
  priority := .medium
  projectId := 1
  parentTaskId := parentTaskId
  createdBy := "user"

/-- A database with these tasks, created one after the other. -/
def Db.withTasks (dtos : List CreateTaskDTO) : Db :=
  dtos.foldl (fun db dto => db.insertTask dto [] 0) Db.empty

end WoodFiredTasks
