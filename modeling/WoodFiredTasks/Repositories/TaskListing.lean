import WoodFiredTasks.Repositories.TaskRepository

set_option autoImplicit false

/-! # Listing the tasks of a project

`count` and `findByFilters` of `src/repositories/task.repository.ts` with the project as their
only filter, and the loop with which the services read a whole project page by page. Each of
these services runs without a break on one state of the database, so what they read is a
function of it.

`ORDER BY t.created_at DESC` leaves the order of equal instants to SQLite, which may order them
differently for a statement with the tag join and one without: a `RowOrder` stands for the order
of one statement. -/

namespace WoodFiredTasks

/-- The order in which a listing statement returns its rows. -/
structure RowOrder where
  sort : List Task → List Task
  perm : ∀ rows, (sort rows).Perm rows
  newestFirst : ∀ rows, (sort rows).Pairwise fun a b => b.createdAt.le a.createdAt = true

/-- The rows of `tasks` of a project. -/
def Db.projectTasks (db : Db) (projectId : Nat) : List Task :=
  db.tasks.rows.filter fun t => t.projectId == projectId

theorem Db.mem_projectTasks {db : Db} {projectId : Nat} {t : Task} :
    t ∈ db.projectTasks projectId ↔ t ∈ db.tasks.rows ∧ t.projectId = projectId := by
  simp [projectTasks]

/-- What a listing with `include_tags: false` makes of a row. -/
def Task.untagged (t : Task) : Task := { t.inflate with tags := [] }

@[simp] theorem Task.untagged_id (t : Task) : t.untagged.id = t.id := rfl
@[simp] theorem Task.untagged_status (t : Task) : t.untagged.status = t.status := rfl
@[simp] theorem Task.untagged_priority (t : Task) : t.untagged.priority = t.priority := rfl
@[simp] theorem Task.untagged_createdAt (t : Task) : t.untagged.createdAt = t.createdAt := rfl
@[simp] theorem Task.untagged_wsjf (t : Task) : t.untagged.wsjf = t.wsjf := rfl

namespace TaskRepository

/-- `count({ project_id })`. -/
def countProject (db : Db) (projectId : Nat) : Nat := (db.projectTasks projectId).length

/-- All rows that `findByFilters({ project_id, include_tags })` would return without its page. -/
def listing (order : RowOrder) (includeTags : Bool) (db : Db) (projectId : Nat) : List Task :=
  (order.sort (db.projectTasks projectId)).map fun t => if includeTags then t.listed else t.untagged

/-- One page of a listing. -/
def page (rows : List Task) (limit offset : Nat) : List Task := (rows.drop offset).take limit

/-- `findAll`. -/
def findAll (order : RowOrder) (db : Db) (pagination : PaginationOptions) : List Task :=
  let paging := resolvePagination pagination
  let joined (t : Task) : Bool := (db.projects.find? t.projectId).isSome
  page ((order.sort (db.tasks.rows.filter joined)).map Task.listed) paging.1 paging.2

end TaskRepository

open TaskRepository in
/-- The loop of the services: fetch pages and add their rows to `acc` until its size is the
    expected one or a page is empty. -/
def pageLoop {β : Type} (size : β → Nat) (add : β → Task → β) (rows : List Task) (expected : Nat)
    (offset : Nat) (acc : β) : β :=
  if size acc < expected then
    if page rows maxPageLimit offset = [] then acc
    else
      pageLoop size add rows expected (offset + (page rows maxPageLimit offset).length)
        ((page rows maxPageLimit offset).foldl add acc)
  else acc
termination_by rows.length - offset
decreasing_by
  rename_i hpage
  simp only [page, List.take_eq_nil_iff, List.drop_eq_nil_iff, maxPageLimit] at hpage ⊢
  simp only [List.length_take, List.length_drop]
  omega

/-- The loop reads all rows if the size of what is read counts them. -/
theorem pageLoop_eq {β : Type} {size : β → Nat} {add : β → Task → β} {rows : List Task} {init : β}
    (hsize : ∀ k ≤ rows.length, size ((rows.take k).foldl add init) = k) :
    pageLoop size add rows rows.length 0 init = rows.foldl add init := by
  have hloop : ∀ n offset, rows.length - offset = n → offset ≤ rows.length →
      pageLoop size add rows rows.length offset ((rows.take offset).foldl add init)
        = rows.foldl add init := by
    intro n
    induction n using Nat.strong_induction_on with
    | _ n ih =>
      intro offset hn hle
      rw [pageLoop, hsize offset hle]
      by_cases hlt : offset < rows.length
      · have hnext : rows.take offset ++ TaskRepository.page rows maxPageLimit offset
            = rows.take (offset + (TaskRepository.page rows maxPageLimit offset).length) := by
          simp [TaskRepository.page, List.take_add, List.take_eq_take_iff]
        have hlen : (TaskRepository.page rows maxPageLimit offset).length
            = min maxPageLimit (rows.length - offset) := by simp [TaskRepository.page]
        have hpage : TaskRepository.page rows maxPageLimit offset ≠ [] := by
          intro h
          rw [h] at hlen
          simp [maxPageLimit] at hlen
          omega
        rw [if_pos hlt, if_neg hpage, ← List.foldl_append, hnext]
        simp only [maxPageLimit] at hlen
        exact ih _ (by simp only [maxPageLimit]; omega) _ rfl (by simp only [maxPageLimit]; omega)
      · have hall : offset = rows.length := by omega
        rw [if_neg hlt, hall, List.take_length]
  simpa using hloop _ 0 rfl (Nat.zero_le _)

/-- `loadProjectTasks`: every task of a project, without tags. -/
def loadProjectTasks (order : RowOrder) (db : Db) (projectId : Nat) : List Task :=
  pageLoop List.length (fun out t => out ++ [t]) (TaskRepository.listing order false db projectId)
    (TaskRepository.countProject db projectId) 0 []

section Lemmas

variable {order : RowOrder} {db : Db} {projectId : Nat}

theorem TaskRepository.length_listing (order : RowOrder) (includeTags : Bool) :
    (listing order includeTags db projectId).length = countProject db projectId := by
  simp [listing, countProject, (order.perm _).length_eq]

theorem loadProjectTasks_eq :
    loadProjectTasks order db projectId = TaskRepository.listing order false db projectId := by
  have happend : ∀ rows init : List Task,
      rows.foldl (fun out t => out ++ [t]) init = init ++ rows := by
    intro rows
    induction rows with
    | nil => simp
    | cons t rows ih => simp [ih]
  rw [loadProjectTasks, ← TaskRepository.length_listing order false, pageLoop_eq]
  · rw [happend, List.nil_append]
  · intro k hk
    rw [happend]
    simpa using hk

theorem loadProjectTasks_perm :
    (loadProjectTasks order db projectId).Perm ((db.projectTasks projectId).map Task.untagged) := by
  rw [loadProjectTasks_eq, TaskRepository.listing]
  simpa using (order.perm (db.projectTasks projectId)).map Task.untagged

/-- The ids of the tasks of a project. -/
def Db.projectIds (db : Db) (projectId : Nat) : List Nat := (db.projectTasks projectId).map Task.id

theorem Db.projectIds_nodup : (db.projectIds projectId).Nodup :=
  (List.filter_sublist.map Task.id).nodup db.tasks.nodup

end Lemmas

end WoodFiredTasks
