import WoodFiredTasks.Services.ListTasks
import WoodFiredTasks.Services.Ranking

set_option autoImplicit false

/-! # Listed rows

The statements that return many rows read the tags of each from one text, joined with commas;
`findById` reads the rows of `task_tags`. A row of a list is what `findById` returns for its id
exactly if the tags of the task survive the text: a comma in a tag splits it, and `sort()` orders
the parts by UTF-16 units where SQLite orders the tags by their characters. -/

namespace WoodFiredTasks

open TaskRepository

/-! ## The reads -/

/-- The listing statements, with the tags of the rows. -/
inductive ListRead where
  | all (order : RowOrder) (pagination : PaginationOptions)
  | byFilters (host : ListHost) (filters : TaskFilters)
  | children (env : Env) (parentId : Nat) (pagination : PaginationOptions)

/-- What is returned; none stands for `FtsSyntaxError`. -/
def ListRead.rows (db : Db) : ListRead → Option (List Task)
  | all order pagination => some (findAll order db pagination)
  | byFilters host filters => findByFilters host db filters
  | children env parentId pagination => some (childrenPage env db parentId pagination)

/-- What `findById` returns on a state of the database. -/
def Db.readById (db : Db) (id : Nat) : Option Task := (db.tasks.find? id).map Task.inflate

theorem findById_eq (id : Nat) : findById id = query fun db => db.readById id := rfl

section Rows

variable {db : Db} {r : Task}

/-- A row of a page is a row of the sorted table. -/
theorem mem_page {order : RowOrder} {kept : Task → Bool} {limit offset : Nat}
    (hr : r ∈ page ((order.sort (db.tasks.rows.filter kept)).map Task.listed) limit offset) :
    ∃ t ∈ db.tasks.rows, r = t.listed := by
  obtain ⟨t, ht, rfl⟩ := List.mem_map.1 (List.mem_of_mem_drop (List.mem_of_mem_take hr))
  have hkept := (order.perm _).mem_iff.1 ht
  exact ⟨t, (List.mem_filter.1 hkept).1, rfl⟩

/-- Each row that a statement returns is made of a row of the table. -/
theorem ListRead.mem_rows {read : ListRead} {rows : List Task} (hrows : read.rows db = some rows)
    (hr : r ∈ rows) : ∃ t ∈ db.tasks.rows, r = t.listed := by
  cases read with
  | all order pagination =>
    rw [ListRead.rows, Option.some.injEq] at hrows
    rw [← hrows, findAll] at hr
    exact mem_page hr
  | byFilters host filters =>
    rw [ListRead.rows, findByFilters] at hrows
    split at hrows
    · simp at hrows
    · rw [← Option.some.inj hrows] at hr
      exact mem_page hr
  | children env parentId pagination =>
    rw [ListRead.rows, Option.some.injEq] at hrows
    rw [← hrows, childrenPage] at hr
    obtain ⟨t, ht, rfl⟩ := List.mem_map.1 hr
    have hchild := List.mem_of_mem_drop (List.mem_of_mem_take ht)
    exact ⟨t, (mem_childrenInOrder.1 hchild).1, rfl⟩

/-- The two reads of a row differ at most in its tags. -/
theorem Task.inflate_eq_listed_iff {t : Task} : t.inflate = t.listed ↔ KeepsTags t.tags := by
  rw [← splitTags_eq_iff]
  constructor
  · intro h
    exact (congrArg Task.tags h).symm
  · intro h
    rw [Task.listed, h]
    rfl

/-- **Main theorem.** A row that a list returns is what `findById` returns for its id if and only
    if the tags of the task survive the text. -/
theorem listed_row_same_iff (db : Db) (read : ListRead) (rows : List Task)
    (hrows : read.rows db = some rows) (r : Task) (hr : r ∈ rows) :
    ∃ t, db.tasks.find? r.id = some t ∧ (db.readById r.id = some r ↔ KeepsTags t.tags) := by
  obtain ⟨t, ht, rfl⟩ := ListRead.mem_rows hrows hr
  have hfind : db.tasks.find? t.listed.id = some t := Table.find?_eq_some.2 ⟨ht, rfl⟩
  refine ⟨t, hfind, ?_⟩
  rw [Db.readById, hfind, Option.map_some, Option.some.injEq]
  exact Task.inflate_eq_listed_iff

end Rows

/-- A database with a task that has these tags. -/
def Db.withTags (tags : List String) : Db := Db.oneProject.insertTask (plainTask .open none) tags 0

/-- The theorem at two plain tags. -/
theorem listed_row_same_plain :
    (findAll .stable (Db.withTags ["docs", "api"]) {}).length = 1 ∧
      ∀ r ∈ findAll .stable (Db.withTags ["docs", "api"]) {},
        (Db.withTags ["docs", "api"]).readById r.id = some r := by
  have hkeeps : KeepsTags ["docs", "api"] := ⟨by decide, by decide, by decide⟩
  refine ⟨by decide +kernel, fun r hr => ?_⟩
  obtain ⟨t, ht, hiff⟩ :=
    listed_row_same_iff (Db.withTags ["docs", "api"]) (.all .stable {}) _ rfl r hr
  have htags : t.tags = ["docs", "api"] := by
    have hone := (Table.find?_eq_some.1 ht).1
    rw [show (Db.withTags ["docs", "api"]).tasks.rows =
      [(plainTask .open none).row ["docs", "api"] 0 1] from rfl, List.mem_singleton] at hone
    rw [hone]
    rfl
  exact hiff.2 (htags ▸ hkeeps)

/-- A tag with a comma is listed as two tags, and two tags change places. -/
theorem listed_tags_differ :
    TaskSchema.tags ["docs,api"] = [] ∧ TaskSchema.tags ["😀", "～"] = [] ∧
      (∃ r ∈ findAll .stable (Db.withTags ["docs,api"]) {},
        (Db.withTags ["docs,api"]).readById r.id ≠ some r) ∧
      ((Db.withTags ["docs,api"]).readById 1).map Task.tags = some ["docs,api"] ∧
      (findAll .stable (Db.withTags ["docs,api"]) {}).map Task.tags = [["api", "docs"]] ∧
      ((Db.withTags ["😀", "～"]).readById 1).map Task.tags = some ["～", "😀"] ∧
      (findAll .stable (Db.withTags ["😀", "～"]) {}).map Task.tags = [["😀", "～"]] := by
  decide +kernel

end WoodFiredTasks
