import WoodFiredTasks.Repositories.TaskRepository
import WoodFiredTasks.Schemas.TaskSchema

set_option autoImplicit false

/-! # The project repository

The SQL of `src/repositories/project.repository.ts`, and the append to the charter history
(`src/repositories/project-charter-history.repository.ts`), whose rows are never changed. A
charter is stored as JSON text and parsed back as it was; here it is stored as it is. -/

namespace WoodFiredTasks

/-! ## Rows -/

/-- The row that `create` inserts. -/
def CreateProjectInput.row (input : CreateProjectInput) (id : Nat) : Project where
  id := id
  name := input.name
  description := input.description
  valueCharter := input.valueCharter

/-- The `SET` clause of `update`. -/
def UpdateProjectInput.apply (input : UpdateProjectInput) (p : Project) : Project :=
  { p with
    name := input.name.getD p.name
    description := input.description.getD p.description
    valueCharter := input.valueCharter.getD p.valueCharter }

@[simp] theorem CreateProjectInput.row_id (input : CreateProjectInput) (id : Nat) :
    (input.row id).id = id := rfl

@[simp] theorem UpdateProjectInput.apply_id (input : UpdateProjectInput) (p : Project) :
    (input.apply p).id = p.id := rfl

/-- One charter snapshot, as `append` is given it. -/
structure ProjectCharterHistoryRecord where
  projectId : Nat
  interviewVersion : Nat
  charter : ValueCharter
  changeKind : Option String := none
  actorType : Option String := none
  actorId : Option String := none

/-- The row of a snapshot. -/
def ProjectCharterHistoryRecord.row (r : ProjectCharterHistoryRecord) (now id : Nat) :
    CharterHistoryRow where
  id := id
  projectId := r.projectId
  interviewVersion := r.interviewVersion
  charter := r.charter
  changeKind := some (r.changeKind.getD "overwrite")
  actorType := r.actorType
  actorId := r.actorId
  changedAt := datetimeNow now

@[simp] theorem ProjectCharterHistoryRecord.row_id (r : ProjectCharterHistoryRecord)
    (now id : Nat) : (r.row now id).id = id := rfl

/-- The project with a name; names are unique. -/
def Db.projectNamed (db : Db) (name : String) : Option Project :=
  db.projects.rows.find? fun p => p.name == name

/-- Another project than `id` has the name. -/
def Db.nameTaken (db : Db) (id : Nat) (name : String) : Bool :=
  db.projects.rows.any fun p => p.name == name && p.id != id

/-- The INSERT of `create`. -/
def Db.insertProject (db : Db) (input : CreateProjectInput) : Db :=
  { db with projects := db.projects.insert input.row input.row_id }

/-- The UPDATE of `update`. -/
def Db.applyProjectUpdate (db : Db) (id : Nat) (input : UpdateProjectInput) : Db :=
  { db with projects := db.projects.modify id input.apply input.apply_id }

/-- The INSERT of `append`. -/
def Db.appendCharter (db : Db) (record : ProjectCharterHistoryRecord) (now : Nat) : Db :=
  { db with charterHistory := db.charterHistory.insert (record.row now) (record.row_id now) }

/-- The charter in the `value_charter` column of a project. -/
def Db.charter? (db : Db) (id : Nat) : Option ValueCharter :=
  (db.projects.find? id).bind (·.valueCharter)

section Rows

variable {db : Db} {id j : Nat}

@[simp] theorem Db.mem_appendCharter {record : ProjectCharterHistoryRecord} {now : Nat}
    {h : CharterHistoryRow} : h ∈ (db.appendCharter record now).charterHistory.rows ↔
      h ∈ db.charterHistory.rows ∨ h = record.row now db.charterHistory.next := by
  simp [appendCharter]

@[simp] theorem Db.charterHistory_applyProjectUpdate {input : UpdateProjectInput} :
    (db.applyProjectUpdate id input).charterHistory = db.charterHistory := rfl

theorem Db.charter?_insertProject {input : CreateProjectInput} (h : j < db.projects.next) :
    (db.insertProject input).charter? j = db.charter? j := by
  simp only [charter?, insertProject, Table.find?_insert]
  rw [if_neg (by omega)]

theorem Db.charter?_applyProjectUpdate_ne {input : UpdateProjectInput} (h : j ≠ id) :
    (db.applyProjectUpdate id input).charter? j = db.charter? j := by
  simp only [charter?, applyProjectUpdate, Table.find?_modify_ne h]

theorem Db.charter?_applyProjectUpdate_self {input : UpdateProjectInput} :
    (db.applyProjectUpdate id input).charter? id =
      (db.projects.find? id).bind fun p => input.valueCharter.getD p.valueCharter := by
  simp only [charter?, applyProjectUpdate, Table.find?_modify_self]
  cases db.projects.find? id <;> rfl

end Rows

/-! ## Statements -/

namespace ProjectRepository

/-- `findById`. -/
def findById (id : Nat) : M (Option Project) := query fun db => db.projects.find? id

/-- `findByName`. -/
def findByName (name : String) : M (Option Project) := query fun db => db.projectNamed name

/-- The row or `throw new Error(…)`. -/
def orThrow (message : String) : Option Project → M Project
  | some p => pure p
  | none => raise (.generic message)

/-- The INSERT of `create`. -/
def insert (input : CreateProjectInput) : M Nat :=
  statement (fun db => if (db.projectNamed input.name).isSome then some uniqueError else none)
    (fun db => db.projects.next) fun _ db => db.insertProject input

/-- The read that ends `create`. -/
def reloadCreated (id : Nat) : M Project := findById id >>= orThrow "Failed to create project"

/-- `create`. -/
def create (input : CreateProjectInput) : M Project := insert input >>= reloadCreated

/-- The UPDATE of `update`. -/
def updateRow (id : Nat) (input : UpdateProjectInput) : M Unit :=
  statement
    (fun db => if (db.projects.find? id).isSome && input.name.any (db.nameTaken id) then
      some uniqueError else none)
    (fun _ => ()) fun _ db => db.applyProjectUpdate id input

/-- The read that ends `update`. -/
def reloadUpdated (id : Nat) : M Project :=
  findById id >>= orThrow s!"Project with id {id} not found"

/-- `update`. -/
def update (id : Nat) (input : UpdateProjectInput) : M Project :=
  updateRow id input >>= fun _ => reloadUpdated id

end ProjectRepository

/-- `ProjectCharterHistoryRepository.append`. -/
def appendCharter (record : ProjectCharterHistoryRecord) : M Unit :=
  statement
    (fun db => if (db.projects.find? record.projectId).isNone then some foreignKeyError else none)
    (fun _ => ()) fun now db => db.appendCharter record now

end WoodFiredTasks
