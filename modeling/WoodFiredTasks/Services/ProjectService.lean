import WoodFiredTasks.Repositories.ProjectRepository

set_option autoImplicit false

/-! # The project service

`createProject` and `updateProject` of `src/services/project.service.ts`, with the charter history
and the database handle that the server passes in. As in `TaskService.lean` a call is put together
from one program per statement or transaction. The events that both calls publish at their end
write nothing and are left out. -/

namespace WoodFiredTasks

/-- Who is recorded on a charter snapshot. -/
structure ProjectUpdateActor where
  actorType : Option String := none
  actorId : Option String := none
  deriving DecidableEq, Repr

namespace ProjectService

def nameExists : Err := .business "Project with this name already exists"

/-! ## Creating -/

/-- What `createProject` does before it writes. -/
def readCreate (input : CreateProjectInput) : M Unit := do
  raiseError (TaskSchema.parse (ProjectSchema.createProject input))
  let existing ← ProjectRepository.findByName input.name
  if existing.isSome then raise nameExists else pure ()

/-- `createProject`. -/
def createProject (input : CreateProjectInput) : M Project := do
  readCreate input
  ProjectRepository.create input

/-! ## Updating -/

/-- The validation of `updateProject` and its read of the row. -/
def readUpdate (id : Nat) (input : UpdateProjectInput) : M Project := do
  raiseError (TaskSchema.parse (ProjectSchema.updateProject input))
  let existing ← ProjectRepository.findById id
  match existing with
  | some p => pure p
  | none => raise (.notFound "Project" id.repr)

/-- The new name, if the update changes it. -/
def newName (existing : Project) (input : UpdateProjectInput) : Option String :=
  input.name.filter fun name => name ≠ "" ∧ name ≠ existing.name

/-- The uniqueness check of a new name. -/
def checkName (existing : Project) (input : UpdateProjectInput) : M Unit :=
  match newName existing input with
  | none => pure ()
  | some name => do
    let duplicate ← ProjectRepository.findByName name
    if duplicate.isSome then raise nameExists else pure ()

/-- `isCharterOverwrite`: the new charter and the one it replaces, when both are there. -/
def charterOverwrite (existing : Project) (input : UpdateProjectInput) :
    Option (ValueCharter × ValueCharter) :=
  match input.valueCharter.join, existing.valueCharter with
  | some new, some prior => some (new, prior)
  | _, _ => none

/-- The snapshot of a replaced charter, under the version of the new one. -/
def snapshot (id : Nat) (new prior : ValueCharter) (actor : ProjectUpdateActor) :
    ProjectCharterHistoryRecord where
  projectId := id
  interviewVersion := new.interviewVersion
  charter := prior
  changeKind := some "overwrite"
  actorType := actor.actorType
  actorId := actor.actorId

/-- `doUpdate` of an overwrite, in one transaction: the snapshot, then the update. -/
def overwrite (id : Nat) (new prior : ValueCharter) (input : UpdateProjectInput)
    (actor : ProjectUpdateActor) : M Project :=
  transaction do
    appendCharter (snapshot id new prior actor)
    ProjectRepository.update id input

/-- `doUpdate`. -/
def writeUpdate (id : Nat) (existing : Project) (input : UpdateProjectInput)
    (actor : ProjectUpdateActor) : M Project :=
  match charterOverwrite existing input with
  | some (new, prior) => overwrite id new prior input actor
  | none => ProjectRepository.update id input

/-- `updateProject`. -/
def updateProject (id : Nat) (input : UpdateProjectInput) (actor : ProjectUpdateActor := {}) :
    M Project := do
  let existing ← readUpdate id input
  checkName existing input
  writeUpdate id existing input actor

/-! ## What the programs do -/

theorem findById_spec (id : Nat) : Spec (ProjectRepository.findById id)
    (fun v p db => p = v.db.projects.find? id ∧ db = v.db) Unchanged := Spec.query _

theorem orThrow_spec (message : String) (p : Option Project) :
    Spec (ProjectRepository.orThrow message p) (fun v p' db => p = some p' ∧ db = v.db)
      Unchanged := by
  cases p with
  | none => exact Spec.raise _
  | some p => exact (Spec.pure p).post fun _ _ _ h => ⟨h.1 ▸ rfl, h.2⟩

/-- A check that a name is free changes nothing. -/
theorem findByName_spec (name : String) :
    Spec (ProjectRepository.findByName name >>= fun p => if p.isSome then raise nameExists else pure ())
      (fun v _ db => db = v.db) Unchanged := by
  refine (Spec.bindUnchanged (Spec.query fun db => db.projectNamed name)
    (R := fun _ v _ db => db = v.db) fun p => ?_).post ?_
  · split
    · exact Spec.raise _
    · exact (Spec.pure ()).post fun _ _ _ h => h.2
  · intro v _ db h
    obtain ⟨_, -, hdb⟩ := h
    exact hdb

theorem readCreate_spec (input : CreateProjectInput) :
    Spec (readCreate input) (fun v _ db => db = v.db) Unchanged := by
  refine (Spec.bindUnchanged (Spec.raiseError _) fun _ => findByName_spec input.name).post ?_
  intro v _ db h
  obtain ⟨_, -, hdb⟩ := h
  exact hdb

theorem insert_spec (input : CreateProjectInput) : Spec (ProjectRepository.insert input)
    (fun v id db => id = v.db.projects.next ∧ db = v.db.insertProject input) Unchanged :=
  (Spec.statement _ _ _).post fun _ _ _ h => h.2

theorem readUpdate_spec (id : Nat) (input : UpdateProjectInput) : Spec (readUpdate id input)
    (fun v p db => v.db.projects.find? id = some p ∧ db = v.db) Unchanged := by
  refine (Spec.bindUnchanged (Spec.raiseError _) fun _ =>
    Spec.bindUnchanged (findById_spec id) (R := fun row v p db => row = some p ∧ db = v.db)
      fun row => ?_).post ?_
  · cases row with
    | none => exact Spec.raise _
    | some p => exact (Spec.pure p).post fun _ _ _ h => ⟨h.1 ▸ rfl, h.2⟩
  · intro v p db h
    obtain ⟨_, -, row, hrow, hp, hdb⟩ := h
    exact ⟨hrow.symm.trans hp, hdb⟩

theorem checkName_spec (existing : Project) (input : UpdateProjectInput) :
    Spec (checkName existing input) (fun v _ db => db = v.db) Unchanged := by
  unfold checkName
  split
  · exact (Spec.pure ()).post fun _ _ _ h => h.2
  · exact findByName_spec _

theorem updateRow_spec (id : Nat) (input : UpdateProjectInput) :
    Spec (ProjectRepository.updateRow id input)
      (fun v _ db => db = v.db.applyProjectUpdate id input) Unchanged :=
  (Spec.statement _ _ _).post fun _ _ _ h => h.2.2

theorem reloadCreated_spec (id : Nat) : Spec (ProjectRepository.reloadCreated id)
    (fun v _ db => db = v.db) Unchanged := by
  refine (Spec.bindUnchanged (findById_spec id) (orThrow_spec _)).post ?_
  intro v _ db h
  obtain ⟨_, -, -, hdb⟩ := h
  exact hdb

theorem reloadUpdated_spec (id : Nat) : Spec (ProjectRepository.reloadUpdated id)
    (fun v p db => v.db.projects.find? id = some p ∧ db = v.db) Unchanged := by
  refine (Spec.bindUnchanged (findById_spec id) (orThrow_spec _)).post ?_
  intro v p db h
  obtain ⟨_, hrow, hp, hdb⟩ := h
  exact ⟨hrow.symm.trans hp, hdb⟩

/-- An overwrite snapshots the charter it was given and updates the row, or does nothing. -/
theorem overwrite_spec (id : Nat) (new prior : ValueCharter) (input : UpdateProjectInput)
    (actor : ProjectUpdateActor) : Spec (overwrite id new prior input actor)
      (fun v _ db => db = (v.db.appendCharter (snapshot id new prior actor) v.now).applyProjectUpdate
        id input) Unchanged := by
  have happend : Spec (appendCharter (snapshot id new prior actor))
      (fun v _ db => db = v.db.appendCharter (snapshot id new prior actor) v.now) Unchanged :=
    (Spec.statement _ _ _).post fun _ _ _ h => h.2.2
  refine Spec.transaction ((happend.bind fun _ => (updateRow_spec id input).bind fun _ =>
    reloadUpdated_spec id).post ?_)
  intro v _ db h
  obtain ⟨_, _, rfl, _, _, rfl, -, rfl⟩ := h
  rfl

end ProjectService

end WoodFiredTasks
