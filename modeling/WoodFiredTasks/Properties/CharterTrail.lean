import WoodFiredTasks.Lib.Runs
import WoodFiredTasks.ProjectProcesses

set_option autoImplicit false

/-! # The trail of charters

A charter leaves the `value_charter` column when it is replaced or cleared. A replacement takes a
snapshot of the charter that the call has read, in the transaction that writes the new one, so a
replaced charter is in `project_charter_history`; clearing takes none. -/

namespace WoodFiredTasks

open ProjectService

/-- The charter is in the column of the project, or in a snapshot of the project. -/
def Db.CharterKept (db : Db) (id : Nat) (c : ValueCharter) : Prop :=
  db.charter? id = some c ∨ ∃ h ∈ db.charterHistory.rows, h.projectId = id ∧ h.charter = c

instance (db : Db) (id : Nat) (c : ValueCharter) : Decidable (db.CharterKept id c) :=
  inferInstanceAs (Decidable (_ ∨ _))

/-- A write of the project's charter finds the charter that its call has read. -/
def ProjectSys.CharterAsRead (id : Nat) (s : ProjectSys) (a : ProjectAction) : Prop :=
  match s.pointAt a with
  | some (.updateWrite id' existing input _) =>
    id' = id → input.valueCharter.isSome = true → s.db.charter? id = existing.valueCharter
  | _ => True

/-- The step clears the column of the project while it holds the charter. -/
def ProjectSys.Clears (id : Nat) (c : ValueCharter) (s : ProjectSys) (a : ProjectAction) : Prop :=
  match s.pointAt a with
  | some (.updateWrite id' _ input _) =>
    id' = id ∧ input.valueCharter = some none ∧ s.db.charter? id = some c
  | _ => False

instance (id : Nat) (s : ProjectSys) (a : ProjectAction) : Decidable (s.CharterAsRead id a) :=
  match h : s.pointAt a with
  | some (.updateWrite id' existing input _) =>
    decidable_of_iff (id' = id → input.valueCharter.isSome = true →
      s.db.charter? id = existing.valueCharter) (by simp only [ProjectSys.CharterAsRead, h])
  | none | some (.start _) | some (.insertRow _) | some (.createdReload _)
  | some (.nameCheck ..) | some (.updatedReload _) =>
    isTrue (by simp only [ProjectSys.CharterAsRead, h])

instance (id : Nat) (c : ValueCharter) (s : ProjectSys) (a : ProjectAction) :
    Decidable (s.Clears id c a) :=
  match h : s.pointAt a with
  | some (.updateWrite id' _ input _) =>
    decidable_of_iff (id' = id ∧ input.valueCharter = some none ∧ s.db.charter? id = some c)
      (by simp only [ProjectSys.Clears, h])
  | none | some (.start _) | some (.insertRow _) | some (.createdReload _)
  | some (.nameCheck ..) | some (.updatedReload _) =>
    isFalse (by simp only [ProjectSys.Clears, h, not_false_eq_true])

section Kept

variable {db : Db} {id : Nat} {c : ValueCharter}

theorem Db.CharterKept.insertProject (h : db.CharterKept id c) (input : CreateProjectInput) :
    (db.insertProject input).CharterKept id c := by
  obtain hstored | hsnapshot := h
  · left
    obtain ⟨row, hrow, -⟩ := Option.bind_eq_some_iff.1 hstored
    rw [Db.charter?_insertProject (Table.lt_next_of_find? hrow), hstored]
  · exact .inr hsnapshot

/-- A snapshot is never taken back. -/
theorem Db.snapshot_written {now id' : Nat} {existing : Project} {input : UpdateProjectInput}
    {actor : ProjectUpdateActor} {h : CharterHistoryRow} (hmem : h ∈ db.charterHistory.rows) :
    h ∈ (ProjectPoint.written now db id' existing input actor).charterHistory.rows := by
  unfold ProjectPoint.written
  split
  · simp [hmem]
  · exact hmem

/-- The column of a project that is written with another charter than it holds: the old charter is
    the one that was read, so it is in the snapshot of the same write. -/
theorem Db.CharterKept.written {now id' : Nat} {existing : Project} {input : UpdateProjectInput}
    {actor : ProjectUpdateActor} (h : db.CharterKept id c)
    (hread : id' = id → input.valueCharter.isSome = true → db.charter? id = existing.valueCharter)
    (hclear : ¬(id' = id ∧ input.valueCharter = some none ∧ db.charter? id = some c)) :
    (ProjectPoint.written now db id' existing input actor).CharterKept id c := by
  obtain hstored | ⟨row, hmem, hrow⟩ := h
  swap
  · exact .inr ⟨row, Db.snapshot_written hmem, hrow⟩
  have hcolumn : (ProjectPoint.written now db id' existing input actor).charter? id =
      (db.applyProjectUpdate id' input).charter? id := by
    unfold ProjectPoint.written
    split <;> rfl
  by_cases hid : id' = id
  swap
  · left
    rw [hcolumn, Db.charter?_applyProjectUpdate_ne (fun he => hid he.symm), hstored]
  subst hid
  cases hnew : input.valueCharter with
  | none =>
    -- the update leaves the column alone
    left
    rw [hcolumn, Db.charter?_applyProjectUpdate_self, hnew]
    exact hstored
  | some value =>
    cases value with
    | none => exact absurd ⟨rfl, hnew, hstored⟩ hclear
    | some new =>
      right
      have hprior : existing.valueCharter = some c := by
        rw [← hread rfl (by simp [hnew]), hstored]
      have hpair : charterOverwrite existing input = some (new, c) := by
        simp [charterOverwrite, hnew, hprior]
      refine ⟨(snapshot id' new c actor).row now db.charterHistory.next, ?_, rfl, rfl⟩
      simp [ProjectPoint.written, hpair]

end Kept

/-- One step keeps a charter, unless it clears it or overtakes another call. -/
theorem ProjectSys.charterKept_step {id : Nat} {c : ValueCharter} (s : ProjectSys)
    (a : ProjectAction) (h : s.db.CharterKept id c)
    (hok : s.CharterAsRead id a ∧ ¬ s.Clears id c a) :
    (Shared.step projectCalls s a).db.CharterKept id c := by
  obtain ⟨hread, hclear⟩ := hok
  have hE : ∀ point, Leaves (projectCalls.segment point) fun v _ db =>
      point.Effect v.now v.db db := ProjectPoint.leaves_segment
  refine Shared.step_db (I := fun db => db.CharterKept id c)
    (E := fun point _ now db _ db' => point.Effect now db db') hE ?_ h
  intro p env point next db' ha hpoint heffect
  have hat : s.pointAt a = some point := by
    subst ha
    exact hpoint
  cases point with
  | insertRow input =>
    subst heffect
    exact h.insertProject input
  | updateWrite id' existing input actor =>
    subst heffect
    simp only [ProjectSys.CharterAsRead, hat] at hread
    simp only [ProjectSys.Clears, hat] at hclear
    exact h.written hread hclear
  | start call =>
    subst heffect
    exact h
  | createdReload id' =>
    subst heffect
    exact h
  | nameCheck id' existing input actor =>
    subst heffect
    exact h
  | updatedReload id' =>
    subst heffect
    exact h

/-- **Main theorem.** In every run of `createProject` and `updateProject` calls by any number of
    processes, a charter stored in the column of a project is kept in every later state, in the
    column or in the project's history, unless it is cleared. The writes of the project's charter
    are assumed to find the charter that their own call has read. -/
theorem charterTrail_kept {s : ProjectSys} {id : Nat} {c : ValueCharter}
    (h : s.db.charter? id = some c) (actions : List ProjectAction)
    (hrun : RunOk (Shared.step projectCalls)
      (fun (s : ProjectSys) a => s.CharterAsRead id a ∧ ¬ s.Clears id c a) s actions) :
    Always (Shared.step projectCalls) (fun s => s.db.CharterKept id c) s actions :=
  hrun.always (fun s a hs hok => ProjectSys.charterKept_step s a hs hok) (.inl h)

/-! ## Two runs -/

/-- A charter without themes. -/
def plainCharter (interviewVersion : Nat) : ValueCharter where
  mission := "mission"
  valueThemes := []
  timeContext := ""
  riskPosture := ""
  outOfScope := []
  interviewVersion
  updatedAt := "2026-01-01"

/-- A call of process 1, with as many steps as it needs. -/
def projectCallSteps (call : ProjectCall) (steps : Nat) : List ProjectAction :=
  .call 1 call :: List.replicate steps (.step 1 .undisturbed)

/-- Project 1 gets a charter. -/
def withCharter : ProjectSys :=
  Shared.run projectCalls (.quiet Db.empty 0)
    (projectCallSteps (.createProject { name := "project", valueCharter := some (plainCharter 1) }) 3)

/-- Its charter is set to the value, or cleared. -/
def setCharter (value : Option ValueCharter) : List ProjectAction :=
  projectCallSteps (.updateProject 1 { valueCharter := some value } {}) 4

theorem charterTrail_kept_replaced :
    Always (Shared.step projectCalls) (fun s => s.db.CharterKept 1 (plainCharter 1)) withCharter
      (setCharter (some (plainCharter 2)) ++ setCharter none) :=
  charterTrail_kept (by decide +kernel) _ (by decide +kernel)

/-- A charter that is cleared while it is in the column is gone. -/
theorem charterTrail_lost :
    ¬ ∀ (before after : List ProjectAction) (id : Nat) (c : ValueCharter),
      (Shared.run projectCalls (.quiet Db.empty 0) before).db.charter? id = some c →
      (Shared.run projectCalls (.quiet Db.empty 0) (before ++ after)).db.CharterKept id c := by
  intro h
  have hkept := h (projectCallSteps
    (.createProject { name := "project", valueCharter := some (plainCharter 1) }) 3)
    (setCharter none) 1 (plainCharter 1) (by decide +kernel)
  revert hkept
  decide +kernel

end WoodFiredTasks
