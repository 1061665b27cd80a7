import WoodFiredTasks.ProcessSteps
import WoodFiredTasks.Scores
import WoodFiredTasks.Services.TaskService
import WoodFiredTasks.Services.WsjfRescore

set_option autoImplicit false

/-! # Writes of scores

Every write of score columns is about one task, and most take a history record along. `ScoreWrite`
is such a write, and `ScoresWritten` what a list of them makes of a database, as far as scores are
concerned. The specifications here say which writes the programs of the services make. -/

/-! ## The boot sweep

`backfillJobSizes` of `src/services/job-size-backfill.ts`: every open task without a size is sized
from its minutes, each in its own transaction; a row whose write throws is passed over. -/

namespace WoodFiredTasks

/-- A task that `findIdsWithNullJobSize` returns. -/
structure SizeCandidate where
  id : Nat
  estimatedMinutes : Option Nat
  deriving DecidableEq, Repr

/-- The tasks without a size whose status is not terminal, by id. -/
def Db.sizeCandidates (db : Db) : List SizeCandidate :=
  (db.tasks.rows.filter fun t =>
    t.wsjf.jobSize.isNone && t.status != .done && t.status != .closed).map fun t =>
      ⟨t.id, t.estimatedMinutes⟩

/-- How many rows were sized, skipped and passed over. -/
structure BackfillCounts where
  swept : Nat := 0
  skipped : Nat := 0
  failed : Nat := 0
  deriving DecidableEq, Repr

/-- Was the row sized? -/
def backfillRow (candidate : SizeCandidate) : M Bool :=
  Prog.tryCatch
    (TaskService.autoSizeTask candidate.id (minutesToTier candidate.estimatedMinutes) .bootSweep >>=
      fun _ => pure true)
    fun _ => pure false

/-- The loop of `backfillJobSizes`. -/
def backfillRows : List SizeCandidate → BackfillCounts → M BackfillCounts
  | [], counts => pure counts
  | candidate :: rest, counts =>
    backfillRow candidate >>= fun sized =>
      backfillRows rest
        (if sized then { counts with swept := counts.swept + 1 }
        else { counts with failed := counts.failed + 1 })

/-- `backfillJobSizes`. -/
def backfillJobSizes : M BackfillCounts :=
  query (fun db => db.sizeCandidates) >>= fun candidates => backfillRows candidates {}

end WoodFiredTasks

namespace WoodFiredTasks

open TaskService

/-- A write of the score columns of one task, with the history record that goes with it. -/
structure ScoreWrite where
  taskId : Nat
  columns : WsjfColumns
  record : Option WsjfHistoryRecord

/-- The history after the write. -/
def ScoreWrite.history (w : ScoreWrite) (now : Nat) (history : Table WsjfHistoryRow WsjfHistoryRow.id) :
    Table WsjfHistoryRow WsjfHistoryRow.id :=
  match w.record with
  | none => history
  | some r => history.insert (r.row now) (r.row_id now)

/-- The write was made, and no other score was touched. -/
structure ScoreWrite.Done (w : ScoreWrite) (now : Nat) (db db' : Db) : Prop where
  columns : ∀ t, db'.wsjf? t = if t = w.taskId then some w.columns else db.wsjf? t
  history : db'.wsjfHistory = w.history now db.wsjfHistory
  next : db.tasks.next ≤ db'.tasks.next

/-- No score was written; the tasks that are gone have taken their rows along. -/
structure Db.ScoresLeft (gone : Nat → Bool) (db db' : Db) : Prop where
  columns : ∀ t, db'.wsjf? t = if gone t then none else db.wsjf? t
  history : db'.wsjfHistory = db.wsjfHistory.filter fun h => !gone h.taskId
  next : db.tasks.next ≤ db'.tasks.next

/-- The writes were made one after the other. -/
inductive ScoresWritten (now : Nat) : List ScoreWrite → Db → Db → Prop where
  | nil {db db'} (gone : Nat → Bool) (h : db.ScoresLeft gone db') : ScoresWritten now [] db db'
  | cons {w ws db db₁ db'} (h : w.Done now db db₁) (hrest : ScoresWritten now ws db₁ db') :
      ScoresWritten now (w :: ws) db db'

section Left

variable {db db' : Db} {now : Nat}

/-- Nothing that scores are about has changed. -/
theorem Db.ScoresLeft.of_eq (hcolumns : ∀ t, db'.wsjf? t = db.wsjf? t)
    (hhistory : db'.wsjfHistory = db.wsjfHistory) (hnext : db.tasks.next ≤ db'.tasks.next) :
    db.ScoresLeft (fun _ => false) db' where
  columns := by simpa using hcolumns
  history := by
    rw [hhistory, Table.filter_eq_self]
    simp
  next := hnext

theorem ScoresWritten.unchanged (hcolumns : ∀ t, db'.wsjf? t = db.wsjf? t)
    (hhistory : db'.wsjfHistory = db.wsjfHistory) (hnext : db.tasks.next ≤ db'.tasks.next) :
    ScoresWritten now [] db db' :=
  .nil _ (.of_eq hcolumns hhistory hnext)

theorem ScoresWritten.one {w : ScoreWrite} (h : w.Done now db db') :
    ScoresWritten now [w] db db' :=
  .cons h (.unchanged (fun _ => rfl) rfl le_rfl)

end Left

/-- The rows of the tasks that are left. -/
theorem Db.ScoresLeft.rowsOf {gone : Nat → Bool} {db db' : Db} (h : db.ScoresLeft gone db') (t : Nat) :
    db'.rowsOf t = if gone t then [] else db.rowsOf t := by
  rw [Db.rowsOf, h.history]
  simp only [Table.filter, List.filter_filter]
  split
  · rename_i hgone
    refine List.filter_eq_nil_iff.2 fun row _ hrow => ?_
    simp only [Bool.and_eq_true, beq_iff_eq] at hrow
    rw [hrow.1, hgone] at hrow
    simp at hrow
  · rename_i hkept
    refine List.filter_congr fun row _ => ?_
    by_cases ht : row.taskId = t
    · simp [ht, hkept]
    · simp [ht]

/-- A history table after one more row, as the rows of a task. -/
theorem ScoreWrite.Done.rowsOf {w : ScoreWrite} {now : Nat} {db db' : Db} (h : w.Done now db db')
    (hid : ∀ r, w.record = some r → r.taskId = w.taskId) (t : Nat) :
    db'.rowsOf t = db.rowsOf t ∨
      ∃ r id, w.record = some r ∧ w.taskId = t ∧ db'.rowsOf t = db.rowsOf t ++ [r.row now id] := by
  have hhistory := h.history
  unfold ScoreWrite.history at hhistory
  cases hrecord : w.record with
  | none =>
    rw [hrecord] at hhistory
    exact .inl (Db.rowsOf_congr hhistory)
  | some r =>
    rw [hrecord] at hhistory
    have hrows : db'.rowsOf t = (db.appendHistory r now).rowsOf t := Db.rowsOf_congr hhistory
    rw [Db.rowsOf_appendHistory] at hrows
    split at hrows
    · rename_i ht
      exact .inr ⟨r, _, rfl, (hid r hrecord).symm.trans ht, hrows⟩
    · exact .inl hrows

/-- Where each task is written at most once, its rows are kept and at most one is added, or the task
    is gone with its rows. -/
theorem ScoresWritten.rowsOf {now : Nat} {ws : List ScoreWrite} {db db' : Db}
    (h : ScoresWritten now ws db db') (hnodup : (ws.map (·.taskId)).Nodup)
    (hid : ∀ w ∈ ws, ∀ r, w.record = some r → r.taskId = w.taskId) (t : Nat) :
    (db'.wsjf? t = none ∧ db'.rowsOf t = []) ∨ db'.rowsOf t = db.rowsOf t ∨
      ∃ w ∈ ws, ∃ r id, w.record = some r ∧ w.taskId = t ∧
        db'.rowsOf t = db.rowsOf t ++ [r.row now id] := by
  induction h with
  | @nil db db' gone h =>
    have hrows := h.rowsOf t
    by_cases hgone : gone t = true
    · rw [if_pos hgone] at hrows
      exact .inl ⟨by rw [h.columns, if_pos hgone], hrows⟩
    · rw [if_neg hgone] at hrows
      exact .inr (.inl hrows)
  | @cons w ws db db₁ db' hdone hrest ih =>
    obtain ⟨hnotin, hrestNodup⟩ := List.nodup_cons.1 hnodup
    obtain hgone | hsame | ⟨w', hw', r, id, hrecord, ht, hrows⟩ :=
      ih hrestNodup fun w' hw' => hid w' (List.mem_cons_of_mem w hw')
    · exact .inl hgone
    · obtain hfirst | ⟨r, id, hrecord, ht, hfirst⟩ := hdone.rowsOf (hid w List.mem_cons_self) t
      · exact .inr (.inl (hsame.trans hfirst))
      · exact .inr (.inr ⟨w, List.mem_cons_self, r, id, hrecord, ht, hsame.trans hfirst⟩)
    · -- the task is written by the rest, so not by the first write
      obtain hfirst | ⟨-, -, -, hother, -⟩ := hdone.rowsOf (hid w List.mem_cons_self) t
      · rw [hfirst] at hrows
        exact .inr (.inr ⟨w', List.mem_cons_of_mem w hw', r, id, hrecord, ht, hrows⟩)
      · refine absurd (List.mem_map.2 ⟨w', hw', ?_⟩) hnotin
        exact ht.trans hother.symm

/-- Every row was there before or is that of a write. -/
theorem ScoresWritten.mem_history {now : Nat} {ws : List ScoreWrite} {db db' : Db}
    (h : ScoresWritten now ws db db') {row : WsjfHistoryRow} (hrow : row ∈ db'.wsjfHistory.rows) :
    row ∈ db.wsjfHistory.rows ∨ ∃ w ∈ ws, ∃ r id, w.record = some r ∧ row = r.row now id := by
  induction h with
  | nil gone h =>
    rw [h.history] at hrow
    exact .inl (Table.mem_filter.1 hrow).1
  | @cons w ws db db₁ db' hdone hrest ih =>
    obtain hrow | ⟨w', hw', hwritten⟩ := ih hrow
    · have hhistory := hdone.history
      unfold ScoreWrite.history at hhistory
      rw [hhistory] at hrow
      cases hrecord : w.record with
      | none =>
        rw [hrecord] at hrow
        exact .inl hrow
      | some r =>
        rw [hrecord] at hrow
        obtain hrow | hrow := Table.mem_insert.1 hrow
        · exact .inl hrow
        · exact .inr ⟨w, List.mem_cons_self, r, _, hrecord, hrow⟩
    · exact .inr ⟨w', List.mem_cons_of_mem w hw', hwritten⟩

/-- A property of the columns of every task that the writes have is kept. -/
theorem ScoresWritten.columns {now : Nat} {ws : List ScoreWrite} {db db' : Db}
    {Q : WsjfColumns → Prop} (h : ScoresWritten now ws db db')
    (hws : ∀ w ∈ ws, Q w.columns) (hQ : ∀ t c, db.wsjf? t = some c → Q c) :
    ∀ t c, db'.wsjf? t = some c → Q c := by
  induction h with
  | nil gone h =>
    intro t c hc
    rw [h.columns] at hc
    split at hc
    · cases hc
    · exact hQ t c hc
  | @cons w ws db db₁ db' hdone hrest ih =>
    refine ih (fun w' hw' => hws w' (List.mem_cons_of_mem w hw')) ?_
    intro t c hc
    rw [hdone.columns] at hc
    split at hc
    · obtain rfl := Option.some.inj hc
      exact hws w List.mem_cons_self
    · exact hQ t c hc

/-! ## Creating and updating -/

/-- Two databases that agree on the tasks and the history of their scores. -/
structure Db.SameScores (db db' : Db) : Prop where
  tasks : db'.tasks = db.tasks
  wsjfHistory : db'.wsjfHistory = db.wsjfHistory

theorem Db.SameScores.refl (db : Db) : db.SameScores db := ⟨rfl, rfl⟩

theorem Db.SameScores.trans {a b c : Db} (h : a.SameScores b) (h' : b.SameScores c) :
    a.SameScores c :=
  ⟨h'.tasks.trans h.tasks, h'.wsjfHistory.trans h.wsjfHistory⟩

theorem Db.SameScores.wsjf? {db db' : Db} (h : db.SameScores db') (t : Nat) :
    db'.wsjf? t = db.wsjf? t := by
  rw [Db.wsjf?, h.tasks, Db.wsjf?]

theorem ScoreWrite.Done.before {w : ScoreWrite} {now : Nat} {db db₁ db' : Db}
    (hsame : db.SameScores db₁) (h : w.Done now db₁ db') : w.Done now db db' where
  columns t := by rw [h.columns, hsame.wsjf?]
  history := by rw [h.history, hsame.wsjfHistory]
  next := hsame.tasks ▸ h.next

/-- What comes before the writes and changes no score. -/
theorem ScoresWritten.before {now : Nat} {ws : List ScoreWrite} {db db₁ db' : Db}
    (hsame : db.SameScores db₁) (h : ScoresWritten now ws db₁ db') : ScoresWritten now ws db db' := by
  cases h with
  | nil gone h =>
    refine .nil gone ⟨?_, ?_, ?_⟩
    · intro t
      rw [h.columns, hsame.wsjf?]
    · rw [h.history, hsame.wsjfHistory]
    · exact hsame.tasks ▸ h.next
  | cons h hrest => exact .cons (h.before hsame) hrest

/-- What comes after the writes and changes no score. -/
theorem ScoresWritten.after {now : Nat} {ws : List ScoreWrite} {db db₁ db' : Db}
    (h : ScoresWritten now ws db db₁) (hsame : db₁.SameScores db') : ScoresWritten now ws db db' := by
  induction h with
  | nil gone h =>
    refine .nil gone ⟨?_, ?_, ?_⟩
    · intro t
      rw [hsame.wsjf?, h.columns]
    · rw [hsame.wsjfHistory, h.history]
    · exact hsame.tasks ▸ h.next
  | cons h _ ih => exact .cons h (ih hsame)

theorem addBlockers_scores (id : Nat) (blockerIds : List Nat) : Spec (addBlockers id blockerIds)
    (fun v _ db => v.db.SameScores db) fun _ _ => True := by
  have hbody : ∀ (skip : List Nat) (blockerId : Nat),
      Spec (if blockerId ∈ skip then pure ()
        else DependencyService.addDependency blockerId id >>= fun _ => pure ())
        (fun v _ db => v.db.SameScores db) fun _ _ => True := by
    intro skip blockerId
    split
    · exact (Spec.pure ()).post fun _ _ _ h => h.2 ▸ .refl _
    · refine ((DependencyService.addDependency_spec blockerId id).bind fun _ =>
        Spec.pure (E := Unchanged) ()).conseq ?_ fun _ _ _ => trivial
      intro v _ db h
      obtain ⟨_, _, ⟨rfl, -⟩, -, rfl⟩ := h
      exact ⟨rfl, rfl⟩
  refine (Spec.bind (Spec.query fun db => db.blockers id) fun blockers =>
    Spec.forEach Db.SameScores.refl Db.SameScores.trans _
      (hbody (blockers.map (·.taskId)))).conseq ?_ fun _ _ _ => trivial
  intro v _ db h
  obtain ⟨_, _, ⟨-, rfl⟩, h⟩ := h
  exact h

/-- The trigger that a create with a score is recorded under. -/
def WsjfWriteDTO.createTrigger (w : WsjfWriteDTO) : WsjfHistoryTrigger :=
  if w.manual then .manual else w.trigger.getD .create

/-- The trigger that an update with a score is recorded under. -/
def WsjfWriteDTO.updateTrigger (w : WsjfWriteDTO) : WsjfHistoryTrigger :=
  if w.manual then .manual else .update

/-- The write of a create with a score. -/
def createdScore (db : Db) (input : CreateTaskInput) (w : WsjfWriteDTO) : ScoreWrite where
  taskId := db.tasks.next
  columns := w.columns
  record := some (w.record db.tasks.next input.projectId w.createTrigger none)

/-- The write of a create without a score. -/
def createdUnscored (db : Db) : ScoreWrite where
  taskId := db.tasks.next
  columns := {}
  record := none

theorem createScored_writes (input : CreateTaskInput) (w : WsjfWriteDTO) (hw : input.wsjf = some w) :
    Spec (createScored input w) (fun v _ db => (createdScore v.db input w).Done v.now v.db db)
      Unchanged := by
  have hrow : Spec (createRow input) (fun v t db => (t.id = v.db.tasks.next ∧
      t.projectId = input.projectId) ∧ db = v.db.insertTask (CreateTaskInput.dto input) input.tags v.now)
      Unchanged := by
    refine (TaskRepository.create_spec _ _).post ?_
    intro v t db h
    obtain ⟨-, rfl, rfl⟩ := h
    exact ⟨⟨rfl, rfl⟩, rfl⟩
  refine Spec.transaction ((hrow.bind fun created => (Spec.statement _ _ _).bind fun _ =>
    Spec.pure (E := Unchanged) created).post ?_)
  intro v t db h
  obtain ⟨created, _, ⟨⟨hid, hproject⟩, rfl⟩, _, _, ⟨-, -, rfl⟩, -, rfl⟩ := h
  constructor
  · intro t
    rw [Db.wsjf?_appendHistory, Db.wsjf?_insertTask]
    by_cases ht : t = v.db.tasks.next
    · simp [CreateTaskDTO.newWsjf, CreateTaskInput.dto, hw, createdScore, ht]
    · simp [createdScore, ht]
  · rw [hid, hproject]
    rfl
  · exact Nat.le_succ _

theorem createRow_writes (input : CreateTaskInput) (hw : input.wsjf = none) :
    Spec (createRow input) (fun v t db => t.id = v.db.tasks.next ∧
      (createdUnscored v.db).Done v.now v.db db) Unchanged := by
  refine (TaskRepository.create_spec _ _).post ?_
  intro v t db h
  obtain ⟨-, rfl, rfl⟩ := h
  refine ⟨rfl, ⟨?_, rfl, Nat.le_succ _⟩⟩
  intro t
  rw [Db.wsjf?_insertTask]
  by_cases ht : t = v.db.tasks.next
  · simp [CreateTaskDTO.newWsjf, CreateTaskInput.dto, hw, createdUnscored, ht]
  · simp [createdUnscored, ht]

/-- The writes of an update: of the score it brings, or of its explicit `null`. -/
def updatedScore (existing : Task) (id projectId : Nat) (wsjf : Option (Option WsjfWriteDTO)) :
    List ScoreWrite :=
  match wsjf with
  | none => []
  | some none => [{ taskId := id, columns := {}, record := none }]
  | some (some w) =>
    [{ taskId := id
       columns := w.columns
       record := some (w.record id projectId w.updateTrigger existing.wsjf.currentScore) }]

/-- What an update of the row leaves of the scores, without the history. -/
theorem scoresWritten_applyUpdate {db : Db} {id now : Nat} {row : Task} {updates : UpdateTaskDTO}
    {current : Option TaskStatus} (hrow : db.tasks.find? id = some row) (t : Nat) :
    (db.applyUpdate id updates current now).wsjf? t =
      if t = id then some (updates.newWsjf row.wsjf) else db.wsjf? t := by
  rw [Db.wsjf?_applyUpdate]
  split
  · rename_i h
    rw [h, Db.wsjf?_of_find? hrow]
    rfl
  · rfl

theorem performWrite_writes (existing : Task) (id : Nat) (input : UpdateTaskInput) :
    Spec (performWrite existing id input) (fun v _ db => ∃ row, v.db.tasks.find? id = some row ∧
      ScoresWritten v.now (updatedScore existing id row.projectId input.wsjf) v.db db ∧
      db.wsjf? id = some (input.newWsjf row.wsjf))
      Unchanged := by
  have hupdate : Spec (TaskRepository.update id (updatesForRepo existing input))
      (fun v t db => ∃ row, v.db.tasks.find? id = some row ∧ t.id = id ∧
        t.projectId = row.projectId ∧ db = v.db.applyUpdate id (updatesForRepo existing input)
          (input.status.map fun _ => row.status) v.now) Unchanged := by
    refine (TaskRepository.update_spec id _).post ?_
    intro v t db h
    obtain ⟨row, hrow, -, rfl, rfl⟩ := h
    exact ⟨row, hrow, (Table.find?_eq_some.1 hrow).2, rfl, rfl⟩
  have hnew : ∀ w : WsjfColumns, (updatesForRepo existing input).newWsjf w =
      input.toUpdateTaskDTO.newWsjf w := fun _ => rfl
  have hself : ∀ {v : View} {row : Task}, v.db.tasks.find? id = some row →
      (v.db.applyUpdate id (updatesForRepo existing input) (input.status.map fun _ => row.status)
        v.now).wsjf? id = some (input.toUpdateTaskDTO.newWsjf row.wsjf) := by
    intro v row hrow
    rw [scoresWritten_applyUpdate hrow, if_pos rfl, hnew]
  rw [performWrite]
  cases hwsjf : input.wsjf with
  | none =>
    refine hupdate.post ?_
    intro v t db h
    obtain ⟨row, hrow, -, -, rfl⟩ := h
    refine ⟨row, hrow, .unchanged ?_ Db.wsjfHistory_applyUpdate ?_, hself hrow⟩
    · intro t
      rw [scoresWritten_applyUpdate hrow, hnew]
      split
      · rename_i ht
        simp [UpdateTaskDTO.newWsjf, hwsjf, ht, Db.wsjf?_of_find? hrow]
      · rfl
    · rw [Db.applyUpdate, Db.writeTask_next]
  | some value =>
    cases value with
    | none =>
      refine hupdate.post ?_
      intro v t db h
      obtain ⟨row, hrow, -, -, rfl⟩ := h
      refine ⟨row, hrow, .one ⟨?_, Db.wsjfHistory_applyUpdate, ?_⟩, hself hrow⟩
      · intro t
        rw [scoresWritten_applyUpdate hrow, hnew]
        simp [UpdateTaskDTO.newWsjf, hwsjf]
      · rw [Db.applyUpdate, Db.writeTask_next]
    | some w =>
      refine Spec.transaction ((hupdate.bind fun updated => (Spec.statement _ _ _).bind fun _ =>
        Spec.pure (E := Unchanged) updated).post ?_)
      intro v t db h
      obtain ⟨updated, _, ⟨row, hrow, hid, hproject, rfl⟩, _, _, ⟨-, -, rfl⟩, -, rfl⟩ := h
      refine ⟨row, hrow, .one ⟨?_, ?_, ?_⟩, hself hrow⟩
      · intro t
        rw [Db.wsjf?_appendHistory, scoresWritten_applyUpdate hrow, hnew]
        simp [UpdateTaskDTO.newWsjf, hwsjf]
      · rw [hid, hproject, Db.appendHistory]
        simp only [Db.wsjfHistory_applyUpdate]
        rfl
      · rw [Db.appendHistory, Db.applyUpdate, Db.writeTask_next]

theorem writeUpdate_writes (existing : Task) (id : Nat) (input : UpdateTaskInput) :
    Spec (writeUpdate existing id input) (fun v _ db => ∃ row, v.db.tasks.find? id = some row ∧
      ScoresWritten v.now (updatedScore existing id row.projectId input.wsjf) v.db db ∧
      db.wsjf? id = some (input.newWsjf row.wsjf))
      Unchanged := by
  rw [writeUpdate]
  cases input.blockedBy with
  | none => exact performWrite_writes existing id input
  | some blockerIds =>
    refine Spec.transaction (((addBlockers_scores id blockerIds).bind fun _ =>
      performWrite_writes existing id input).post ?_)
    intro v t db h
    obtain ⟨_, db₁, hsame, row, hrow, h, hcolumns⟩ := h
    exact ⟨row, hsame.tasks ▸ hrow, h.before hsame, hcolumns⟩

/-! ## Sizing -/

/-- The write of a size alone. -/
def sizedScore (existing row : Task) (jobSize : Fib) (trigger : WsjfHistoryTrigger) : ScoreWrite where
  taskId := row.id
  columns := row.wsjf.sized jobSize autoSource
  record := some (autoSizeRecord row jobSize existing.wsjf.currentScore trigger)

theorem autoSizeWrite_writes (taskId : Nat) (existing : Task) (jobSize : Fib)
    (trigger : WsjfHistoryTrigger) : Spec (autoSizeWrite taskId existing jobSize trigger)
    (fun v _ db => ∃ row, v.db.tasks.find? taskId = some row ∧
      (sizedScore existing row jobSize trigger).Done v.now v.db db) Unchanged := by
  refine Spec.transaction (((TaskRepository.writeAutoJobSize_spec taskId jobSize autoSource).bind
    fun updated => (Spec.statement _ _ _).bind fun _ =>
      Spec.pure (E := Unchanged) updated).post ?_)
  intro v t db h
  obtain ⟨updated, _, ⟨row, hrow, rfl, rfl⟩, _, _, ⟨-, -, rfl⟩, -, rfl⟩ := h
  have hrowId : row.id = taskId := (Table.find?_eq_some.1 hrow).2
  refine ⟨row, hrow, ?_, ?_, ?_⟩
  · intro t
    rw [Db.wsjf?_appendHistory, Db.wsjf?_autoJobSize]
    simp only [sizedScore, hrowId]
    split
    · rename_i ht
      rw [ht, Db.wsjf?_of_find? hrow]
      rfl
    · rfl
  · rw [Db.appendHistory]
    simp only [Db.writeTask_wsjfHistory]
    rfl
  · rw [Db.appendHistory, Db.writeTask_next]

/-- The same with the read of the row right before it. -/
theorem autoSizeTask_writes (taskId : Nat) (jobSize : Fib) (trigger : WsjfHistoryTrigger) :
    Spec (autoSizeTask taskId jobSize trigger)
    (fun v _ db => ∃ row, v.db.tasks.find? taskId = some row ∧
      (sizedScore row.inflate row jobSize trigger).Done v.now v.db db) Unchanged := by
  refine (Spec.bindUnchanged (requireTask_spec taskId) fun existing =>
    autoSizeWrite_writes taskId existing jobSize trigger).post ?_
  intro v t db h
  obtain ⟨existing, ⟨row, hrow, rfl⟩, row', hrow', h⟩ := h
  obtain rfl := Option.some.inj (hrow.symm.trans hrow')
  exact ⟨row, hrow, h⟩

/-- The sweep sizes a row, or passes it over and leaves everything as it is. -/
theorem backfillRow_writes (candidate : SizeCandidate) : Leaves (backfillRow candidate)
    fun v _ db => db = v.db ∨ ∃ row, v.db.tasks.find? candidate.id = some row ∧
      (sizedScore row.inflate row (minutesToTier candidate.estimatedMinutes) .bootSweep).Done
        v.now v.db db := by
  have hsize := ((autoSizeTask_writes candidate.id (minutesToTier candidate.estimatedMinutes)
    .bootSweep).leaves).bindPublishes (fun _ => publishes_pure true)
  constructor
  · intro w a w' hw hr
    rw [backfillRow, Prog.run_tryCatch] at hr
    split at hr
    · rename_i hbody
      cases hr
      obtain ⟨_, h, -⟩ := hsize.ok hw hbody
      exact .inr h
    · rename_i hbody
      cases hr
      exact .inl (hsize.error hw hbody)
  · intro w e w' hw hr
    rw [backfillRow, Prog.run_tryCatch] at hr
    split at hr
    · cases hr
    · cases hr

/-! ## Rescoring -/

/-- The submissions that change a row, as they are assessed on a database. -/
def changedRows (env : Env) (db : Db) (projectId : Nat) (submissions : List RescoreSubmission) :
    List Pending :=
  (assessed (submissions.map fun s => assess env projectId (db.charter? projectId) s
    ((db.tasks.find? s.taskId).map Task.inflate))).filter (·.changed)

/-- The write of a changed row. -/
def rescoredScore (projectId : Nat) (actor : RescoreActor) (charterVersion : Option ℚ) (runId : Nat)
    (p : Pending) : ScoreWrite where
  taskId := p.task.id
  columns := p.write.columns
  record := some (p.record projectId actor charterVersion runId)

/-- A changed row comes from a submission. -/
theorem mem_changedRows {env : Env} {db : Db} {projectId : Nat} {submissions : List RescoreSubmission}
    {p : Pending} (h : p ∈ changedRows env db projectId submissions) :
    ∃ s ∈ submissions, assess env projectId (db.charter? projectId) s
      ((db.tasks.find? s.taskId).map Task.inflate) = .ok p := by
  obtain ⟨s, hs, hassess⟩ := List.mem_map.1 (mem_assessed.1 (List.mem_of_mem_filter h))
  exact ⟨s, hs, hassess⟩

/-- The changed rows are those of the submissions, in their order. -/
theorem changedRows_sublist (env : Env) (db : Db) (projectId : Nat)
    (submissions : List RescoreSubmission) :
    ((changedRows env db projectId submissions).map (·.task.id)).Sublist
      (submissions.map (·.taskId)) := by
  have hall : ((assessed (submissions.map fun s => assess env projectId (db.charter? projectId) s
      ((db.tasks.find? s.taskId).map Task.inflate))).map (·.task.id)).Sublist
      (submissions.map (·.taskId)) := by
    induction submissions with
    | nil => exact .slnil
    | cons s rest ih =>
      rw [List.map_cons, assessed, List.filterMap_cons]
      cases hassess : assess env projectId (db.charter? projectId) s
          ((db.tasks.find? s.taskId).map Task.inflate) with
      | error e => exact ih.cons _
      | ok p =>
        obtain ⟨-, htask, -⟩ := assess_ok hassess
        obtain ⟨row, hrow, htask⟩ := Option.map_eq_some_iff.1 htask
        have hid : p.task.id = s.taskId := by
          rw [← htask]
          exact (Table.find?_eq_some.1 hrow).2
        simp only [List.map_cons, hid]
        exact ih.cons_cons _
  exact (List.filter_sublist.map _).trans hall

namespace WsjfRescoreService

theorem requireProject_spec (projectId : Nat) : Spec (requireProject projectId)
    (fun v project db => v.db.projects.find? projectId = some project ∧ db = v.db) Unchanged :=
  Spec.queryOr (fun _ => rfl) rfl

theorem evaluate_spec (projectId : Nat) (charter : Option ValueCharter)
    (submissions : List RescoreSubmission) : Spec (evaluate projectId charter submissions)
    (fun v outcomes db => outcomes = submissions.map (fun s => assess v.env projectId charter s
      ((v.db.tasks.find? s.taskId).map Task.inflate)) ∧ db = v.db) Unchanged := by
  induction submissions with
  | nil => exact Spec.pure []
  | cons s rest ih =>
    refine (Spec.bindUnchanged (TaskRepository.findById_spec s.taskId) fun task =>
      Spec.bindUnchanged (Spec.gets _ View.env fun _ => rfl) fun env =>
        Spec.bindUnchanged ih fun outcomes => Spec.pure _).post ?_
    intro v outcomes db h
    obtain ⟨_, rfl, _, rfl, _, rfl, rfl, hdb⟩ := h
    exact ⟨rfl, hdb⟩

theorem writeOne_writes (projectId : Nat) (actor : RescoreActor) (charterVersion : Option ℚ)
    (runId : Nat) (p : Pending) : Spec (writeOne projectId actor charterVersion runId p)
    (fun v _ db => (rescoredScore projectId actor charterVersion runId p).Done v.now v.db db)
    fun _ _ => True := by
  refine ((TaskRepository.update_spec p.task.id _).bind fun _ =>
    Spec.statement _ _ _).conseq ?_ fun _ _ _ => trivial
  intro v _ db h
  obtain ⟨_, _, ⟨row, hrow, -, -, rfl⟩, -, -, rfl⟩ := h
  refine ⟨?_, ?_, ?_⟩
  · intro t
    rw [Db.wsjf?_appendHistory, scoresWritten_applyUpdate hrow]
    rfl
  · rw [Db.appendHistory]
    simp only [Db.wsjfHistory_applyUpdate]
    rfl
  · rw [Db.appendHistory, Db.applyUpdate, Db.writeTask_next]

/-- The loop over the changed rows makes their writes. -/
theorem writeAll_writes (projectId : Nat) (actor : RescoreActor) (charterVersion : Option ℚ)
    (runId : Nat) (changed : List Pending) :
    Spec (Prog.forEach changed (writeOne projectId actor charterVersion runId))
    (fun v _ db => ScoresWritten v.now
      (changed.map (rescoredScore projectId actor charterVersion runId)) v.db db)
    fun _ _ => True := by
  induction changed with
  | nil => exact (Spec.pure ()).post fun _ _ _ h => h.2 ▸ .unchanged (fun _ => rfl) rfl le_rfl
  | cons p rest ih =>
    refine ((writeOne_writes projectId actor charterVersion runId p).bind fun _ => ih).conseq ?_
      fun _ _ _ => trivial
    intro v _ db h
    obtain ⟨_, _, hfirst, hrest⟩ := h
    exact .cons hfirst hrest

theorem writeRun_writes (projectId : Nat) (actor : RescoreActor) (charterVersion : Option ℚ)
    (pending : List Pending) : Spec (writeRun projectId actor charterVersion pending)
    (fun v _ db => ∃ runId, ScoresWritten v.now
      ((pending.filter (·.changed)).map (rescoredScore projectId actor charterVersion runId))
      v.db db) Unchanged := by
  refine Spec.transaction (E := fun _ _ => True) (((Spec.statement _ _ _).bind fun runId =>
    (writeAll_writes projectId actor charterVersion runId _).bind fun _ =>
      (Spec.statement _ _ _).bind fun _ => Spec.pure (E := Unchanged) runId).conseq ?_
        fun _ _ _ => trivial)
  intro v _ db h
  obtain ⟨runId, _, ⟨-, -, rfl⟩, _, _, hwrites, _, _, ⟨-, -, rfl⟩, -, rfl⟩ := h
  refine ⟨runId, ScoresWritten.after (ScoresWritten.before ?_ hwrites) ?_⟩
  · exact ⟨rfl, rfl⟩
  · exact ⟨rfl, rfl⟩

theorem rescore_writes (projectId : Nat) (submissions : List RescoreSubmission)
    (actor : RescoreActor) : Spec (rescore projectId submissions actor)
    (fun v _ db => ∃ version runId, ScoresWritten v.now
      ((changedRows v.env v.db projectId submissions).map
        (rescoredScore projectId actor version runId)) v.db db) Unchanged := by
  have hwrite : ∀ (charter : Option ValueCharter) (outcomes : List (Except RescoreError Pending))
      (summary : Nat → RescoreRunSummary),
      Spec (writeRun projectId actor (charterVersion charter) (assessed outcomes) >>= fun runId =>
        pure (summary runId)) (fun v _ db => ∃ version runId, ScoresWritten v.now
        (((assessed outcomes).filter (·.changed)).map (rescoredScore projectId actor version runId))
        v.db db) Unchanged := by
    intro charter outcomes summary
    refine ((writeRun_writes projectId actor (charterVersion charter) (assessed outcomes)).bind
      fun runId => Spec.pure (E := fun _ _ => False) (summary runId)).conseq ?_ ?_
    · intro v _ db h
      obtain ⟨_, _, ⟨runId, hwrites⟩, -, rfl⟩ := h
      exact ⟨_, runId, hwrites⟩
    · intro v db h
      obtain h | ⟨_, _, -, h⟩ := h
      · exact h
      · exact h.elim
  refine (Spec.bindUnchanged (requireProject_spec projectId) fun project =>
    Spec.bindUnchanged (evaluate_spec projectId project.valueCharter submissions) fun outcomes =>
      hwrite project.valueCharter outcomes _).post ?_
  intro v _ db h
  obtain ⟨project, hfound, _, rfl, hwrites⟩ := h
  have hcharter : v.db.charter? projectId = project.valueCharter := by
    rw [Db.charter?, hfound]
    rfl
  rw [← hcharter] at hwrites
  exact hwrites

end WsjfRescoreService

end WoodFiredTasks
