import WoodFiredTasks.ProjectProcesses
import WoodFiredTasks.ScoreWrites
import WoodFiredTasks.TaskChanges

set_option autoImplicit false

/-! # Calls that write scores

One process at a time runs the calls that scores come from: the task calls, the project calls (they
set the charters), the rescore of a project and the boot sweep. Each call is run segment by segment,
so that a call may be abandoned between two of its writes; a rescore is one segment, because it
writes in one transaction and nobody else writes after its reads.

What a segment writes and what its reads establish is stated once (`ScoringPoint.Effect`). -/

namespace WoodFiredTasks

open TaskService

inductive ScoringCall where
  | task (call : Call)
  | project (call : ProjectCall)
  | rescore (projectId : Nat) (submissions : List RescoreSubmission) (actor : RescoreActor)
  | backfillJobSizes
  deriving DecidableEq

/-- Where the process stands in a call. -/
inductive ScoringPoint where
  | task (point : Point)
  | project (point : ProjectPoint)
  | rescore (projectId : Nat) (submissions : List RescoreSubmission) (actor : RescoreActor)
  | findCandidates
  | backfill (rest : List SizeCandidate)
  deriving DecidableEq

namespace ScoringPoint

/-- The first point of a call. -/
def start : ScoringCall → ScoringPoint
  | .task call => .task (.start call)
  | .project call => .project (.start call)
  | .rescore projectId submissions actor => .rescore projectId submissions actor
  | .backfillJobSizes => .findCandidates

/-- The program up to the next point, or to the end of the call. -/
def segment : ScoringPoint → M (Option ScoringPoint)
  | .task point => point.segment >>= fun next => pure (next.map .task)
  | .project point => point.segment >>= fun next => pure (next.map .project)
  | .rescore projectId submissions actor =>
    WsjfRescoreService.rescore projectId submissions actor >>= fun _ => pure none
  | .findCandidates =>
    query (fun db => db.sizeCandidates) >>= fun candidates => pure (some (.backfill candidates))
  | .backfill [] => pure none
  | .backfill (candidate :: rest) =>
    backfillRow candidate >>= fun _ => pure (some (.backfill rest))

end ScoringPoint

/-- The calls that write scores, and the calls around them. -/
def scoringCalls : Repertoire ScoringCall ScoringPoint where
  start := .start
  segment := ScoringPoint.segment

/-- A sequence of calls on one database. -/
abbrev ScoringSys := Shared Unit ScoringPoint

abbrev ScoringAction := Shared.Action Unit ScoringCall

abbrev ScoringSys.step (s : ScoringSys) (a : ScoringAction) : ScoringSys :=
  Shared.step scoringCalls s a

/-- The database before the first call. -/
def ScoringSys.initial (users : List Nat) (now : Nat) : ScoringSys :=
  .quiet { Db.empty with users := users } now

/-! ## What the segments write -/

/-- The segment from a point may make the write. -/
inductive ScoringPoint.Writes (env : Env) (db : Db) : ScoringPoint → ScoreWrite → Prop where
  | created {input w} (hw : input.wsjf = some w) :
      Writes env db (.task (.insertTask input)) (createdScore db input w)
  | unscored {input} (hw : input.wsjf = none) :
      Writes env db (.task (.insertTask input)) (createdUnscored db)
  | updated {existing id input source row w} (hrow : db.tasks.find? id = some row)
      (hw : w ∈ updatedScore existing id row.projectId input.wsjf) :
      Writes env db (.task (.updateWrite existing id input source)) w
  | sized {sizing taskId existing jobSize row} (hrow : db.tasks.find? taskId = some row) :
      Writes env db (.task (.sizeWrite sizing taskId existing jobSize))
        (sizedScore existing row jobSize .autoSize)
  | rescored {projectId submissions actor version runId p}
      (hp : p ∈ changedRows env db projectId submissions) :
      Writes env db (.rescore projectId submissions actor)
        (rescoredScore projectId actor version runId p)
  | swept {candidate rest row} (hrow : db.tasks.find? candidate.id = some row) :
      Writes env db (.backfill (candidate :: rest))
        (sizedScore row.inflate row (minutesToTier candidate.estimatedMinutes) .bootSweep)

/-- No task is named twice in a batch. -/
def ScoringPoint.Distinct : ScoringPoint → Prop
  | .rescore _ submissions _ => (submissions.map (·.taskId)).Nodup
  | _ => True

/-- The writes of the segment from a point: each one is among those it may make, and a task is
    written once. -/
def ScoringPoint.Scores (env : Env) (now : Nat) (db db' : Db) (point : ScoringPoint) : Prop :=
  ∃ ws, ScoresWritten now ws db db' ∧ (∀ w ∈ ws, point.Writes env db w) ∧
    (point.Distinct → (ws.map (·.taskId)).Nodup)

section Scores

variable {env : Env} {now : Nat} {db db' : Db} {point : ScoringPoint}

theorem ScoringPoint.Scores.nil (h : ScoresWritten now [] db db') : point.Scores env now db db' :=
  ⟨[], h, by simp, fun _ => List.nodup_nil⟩

theorem ScoringPoint.Scores.one {w : ScoreWrite} (h : w.Done now db db')
    (hw : point.Writes env db w) : point.Scores env now db db' :=
  ⟨[w], .one h, by simpa using hw, fun _ => by simp⟩

/-- A write that touches no score column. -/
theorem ScoringPoint.Scores.writeTask {id : Nat} {f : Task → Task} {hf : ∀ t, (f t).id = t.id}
    (hwsjf : ∀ r, (f r).wsjf = r.wsjf) : point.Scores env now db (db.writeTask id f hf) :=
  .nil (.unchanged (fun _ => Db.wsjf?_writeTask_of_eq hwsjf) Db.writeTask_wsjfHistory
    Db.writeTask_next.ge)

theorem Db.wsjf?_cascade (n : Nat) (id : Nat) (parentTaskId : Option Nat) (t : Nat) :
    (cascade env now n db id parentTaskId).wsjf? t = db.wsjf? t :=
  map_find?_cascade Task.wsjf (fun _ _ => rfl) ..

theorem Db.wsjfHistory_cascade (n : Nat) (id : Nat) (parentTaskId : Option Nat) :
    (cascade env now n db id parentTaskId).wsjfHistory = db.wsjfHistory := by
  refine cascade_induction (I := fun db' => db'.wsjfHistory = db.wsjfHistory)
    (fun db' i row s h _ _ => ?_) rfl
  rw [← h, Db.setStatus, Db.writeTask_wsjfHistory]

theorem Db.scoresWritten_deleteTask {id : Nat} : ScoresWritten now [] db (db.deleteTask id) := by
  refine .nil (fun t => decide (t ∈ db.subtreeOf db.tasks.rows.length [id])) ⟨?_, rfl, le_rfl⟩
  intro t
  rw [Db.wsjf?, Db.deleteTask, Table.find?_filter, Db.wsjf?]
  cases h : db.tasks.find? t with
  | none => simp
  | some row =>
    have hid : row.id = t := (Table.find?_eq_some.1 h).2
    by_cases hgone : t ∈ db.subtreeOf db.tasks.rows.length [id]
    · simp [hid, hgone]
    · simp [hid, hgone]

end Scores

/-- The score writes of the segments of the task calls. -/
theorem scores_task (point : Point) : Leaves point.segment fun v _ db =>
    (ScoringPoint.task point).Scores v.env v.now v.db db := by
  have hsame : ∀ {v : View} {db : Db}, db = v.db →
      (ScoringPoint.task point).Scores v.env v.now v.db db := by
    intro v db h
    subst h
    exact .nil (.unchanged (fun _ => rfl) rfl le_rfl)
  cases point with
  | updateWrite existing id input source =>
    refine (writeUpdate_writes existing id input).leavesThen.post ?_
    intro v next db h
    obtain ⟨_, ⟨row, hrow, hwrites, -⟩, -⟩ := h
    refine ⟨_, hwrites, fun w hw => .updated hrow hw, fun _ => ?_⟩
    unfold updatedScore
    split <;> simp
  | sizeWrite sizing taskId existing jobSize =>
    have hwrite := autoSizeWrite_writes taskId existing jobSize .autoSize
    cases sizing with
    | created =>
      refine (hwrite.leaves.bindPublishes fun sized =>
        (publishes_announceTask (by simp) sized).bind (publishes_pure none)).post ?_
      intro v next db h
      obtain ⟨_, ⟨row, hrow, hdone⟩, -⟩ := h
      exact .one hdone (.sized hrow)
    | updated before input source =>
      refine hwrite.leavesThen.post ?_
      intro v next db h
      obtain ⟨_, ⟨row, hrow, hdone⟩, -⟩ := h
      exact .one hdone (.sized hrow)
  | insertTask input =>
    rw [Point.segment]
    cases hw : input.wsjf with
    | none =>
      refine (createRow_writes input hw).leavesThen.post ?_
      intro v next db h
      obtain ⟨_, ⟨-, hdone⟩, -⟩ := h
      exact .one hdone (.unscored hw)
    | some w =>
      refine ((createScored_writes input w hw).leaves.bindPublishes fun task =>
        (publishes_announceTask (by simp) task).bind (publishes_pure none)).post ?_
      intro v next db h
      obtain ⟨_, hdone, -⟩ := h
      exact .one hdone (.created hw)
  | start call =>
    refine (leaves_segment _).post ?_
    intro v next db h
    cases call with
    | removeDependency taskId blocksTaskId =>
      rw [h.1]
      exact .nil (.unchanged (fun _ => rfl) rfl le_rfl)
    | claimTask => exact hsame h.1
    | updateTask => exact hsame h.1
    | sweep => exact hsame h.1
    | addDependency => exact hsame h.1
    | createTask => exact hsame h.1
    | deleteTask => exact hsame h.1
  | claimUpdate path taskId assignee user source =>
    refine (leaves_segment _).post ?_
    intro v next db h
    cases path with
    | fresh =>
      obtain ⟨-, row, -, -, -, rfl⟩ := h
      exact .writeTask fun _ => rfl
    | renewal =>
      obtain ⟨-, row, -, -, -, rfl⟩ := h
      exact .writeTask fun _ => rfl
  | announce existing updated input source =>
    refine (leaves_segment _).post ?_
    intro v next db h
    obtain ⟨-, rfl | ⟨-, -, rfl⟩⟩ := h
    · exact .nil (.unchanged (fun _ => rfl) rfl le_rfl)
    · exact .nil (.unchanged (Db.wsjf?_cascade _ _ _) (Db.wsjfHistory_cascade _ _ _)
        (Db.next_cascade ..).ge)
  | release timeoutMinutes claim rest =>
    refine (leaves_segment _).post ?_
    intro v next db h
    obtain ⟨hdb, -⟩ | ⟨-, row, -, -, -, rfl⟩ := h
    · exact hsame hdb
    · exact .writeTask fun _ => rfl
  | deleteRow id =>
    refine (leaves_segment _).post ?_
    intro v next db h
    rw [h.1]
    exact .nil Db.scoresWritten_deleteTask
  | insertEdge taskId blocksTaskId existing =>
    refine (leaves_segment _).post ?_
    intro v next db h
    obtain ⟨-, -, rfl⟩ := h
    exact .nil (.unchanged (fun _ => rfl) rfl le_rfl)
  | renewReload => exact (leaves_segment _).post fun v next db h => hsame h.1
  | sizeRead => exact (leaves_segment _).post fun v next db h => hsame h.1
  | releaseReload => exact (leaves_segment _).post fun v next db h => hsame h.1
  | blockedTaskRead => exact (leaves_segment _).post fun v next db h => hsame h.1
  | cycleCheck => exact (leaves_segment _).post fun v next db h => hsame h.1

/-- What a segment of a project call changes is no task and no score. -/
theorem ProjectPoint.Effect.sameScores {point : ProjectPoint} {now : Nat} {db db' : Db}
    (h : point.Effect now db db') : db.SameScores db' := by
  cases point with
  | insertRow input =>
    rw [h]
    exact ⟨rfl, rfl⟩
  | updateWrite id existing input actor =>
    rw [h]
    unfold ProjectPoint.written
    split <;> exact ⟨rfl, rfl⟩
  | start call => exact h ▸ .refl _
  | createdReload => exact h ▸ .refl _
  | nameCheck => exact h ▸ .refl _
  | updatedReload => exact h ▸ .refl _

theorem scores_project (point : ProjectPoint) : Leaves point.segment fun v _ db =>
    (ScoringPoint.project point).Scores v.env v.now v.db db := by
  refine (ProjectPoint.leaves_segment point).post ?_
  intro v next db h
  have hsame := ProjectPoint.Effect.sameScores h
  exact .nil (.unchanged hsame.wsjf? hsame.wsjfHistory (by rw [hsame.tasks]))

/-! ## What the reads establish -/

/-- What is known of the columns of a row that is about to be sized. -/
def Sizing.Sound (db : Db) (taskId : Nat) (jobSize : Fib) : Sizing → Prop
  | .created => db.wsjf? taskId = some {}
  | .updated existing input _ =>
    db.wsjf? taskId = some (input.newWsjf existing.wsjf) ∧ needsResize existing input = true ∧
      jobSize = minutesToTier input.estimatedMinutes.join

/-- What the reads of a call have established for the point that it is at: nobody else writes, so
    it is still true there. -/
def ScoringPoint.Sound (db : Db) : ScoringPoint → Prop
  | .task (.insertTask input) => assertManualScore input.wsjf = .ok ()
  | .task (.updateWrite existing id input _) =>
    (∃ row, db.tasks.find? id = some row ∧ existing = row.inflate) ∧
      assertMinutesTierConsistency input.estimatedMinutes.join input.wsjf.join = .ok () ∧
      assertManualScore input.wsjf.join = .ok ()
  | .task (.sizeRead sizing taskId jobSize) => sizing.Sound db taskId jobSize
  | .task (.sizeWrite sizing taskId existing jobSize) => sizing.Sound db taskId jobSize ∧
    ∃ row, db.tasks.find? taskId = some row ∧ existing = row.inflate
  | .backfill rest =>
    (rest.map (·.id)).Nodup ∧ ∀ c ∈ rest, ∀ w, db.wsjf? c.id = some w → w.jobSize = none
  | _ => True

/-- The checks of an update on its score. -/
theorem checkExisting_scores {env : Env} {existing : Task} {input : UpdateTaskInput}
    {callerId : Option String} (h : checkExisting env existing input callerId = .ok ()) :
    assertMinutesTierConsistency input.estimatedMinutes.join input.wsjf.join = .ok () ∧
      assertManualScore input.wsjf.join = .ok () := by
  unfold checkExisting at h
  cases hevidence : checkEvidence env existing input callerId with
  | error e =>
    rw [hevidence] at h
    cases h
  | ok _ =>
    rw [hevidence] at h
    cases htransition : checkTransition existing input with
    | error e =>
      rw [htransition] at h
      cases h
    | ok _ =>
      rw [htransition] at h
      cases hminutes : assertMinutesTierConsistency input.estimatedMinutes.join input.wsjf.join with
      | error e =>
        rw [hminutes] at h
        cases h
      | ok _ =>
        rw [hminutes] at h
        exact ⟨rfl, h⟩

theorem readCreate_scores (input : CreateTaskInput) : Spec (readCreate input)
    (fun v _ db => assertManualScore input.wsjf = .ok () ∧ db = v.db) Unchanged := by
  have henv : Spec (Prog.gets fun w => w.env : M Env) (fun v a db => a = v.env ∧ db = v.db)
    Unchanged := Spec.gets _ View.env fun _ => rfl
  refine (Spec.bindUnchanged henv fun env => Spec.bindUnchanged (Spec.raiseError _) fun _ =>
    Spec.bindUnchanged (checkCreateReferences_spec input) fun _ =>
      Spec.bindUnchanged (Spec.raiseError _) fun _ => Spec.raiseError _).post ?_
  intro v _ db h
  obtain ⟨_, rfl, _, -, _, -, _, -, hmanual, rfl⟩ := h
  exact ⟨hmanual, rfl⟩

/-- A segment of a task call leaves the call at a point that is sound. -/
theorem sound_task (point : Point) : Leaves point.segment fun v next db =>
    (ScoringPoint.task point).Sound v.db → ∀ next', next = some next' →
      (ScoringPoint.task next').Sound db := by
  cases point with
  | start call =>
    cases call with
    | updateTask id input source callerId =>
      refine (readUpdate_spec id input callerId).leavesThen.post ?_
      intro v next db h _ next' hnext
      obtain ⟨_, ⟨⟨⟨row, hrow, rfl⟩, -, hexisting⟩, rfl⟩, rfl⟩ := h
      obtain rfl := Option.some.inj hnext
      exact ⟨⟨row, hrow, rfl⟩, checkExisting_scores hexisting⟩
    | createTask input =>
      refine (readCreate_scores input).leavesThen.post ?_
      intro v next db h _ next' hnext
      obtain ⟨_, ⟨hmanual, rfl⟩, rfl⟩ := h
      obtain rfl := Option.some.inj hnext
      exact hmanual
    | claimTask =>
      refine (leaves_segment _).post ?_
      intro v next db h _ next' hnext
      obtain ⟨-, path, rfl⟩ := h
      obtain rfl := Option.some.inj hnext
      trivial
    | sweep timeoutMinutes =>
      refine (leaves_segment _).post ?_
      intro v next db h _ next' hnext
      obtain ⟨-, claims, rfl, -⟩ := h
      cases claims with
      | nil => cases hnext
      | cons claim rest =>
        obtain rfl := Option.some.inj hnext
        trivial
    | addDependency =>
      refine (leaves_segment _).post ?_
      intro v next db h _ next' hnext
      rw [h.2] at hnext
      obtain rfl := Option.some.inj hnext
      trivial
    | removeDependency =>
      refine (leaves_segment _).post ?_
      intro v next db h _ next' hnext
      rw [h.2] at hnext
      cases hnext
    | deleteTask =>
      refine (leaves_segment _).post ?_
      intro v next db h _ next' hnext
      rw [h.2] at hnext
      obtain rfl := Option.some.inj hnext
      trivial
  | updateWrite existing id input source =>
    refine (writeUpdate_writes existing id input).leavesThen.post ?_
    intro v next db h hsound next' hnext
    obtain ⟨written, ⟨row, hrow, -, hcolumns⟩, rfl⟩ := h
    obtain ⟨⟨row', hrow', rfl⟩, -⟩ := hsound
    obtain rfl := Option.some.inj (hrow.symm.trans hrow')
    obtain rfl := Option.some.inj hnext
    unfold Point.afterWrite
    split
    · rename_i hneeds
      exact ⟨hcolumns, hneeds, rfl⟩
    · trivial
  | sizeRead sizing taskId jobSize =>
    refine (requireTask_spec taskId).leavesThen.post ?_
    intro v next db h hsound next' hnext
    obtain ⟨existing, ⟨⟨row, hrow, rfl⟩, rfl⟩, rfl⟩ := h
    obtain rfl := Option.some.inj hnext
    exact ⟨hsound, row, hrow, rfl⟩
  | sizeWrite sizing taskId existing jobSize =>
    refine (leaves_segment _).post ?_
    intro v next db h _ next' hnext
    obtain ⟨-, hend | ⟨before, sized, input, source, -, hend⟩⟩ := h
    · rw [hend] at hnext
      cases hnext
    · rw [hend] at hnext
      obtain rfl := Option.some.inj hnext
      trivial
  | insertTask input =>
    rw [Point.segment]
    cases hw : input.wsjf with
    | none =>
      refine (createRow_writes input hw).leavesThen.post ?_
      intro v next db h _ next' hnext
      obtain ⟨created, ⟨hid, hdone⟩, rfl⟩ := h
      obtain rfl := Option.some.inj hnext
      show db.wsjf? created.id = some {}
      rw [hdone.columns, hid]
      exact if_pos rfl
    | some w =>
      refine ((createScored_writes input w hw).leaves.bindPublishes fun task =>
        (publishes_announceTask (by simp) task).bind (publishes_pure none)).post ?_
      intro v next db h _ next' hnext
      obtain ⟨_, -, rfl⟩ := h
      cases hnext
  | claimUpdate path =>
    refine (leaves_segment _).post ?_
    intro v next db h _ next' hnext
    cases path with
    | fresh =>
      rw [h.1] at hnext
      cases hnext
    | renewal =>
      rw [h.1] at hnext
      obtain rfl := Option.some.inj hnext
      trivial
  | renewReload =>
    refine (leaves_segment _).post ?_
    intro v next db h _ next' hnext
    rw [h.2] at hnext
    cases hnext
  | announce =>
    refine (leaves_segment _).post ?_
    intro v next db h _ next' hnext
    rw [h.1] at hnext
    cases hnext
  | release timeoutMinutes claim rest =>
    refine (leaves_segment _).post ?_
    intro v next db h _ next' hnext
    obtain ⟨-, hend⟩ | ⟨hend, -⟩ := h
    · rw [hend] at hnext
      cases rest with
      | nil => cases hnext
      | cons claim rest =>
        obtain rfl := Option.some.inj hnext
        trivial
    · rw [hend] at hnext
      obtain rfl := Option.some.inj hnext
      trivial
  | releaseReload timeoutMinutes claim rest =>
    refine (leaves_segment _).post ?_
    intro v next db h _ next' hnext
    rw [h.2] at hnext
    cases rest with
    | nil => cases hnext
    | cons claim rest =>
      obtain rfl := Option.some.inj hnext
      trivial
  | blockedTaskRead =>
    refine (leaves_segment _).post ?_
    intro v next db h _ next' hnext
    rw [h.2] at hnext
    obtain rfl := Option.some.inj hnext
    trivial
  | cycleCheck =>
    refine (leaves_segment _).post ?_
    intro v next db h _ next' hnext
    rw [h.2.1] at hnext
    obtain rfl := Option.some.inj hnext
    trivial
  | insertEdge =>
    refine (leaves_segment _).post ?_
    intro v next db h _ next' hnext
    rw [h.1] at hnext
    cases hnext
  | deleteRow =>
    refine (leaves_segment _).post ?_
    intro v next db h _ next' hnext
    rw [h.2] at hnext
    cases hnext

/-! ## Steps -/

/-- What the segment from a point does: its writes, and what it has established for the next
    point. -/
structure ScoringPoint.Effect (env : Env) (now : Nat) (db : Db) (next : Option ScoringPoint)
    (db' : Db) (point : ScoringPoint) : Prop where
  scores : point.Scores env now db db'
  sound : point.Sound db → ∀ next', next = some next' → next'.Sound db'

/-- The candidates of the sweep have no size. -/
theorem Db.sound_sizeCandidates (db : Db) : (ScoringPoint.backfill db.sizeCandidates).Sound db := by
  constructor
  · have hids : db.sizeCandidates.map (·.id) = (db.tasks.rows.filter fun t =>
        t.wsjf.jobSize.isNone && t.status != .done && t.status != .closed).map Task.id := by
      rw [sizeCandidates, List.map_map]
      rfl
    rw [hids]
    exact (List.filter_sublist.map Task.id).nodup db.tasks.nodup
  · intro c hc w hw
    obtain ⟨row, hrow, rfl⟩ := List.mem_map.1 hc
    obtain ⟨hmem, hopen⟩ := List.mem_filter.1 hrow
    rw [Db.wsjf?_of_find? (Table.find?_key hmem)] at hw
    obtain rfl := Option.some.inj hw
    simp only [Bool.and_eq_true, Option.isNone_iff_eq_none] at hopen
    exact hopen.1.1

theorem leaves_scoring (point : ScoringPoint) : Leaves point.segment fun v next db =>
    point.Effect v.env v.now v.db next db := by
  cases point with
  | task point =>
    refine (((scores_task point).and (sound_task point)).bindPublishes fun next =>
      publishes_pure (next.map ScoringPoint.task)).post ?_
    intro v next db h
    obtain ⟨next, ⟨hscores, hsound⟩, rfl⟩ := h
    refine ⟨hscores, fun hpoint next' hnext => ?_⟩
    obtain ⟨point', hnext', rfl⟩ := Option.map_eq_some_iff.1 hnext
    exact hsound hpoint point' hnext'
  | project point =>
    refine ((scores_project point).bindPublishes fun next =>
      publishes_pure (next.map ScoringPoint.project)).post ?_
    intro v next db h
    obtain ⟨next, hscores, rfl⟩ := h
    refine ⟨hscores, fun _ next' hnext => ?_⟩
    obtain ⟨point', -, rfl⟩ := Option.map_eq_some_iff.1 hnext
    trivial
  | rescore projectId submissions actor =>
    refine (WsjfRescoreService.rescore_writes projectId submissions actor).leavesThen.post ?_
    intro v next db h
    obtain ⟨_, ⟨version, runId, hwrites⟩, rfl⟩ := h
    refine ⟨⟨_, hwrites, ?_, ?_⟩, fun _ next' hnext => nomatch hnext⟩
    · intro w hw
      obtain ⟨p, hp, rfl⟩ := List.mem_map.1 hw
      exact .rescored hp
    · intro hdistinct
      rw [List.map_map]
      exact (changedRows_sublist v.env v.db projectId submissions).nodup hdistinct
  | findCandidates =>
    refine (Spec.query fun db => db.sizeCandidates).leavesThen.post ?_
    intro v next db h
    obtain ⟨_, ⟨rfl, rfl⟩, rfl⟩ := h
    refine ⟨.nil (.unchanged (fun _ => rfl) rfl le_rfl), fun _ next' hnext => ?_⟩
    obtain rfl := Option.some.inj hnext
    exact Db.sound_sizeCandidates v.db
  | backfill rest =>
    cases rest with
    | nil =>
      refine (Spec.pure none).leaves.post ?_
      intro v next db h
      obtain ⟨rfl, rfl⟩ := h
      exact ⟨.nil (.unchanged (fun _ => rfl) rfl le_rfl), fun _ next' hnext => nomatch hnext⟩
    | cons candidate rest =>
      refine ((backfillRow_writes candidate).bindPublishes fun _ =>
        publishes_pure (some (ScoringPoint.backfill rest))).post ?_
      intro v next db h
      obtain ⟨_, hwrite, rfl⟩ := h
      obtain rfl | ⟨row, hrow, hdone⟩ := hwrite
      · refine ⟨.nil (.unchanged (fun _ => rfl) rfl le_rfl), fun hsound next' hnext => ?_⟩
        obtain rfl := Option.some.inj hnext
        exact ⟨(List.nodup_cons.1 hsound.1).2, fun c hc =>
          hsound.2 c (List.mem_cons_of_mem candidate hc)⟩
      · refine ⟨.one hdone (.swept hrow), fun hsound next' hnext => ?_⟩
        obtain rfl := Option.some.inj hnext
        obtain ⟨hnotin, hnodup⟩ := List.nodup_cons.1 hsound.1
        refine ⟨hnodup, fun c hc w hw => ?_⟩
        have hrowId : row.id = candidate.id := (Table.find?_eq_some.1 hrow).2
        have hne : c.id ≠ row.id := by
          rw [hrowId]
          intro heq
          exact hnotin (List.mem_map.2 ⟨c, hc, heq⟩)
        rw [hdone.columns] at hw
        exact hsound.2 c (List.mem_cons_of_mem candidate hc) w (by simpa [sizedScore, hne] using hw)

/-- A step writes what its segment may write, or nothing. -/
theorem ScoringSys.step_scores (s : ScoringSys) (a : ScoringAction) :
    (s.step a).db = s.db ∨ ∃ env point, a = .step () env ∧ s.procs () = some point ∧
      point.Scores env s.now s.db (s.step a).db := by
  obtain hdb | ⟨p, env, point, next, db', rfl, hpoint, heffect, hstep⟩ :=
    Shared.step_cases (r := scoringCalls) (s := s) (a := a)
      (E := fun point env now db next db' => point.Effect env now db next db') leaves_scoring
  · exact .inl hdb
  · refine .inr ⟨env, point, rfl, hpoint, ?_⟩
    rw [ScoringSys.step, hstep]
    exact heffect.scores

/-- The point that the process is at is sound. -/
def ScoringSys.PointSound (s : ScoringSys) : Prop :=
  ∀ point, s.procs () = some point → point.Sound s.db

theorem ScoringSys.pointSound_initial (users : List Nat) (now : Nat) :
    (ScoringSys.initial users now).PointSound := by
  intro point hpoint
  cases hpoint

theorem ScoringSys.PointSound.step {s : ScoringSys} (h : s.PointSound) (a : ScoringAction) :
    (s.step a).PointSound := by
  refine Shared.step_single (r := scoringCalls) (E := fun point env now db next db' =>
    point.Effect env now db next db') (I := fun db next => ∀ point, next = some point →
      point.Sound db) leaves_scoring ?_ ?_ ?_ h
  · intro c _ point hpoint
    obtain rfl := Option.some.inj hpoint
    cases c <;> trivial
  · intro point _ point' hpoint'
    cases hpoint'
  · intro env point next db' _ _ heffect hsound
    exact heffect.sound (hsound point rfl)

/-! ## Sizes and scores -/

/-- A row without a size has no score at all. -/
def Db.SizedIfScored (db : Db) : Prop :=
  ∀ t w, db.wsjf? t = some w → w.jobSize = none → w.Unscored

theorem ScoringPoint.Writes.sizedIfScored {env : Env} {db : Db} {point : ScoringPoint}
    {w : ScoreWrite} (h : point.Writes env db w) :
    w.columns.jobSize = none → w.columns.Unscored := by
  intro hsize
  cases h with
  | unscored hw => exact ⟨rfl, rfl, rfl⟩
  | created hw => cases hsize
  | @updated existing id input source row w hrow hw =>
    unfold updatedScore at hw
    split at hw
    · cases hw
    · obtain rfl := List.mem_singleton.1 hw
      exact ⟨rfl, rfl, rfl⟩
    · obtain rfl := List.mem_singleton.1 hw
      cases hsize
  | sized hrow => cases hsize
  | rescored hp => cases hsize
  | swept hrow => cases hsize

theorem ScoringSys.sizedIfScored_initial (users : List Nat) (now : Nat) :
    (ScoringSys.initial users now).db.SizedIfScored := by
  intro t w hw
  cases hw

theorem ScoringSys.sizedIfScored_step {s : ScoringSys} (h : s.db.SizedIfScored) (a : ScoringAction) :
    (s.step a).db.SizedIfScored := by
  obtain hdb | ⟨env, point, -, -, ws, hwrites, hws, -⟩ := s.step_scores a
  · rwa [hdb]
  · exact hwrites.columns (Q := fun c => c.jobSize = none → c.Unscored)
      (fun w hw => (hws w hw).sizedIfScored) h

/-! ## Conditions on segments -/

/-- The segment that the action runs, if it runs one, meets the condition. -/
def ScoringSys.SegmentOk (C : Env → Db → ScoringPoint → Bool) (s : ScoringSys) :
    ScoringAction → Prop
  | .step _ env => (s.procs ()).all (C env s.db) = true
  | _ => True

instance (C : Env → Db → ScoringPoint → Bool) (s : ScoringSys) :
    ∀ a : ScoringAction, Decidable (s.SegmentOk C a)
  | .step _ _ => inferInstanceAs (Decidable (_ = _))
  | .call _ _ => isTrue trivial
  | .crash _ => isTrue trivial
  | .wait _ => isTrue trivial

theorem ScoringSys.SegmentOk.at {C : Env → Db → ScoringPoint → Bool} {s : ScoringSys} {env : Env}
    {point : ScoringPoint} (h : s.SegmentOk C (.step () env)) (hpoint : s.procs () = some point) :
    C env s.db point = true := by
  have hall : (s.procs ()).all (C env s.db) = true := h
  rwa [hpoint] at hall

/-! ## Sample calls -/

/-- A call with as many steps as it needs. -/
def scoringSteps (call : ScoringCall) (steps : Nat) : List ScoringAction :=
  .call () call :: List.replicate steps (.step () .undisturbed)

/-- Project 1, with its charter. -/
def createProjectSteps (charter : Option ValueCharter := none) : List ScoringAction :=
  scoringSteps (.project (.createProject { name := "project", valueCharter := charter })) 3

/-- A task of project 1. -/
def scoredInput (minutes : Option Nat) (w : Option WsjfWriteDTO) : CreateTaskInput where
  title := "task"
  projectId := 1
  createdBy := "user"
  estimatedMinutes := minutes
  wsjf := w

/-- A score set by hand. -/
def manualScore (c : WsjfComponents) : WsjfWriteDTO where
  toPerComponent := c
  manual := true

/-- A classification without a theme. -/
def plainClassification (jobSizeTier : Fib) : WsjfClassification where
  themeName := none
  alignment := .none
  severity := .techDebt
  decay := some .slow
  jobSizeTier := jobSizeTier
  evidence := ⟨"task", "task", "task", "task"⟩

def plainFeatures : WsjfFeatures where
  deadlineDate := none
  daysUntilDeadline := none
  transitiveDependents := 2
  filesTouched := none
  charterVersion := none

/-- The score that the gate makes of them. -/
def plainScore (jobSizeTier : Fib) : WsjfWriteDTO where
  toPerComponent := serverComponents (plainClassification jobSizeTier) plainFeatures none
  classifications := some (plainClassification jobSizeTier)
  features := some plainFeatures
  evidence := some (plainClassification jobSizeTier).evidence
  source := some autoSource

end WoodFiredTasks
