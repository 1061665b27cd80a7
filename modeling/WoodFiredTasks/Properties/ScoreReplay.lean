import WoodFiredTasks.Lib.Runs
import WoodFiredTasks.ScoringCalls

set_option autoImplicit false

/-! # Scores that can be replayed

A history row can be replayed when its components follow from the classification and the features
that stand in it, by the functions of the gate under the charter of that moment. A rescore computes
what it writes, but a create and an update store what they are handed: whether their rows can be
replayed is up to the caller. -/

namespace WoodFiredTasks

open TaskService

/-! ## Replaying a row -/

/-- The component is the computed one, or it was locked and is the one of before. -/
def ReplaysComponent (locked : Bool) (before : Option Fib) (computed stored : Fib) : Prop :=
  stored = computed ∨ locked = true ∧ before = some stored

/-- The components follow from the classification and the features, but for locked ones. -/
def Replays (charter : Option ValueCharter) (locked : Option WsjfLocks) (before : WsjfColumns)
    (classification : WsjfClassification) (features : WsjfFeatures) (c : WsjfComponents) : Prop :=
  let computed := serverComponents classification features charter
  ReplaysComponent (locked.any (·.value)) before.value computed.value c.value ∧
    ReplaysComponent (locked.any (·.timeCriticality)) before.timeCriticality
      computed.timeCriticality c.timeCriticality ∧
    ReplaysComponent (locked.any (·.riskOpportunity)) before.riskOpportunity
      computed.riskOpportunity c.riskOpportunity ∧
    ReplaysComponent (locked.any (·.jobSize)) before.jobSize computed.jobSize c.jobSize

instance (locked : Bool) (before : Option Fib) (computed stored : Fib) :
    Decidable (ReplaysComponent locked before computed stored) :=
  inferInstanceAs (Decidable (_ ∨ _))

instance (charter : Option ValueCharter) (locked : Option WsjfLocks) (before : WsjfColumns)
    (classification : WsjfClassification) (features : WsjfFeatures) (c : WsjfComponents) :
    Decidable (Replays charter locked before classification features c) :=
  inferInstanceAs (Decidable (_ ∧ _ ∧ _ ∧ _))

/-- A full row that was not set by hand can be replayed under the charter, and its score is that of
    its components. -/
def WsjfHistoryRow.Replayable (h : WsjfHistoryRow) (charter : Option ValueCharter)
    (before : WsjfColumns) : Prop :=
  ∀ c, h.components? = some c → h.trigger ≠ .manual →
    (∃ classification features, h.classifications = some classification ∧
      h.features = some features ∧
      Replays charter h.locked before classification features c) ∧
    h.wsjfScore = some (computeWsjf c)

/-! ## What callers hand over -/

/-- The score can be replayed, or it is recorded as set by hand. -/
def WsjfWriteDTO.replayOk (w : WsjfWriteDTO) (trigger : WsjfHistoryTrigger)
    (charter : Option ValueCharter) (before : WsjfColumns) : Bool :=
  trigger == .manual ||
    match w.classifications, w.features with
    | some classification, some features =>
      decide (Replays charter w.locked before classification features w.toPerComponent)
    | _, _ => false

/-- The score that the segment stores as it was handed over can be replayed. -/
def ScoringPoint.replayOk (db : Db) : ScoringPoint → Bool
  | .task (.insertTask input) =>
    input.wsjf.all fun w => w.replayOk w.createTrigger (db.charter? input.projectId) {}
  | .task (.updateWrite existing _ input _) =>
    input.wsjf.join.all fun w =>
      w.replayOk w.updateTrigger (db.charter? existing.projectId) existing.wsjf
  | _ => true

abbrev ScoringSys.ReplayOk (s : ScoringSys) (a : ScoringAction) : Prop :=
  s.SegmentOk (fun _ db point => point.replayOk db) a

/-! ## What is written -/

section Writes

variable {env : Env} {db : Db} {point : ScoringPoint} {w : ScoreWrite}

theorem WsjfWriteDTO.replayable_record {w : WsjfWriteDTO} {taskId projectId now id : Nat}
    {trigger : WsjfHistoryTrigger} {prevWsjfScore : Option ℚ} {charter : Option ValueCharter}
    {before : WsjfColumns} (h : w.replayOk trigger charter before = true) :
    ((w.record taskId projectId trigger prevWsjfScore).row now id).Replayable charter before := by
  intro c hc htrigger
  obtain rfl : w.toPerComponent = c := Option.some.inj hc
  refine ⟨?_, rfl⟩
  have hmanual : (trigger == .manual) = false := beq_false_of_ne htrigger
  simp only [WsjfWriteDTO.replayOk, hmanual, Bool.false_or] at h
  split at h
  · rename_i classification features hclassification hfeatures
    exact ⟨classification, features, hclassification, hfeatures, of_decide_eq_true h⟩
  · cases h

/-- A size-only row has no components to replay. -/
theorem replayable_autoSizeRecord {task : Task} {jobSize : Fib} {prevWsjfScore : Option ℚ}
    {trigger : WsjfHistoryTrigger} {now id : Nat} {charter : Option ValueCharter}
    {before : WsjfColumns} :
    ((autoSizeRecord task jobSize prevWsjfScore trigger).row now id).Replayable charter before := by
  intro c hc
  cases hc

theorem replaysComponent_keepLocked {locked : Bool} {prev computed : Fib} {before : Option Fib}
    (h : before = some prev) :
    ReplaysComponent locked before computed (keepLocked locked prev computed) := by
  unfold keepLocked
  split
  · rename_i hlocked
    exact .inr ⟨hlocked, h⟩
  · exact .inl rfl

theorem replays_mergeLocked {charter : Option ValueCharter} {locked : Option WsjfLocks}
    {row : WsjfColumns} {classification : WsjfClassification} {features : WsjfFeatures}
    {prev : WsjfComponents} (h : row.components? = some prev) :
    Replays charter locked row classification features
      (mergeLocked locked prev (serverComponents classification features charter)) := by
  obtain ⟨hvalue, htime, hrisk, hsize⟩ := WsjfColumns.components?_eq_some.1 h
  cases locked with
  | none => exact ⟨.inl rfl, .inl rfl, .inl rfl, .inl rfl⟩
  | some l =>
    exact ⟨replaysComponent_keepLocked hvalue, replaysComponent_keepLocked htime,
      replaysComponent_keepLocked hrisk, replaysComponent_keepLocked hsize⟩

/-- The row of a write can be replayed under the charter of its project. -/
theorem ScoringPoint.Writes.replayable (h : point.Writes env db w) (hsound : point.Sound db)
    (hok : point.replayOk db = true) {r : WsjfHistoryRecord} (hr : w.record = some r)
    (now id : Nat) :
    (r.row now id).Replayable (db.charter? r.projectId) ((db.wsjf? r.taskId).getD {}) := by
  cases h with
  | unscored hw => cases hr
  | @created input w hw =>
    obtain rfl := Option.some.inj hr
    have hnone : db.wsjf? db.tasks.next = none := Db.wsjf?_next
    simp only [ScoringPoint.replayOk, hw, Option.all_some] at hok
    have hreplay : ((w.record db.tasks.next input.projectId w.createTrigger none).row now
        id).Replayable (db.charter? input.projectId) {} := w.replayable_record hok
    show WsjfHistoryRow.Replayable _ _ ((db.wsjf? db.tasks.next).getD {})
    rw [hnone]
    exact hreplay
  | @updated existing taskId input source row w hrow hw =>
    obtain ⟨row', hrow', rfl⟩ := hsound.1
    obtain rfl := Option.some.inj (hrow.symm.trans hrow')
    unfold updatedScore at hw
    split at hw
    · cases hw
    · obtain rfl := List.mem_singleton.1 hw
      cases hr
    · rename_i w' hwsjf
      obtain rfl := List.mem_singleton.1 hw
      obtain rfl := Option.some.inj hr
      have hjoin : input.wsjf.join = some w' := by rw [hwsjf]; rfl
      simp only [ScoringPoint.replayOk, hjoin, Option.all_some] at hok
      show WsjfHistoryRow.Replayable _ (db.charter? row.projectId) ((db.wsjf? taskId).getD {})
      rw [Db.wsjf?_of_find? hrow]
      exact w'.replayable_record hok
  | sized hrow =>
    obtain rfl := Option.some.inj hr
    exact replayable_autoSizeRecord
  | @rescored projectId submissions actor version runId p hp =>
    obtain rfl := Option.some.inj hr
    obtain ⟨s, -, hassess⟩ := mem_changedRows hp
    obtain ⟨prev, htask, -, hprev, hmerged, -, -, -, -, hscore⟩ := assess_ok hassess
    obtain ⟨row, hrow, htask⟩ := Option.map_eq_some_iff.1 htask
    have hid : p.task.id = s.taskId := by
      rw [← htask]
      exact (Table.find?_eq_some.1 hrow).2
    have hcolumns : p.task.wsjf = row.wsjf := by
      rw [← htask]
      rfl
    intro c hc _
    obtain rfl : p.components = c := Option.some.inj hc
    refine ⟨⟨p.submission.classification, p.submission.features, rfl, rfl, ?_⟩, congrArg some hscore⟩
    show Replays (db.charter? projectId) p.locked ((db.wsjf? p.task.id).getD {}) _ _ _
    rw [hid, Db.wsjf?_of_find? hrow, hmerged, Option.getD_some, ← hcolumns]
    exact replays_mergeLocked hprev
  | swept hrow =>
    obtain rfl := Option.some.inj hr
    exact replayable_autoSizeRecord

end Writes

/-! ## Runs -/

/-- The step appends the row, which can be replayed from the state before the step. -/
def ScoringSys.AppendsReplayable (h : WsjfHistoryRow) (s : ScoringSys) (a : ScoringAction) : Prop :=
  h ∉ s.db.wsjfHistory.rows ∧ h ∈ (s.step a).db.wsjfHistory.rows ∧
    h.Replayable (s.db.charter? h.projectId) ((s.db.wsjf? h.taskId).getD {})

theorem ScoringSys.appendsReplayable {s : ScoringSys} {a : ScoringAction} (hsound : s.PointSound)
    (hok : s.ReplayOk a) {h : WsjfHistoryRow} (hold : h ∉ s.db.wsjfHistory.rows)
    (hnew : h ∈ (s.step a).db.wsjfHistory.rows) : s.AppendsReplayable h a := by
  refine ⟨hold, hnew, ?_⟩
  obtain hdb | ⟨env, point, rfl, hpoint, ws, hwrites, hws, -⟩ := s.step_scores a
  · rw [hdb] at hnew
    exact absurd hnew hold
  · obtain hmem | ⟨w, hw, r, id, hrecord, rfl⟩ := hwrites.mem_history hnew
    · exact absurd hmem hold
    · exact (hws w hw).replayable (hsound point hpoint) (hok.at hpoint) hrecord s.now id

/-- **Main theorem.** Every history row in every state of a run of the calls that write scores was
    appended by a step from whose charter and columns it can be replayed, if every score that the
    run's creates and updates are handed without being set by hand can be replayed. -/
theorem scores_replayable (users : List Nat) (now : Nat) (actions : List ScoringAction)
    (hrun : RunOk ScoringSys.step ScoringSys.ReplayOk (.initial users now) actions)
    (h : WsjfHistoryRow)
    (hrow : h ∈ (actions.foldl ScoringSys.step (.initial users now)).db.wsjfHistory.rows) :
    RunSome ScoringSys.step (ScoringSys.AppendsReplayable h) (.initial users now) actions := by
  refine hrun.some_of_change (I := ScoringSys.PointSound)
    (P := fun s => h ∈ s.db.wsjfHistory.rows) (fun s a hsound _ => hsound.step a) ?_
    (ScoringSys.pointSound_initial users now) (fun hmem => nomatch hmem) hrow
  intro s a hsound hok hold hnew
  exact ScoringSys.appendsReplayable hsound hok hold hnew

/-! ## Two runs -/

/-- A task that is created with the score. -/
def scoredRun (w : WsjfWriteDTO) : List ScoringAction :=
  createProjectSteps ++ scoringSteps (.task (.createTask (scoredInput none (some w)))) 2

/-- The rows are those of the computed score. -/
theorem scores_replayable_sample :
    ((scoredRun (plainScore .three)).foldl ScoringSys.step (.initial [] 0)).db.wsjfHistory.rows
      ≠ [] ∧ ∀ h ∈ ((scoredRun (plainScore .three)).foldl ScoringSys.step
        (.initial [] 0)).db.wsjfHistory.rows,
      RunSome ScoringSys.step (ScoringSys.AppendsReplayable h) (.initial [] 0)
        (scoredRun (plainScore .three)) := by
  refine ⟨?_, fun h hrow => scores_replayable [] 0 _ (by decide +kernel) h hrow⟩
  have hlength : ((scoredRun (plainScore .three)).foldl ScoringSys.step
      (.initial [] 0)).db.wsjfHistory.rows.length = 1 := by
    decide +kernel
  intro hnil
  rw [hnil] at hlength
  cases hlength

/-- A raw score comes with nothing to replay it from. -/
theorem scores_unreplayable :
    ¬ ∀ (users : List Nat) (now : Nat) (actions : List ScoringAction),
      ∀ h ∈ (actions.foldl ScoringSys.step (.initial users now)).db.wsjfHistory.rows,
        RunSome ScoringSys.step (ScoringSys.AppendsReplayable h) (.initial users now) actions := by
  intro hall
  -- no row that has components but no classification can be replayed by any step
  have hnever : ∀ {h : WsjfHistoryRow} {s : ScoringSys} {actions : List ScoringAction},
      h.components? ≠ none → h.trigger = .create → h.classifications = none →
      ¬ RunSome ScoringSys.step (ScoringSys.AppendsReplayable h) s actions := by
    intro h s actions hcomponents htrigger hclassification hsome
    induction actions generalizing s with
    | nil => exact hsome
    | cons a rest ih =>
      obtain ⟨-, -, hreplay⟩ | hsome := hsome
      · obtain ⟨c, hc⟩ := Option.ne_none_iff_exists'.1 hcomponents
        obtain ⟨⟨classification, features, hsome, -⟩, -⟩ := hreplay c hc (by simp [htrigger])
        rw [hclassification] at hsome
        cases hsome
      · exact ih hsome
  have hrows : ((scoredRun { toPerComponent := ⟨.two, .two, .two, .two⟩ }).foldl ScoringSys.step
      (.initial [] 0)).db.wsjfHistory.rows.map
        (fun h => (h.components?.isSome, h.trigger, h.classifications)) =
        [(true, .create, none)] := by
    decide +kernel
  obtain ⟨h, hmem, hfields⟩ := List.mem_map.1 (hrows ▸ List.mem_singleton_self _)
  simp only [Prod.mk.injEq] at hfields
  obtain ⟨hcomponents, htrigger, hclassification⟩ := hfields
  refine hnever ?_ htrigger hclassification (hall [] 0 _ h hmem)
  intro hnone
  rw [hnone] at hcomponents
  cases hcomponents

end WoodFiredTasks
