import WoodFiredTasks.Lib.Runs
import WoodFiredTasks.ScoringCalls

set_option autoImplicit false

/-! # The history of scores

Whatever writes the component columns of a task appends a history row in the same transaction, with
one exception: an explicit `null` clears the columns and appends nothing. So the newest row of a
task records what is in its columns, or the columns are empty, and each row records the score that
the task had before the write. -/

namespace WoodFiredTasks

open TaskService

/-! ## Rows that match their columns -/

/-- All four components are NULL. -/
def WsjfColumns.Empty (w : WsjfColumns) : Prop := w.components = ⟨none, none, none, none⟩

/-- The newest history row of the task, if there is one, records the components in its columns, or
    these are empty. -/
def Db.Matched (db : Db) (t : Nat) : Prop :=
  ∀ h w, (db.rowsOf t).getLast? = some h → db.wsjf? t = some w →
    h.components = w.components ∨ w.Empty

/-- The components that a record is about. -/
def WsjfHistoryRecord.components (r : WsjfHistoryRecord) : PerComponent (Option Fib) :=
  ⟨r.value, r.timeCriticality, r.riskOpportunity, r.jobSize⟩

/-- The record, if there is one, is about the task and its new columns; without one the columns are
    cleared. -/
def ScoreWrite.Honest (w : ScoreWrite) : Prop :=
  match w.record with
  | none => w.columns.Empty
  | some r => r.taskId = w.taskId ∧ r.components = w.columns.components

theorem ScoreWrite.Done.matched {w : ScoreWrite} {now : Nat} {db db' : Db}
    (h : w.Done now db db') (hw : w.Honest) (hdb : ∀ t, db.Matched t) (t : Nat) :
    db'.Matched t := by
  intro row c hrow hc
  have hcolumns := h.columns t
  have hhistory := h.history
  unfold ScoreWrite.history at hhistory
  unfold ScoreWrite.Honest at hw
  cases hrecord : w.record with
  | none =>
    rw [hrecord] at hhistory hw
    rw [hcolumns] at hc
    split at hc
    · obtain rfl := Option.some.inj hc
      exact .inr hw
    · rw [Db.rowsOf_congr hhistory] at hrow
      exact hdb t row c hrow hc
  | some r =>
    rw [hrecord] at hhistory hw
    obtain ⟨hid, hcomponents⟩ := hw
    have hrows : db'.rowsOf t = (db.appendHistory r now).rowsOf t := Db.rowsOf_congr hhistory
    rw [hrows, Db.rowsOf_appendHistory, hid] at hrow
    rw [hcolumns] at hc
    by_cases ht : t = w.taskId
    · rw [if_pos ht.symm, List.getLast?_append, List.getLast?_singleton, Option.some_or] at hrow
      rw [if_pos ht] at hc
      obtain rfl := Option.some.inj hrow
      obtain rfl := Option.some.inj hc
      exact .inl hcomponents
    · rw [if_neg fun heq => ht heq.symm] at hrow
      rw [if_neg ht] at hc
      exact hdb t row c hrow hc

theorem ScoresWritten.matched {now : Nat} {ws : List ScoreWrite} {db db' : Db}
    (h : ScoresWritten now ws db db') (hws : ∀ w ∈ ws, w.Honest) (hdb : ∀ t, db.Matched t) :
    ∀ t, db'.Matched t := by
  induction h with
  | nil gone h =>
    intro t row c hrow hc
    rw [h.columns] at hc
    rw [h.rowsOf] at hrow
    split at hc
    · cases hc
    · rename_i hkept
      rw [if_neg hkept] at hrow
      exact hdb t row c hrow hc
  | @cons w ws db db₁ db' hdone hrest ih =>
    exact ih (fun w' hw' => hws w' (List.mem_cons_of_mem w hw'))
      (hdone.matched (hws w List.mem_cons_self) hdb)

/-! ## What a segment writes -/

/-- The segment from the point does neither of two things: size a scored row after a change of its
    minutes, or rescore a task twice in one batch. -/
def ScoringPoint.historyOk (db : Db) : ScoringPoint → Bool
  | .task (.sizeWrite (.updated ..) taskId _ _) =>
    (db.wsjf? taskId).all fun w => decide w.Unscored
  | .rescore _ submissions _ => decide (submissions.map (·.taskId)).Nodup
  | _ => true

/-- The step runs no such segment. -/
abbrev ScoringSys.HistoryOk (s : ScoringSys) (a : ScoringAction) : Prop :=
  s.SegmentOk (fun _ db point => point.historyOk db) a

section Writes

variable {env : Env} {db : Db} {point : ScoringPoint} {w : ScoreWrite}

/-- The record of a size-only write is about the columns, if no other component was set. -/
theorem honest_sizedScore {existing row : Task} {jobSize : Fib} {trigger : WsjfHistoryTrigger}
    (h : row.wsjf.Unscored) : (sizedScore existing row jobSize trigger).Honest := by
  obtain ⟨hvalue, htime, hrisk⟩ := h
  refine ⟨rfl, ?_⟩
  simp [sizedScore, autoSizeRecord, WsjfHistoryRecord.components, WsjfColumns.components,
    WsjfColumns.sized, hvalue, htime, hrisk]

theorem ScoringPoint.Writes.honest (h : point.Writes env db w) (hsound : point.Sound db)
    (hshape : db.SizedIfScored) (hok : point.historyOk db = true) : w.Honest := by
  cases h with
  | unscored hw => rfl
  | created hw => exact ⟨rfl, rfl⟩
  | @updated existing id input source row w hrow hw =>
    unfold updatedScore at hw
    split at hw
    · cases hw
    · obtain rfl := List.mem_singleton.1 hw
      rfl
    · obtain rfl := List.mem_singleton.1 hw
      exact ⟨rfl, rfl⟩
  | @sized sizing taskId existing jobSize row hrow =>
    refine honest_sizedScore ?_
    have hcolumns := Db.wsjf?_of_find? hrow
    cases sizing with
    | created =>
      have hempty : db.wsjf? taskId = some {} := hsound.1
      rw [hcolumns] at hempty
      rw [Option.some.inj hempty]
      exact ⟨rfl, rfl, rfl⟩
    | updated before input source =>
      simp only [ScoringPoint.historyOk, hcolumns, Option.all_some, decide_eq_true_eq] at hok
      exact hok
  | rescored hp => exact ⟨rfl, rfl⟩
  | @swept candidate rest row hrow =>
    have hcolumns := Db.wsjf?_of_find? hrow
    have hsize := hsound.2 candidate List.mem_cons_self row.wsjf hcolumns
    exact honest_sizedScore (hshape _ row.wsjf hcolumns hsize)

/-- The record names the task that is written. -/
theorem ScoringPoint.Writes.record_taskId (h : point.Writes env db w) {r : WsjfHistoryRecord}
    (hr : w.record = some r) : r.taskId = w.taskId := by
  cases h with
  | unscored hw => cases hr
  | created hw =>
    obtain rfl := Option.some.inj hr
    rfl
  | @updated existing id input source row w hrow hw =>
    unfold updatedScore at hw
    split at hw
    · cases hw
    · obtain rfl := List.mem_singleton.1 hw
      cases hr
    · obtain rfl := List.mem_singleton.1 hw
      obtain rfl := Option.some.inj hr
      rfl
  | sized hrow =>
    obtain rfl := Option.some.inj hr
    rfl
  | rescored hp =>
    obtain rfl := Option.some.inj hr
    rfl
  | swept hrow =>
    obtain rfl := Option.some.inj hr
    rfl

/-- The record has the score that the task has before the write. -/
theorem ScoringPoint.Writes.prevWsjfScore (h : point.Writes env db w) (hsound : point.Sound db)
    {r : WsjfHistoryRecord} (hr : w.record = some r) :
    r.prevWsjfScore = (db.wsjf? w.taskId).bind WsjfColumns.currentScore := by
  cases h with
  | unscored hw => cases hr
  | @created input w hw =>
    obtain rfl := Option.some.inj hr
    simp only [createdScore, Db.wsjf?_next]
    rfl
  | @updated existing id input source row w hrow hw =>
    obtain ⟨row', hrow', rfl⟩ := hsound.1
    obtain rfl := Option.some.inj (hrow.symm.trans hrow')
    unfold updatedScore at hw
    split at hw
    · cases hw
    · obtain rfl := List.mem_singleton.1 hw
      cases hr
    · obtain rfl := List.mem_singleton.1 hw
      obtain rfl := Option.some.inj hr
      simp only [Db.wsjf?_of_find? hrow]
      rfl
  | @sized sizing taskId existing jobSize row hrow =>
    obtain ⟨row', hrow', rfl⟩ := hsound.2
    obtain rfl := Option.some.inj (hrow.symm.trans hrow')
    obtain rfl := Option.some.inj hr
    have hid : row.id = taskId := (Table.find?_eq_some.1 hrow).2
    simp only [sizedScore, hid, Db.wsjf?_of_find? hrow]
    rfl
  | @rescored projectId submissions actor version runId p hp =>
    obtain rfl := Option.some.inj hr
    obtain ⟨s, -, hassess⟩ := mem_changedRows hp
    obtain ⟨prev, htask, -, hprev, -, -, -, -, hscore, -⟩ := assess_ok hassess
    obtain ⟨row, hrow, htask⟩ := Option.map_eq_some_iff.1 htask
    have hid : p.task.id = s.taskId := by
      rw [← htask]
      exact (Table.find?_eq_some.1 hrow).2
    have hwsjf : p.task.wsjf = row.wsjf := by
      rw [← htask]
      rfl
    simp only [rescoredScore, hid, Db.wsjf?_of_find? hrow, Option.bind_some,
      WsjfColumns.currentScore_eq, ← hwsjf, hprev, Option.map_some]
    exact congrArg some hscore
  | @swept candidate rest row hrow =>
    obtain rfl := Option.some.inj hr
    have hid : row.id = candidate.id := (Table.find?_eq_some.1 hrow).2
    simp only [sizedScore, hid, Db.wsjf?_of_find? hrow]
    rfl

end Writes

/-! ## Runs -/

/-- What a step adds to the rows of a task: nothing, or one row with the score of the task before
    the step; or the task is gone with its rows. -/
def ScoringSys.RowRecorded (s : ScoringSys) (a : ScoringAction) : Prop :=
  ∀ t, ((s.step a).db.wsjf? t = none ∧ (s.step a).db.rowsOf t = []) ∨
    (s.step a).db.rowsOf t = s.db.rowsOf t ∨
    ∃ h, (s.step a).db.rowsOf t = s.db.rowsOf t ++ [h] ∧
      h.prevWsjfScore = (s.db.wsjf? t).bind WsjfColumns.currentScore

/-- The rows match the columns, and what the reads have established holds. -/
structure ScoringSys.HistoryKept (s : ScoringSys) : Prop where
  matched : ∀ t, s.db.Matched t
  sizedIfScored : s.db.SizedIfScored
  pointSound : s.PointSound

theorem ScoringSys.historyKept_initial (users : List Nat) (now : Nat) :
    (ScoringSys.initial users now).HistoryKept where
  matched t h w hrow _ := by cases hrow
  sizedIfScored := sizedIfScored_initial users now
  pointSound := pointSound_initial users now

theorem ScoringSys.HistoryKept.step {s : ScoringSys} {a : ScoringAction} (h : s.HistoryKept)
    (hok : s.HistoryOk a) : (s.step a).HistoryKept ∧ s.RowRecorded a := by
  have hpointSound := h.pointSound.step a
  have hshape := sizedIfScored_step h.sizedIfScored a
  obtain hdb | ⟨env, point, rfl, hpoint, ws, hwrites, hws, hnodup⟩ := s.step_scores a
  · refine ⟨⟨?_, hshape, hpointSound⟩, ?_⟩
    · rw [hdb]
      exact h.matched
    · intro t
      rw [hdb]
      exact .inr (.inl rfl)
  · have hsound := h.pointSound point hpoint
    have hpointOk : point.historyOk s.db = true := hok.at hpoint
    have hdistinct : point.Distinct := by
      cases point with
      | rescore projectId submissions actor =>
        have hids : (submissions.map (·.taskId)).Nodup := of_decide_eq_true hpointOk
        exact hids
      | _ => trivial
    refine ⟨⟨?_, hshape, hpointSound⟩, ?_⟩
    · exact hwrites.matched (fun w hw => (hws w hw).honest hsound h.sizedIfScored hpointOk) h.matched
    · intro t
      obtain hgone | hsame | ⟨w, hw, r, id, hrecord, rfl, hrows⟩ :=
        hwrites.rowsOf (hnodup hdistinct) (fun w hw r hr => (hws w hw).record_taskId hr) t
      · exact .inl hgone
      · exact .inr (.inl hsame)
      · exact .inr (.inr ⟨_, hrows, (hws w hw).prevWsjfScore hsound hrecord⟩)

/-- **Main theorem.** In every run of the calls that write scores, the newest history row of each
    task records the components in its columns, unless these have been cleared, and every step adds
    at most one row to a task, which has the score of the task before the step. The run sizes no
    scored row after a change of its minutes and names no task twice in a rescore. -/
theorem scoreHistory_kept (users : List Nat) (now : Nat) (actions : List ScoringAction)
    (hrun : RunOk ScoringSys.step ScoringSys.HistoryOk (.initial users now) actions) :
    Always ScoringSys.step (fun s => ∀ t, s.db.Matched t) (.initial users now) actions ∧
      RunOk ScoringSys.step ScoringSys.RowRecorded (.initial users now) actions := by
  have hkept := ScoringSys.historyKept_initial users now
  have hstep : ∀ (s : ScoringSys) (a : ScoringAction), s.HistoryKept → s.HistoryOk a →
      (s.step a).HistoryKept := fun s a h hok => (h.step hok).1
  constructor
  · exact (hrun.always hstep hkept).mono fun s h => h.matched
  · exact hrun.mono_of_invariant hkept hstep fun s a h hok => (h.step hok).2

/-! ## Two runs -/

/-- A task with a score set by hand, whose minutes change and whose score is cleared. -/
def clearingRun : List ScoringAction :=
  createProjectSteps ++
    scoringSteps (.task (.createTask (scoredInput none (some (manualScore ⟨.two, .three, .five, .one⟩))))) 2 ++
    scoringSteps (.task (.updateTask 1 { estimatedMinutes := some (some 45) } .user none)) 3 ++
    scoringSteps (.task (.updateTask 1 { wsjf := some none } .user none)) 3

theorem scoreHistory_kept_clearing :
    Always ScoringSys.step (fun s => ∀ t, s.db.Matched t) (.initial [] 0) clearingRun ∧
      RunOk ScoringSys.step ScoringSys.RowRecorded (.initial [] 0) clearingRun :=
  scoreHistory_kept [] 0 clearingRun (by decide +kernel)

/-- A score that is cleared leaves the columns empty and the newest row as it was. -/
theorem scoreHistory_cleared :
    ¬ ∀ (users : List Nat) (now : Nat) (actions : List ScoringAction),
      ∀ t, (actions.foldl ScoringSys.step (.initial users now)).db.Covered t := by
  intro h
  have hcovered := h [] 0 clearingRun 1
  have hcomponents : ((clearingRun.foldl ScoringSys.step (.initial [] 0)).db.rowsOf 1).getLast?.map
      WsjfHistoryRow.components = some ⟨some .two, some .three, some .five, some .one⟩ := by
    decide +kernel
  have hcolumns : ((clearingRun.foldl ScoringSys.step (.initial [] 0)).db.wsjf? 1).map
      WsjfColumns.components = some ⟨none, none, none, none⟩ := by
    decide +kernel
  obtain ⟨row, hrow, hrowComponents⟩ := Option.map_eq_some_iff.1 hcomponents
  obtain ⟨w, hw, hwComponents⟩ := Option.map_eq_some_iff.1 hcolumns
  have heq := hcovered row w hrow hw
  rw [hrowComponents, hwComponents] at heq
  cases heq

end WoodFiredTasks
