import WoodFiredTasks.Lib.Runs
import WoodFiredTasks.ScoringCalls

set_option autoImplicit false

/-! # Contradictory scores

A score of the greatest value for the smallest effort contradicts itself. Scores set by hand and
scores that are computed from a classification are checked for it; a score that is handed over raw,
the size of a resize and the components that a rescore puts together from locked and new ones are
not. -/

namespace WoodFiredTasks

open TaskService

/-- No task has four components that contradict each other. -/
def Db.Consistent (db : Db) : Prop :=
  ∀ t w c, db.wsjf? t = some w → w.components? = some c → checkComponentContradictions c = []

theorem checkComponentContradictions_eq_nil {c : WsjfComponents} :
    checkComponentContradictions c = [] ↔ ¬(c.jobSize = .one ∧ c.value = .thirteen) := by
  unfold checkComponentContradictions
  split <;> simp_all

/-! ## What is not checked -/

/-- The score is set by hand, and so it is checked, or it does not contradict itself. -/
def WsjfWriteDTO.consistentInput (w : WsjfWriteDTO) : Bool :=
  w.manual || checkComponentContradictions w.toPerComponent == []

/-- A submission that is accepted for a row on which one of value and size is locked, while the
    classification gives the other one so that they contradict each other. -/
def rescoreClash (env : Env) (db : Db) (projectId : Nat) (s : RescoreSubmission) : Bool :=
  match db.tasks.find? s.taskId with
  | none => false
  | some row =>
    let charter := db.charter? projectId
    row.projectId == projectId &&
      (match validateScoreSubmission env s.submission
        { charter, sourceText := some (sourceTextOf row.inflate) } with
      | .ok _ => true
      | .error _ => false) &&
      row.wsjf.locked.any fun l =>
        (l.value && !l.jobSize && row.wsjf.value == some .thirteen &&
          s.submission.classification.jobSizeTier == .one) ||
        (l.jobSize && !l.value && row.wsjf.jobSize == some .one &&
          ubvFor s.submission.classification charter == .thirteen)

/-- None of the three unchecked writes of the segment contradicts itself. -/
def ScoringPoint.consistentOk (env : Env) (db : Db) : ScoringPoint → Bool
  | .task (.insertTask input) => input.wsjf.all (·.consistentInput)
  | .task (.updateWrite _ _ input _) => input.wsjf.join.all (·.consistentInput)
  | .task (.sizeWrite _ taskId _ jobSize) =>
    !(jobSize == .one && (db.wsjf? taskId).any (·.value == some .thirteen))
  | .rescore projectId submissions _ => submissions.all fun s => !rescoreClash env db projectId s
  | _ => true

abbrev ScoringSys.ConsistentOk (s : ScoringSys) (a : ScoringAction) : Prop :=
  s.SegmentOk (fun env db point => point.consistentOk env db) a

/-! ## What is written -/

section Writes

variable {env : Env} {db : Db} {point : ScoringPoint} {w : ScoreWrite} {c : WsjfComponents}

/-- A score that passes the manual gate, or needs not. -/
theorem consistent_of_assertManualScore {w : WsjfWriteDTO}
    (h : assertManualScore (some w) = .ok ()) (hinput : w.consistentInput = true) :
    checkComponentContradictions w.toPerComponent = [] := by
  unfold assertManualScore at h
  dsimp only at h
  simp only [WsjfWriteDTO.consistentInput, Bool.or_eq_true, beq_iff_eq] at hinput
  obtain hmanual | hinput := hinput
  · split at h
    · cases h
    · rename_i hpass
      by_contra hne
      exact hpass ⟨hmanual, hne⟩
  · exact hinput

theorem WsjfWriteDTO.components?_columns (w : WsjfWriteDTO) :
    w.columns.components? = some w.toPerComponent := rfl

/-- A size other than 1, or a value other than 13. -/
theorem consistent_sized {row : Task} {jobSize : Fib}
    (h : ¬(jobSize = .one ∧ row.wsjf.value = some .thirteen))
    (hc : (row.wsjf.sized jobSize autoSource).components? = some c) :
    checkComponentContradictions c = [] := by
  obtain ⟨hvalue, -, -, hsize⟩ := WsjfColumns.components?_eq_some.1 hc
  rw [checkComponentContradictions_eq_nil]
  rintro ⟨hone, hthirteen⟩
  refine h ⟨?_, ?_⟩
  · rw [← hone]
    exact Option.some.inj hsize
  · rw [← hthirteen]
    exact hvalue

/-- What a rescore puts together, from a row and a classification that are consistent. -/
theorem consistent_rescored {projectId : Nat} {s : RescoreSubmission} {p : Pending}
    (hassess : assess env projectId (db.charter? projectId) s
      ((db.tasks.find? s.taskId).map Task.inflate) = .ok p) (hdb : db.Consistent)
    (hclash : rescoreClash env db projectId s = false) :
    checkComponentContradictions p.components = [] := by
  obtain ⟨prev, htask, hproject, hprev, hmerged, hserver, hlocked, hsubmission, -⟩ := assess_ok hassess
  obtain ⟨row, hrow, htask⟩ := Option.map_eq_some_iff.1 htask
  have hold : checkComponentContradictions prev = [] :=
    hdb s.taskId row.wsjf prev (Db.wsjf?_of_find? hrow) (by rw [← hprev, ← htask]; rfl)
  obtain ⟨computed, hgate⟩ := assess_gate hassess
  rw [checkComponentContradictions_eq_nil] at hold hserver ⊢
  rw [hmerged, hsubmission]
  rw [hsubmission] at hserver
  have hlocks : p.locked = row.wsjf.locked := by
    rw [hlocked, ← htask]
    rfl
  have hcolumns : row.wsjf.components? = some prev := by
    rw [← hprev, ← htask]
    rfl
  obtain ⟨hvalue, -, -, hsize⟩ := WsjfColumns.components?_eq_some.1 hcolumns
  cases hl : p.locked with
  | none => exact hserver
  | some l =>
    have hrowProject : row.projectId = projectId := by
      rw [← hproject, ← htask]
      rfl
    rw [← htask] at hgate
    simp only [rescoreClash, hrow, hrowProject, hgate, ← hlocks, hl, hvalue, hsize, beq_self_eq_true,
      Bool.true_and, Option.any_some, Bool.or_eq_false_iff] at hclash
    obtain ⟨hvalueLocked, hsizeLocked⟩ := hclash
    -- the four ways in which the two components may be locked
    rintro ⟨hone, hthirteen⟩
    simp only [mergeLocked, keepLocked] at hone hthirteen
    by_cases hlv : l.value = true
    · by_cases hls : l.jobSize = true
      · rw [if_pos hls] at hone
        rw [if_pos hlv] at hthirteen
        exact hold ⟨hone, hthirteen⟩
      · rw [if_neg hls] at hone
        rw [if_pos hlv] at hthirteen
        have htier : s.submission.classification.jobSizeTier = .one := hone
        simp [hlv, hls, hthirteen, htier] at hvalueLocked
    · by_cases hls : l.jobSize = true
      · rw [if_pos hls] at hone
        rw [if_neg hlv] at hthirteen
        have hubv : ubvFor s.submission.classification (db.charter? projectId) = .thirteen :=
          hthirteen
        simp [hlv, hls, hone, hubv] at hsizeLocked
      · rw [if_neg hls] at hone
        rw [if_neg hlv] at hthirteen
        exact hserver ⟨hone, hthirteen⟩

theorem ScoringPoint.Writes.consistent (h : point.Writes env db w) (hsound : point.Sound db)
    (hshape : db.SizedIfScored) (hdb : db.Consistent) (hok : point.consistentOk env db = true) :
    ∀ c, w.columns.components? = some c → checkComponentContradictions c = [] := by
  intro c hc
  cases h with
  | unscored hw => cases hc
  | @created input w hw =>
    obtain rfl := Option.some.inj (w.components?_columns.symm.trans hc)
    have hmanual : assertManualScore input.wsjf = .ok () := hsound
    rw [hw] at hmanual
    simp only [ScoringPoint.consistentOk, hw, Option.all_some] at hok
    exact consistent_of_assertManualScore hmanual hok
  | @updated existing id input source row w hrow hw =>
    have hmanual := hsound.2.2
    unfold updatedScore at hw
    split at hw
    · cases hw
    · obtain rfl := List.mem_singleton.1 hw
      cases hc
    · rename_i w' hwsjf
      obtain rfl := List.mem_singleton.1 hw
      obtain rfl := Option.some.inj (w'.components?_columns.symm.trans hc)
      have hjoin : input.wsjf.join = some w' := by rw [hwsjf]; rfl
      rw [hjoin] at hmanual
      simp only [ScoringPoint.consistentOk, hjoin, Option.all_some] at hok
      exact consistent_of_assertManualScore hmanual hok
  | @sized sizing taskId existing jobSize row hrow =>
    refine consistent_sized ?_ hc
    rintro ⟨hone, hthirteen⟩
    simp [ScoringPoint.consistentOk, Db.wsjf?_of_find? hrow, hone, hthirteen] at hok
  | @rescored projectId submissions actor version runId p hp =>
    obtain ⟨s, hs, hassess⟩ := mem_changedRows hp
    obtain rfl := Option.some.inj (p.write.components?_columns.symm.trans hc)
    have hclash : rescoreClash env db projectId s = false := by
      have hall := List.all_eq_true.1 hok s hs
      simpa using hall
    exact consistent_rescored hassess hdb hclash
  | @swept candidate rest row hrow =>
    have hcolumns := Db.wsjf?_of_find? hrow
    have hunscored := hshape _ row.wsjf hcolumns
      (hsound.2 candidate List.mem_cons_self row.wsjf hcolumns)
    refine consistent_sized ?_ hc
    rintro ⟨-, hthirteen⟩
    rw [hunscored.1] at hthirteen
    cases hthirteen

end Writes

/-! ## Runs -/

structure ScoringSys.ConsistentKept (s : ScoringSys) : Prop where
  consistent : s.db.Consistent
  sizedIfScored : s.db.SizedIfScored
  pointSound : s.PointSound

theorem ScoringSys.consistentKept_initial (users : List Nat) (now : Nat) :
    (ScoringSys.initial users now).ConsistentKept where
  consistent t w c hw _ := by cases hw
  sizedIfScored := sizedIfScored_initial users now
  pointSound := pointSound_initial users now

theorem ScoringSys.ConsistentKept.step {s : ScoringSys} {a : ScoringAction} (h : s.ConsistentKept)
    (hok : s.ConsistentOk a) : (s.step a).ConsistentKept := by
  refine ⟨?_, sizedIfScored_step h.sizedIfScored a, h.pointSound.step a⟩
  obtain hdb | ⟨env, point, rfl, hpoint, ws, hwrites, hws, -⟩ := s.step_scores a
  · rw [hdb]
    exact h.consistent
  · have hsound := h.pointSound point hpoint
    have hkept := hwrites.columns
      (Q := fun w => ∀ c, w.components? = some c → checkComponentContradictions c = [])
      (fun w hw => (hws w hw).consistent hsound h.sizedIfScored h.consistent (hok.at hpoint))
      (fun t w hw c hc => h.consistent t w c hw hc)
    intro t w c hw hc
    exact hkept t w hw c hc

/-- **Main theorem.** In every state of a run of the calls that write scores, no task has
    contradictory components, if the run makes no contradictory write of the three unchecked
    kinds. -/
theorem scores_consistent (users : List Nat) (now : Nat) (actions : List ScoringAction)
    (hrun : RunOk ScoringSys.step ScoringSys.ConsistentOk (.initial users now) actions) :
    Always ScoringSys.step (fun s => s.db.Consistent) (.initial users now) actions :=
  (hrun.always (fun _ _ h hok => h.step hok) (ScoringSys.consistentKept_initial users now)).mono
    fun _ h => h.consistent

/-- A run with a score of each kind: set by hand, raw and rescored. -/
def consistentRun : List ScoringAction :=
  createProjectSteps ++
    scoringSteps (.task (.createTask
      (scoredInput none (some (manualScore ⟨.thirteen, .three, .five, .two⟩))))) 2 ++
    scoringSteps (.task (.updateTask 1
      { wsjf := some (some { toPerComponent := ⟨.two, .three, .five, .one⟩ }) } .user none)) 3

theorem scores_consistent_sample :
    Always ScoringSys.step (fun s => s.db.Consistent) (.initial [] 0) consistentRun :=
  scores_consistent [] 0 consistentRun (by decide +kernel)

/-- A raw score may contradict itself. -/
theorem scores_inconsistent :
    ¬ ∀ (users : List Nat) (now : Nat) (actions : List ScoringAction),
      (actions.foldl ScoringSys.step (.initial users now)).db.Consistent := by
  intro h
  have hconsistent := h [] 0 (createProjectSteps ++ scoringSteps (.task (.createTask
    (scoredInput none (some { toPerComponent := ⟨.thirteen, .three, .five, .one⟩ })))) 2) 1
  have hcolumns : (((createProjectSteps ++ scoringSteps (.task (.createTask
      (scoredInput none (some { toPerComponent := ⟨.thirteen, .three, .five, .one⟩ })))) 2).foldl
      ScoringSys.step (.initial [] 0)).db.wsjf? 1).bind WsjfColumns.components? =
        some ⟨.thirteen, .three, .five, .one⟩ := by
    decide +kernel
  obtain ⟨w, hw, hc⟩ := Option.bind_eq_some_iff.1 hcolumns
  have hnone := hconsistent w _ hw hc
  cases hnone

end WoodFiredTasks
