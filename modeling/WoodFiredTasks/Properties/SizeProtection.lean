import WoodFiredTasks.Lib.Runs
import WoodFiredTasks.ScoringCalls

set_option autoImplicit false

/-! # Sizes that survive a resize

An update that changes the minutes of a task recomputes its size if the provenance of the size is
`auto`. That says "derived from the minutes" for a size-only write and "computed by the gate" for a
classified score alike, so the recomputation also reaches sizes that it should leave alone, and it
rewrites the provenance of all components. -/

namespace WoodFiredTasks

open TaskService

/-! ## Steps of an update -/

/-- The update that a segment belongs to: the task and the input. -/
def ScoringPoint.updating : ScoringPoint → Option (Nat × UpdateTaskInput)
  | .task (.updateWrite _ id input _) => some (id, input)
  | .task (.sizeRead (.updated _ input _) id _) => some (id, input)
  | .task (.sizeWrite (.updated _ input _) id _ _) => some (id, input)
  | .task (.announce existing _ input _) => some (existing.id, input)
  | _ => none

/-- The size of the task comes from a score: set by hand, rescored or classified. -/
def Db.sizeScored (db : Db) (t : Nat) : Bool :=
  (db.rowsOf t).getLast?.any fun h =>
    h.components?.isSome && (h.trigger == .manual || h.trigger == .rescore || h.classifications.isSome)

/-- The size of the task comes from a score or is locked. -/
def Db.sizeProtected (db : Db) (t : Nat) : Bool :=
  db.sizeScored t || (db.wsjf? t).any fun w => w.locked.any (·.jobSize)

/-- The provenance of the three other components. -/
def WsjfColumns.otherSources (w : WsjfColumns) : Option (SourceFlag × SourceFlag × SourceFlag) :=
  w.source.map fun s => (s.value, s.timeCriticality, s.riskOpportunity)

/-- What a step of an update may do to the scores of its task: without a score in the input it keeps
    a protected size and the provenance of the other components, and a score in the input is all
    that it ever writes. -/
def ScoringSys.SizeKept (s : ScoringSys) (a : ScoringAction) : Prop :=
  ∀ t input, (s.pointAt a).bind ScoringPoint.updating = some (t, input) →
    (input.wsjf = none →
      (s.db.sizeProtected t = true →
        ((s.step a).db.wsjf? t).map (·.jobSize) = (s.db.wsjf? t).map (·.jobSize)) ∧
      ((s.step a).db.wsjf? t).map (·.otherSources) = (s.db.wsjf? t).map (·.otherSources)) ∧
    ∀ w, input.wsjf = some (some w) →
      (s.step a).db.wsjf? t = s.db.wsjf? t ∨ (s.step a).db.wsjf? t = some w.columns ∧
        ∃ existing source, s.pointAt a = some (.task (.updateWrite existing t input source))

/-- A resize finds nothing that it would take away: an input without a score meets a row with all
    provenance `auto` and a size that is not protected or is the new one, and a score in the input
    has all provenance `auto` and the new size. -/
def ScoringPoint.sizeOk (db : Db) : ScoringPoint → Bool
  | .task (.sizeWrite (.updated _ input _) t _ jobSize) =>
    match input.wsjf with
    | none => (db.wsjf? t).all fun w =>
      w.source == some autoSource && (w.jobSize == some jobSize || !db.sizeProtected t)
    | some none => true
    | some (some w) => w.source == some autoSource && w.jobSize == jobSize
  | _ => true

abbrev ScoringSys.SizeOk (s : ScoringSys) (a : ScoringAction) : Prop :=
  s.SegmentOk (fun _ db point => point.sizeOk db) a

/-! ## What the segments of an update write -/

/-- The columns of the task after a segment of an update. -/
def ScoringPoint.UpdateColumns (db db' : Db) : ScoringPoint → Prop
  | .task (.updateWrite _ id input _) =>
    ∃ row, db.tasks.find? id = some row ∧ db'.wsjf? id = some (input.newWsjf row.wsjf)
  | .task (.sizeRead ..) => db' = db
  | .task (.sizeWrite _ id _ jobSize) =>
    ∃ row, db.tasks.find? id = some row ∧ db'.wsjf? id = some (row.wsjf.sized jobSize autoSource)
  | .task (.announce ..) => ∀ t, db'.wsjf? t = db.wsjf? t
  | _ => True

theorem leaves_updateColumns (point : ScoringPoint) : Leaves point.segment fun v next db =>
    point.Effect v.env v.now v.db next db ∧ point.UpdateColumns v.db db := by
  have hother : (∀ db db', point.UpdateColumns db db') → Leaves point.segment fun v next db =>
      point.Effect v.env v.now v.db next db ∧ point.UpdateColumns v.db db := fun h =>
    (leaves_scoring point).post fun v next db heffect => ⟨heffect, h v.db db⟩
  cases point with
  | task point =>
    refine (leaves_scoring _).and ?_
    -- the columns after a task segment, whatever point it ends at
    have hthen : Leaves point.segment
        (fun v _ db => (ScoringPoint.task point).UpdateColumns v.db db) →
        Leaves (ScoringPoint.task point).segment
          fun v _ db => (ScoringPoint.task point).UpdateColumns v.db db := by
      intro h
      refine (h.bindPublishes fun next => publishes_pure (next.map ScoringPoint.task)).post ?_
      intro v _ db h
      exact h.choose_spec.1
    cases point with
    | updateWrite existing id input source =>
      refine hthen ((writeUpdate_writes existing id input).leavesThen.post ?_)
      intro v next db h
      obtain ⟨_, ⟨row, hrow, -, hcolumns⟩, -⟩ := h
      exact ⟨row, hrow, hcolumns⟩
    | sizeRead sizing id jobSize => exact hthen ((leaves_segment _).post fun v next db h => h.1)
    | sizeWrite sizing id existing jobSize =>
      refine hthen ((leaves_segment _).post ?_)
      intro v next db h
      obtain ⟨⟨hsome, hsame, -⟩, -⟩ := h
      obtain ⟨row, hrow⟩ := Option.isSome_iff_exists.1 hsome
      refine ⟨row, hrow, ?_⟩
      rw [Db.wsjf?, hsame.tasks, Db.find?_writeTask_self, hrow]
      rfl
    | announce existing updated input source =>
      refine hthen ((leaves_segment _).post ?_)
      intro v next db h
      obtain ⟨-, rfl | ⟨-, -, rfl⟩⟩ := h
      · exact fun t => rfl
      · exact Db.wsjf?_cascade _ _ _
    | _ => exact hthen ((leaves_segment _).post fun v next db h => trivial)
  | project point => exact hother fun _ _ => trivial
  | rescore => exact hother fun _ _ => trivial
  | findCandidates => exact hother fun _ _ => trivial
  | backfill => exact hother fun _ _ => trivial

theorem ScoringSys.step_updateColumns {s : ScoringSys} {a : ScoringAction} {point : ScoringPoint}
    (hpoint : s.pointAt a = some point) :
    (s.step a).db = s.db ∨ point.UpdateColumns s.db (s.step a).db := by
  obtain hdb | ⟨p, env, point', next, db', rfl, hpoint', ⟨-, hcolumns⟩, hstep⟩ :=
    Shared.step_cases (r := scoringCalls) (s := s) (a := a)
      (E := fun point env now db next db' => point.Effect env now db next db' ∧
        point.UpdateColumns db db') leaves_updateColumns
  · exact .inl hdb
  · have hat : s.procs p = some point := hpoint
    obtain rfl := Option.some.inj (hat.symm.trans hpoint')
    rw [ScoringSys.step, hstep]
    exact .inr hcolumns

/-! ## Runs -/

theorem ScoringSys.sizeKept {s : ScoringSys} {a : ScoringAction} (hsound : s.PointSound)
    (hok : s.SizeOk a) : s.SizeKept a := by
  intro t input hupdating
  obtain ⟨point, hpoint, hupdating⟩ := Option.bind_eq_some_iff.1 hupdating
  have hsame : (s.step a).db.wsjf? t = s.db.wsjf? t →
      (input.wsjf = none →
        (s.db.sizeProtected t = true →
          ((s.step a).db.wsjf? t).map (·.jobSize) = (s.db.wsjf? t).map (·.jobSize)) ∧
        ((s.step a).db.wsjf? t).map (·.otherSources) = (s.db.wsjf? t).map (·.otherSources)) ∧
      ∀ w, input.wsjf = some (some w) →
        (s.step a).db.wsjf? t = s.db.wsjf? t ∨ (s.step a).db.wsjf? t = some w.columns ∧
          ∃ existing source, s.pointAt a = some (.task (.updateWrite existing t input source)) := by
    intro h
    rw [h]
    exact ⟨fun _ => ⟨fun _ => rfl, rfl⟩, fun _ _ => .inl rfl⟩
  obtain hdb | hcolumns := s.step_updateColumns hpoint
  · exact hsame (by rw [hdb])
  · have hpointSound := hsound point
    cases point with
    | task point =>
      cases point with
      | updateWrite existing id input' source =>
        obtain ⟨rfl, rfl⟩ := Prod.mk.inj (Option.some.inj hupdating)
        obtain ⟨row, hrow, hcolumns⟩ := hcolumns
        rw [Db.wsjf?_of_find? hrow, hcolumns]
        refine ⟨fun hnone => ?_, fun w hw => .inr ⟨?_, existing, source, hpoint⟩⟩
        · simp [UpdateTaskDTO.newWsjf, hnone]
        · simp [UpdateTaskDTO.newWsjf, hw]
      | sizeRead sizing id jobSize =>
        cases sizing with
        | created => cases hupdating
        | updated existing input' source => exact hsame (by rw [show _ = _ from hcolumns])
      | sizeWrite sizing id existing jobSize =>
        cases sizing with
        | created => cases hupdating
        | updated before input' source =>
          obtain ⟨rfl, rfl⟩ := Prod.mk.inj (Option.some.inj hupdating)
          cases a with
          | step p env =>
            have hat : s.procs p = some _ := hpoint
            obtain ⟨⟨hnow, -, -⟩, -⟩ := hpointSound hat
            obtain ⟨row, hrow, hcolumns⟩ := hcolumns
            have hbefore := Db.wsjf?_of_find? hrow
            have hpointOk := hok.at hat
            simp only [ScoringPoint.sizeOk, hbefore, Option.all_some] at hpointOk
            rw [hbefore] at hnow
            refine ⟨fun hnone => ?_, fun w hw => .inl ?_⟩
            · simp only [hnone, Bool.and_eq_true, beq_iff_eq, Bool.or_eq_true,
                Bool.not_eq_true'] at hpointOk
              obtain ⟨hsource, hsize⟩ := hpointOk
              rw [hbefore, hcolumns]
              refine ⟨fun hprotected => ?_, ?_⟩
              · rw [hprotected] at hsize
                simp [WsjfColumns.sized, hsize.resolve_right (by simp)]
              · simp [WsjfColumns.otherSources, WsjfColumns.sized, hsource]
            · simp only [hw, Bool.and_eq_true, beq_iff_eq] at hpointOk
              obtain ⟨hsource, hsize⟩ := hpointOk
              have hrowColumns : row.wsjf = w.columns := by
                rw [Option.some.inj hnow]
                simp [UpdateTaskDTO.newWsjf, hw]
              rw [hbefore, hcolumns, hrowColumns]
              simp [WsjfColumns.sized, WsjfWriteDTO.columns, hsource, hsize]
          | call p c => cases hpoint
          | crash p => cases hpoint
          | wait ms => cases hpoint
      | announce existing updated input' source => exact hsame (hcolumns t)
      | _ => cases hupdating
    | _ => cases hupdating

/-- The minutes of task 1 are changed. -/
def changeMinutes (minutes : Nat) : ScoringCall :=
  .task (.updateTask 1 { estimatedMinutes := some (some minutes) } .user none)

/-- The minutes of a task without a score change, and those of one that is scored by hand. -/
def resizingRun : List ScoringAction :=
  createProjectSteps ++
    scoringSteps (.task (.createTask (scoredInput (some 20) none))) 5 ++
    scoringSteps (changeMinutes 200) 5 ++
    scoringSteps (.task (.updateTask 1
      { wsjf := some (some (manualScore ⟨.two, .three, .five, .one⟩)) } .user none)) 3 ++
    scoringSteps (changeMinutes 20) 3

/-- A classified task whose minutes change, up to the write of the new size. -/
def clobberingRun : List ScoringAction :=
  createProjectSteps ++
    scoringSteps (.task (.createTask (scoredInput (some 20) (some (plainScore .three))))) 2 ++
    scoringSteps (changeMinutes 1000) 3

end WoodFiredTasks
