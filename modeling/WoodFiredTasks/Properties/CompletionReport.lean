import WoodFiredTasks.Services.CompletionReport

set_option autoImplicit false

/-! # What the completion report says

The rows of the report are the tasks that it should have, and its groups count them. Two things
depend on more than that. `completed_at` is stored without a zone and read back as local time, so
that the time a task took is off by what the local clock is ahead of UTC. And the tasks without an
assignee are counted under a name that an assignee may have. -/

namespace WoodFiredTasks

open TaskService

/-! ## The report as it should be -/

/-- The instant that is stored, in milliseconds. -/
def Stamp.instant : Stamp → Int
  | .iso ms => ms
  | .sqlite sec => sec * 1000

/-- The task is done, its completion lies in the range by whole seconds, and it is one that the
    filters ask for. -/
structure Task.Reported (host : ReportHost) (range : Bound × Bound) (input : CompletionReportInput)
    (t : Task) : Prop where
  done : t.status = .done
  completed : ∃ c, t.completedAt = some c ∧ range.1.second host ≤ c.second ∧
    (c.second : Int) ≤ range.2.second host
  project : ∀ p, input.projectId = some p → t.projectId = p
  assignee : ∀ a, input.assignee = some a → t.assignee = some a

/-- From the creation to the completion. -/
def elapsed (created completed : Stamp) : Int := completed.instant - created.instant

/-- The report has the rows that it should have, with the times that the tasks took, and each of its
    groups counts the rows by its key; what it shows of the tasks without an assignee is apart from
    what it shows of any assignee. -/
structure ReportCorrect (host : ReportHost) (db : Db) (range : Bound × Bound)
    (input : CompletionReportInput) (report : CompletionReport) : Prop where
  rows : ∀ row, row ∈ report.rows ↔
    ∃ t ∈ db.tasks.rows, t.Reported host range input ∧ row = t.reportRow elapsed
  distinct : (report.rows.map (·.id)).Nodup
  total : report.total = report.rows.length
  byProject : Counts report.byProject (report.rows.map (·.projectId))
  byAssignee : ∃ groups : List (Option String × Nat),
    Counts groups (report.rows.map (·.assignee)) ∧
      report.byAssignee.Perm (groups.map fun g => (g.1.getD unassignedKey, g.2))
  byPriority : Counts report.byPriority (report.rows.map (·.priority))
  dailyThroughput : Counts report.dailyThroughput (report.rows.map (·.completedAt.day))
  sums : (report.byProject.map Prod.snd).sum = report.total ∧
    (report.byAssignee.map Prod.snd).sum = report.total ∧
    (report.byPriority.map Prod.snd).sum = report.total ∧
    (report.dailyThroughput.map Prod.snd).sum = report.total

/-! ## When it is -/

/-- What the local clock adds to a stored instant. -/
def ReportHost.offset (host : ReportHost) : Stamp → Int
  | .iso _ => 0
  | .sqlite sec => host.utcOffset sec

/-- The offset at the completion is that at the creation, or the task has taken no time by either
    reading. -/
def Task.OffsetsCancel (host : ReportHost) (t : Task) : Prop :=
  ∀ c, t.completedAt = some c →
    host.offset c = host.offset t.createdAt ∨
      (elapsed t.createdAt c + 500) / 1000 ≤ 0 ∧
        (elapsed t.createdAt c + 500) / 1000 ≤ host.offset c - host.offset t.createdAt

/-- The offsets do not show in the times, and nobody who is in the report is called what the tasks
    without an assignee in it are called. -/
structure ReportCondition (host : ReportHost) (db : Db) (range : Bound × Bound)
    (input : CompletionReportInput) : Prop where
  times : ∀ t ∈ db.tasks.rows, t.Reported host range input → t.OffsetsCancel host
  names : ∀ t ∈ db.tasks.rows, t.Reported host range input → t.assignee = none →
    ∀ t' ∈ db.tasks.rows, t'.Reported host range input → t'.assignee ≠ some unassignedKey

section Report

variable {env : Env} {host : ReportHost} {db : Db} {now : Nat} {range : Bound × Bound}
  {input : CompletionReportInput} {t : Task}

theorem Task.completedIn_iff :
    t.completedIn host range.1 range.2 input.projectId input.assignee = true ↔
      t.Reported host range input := by
  simp only [Task.completedIn, Bool.and_eq_true, beq_iff_eq, Option.any_eq_true, decide_eq_true_eq,
    Option.all_eq_true]
  constructor
  · rintro ⟨⟨⟨hdone, hcompleted⟩, hproject⟩, hassignee⟩
    exact ⟨hdone, hcompleted, hproject, hassignee⟩
  · rintro ⟨hdone, hcompleted, hproject, hassignee⟩
    exact ⟨⟨⟨hdone, hcompleted⟩, hproject⟩, hassignee⟩

/-- The tasks that are read. -/
theorem mem_findCompletedInRange :
    t ∈ TaskRepository.findCompletedInRange env host db range.1 range.2 input.projectId
        input.assignee ↔
      ∃ row ∈ db.tasks.rows, row.Reported host range input ∧ t = row.listed := by
  simp only [TaskRepository.findCompletedInRange, List.mem_map, List.mem_insertionSort,
    List.mem_filter, (env.scan_perm _).mem_iff, Task.completedIn_iff]
  constructor
  · rintro ⟨row, ⟨hrow, hreported⟩, rfl⟩
    exact ⟨row, hrow, hreported, rfl⟩
  · rintro ⟨row, hrow, hreported, rfl⟩
    exact ⟨row, ⟨hrow, hreported⟩, rfl⟩

theorem ids_findCompletedInRange :
    ((TaskRepository.findCompletedInRange env host db range.1 range.2 input.projectId
      input.assignee).map (·.id)).Nodup := by
  have hids : ∀ l : List Task, (l.map Task.listed).map (·.id) = l.map (·.id) := fun l => by simp
  rw [TaskRepository.findCompletedInRange, hids]
  have hscan : ((env.scan db.tasks.rows).map (·.id)).Nodup :=
    ((env.scan_perm _).map _).nodup_iff.2 db.tasks.nodup
  exact ((List.perm_insertionSort _ _).map _).nodup_iff.2 ((List.filter_sublist.map _).nodup hscan)

/-- A reported row does not depend on what the listing makes of the other stamps. -/
theorem Task.Reported.reportRow_listed (h : t.Reported host range input)
    (time : Stamp → Stamp → Int) : t.listed.reportRow time = t.reportRow time := by
  obtain ⟨c, hc, -⟩ := h.completed
  simp [Task.reportRow, Task.listed, Task.inflate, hc]

/-- What is read back is off by the offsets. -/
theorem dateParse_sub (created completed : Stamp) :
    host.dateParse completed - host.dateParse created =
      elapsed created completed - (host.offset completed - host.offset created) * 1000 := by
  have hparse : ∀ s : Stamp, host.dateParse s = s.instant - host.offset s * 1000 := by
    intro s
    cases s with
    | iso ms => simp [ReportHost.dateParse, Stamp.instant, ReportHost.offset]
    | sqlite sec =>
      simp only [ReportHost.dateParse, Stamp.instant, ReportHost.offset]
      omega
  rw [hparse, hparse, elapsed]
  omega

/-- The offset does not show in the rounded time when it is none, or the time is none either way. -/
theorem roundedSeconds_sub_iff (ms skew : Int) :
    roundedSeconds (ms - skew * 1000) = roundedSeconds ms ↔
      skew = 0 ∨ (ms + 500) / 1000 ≤ 0 ∧ (ms + 500) / 1000 ≤ skew := by
  unfold roundedSeconds
  omega

theorem Task.Reported.reportRow_eq_iff (h : t.Reported host range input) :
    (t.reportRow fun created completed => host.dateParse completed - host.dateParse created) =
      t.reportRow elapsed ↔ t.OffsetsCancel host := by
  obtain ⟨c, hc, -⟩ := h.completed
  simp only [Task.reportRow, hc, Option.getD_some, dateParse_sub, CompletionReportRow.mk.injEq,
    true_and, roundedSeconds_sub_iff, Task.OffsetsCancel, Option.some.injEq, forall_eq']
  rw [sub_eq_zero]

/-- The rows that the code makes. -/
def reportRows (env : Env) (host : ReportHost) (db : Db) (range : Bound × Bound)
    (input : CompletionReportInput) : List CompletionReportRow :=
  (TaskRepository.findCompletedInRange env host db range.1 range.2 input.projectId
    input.assignee).map fun t => t.reportRow fun created completed =>
      host.dateParse completed - host.dateParse created

theorem mem_reportRows {row : CompletionReportRow} : row ∈ reportRows env host db range input ↔
    ∃ t ∈ db.tasks.rows, t.Reported host range input ∧ row = t.reportRow fun created completed =>
      host.dateParse completed - host.dateParse created := by
  simp only [reportRows, List.mem_map, mem_findCompletedInRange]
  constructor
  · rintro ⟨_, ⟨t, ht, hreported, rfl⟩, rfl⟩
    exact ⟨t, ht, hreported, hreported.reportRow_listed _⟩
  · rintro ⟨t, ht, hreported, rfl⟩
    exact ⟨t.listed, ⟨t, ht, hreported, rfl⟩, hreported.reportRow_listed _⟩

theorem ids_reportRows : ((reportRows env host db range input).map (·.id)).Nodup := by
  have hids : ∀ (l : List Task) time,
      (l.map fun t => t.reportRow time).map (·.id) = l.map (·.id) := by
    intro l time
    simp [Task.reportRow]
  rw [reportRows, hids]
  exact ids_findCompletedInRange

/-- The rows are right when the offsets do not show. -/
theorem reportRows_correct_iff :
    (∀ row, row ∈ reportRows env host db range input ↔
      ∃ t ∈ db.tasks.rows, t.Reported host range input ∧ row = t.reportRow elapsed) ↔
    ∀ t ∈ db.tasks.rows, t.Reported host range input → t.OffsetsCancel host := by
  constructor
  · intro h t ht hreported
    obtain ⟨t', ht', hreported', heq⟩ := (h _).1 (mem_reportRows.2 ⟨t, ht, hreported, rfl⟩)
    -- rows with one id are of one task
    obtain rfl : t = t' := db.tasks.key_inj ht ht' (congrArg CompletionReportRow.id heq)
    exact hreported.reportRow_eq_iff.1 heq
  · intro h row
    rw [mem_reportRows]
    constructor
    · rintro ⟨t, ht, hreported, rfl⟩
      exact ⟨t, ht, hreported, hreported.reportRow_eq_iff.2 (h t ht hreported)⟩
    · rintro ⟨t, ht, hreported, rfl⟩
      exact ⟨t, ht, hreported, (hreported.reportRow_eq_iff.2 (h t ht hreported)).symm⟩

/-- An assignee's tasks are among the keys when the assignee is in the report. -/
theorem mem_assignees {assignee : Option String} :
    assignee ∈ (reportRows env host db range input).map (·.assignee) ↔
      ∃ t ∈ db.tasks.rows, t.Reported host range input ∧ t.assignee = assignee := by
  rw [List.mem_map]
  constructor
  · rintro ⟨row, hrow, rfl⟩
    obtain ⟨t, ht, hreported, rfl⟩ := mem_reportRows.1 hrow
    exact ⟨t, ht, hreported, rfl⟩
  · rintro ⟨t, ht, hreported, rfl⟩
    exact ⟨_, mem_reportRows.2 ⟨t, ht, hreported, rfl⟩, rfl⟩

/-- The labels keep the assignees apart when nobody is called `(unassigned)`. -/
theorem label_inj_iff {keys : List (Option String)} :
    (∀ a ∈ keys, ∀ b ∈ keys, a.getD unassignedKey = b.getD unassignedKey → a = b) ↔
      (none ∈ keys → some unassignedKey ∉ keys) := by
  constructor
  · intro h hnone hsome
    exact nomatch h none hnone _ hsome rfl
  · intro h a ha b hb heq
    cases a with
    | none =>
      cases b with
      | none => rfl
      | some b => exact absurd ((congrArg some heq : some unassignedKey = some b) ▸ hb) (h ha)
    | some a =>
      cases b with
      | none => exact absurd ((congrArg some heq : some a = some unassignedKey) ▸ ha) (h hb)
      | some b => exact congrArg some heq

/-- The labelled counts show the unassigned tasks apart when the labels are apart. -/
theorem labelled_iff {keys : List (Option String)} {counted : List (String × Nat)}
    (h : Counts counted (keys.map fun k => k.getD unassignedKey)) :
    (∃ groups : List (Option String × Nat), Counts groups keys ∧
      counted.Perm (groups.map fun g => (g.1.getD unassignedKey, g.2))) ↔
      (none ∈ keys → some unassignedKey ∉ keys) := by
  rw [← label_inj_iff]
  constructor
  · rintro ⟨groups, hgroups, hperm⟩ a ha b hb heq
    have hnodup := (hperm.map Prod.fst).nodup_iff.1 h.nodup
    have hcomp : (groups.map fun g => (g.1.getD unassignedKey, g.2)).map Prod.fst =
        (groups.map Prod.fst).map fun k => k.getD unassignedKey := by simp
    rw [hcomp] at hnodup
    exact List.inj_on_of_nodup_map hnodup (hgroups.mem_fst.2 ha) (hgroups.mem_fst.2 hb) heq
  · intro hinj
    exact ⟨countsOf keys, counts_countsOf keys, h.unique ((counts_countsOf keys).rename hinj)⟩

/-- **Main theorem.** An accepted request gets a correct report exactly when the offsets of the local
    clock do not show in it and nobody in it is called `(unassigned)` next to an unassigned task. -/
theorem completion_report_correct_iff (h : TaskSchema.completionReport env input = []) :
    (∃ report, getCompletionReport env host db now input = .ok report ∧
      ReportCorrect host db (resolveRange now input) input report) ↔
      ReportCondition host db (resolveRange now input) input := by
  let rows := reportRows env host db (resolveRange now input) input
  have hreport : getCompletionReport env host db now input = .ok
      { range := resolveRange now input
        total := rows.length
        rows := rows
        byProject := aggregate (fun a b => host.localeLe a.repr b.repr) (rows.map (·.projectId))
        byAssignee := aggregate host.localeLe (rows.map fun r => r.assignee.getD unassignedKey)
        byPriority := aggregate (fun a b => host.localeLe a.text b.text) (rows.map (·.priority))
        dailyThroughput := aggregate (fun a b => decide (a ≤ b))
          (rows.map (·.completedAt.day)) } := by
    rw [getCompletionReport, h]
    rfl
  have hassignee : Counts (aggregate host.localeLe (rows.map fun r => r.assignee.getD unassignedKey))
      ((rows.map (·.assignee)).map fun k => k.getD unassignedKey) := by
    rw [List.map_map]
    exact counts_aggregate _ _
  have hnames : (none ∈ rows.map (·.assignee) → some unassignedKey ∉ rows.map (·.assignee)) ↔
      ∀ t ∈ db.tasks.rows, t.Reported host (resolveRange now input) input → t.assignee = none →
        ∀ t' ∈ db.tasks.rows, t'.Reported host (resolveRange now input) input →
          t'.assignee ≠ some unassignedKey := by
    rw [mem_assignees, mem_assignees]
    constructor
    · intro hkeys t ht hreported hnone t' ht' hreported' hsome
      exact hkeys ⟨t, ht, hreported, hnone⟩ ⟨t', ht', hreported', hsome⟩
    · rintro hrows ⟨t, ht, hreported, hnone⟩ ⟨t', ht', hreported', hsome⟩
      exact hrows t ht hreported hnone t' ht' hreported' hsome
  constructor
  · rintro ⟨report, hok, hcorrect⟩
    obtain rfl := Except.ok.inj (hreport.symm.trans hok)
    exact ⟨reportRows_correct_iff.1 hcorrect.rows,
      hnames.1 ((labelled_iff hassignee).1 hcorrect.byAssignee)⟩
  · intro hcond
    refine ⟨_, hreport, ?_⟩
    refine
      { rows := reportRows_correct_iff.2 hcond.times
        distinct := ids_reportRows
        total := rfl
        byProject := counts_aggregate _ _
        byAssignee := (labelled_iff hassignee).2 (hnames.2 hcond.names)
        byPriority := counts_aggregate _ _
        dailyThroughput := counts_aggregate _ _
        sums := ⟨?_, ?_, ?_, ?_⟩ }
    · exact (counts_aggregate _ _).sum.trans (List.length_map _)
    · exact hassignee.sum.trans (by simp)
    · exact (counts_aggregate _ _).sum.trans (List.length_map _)
    · exact (counts_aggregate _ _).sum.trans (List.length_map _)

end Report

/-! ### A task that takes a minute -/

/-- A machine whose clock is ahead of UTC by this many seconds. -/
def hostAt (offset : Int) : ReportHost where
  datetime := fun _ => 0
  utcOffset := fun _ => offset
  localeLe := fun a b => decide (a ≤ b)

/-- A task that is created at 0 and done a minute later. -/
def minuteDb : Db :=
  (Db.withTasks [plainTask .inProgress none]).applyUpdate 1 { status := some .done }
    (some .inProgress) 60000

theorem minuteDb_row {host : ReportHost} : ∃ t ∈ minuteDb.tasks.rows,
    t.Reported host (resolveRange 120000 { days := some 1 }) { days := some 1 } ∧
      (t.reportRow elapsed).timeToCompleteSeconds = 60 := by
  refine ⟨_, List.mem_cons_self, ⟨rfl, ⟨.sqlite 60, rfl, ?_, ?_⟩, fun _ h => (nomatch h),
    fun _ h => (nomatch h)⟩, rfl⟩
  · show (120000 - 1 * 24 * 60 * 60 * 1000) / 1000 ≤ (60 : Int)
    decide
  · show (60 : Int) ≤ 120000 / 1000
    decide

/-- On a machine that runs in UTC the report of the last day is correct. -/
theorem completion_report_correct_utc : ∃ report,
    getCompletionReport .undisturbed (hostAt 0) minuteDb 120000 { days := some 1 } = .ok report ∧
      ReportCorrect (hostAt 0) minuteDb (resolveRange 120000 { days := some 1 }) { days := some 1 }
        report := by
  refine (completion_report_correct_iff (by decide)).2 ⟨fun t _ _ c _ => .inl ?_, ?_⟩
  · have hzero : ∀ s : Stamp, (hostAt 0).offset s = 0 := by
      intro s
      cases s <;> rfl
    rw [hzero, hzero]
  · have hnobody : ∀ t ∈ minuteDb.tasks.rows, t.assignee = none := by decide +kernel
    intro _ _ _ _ t ht _ hname
    rw [hnobody t ht] at hname
    cases hname

/-- An hour ahead of UTC, the task that took a minute is reported to have taken none. -/
theorem completion_report_off_by_offset : ¬ ∃ report,
    getCompletionReport .undisturbed (hostAt 3600) minuteDb 120000 { days := some 1 } = .ok report ∧
      ReportCorrect (hostAt 3600) minuteDb (resolveRange 120000 { days := some 1 })
        { days := some 1 } report := by
  rintro ⟨report, hok, hcorrect⟩
  have htimes : (getCompletionReport .undisturbed (hostAt 3600) minuteDb 120000
      { days := some 1 }).toOption.map (fun r => r.rows.map (·.timeToCompleteSeconds)) =
        some [0] := by decide +kernel
  rw [hok] at htimes
  have hrows : report.rows.map (·.timeToCompleteSeconds) = [0] := Option.some.inj htimes
  obtain ⟨t, ht, hreported, htime⟩ := minuteDb_row
  have hmem := List.mem_map_of_mem (f := (·.timeToCompleteSeconds))
    ((hcorrect.rows _).2 ⟨t, ht, hreported, rfl⟩)
  rw [hrows, htime] at hmem
  exact absurd hmem (by decide)

end WoodFiredTasks
