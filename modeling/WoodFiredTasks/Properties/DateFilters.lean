import Mathlib.Data.String.Basic
import WoodFiredTasks.Lib.DateTimeText
import WoodFiredTasks.Services.CompletionReport
import WoodFiredTasks.Services.ListTasks
import WoodFiredTasks.Services.Ranking

set_option autoImplicit false

/-! # Date filters and time

`due_before` and `due_after` compare texts in SQLite, `CompletionReportSchema` compares texts in
JavaScript. The schemas let through UTC date-times with or without seconds and with any number of
digits behind the point. The comparisons follow time on two of these texts exactly if the order of
their characters does, which it does not where one text goes on where the other ends. -/

namespace WoodFiredTasks

open DateTimeText (isDateTime)

/-- The instant that a text names. -/
def instantOf (s : String) : ℚ := DateTimeText.instant s.toList

/-- The order of the texts is not the order of their instants. -/
def Misordered (a b : String) : Prop := DateTimeText.Misordered a.toList b.toList

instance (a b : String) : Decidable (Misordered a b) :=
  inferInstanceAs (Decidable (DateTimeText.Misordered _ _))

/-- The texts that a schema accepts are UTC date-times. -/
def AcceptsDateTimes (isDatetime : String → Bool) : Prop :=
  ∀ s, isDatetime s = true → isDateTime s.toList = true

theorem le_iff_instantOf_le {a b : String} (ha : isDateTime a.toList = true)
    (hb : isDateTime b.toList = true) : (a ≤ b ↔ instantOf a ≤ instantOf b) ↔ ¬ Misordered a b := by
  rw [String.le_iff_toList_le]
  exact DateTimeText.le_iff ha hb

/-! ## The filters -/

section Filters

variable {host : ListHost} {db : Db} {f : TaskFilters} {t : Task} {bound : String}

/-- The task is found exactly if it is found without `due_before` and is due by then. -/
def FollowsDueBefore (host : ListHost) (db : Db) (f : TaskFilters) (t : Task) (bound : String) :
    Prop :=
  t.meets host db f = true ↔ t.meets host db { f with dueBefore := none } = true ∧
    ∃ due, t.dueDate = some due ∧ instantOf due ≤ instantOf bound

/-- The task is found exactly if it is found without `due_after` and is due from then on. -/
def FollowsDueAfter (host : ListHost) (db : Db) (f : TaskFilters) (t : Task) (bound : String) :
    Prop :=
  t.meets host db f = true ↔ t.meets host db { f with dueAfter := none } = true ∧
    ∃ due, t.dueDate = some due ∧ instantOf bound ≤ instantOf due

theorem meets_dueBefore (hbound : f.dueBefore = some bound) : t.meets host db f = true ↔
    t.meets host db { f with dueBefore := none } = true ∧
      ∃ due, t.dueDate = some due ∧ due ≤ bound := by
  simp only [Task.meets, hbound, Option.all_some, Option.all_none, Bool.and_eq_true,
    Option.any_eq_true, decide_eq_true_eq, and_true]
  tauto

theorem meets_dueAfter (hbound : f.dueAfter = some bound) : t.meets host db f = true ↔
    t.meets host db { f with dueAfter := none } = true ∧
      ∃ due, t.dueDate = some due ∧ bound ≤ due := by
  simp only [Task.meets, hbound, Option.all_some, Option.all_none, Bool.and_eq_true,
    Option.any_eq_true, decide_eq_true_eq, and_true]
  tauto

/-- A clause on the due date follows time if its comparison does, or if the task is not found
    anyway. -/
theorem clause_iff {found without : Prop} {due? : Option String} {textual timely bad : String → Prop}
    (hfound : found ↔ without ∧ ∃ due, due? = some due ∧ textual due)
    (horder : ∀ due, due? = some due → ((textual due ↔ timely due) ↔ ¬ bad due)) :
    (found ↔ without ∧ ∃ due, due? = some due ∧ timely due) ↔
      (without → ∀ due, due? = some due → ¬ bad due) := by
  rw [hfound]
  cases due? with
  | none => simp
  | some due =>
    have h := horder due rfl
    by_cases hwithout : without
    · simpa [hwithout] using h
    · simp [hwithout]

theorem isDatetime_dueBefore (h : f.Accepted host) (hbound : f.dueBefore = some bound) :
    host.isDatetime bound = true := by
  by_contra hno
  simp [TaskFilters.Accepted, TaskSchema.taskFilters, hbound, TaskSchema.optional, hno] at h

theorem isDatetime_dueAfter (h : f.Accepted host) (hbound : f.dueAfter = some bound) :
    host.isDatetime bound = true := by
  by_contra hno
  simp [TaskFilters.Accepted, TaskSchema.taskFilters, hbound, TaskSchema.optional, hno] at h

end Filters

/-! ## The range of a report -/

section Report

variable {env : Env} {input : CompletionReportInput} {start finish : String}

/-- Whether the range is accepted hangs on the order of its texts. -/
theorem completionReport_iff (hfields : TaskSchema.completionReportFields env input = [])
    (hdays : input.days = none) (hstart : input.start = some start)
    (hfinish : input.finish = some finish) :
    TaskSchema.completionReport env input = [] ↔ start ≤ finish := by
  have hordered : (!decide (finish < start)) = true ↔ start ≤ finish := by
    rw [Bool.not_eq_true', decide_eq_false_iff_not, not_lt]
  rw [← hordered]
  simp only [TaskSchema.completionReport, hfields, hdays, hstart, hfinish, ne_eq, not_true_eq_false,
    if_false, Option.isSome_none, Option.isSome_some, Bool.and_self, Bool.or_true, if_true,
    List.nil_append, Bool.false_or]
  split <;> simp_all

theorem isDatetime_range (hfields : TaskSchema.completionReportFields env input = [])
    (hstart : input.start = some start) (hfinish : input.finish = some finish) :
    env.isDatetime start = true ∧ env.isDatetime finish = true := by
  constructor
  · by_contra hno
    simp [TaskSchema.completionReportFields, hstart, TaskSchema.optional, hno] at hfields
  · by_contra hno
    simp [TaskSchema.completionReportFields, hfinish, TaskSchema.optional, hno] at hfields

end Report

/-- A machine that accepts exactly the UTC date-times. -/
def dateTimeHost : ListHost where
  isDatetime s := isDateTime s.toList
  datetime _ := none
  ftsMalformed _ := false
  ftsMatch _ _ _ := true
  order _ := .stable
  maxQuery := 8192

def dateTimeEnv : Env := { Env.undisturbed with isDatetime := fun s => isDateTime s.toList }

def dueTask (due : String) : Task := { (plainTask .open none).row [] 0 1 with dueDate := some due }

def rangeInput (start finish : String) : CompletionReportInput :=
  { start := some start, finish := some finish }

end WoodFiredTasks
