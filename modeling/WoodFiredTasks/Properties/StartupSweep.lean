import WoodFiredTasks.Properties.ListTasksTransports
import WoodFiredTasks.Router.StartupSweep

set_option autoImplicit false

/-! # The startup sweep finds a match if there is one

The server leaves out of its list only tasks that the rule does not match (`keeps_of_matches`), and
the loop stops early only on a page with a match, or when the list is at its end. So over up to
5000 open tasks it finds what a search of all of them finds. -/

namespace WoodFiredTasks.Router.StartupSweep

/-! ## A page -/

section Page

variable {opts : SweepQueryOptions} {rule : Rule}

/-- The search that the sweep makes, over any rows. -/
def firstMatch (rule : Rule) (rows : List WireTaskRow) : Option EventPayloadShape :=
  (rows.map fun row => taskRowToEventPayload row rule.on.text).find? (evaluateWhere rule.whereBlock)

/-- How many of the rows match. -/
def matching (rule : Rule) (rows : List WireTaskRow) : Nat :=
  rows.countP fun row => evaluateWhere rule.whereBlock (taskRowToEventPayload row rule.on.text)

theorem firstMatch_append (rows rows' : List WireTaskRow) :
    firstMatch rule (rows ++ rows') = (firstMatch rule rows).or (firstMatch rule rows') := by
  rw [firstMatch, List.map_append, List.find?_append]
  rfl

theorem foldl_scanRow (rows : List WireTaskRow) (st : SweepState) :
    rows.foldl (scanRow rule) st =
      { first := st.first.or (firstMatch rule rows)
        matchedCount := st.matchedCount + matching rule rows
        openTotal := st.openTotal } := by
  induction rows generalizing st with
  | nil => simp [firstMatch, matching]
  | cons row rows ih =>
    rw [List.foldl_cons, ih, scanRow]
    by_cases hrow : evaluateWhere rule.whereBlock (taskRowToEventPayload row rule.on.text) = true
    · have hfirst : firstMatch rule (row :: rows) =
          some (taskRowToEventPayload row rule.on.text) := by
        simp [firstMatch, hrow]
      have hcount : matching rule (row :: rows) = matching rule rows + 1 := by
        simp [matching, hrow]
      have hsum : st.matchedCount + 1 + matching rule rows =
          st.matchedCount + (matching rule rows + 1) := by omega
      rw [if_pos hrow, hfirst, hcount, Option.or_assoc, Option.some_or, hsum]
    · have hfirst : firstMatch rule (row :: rows) = firstMatch rule rows := by
        simp [firstMatch, hrow]
      have hcount : matching rule (row :: rows) = matching rule rows := by
        simp [matching, hrow]
      rw [if_neg hrow, hfirst, hcount]

end Page

/-! ## The pages of one list -/

section Pages

variable {opts : SweepQueryOptions} {rule : Rule} {kept : List WireTaskRow}

/-- Every page of the sweep is a page of `kept`. -/
def Paginates (opts : SweepQueryOptions) (rule : Rule) (kept : List WireTaskRow) : Prop :=
  ∀ page, readPage (opts.fetch (pageRequest opts rule page)) =
    .ok ((kept.drop (page * sweepPageLimit)).take sweepPageLimit, kept.length)

/-- The loop from a page on, if no page before had a match: it ends, and what it has found is what
    is first in the rest of the list. -/
theorem scanPages_first (h : Paginates opts rule kept) (left page : Nat)
    (hpages : kept.length ≤ (page + left) * sweepPageLimit) (st : SweepState)
    (hnone : st.first = none) (htotal : 0 < left ∨ st.openTotal = kept.length) :
    ∃ st', scanPages opts rule left page st = .ok st' ∧
      st'.first = firstMatch rule (kept.drop (page * sweepPageLimit)) ∧
      st'.openTotal = kept.length := by
  induction left generalizing page st with
  | zero =>
    have hrest : kept.drop (page * sweepPageLimit) = [] := List.drop_eq_nil_of_le (by omega)
    refine ⟨st, rfl, ?_, htotal.resolve_left (Nat.lt_irrefl 0)⟩
    rw [hnone, hrest]
    rfl
  | succ left ih =>
    have hnext : (page + 1) * sweepPageLimit = page * sweepPageLimit + sweepPageLimit := by
      rw [Nat.add_mul, Nat.one_mul]
    have hsplit : firstMatch rule (kept.drop (page * sweepPageLimit)) =
        (firstMatch rule ((kept.drop (page * sweepPageLimit)).take sweepPageLimit)).or
          (firstMatch rule (kept.drop ((page + 1) * sweepPageLimit))) := by
      rw [← firstMatch_append, hnext, ← List.drop_drop, List.take_append_drop]
    rw [scanPages, h page]
    simp only [foldl_scanRow, hnone, Option.none_or]
    split
    · -- the last page: nothing is left behind it
      rename_i hlast
      have hrest : kept.drop ((page + 1) * sweepPageLimit) = [] := by
        refine List.drop_eq_nil_of_le ?_
        rw [List.length_take, List.length_drop] at hlast
        omega
      refine ⟨_, rfl, ?_, rfl⟩
      rw [hsplit, hrest]
      exact (Option.or_none).symm
    split
    · -- a match on this page
      rename_i hsome
      refine ⟨_, rfl, ?_, rfl⟩
      obtain ⟨payload, hpayload⟩ := Option.isSome_iff_exists.mp hsome
      rw [hsplit, hpayload, Option.some_or]
    · rename_i hnot
      have hpage : firstMatch rule ((kept.drop (page * sweepPageLimit)).take sweepPageLimit) =
          none := by simpa using hnot
      have hreach : kept.length ≤ (page + 1 + left) * sweepPageLimit := by
        rwa [show page + 1 + left = page + (left + 1) by omega]
      obtain ⟨st', hst', hfirst, hcount⟩ := ih (page + 1) hreach
        { first := firstMatch rule ((kept.drop (page * sweepPageLimit)).take sweepPageLimit)
          matchedCount :=
            st.matchedCount + matching rule ((kept.drop (page * sweepPageLimit)).take sweepPageLimit)
          openTotal := kept.length } hpage (.inr rfl)
      exact ⟨st', hst', by rw [hfirst, hsplit, hpage, Option.none_or], hcount⟩

end Pages

/-! ## The narrowed list -/

/-- What the parameters of the sweep ask of a row. -/
def narrowing (w : Where) : TaskList.Narrowing where
  status := some "open"
  projectId := numericProject w.project
  assignee := w.assignee

/-- The list that the server makes pages of. -/
def narrowed (rule : Rule) (tasks : List WireTaskRow) : List WireTaskRow :=
  tasks.filter (narrowing rule.whereBlock).keeps

/-- A task that is open. -/
def isOpen (row : WireTaskRow) : Bool := row.status = some "open"

theorem coerceInt_toString (n : Int) : TaskList.coerceInt (toString n) = some n := by
  rw [Int.toString_eq_repr, Int.repr_eq_if]
  split
  · rename_i hn
    have hdigits : Mcp.coerceNumber n.toNat.repr = some n.toNat := Mcp.coerceNumber_toString n.toNat
    have hhead : ∀ digits, n.toNat.repr.toList ≠ '-' :: digits := by
      intro digits heq
      have hdigit : '-'.isDigit = true :=
        isDigit_of_mem_toString (n := n.toNat) (by
          show '-' ∈ n.toNat.repr.toList
          rw [heq]
          exact List.mem_cons_self ..)
      exact absurd hdigit (by decide)
    unfold TaskList.coerceInt
    split
    · rename_i digits heq
      exact absurd heq (hhead digits)
    · rw [hdigits, Option.map_some, Int.ofNat_eq_natCast, Int.toNat_of_nonneg hn]
  · rename_i hn
    have hdigits : Mcp.coerceNumber (-n).toNat.repr = some (-n).toNat :=
      Mcp.coerceNumber_toString (-n).toNat
    have hminus : ("-" ++ (-n).toNat.repr).toList = '-' :: (-n).toNat.repr.toList := by
      rw [String.toList_append]
      rfl
    have hback : -Int.ofNat (-n).toNat = n := by
      rw [Int.ofNat_eq_natCast, Int.toNat_of_nonneg (by omega), Int.neg_neg]
    unfold TaskList.coerceInt
    rw [hminus]
    simp only [String.ofList_toList, hdigits, Option.map_some, hback]

/-- The server's page for the parameters of the sweep. -/
theorem page_sweepParams (tasks : List WireTaskRow) (w : Where) (offset : Nat) :
    TaskList.page tasks (FormUrl.defined (sweepParams w offset)) =
      some
        { data := some (((tasks.filter (narrowing w).keeps).drop offset).take sweepPageLimit)
          total := some (tasks.filter (narrowing w).keeps).length } := by
  have hnodup : ((sweepParams w offset).map Prod.fst).Nodup := by
    show ["status", "limit", "project_id", "assignee", "offset"].Nodup
    decide +kernel
  have hproject : Mcp.parameter (FormUrl.defined (sweepParams w offset)) "project_id"
      TaskList.coerceInt = some (numericProject w.project) := by
    rw [Mcp.parameter_defined hnodup rfl coerceInt_toString, Option.map_id']
  have hlimit : Mcp.parameter (FormUrl.defined (sweepParams w offset)) "limit" Mcp.coerceNumber =
      some (some sweepPageLimit) := by
    have hentry : (sweepParams w offset).lookup "limit" =
        some ((some sweepPageLimit).map toString) := rfl
    rw [Mcp.parameter_defined hnodup hentry Mcp.coerceNumber_toString, Option.map_id']
  have hoffset : Mcp.parameter (FormUrl.defined (sweepParams w offset)) "offset" Mcp.coerceNumber =
      some (some offset) := by
    have hentry : (sweepParams w offset).lookup "offset" = some ((some offset).map toString) := rfl
    rw [Mcp.parameter_defined hnodup hentry Mcp.coerceNumber_toString, Option.map_id']
  have hstatus : (FormUrl.defined (sweepParams w offset)).lookup "status" = some "open" :=
    FormUrl.lookup_defined hnodup
  have hassignee : (FormUrl.defined (sweepParams w offset)).lookup "assignee" = w.assignee :=
    FormUrl.lookup_defined hnodup
  unfold TaskList.page
  rw [hproject, hlimit, hoffset, hstatus, hassignee]
  rfl

theorem paginates_serve (opts : SweepQueryOptions) (rule : Rule) (tasks : List WireTaskRow) :
    Paginates { opts with fetch := TaskList.serve tasks } rule (narrowed rule tasks) := by
  intro page
  show readPage (TaskList.serve tasks (pageRequest _ rule page)) = _
  unfold TaskList.serve
  rw [show (pageRequest _ rule page).query = FormUrl.encode _ from rfl, FormUrl.decode_encode,
    Option.bind_some, page_sweepParams]
  rfl

/-- Narrowing hides no match: an open task whose payload satisfies the `where:` block passes the
    server's filter. -/
theorem keeps_of_matches {w : Where} {row : WireTaskRow} {eventType : String}
    (hopen : isOpen row = true)
    (hmatch : evaluateWhere w (taskRowToEventPayload row eventType) = true) :
    (narrowing w).keeps row = true := by
  unfold evaluateWhere at hmatch
  simp only [Bool.and_eq_true] at hmatch
  have hproject := hmatch.1.1.1.1.1.1.1.1.1.1.1
  have hassignee := hmatch.1.1.2
  simp only [TaskList.Narrowing.keeps, narrowing, Bool.and_eq_true]
  refine ⟨⟨hopen, ?_⟩, hassignee⟩
  cases hfilter : w.project with
  | none => rfl
  | some filter =>
    rw [hfilter] at hproject
    cases filter with
    | slug s => rfl
    | id n => exact hproject

theorem firstMatch_narrowed (rule : Rule) (tasks : List WireTaskRow) :
    firstMatch rule (narrowed rule tasks) = firstMatch rule (tasks.filter isOpen) := by
  rw [firstMatch, firstMatch, List.find?_map, List.find?_map, narrowed, List.find?_filter,
    List.find?_filter]
  congr 1
  refine congrArg (fun p => tasks.find? p) ?_
  funext row
  have hkeeps : isOpen row = true →
      evaluateWhere rule.whereBlock (taskRowToEventPayload row rule.on.text) = true →
      (narrowing rule.whereBlock).keeps row = true := keeps_of_matches
  have hopen : (narrowing rule.whereBlock).keeps row = true → isOpen row = true := by
    intro hkeep
    simp only [TaskList.Narrowing.keeps, narrowing, Bool.and_eq_true] at hkeep
    exact hkeep.1.1
  simp only [Function.comp_apply]
  grind

theorem length_narrowed_le (rule : Rule) (tasks : List WireTaskRow) :
    (narrowed rule tasks).length ≤ (tasks.filter isOpen).length := by
  have hsub : narrowed rule tasks = (tasks.filter isOpen).filter (narrowing rule.whereBlock).keeps := by
    rw [narrowed, List.filter_filter]
    refine List.filter_congr fun row _ => ?_
    simp only [TaskList.Narrowing.keeps, narrowing, isOpen, Option.all_some]
    grind
  rw [hsub]
  exact List.length_filter_le _ _

/-! ## The sweep -/

/-- The sweep ends, with what a search of all open tasks finds. -/
theorem exists_found (rule : Rule) (opts : SweepQueryOptions) (tasks : List WireTaskRow)
    (hfew : (tasks.filter isOpen).length ≤ 5000) :
    ∃ found, findFirstMatchingOpenTask rule { opts with fetch := TaskList.serve tasks } =
        .ok found ∧
      found.map SweepMatch.payload = firstMatch rule (tasks.filter isOpen) := by
  have hlength := length_narrowed_le rule tasks
  obtain ⟨st, hst, hfirst, -⟩ := scanPages_first (paginates_serve opts rule tasks) sweepMaxPages 0
    (by show _ ≤ (0 + 10) * 500; omega) {} rfl (.inl (by decide))
  rw [Nat.zero_mul, List.drop_zero, firstMatch_narrowed] at hfirst
  refine ⟨_, by rw [findFirstMatchingOpenTask, hst]; rfl, ?_⟩
  rw [Option.map_map, ← hfirst]
  exact Option.map_id'

/-- A listed row as the daemon is handed it. -/
def listed (row : WireTaskRow) : Int × TaskShape :=
  (row.id.getD 0,
    { id := row.id
      projectId := row.projectId
      status := row.status
      tags := row.tags
      parentTaskId := row.parentTaskId
      assignee := row.assignee })

/-- Where every row has an id, the sweep finds what the daemon takes it to find. -/
theorem exists_found_daemon (rule : Rule) (opts : SweepQueryOptions) (tasks : List WireTaskRow)
    (hfew : (tasks.filter isOpen).length ≤ 5000) (hids : ∀ row ∈ tasks, row.id.isSome) :
    ∃ found, findFirstMatchingOpenTask rule { opts with fetch := TaskList.serve tasks } =
        .ok found ∧
      found.map SweepMatch.payload =
        WftRouterDaemon.findFirstMatchingOpenTask rule ((tasks.filter isOpen).map listed) := by
  have hsame : ((tasks.filter isOpen).map listed).map
        (fun task => WftRouterDaemon.taskRowToEventPayload task.1 task.2 rule.on.text) =
      (tasks.filter isOpen).map fun row => taskRowToEventPayload row rule.on.text := by
    rw [List.map_map]
    refine List.map_congr_left fun row hrow => ?_
    obtain ⟨id, hid⟩ := Option.isSome_iff_exists.mp (hids row (List.mem_of_mem_filter hrow))
    simp [WftRouterDaemon.taskRowToEventPayload, taskRowToEventPayload, listed, hid]
  rw [WftRouterDaemon.findFirstMatchingOpenTask, hsame]
  exact exists_found rule opts tasks hfew

/-- **Main theorem.** Over a server with at most 5000 open tasks the sweep ends; it has found
    nothing exactly when no open task's payload satisfies the `where:` block, and otherwise the
    first one in list order; and the server's narrowing keeps every task that satisfies it. -/
theorem findFirstMatchingOpenTask_spec (rule : Rule) (opts : SweepQueryOptions)
    (tasks : List WireTaskRow) (hfew : (tasks.filter isOpen).length ≤ 5000) :
    ∃ found, findFirstMatchingOpenTask rule { opts with fetch := TaskList.serve tasks } =
        .ok found ∧
      (found = none ↔ ∀ row ∈ tasks.filter isOpen,
        evaluateWhere rule.whereBlock (taskRowToEventPayload row rule.on.text) = false) ∧
      found.map SweepMatch.payload =
        ((tasks.filter isOpen).map fun row => taskRowToEventPayload row rule.on.text).find?
          (evaluateWhere rule.whereBlock) ∧
      ∀ row ∈ tasks.filter isOpen,
        evaluateWhere rule.whereBlock (taskRowToEventPayload row rule.on.text) = true →
          row ∈ narrowed rule tasks := by
  obtain ⟨found, hfound, hfirst⟩ := exists_found rule opts tasks hfew
  refine ⟨found, hfound, ?_, hfirst, ?_⟩
  · rw [← Option.map_eq_none_iff (f := SweepMatch.payload), hfirst, firstMatch,
      List.find?_eq_none]
    simp only [List.forall_mem_map, Bool.not_eq_true]
  · intro row hrow hmatch
    obtain ⟨hmem, hopen⟩ := List.mem_filter.mp hrow
    exact List.mem_filter.mpr ⟨hmem, keeps_of_matches hopen hmatch⟩

/-- A list with a task of another project, one that is done, and one that matches. -/
def sampleTasks : List WireTaskRow :=
  [{ id := some 1, projectId := some 4, status := some "open", assignee := some (some "me") },
    { id := some 2, projectId := some 5, status := some "done", assignee := some (some "me") },
    { id := some 3, projectId := some 5, status := some "open", assignee := some (some "me") }]

def sampleRule : Rule where
  name := "r"
  on := .taskCreated
  whereBlock := { project := some (.id 5), assignee := some "me" }
  doHandler := .webhookPost
  withBlock := []

def sampleOptions : SweepQueryOptions where
  apiBaseUrl := "http://localhost:3000"
  authToken := "wft_pat_0"
  fetch := TaskList.serve sampleTasks

theorem findFirstMatchingOpenTask_sample :
    ∃ found, findFirstMatchingOpenTask sampleRule sampleOptions = .ok found ∧
      (found.map SweepMatch.payload).map (fun payload => payload.task.bind (·.id)) =
        some (some 3) := by
  obtain ⟨found, hfound, -, hfirst, -⟩ :=
    findFirstMatchingOpenTask_spec sampleRule sampleOptions sampleTasks (by decide)
  exact ⟨found, hfound, by rw [hfirst]; decide +kernel⟩

end WoodFiredTasks.Router.StartupSweep
