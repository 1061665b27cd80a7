import WoodFiredTasks.Lib.Text
import WoodFiredTasks.Mcp.ListTasks
import WoodFiredTasks.Services.Ranking

set_option autoImplicit false

/-! # The two `list_tasks` tools give the same answer

What the route reads in the query string of a client are the filters of the client, with the
defaults of the paging filled in, which the service would fill in itself. Only the tags go through
one text more, which is joined and split at commas: an empty list comes out as the list of the
empty tag, and a tag that holds a comma as its pieces. -/

namespace WoodFiredTasks.Mcp

/-! ## The texts of the values -/

theorem coerceNumber_toString (n : Nat) : coerceNumber (toString n) = some n := by
  have hdigits : (toString n).toList.all Char.isDigit = true := by
    rw [List.all_eq_true]
    exact fun c hc => isDigit_of_mem_toString hc
  have hlist : (toString n).toList = Nat.toDigits 10 n := by simp
  rw [coerceNumber, if_pos hdigits, hlist, Nat.ofDigitChars_ten_toDigits]

theorem statusEnum_text (status : TaskStatus) : statusEnum status.text = some status := by
  cases status <;> decide +kernel

theorem verifiedEnum_text (v : Bool) : verifiedEnum (if v then "true" else "false") = some v := by
  cases v <;> decide +kernel

/-- No piece of a split text holds a comma. -/
theorem comma_notMem_splitComma {s tag : String} (htag : tag ∈ splitComma s) :
    ',' ∉ tag.toList := by
  obtain ⟨piece, hpiece, rfl⟩ := List.mem_map.1 htag
  rw [String.toList_ofList]
  exact separator_notMem_splitOn piece hpiece

/-- Tags without commas are what their joined text is split into. -/
theorem splitComma_intercalate {tags : List String} (hne : tags ≠ [])
    (hcomma : ∀ tag ∈ tags, ',' ∉ tag.toList) : splitComma (",".intercalate tags) = tags := by
  have hparts : ∀ text ∈ tags.map String.toList, ',' ∉ text := by
    intro text htext
    obtain ⟨tag, htag, rfl⟩ := List.mem_map.1 htext
    exact hcomma tag htag
  have hsplit := List.splitOn_intercalate ',' hparts (by simpa using hne)
  rw [splitComma, String.toList_intercalate]
  show (([','].intercalate (tags.map String.toList)).splitOn ',').map String.ofList = tags
  rw [hsplit, List.map_map]
  simp [Function.comp_def]

/-! ## What the route reads -/

/-- The filters that the route makes of the client's. -/
def received (f : TaskFilters) : TaskFilters :=
  { f with
    tags := f.tags.map fun tags => splitComma (",".intercalate tags)
    limit := some (f.limit.getD 50)
    offset := some (f.offset.getD 0) }

/-- A parameter is read as its entry if what is written for a value is read as `back` of it. -/
theorem parameter_defined {α β : Type} {entries : List (String × Option String)} {name : String}
    {value : Option α} {write : α → String} {read : String → Option β} {back : α → β}
    (hnodup : (entries.map Prod.fst).Nodup) (hentry : entries.lookup name = some (value.map write))
    (hread : ∀ a, read (write a) = some (back a)) :
    parameter (FormUrl.defined entries) name read = some (value.map back) := by
  rw [parameter, FormUrl.lookup_defined hnodup, hentry]
  cases value with
  | none => rfl
  | some a =>
    show (read (write a)).map some = some (some (back a))
    rw [hread, Option.map_some]

theorem filterEntries_nodup (f : TaskFilters) : ((filterEntries f).map Prod.fst).Nodup := by
  show ["project_id", "status", "assignee", "due_before", "due_after", "updated_before",
    "updated_after", "search", "verified", "limit", "offset", "tags"].Nodup
  decide +kernel

/-- The schemas do not look at the tags, and accept the defaults of the paging. -/
theorem received_accepted {host : ListHost} {f : TaskFilters} (hf : f.Accepted host) :
    (received f).Accepted host := by
  unfold TaskFilters.Accepted TaskSchema.taskFilters at hf ⊢
  simp only [List.append_eq_nil_iff] at hf ⊢
  obtain ⟨⟨hrest, hlimit⟩, hoffset⟩ := hf
  refine ⟨⟨hrest, ?_⟩, ?_⟩
  · cases hcase : f.limit with
    | none => simp [received, hcase, TaskSchema.optional, TaskSchema.positive, TaskSchema.atMost]
    | some n =>
      rw [hcase] at hlimit
      simpa [received, hcase] using hlimit
  · cases hcase : f.offset with
    | none => simp [received, hcase, TaskSchema.optional, TaskSchema.atMost]
    | some n =>
      rw [hcase] at hoffset
      simpa [received, hcase] using hoffset

/-- What the route reads in the query string of accepted filters. -/
theorem queryTaskFilters_filterEntries {host : ListHost} {f : TaskFilters}
    (hf : f.Accepted host) :
    queryTaskFilters host (FormUrl.defined (filterEntries f)) = some (received f) := by
  have hnodup := filterEntries_nodup f
  have htext (name : String) (value : Option String)
      (hentry : (filterEntries f).lookup name = some value) :
      parameter (FormUrl.defined (filterEntries f)) name some = some value := by
    rw [parameter, FormUrl.lookup_defined hnodup, hentry]
    cases value <;> rfl
  have hproject : parameter (FormUrl.defined (filterEntries f)) "project_id" coerceNumber =
      some f.projectId := by
    rw [parameter_defined hnodup rfl coerceNumber_toString, Option.map_id']
  have hstatus : parameter (FormUrl.defined (filterEntries f)) "status" statusEnum =
      some f.status := by
    rw [parameter_defined hnodup rfl statusEnum_text, Option.map_id']
  have hverified : parameter (FormUrl.defined (filterEntries f)) "verified" verifiedEnum =
      some f.verified := by
    rw [parameter_defined hnodup rfl verifiedEnum_text, Option.map_id']
  have hlimit : parameter (FormUrl.defined (filterEntries f)) "limit" coerceNumber =
      some f.limit := by
    rw [parameter_defined hnodup rfl coerceNumber_toString, Option.map_id']
  have hoffset : parameter (FormUrl.defined (filterEntries f)) "offset" coerceNumber =
      some f.offset := by
    rw [parameter_defined hnodup rfl coerceNumber_toString, Option.map_id']
  have htags : parameter (FormUrl.defined (filterEntries f)) "tags" (fun s => some (splitComma s)) =
      some (f.tags.map fun tags => splitComma (",".intercalate tags)) :=
    parameter_defined hnodup rfl fun _ => rfl
  unfold queryTaskFilters
  rw [hproject, hstatus, htags, hverified, hlimit, hoffset, htext "assignee" f.assignee rfl,
    htext "due_before" f.dueBefore rfl, htext "due_after" f.dueAfter rfl,
    htext "updated_before" f.updatedBefore rfl, htext "updated_after" f.updatedAfter rfl,
    htext "search" f.search rfl]
  exact if_pos (received_accepted hf)

/-! ## Answers -/

section Answers

variable {host : ListHost} {db : Db} {f : TaskFilters}

theorem parseFilters_ok (hf : f.Accepted host) : TaskService.parseFilters host f = .ok f := if_pos hf

/-- The filters with the tags as they come over. -/
def retagged (f : TaskFilters) : TaskFilters :=
  { f with tags := f.tags.map fun tags => splitComma (",".intercalate tags) }

/-- Over stdio the service fills the defaults of the paging in. -/
theorem listTasks_received (hf : f.Accepted host) :
    listTasks host db (received f) = listTasks host db (retagged f) := by
  -- the schema does not look at the tags
  have htagged : (retagged f).Accepted host := hf
  rw [listTasks, listTasks, TaskService.listTasksPaginated, TaskService.listTasksPaginated,
    parseFilters_ok htagged, parseFilters_ok (received_accepted hf)]
  rfl

/-- The remote tool gives the answer of the filters with the tags as they come over. -/
theorem remoteListTasks_eq (hf : f.Accepted host)
    (hfits : (queryString f).length ≤ host.maxQuery) :
    remoteListTasks host db f = listTasks host db (retagged f) := by
  rw [remoteListTasks, parseFilters_ok hf]
  show (if host.maxQuery < (queryString f).length then none else
    (getTasks host db (queryString f)).map ListTasksAnswer.ofPage) = _
  rw [if_neg (Nat.not_lt.2 hfits), getTasks, queryString, FormUrl.decode_encode]
  show ((queryTaskFilters host (FormUrl.defined (filterEntries f))).bind fun filters =>
    (TaskService.listTasksPaginated host db filters).toOption).map ListTasksAnswer.ofPage = _
  rw [queryTaskFilters_filterEntries hf, ← listTasks_received hf]
  rfl

end Answers

/-! ## Tags that do not come over -/

/-- A row with these tags. -/
def taggedRow (tags : List String) (id : Nat) : Task :=
  { id, title := "task", description := none, status := .open, priority := .medium,
    projectId := 1, parentTaskId := none, estimatedMinutes := none, assignee := none,
    createdBy := "user", dueDate := none, createdAt := .iso 0, updatedAt := .iso 0,
    version := 1, claimedAt := none, completedAt := none, acceptanceCriteria := none,
    verificationEvidence := none, wsjf := {}, createdByUserId := none, assigneeUserId := none, tags }

/-- A database of one project with one task. -/
def taggedDb (tags : List String) : Db :=
  { Db.oneProject with tasks := Table.empty.insert (taggedRow tags) fun _ => rfl }

/-- A machine that takes query strings up to a length. -/
def plainHost (maxQuery : Nat) : ListHost where
  isDatetime _ := true
  datetime _ := none
  ftsMalformed _ := false
  ftsMatch _ _ _ := true
  order _ := .stable
  maxQuery := maxQuery

/-- With the tags as the only filter, the total says whether the task has one of them. -/
theorem total_taggedDb (tags wanted : List String) (maxQuery : Nat) :
    (listTasks (plainHost maxQuery) (taggedDb tags) { tags := some wanted }).map
        ListTasksAnswer.total =
      some (if wanted = [] ∨ ∃ tag ∈ tags, tag ∈ wanted then 1 else 0) := by
  show some ([taggedRow tags 1].countP
    (fun t => t.meets (plainHost maxQuery) (taggedDb tags) { tags := some wanted })) = _
  simp [List.countP_cons, taggedRow, Task.meets]

/-- The tags come over as they are: none are given, or there is one, and none holds a comma. -/
def TagsSurvive (tags : Option (List String)) : Prop :=
  ∀ wanted, tags = some wanted → wanted ≠ [] ∧ ∀ tag ∈ wanted, ',' ∉ tag.toList

theorem TagsSurvive.map_eq {tags : Option (List String)} (h : TagsSurvive tags) :
    (tags.map fun wanted => splitComma (",".intercalate wanted)) = tags := by
  cases tags with
  | none => rfl
  | some wanted =>
    obtain ⟨hne, hcomma⟩ := h wanted rfl
    rw [Option.map_some, splitComma_intercalate hne hcomma]

/-- If the tools agree, the task is found by the tags as they come over if it is by the tags. -/
theorem found_of_same (tags : List String) {wanted : List String}
    (hsame : ∀ (host : ListHost) (f : TaskFilters), f.Accepted host → f.tags = some wanted →
      (queryString f).length ≤ host.maxQuery →
      ∀ db, remoteListTasks host db f = listTasks host db f)
    (hfound : wanted = [] ∨ ∃ tag ∈ tags, tag ∈ wanted) :
    ∃ tag ∈ tags, tag ∈ splitComma (",".intercalate wanted) := by
  set f : TaskFilters := { tags := some wanted }
  set host := plainHost (queryString f).length
  have hf : f.Accepted host := rfl
  have hremote := hsame host f hf rfl le_rfl (taggedDb tags)
  rw [remoteListTasks_eq hf le_rfl] at hremote
  have htotal := congrArg (Option.map ListTasksAnswer.total) hremote
  have hsplit : (listTasks host (taggedDb tags) (retagged f)).map ListTasksAnswer.total = _ :=
    total_taggedDb tags (splitComma (",".intercalate wanted)) (queryString f).length
  rw [hsplit, total_taggedDb, if_pos hfound] at htotal
  by_contra hnone
  -- a text is split into one piece at least
  have hpieces : splitComma (",".intercalate wanted) ≠ [] := by simp [splitComma]
  rw [if_neg (by simp only [hpieces, hnone, or_self, not_false_eq_true])] at htotal
  exact absurd htotal (by decide)

/-- **Main theorem.** Whatever the other filters and the database are, the two tools give the same
    answer, or fail both, exactly if the tags come over as they are. -/
theorem list_tasks_same_iff (tags : Option (List String)) :
    (∀ (host : ListHost) (f : TaskFilters), f.Accepted host → f.tags = tags →
      (queryString f).length ≤ host.maxQuery →
      ∀ db, remoteListTasks host db f = listTasks host db f) ↔ TagsSurvive tags := by
  constructor
  · rintro hsame wanted rfl
    refine ⟨?_, ?_⟩
    · rintro rfl
      have hnone := found_of_same [] hsame (.inl rfl)
      simp at hnone
    · intro tag htag hcomma
      obtain ⟨piece, hpiece, hsplit⟩ :=
        found_of_same [tag] hsame (.inr ⟨tag, List.mem_singleton.2 rfl, htag⟩)
      rw [List.mem_singleton.1 hpiece] at hsplit
      exact comma_notMem_splitComma hsplit hcomma
  · rintro hsurvive host f hf rfl hfits db
    rw [remoteListTasks_eq hf hfits, retagged, hsurvive.map_eq]

/-- With an empty list of tags one tool finds the task, the other finds nothing. -/
theorem empty_tags_find_nothing_remotely :
    ({ tags := some [] } : TaskFilters).Accepted (plainHost 8192) ∧
      listTasks (plainHost 8192) (taggedDb ["docs"]) { tags := some [] } =
        some { tasks := [1], total := 1, limit := 50, offset := 0 } ∧
      remoteListTasks (plainHost 8192) (taggedDb ["docs"]) { tags := some [] } =
        some { tasks := [], total := 0, limit := 50, offset := 0 } := by
  refine ⟨rfl, by decide +kernel, by decide +kernel⟩

end WoodFiredTasks.Mcp
