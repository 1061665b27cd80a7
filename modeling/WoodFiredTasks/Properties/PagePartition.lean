import WoodFiredTasks.Services.PagedReads

set_option autoImplicit false

/-! # Pages of a listing

The pages that `findByFilters` returns for one filter after another offset are to make up the
matching tasks, each once, as many as `count` counts; and the loops that load a project are to
return its tasks. `ORDER BY t.created_at DESC` leaves ties open, so this holds whatever the order
of the ties is from query to query exactly if no page ends between two tasks of one timestamp. -/

namespace WoodFiredTasks

open TaskRepository

/-- The pages `0, k, 2k, …` have each matching task once, and `count` counts them. The order of
    ties is SQLite's, for each query. -/
def PagesPartition (host : ListHost) (db : Db) (f : TaskFilters) (k : Nat) : Prop :=
  ∀ (order : TaskFilters → RowOrder) (m : Nat), (db.matching host f).length ≤ m * k →
    ((readPages { host with order } db f k m).map (·.id)).Perm ((db.matching host f).map (·.id)) ∧
      count host db f = some (readPages { host with order } db f k m).length

/-- The loops return exactly the tasks of the project. -/
def LoopsExact (db : Db) (projectId : Nat) : Prop :=
  ∀ orders : Nat → RowOrder,
    ((loadProjectPages orders db projectId).map (·.id)).Perm (db.projectIds projectId) ∧
      (projectIdPages orders db projectId).Perm (db.projectIds projectId)

/-- No page of `k` rows ends between two of the rows with one `created_at`. -/
def NoTieAtPageEnd (rows : List Task) (k : Nat) : Prop :=
  ∀ i, ¬ Paging.SplitsTie notOlder rows (i * k)

/-! ## The statements -/

section Statements

variable {host : ListHost} {db : Db} {f : TaskFilters} {k : Nat}

theorem resolvePagination_nat (hk : 0 < k) (o : Nat) :
    resolvePagination { limit := some (some (k : ℚ)), offset := some (some (o : ℚ)) } =
      (min k maxPageLimit, o) := by
  simp [resolvePagination, hk]

theorem findByFilters_page (hk : 0 < k) (hsearch : f.search.any host.ftsMalformed = false)
    (o : Nat) : findByFilters host db { f with limit := some k, offset := some o } =
      some ((((host.order { f with limit := some k, offset := some o }).sort
        (db.found host f)).drop o |>.take (min k maxPageLimit)).map Task.listed) := by
  let paging : PaginationOptions :=
    { limit := some (some (k : ℚ)), offset := some (some (o : ℚ)) }
  rw [findByFilters, if_neg (by simpa using hsearch)]
  show some (page (((host.order { f with limit := some k, offset := some o }).sort
    (db.found host f)).map Task.listed) (resolvePagination paging).1 (resolvePagination paging).2) = _
  rw [resolvePagination_nat hk, page, ← List.map_drop, ← List.map_take]

/-- The pages before the tags are read. -/
theorem readPages_eq (hk : 0 < k) (hsearch : f.search.any host.ftsMalformed = false)
    (order : TaskFilters → RowOrder) (m : Nat) :
    readPages { host with order } db f k m = (Paging.pages
      (fun o => (order { f with limit := some k, offset := some o }).sort (db.found host f))
      (min k maxPageLimit) k m).map Task.listed := by
  have hsearch' : f.search.any ({ host with order } : ListHost).ftsMalformed = false := hsearch
  rw [readPages, Paging.pages, List.map_flatMap]
  refine List.flatMap_congr fun i _ => ?_
  rw [findByFilters_page hk hsearch', Option.getD_some]
  rfl

theorem count_eq (hsearch : f.search.any host.ftsMalformed = false) :
    count host db f = some (db.matching host f).length := by
  rw [count, if_neg (by simpa using hsearch), Db.matching, List.countP_eq_length_filter]

/-- With the rows of `projects` that the tasks refer to, the join keeps all rows. -/
theorem found_eq_matching (hjoined : ∀ t ∈ db.matching host f, db.joined t = true) :
    db.found host f = db.matching host f := by
  refine List.filter_congr fun t ht => ?_
  by_cases hmeets : t.meets host db f = true
  · rw [hjoined t (List.mem_filter.2 ⟨ht, hmeets⟩), Bool.true_and]
  · simp [hmeets]

theorem matching_nodup : (db.matching host f).Nodup :=
  (List.filter_sublist).nodup (List.Nodup.of_map _ db.tasks.nodup)

/-- A row of the table is known by its id. -/
theorem eq_of_id {s t : Task} (hs : s ∈ db.tasks.rows) (ht : t ∈ db.tasks.rows) (h : s.id = t.id) :
    s = t :=
  List.inj_on_of_nodup_map db.tasks.nodup hs ht h

end Statements

/-! ## Pages -/

section Pages

variable {host : ListHost} {db : Db} {f : TaskFilters} {k : Nat}

/-- The pages, where the join and the clamp of the limit leave nothing out. -/
theorem readPages_of_clamp (hk : 0 < k) (hsearch : f.search.any host.ftsMalformed = false)
    (hjoined : ∀ t ∈ db.matching host f, db.joined t = true)
    (hclamp : maxPageLimit < k → (db.matching host f).length ≤ maxPageLimit)
    (order : TaskFilters → RowOrder) (m : Nat) :
    readPages { host with order } db f k m = (Paging.pages
      (fun o => (order { f with limit := some k, offset := some o }).sort (db.matching host f))
      k k m).map Task.listed := by
  rw [readPages_eq hk hsearch, found_eq_matching hjoined]
  by_cases hle : k ≤ maxPageLimit
  · rw [Nat.min_eq_left hle]
  · rw [Nat.min_eq_right (by omega)]
    refine congrArg (List.map Task.listed) (Paging.pages_of_short (fun o => ?_) (by omega))
    rw [((order _).perm _).length_eq]
    exact hclamp (by omega)

/-- Pages that end within no tie make up the rows. -/
theorem pagesPartition_of (hk : 0 < k) (hsearch : f.search.any host.ftsMalformed = false)
    (hjoined : ∀ t ∈ db.matching host f, db.joined t = true)
    (hclamp : maxPageLimit < k → (db.matching host f).length ≤ maxPageLimit)
    (htie : NoTieAtPageEnd (db.matching host f) k) : PagesPartition host db f k := by
  intro order m hm
  let listing (o : Nat) : List Task :=
    (order { f with limit := some k, offset := some o }).sort (db.matching host f)
  have hlisting : ∀ o, Paging.IsListing notOlder (db.matching host f) (listing o) :=
    fun o => RowOrder.isListing _ _
  have hperm : (Paging.pages listing k k m).Perm (db.matching host f) := by
    have hpages : (Paging.pages listing k k m).Perm ((listing 0).take (m * k)) :=
      Paging.pages_perm hlisting (hlisting 0) matching_nodup htie
    rw [List.take_of_length_le (by rwa [(hlisting 0).perm.length_eq])] at hpages
    exact hpages.trans (hlisting 0).perm
  rw [readPages_of_clamp hk hsearch hjoined hclamp, count_eq hsearch, List.length_map,
    hperm.length_eq, List.map_map]
  exact ⟨hperm.map _, rfl⟩

/-- A matching task is on the pages as itself. -/
theorem PagesPartition.mem_pages (h : PagesPartition host db f k) (hk : 0 < k)
    (hsearch : f.search.any host.ftsMalformed = false) (order : TaskFilters → RowOrder) {t : Task}
    (ht : t ∈ db.matching host f) : t ∈ Paging.pages
      (fun o => (order { f with limit := some k, offset := some o }).sort (db.found host f))
      (min k maxPageLimit) k (db.matching host f).length := by
  have hm : (db.matching host f).length ≤ (db.matching host f).length * k :=
    Nat.le_mul_of_pos_right _ hk
  have hid : t.id ∈ (readPages { host with order } db f k (db.matching host f).length).map (·.id) :=
    (h order _ hm).1.mem_iff.2 (List.mem_map.2 ⟨t, ht, rfl⟩)
  obtain ⟨r, hr, hrid⟩ := List.mem_map.1 hid
  rw [readPages_eq hk hsearch] at hr
  obtain ⟨s, hs, rfl⟩ := List.mem_map.1 hr
  have hrow : s ∈ db.found host f := by
    obtain ⟨i, -, hpage⟩ := Paging.mem_pages.1 hs
    have hsorted := List.mem_of_mem_drop (List.mem_of_mem_take hpage)
    exact ((order _).perm _).mem_iff.1 hsorted
  have heq : s = t := eq_of_id (List.mem_filter.1 hrow).1 (List.mem_filter.1 ht).1 hrid
  exact heq ▸ hs

theorem PagesPartition.joined (h : PagesPartition host db f k) (hk : 0 < k)
    (hsearch : f.search.any host.ftsMalformed = false) :
    ∀ t ∈ db.matching host f, db.joined t = true := by
  intro t ht
  obtain ⟨i, -, hpage⟩ := Paging.mem_pages.1 (h.mem_pages hk hsearch (fun _ => .stable) ht)
  have hsorted := List.mem_of_mem_drop (List.mem_of_mem_take hpage)
  have hrow := (RowOrder.stable.perm _).mem_iff.1 hsorted
  exact (Bool.and_eq_true_iff.1 (List.mem_filter.1 hrow).2).1

/-- The row after the first five hundred is on no page of more. -/
theorem PagesPartition.clamp (h : PagesPartition host db f k) (hk : 0 < k)
    (hsearch : f.search.any host.ftsMalformed = false) (hlarge : maxPageLimit < k) :
    (db.matching host f).length ≤ maxPageLimit := by
  by_contra hlong
  have hfound := found_eq_matching (h.joined hk hsearch)
  have hsort := RowOrder.stable.isListing (db.matching host f)
  have hlt : maxPageLimit < (RowOrder.stable.sort (db.matching host f)).length := by
    rw [hsort.perm.length_eq]
    omega
  have hplace := List.getElem?_eq_getElem hlt
  have hmem := hsort.perm.mem_iff.1 (List.mem_of_getElem? hplace)
  obtain ⟨i, -, hpage⟩ := Paging.mem_pages.1 (h.mem_pages hk hsearch (fun _ => .stable) hmem)
  rw [hfound, Paging.mem_page_iff (hsort.perm.nodup_iff.2 matching_nodup) hplace] at hpage
  obtain ⟨hstart, hend⟩ := hpage
  rw [Nat.min_eq_right (by omega)] at hend
  cases i with
  | zero => omega
  | succ i =>
    rw [Nat.succ_mul] at hstart
    omega

/-- Two orders that differ in two tied rows around the end of a page repeat one of them. -/
theorem PagesPartition.noTie (h : PagesPartition host db f k) (hk : 0 < k)
    (hsearch : f.search.any host.ftsMalformed = false) : NoTieAtPageEnd (db.matching host f) k := by
  intro i hsplit
  have hstable := RowOrder.stable.isListing (db.matching host f)
  obtain ⟨other, hother, htwice⟩ := Paging.exists_repeated hstable matching_nodup hsplit
  let order (g : TaskFilters) : RowOrder :=
    if g.offset.getD 0 < i * k then .stable else .ofListing other
  have hm : (db.matching host f).length ≤ (db.matching host f).length * k :=
    Nat.le_mul_of_pos_right _ hk
  have hnodup : ((readPages { host with order } db f k (db.matching host f).length).map
      (·.id)).Nodup := by
    rw [(h order _ hm).1.nodup_iff]
    exact (List.filter_sublist.map _).nodup db.tasks.nodup
  have hlisting : ∀ o, (order { f with limit := some k, offset := some o }).sort
      (db.matching host f) =
        if o < i * k then RowOrder.stable.sort (db.matching host f) else other := by
    intro o
    show (if o < i * k then RowOrder.stable else RowOrder.ofListing other).sort _ = _
    split
    · rfl
    · exact RowOrder.sort_ofListing hother
  rw [readPages_of_clamp hk hsearch (h.joined hk hsearch) (h.clamp hk hsearch)] at hnodup
  simp only [hlisting] at hnodup
  exact htwice _ hm (List.Nodup.of_map _ (List.Nodup.of_map _ hnodup))

end Pages

/-! ## Loops -/

section Loops

variable {db : Db} {projectId : Nat} {orders : Nat → RowOrder} {rows : List Task}
  {row : Task → Task}

/-- The pages of the loop, before a row is made of them. -/
abbrev projectPages (orders : Nat → RowOrder) (rows : List Task) (m : Nat) : List Task :=
  Paging.pages (fun o => (orders o).sort rows) maxPageLimit maxPageLimit m

theorem length_projectPages (orders : Nat → RowOrder) (rows : List Task) (m : Nat) :
    (projectPages orders rows m).length = min (m * maxPageLimit) rows.length :=
  Paging.length_pages fun o => ((orders o).perm rows).length_eq

theorem fetchPage_eq (order : RowOrder) (o : Nat) : fetchPage order row rows o =
    (((order.sort rows).drop o).take maxPageLimit).map row := by
  rw [fetchPage, page, ← List.map_drop, ← List.map_take]

/-- The loop ends with all pages if its size counts the rows that it has read. -/
theorem fetchPages_eq {β : Type} {size : β → Nat} {add : β → Task → β} {init : β}
    (hsize : ∀ m, size (((projectPages orders rows m).map row).foldl add init) =
      min (m * maxPageLimit) rows.length) :
    ∃ m, rows.length ≤ m * maxPageLimit ∧
      fetchPages size add orders row rows rows.length 0 init =
        ((projectPages orders rows m).map row).foldl add init := by
  -- by the number of rows that are left after `m` pages
  have hloop : ∀ left m, rows.length - m * maxPageLimit = left →
      ∃ m', rows.length ≤ m' * maxPageLimit ∧
        fetchPages size add orders row rows rows.length (min (m * maxPageLimit) rows.length)
          (((projectPages orders rows m).map row).foldl add init) =
            ((projectPages orders rows m').map row).foldl add init := by
    intro left
    induction left using Nat.strong_induction_on with
    | _ left ih =>
      intro m hleft
      by_cases hdone : rows.length ≤ m * maxPageLimit
      · refine ⟨m, hdone, ?_⟩
        rw [fetchPages, hsize, if_neg (by omega)]
      · have hoffset : min (m * maxPageLimit) rows.length = m * maxPageLimit := by omega
        have hlength := length_fetchPage (orders (m * maxPageLimit)) row rows (m * maxPageLimit)
        have hpage : fetchPage (orders (m * maxPageLimit)) row rows (m * maxPageLimit) ≠ [] := by
          intro hnil
          rw [hnil, List.length_nil] at hlength
          simp only [maxPageLimit] at hlength hdone
          omega
        have hnext : m * maxPageLimit +
            (fetchPage (orders (m * maxPageLimit)) row rows (m * maxPageLimit)).length =
              min ((m + 1) * maxPageLimit) rows.length := by
          rw [hlength, Nat.succ_mul]
          omega
        have hadd : (fetchPage (orders (m * maxPageLimit)) row rows (m * maxPageLimit)).foldl add
            (((projectPages orders rows m).map row).foldl add init) =
              ((projectPages orders rows (m + 1)).map row).foldl add init := by
          rw [← List.foldl_append, projectPages, projectPages, Paging.pages_succ, List.map_append,
            fetchPage_eq]
        obtain ⟨m', hm', heq⟩ := ih _ (by rw [Nat.succ_mul]; simp only [maxPageLimit] at *; omega)
          (m + 1) rfl
        refine ⟨m', hm', ?_⟩
        rw [fetchPages, hsize, if_pos (by omega), hoffset, if_neg hpage, hnext, hadd]
        exact heq
  obtain ⟨m, hm, heq⟩ := hloop _ 0 rfl
  refine ⟨m, hm, ?_⟩
  simpa [projectPages, Paging.pages] using heq

theorem foldl_append_singleton (rows init : List Task) :
    rows.foldl (fun out t => out ++ [t]) init = init ++ rows := by
  induction rows generalizing init with
  | nil => simp
  | cons t rest ih => rw [List.foldl_cons, ih, List.append_assoc, List.singleton_append]

/-- With the project's row there, all its tasks are found. -/
theorem foundProject_eq (hjoined : ∀ t ∈ db.projectTasks projectId, db.joined t = true) :
    db.foundProject projectId = db.projectTasks projectId :=
  List.filter_eq_self.2 hjoined

theorem projectTasks_nodup : (db.projectTasks projectId).Nodup :=
  List.filter_sublist.nodup (List.Nodup.of_map _ db.tasks.nodup)

/-- What `loadProjectTasks` loads: all pages. -/
theorem loadProjectPages_eq (hjoined : ∀ t ∈ db.projectTasks projectId, db.joined t = true)
    (orders : Nat → RowOrder) : ∃ m, (db.projectTasks projectId).length ≤ m * maxPageLimit ∧
      loadProjectPages orders db projectId =
        (projectPages orders (db.projectTasks projectId) m).map Task.untagged := by
  have hsize : ∀ m, (((projectPages orders (db.projectTasks projectId) m).map
      Task.untagged).foldl (fun out t => out ++ [t]) []).length =
        min (m * maxPageLimit) (db.projectTasks projectId).length := by
    intro m
    rw [foldl_append_singleton, List.nil_append, List.length_map, length_projectPages]
  obtain ⟨m, hm, heq⟩ := fetchPages_eq hsize
  refine ⟨m, hm, ?_⟩
  rw [loadProjectPages, foundProject_eq hjoined, countProject, heq, foldl_append_singleton,
    List.nil_append]

/-- Where no page ends within a tie, the loops return the tasks of the project. -/
theorem loopsExact_of (hjoined : ∀ t ∈ db.projectTasks projectId, db.joined t = true)
    (htie : NoTieAtPageEnd (db.projectTasks projectId) maxPageLimit) : LoopsExact db projectId := by
  intro orders
  have hstable := RowOrder.stable.isListing (db.projectTasks projectId)
  have hpages : ∀ m, (projectPages orders (db.projectTasks projectId) m).Perm
      ((RowOrder.stable.sort (db.projectTasks projectId)).take (m * maxPageLimit)) := fun m =>
    Paging.pages_perm (fun o => (orders o).isListing _) hstable projectTasks_nodup htie
  have hall : ∀ m, (db.projectTasks projectId).length ≤ m * maxPageLimit →
      ((projectPages orders (db.projectTasks projectId) m).map (·.id)).Perm
        (db.projectIds projectId) := by
    intro m hm
    have hm' := hpages m
    rw [List.take_of_length_le (by rwa [hstable.perm.length_eq])] at hm'
    exact (hm'.trans hstable.perm).map _
  constructor
  · obtain ⟨m, hm, heq⟩ := loadProjectPages_eq hjoined orders
    rw [heq, List.map_map]
    exact hall m hm
  · -- no id is met twice, so the set has as many as there are rows
    have hids : ∀ m, ((projectPages orders (db.projectTasks projectId) m).map
        Task.listed).foldl addId [] =
          (projectPages orders (db.projectTasks projectId) m).map (·.id) := by
      intro m
      rw [foldl_addId _ [], List.nil_append, List.map_map]
      · rfl
      · rw [List.nil_append, List.map_map]
        have hsublist := (List.take_sublist (m * maxPageLimit)
          (RowOrder.stable.sort (db.projectTasks projectId))).map (·.id)
        have hnodup := (hstable.perm.map Task.id).nodup_iff.2 Db.projectIds_nodup
        exact ((hpages m).map (·.id)).nodup_iff.2 (hsublist.nodup hnodup)
    have hsize : ∀ m, (((projectPages orders (db.projectTasks projectId) m).map
        Task.listed).foldl addId []).length =
          min (m * maxPageLimit) (db.projectTasks projectId).length := by
      intro m
      rw [hids, List.length_map, length_projectPages]
    obtain ⟨m, hm, heq⟩ := fetchPages_eq hsize
    rw [projectIdPages, foundProject_eq hjoined, countProject, heq, hids]
    exact hall m hm

/-- Without the row of the project the loops find nothing. -/
theorem LoopsExact.joined (h : LoopsExact db projectId) :
    ∀ t ∈ db.projectTasks projectId, db.joined t = true := by
  intro t ht
  by_contra hmissing
  have hproject : ∀ s ∈ db.projectTasks projectId, s.projectId = projectId := fun s hs =>
    (Db.mem_projectTasks.1 hs).2
  have hnone : db.foundProject projectId = [] := by
    rw [Db.foundProject, List.filter_eq_nil_iff]
    intro s hs hjoined
    refine hmissing ?_
    rw [Db.joined, hproject s hs] at hjoined
    rw [Db.joined, hproject t ht]
    exact hjoined
  have hload : loadProjectPages (fun _ => .stable) db projectId = [] := by
    rw [loadProjectPages, hnone, fetchPages]
    have hpage : fetchPage .stable Task.untagged [] 0 = [] := rfl
    rw [if_pos hpage]
    split <;> rfl
  have hperm := (h fun _ => .stable).1
  rw [hload, List.map_nil] at hperm
  have hid : t.id ∈ db.projectIds projectId := List.mem_map.2 ⟨t, ht, rfl⟩
  rw [← hperm.nil_eq] at hid
  exact List.not_mem_nil hid

theorem LoopsExact.noTie (h : LoopsExact db projectId) :
    NoTieAtPageEnd (db.projectTasks projectId) maxPageLimit := by
  intro i hsplit
  have hstable := RowOrder.stable.isListing (db.projectTasks projectId)
  obtain ⟨other, hother, htwice⟩ := Paging.exists_repeated hstable projectTasks_nodup hsplit
  let orders (o : Nat) : RowOrder :=
    if o < i * maxPageLimit then .stable else .ofListing other
  have hlisting : ∀ o, (orders o).sort (db.projectTasks projectId) =
      if o < i * maxPageLimit then RowOrder.stable.sort (db.projectTasks projectId) else other := by
    intro o
    show (if o < i * maxPageLimit then RowOrder.stable else RowOrder.ofListing other).sort _ = _
    split
    · rfl
    · exact RowOrder.sort_ofListing hother
  obtain ⟨m, hm, heq⟩ := loadProjectPages_eq h.joined orders
  have hnodup := (h orders).1.nodup_iff.2 Db.projectIds_nodup
  rw [heq] at hnodup
  simp only [projectPages, hlisting] at hnodup
  exact htwice m hm (List.Nodup.of_map _ (List.Nodup.of_map _ hnodup))

end Loops

/-- **Main theorem.** Pages of `k` tasks make up the matching tasks, whatever SQLite's order of ties
    is for each query, if and only if the tasks refer to rows of `projects`, no more rows match
    than a page has where `k` is clamped, and no page ends within a tie. The loops that load a
    project return its tasks if and only if the same holds of pages of five hundred. -/
theorem paging_partitions_iff (host : ListHost) (db : Db) (f : TaskFilters) (k projectId : Nat)
    (hk : 0 < k) (hsearch : f.search.any host.ftsMalformed = false) :
    (PagesPartition host db f k ↔
      (∀ t ∈ db.matching host f, db.joined t = true) ∧
        (maxPageLimit < k → (db.matching host f).length ≤ maxPageLimit) ∧
          NoTieAtPageEnd (db.matching host f) k) ∧
    (LoopsExact db projectId ↔
      (∀ t ∈ db.projectTasks projectId, db.joined t = true) ∧
        NoTieAtPageEnd (db.projectTasks projectId) maxPageLimit) := by
  constructor
  · constructor
    · intro h
      exact ⟨h.joined hk hsearch, h.clamp hk hsearch, h.noTie hk hsearch⟩
    · intro h
      obtain ⟨hjoined, hclamp, htie⟩ := h
      exact pagesPartition_of hk hsearch hjoined hclamp htie
  · constructor
    · intro h
      exact ⟨h.joined, h.noTie⟩
    · intro h
      obtain ⟨hjoined, htie⟩ := h
      exact loopsExact_of hjoined htie

/-! ## Samples -/

/-- A database with two tasks, created at these seconds. -/
def createdAtSeconds (first second : Nat) : Db :=
  (Db.oneProject.insertTask (plainTask .open none) [] first).insertTask (plainTask .open none) []
    second

/-- A machine whose statements leave ties in the order of the table. -/
def stableHost : ListHost where
  isDatetime _ := true
  datetime _ := none
  ftsMalformed _ := false
  ftsMatch _ _ _ := true
  order _ := .stable
  maxQuery := 8192

/-- The theorem at two tasks of different seconds. -/
theorem pages_partition_two_seconds : PagesPartition stableHost (createdAtSeconds 0 1) {} 1 ∧
    LoopsExact (createdAtSeconds 0 1) 1 := by
  have htwo := paging_partitions_iff stableHost (createdAtSeconds 0 1) {} 1 1 (by decide) rfl
  have hends : ∀ k, 0 < k → NoTieAtPageEnd ((createdAtSeconds 0 1).projectTasks 1) k := by
    intro k hk i hsplit
    have hnone : ∀ j < 2, ¬ Paging.SplitsTie notOlder ((createdAtSeconds 0 1).projectTasks 1) j := by
      decide +kernel
    exact hnone _ hsplit.lt_length hsplit
  exact ⟨htwo.1.2 ⟨by decide +kernel, by decide, hends 1 (by decide)⟩,
    htwo.2.2 ⟨by decide +kernel, hends maxPageLimit (by decide)⟩⟩

/-- Two tasks of one second, the tie in the other order for the second page: the first task is on
    both pages. -/
theorem tied_task_on_both_pages :
    (∃ order : TaskFilters → RowOrder,
      (readPages { stableHost with order } (createdAtSeconds 0 0) {} 1 2).map (·.id) = [1, 1]) ∧
    count stableHost (createdAtSeconds 0 0) {} = some 2 ∧
    ¬ PagesPartition stableHost (createdAtSeconds 0 0) {} 1 := by
  let order (g : TaskFilters) : RowOrder :=
    if g.offset = some 0 then .stable else .ofListing (createdAtSeconds 0 0).tasks.rows.reverse
  have hpages : (readPages { stableHost with order } (createdAtSeconds 0 0) {} 1 2).map (·.id) =
      [1, 1] := by
    decide +kernel
  refine ⟨⟨order, hpages⟩, by decide +kernel, fun h => ?_⟩
  have hperm := (h order 2 (by decide +kernel)).1
  rw [hpages] at hperm
  exact absurd hperm (by decide +kernel)

end WoodFiredTasks
