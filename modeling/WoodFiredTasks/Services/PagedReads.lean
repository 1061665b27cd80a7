import WoodFiredTasks.Lib.Paging
import WoodFiredTasks.Services.ListTasks
import WoodFiredTasks.Services.Ranking

set_option autoImplicit false

/-! # Reading page by page

A reader of many pages runs one statement for each of them, and SQLite may order tied rows in
another way each time. Here are the pages of `findByFilters`, and the loops of the services that
load a whole project (`loadProjectTasks` of `src/services/wsjf.service.ts`, its copies in the
rescore, health and dependency graph services, and `classify` of `src/services/topology.service.ts`)
with an order for each page. -/

namespace WoodFiredTasks

open TaskRepository

/-! ## Orders -/

/-- `ORDER BY t.created_at DESC` allows the first row before the second. -/
def notOlder (a b : Task) : Prop := b.createdAt.le a.createdAt = true

instance : DecidableRel notOlder := fun a b =>
  inferInstanceAs (Decidable (b.createdAt.le a.createdAt = true))

instance : Std.Total notOlder := ⟨fun a b => Stamp.le_total b.createdAt a.createdAt⟩
instance : IsTrans Task notOlder := ⟨fun _ _ _ h h' => Stamp.le_trans h' h⟩

theorem RowOrder.isListing (order : RowOrder) (rows : List Task) :
    Paging.IsListing notOlder rows (order.sort rows) :=
  ⟨order.perm rows, order.newestFirst rows⟩

/-- An order that puts the rows of a listing as the listing has them. -/
def RowOrder.ofListing (listing : List Task) : RowOrder where
  sort rows :=
    if listing.Perm rows ∧ listing.Pairwise notOlder then listing else RowOrder.stable.sort rows
  perm rows := by
    split
    · next h => exact h.1
    · exact RowOrder.stable.perm rows
  newestFirst rows := by
    split
    · next h => exact h.2
    · exact RowOrder.stable.newestFirst rows

theorem RowOrder.sort_ofListing {rows listing : List Task}
    (h : Paging.IsListing notOlder rows listing) :
    (RowOrder.ofListing listing).sort rows = listing := if_pos ⟨h.perm, h.sorted⟩

/-! ## The rows -/

/-- `INNER JOIN projects p ON p.id = t.project_id` keeps the row. -/
def Db.joined (db : Db) (t : Task) : Bool := (db.projects.find? t.projectId).isSome

/-- The rows that meet the filters, which `count` counts. -/
def Db.matching (host : ListHost) (db : Db) (f : TaskFilters) : List Task :=
  db.tasks.rows.filter fun t => t.meets host db f

/-- The rows from which `findByFilters` takes its page. -/
def Db.found (host : ListHost) (db : Db) (f : TaskFilters) : List Task :=
  db.tasks.rows.filter fun t => db.joined t && t.meets host db f

/-- The first `m` pages of `k` tasks. -/
def readPages (host : ListHost) (db : Db) (f : TaskFilters) (k m : Nat) : List Task :=
  (List.range m).flatMap fun i =>
    (findByFilters host db { f with limit := some k, offset := some (i * k) }).getD []

/-- The rows of a project from which the services take their pages. -/
def Db.foundProject (db : Db) (projectId : Nat) : List Task :=
  (db.projectTasks projectId).filter db.joined

/-- The page at an offset, from the statement with this order; `row` is what it makes of a row. -/
def fetchPage (order : RowOrder) (row : Task → Task) (rows : List Task) (offset : Nat) : List Task :=
  page ((order.sort rows).map row) maxPageLimit offset

theorem length_fetchPage (order : RowOrder) (row : Task → Task) (rows : List Task) (offset : Nat) :
    (fetchPage order row rows offset).length = min maxPageLimit (rows.length - offset) := by
  simp [fetchPage, page, (order.perm rows).length_eq]

/-- The loop of the services: `orders` has the order of the statement at each offset. -/
def fetchPages {β : Type} (size : β → Nat) (add : β → Task → β) (orders : Nat → RowOrder)
    (row : Task → Task) (rows : List Task) (expected offset : Nat) (acc : β) : β :=
  if size acc < expected then
    if fetchPage (orders offset) row rows offset = [] then acc
    else
      fetchPages size add orders row rows expected
        (offset + (fetchPage (orders offset) row rows offset).length)
        ((fetchPage (orders offset) row rows offset).foldl add acc)
  else acc
termination_by rows.length - offset
decreasing_by
  rename_i hpage
  have hlength := length_fetchPage (orders offset) row rows offset
  have hpos := List.length_pos_iff.2 hpage
  omega

/-- With one order for all pages it is the loop over the pages of one listing. -/
theorem fetchPages_const {β : Type} (size : β → Nat) (add : β → Task → β) (order : RowOrder)
    (row : Task → Task) (rows : List Task) (expected offset : Nat) (acc : β) :
    fetchPages size add (fun _ => order) row rows expected offset acc =
      pageLoop size add ((order.sort rows).map row) expected offset acc := by
  induction offset, acc using fetchPages.induct size add (fun _ => order) row rows expected with
  | case1 offset acc hsize hpage =>
    have hpage' : page ((order.sort rows).map row) maxPageLimit offset = [] := hpage
    rw [fetchPages, pageLoop, if_pos hsize, if_pos hsize, if_pos hpage, if_pos hpage']
  | case2 offset acc hsize hpage ih =>
    have hpage' : ¬ page ((order.sort rows).map row) maxPageLimit offset = [] := hpage
    rw [fetchPages, pageLoop, if_pos hsize, if_pos hsize, if_neg hpage, if_neg hpage']
    exact ih
  | case3 offset acc hsize =>
    rw [fetchPages, pageLoop, if_neg hsize, if_neg hsize]

/-- `loadProjectTasks`. -/
def loadProjectPages (orders : Nat → RowOrder) (db : Db) (projectId : Nat) : List Task :=
  fetchPages List.length (fun out t => out ++ [t]) orders Task.untagged (db.foundProject projectId)
    (countProject db projectId) 0 []

/-- The set of ids that `classify` collects. -/
def projectIdPages (orders : Nat → RowOrder) (db : Db) (projectId : Nat) : List Nat :=
  fetchPages List.length addId orders Task.listed (db.foundProject projectId)
    (countProject db projectId) 0 []

end WoodFiredTasks
