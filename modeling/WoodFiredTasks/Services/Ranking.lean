import Mathlib.Algebra.Order.Field.Rat
import Mathlib.Algebra.BigOperators.Group.Finset.Basic
import Mathlib.Algebra.Order.BigOperators.Group.Finset
import Mathlib.Tactic.Linarith
import Mathlib.Tactic.Positivity
import WoodFiredTasks.Lib.Bfs
import WoodFiredTasks.Services.Topology
import WoodFiredTasks.Services.Wsjf

set_option autoImplicit false

/-! # WSJF ranking

`rankFrontier` (`src/services/wsjf.service.ts`): the tasks of a project with the cost of delay of
everything that waits for them folded onto their own, sorted. Scores are exact rationals. -/

namespace WoodFiredTasks

/-! ## The code -/

/-- `PROPAGATION_GAMMA`. -/
def propagationGamma : ℚ := 1 / 2

/-- `PROPAGATION_CAP`. -/
def propagationCap : ℚ := 3

/-- `priorityFallbackScore`. -/
def priorityFallbackScore : TaskPriority → ℚ
  | .urgent => 9
  | .high => 6
  | .medium => 3
  | .low => 1

/-- `hasComponents`, with the four components it finds. -/
def hasComponents (t : Task) : Option WsjfComponents :=
  match t.wsjf.value, t.wsjf.timeCriticality, t.wsjf.riskOpportunity, t.wsjf.jobSize with
  | some value, some timeCriticality, some riskOpportunity, some jobSize =>
    some ⟨value, timeCriticality, riskOpportunity, jobSize⟩
  | _, _, _, _ => none

@[simp] theorem hasComponents_untagged (t : Task) :
    hasComponents t.untagged = hasComponents t := rfl

/-- One dependent's share in the cost of delay of a task. -/
structure Contribution where
  dependentId : Nat
  contribution : ℚ
  deriving DecidableEq, Repr

structure RankedTask where
  taskId : Nat
  scored : Bool
  baseWsjf : Option ℚ
  effectiveWsjf : ℚ
  components : Option WsjfComponents
  propagation : List Contribution
  evidence : Option WsjfEvidence
  deriving DecidableEq, Repr

/-- `scope`. -/
inductive RankScope where
  | frontier | all
  deriving DecidableEq, Repr

namespace Ranking

/-- `taskById.get(id)`. -/
def taskById (tasks : List Task) (id : Nat) : Option Task := tasks.find? fun t => t.id == id

/-- `base_CoD`. -/
def baseCoD (c : WsjfComponents) : ℚ :=
  c.value.toNat + c.timeCriticality.toNat + c.riskOpportunity.toNat

/-- `baseCoD.get(id)`: only scored tasks have an entry. -/
def baseCoDOf (tasks : List Task) (id : Nat) : Option ℚ :=
  (taskById tasks id).bind fun t => (hasComponents t).map baseCoD

/-- The distance table of a task's downstream closure. The search always ends
    (`Bfs.distances_spec`). -/
def distances (tasks : List Task) (edges : List ProjectEdge) (id : Nat) : List (Nat × Nat) :=
  (Bfs.distances (Kahn.successors edges) (tasks.length + 1) id).getD []

/-- The share of one dependent, if it is scored. -/
def contribution (tasks : List Task) (distance : List (Nat × Nat)) (depId : Nat) :
    Option Contribution :=
  match baseCoDOf tasks depId, distance.lookup depId with
  | some depBase, some dist =>
    let contribution := depBase * propagationGamma ^ (dist - 1)
    if contribution = 0 then none else some ⟨depId, contribution⟩
  | _, _ => none

/-- The shares of all dependents of a task, by ascending id. -/
def contributions (tasks : List Task) (edges : List ProjectEdge) (id : Nat) :
    List Contribution :=
  let distance := distances tasks edges id
  let dependentIds := sortIds ((distance.map Prod.fst).filter fun depId => depId ≠ id)
  dependentIds.filterMap (contribution tasks distance)

/-- `effectiveCoD` of a scored task: its own and its dependents' cost of delay, capped. -/
def effectiveCoD (tasks : List Task) (edges : List ProjectEdge) (id : Nat) (c : WsjfComponents) :
    ℚ :=
  let base := baseCoD c
  let sum := ((contributions tasks edges id).map Contribution.contribution).sum
  min (base + sum) (base * propagationCap)

/-- `isReady`. -/
def isReady (tasks : List Task) (edges : List ProjectEdge) (t : Task) : Bool :=
  t.status != .blocked &&
    (Kahn.successors (edges.map Prod.swap) t.id).all fun blockerId =>
      match taskById tasks blockerId with
      | none => true
      | some blocker => blocker.status == .done || blocker.status == .closed

/-- The row of a task. -/
def rankedTask (tasks : List Task) (edges : List ProjectEdge) (t : Task) : RankedTask :=
  match hasComponents t with
  | some components =>
    { taskId := t.id
      scored := true
      baseWsjf := some (computeWsjf components)
      effectiveWsjf :=
        effectiveCoD tasks edges t.id components / max (components.jobSize.toNat : ℚ) 1
      components := some components
      propagation := contributions tasks edges t.id
      evidence := t.wsjf.evidence }
  | none =>
    { taskId := t.id
      scored := false
      baseWsjf := none
      effectiveWsjf := priorityFallbackScore t.priority
      components := none
      propagation := []
      evidence := none }

/-- `taskById.get(id)!.created_at`. -/
def createdAt (tasks : List Task) (id : Nat) : Stamp :=
  ((taskById tasks id).map Task.createdAt).getD (.iso 0)

/-- The comparison of the sort: is `a` to stand before `b`, or are they equal? -/
def rankedLe (tasks : List Task) (a b : RankedTask) : Prop :=
  if b.effectiveWsjf ≠ a.effectiveWsjf then b.effectiveWsjf ≤ a.effectiveWsjf
  else if createdAt tasks a.taskId ≠ createdAt tasks b.taskId then
    (createdAt tasks a.taskId).le (createdAt tasks b.taskId) = true
  else a.taskId ≤ b.taskId

instance (tasks : List Task) : DecidableRel (rankedLe tasks) := fun a b => by
  unfold rankedLe
  infer_instance

/-- `rankFrontier`. The listing is ordered by `order` where it joins the tags, by `order'` where
    it does not. -/
def rankFrontier (order order' : RowOrder) (db : Db) (projectId : Nat) (scope : RankScope) :
    Except Err (List RankedTask) :=
  let report := TopologyService.classify order db projectId
  if report.topology = .dagCyclic then
    .error (.business s!"Cannot rank project {projectId}: dependency graph is cyclic (DAG_CYCLIC); break the cycle before ranking")
  else
    let allTasks := loadProjectTasks order' db projectId
    let scopedTasks := match scope with
      | .frontier => allTasks.filter (isReady allTasks report.edges)
      | .all => allTasks
    .ok ((scopedTasks.map (rankedTask allTasks report.edges)).insertionSort (rankedLe allTasks))

end Ranking

/-! ## The order of instants -/

namespace Stamp

theorem le_refl (a : Stamp) : a.le a = true := by
  cases a <;> simp [le]

theorem le_total (a b : Stamp) : a.le b = true ∨ b.le a = true := by
  cases a <;> cases b <;> simp only [le, decide_eq_true_eq] <;> omega

theorem le_antisymm {a b : Stamp} (h : a.le b = true) (h' : b.le a = true) : a = b := by
  cases a <;> cases b <;> simp only [le, decide_eq_true_eq] at h h'
  · rw [Nat.le_antisymm h h']
  · omega
  · omega
  · rw [Nat.le_antisymm h h']

theorem le_trans {a b c : Stamp} (h : a.le b = true) (h' : b.le c = true) : a.le c = true := by
  have hms : ∀ {m n : Nat}, m ≤ n → (iso m).day ≤ (iso n).day :=
    fun hmn => Nat.div_le_div_right hmn
  have hsec : ∀ {m n : Nat}, m ≤ n → (sqlite m).day ≤ (sqlite n).day :=
    fun hmn => Nat.div_le_div_right hmn
  cases a <;> cases b <;> cases c <;> simp only [le, decide_eq_true_eq] at h h' ⊢
  · omega
  · have := hms h
    omega
  · by_contra hlt
    have := hms (Nat.le_of_lt (Nat.lt_of_not_le hlt))
    omega
  · have := hsec h'
    omega
  · have := hms h'
    omega
  · by_contra hlt
    have := hsec (Nat.le_of_lt (Nat.lt_of_not_le hlt))
    omega
  · have := hsec h
    omega
  · omega

end Stamp

/-- Newest first, equal instants in the order of the table. -/
def RowOrder.stable : RowOrder where
  sort rows := rows.insertionSort fun a b => b.createdAt.le a.createdAt = true
  perm rows := List.perm_insertionSort _ rows
  newestFirst rows := by
    have htotal : Std.Total fun a b : Task => b.createdAt.le a.createdAt = true :=
      ⟨fun a b => Stamp.le_total b.createdAt a.createdAt⟩
    have htrans : IsTrans Task fun a b => b.createdAt.le a.createdAt = true :=
      ⟨fun _ _ _ h h' => Stamp.le_trans h' h⟩
    exact List.pairwise_insertionSort _ rows

end WoodFiredTasks
