import Mathlib.Data.Rat.Defs

set_option autoImplicit false

/-! # WSJF types

The enumerations and records of weighted-shortest-job-first scoring (`src/types/wsjf.ts`). The
four components always travel together, so everything kept "per component" is one record
`PerComponent` over what is kept. JavaScript numbers that are not integers by their schema are
rationals. -/

namespace WoodFiredTasks

/-- The closed Fibonacci tier set of every component score. -/
inductive Fib where
  | one | two | three | five | eight | thirteen
  deriving DecidableEq, Repr

/-- The tier as a number. -/
def Fib.toNat : Fib → Nat
  | .one => 1
  | .two => 2
  | .three => 3
  | .five => 5
  | .eight => 8
  | .thirteen => 13

/-- One value for each of the four components. -/
structure PerComponent (α : Type) where
  value : α
  timeCriticality : α
  riskOpportunity : α
  jobSize : α
  deriving DecidableEq, Repr

/-- Provenance of a component: server-derived or set by a human. -/
inductive SourceFlag where
  | auto | manual
  deriving DecidableEq, Repr

abbrev WsjfComponents := PerComponent Fib
abbrev WsjfSource := PerComponent SourceFlag
abbrev WsjfLocks := PerComponent Bool
/-- Verbatim source spans, one for each component. -/
abbrev WsjfEvidence := PerComponent String

inductive AlignmentClass where
  | none | weak | direct | core
  deriving DecidableEq, Repr

inductive SeverityClass where
  | none | techDebt | security | dataLoss | compliance
  deriving DecidableEq, Repr

inductive DecayClass where
  | flat | slow | fast
  deriving DecidableEq, Repr

/-- What the classifier emits, never a final number. -/
structure WsjfClassification where
  themeName : Option String
  alignment : AlignmentClass
  severity : SeverityClass
  decay : Option DecayClass
  jobSizeTier : Fib
  evidence : WsjfEvidence
  deriving DecidableEq, Repr

/-- Deterministic inputs the server gathers. -/
structure WsjfFeatures where
  deadlineDate : Option String
  daysUntilDeadline : Option ℚ
  transitiveDependents : ℚ
  filesTouched : Option ℚ
  charterVersion : Option ℚ
  deriving DecidableEq, Repr

/-- `trigger` values of a history row (`WSJF_HISTORY_TRIGGERS`). -/
inductive WsjfHistoryTrigger where
  | create | update | decompose | singleCreate | rescore | manual | propagation | autoSize
  | bootSweep
  deriving DecidableEq, Repr

/-- The score payload of a create or an update: the four components, the metadata, whether a
    human set them, and the history trigger asked for. -/
structure WsjfWriteDTO extends WsjfComponents where
  evidence : Option WsjfEvidence := none
  locked : Option WsjfLocks := none
  source : Option WsjfSource := none
  classifications : Option WsjfClassification := none
  features : Option WsjfFeatures := none
  manual : Bool := false
  trigger : Option WsjfHistoryTrigger := none
  deriving DecidableEq, Repr

/-- The nine `wsjf_*` columns of a task row; `NULL` is `none`. -/
structure WsjfColumns where
  value : Option Fib := none
  timeCriticality : Option Fib := none
  riskOpportunity : Option Fib := none
  jobSize : Option Fib := none
  evidence : Option WsjfEvidence := none
  locked : Option WsjfLocks := none
  source : Option WsjfSource := none
  classifications : Option WsjfClassification := none
  features : Option WsjfFeatures := none
  deriving DecidableEq, Repr

/-- The columns an update with a score object writes. -/
def WsjfWriteDTO.columns (w : WsjfWriteDTO) : WsjfColumns where
  value := some w.value
  timeCriticality := some w.timeCriticality
  riskOpportunity := some w.riskOpportunity
  jobSize := some w.jobSize
  evidence := w.evidence
  locked := w.locked
  source := w.source
  classifications := w.classifications
  features := w.features

end WoodFiredTasks
