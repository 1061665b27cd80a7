import Mathlib.Algebra.Order.Ring.Rat
import WoodFiredTasks.Lib.Median
import WoodFiredTasks.Services.Wsjf

set_option autoImplicit false

/-! # Redundant scoring

`redundantScore` of `src/services/wsjf.service.ts` and what it is made of: several classifications
of one task are folded into the lower median of each component, and where they disagree a verifier
decides whether the component is to be trusted. The sampler and the verifier are given by what they
return; one that throws is left out.

A minority of the samples cannot move a component out of the range of the others, whatever it says,
and a component that is not flagged was agreed on by all of the samples or by the verifier
(`redundantScore_sound`). -/

namespace WoodFiredTasks

/-- `WsjfComponentKey`. -/
inductive WsjfComponentKey where
  | value | timeCriticality | riskOpportunity | jobSize
  deriving DecidableEq, Repr

/-- `components[key]`. -/
def PerComponent.get {α : Type} (c : PerComponent α) : WsjfComponentKey → α
  | .value => c.value
  | .timeCriticality => c.timeCriticality
  | .riskOpportunity => c.riskOpportunity
  | .jobSize => c.jobSize

namespace RedundantScore

/-- `COMPONENT_KEYS`. -/
def componentKeys : List WsjfComponentKey := [.value, .timeCriticality, .riskOpportunity, .jobSize]

theorem mem_componentKeys (key : WsjfComponentKey) : key ∈ componentKeys := by
  cases key <;> decide

/-- `DEFAULT_REDUNDANCY_SAMPLES`. -/
def defaultSamples : Nat := 3

/-- `DEFAULT_REDUNDANCY_TOLERANCE`. -/
def defaultTolerance : ℚ := 1

/-- `FIB`. -/
def fibs : List Fib := [.one, .two, .three, .five, .eight, .thirteen]

/-- `fibOrdinal`. -/
def fibOrdinal (f : Fib) : Nat := fibs.idxOf f

theorem fibs_fibOrdinal (f : Fib) : fibs[fibOrdinal f]? = some f := by
  cases f <;> rfl

/-- `fibMedianBucket`; `none` when it throws. -/
def fibMedianBucket (samples : List Fib) : Option Fib :=
  (Median.lowerMedian (samples.map fibOrdinal)).bind fun ordinal => fibs[ordinal]?

/-- `aggregateSamples`; `none` when it throws. -/
def aggregateSamples (samples : List WsjfComponents) : Option WsjfComponents := do
  let value ← fibMedianBucket (samples.map (·.value))
  let timeCriticality ← fibMedianBucket (samples.map (·.timeCriticality))
  let riskOpportunity ← fibMedianBucket (samples.map (·.riskOpportunity))
  let jobSize ← fibMedianBucket (samples.map (·.jobSize))
  return ⟨value, timeCriticality, riskOpportunity, jobSize⟩

/-- `Math.max(...ords)` of ordinals, of which there is one. -/
def maxOrdinal (ords : List Nat) : Nat := ords.foldr max 0

/-- `Math.min(...ords)` of ordinals, of which there is one. -/
def minOrdinal (ords : List Nat) : Nat := ords.foldr min (maxOrdinal ords)

/-- `componentSpread`. -/
def componentSpread (samples : List WsjfComponents) (key : WsjfComponentKey) : Nat :=
  let ords := samples.map fun s => fibOrdinal (s.get key)
  maxOrdinal ords - minOrdinal ords

/-- `disagreeingComponents`. -/
def disagreeingComponents (samples : List WsjfComponents) (tolerance : ℚ) :
    List WsjfComponentKey :=
  componentKeys.filter fun key => tolerance < componentSpread samples key

structure RedundantScoreResult where
  components : WsjfComponents
  escalated : Bool
  lowConfidence : List WsjfComponentKey
  samples : List WsjfComponents
  deriving DecidableEq

/-- `Math.abs(fibOrdinal(a) - fibOrdinal(b))`. -/
def ordinalDistance (a b : Fib) : Nat :=
  (fibOrdinal a - fibOrdinal b) + (fibOrdinal b - fibOrdinal a)

/-- `redundantScore`: `sample i` is what the sampler returns when it is called for the `i`-th time,
    and `verify` what the verifier returns, if there is one. -/
def redundantScore (sample : Nat → WsjfComponents) (verify : Option WsjfComponents)
    (samplesOption : Option Nat) (toleranceOption : Option ℚ) : Option RedundantScoreResult :=
  let n := max 1 (samplesOption.getD defaultSamples)
  let tolerance := toleranceOption.getD defaultTolerance
  let samples := (List.range n).map sample
  (aggregateSamples samples).map fun aggregate =>
    let disagree := disagreeingComponents samples tolerance
    let contradiction := checkComponentContradictions aggregate ≠ []
    if disagree = [] ∧ ¬ contradiction then ⟨aggregate, false, [], samples⟩
    else match verify with
      | none => ⟨aggregate, false, disagree, samples⟩
      | some verifierComponents =>
        let underReview := if contradiction then componentKeys else disagree
        -- both lists are in canonical order already
        let lowConfidence := underReview.filter fun key =>
          tolerance < ordinalDistance (verifierComponents.get key) (aggregate.get key)
        ⟨aggregate, true, lowConfidence, samples⟩

/-! ## The median of a component -/

theorem aggregateSamples_get {samples : List WsjfComponents} {aggregate : WsjfComponents}
    (h : aggregateSamples samples = some aggregate) (key : WsjfComponentKey) :
    fibMedianBucket (samples.map (·.get key)) = some (aggregate.get key) := by
  simp only [aggregateSamples, Option.bind_eq_bind, Option.pure_def, Option.bind_eq_some_iff,
    Option.some.injEq] at h
  obtain ⟨value, hvalue, timeCriticality, htime, riskOpportunity, hrisk, jobSize, hsize, rfl⟩ := h
  cases key with
  | value => exact hvalue
  | timeCriticality => exact htime
  | riskOpportunity => exact hrisk
  | jobSize => exact hsize

/-- The median bucket is the sampled tier whose ordinal is the lower median. -/
theorem fibMedianBucket_eq_some {samples : List Fib} {f : Fib} :
    fibMedianBucket samples = some f ↔
      Median.lowerMedian (samples.map fibOrdinal) = some (fibOrdinal f) := by
  unfold fibMedianBucket
  rw [Option.bind_eq_some_iff]
  constructor
  · rintro ⟨ordinal, hmedian, hf⟩
    obtain ⟨g, -, rfl⟩ := List.mem_map.1 (Median.mem_of_lowerMedian hmedian)
    rw [fibs_fibOrdinal, Option.some.injEq] at hf
    rw [← hf]
    exact hmedian
  · intro h
    exact ⟨_, h, fibs_fibOrdinal f⟩

theorem exists_aggregate {samples : List WsjfComponents} (h : samples ≠ []) :
    ∃ aggregate, aggregateSamples samples = some aggregate := by
  have hbucket : ∀ key : WsjfComponentKey, ∃ f, fibMedianBucket (samples.map (·.get key)) = some f := by
    intro key
    obtain ⟨m, hm⟩ := Median.exists_lowerMedian
      (l := (samples.map (·.get key)).map fibOrdinal) (by simpa using h)
    obtain ⟨f, -, rfl⟩ := List.mem_map.1 (Median.mem_of_lowerMedian hm)
    exact ⟨f, fibMedianBucket_eq_some.2 hm⟩
  obtain ⟨value, hvalue⟩ := hbucket .value
  obtain ⟨timeCriticality, htime⟩ := hbucket .timeCriticality
  obtain ⟨riskOpportunity, hrisk⟩ := hbucket .riskOpportunity
  obtain ⟨jobSize, hsize⟩ := hbucket .jobSize
  refine ⟨⟨value, timeCriticality, riskOpportunity, jobSize⟩, ?_⟩
  simp only [aggregateSamples, Option.bind_eq_bind, Option.pure_def, Option.bind_eq_some_iff,
    Option.some.injEq]
  exact ⟨value, hvalue, timeCriticality, htime, riskOpportunity, hrisk, jobSize, hsize, rfl⟩

theorem fibOrdinal_inj {a b : Fib} (h : fibOrdinal a = fibOrdinal b) : a = b := by
  have hsome : some a = some b := by rw [← fibs_fibOrdinal a, h, fibs_fibOrdinal b]
  exact Option.some.inj hsome

theorem fibMedianBucket_perm {samples samples' : List Fib} (h : samples.Perm samples') :
    fibMedianBucket samples = fibMedianBucket samples' := by
  unfold fibMedianBucket
  rw [Median.lowerMedian_perm (h.map fibOrdinal)]

/-- The order in which the samples came in is of no account. -/
theorem aggregateSamples_perm {samples samples' : List WsjfComponents}
    (h : samples.Perm samples') : aggregateSamples samples = aggregateSamples samples' := by
  unfold aggregateSamples
  rw [fibMedianBucket_perm (h.map (·.value)), fibMedianBucket_perm (h.map (·.timeCriticality)),
    fibMedianBucket_perm (h.map (·.riskOpportunity)), fibMedianBucket_perm (h.map (·.jobSize))]

/-- The number of samples whose component lies between two ordinals. -/
def countWithin (samples : List WsjfComponents) (key : WsjfComponentKey) (lo hi : Nat) : Nat :=
  samples.countP fun s => lo ≤ fibOrdinal (s.get key) ∧ fibOrdinal (s.get key) ≤ hi

/-- More than half of the samples bound the aggregate. -/
theorem aggregate_within {samples : List WsjfComponents} {aggregate : WsjfComponents}
    (h : aggregateSamples samples = some aggregate) {key : WsjfComponentKey} {lo hi : Nat}
    (hmajority : samples.length < 2 * countWithin samples key lo hi) :
    lo ≤ fibOrdinal (aggregate.get key) ∧ fibOrdinal (aggregate.get key) ≤ hi := by
  have hmedian := fibMedianBucket_eq_some.1 (aggregateSamples_get h key)
  rw [List.map_map] at hmedian
  have hlower : countWithin samples key lo hi ≤
      (samples.map (fibOrdinal ∘ (·.get key))).countP (lo ≤ ·) := by
    rw [List.countP_map]
    refine List.countP_mono_left fun s _ hs => ?_
    exact decide_eq_true (of_decide_eq_true hs).1
  have hupper : countWithin samples key lo hi ≤
      (samples.map (fibOrdinal ∘ (·.get key))).countP (· ≤ hi) := by
    rw [List.countP_map]
    refine List.countP_mono_left fun s _ hs => ?_
    exact decide_eq_true (of_decide_eq_true hs).2
  constructor
  · refine Median.le_lowerMedian hmedian ?_
    rw [List.length_map]
    omega
  · refine Median.lowerMedian_le hmedian ?_
    rw [List.length_map]
    omega

/-! ## The spread of a component -/

theorem le_maxOrdinal {ords : List Nat} {o : Nat} (h : o ∈ ords) : o ≤ maxOrdinal ords := by
  induction ords with
  | nil => exact absurd h List.not_mem_nil
  | cons a rest ih =>
    show o ≤ max a (maxOrdinal rest)
    rcases List.mem_cons.1 h with rfl | h
    · omega
    · have := ih h
      omega

theorem minOrdinal_le {ords : List Nat} {o : Nat} (h : o ∈ ords) : minOrdinal ords ≤ o := by
  unfold minOrdinal
  generalize maxOrdinal ords = start
  induction ords with
  | nil => exact absurd h List.not_mem_nil
  | cons a rest ih =>
    rw [List.foldr_cons]
    rcases List.mem_cons.1 h with rfl | h
    · omega
    · have := ih h
      omega

/-- No two samples are further apart than the spread. -/
theorem ordinalDistance_le_spread {samples : List WsjfComponents} {a b : WsjfComponents}
    (ha : a ∈ samples) (hb : b ∈ samples) (key : WsjfComponentKey) :
    ordinalDistance (a.get key) (b.get key) ≤ componentSpread samples key := by
  have hmem : ∀ s ∈ samples,
      fibOrdinal (s.get key) ∈ samples.map fun s => fibOrdinal (s.get key) :=
    fun s hs => List.mem_map_of_mem hs
  have hamax := le_maxOrdinal (hmem a ha)
  have hbmax := le_maxOrdinal (hmem b hb)
  have hamin := minOrdinal_le (hmem a ha)
  have hbmin := minOrdinal_le (hmem b hb)
  unfold ordinalDistance componentSpread
  simp only
  omega

/-! ## What a result promises -/

/-- What a redundant score says of the samples it was made of. -/
structure Sound (samples : List WsjfComponents) (verify : Option WsjfComponents) (tolerance : ℚ)
    (result : RedundantScoreResult) : Prop where
  /-- What more than half of the samples agree on holds, whatever the others say. -/
  majority : ∀ key lo hi, samples.length < 2 * countWithin samples key lo hi →
    lo ≤ fibOrdinal (result.components.get key) ∧ fibOrdinal (result.components.get key) ≤ hi
  /-- No tier is made up. -/
  sampled : ∀ key, ∃ s ∈ samples, s.get key = result.components.get key
  /-- A component that is not flagged is near to all of the samples or to the verifier's. -/
  confident : ∀ key ∉ result.lowConfidence,
    (∀ s ∈ samples, (ordinalDistance (s.get key) (result.components.get key) : ℚ) ≤ tolerance) ∨
      ∃ v ∈ verify, (ordinalDistance (v.get key) (result.components.get key) : ℚ) ≤ tolerance
  /-- The verifier is asked exactly when it is there and something is wrong. -/
  escalated : result.escalated = true ↔ verify.isSome = true ∧
    (disagreeingComponents samples tolerance ≠ [] ∨
      checkComponentContradictions result.components ≠ [])
  /-- The flags are in canonical order. -/
  ordered : result.lowConfidence.Sublist componentKeys

theorem mem_disagreeing {samples : List WsjfComponents} {tolerance : ℚ} {key : WsjfComponentKey} :
    key ∈ disagreeingComponents samples tolerance ↔ tolerance < componentSpread samples key := by
  unfold disagreeingComponents
  rw [List.mem_filter, decide_eq_true_eq]
  exact and_iff_right (mem_componentKeys key)

/-- **Main theorem.** Redundant scoring always gives a result, and the result is sound. -/
theorem redundantScore_sound (sample : Nat → WsjfComponents) (verify : Option WsjfComponents)
    (samplesOption : Option Nat) (toleranceOption : Option ℚ) :
    ∃ result, redundantScore sample verify samplesOption toleranceOption = some result ∧
      result.samples = (List.range (max 1 (samplesOption.getD defaultSamples))).map sample ∧
      Sound result.samples verify (toleranceOption.getD defaultTolerance) result := by
  unfold redundantScore
  simp only
  generalize hsamples : (List.range (max 1 (samplesOption.getD defaultSamples))).map sample
    = samples
  generalize toleranceOption.getD defaultTolerance = tolerance
  have hne : samples ≠ [] := by
    rw [← hsamples, Ne, List.map_eq_nil_iff, List.range_eq_nil]
    omega
  obtain ⟨aggregate, haggregate⟩ := exists_aggregate hne
  rw [haggregate, Option.map_some]
  refine ⟨_, rfl, ?_⟩
  have hmajority : ∀ key lo hi, samples.length < 2 * countWithin samples key lo hi →
      lo ≤ fibOrdinal (aggregate.get key) ∧ fibOrdinal (aggregate.get key) ≤ hi :=
    fun key lo hi => aggregate_within haggregate
  have hsampled : ∀ key, ∃ s ∈ samples, s.get key = aggregate.get key := by
    intro key
    have hmedian := fibMedianBucket_eq_some.1 (aggregateSamples_get haggregate key)
    rw [List.map_map] at hmedian
    obtain ⟨s, hs, heq⟩ := List.mem_map.1 (Median.mem_of_lowerMedian hmedian)
    exact ⟨s, hs, fibOrdinal_inj heq⟩
  -- without a disagreement every sample is near to the one that the aggregate comes from
  have hagreed : ∀ key ∉ disagreeingComponents samples tolerance, ∀ s ∈ samples,
      (ordinalDistance (s.get key) (aggregate.get key) : ℚ) ≤ tolerance := by
    intro key hkey s hs
    rw [mem_disagreeing, not_lt] at hkey
    obtain ⟨t, ht, hget⟩ := hsampled key
    rw [← hget]
    exact le_trans (by exact_mod_cast ordinalDistance_le_spread hs ht key) hkey
  by_cases hquiet : disagreeingComponents samples tolerance = [] ∧
      ¬ checkComponentContradictions aggregate ≠ []
  · rw [if_pos hquiet]
    refine ⟨rfl, hmajority, hsampled, fun key _ => .inl (hagreed key (by simp [hquiet.1])), ?_,
      List.nil_sublist _⟩
    simp [hquiet.1, not_not.1 hquiet.2]
  · rw [if_neg hquiet]
    rw [not_and_or, not_not] at hquiet
    cases verify with
    | none =>
      refine ⟨rfl, hmajority, hsampled, fun key hkey => .inl (hagreed key hkey), by simp,
        List.filter_sublist⟩
    | some v =>
      refine ⟨rfl, hmajority, hsampled, fun key hkey => ?_, by simpa using hquiet, ?_⟩
      · by_cases hreview : key ∈
            (if checkComponentContradictions aggregate ≠ [] then componentKeys
              else disagreeingComponents samples tolerance)
        · refine .inr ⟨v, rfl, not_lt.1 fun hfar => hkey ?_⟩
          exact List.mem_filter.2 ⟨hreview, decide_eq_true hfar⟩
        · refine .inl (hagreed key fun hdisagree => hreview ?_)
          split_ifs
          · exact mem_componentKeys key
          · exact hdisagree
      · refine List.filter_sublist.trans ?_
        split_ifs
        · exact List.Sublist.refl _
        · exact List.filter_sublist

end RedundantScore

end WoodFiredTasks
