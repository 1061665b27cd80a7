import Mathlib.Data.List.Infix
import WoodFiredTasks.Repositories.TaskRepository
import WoodFiredTasks.Services.Wsjf

set_option autoImplicit false

/-! # The score gate

The deterministic component functions of `src/services/wsjf.service.ts` and the gate in front of
them, `validateScoreSubmission`: from a classification and features it either computes the four
components or says what is wrong. A JavaScript number is a rational here, so a variance is compared
with its floor without rounding. -/

namespace WoodFiredTasks

/-! ## The component functions -/

/-- `tcFromDaysUntil`. -/
def tcFromDaysUntil (days : ℚ) : Fib :=
  if days ≤ 0 then .thirteen
  else if days ≤ 7 then .eight
  else if days ≤ 90 then .five
  else if days ≤ 180 then .three
  else if days ≤ 365 then .two
  else .one

/-- `tcFromDecayClass`. -/
def tcFromDecayClass : DecayClass → Fib
  | .flat => .one
  | .slow => .three
  | .fast => .five

/-- `rrFromFanout`. -/
def rrFromFanout (n : ℚ) : Fib :=
  if n ≤ 0 then .one
  else if n = 1 then .three
  else if n ≤ 3 then .five
  else if n ≤ 7 then .eight
  else .thirteen

/-- `rrFromSeverity`. -/
def rrFromSeverity : SeverityClass → Fib
  | .none => .one
  | .techDebt => .three
  | .security | .dataLoss | .compliance => .eight

/-- `String.prototype.includes`. -/
def includes (text part : String) : Bool := decide (part.toList <:+: text.toList)

def typoKeywords : List String := ["typo", "config", "copy"]
def heavyKeywords : List String := ["refactor", "migrate", "rewrite", "new subsystem"]

/-- `jobSizeBand`. -/
def jobSizeBand (env : Env) (filesTouched : Option ℚ) (text : String) : Fib × Fib :=
  match filesTouched with
  | some files =>
    if files ≤ 1 then (.one, .two)
    else if files ≤ 3 then (.two, .five)
    else if files ≤ 8 then (.five, .eight)
    else (.eight, .thirteen)
  | none =>
    let lower := env.toLowerCase text
    if typoKeywords.any (includes lower) then (.one, .three)
    else if heavyKeywords.any (includes lower) then (.eight, .thirteen)
    else (.one, .thirteen)

/-- `oneStepDown`. -/
def oneStepDown : Fib → Fib
  | .thirteen => .eight
  | .eight => .five
  | .five => .three
  | .three => .two
  | .two => .one
  | .one => .one

/-- `ubvFromThemeAlignment`. -/
def ubvFromThemeAlignment (weight : Fib) : AlignmentClass → Fib
  | .core => weight
  | .direct => oneStepDown weight
  | .weak => oneStepDown (oneStepDown weight)
  | .none => .one

/-- `ubvFor`: without a charter, or without the theme in it, the weight is 1. -/
def ubvFor (classification : WsjfClassification) (charter : Option ValueCharter) : Fib :=
  let theme := charter.bind fun c => classification.themeName.bind fun name =>
    c.valueThemes.find? fun t => t.name == name
  ubvFromThemeAlignment (theme.elim .one (·.weight)) classification.alignment

/-- `Math.max` of two tiers. -/
def Fib.max (a b : Fib) : Fib := if a.toNat < b.toNat then b else a

/-- The components that the gate computes from a classification and features. -/
def serverComponents (classification : WsjfClassification) (features : WsjfFeatures)
    (charter : Option ValueCharter) : WsjfComponents where
  value := ubvFor classification charter
  timeCriticality := match features.daysUntilDeadline with
    | some days => tcFromDaysUntil days
    | none => tcFromDecayClass (classification.decay.getD .flat)
  riskOpportunity :=
    (rrFromFanout features.transitiveDependents).max (rrFromSeverity classification.severity)
  jobSize := classification.jobSizeTier

/-! ## The gate -/

structure ScoreSubmission where
  classification : WsjfClassification
  features : WsjfFeatures
  deriving DecidableEq, Repr

structure ValidateContext where
  charter : Option ValueCharter
  sourceText : Option String := none
  batch : Option (List WsjfComponents) := none

/-- The spans of an evidence map with their keys. -/
def WsjfEvidence.spans (e : WsjfEvidence) : List (String × String) :=
  [("value", e.value), ("timeCriticality", e.timeCriticality),
    ("riskOpportunity", e.riskOpportunity), ("jobSize", e.jobSize)]

/-- `ScoreSubmissionSchema` on a submission of the right shape: no evidence span is empty. -/
def submissionErrors (s : ScoreSubmission) : List String :=
  (WsjfEvidence.spans s.classification.evidence).filterMap fun (key, span) =>
    if span = "" then
      some s!"classification.evidence.{key}: evidence.{key} must be a non-empty span"
    else none

/-- The theme is one of the charter's, and there is none exactly when there is no charter. -/
def themeErrors (themeName : Option String) (charter : Option ValueCharter) : List String :=
  match charter, themeName with
  | none, none => []
  | none, some name =>
    [s!"themeName \"{name}\" supplied but project has no charter (only null allowed)"]
  | some _, none => ["themeName=null is only allowed when the project has no charter"]
  | some c, some name =>
    if c.valueThemes.any fun t => t.name == name then []
    else [s!"themeName \"{name}\" is not a theme in the project charter"]

/-- The text of a charter that evidence may be taken from. -/
def charterText (charter : Option ValueCharter) : String :=
  match charter with
  | none => ""
  | some c =>
    "\n".intercalate ([c.mission, c.timeContext, c.riskPosture] ++
      c.valueThemes.flatMap fun t => [t.name, t.description])

/-- Every span occurs in the source. -/
def evidenceErrors (evidence : WsjfEvidence) (source : String) : List String :=
  evidence.spans.filterMap fun (key, span) =>
    if includes source span then none
    else some s!"evidence.{key} span is not a verbatim substring of the source text: \"{span}\""

/-- The tier is within the band. -/
def bandErrors (tier : Fib) (band : Fib × Fib) : List String :=
  if tier.toNat < band.1.toNat ∨ band.2.toNat < tier.toNat then
    let size := tier.toNat
    let low := band.1.toNat
    let high := band.2.toNat
    [s!"jobSizeTier {size} is outside the allowed band [{low}, {high}]"]
  else []

/-- `populationVariance`. -/
def populationVariance (xs : List ℚ) : ℚ :=
  if xs = [] then 0
  else
    let mean := xs.sum / xs.length
    (xs.map fun x => (x - mean) * (x - mean)).sum / xs.length

/-- `VARIANCE_FLOOR`. -/
def varianceFloor : ℚ := 1 / 2

/-- The batch invariants of one column. -/
def columnErrors (col : String) (vals : List Fib) : List String :=
  (if .one ∈ vals then []
    else [s!"batch invariant: CoD column \"{col}\" has no 1 anchor " ++
      "(relative anchoring requires a baseline)"]) ++
  (if populationVariance (vals.map fun v => (v.toNat : ℚ)) < varianceFloor then
    [s!"batch invariant: CoD column \"{col}\" variance below floor 0.5 " ++
      "(degenerate, all-similar batch)"]
  else [])

/-- The batch invariants. -/
def batchErrors (batch : Option (List WsjfComponents)) : List String :=
  match batch with
  | none => []
  | some batch =>
    columnErrors "value" (batch.map (·.value))
      ++ columnErrors "timeCriticality" (batch.map (·.timeCriticality))
      ++ columnErrors "riskOpportunity" (batch.map (·.riskOpportunity))

/-- What is wrong with a submission that has the right shape. -/
def gateErrors (env : Env) (s : ScoreSubmission) (ctx : ValidateContext) : List String :=
  let text := ctx.sourceText.getD ""
  themeErrors s.classification.themeName ctx.charter
    ++ evidenceErrors s.classification.evidence (text ++ "\n" ++ charterText ctx.charter)
    ++ bandErrors s.classification.jobSizeTier (jobSizeBand env s.features.filesTouched text)
    ++ checkComponentContradictions (serverComponents s.classification s.features ctx.charter)
    ++ batchErrors ctx.batch

/-- `validateScoreSubmission`: the components, or all that is wrong. -/
def validateScoreSubmission (env : Env) (s : ScoreSubmission) (ctx : ValidateContext) :
    Except (List String) WsjfComponents :=
  if submissionErrors s ≠ [] then .error (submissionErrors s)
  else if gateErrors env s ctx ≠ [] then .error (gateErrors env s ctx)
  else .ok (serverComponents s.classification s.features ctx.charter)

/-- What passes the gate has the computed components, and they do not contradict each other. -/
theorem validateScoreSubmission_ok {env : Env} {s : ScoreSubmission} {ctx : ValidateContext}
    {c : WsjfComponents} (h : validateScoreSubmission env s ctx = .ok c) :
    c = serverComponents s.classification s.features ctx.charter ∧
      checkComponentContradictions c = [] := by
  unfold validateScoreSubmission at h
  split at h
  · cases h
  · split at h
    · cases h
    · rename_i herrors
      obtain rfl := Except.ok.inj h
      simp only [gateErrors, ne_eq, not_not, List.append_eq_nil_iff] at herrors
      exact ⟨rfl, herrors.1.2⟩

end WoodFiredTasks
