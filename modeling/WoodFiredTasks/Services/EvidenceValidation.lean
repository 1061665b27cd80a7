import WoodFiredTasks.World

set_option autoImplicit false

/-! # Anti-fabrication validation of verification evidence

`validateVerificationEvidence` (`src/services/evidence-validation.ts`): the violations of an
evidence envelope, none of which hides another. `toLowerCase` and `trim` are JavaScript's. -/

namespace WoodFiredTasks

/-- Who the evidence must be independent of. Numeric ids are given as their text. -/
structure EvidenceValidationContext where
  taskAssignee : Option String
  taskAssigneeUserId : Option String
  callerId : Option String

namespace EvidenceValidation

/-- `SELF_GRADING_SESSION_PATTERN`: the prefixes, matched without regard to case. -/
def selfGradingSession (sessionId : String) : Bool :=
  ["orchestrator", "self", "main-loop"].any fun p =>
    p.toList.isPrefixOf (sessionId.toList.map Char.toLower)

/-- `PLACEHOLDER_EVIDENCE_DENYLIST`. -/
def placeholderEvidence : List String := ["ok", "pass", "done", "n/a", "na", "tbd"]

/-- `normalizeId`: the trimmed text, if anything is left of it. -/
def normalizeId (env : Env) (value : Option String) : Option String :=
  (value.map env.trim).filter (· ≠ "")

/-- Check 1: the verifier session is named and is a distinct critic. -/
def sessionViolations (env : Env) (evidence : VerificationEvidence)
    (ctx : EvidenceValidationContext) : List String :=
  let sessionId := (evidence.verifierSessionId.map env.trim).getD ""
  if sessionId = "" then
    ["verifier_session_id is required and must be a non-empty identifier " ++
      "naming the distinct verifier session that produced this verdict."]
  else
    let equalTo (id : Option String) : Bool :=
      (normalizeId env id).any fun s => env.toLowerCase sessionId == env.toLowerCase s
    (if selfGradingSession sessionId then
      [s!"verifier_session_id \"{sessionId}\" looks like self-grading " ++
        "(orchestrator/self/main-loop). Verification must come from a " ++
        "distinct critic session, not the loop driver."] else [])
    ++ (if equalTo ctx.taskAssignee then
      [s!"verifier_session_id \"{sessionId}\" equals the task assignee — the " ++
        "generator cannot verify its own work (generator/critic separation)."] else [])
    ++ (if equalTo ctx.taskAssigneeUserId then
      [s!"verifier_session_id \"{sessionId}\" equals the task assignee user id " ++
        "— the generator cannot verify its own work (generator/critic separation)."] else [])
    ++ (if equalTo ctx.callerId then
      [s!"verifier_session_id \"{sessionId}\" equals the calling identity — the " ++
        "caller submitting the verdict cannot also be the verifier " ++
        "(generator/critic separation)."] else [])

/-- Check 2: a check carries real evidence. -/
def checkViolations (env : Env) (idx : Nat) (check : VerificationCheck) : List String :=
  let text := env.trim check.evidenceUrlOrText
  let label := if check.name = "" then s!"#{idx}" else s!"\"{check.name}\""
  if text = "" then
    [s!"check {label}: evidence_url_or_text is empty — every check must " ++
      "carry concrete evidence (a URL or a description of what was seen)."]
  else if env.toLowerCase text ∈ placeholderEvidence then
    [s!"check {label}: evidence_url_or_text \"{text}\" is a placeholder, " ++
      "not real evidence. Provide a URL or a concrete description."]
  else []

/-- Check 3: a PASS has at least one check. -/
def passViolations (evidence : VerificationEvidence) : List String :=
  if evidence.verdict = .pass ∧ (evidence.checks.getD []).isEmpty then
    ["verdict PASS requires at least one entry in checks[] — a bare PASS " ++
      "with no checks is unverifiable."]
  else []

end EvidenceValidation

open EvidenceValidation in
/-- `validateVerificationEvidence`. -/
def validateVerificationEvidence (env : Env) (evidence : VerificationEvidence)
    (ctx : EvidenceValidationContext) : List String :=
  sessionViolations env evidence ctx
    ++ ((evidence.checks.getD []).zipIdx.flatMap fun (check, idx) => checkViolations env idx check)
    ++ passViolations evidence

end WoodFiredTasks
