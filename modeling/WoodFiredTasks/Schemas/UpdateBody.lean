import WoodFiredTasks.Schemas.TaskBody
import WoodFiredTasks.Services.ScoreGate

set_option autoImplicit false

/-! # The JSON bodies of both tools

The other schemas of `src/schemas/task.schema.ts` on JSON values: the fields of a new task apart
from the check of the keys, the patch of a task, and a submission for scoring. -/

namespace WoodFiredTasks.TaskBody

open Router (Json)

/-! ## A new task -/

/-- The fields of a new task, whatever other keys there are. -/
def createTaskFields (fields : Fields) : Option CreateTaskInput := do
  return {
    title := ← required fields "title" string
    description := ← nullish fields "description" string
    priority := ← withDefault fields "priority" .medium (enumOf priorities)
    projectId := ← required fields "project_id" natural
    parentTaskId := ← nullish fields "parent_task_id" natural
    estimatedMinutes := ← nullish fields "estimated_minutes" natural
    assignee := ← nullish fields "assignee" string
    createdBy := ← required fields "created_by" string
    dueDate := ← nullish fields "due_date" string
    tags := ← withDefault fields "tags" [] (array string)
    acceptanceCriteria := ← nullish fields "acceptance_criteria" string
    wsjf := ← nullish fields "wsjf" wsjfWrite }

theorem createTaskInput_eq (body : Json) :
    createTaskInput body = (strictObject createTaskKeys body).bind createTaskFields := rfl

/-! ## The patch of a task -/

/-- `.optional()`, for a field that may be patched to null as well. -/
def patched {α : Type} (fields : Fields) (key : String) (decode : Json → Option α) :
    Option (Option α) :=
  withDefault fields key none fun value => (decode value).map some

def statuses : List (String × TaskStatus) :=
  [("open", .open), ("in_progress", .inProgress), ("done", .done), ("closed", .closed),
    ("blocked", .blocked), ("backlogged", .backlogged)]

/-- An entry of `checks` -/
def verificationCheck (value : Json) : Option VerificationCheck := do
  let fields ← strictObject ["name", "status", "evidence_url_or_text"] value
  return {
    name := ← required fields "name" string
    status := ← required fields "status"
      (enumOf [("PASS", .pass), ("FAIL", .fail), ("SKIP", .skip)])
    evidenceUrlOrText := ← required fields "evidence_url_or_text" string }

/-- `VerificationEvidenceSchema` -/
def verificationEvidence (value : Json) : Option VerificationEvidence := do
  let fields ← strictObject
    ["verdict", "checks", "verifier_session_id", "verifier_request_id", "verified_at"] value
  return {
    verdict := ← required fields "verdict"
      (enumOf [("PASS", .pass), ("FAIL", .fail), ("PARTIAL", .partial_),
        ("NOT_VERIFIED", .notVerified)])
    checks := ← patched fields "checks" (array verificationCheck)
    verifierSessionId := ← patched fields "verifier_session_id" string
    verifierRequestId := ← patched fields "verifier_request_id" string
    verifiedAt := ← patched fields "verified_at" string }

/-- The keys of `UpdateTaskClientSchema`. -/
def updateTaskKeys : List String :=
  ["title", "description", "status", "priority", "parent_task_id", "estimated_minutes",
    "assignee", "due_date", "tags", "acceptance_criteria", "verification_evidence", "wsjf",
    "blocked_by"]

/-- The fields of a patch, whatever other keys there are. -/
def updateTaskFields (fields : Fields) : Option UpdateTaskInput := do
  return {
    title := ← patched fields "title" string
    description := ← patched fields "description" (nullable string)
    status := ← patched fields "status" (enumOf statuses)
    priority := ← patched fields "priority" (enumOf priorities)
    parentTaskId := ← patched fields "parent_task_id" (nullable natural)
    estimatedMinutes := ← patched fields "estimated_minutes" (nullable natural)
    assignee := ← patched fields "assignee" (nullable string)
    dueDate := ← patched fields "due_date" (nullable string)
    tags := ← patched fields "tags" (array string)
    acceptanceCriteria := ← patched fields "acceptance_criteria" (nullable string)
    verificationEvidence := ← patched fields "verification_evidence"
      (nullable verificationEvidence)
    wsjf := ← patched fields "wsjf" (nullable wsjfWrite)
    blockedBy := ← patched fields "blocked_by" (array natural) }

/-! ## A submission -/

/-- `ScoreSubmissionSchema`, less the bounds. -/
def scoreSubmission (value : Json) : Option ScoreSubmission := do
  let fields ← strictObject ["classification", "features"] value
  return {
    classification := ← required fields "classification" wsjfClassification
    features := ← required fields "features" wsjfFeatures }

/-- Its bounds: no span of the evidence is empty. -/
def submissionIssues (submission : ScoreSubmission) : List TaskSchema.Issue :=
  TaskSchema.wsjfEvidence "wsjf_submission.classification.evidence"
    submission.classification.evidence

/-! ## Parsed objects -/

/-- The object that a schema with these keys makes of the fields, where it does not refuse other
    keys: these are dropped, and a default is put in where its key is missing. -/
def parsedObject (keys : List String) (default : String → Option Json) (fields : Fields) :
    Fields :=
  keys.filterMap fun key => ((fields.lookup key).or (default key)).map fun value => (key, value)

theorem lookup_parsedObject {keys : List String} {default : String → Option Json}
    {fields : Fields} {key : String} (hkey : key ∈ keys) :
    (parsedObject keys default fields).lookup key = (fields.lookup key).or (default key) := by
  unfold parsedObject
  induction keys with
  | nil => cases hkey
  | cons head keys ih =>
    cases hhead : (fields.lookup head).or (default head) with
    | none =>
      rw [List.filterMap_cons_none (by rw [hhead]; rfl)]
      by_cases hmem : key ∈ keys
      · exact ih hmem
      · have heq : key = head := (List.mem_cons.1 hkey).resolve_right hmem
        subst heq
        rw [hhead]
        refine List.lookup_eq_none_iff.2 fun field hfield => ?_
        obtain ⟨key', hkey', hvalue⟩ := List.mem_filterMap.1 hfield
        obtain ⟨value, -, rfl⟩ := Option.map_eq_some_iff.1 hvalue
        rw [bne_iff_ne]
        rintro rfl
        exact hmem hkey'
    | some value =>
      rw [List.filterMap_cons_some (by rw [hhead]; rfl), List.lookup_cons]
      by_cases heq : key = head
      · subst heq
        rw [beq_self_eq_true, hhead]
      · rw [beq_eq_false_iff_ne.2 heq]
        exact ih ((List.mem_cons.1 hkey).resolve_left heq)

end WoodFiredTasks.TaskBody
