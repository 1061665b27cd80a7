import WoodFiredTasks.Repositories.AuditEventRepository

set_option autoImplicit false

/-! # The audit record of a tool call

`recordToolCall` of the stdio server (`src/mcp/audit-trail.ts`): what it appends to the audit trail
for a call of a mutating tool. The JSON text of the metadata is a parameter; the log line of a
failed append is left out. -/

namespace WoodFiredTasks.Mcp

/-- The mutating tools, the keys of `MCP_AUDIT_TARGETS`. -/
inductive MutatingToolName where
  | createTask | updateTask | deleteTask | claimTask
  | createProject | updateProject | deleteProject
  | addDependency | removeDependency
  | addComment | deleteComment
  | rescoreProject | setModelDefaults
  deriving DecidableEq, Repr

def MutatingToolName.name : MutatingToolName → String
  | .createTask => "create_task"
  | .updateTask => "update_task"
  | .deleteTask => "delete_task"
  | .claimTask => "claim_task"
  | .createProject => "create_project"
  | .updateProject => "update_project"
  | .deleteProject => "delete_project"
  | .addDependency => "add_dependency"
  | .removeDependency => "remove_dependency"
  | .addComment => "add_comment"
  | .deleteComment => "delete_comment"
  | .rescoreProject => "rescore_project"
  | .setModelDefaults => "set_model_defaults"

/-- `McpAuditTarget` -/
structure McpAuditTarget where
  resourceType : String
  resourceIdArg : Option String

/-- `MCP_AUDIT_TARGETS` -/
def mcpAuditTarget : MutatingToolName → McpAuditTarget
  | .createTask => ⟨"tasks", none⟩
  | .updateTask => ⟨"tasks", some "id"⟩
  | .deleteTask => ⟨"tasks", some "id"⟩
  | .claimTask => ⟨"tasks", some "task_id"⟩
  | .createProject => ⟨"projects", none⟩
  | .updateProject => ⟨"projects", some "id"⟩
  | .deleteProject => ⟨"projects", some "id"⟩
  | .addDependency => ⟨"dependencies", none⟩
  | .removeDependency => ⟨"dependencies", some "blocks_task_id"⟩
  | .addComment => ⟨"comments", none⟩
  | .deleteComment => ⟨"comments", some "comment_id"⟩
  | .rescoreProject => ⟨"rescore", none⟩
  | .setModelDefaults => ⟨"model-policy", none⟩

/-- `ResolutionPath` -/
inductive ResolutionPath where
  | pat | patRevokedFallback | patUnknownFallback | patExpiredFallback | patUserDisabledFallback
  | legacy | legacyUnmatchedFallback | serviceAccountFallback
  deriving DecidableEq, Repr

/-- `mcpActorTypeForPath` -/
def mcpActorTypeForPath (path : Option ResolutionPath) : String :=
  if path = some .pat ∨ path = some .legacy then "user" else "service_account"

/-- `McpAuditContext`, less the writer and the log. -/
structure McpAuditContext where
  actorUserId : Option Nat
  tokenId : Option String
  resolutionPath : Option ResolutionPath := none

/-- A scalar of a JSON-RPC message: an argument, or the id of a request. -/
inductive Scalar where
  | str (s : JsString)
  | int (n : Int)

/-- `String(raw)` -/
def Scalar.text : Scalar → JsString
  | .str s => s
  | .int n => JsString.ofString (toString n)

/-- `readRequestId` -/
def readRequestId (requestId : Option Scalar) : Option JsString := requestId.map Scalar.text

/-- `readResourceId` -/
def readResourceId (args : List (String × Scalar)) (idArg : Option String) : Option JsString :=
  idArg.bind fun arg => (args.lookup arg).map Scalar.text

/-- `buildMcpAuditAction` -/
def buildMcpAuditAction (tool : MutatingToolName) : String := "MCP " ++ tool.name

/-- The record that `recordToolCall` appends; none without a principal. -/
def recordToolCall (audit : McpAuditContext) (tool : MutatingToolName)
    (args : List (String × Scalar)) (requestId : Option JsString) (metadata : String) :
    Option AuditEventRecord :=
  audit.actorUserId.map fun actorUserId =>
    { actorType := JsString.ofString (mcpActorTypeForPath audit.resolutionPath)
      actorId := JsString.ofString (toString actorUserId)
      tokenId := audit.tokenId.map JsString.ofString
      action := JsString.ofString (buildMcpAuditAction tool)
      resourceType := JsString.ofString (mcpAuditTarget tool).resourceType
      resourceId := readResourceId args (mcpAuditTarget tool).resourceIdArg
      requestId
      metadata := some metadata }

/-- Only the ids that the client chose can make the record ill-formed. -/
theorem recordToolCall_isWellFormed {audit : McpAuditContext} {tool : MutatingToolName}
    {args : List (String × Scalar)} {requestId : Option JsString} {metadata : String}
    {record : AuditEventRecord}
    (h : recordToolCall audit tool args requestId metadata = some record) :
    record.isWellFormed =
      ((readResourceId args (mcpAuditTarget tool).resourceIdArg).all JsString.isWellFormed &&
        requestId.all JsString.isWellFormed) := by
  obtain ⟨actorUserId, -, rfl⟩ := Option.map_eq_some_iff.1 h
  have htoken : (audit.tokenId.map JsString.ofString).all JsString.isWellFormed = true := by
    cases audit.tokenId <;> simp
  simp [AuditEventRecord.isWellFormed, htoken]

end WoodFiredTasks.Mcp
