import WoodFiredTasks.Router.IdempotencyStore
import WoodFiredTasks.Router.Triggers

set_option autoImplicit false

/-! # Handlers

The four action handlers (`packages/wft-router/src/handlers/`). All of them make one attempt in
the same way: resolve the block of the rule, claim the dispatch, look at the block, act, and write
to the store how it ended. All up to the request or the child process is synchronous, so it is one
step; what the request or the child comes to is given from outside.

Left out: the request and the argv themselves, and what the environment decides before the act
(the endpoint policy of `webhook_post` and its redirects, the adapters path of
`agent_session_dispatch`), whose refusal is one of the results. -/

namespace WoodFiredTasks.Router

/-- `HandlerContext`; the store, the logger and the test seams are not part of it here. -/
structure HandlerContext where
  event : EventPayloadShape
  identity : DispatchIdentity
  withBlock : List (String × Json)
  apiBaseUrl : String
  authToken : String
  tokenEnv : Option String

inductive SuppressReason where
  | alreadyPending | alreadyDone
  deriving DecidableEq

/-- `HandlerOutcome`; the session id of a success is left out. -/
inductive HandlerOutcome where
  | succeeded
  | suppressed (reason : SuppressReason)
  | failed (retryable : Bool) (detail : String)
  deriving DecidableEq

/-- What the act of a handler comes to: the answer to its request, the end of its child process,
    or a refusal before either. -/
inductive EffectResult where
  | response (status : Nat)
  | networkError
  | exited (code : Nat)
  | killed (signal : String)
  | spawnError (code : Option String)
  | timedOut
  | refused (detail : String)
  deriving DecidableEq

/-- What the four handlers do each in their own way. -/
structure HandlerSpec where
  resolve : HandlerContext → Except TemplatingError (List (String × Json))
  /-- The detail of the configuration error in a resolved block. -/
  configError : List (String × Json) → Option String
  finish : EffectResult → DispatchStatus × HandlerOutcome

/-! ## Looking at a block -/

/-- A field that must be a text with something in it. -/
def nonEmptyText (key detail : String) (block : List (String × Json)) : Option String :=
  match block.lookup key with
  | some (.str s) => if s.isEmpty then some detail else none
  | _ => some detail

/-- `resolveProjectSegment` finds none: the project is neither a number nor a text. -/
def missingProject (block : List (String × Json)) : Option String :=
  match block.lookup "project" with
  | some (.num _) => none
  | _ => nonEmptyText "project" "with.project is missing or empty" block

/-- `ADAPTER_NAME_RE`, `^[a-z][a-z0-9_-]*$` -/
def adapterName : List Char → Bool
  | [] => false
  | c :: rest => c.isLower && rest.all fun c => c.isLower || c.isDigit || c = '_' || c = '-'

/-- `WITH_KEY_RE`, `^[a-z][a-z0-9_]*$` -/
def withKey : List Char → Bool
  | [] => false
  | c :: rest => c.isLower && rest.all fun c => c.isLower || c.isDigit || c = '_'

/-- The first key that `buildAdapterArgv` refuses. -/
def badWithKey (block : List (String × Json)) : Option String :=
  (block.map (·.1)).find? fun k => k ≠ "adapter" && !withKey k.toList

/-- What `agent_session_dispatch` finds wrong with the adapter's name and the keys. -/
def badAdapter (block : List (String × Json)) : Option String :=
  match block.lookup "adapter" with
  | some (.str s) =>
    if adapterName s.toList then
      (badWithKey block).map fun k => "with key \"" ++ k ++ "\" does not match ^[a-z][a-z0-9_]*$"
    else some "with.adapter is missing or malformed"
  | _ => some "with.adapter is missing or malformed"

/-! ## How an attempt ends -/

def retry (detail : String) : DispatchStatus × HandlerOutcome := (.failed, .failed true detail)

def giveUp (detail : String) : DispatchStatus × HandlerOutcome :=
  (.permanentlyFailed, .failed false detail)

def succeed : DispatchStatus × HandlerOutcome := (.succeeded, .succeeded)

/-- The end of an HTTP attempt, by the status of the answer. -/
def finishRequest : EffectResult → DispatchStatus × HandlerOutcome
  | .response status =>
    if 200 ≤ status ∧ status < 300 then succeed
    else if 400 ≤ status ∧ status < 500 then giveUp ("HTTP " ++ toString status ++ " (client error)")
    else retry ("HTTP " ++ toString status ++ " (server error)")
  | .timedOut => retry "request timed out"
  | .refused detail => giveUp detail
  | _ => retry "network error"

/-- The end of a child process. -/
def finishChild : EffectResult → DispatchStatus × HandlerOutcome
  | .exited code => if code = 0 then succeed else retry ("exit code " ++ toString code)
  | .killed signal => retry ("exit code signal " ++ signal)
  | .timedOut => retry "timed out"
  | .refused detail => giveUp detail
  | .spawnError (some code) =>
    if code = "ENOENT" ∨ code = "EACCES" then giveUp ("spawn " ++ code) else retry "spawn error"
  | _ => retry "spawn error"

/-! ## The handlers -/

/-- The block rendered against the event. -/
def rendered (ctx : HandlerContext) : Except TemplatingError (List (String × Json)) :=
  renderWith ctx.withBlock ctx.event

def createTaskInProject : HandlerSpec := ⟨rendered, missingProject, finishRequest⟩

def webhookPost : HandlerSpec :=
  ⟨rendered, nonEmptyText "url" "with.url is missing or empty", finishRequest⟩

/-- The one handler that takes its block as it is. -/
def shellExec : HandlerSpec :=
  ⟨fun ctx => .ok ctx.withBlock, nonEmptyText "command" "with.command is missing or empty",
    finishChild⟩

def agentSessionDispatch : HandlerSpec := ⟨rendered, badAdapter, finishChild⟩

/-- `DEFAULT_HANDLER_REGISTRY` -/
def defaultHandlerRegistry : HandlerName → HandlerSpec
  | .createTaskInProject => createTaskInProject
  | .webhookPost => webhookPost
  | .shellExec => shellExec
  | .agentSessionDispatch => agentSessionDispatch

/-- What the synchronous part of an attempt leaves to happen. -/
inductive AttemptEnd where
  | threw (message : String)
  | settled (outcome : HandlerOutcome)
  | acting
  deriving DecidableEq

/-- The synchronous part of an attempt: what it claimed, if it came to that, and the store after
    it. -/
structure Attempt where
  claim : Option ClaimResult
  ending : AttemptEnd
  store : IdempotencyStore

/-- What a handler does up to its act. -/
def HandlerSpec.attempt (handler : HandlerSpec) (store : IdempotencyStore) (now : Nat)
    (ctx : HandlerContext) : Attempt :=
  match handler.resolve ctx with
  | .error err => ⟨none, .threw err.message, store⟩
  | .ok block =>
    match store.claim now ctx.identity block with
    | (.claimed, store') =>
      match handler.configError block with
      | none => ⟨some .claimed, .acting, store'⟩
      | some detail =>
        ⟨some .claimed, .settled (.failed false detail),
          (store'.complete now ctx.identity.key .permanentlyFailed).2⟩
    | (.alreadyPending, store') =>
      ⟨some .alreadyPending, .settled (.suppressed .alreadyPending), store'⟩
    | (.alreadyDone status, store') =>
      ⟨some (.alreadyDone status), .settled (.suppressed .alreadyDone), store'⟩

end WoodFiredTasks.Router

/-! ## Blocks that render

Whether the renderer takes a block is seen from its texts alone, whatever the event
(`walk_isOk`). -/

namespace WoodFiredTasks.Router

/-- The renderer takes the text. -/
def renderable (s : String) : Bool := (taskPath s.toList).isSome || !tokenPresent s.toList

mutual

/-- The renderer takes every text in the value. -/
def Json.renders : Json → Bool
  | .str s => renderable s
  | .arr items => rendersItems items
  | .obj fields => rendersFields fields
  | .null | .bool _ | .num _ => true

def rendersItems : List Json → Bool
  | [] => true
  | item :: rest => item.renders && rendersItems rest

def rendersFields : List (String × Json) → Bool
  | [] => true
  | field :: rest => rendersField field && rendersFields rest

def rendersField : String × Json → Bool
  | (_, v) => v.renders

end

theorem renderString_isOk (event : EventPayloadShape) (s path : String) :
    (renderString event s path).isOk = renderable s := by
  unfold renderString renderable
  cases taskPath s.toList with
  | some dottedPath => rfl
  | none => cases htoken : tokenPresent s.toList <;> simp [Except.isOk, Except.toBool]

@[simp] theorem isOk_map {ε α β : Type} (f : α → β) (x : Except ε α) : (x.map f).isOk = x.isOk := by
  cases x <;> rfl

theorem isOk_bind_map {ε α β γ : Type} (f : α → β → γ) (x : Except ε α) (y : Except ε β) :
    (x.bind fun a => y.map (f a)).isOk = (x.isOk && y.isOk) := by
  cases x with
  | error err => rfl
  | ok a => exact (isOk_map (f a) y).trans (Bool.true_and _).symm

mutual

/-- Whether a value renders does not depend on the event. -/
theorem walk_isOk (event : EventPayloadShape) :
    ∀ (v : Json) (path : String), (walk event v path).isOk = v.renders
  | .str s, path => by rw [walk, Json.renders, renderString_isOk]
  | .arr items, path => by rw [walk, Json.renders, isOk_map, walkItems_isOk]
  | .obj fields, path => by rw [walk, Json.renders, isOk_map, walkFields_isOk]
  | .null, _ | .bool _, _ | .num _, _ => rfl

theorem walkItems_isOk (event : EventPayloadShape) :
    ∀ (items : List Json) (i : Nat) (path : String),
      (walkItems event items i path).isOk = rendersItems items
  | [], _, _ => rfl
  | item :: rest, i, path => by
    rw [walkItems, rendersItems, isOk_bind_map, walk_isOk, walkItems_isOk]

theorem walkFields_isOk (event : EventPayloadShape) :
    ∀ (fields : List (String × Json)) (path : String),
      (walkFields event fields path).isOk = rendersFields fields
  | [], _ => rfl
  | field :: rest, path => by
    rw [walkFields, rendersFields, isOk_bind_map, walkField_isOk, walkFields_isOk]

theorem walkField_isOk (event : EventPayloadShape) :
    ∀ (field : String × Json) (path : String),
      (walkField event field path).isOk = rendersField field
  | (k, v), path => by rw [walkField, rendersField, isOk_map, walk_isOk]

end

/-- The handler of the rule takes its block: `shell_exec` does not render it. -/
def Rule.renders (rule : Rule) : Bool :=
  rule.doHandler = .shellExec || rendersFields rule.withBlock

/-- A rule's handler resolves the rule's block exactly when the rule renders. -/
theorem Rule.resolve_iff (rule : Rule) (ctx : HandlerContext) (hctx : ctx.withBlock = rule.withBlock) :
    (∃ block, (defaultHandlerRegistry rule.doHandler).resolve ctx = .ok block) ↔
      rule.renders = true := by
  have hrendered : (∃ block, rendered ctx = .ok block) ↔ rendersFields rule.withBlock = true := by
    rw [← walkFields_isOk ctx.event rule.withBlock "with", ← hctx]
    unfold rendered renderWith
    cases walkFields ctx.event ctx.withBlock "with" with
    | error err => simp [Except.isOk, Except.toBool]
    | ok block => simp [Except.isOk, Except.toBool]
  unfold Rule.renders
  cases hdo : rule.doHandler with
  | shellExec => simp [defaultHandlerRegistry, shellExec]
  | createTaskInProject => simpa [defaultHandlerRegistry, createTaskInProject] using hrendered
  | webhookPost => simpa [defaultHandlerRegistry, webhookPost] using hrendered
  | agentSessionDispatch => simpa [defaultHandlerRegistry, agentSessionDispatch] using hrendered

end WoodFiredTasks.Router
