import WoodFiredTasks.Router.ChildProcess

set_option autoImplicit false

/-! # What a child process can learn

Two processes of the router that differ in variables which are not the child's business start the
same children. `shell_exec` takes nothing but its standard input from the event, and in
`agent_session_dispatch` each key of the rule but `adapter` makes one argument whatever the event
is. Which adapter a name stands for does depend on one variable more, that of the adapters path. -/

namespace WoodFiredTasks.Router

/-! ## Two environments -/

/-- The environments agree on what a child may have: the allowlist and the variable of the rule. -/
structure Agree (env env' : String → Option String) (tokenEnv : Option String) : Prop where
  allowed : ∀ name ∈ defaultEnvAllowlist, env' name = env name
  token : ∀ name ∈ tokenEnv, env' name = env name

section TwoRuns

variable {process : RouterProcess} {env' : String → Option String} {tokenEnv : Option String}

theorem foldl_copyVariable_congr {env : String → Option String} {names : List String}
    (h : ∀ name ∈ names, env' name = env name) (out : List (String × String)) :
    names.foldl (copyVariable env') out = names.foldl (copyVariable env) out := by
  induction names generalizing out with
  | nil => rfl
  | cons name names ih =>
    have hname : copyVariable env' out name = copyVariable env out name := by
      rw [copyVariable, copyVariable, h name (List.mem_cons_self ..)]
    rw [List.foldl_cons, List.foldl_cons, hname]
    exact ih (fun other hother => h other (List.mem_cons_of_mem _ hother)) _

theorem buildChildEnv_congr {env : String → Option String} (h : Agree env env' tokenEnv)
    (numberText : Rat → String) (renderedEnv : Option Json) :
    buildChildEnv numberText renderedEnv tokenEnv env' =
      buildChildEnv numberText renderedEnv tokenEnv env := by
  unfold buildChildEnv
  rw [foldl_copyVariable_congr h.allowed]
  cases htoken : nonEmpty tokenEnv with
  | none => rfl
  | some name =>
    have hname : env' name = env name := h.token name (Option.filter_eq_some_iff.mp htoken).1
    simp only [Option.elim_some, copyVariable, hname]

theorem shellExecSpawn_congr (h : Agree process.env env' tokenEnv) (ctx : AttemptContext) :
    shellExecSpawn { process with env := env' } ctx tokenEnv =
      shellExecSpawn process ctx tokenEnv := by
  unfold shellExecSpawn
  simp only [buildChildEnv_congr h]

theorem agentSessionSpawn_congr (h : Agree process.env env' tokenEnv)
    (hpath : env' adaptersPathEnv = process.env adaptersPathEnv) (ctx : AttemptContext) :
    agentSessionSpawn { process with env := env' } ctx tokenEnv =
      agentSessionSpawn process ctx tokenEnv := by
  unfold agentSessionSpawn
  simp only [buildChildEnv_congr h, resolveAdaptersPath, hpath]

end TwoRuns

/-! ## Two events -/

/-- The keys that become arguments: those of the block but `adapter`. -/
def argumentKeys (ctx : AttemptContext) : List String :=
  (((ctx.renderedWith.or ctx.withBlock).getD []).map Prod.fst).filter (· ≠ "adapter")

theorem walkFields_keys_eq {event : EventPayloadShape} {fields fields' : List (String × Json)}
    {path : String} (h : walkFields event fields path = .ok fields') :
    fields'.map Prod.fst = fields.map Prod.fst := by
  induction fields generalizing fields' with
  | nil =>
    rw [walkFields] at h
    cases h
    rfl
  | cons field rest ih =>
    obtain ⟨k, v⟩ := field
    simp only [walkFields, walkField] at h
    cases hv : walk event v (path ++ "." ++ k) with
    | error err =>
      rw [hv] at h
      cases h
    | ok v' =>
      cases hrest : walkFields event rest path with
      | error err =>
        rw [hv, hrest] at h
        cases h
      | ok rest' =>
        rw [hv, hrest] at h
        cases h
        rw [List.map_cons, List.map_cons, ih hrest]

/-- Rendering keeps the keys. -/
theorem keys_of_resolveRendered {ctx : AttemptContext} {block : Block}
    (h : resolveRendered ctx = some (.ok block)) :
    (block.map Prod.fst).filter (· ≠ "adapter") = argumentKeys ctx := by
  unfold resolveRendered at h
  unfold argumentKeys
  split at h
  · next rendered _ hrendered =>
    cases h
    rw [hrendered]
    rfl
  · next withBlock hrendered hwith =>
    have hkeys := walkFields_keys_eq (Option.some.inj h)
    rw [hrendered, hwith, hkeys]
    rfl
  · cases h

/-- One argument for each key. -/
theorem buildAdapterArgv_forall₂ (numberText : Rat → String) (block : Block) :
    List.Forall₂ (fun key arg => ∃ text, arg = key ++ "=" ++ text)
      ((block.map Prod.fst).filter (· ≠ "adapter")) (buildAdapterArgv numberText block) := by
  unfold buildAdapterArgv
  induction block with
  | nil => exact .nil
  | cons field rest ih =>
    obtain ⟨k, v⟩ := field
    by_cases hk : k = "adapter"
    · simpa [hk] using ih
    · simp only [List.map_cons, List.filter_cons, decide_eq_true_eq, ne_eq, hk, not_false_eq_true,
        if_true]
      exact .cons ⟨_, rfl⟩ ih

/-! ## Attempts -/

/-- The program and the arguments of a child among the effects. -/
def Effect.spawn? : Effect → Option (String × List String)
  | .spawn program argv => some (program, argv)
  | _ => none

/-- The children that an attempt has started. -/
def AttemptState.spawns (st : AttemptState) : List (String × List String) :=
  st.effects.filterMap Effect.spawn?

theorem spawns_act {st : AttemptState} {effect : Effect} {stage : Stage} :
    (st.act effect stage).spawns = st.spawns ++ effect.spawn?.toList := by
  cases effect <;> simp [AttemptState.act, AttemptState.spawns, Effect.spawn?]

theorem spawns_settleChild {st : AttemptState} {child : ChildRun} {now : Nat} {key : DispatchKey}
    {ending : DispatchStatus × HandlerOutcome} :
    (st.settleChild child now key ending).spawns = st.spawns := by
  unfold AttemptState.settleChild
  split <;> rfl

/-- What comes after the beginning starts no child. -/
theorem spawns_step {env : HandlerEnv} {key : DispatchKey} (st : AttemptState)
    (stimulus : Stimulus key) : (st.step env key stimulus).spawns = st.spawns := by
  cases stimulus with
  | other call => rfl
  | http now result =>
    unfold AttemptState.step
    dsimp only
    split
    · unfold onCreateResult
      split <;> rfl
    · unfold onPostResult
      split
      · rfl
      · rfl
      · rfl
      · split
        · split
          · rfl
          · split
            · rfl
            · split
              · rfl
              · rw [spawns_act]
                exact List.append_nil _
        · rfl
    · rfl
  | child now event =>
    unfold AttemptState.step
    dsimp only
    split
    · unfold onChildEvent
      split
      · split
        · rw [spawns_act]
          exact List.append_nil _
        · rfl
      · split
        · rw [spawns_act]
          exact List.append_nil _
        · rfl
      · exact spawns_settleChild
      · split
        · exact spawns_settleChild
        · split
          · exact spawns_settleChild
          · exact spawns_settleChild
    · rfl

/-- What an attempt has started is what its handler starts, or nothing. -/
def Starts (process : RouterProcess) (handler : HandlerName) (ctx : AttemptContext)
    (tokenEnv : Option String) (st : AttemptState) : Prop :=
  ∀ child ∈ st.spawns, ∃ s, childSpawn process handler ctx tokenEnv = some s ∧
    child = (s.program, s.argv)

section Starts

variable {process : RouterProcess} {ctx : AttemptContext} {tokenEnv : Option String}
  {handler : HandlerName}

theorem starts_of_spawns_nil {st : AttemptState} (h : st.spawns = []) :
    Starts process handler ctx tokenEnv st := by
  intro child hchild
  rw [h] at hchild
  cases hchild

theorem starts_claimAndAct {resolved : Option (Except TemplatingError Block)} {noPayload : String}
    {store : IdempotencyStore} {now : Nat} {identity : DispatchIdentity}
    {go : Block → AttemptState → AttemptState}
    (hgo : ∀ block st, resolved = some (.ok block) → st.spawns = [] →
      Starts process handler ctx tokenEnv (go block st)) :
    Starts process handler ctx tokenEnv
      (claimAndAct resolved noPayload store now identity go) := by
  unfold claimAndAct
  split
  · exact starts_of_spawns_nil rfl
  · exact starts_of_spawns_nil rfl
  · split
    · exact hgo _ _ rfl rfl
    · exact starts_of_spawns_nil rfl
    · exact starts_of_spawns_nil rfl

theorem starts_spawnChild {env : HandlerEnv} {st : AttemptState} {now : Nat} {key : DispatchKey}
    {s : ChildSpawn} (hs : childSpawn process handler ctx tokenEnv = some s)
    (hnone : st.spawns = []) :
    Starts process handler ctx tokenEnv (spawnChild env st now key s.program s.argv) := by
  unfold spawnChild
  split
  · exact starts_of_spawns_nil hnone
  · intro child hchild
    rw [spawns_act, hnone] at hchild
    exact ⟨s, hs, by simpa [Effect.spawn?] using hchild⟩

theorem starts_start (env : HandlerEnv) (store : IdempotencyStore) (now now' : Nat) :
    Starts process handler ctx tokenEnv
      (start (process.handlerEnv env) handler ctx store now now') := by
  cases handler with
  | createTaskInProject =>
    refine starts_claimAndAct fun block st _ hnone => ?_
    split
    · exact starts_of_spawns_nil hnone
    · refine starts_of_spawns_nil ?_
      rw [spawns_act, hnone]
      rfl
  | webhookPost =>
    refine starts_claimAndAct fun block st _ hnone => ?_
    split
    · split
      · exact starts_of_spawns_nil hnone
      · split
        · exact starts_of_spawns_nil hnone
        · refine starts_of_spawns_nil ?_
          rw [spawns_act, hnone]
          rfl
    · exact starts_of_spawns_nil hnone
  | shellExec =>
    refine starts_claimAndAct fun block st hresolved hnone => ?_
    split
    · next command hcommand =>
      split
      · exact starts_of_spawns_nil hnone
      · next hempty =>
        have hs : childSpawn process .shellExec ctx tokenEnv = some
            { program := command
              argv := resolveArgv process.numberText block
              cwd := resolveCwd process.cwd block
              env := buildChildEnv process.numberText (block.lookup "env") tokenEnv process.env
              stdin := ctx.event } := by
          simp only [childSpawn, shellExecSpawn, hresolved, hcommand, if_neg hempty]
        exact starts_spawnChild hs hnone
    · exact starts_of_spawns_nil hnone
  | agentSessionDispatch =>
    refine starts_claimAndAct fun block st hresolved hnone => ?_
    split
    · next adapter hbad hadapter =>
      split
      · exact starts_of_spawns_nil hnone
      · next adapterPath hpath =>
        have hpath : resolveAdapter process.files adapter (resolveAdaptersPath process.env) =
            some adapterPath := hpath
        have hs : childSpawn process .agentSessionDispatch ctx tokenEnv = some
            { program := adapterPath
              argv := buildAdapterArgv process.numberText block
              cwd := process.cwd
              env := buildChildEnv process.numberText (block.lookup "env") tokenEnv process.env
              stdin := ctx.event } := by
          simp only [childSpawn, agentSessionSpawn, hresolved, hbad, hadapter, hpath,
            Option.map_some]
        exact starts_spawnChild hs hnone
    · exact starts_of_spawns_nil hnone

/-- A run of an attempt starts the child of its handler or none. -/
theorem starts_runAttempt (env : HandlerEnv) (store : IdempotencyStore) (now now' : Nat)
    (stimuli : List (Stimulus ctx.identity.key)) :
    Starts process handler ctx tokenEnv
      (runAttempt (process.handlerEnv env) handler ctx store now now' stimuli) := by
  have hstart : Starts process handler ctx tokenEnv
      (start (process.handlerEnv env) handler ctx store now now') :=
    starts_start env store now now'
  unfold runAttempt
  generalize start (process.handlerEnv env) handler ctx store now now' = st at hstart ⊢
  induction stimuli generalizing st with
  | nil => exact hstart
  | cons stimulus rest ih =>
    refine ih _ fun child hchild => hstart child ?_
    rwa [spawns_step] at hchild

end Starts

/-! ## Isolation -/

/-- **Main theorem.** Two processes whose environments agree on the allowlist and the variable of
    the rule start the same child: `shell_exec` always, `agent_session_dispatch` if the adapters
    path is the same too. The program and the arguments of `shell_exec` are the same for all
    events, and each key but `adapter` makes exactly one argument of `agent_session_dispatch`, in
    order and behind its name. Runs of attempts start no other child. -/
theorem childSpawn_isolated (process : RouterProcess) (env' : String → Option String)
    (ctx : AttemptContext) (tokenEnv : Option String) (h : Agree process.env env' tokenEnv) :
    shellExecSpawn { process with env := env' } ctx tokenEnv =
        shellExecSpawn process ctx tokenEnv ∧
      (env' adaptersPathEnv = process.env adaptersPathEnv →
        agentSessionSpawn { process with env := env' } ctx tokenEnv =
          agentSessionSpawn process ctx tokenEnv) ∧
      (∀ event, (shellExecSpawn process { ctx with event } tokenEnv).map
          (fun s => (s.program, s.argv)) =
        (shellExecSpawn process ctx tokenEnv).map fun s => (s.program, s.argv)) ∧
      (∀ event s, agentSessionSpawn process { ctx with event } tokenEnv = some s →
        List.Forall₂ (fun key arg => ∃ text, arg = key ++ "=" ++ text) (argumentKeys ctx) s.argv) ∧
      ∀ (env : HandlerEnv) (handler : HandlerName) (store : IdempotencyStore) (now now' : Nat)
        (stimuli : List (Stimulus ctx.identity.key)), ∀ child ∈
          (runAttempt (process.handlerEnv env) handler ctx store now now' stimuli).spawns,
        ∃ s, childSpawn process handler ctx tokenEnv = some s ∧ child = (s.program, s.argv) := by
  refine ⟨shellExecSpawn_congr h ctx, fun hpath => agentSessionSpawn_congr h hpath ctx, ?_, ?_,
    fun env handler store now now' stimuli => starts_runAttempt env store now now' stimuli⟩
  · intro event
    -- the block is the literal one
    have hliteral : resolveLiteral { ctx with event } = resolveLiteral ctx := rfl
    unfold shellExecSpawn
    rw [hliteral]
    split
    · split
      · split <;> rfl
      · rfl
    · rfl
  · intro event s hs
    unfold agentSessionSpawn at hs
    split at hs
    · next block hresolved =>
      have hkeys : (block.map Prod.fst).filter (· ≠ "adapter") = argumentKeys { ctx with event } :=
        keys_of_resolveRendered hresolved
      have hrule : argumentKeys { ctx with event } = argumentKeys ctx := rfl
      split at hs
      · obtain ⟨adapterPath, -, rfl⟩ := Option.map_eq_some_iff.mp hs
        rw [← hrule, ← hkeys]
        exact buildAdapterArgv_forall₂ process.numberText block
      · cases hs
    · cases hs

/-- A file system with one adapter, `/a/run`. -/
def oneAdapter : FileSystem where
  stat file :=
    if file = "/a" then some { isDirectory := true, isFile := false, mode := 0o755, uid := 0 }
    else if file = "/a/run" then
      some { isDirectory := false, isFile := true, mode := 0o755, uid := 0 }
    else none
  realpath file := some file
  join entry name := entry ++ "/" ++ name
  dirname file := if file = "/a/run" then "/a" else "/"
  uid := some 0

/-- A process with a variable that is not for children. -/
def adapterProcess : RouterProcess where
  env name :=
    if name = "PATH" then some "/bin" else if name = adaptersPathEnv then some "/a" else none
  cwd := "/"
  files := oneAdapter
  numberText := fun _ => ""

/-- An attempt of a rule with the adapter. -/
def adapterContext : AttemptContext where
  event := { type := "task.created" }
  identity := { ruleName := "r", eventId := "1", taskId := none, toStatus := none,
                emittedAtMs := none }
  withBlock := none
  renderedWith := some [("adapter", .str "run"), ("command", .str "ls")]
  apiBaseUrl := ""
  authToken := ""

/-- The environment of `adapterProcess` without the adapters path. -/
def plainEnv (name : String) : Option String := if name = "PATH" then some "/bin" else none

theorem agree_plainEnv : Agree adapterProcess.env plainEnv none where
  allowed := by decide
  token := by
    intro name hname
    cases hname

/-- The two environments start the same `ls`. -/
theorem childSpawn_isolated_sample :
    (shellExecSpawn { adapterProcess with env := plainEnv } adapterContext none).map
        (fun s => (s.program, s.env)) = some ("ls", [("PATH", "/bin")]) := by
  rw [(childSpawn_isolated adapterProcess plainEnv adapterContext none agree_plainEnv).1]
  decide

/-- But only one of them has the adapter; and the key `adapter` makes no argument. -/
theorem agentSessionSpawn_adaptersPath :
    (¬∀ (process : RouterProcess) (env' : String → Option String) (ctx : AttemptContext)
      (tokenEnv : Option String), Agree process.env env' tokenEnv →
        agentSessionSpawn { process with env := env' } ctx tokenEnv =
          agentSessionSpawn process ctx tokenEnv) ∧
      (agentSessionSpawn adapterProcess adapterContext none).map
        (fun s => s.argv.length) = some 1 := by
  have hspawned : (agentSessionSpawn adapterProcess adapterContext none).map
      (fun s => (s.program, s.argv)) = some ("/a/run", ["command=ls"]) := by
    decide +kernel
  refine ⟨fun h => ?_, ?_⟩
  · have hsame := h adapterProcess plainEnv adapterContext none agree_plainEnv
    rw [← hsame] at hspawned
    exact absurd hspawned (by decide +kernel)
  · cases hs : agentSessionSpawn adapterProcess adapterContext none with
    | none =>
      rw [hs] at hspawned
      cases hspawned
    | some s =>
      rw [hs, Option.map_some, Option.some.injEq, Prod.mk.injEq] at hspawned
      rw [Option.map_some, hspawned.2]
      rfl

end WoodFiredTasks.Router
