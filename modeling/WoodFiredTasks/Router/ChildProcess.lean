import WoodFiredTasks.Router.Daemon
import WoodFiredTasks.Router.HandlerRuns

set_option autoImplicit false

/-! # What a child process is started with

The call of `spawn` in `shell_exec` and `agent_session_dispatch`
(`packages/wft-router/src/handlers/shell-exec.ts`, `agent-session-dispatch.ts`) with all of its
arguments: the program, its arguments, the working directory, the environment that
`buildChildEnv` makes of that of the router, and the event on standard input. The names of
adapters are resolved in a file system, which is a parameter. -/

namespace WoodFiredTasks.Router

/-- What `fs.statSync` tells of a file. -/
structure FileStat where
  isDirectory : Bool
  isFile : Bool
  mode : Nat
  uid : Nat

/-- The file system and the functions of `path`; `none` is a throw. -/
structure FileSystem where
  stat : String → Option FileStat
  realpath : String → Option String
  join : String → String → String
  dirname : String → String
  /-- `process.getuid`, where there is one. -/
  uid : Option Nat

/-- The process of the router as the handlers see it. -/
structure RouterProcess where
  /-- `process.env` -/
  env : String → Option String
  /-- `process.cwd()` -/
  cwd : String
  files : FileSystem
  numberText : Rat → String

/-- The arguments of `spawn`. The shell is off. -/
structure ChildSpawn where
  program : String
  argv : List String
  cwd : String
  env : List (String × String)
  /-- The text on standard input is the event as JSON. -/
  stdin : EventPayloadShape

/-! ## The environment of the child -/

/-- `DEFAULT_ENV_ALLOWLIST` -/
def defaultEnvAllowlist : List String := ["PATH", "HOME", "USER", "LANG", "TZ"]

/-- `out[key] = value`, for a text: under the key `__proto__` nothing is kept. -/
def assignText (out : List (String × String)) (key value : String) : List (String × String) :=
  if key = "__proto__" then out
  else if key ∈ out.map Prod.fst then
    out.map fun entry => if entry.1 = key then (key, value) else entry
  else out ++ [(key, value)]

/-- Copy a variable, if it is set. -/
def copyVariable (parentEnv : String → Option String) (out : List (String × String))
    (key : String) : List (String × String) :=
  match parentEnv key with
  | some value => assignText out key value
  | none => out

/-- The literal `with.env`, as texts. -/
def passThrough (numberText : Rat → String) (renderedEnv : Option Json)
    (out : List (String × String)) : List (String × String) :=
  match renderedEnv with
  | some (.obj fields) => fields.foldl (fun out field =>
      match field.2 with
      | .null => out
      | v => assignText out field.1 (v.text numberText)) out
  | _ => out

/-- `buildChildEnv` -/
def buildChildEnv (numberText : Rat → String) (renderedEnv : Option Json)
    (tokenEnv : Option String) (parentEnv : String → Option String) : List (String × String) :=
  let out := defaultEnvAllowlist.foldl (copyVariable parentEnv) []
  let out := passThrough numberText renderedEnv out
  (nonEmpty tokenEnv).elim out (copyVariable parentEnv out)

/-- `resolveCwd` -/
def resolveCwd (defaultCwd : String) (block : Block) : String :=
  match block.lookup "cwd" with
  | some (.str s) => if s.isEmpty then defaultCwd else s
  | _ => defaultCwd

/-! ## Adapters -/

/-- `ADAPTERS_PATH_ENV` -/
def adaptersPathEnv : String := "WFT_ROUTER_ADAPTERS_PATH"

/-- `resolveAdaptersPath`, when nothing is injected. -/
def resolveAdaptersPath (parentEnv : String → Option String) : List String :=
  (nonEmpty (parentEnv adaptersPathEnv)).elim [] fun raw =>
    ((raw.toList.splitOn ':').map String.ofList).filter (!·.isEmpty)

/-- One entry of the adapters path. -/
def resolveInEntry (files : FileSystem) (adapter entry : String) : Option String := do
  let st ← files.stat entry
  if !st.isDirectory || st.mode &&& 0o022 ≠ 0 || files.uid.any (· ≠ st.uid) then none
  else
    let entryReal ← files.realpath entry
    let candidateReal ← files.realpath (files.join entry adapter)
    let target ← files.stat candidateReal
    if target.isFile && files.dirname candidateReal = entryReal then some candidateReal else none

/-- `resolveAdapter` -/
def resolveAdapter (files : FileSystem) (adapter : String) (entries : List String) :
    Option String :=
  entries.findSome? (resolveInEntry files adapter)

/-! ## The two handlers -/

/-- What `shell_exec` starts, if the dispatch is its own. -/
def shellExecSpawn (process : RouterProcess) (ctx : AttemptContext) (tokenEnv : Option String) :
    Option ChildSpawn :=
  match resolveLiteral ctx with
  | some (.ok block) =>
    match block.lookup "command" with
    | some (.str command) =>
      if command.isEmpty then none
      else some
        { program := command
          argv := resolveArgv process.numberText block
          cwd := resolveCwd process.cwd block
          env := buildChildEnv process.numberText (block.lookup "env") tokenEnv process.env
          stdin := ctx.event }
    | _ => none
  | _ => none

/-- What `agent_session_dispatch` starts, if the dispatch is its own. -/
def agentSessionSpawn (process : RouterProcess) (ctx : AttemptContext)
    (tokenEnv : Option String) : Option ChildSpawn :=
  match resolveRendered ctx with
  | some (.ok block) =>
    match badAdapter block, block.lookup "adapter" with
    | none, some (.str adapter) =>
      (resolveAdapter process.files adapter (resolveAdaptersPath process.env)).map
        fun adapterPath =>
          { program := adapterPath
            argv := buildAdapterArgv process.numberText block
            cwd := process.cwd
            env := buildChildEnv process.numberText (block.lookup "env") tokenEnv process.env
            stdin := ctx.event }
    | _, _ => none
  | _ => none

/-- What a handler starts; the other two start nothing. -/
def childSpawn (process : RouterProcess) (handler : HandlerName) (ctx : AttemptContext)
    (tokenEnv : Option String) : Option ChildSpawn :=
  match handler with
  | .shellExec => shellExecSpawn process ctx tokenEnv
  | .agentSessionDispatch => agentSessionSpawn process ctx tokenEnv
  | _ => none

/-- The outside of the handlers in a process. -/
def RouterProcess.handlerEnv (process : RouterProcess) (env : HandlerEnv) : HandlerEnv :=
  { env with
    resolveAdapter := fun adapter =>
      resolveAdapter process.files adapter (resolveAdaptersPath process.env)
    numberText := process.numberText }

end WoodFiredTasks.Router
