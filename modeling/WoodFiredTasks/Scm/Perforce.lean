import WoodFiredTasks.Lib.Prog
import WoodFiredTasks.Scm.Exclusions
import WoodFiredTasks.Scm.P4

set_option autoImplicit false

/-! # The Perforce backend

`PerforceBackend` (`src/scm/perforce.ts`): the verbs that stage, record and publish the work of a
context, and the one that tears an isolation down. A context keeps the number of its changelist in
a state file, and all contexts share one client workspace.

A command may fail without reaching the server, may be refused, may take effect and print nothing
that can be read, and may take effect after the adapter has given up on it (`Fault`). Every command
issued is logged, with the changelist of its context and the server before and after it; nothing
below reads the log. `open-review`, `reset-hard` and the verbs that only report are left out. -/

namespace WoodFiredTasks.Scm

open SlashPath (Text)
open P4 (Command Output Reply Server Workspace ChangeStatus)

/-! ## Issuing commands -/

/-- How a command fares on its way. -/
inductive Fault where
  | fine
  /-- Succeeds, but its output has none of the lines that the adapter looks for. -/
  | garbled
  /-- Exits with an error and has no effect. -/
  | refused (output : Output) (detail : Text)
  /-- The adapter gives up on it and it has no effect. -/
  | lost (err : ScmError)
  /-- The adapter gives up on it but it takes effect. -/
  | late (err : ScmError)

/-- A command that was issued for a context. -/
structure Issued (F : Type) where
  context : Text
  /-- The changelist recorded for the context. -/
  own : Option Nat
  command : Command
  before : Server F
  after : Server F

/-- The server, the state files, and whether this process has seen a valid session. -/
structure World (F : Type) where
  server : Server F
  /-- `readContextCl` -/
  contextCl : Text → Option Nat
  /-- `preflightOkRepos` has the repository. -/
  loggedIn : Bool
  log : List (Issued F)

/-- A computation of the backend. -/
abbrev P4Prog (F α : Type) := Prog (World F) ScmError α

variable {F : Type} [DecidableEq F]

/-- The reply to a command, if the adapter gets one, and the server after it. -/
def Fault.deliver (fault : Fault) (s : Server F) (cmd : Command) :
    Except ScmError Reply × Server F :=
  match fault with
  | .fine => (.ok (s.perform cmd).1, (s.perform cmd).2)
  | .garbled => (.ok { (s.perform cmd).1 with output := .other }, (s.perform cmd).2)
  | .refused output detail => (.ok { Reply.failed output with detail := detail }, s)
  | .lost err => (.error err, s)
  | .late err => (.error err, (s.perform cmd).2)

/-- The log entry of a command. -/
def World.issue (w : World F) (ctx : Text) (fault : Fault) (cmd : Command) : Issued F :=
  { context := ctx
    own := w.contextCl ctx
    command := cmd
    before := w.server
    after := (fault.deliver w.server cmd).2 }

/-- The world after a command. -/
def World.afterIssue (w : World F) (ctx : Text) (fault : Fault) (cmd : Command) : World F :=
  { w with
    server := (fault.deliver w.server cmd).2
    log := w.log ++ [w.issue ctx fault cmd] }

/-- `PerforceBackend.p4` -/
def p4 (ctx : Text) (fault : Fault) (cmd : Command) : P4Prog F Reply := fun w =>
  ((fault.deliver w.server cmd).1, w.afterIssue ctx fault cmd)

/-- `genericFailure` -/
def genericFailure (operation : String) (res : Reply) : ScmError where
  code := .backendUnavailable
  message := "p4 ".toList ++ operation.toList ++ " failed (exit ".toList ++
    (toString res.code).toList ++ ")".toList ++
    (if res.detail = [] then [] else ": ".toList ++ res.detail)

/-- A command whose failure is a failure of the verb. -/
def p4OrFail (ctx : Text) (fault : Fault) (cmd : Command) (operation : String) : P4Prog F Reply := do
  let res ← p4 ctx fault cmd
  if res.code ≠ 0 then Prog.throw (genericFailure operation res) else pure res

/-! ## Parsing -/

/-- `parseCreatedChange` -/
def parseCreatedChange : Output → Option Nat
  | .created n => some n
  | _ => none

/-- `parseSubmittedChange` -/
def parseSubmittedChange : Output → Option Nat
  | .renamed _ m => some m
  | .submitted n => some n
  | _ => none

/-- `isSubmitConflict` -/
def isSubmitConflict (res : Reply) : Bool := res.code ≠ 0 && res.output = .conflict

/-- A changelist as evidence. -/
def changeIdText (n : Nat) : Text := "p4:".toList ++ (toString n).toList

/-! ## Sessions and changelists -/

/-- What may happen to each command of a verb. -/
structure Faults where
  login : Fault := .fine
  changeForm : Fault := .fine
  changeInput : Fault := .fine
  descriptionForm : Fault := .fine
  descriptionInput : Fault := .fine
  reconcile : Fault := .fine
  shelve : Fault := .fine
  submit : Fault := .fine
  sync : Fault := .fine
  resolve : Fault := .fine
  resubmit : Fault := .fine
  revert : Fault := .fine
  deleteClient : Fault := .fine

/-- `preflight` -/
def preflight (ctx : Text) (fault : Fault) : P4Prog F PUnit :=
  Prog.withState fun w =>
    if w.loggedIn then pure ⟨⟩
    else do
      let res ← p4 ctx fault .loginStatus
      if res.code = 0 then Prog.modify fun w => { w with loggedIn := true }
      else if res.output = .unreachable then
        Prog.throw
          { code := .backendUnavailable
            message := "perforce server is unreachable (p4 login -s failed to connect)".toList
            hint := some "Check P4PORT / network connectivity to the Perforce server.".toList }
      else
        Prog.throw
          { code := .authExpired
            message := ("perforce session is not authenticated " ++
              "(p4 login -s reported no valid ticket)").toList
            hint := some ("Run `p4 login` to refresh the ticket; " ++
              "the adapter never prompts interactively.").toList }

/-- The world with another number in the state file of a context. -/
def World.recording (w : World F) (ctx : Text) (cl : Nat) : World F :=
  { w with contextCl := Function.update w.contextCl ctx (some cl) }

omit [DecidableEq F] in
/-- A number in a state file is the one just recorded, or was there before. -/
theorem World.recording_cases {w : World F} {ctx c : Text} {cl n : Nat}
    (h : (w.recording ctx cl).contextCl c = some n) :
    (c = ctx ∧ n = cl) ∨ (c ≠ ctx ∧ w.contextCl c = some n) := by
  by_cases hc : c = ctx
  · subst hc
    simp only [World.recording, Function.update_self, Option.some.injEq] at h
    exact Or.inl ⟨rfl, h.symm⟩
  · simp only [World.recording, ne_eq, hc, not_false_eq_true, Function.update_of_ne] at h
    exact Or.inr ⟨hc, h⟩

omit [DecidableEq F] in
theorem World.recording_eq_self {w : World F} {ctx : Text} {cl : Nat}
    (h : w.contextCl ctx = some cl) : w.recording ctx cl = w := by
  rw [World.recording, ← h, Function.update_eq_self]

/-- `writeContextCl` -/
def writeContextCl (ctx : Text) (cl : Nat) : P4Prog F PUnit :=
  Prog.modify fun w => w.recording ctx cl

/-- `writeChangelistForm`, together with its callers' check of the result. -/
def writeChangelistForm (ctx : Text) (form input : Fault) (description : Text)
    (existingCl : Option Nat) (operation : String) : P4Prog F Reply := do
  let _ ← p4OrFail ctx form (.changeForm existingCl description) "change -o"
  p4OrFail ctx input (.changeInput existingCl description) operation

/-- The number in the output of the command that created a changelist. -/
def createdChange (res : Reply) : Except ScmError Nat :=
  match parseCreatedChange res.output with
  | some cl => .ok cl
  | none =>
    .error
      { code := .backendUnavailable
        message := "could not parse a changelist number from `p4 change` output".toList }

/-- `ensureContextChangelist` -/
def ensureContextChangelist (ctx : Text) (faults : Faults) : P4Prog F Nat :=
  Prog.withState fun w =>
    match w.contextCl ctx with
    | some existing => pure existing
    | none => do
      let res ← writeChangelistForm ctx faults.changeForm faults.changeInput
        ("wft-scm context ".toList ++ ctx) none "create changelist"
      let cl ← Prog.lift (createdChange res)
      writeContextCl ctx cl
      pure cl

/-- `setChangelistDescription` -/
def setChangelistDescription (ctx : Text) (faults : Faults) (cl : Nat) (message : Text) :
    P4Prog F PUnit := do
  let _ ← writeChangelistForm ctx faults.descriptionForm faults.descriptionInput message (some cl)
    "update changelist description"
  pure ⟨⟩

/-! ## Verbs -/

/-- The behaviours that the verbs below read, as `resolveBehaviors` merges them. -/
structure Behaviors where
  commit : Bool := true
  publish : Bool := true

/-- The path arguments of `stage` that may be passed to `p4`. -/
def stageArguments (files : List Text) : Except ScmError (List Text) := do
  let toStage ← enforceStageExclusions files
  match toStage.find? fun path => path.head? = some '-' with
  | none => pure toStage
  | some leadingDash =>
    throw
      { code := .configInvalid
        message := "refusing to stage path \"".toList ++ leadingDash ++
          ("\": perforce has no way to distinguish a leading-dash filename from a flag " ++
            "(p4 does not support \"--\" as an end-of-options terminator)").toList
        hint := some ("rename the file so it does not start with \"-\", " ++
          "or stage it via a different mechanism").toList }

/-- `PerforceBackend.stage` -/
def stage (ctx : Text) (faults : Faults) (files : List Text) : P4Prog F (List Text) := do
  preflight ctx faults.login
  let toStage ← Prog.lift (stageArguments files)
  if toStage = [] then pure []
  else do
    let cl ← ensureContextChangelist ctx faults
    let _ ← p4OrFail ctx faults.reconcile (.reconcile cl toStage) "reconcile (stage)"
    pure toStage

inductive ScmRecordMode where
  | noop
  | submit
  | shelve
  deriving DecidableEq, Repr

structure ScmRecordData where
  recorded : Bool
  changeId : Option Text
  mode : ScmRecordMode

/-- `PerforceBackend.record` -/
def record (ctx : Text) (faults : Faults) (config : Except ScmError Behaviors) (message : Text) :
    P4Prog F ScmRecordData := do
  preflight ctx faults.login
  let behaviors ← Prog.lift config
  if !behaviors.commit then pure { recorded := false, changeId := none, mode := .noop }
  else do
    let cl ← ensureContextChangelist ctx faults
    setChangelistDescription ctx faults cl message
    if behaviors.publish then pure { recorded := true, changeId := none, mode := .submit }
    else do
      let _ ← p4OrFail ctx faults.shelve (.shelve cl) "shelve"
      pure { recorded := true, changeId := some (changeIdText cl), mode := .shelve }

structure ScmPublishData where
  published : Bool
  changeId : Option Text

/-- `finishPublish` -/
def finishPublish (ctx : Text) (finalCl : Nat) : P4Prog F ScmPublishData := do
  writeContextCl ctx finalCl
  pure { published := true, changeId := some (changeIdText finalCl) }

/-- The result of `submit`. -/
inductive SubmitResult where
  | ok (cl : Nat)
  | failed (conflict : Bool) (res : Reply)

/-- `PerforceBackend.submit` -/
def submit (ctx : Text) (fault : Fault) (cl : Nat) : P4Prog F SubmitResult := do
  let res ← p4 ctx fault (.submit cl)
  if res.code = 0 then pure (.ok ((parseSubmittedChange res.output).getD cl))
  else pure (.failed (isSubmitConflict res) res)

/-- The second attempt of `publish`, after a conflict: sync, merge what can be merged safely, and
    submit once more. The replies of the first two are not looked at. -/
def publishAgain (ctx : Text) (faults : Faults) (cl : Nat) : P4Prog F ScmPublishData := do
  let _ ← p4 ctx faults.sync .sync
  let _ ← p4 ctx faults.resolve .resolveSafe
  match ← submit ctx faults.resubmit cl with
  | .ok finalCl => finishPublish ctx finalCl
  | .failed conflict res =>
    if !conflict then Prog.throw (genericFailure "submit" res)
    else
      Prog.throw
        { code := .submitConflict
          message := "p4 submit of changelist ".toList ++ (toString cl).toList ++
            " still conflicts after sync + resolve -as; files remain opened in changelist ".toList ++
            (toString cl).toList
          hint := some ("Resolve the changelist manually (`p4 resolve`) and re-submit — " ++
            "the adapter never runs -at/-ay.").toList }

/-- `PerforceBackend.publish` -/
def publish (ctx : Text) (faults : Faults) (config : Except ScmError Behaviors) :
    P4Prog F ScmPublishData := do
  preflight ctx faults.login
  let behaviors ← Prog.lift config
  if !behaviors.publish then pure { published := false, changeId := none }
  else Prog.withState fun w =>
    match w.contextCl ctx with
    | none => pure { published := false, changeId := none }
    | some cl => do
      match ← submit ctx faults.submit cl with
      | .ok finalCl => finishPublish ctx finalCl
      | .failed conflict res =>
        if !conflict then Prog.throw (genericFailure "submit" res)
        else publishAgain ctx faults cl

/-- `PerforceBackend.isolate`: the tree is shared. -/
def isolate (ctx : Text) (faults : Faults) : P4Prog F String := do
  preflight ctx faults.login
  pure "serialized"

/-- `PerforceBackend.teardownIsolation`; the replies are not looked at. -/
def teardownIsolation (ctx : Text) (faults : Faults) (id : Text) : P4Prog F Bool := do
  preflight ctx faults.login
  let _ ← p4 ctx faults.revert .revertAll
  let _ ← p4 ctx faults.deleteClient
    (.deleteClient ("wft-".toList ++ ctx ++ "-".toList ++ id))
  pure true

/-! ## Runs -/

/-- A call of a verb. -/
inductive Verb where
  | isolate
  | stage (files : List Text)
  | record (config : Except ScmError Behaviors) (message : Text)
  | publish (config : Except ScmError Behaviors)
  | teardownIsolation (id : Text)

/-- What happens next: a call, or something that is not the backend's doing. -/
inductive Action (F : Type) where
  | call (ctx : Text) (faults : Faults) (verb : Verb)
  /-- The files of the workspace change: edits, opens and resolves by hand, submits by others. -/
  | workspace (workspace : Workspace F)
  /-- Someone else's changelist gets a number. -/
  | allocate (status : ChangeStatus)
  /-- A new process of the adapter. -/
  | restart

/-- The world after a call. -/
def runVerb (ctx : Text) (faults : Faults) (w : World F) : Verb → World F
  | .isolate => (isolate ctx faults).exec w
  | .stage files => (stage ctx faults files).exec w
  | .record config message => (record ctx faults config message).exec w
  | .publish config => (publish ctx faults config).exec w
  | .teardownIsolation id => (teardownIsolation ctx faults id).exec w

def World.step (w : World F) : Action F → World F
  | .call ctx faults verb => runVerb ctx faults w verb
  | .workspace workspace => { w with server := { w.server with workspace := workspace } }
  | .allocate status => { w with server := w.server.allocate status }
  | .restart => { w with loggedIn := false }

/-- No context has a changelist yet, and nothing has been issued. -/
def World.start (server : Server F) : World F where
  server := server
  contextCl _ := none
  loggedIn := false
  log := []

end WoodFiredTasks.Scm
