import Mathlib.Data.List.Induction
import WoodFiredTasks.Api.ClaimRoute
import WoodFiredTasks.Lib.Runs
import WoodFiredTasks.ProcessSteps

set_option autoImplicit false

/-! # The responses of claims

A success of the claim route is the response of a claim that this request has made, or, under a
key that is still remembered, the unchanged response of the request that has stored it. The key
alone selects the response: the second request may name another task and another assignee. -/

namespace WoodFiredTasks

open TaskService

/-- The REST server: its database and its clock. -/
structure Server where
  db : Db
  now : Nat

/-- What happens to the server's database from one claim request to the next. -/
inductive ServerAction where
  | request (r : ClaimRequest) (env : Env)
  | wait (ms : Nat)
  /-- The hourly cleanup of the keys. -/
  | cleanup
  /-- Any other writes: nothing but the claim route writes the keys. -/
  | others (db : Db)

/-- The run of a request. -/
def Server.reply (s : Server) (r : ClaimRequest) (env : Env) : Except Err ClaimReply × World :=
  (ClaimRoute.route WorkflowEngine.engine r).run (World.start env s.db s.now)

def Server.step (s : Server) : ServerAction → Server
  | .request r env => { s with db := (s.reply r env).2.db }
  | .wait ms => { s with now := s.now + ms }
  | .cleanup => { s with db := s.db.dropExpiredKeys s.now }
  | .others db => { s with db := { db with idempotencyKeys := s.db.idempotencyKeys } }

/-- `claimTask` was run for the request, on the server's database, and returned the task. -/
def Server.Granted (s : Server) (r : ClaimRequest) (task : Task) : Prop :=
  ∃ w w', w.db = s.db ∧ w.now = s.now ∧ w.Idle ∧
    (claimTask WorkflowEngine.engine r.taskId r.assignee r.source (some r.userId)).run w =
      (.ok task, w') ∧ Claimed w'.db r.taskId r.assignee task

section Handler

/-- A claim with the engine listening: the row that it returns, and the keys untouched. -/
theorem run_claimTask {taskId : Nat} {assignee : String} {source : EventSource} {user : Option Nat}
    {w w' : World} {result : Except Err Task}
    (hrun : (claimTask WorkflowEngine.engine taskId assignee source user).run w = (result, w')) :
    w'.db.idempotencyKeys = w.db.idempotencyKeys ∧ w'.now = w.now ∧
      ∀ task, result = .ok task → Claimed w'.db taskId assignee task := by
  have hkeys : ∀ (v : View) (db : Db), Unchanged v db → db.idempotencyKeys = v.db.idempotencyKeys :=
    fun v db h => congrArg Db.idempotencyKeys h
  have hclaim : Spec (claimRead taskId assignee >>= fun path => claimBy path taskId assignee user)
      (fun v t db => Claimed db taskId assignee t ∧ db.idempotencyKeys = v.db.idempotencyKeys)
      fun v db => db.idempotencyKeys = v.db.idempotencyKeys := by
    refine (((claimRead_spec taskId assignee).conseq (fun v path db h => h.2) hkeys).bind fun path =>
      claimBy_spec path taskId assignee user).conseq ?_ ?_
    · rintro v t db ⟨path, _, rfl, h⟩
      exact h
    · rintro v db (h | ⟨path, _, rfl, h⟩) <;> exact h
  rw [claimTask_eq] at hrun
  rcases hr : (claimRead taskId assignee >>= fun path =>
    claimBy path taskId assignee user).run w with ⟨e | task, w₁⟩
  · rw [Prog.run_bind_error hr] at hrun
    cases hrun
    obtain ⟨hw, -, hdb⟩ := hclaim.error hr
    exact ⟨hdb, by rw [hw], fun _ h => nomatch h⟩
  · obtain ⟨hw, hclaimed, hdb⟩ := hclaim.ok hr
    obtain ⟨w₂, hr₂, hdb₂, hnow₂⟩ := publishes_announceClaim task source w₁
    rw [Prog.run_bind_ok hr, hr₂] at hrun
    cases hrun
    rw [hdb₂]
    refine ⟨hdb, hnow₂.trans (by rw [hw]), fun task' htask => ?_⟩
    obtain rfl := Except.ok.inj htask
    exact hclaimed

/-- The rows after the response has been kept: old ones, and one under the key of the request. -/
def KeptUnder (key : Option String) (task : Task) (v : View) (db : Db) : Prop :=
  db.tasks = v.db.tasks ∧ ∀ row ∈ db.idempotencyKeys, row ∈ v.db.idempotencyKeys ∨
    (key = some row.key ∧ row.response = task ∧ row.createdAt = v.now / 1000)

theorem remember_spec (key : Option String) (task : Task) : Spec (ClaimRoute.remember key task)
    (fun v _ db => KeptUnder key task v db) (KeptUnder key task) := by
  cases key with
  | none => exact (Spec.pure ()).post fun v _ db h => h.2 ▸ ⟨rfl, fun row hrow => .inl hrow⟩
  | some key =>
    have hkept : ∀ (v : View) (db : Db), IdempotencyService.Remembered v key task db →
        KeptUnder (some key) task v db := by
      intro v db h
      refine ⟨h.1, fun row hrow => (h.2 row hrow).imp_right fun hnew => ?_⟩
      rw [hnew]
      exact ⟨rfl, rfl, rfl⟩
    exact (IdempotencyService.set_spec key task).conseq (fun v _ db => hkept v db) hkept

/-- The catch of the handler writes nothing and makes no success. -/
theorem run_onClaimError (e : Err) (w : World) :
    ((ClaimRoute.onClaimError e).run w).2 = w ∧
      ∀ task, ((ClaimRoute.onClaimError e).run w).1 ≠ .ok (.ok task) := by
  cases e <;> exact ⟨rfl, fun task h => by cases h⟩

/-- The claim of a request: what it keeps is the response of its own claim, and so is what it
    returns. -/
theorem run_claim {r : ClaimRequest} {key : Option String} {w w' : World}
    {result : Except Err ClaimReply}
    (hrun : (ClaimRoute.claim WorkflowEngine.engine r key).run w = (result, w')) :
    (∀ row ∈ w'.db.idempotencyKeys, row ∈ w.db.idempotencyKeys ∨ key = some row.key ∧
      row.createdAt = w.now / 1000 ∧ ∃ w₁, (claimTask WorkflowEngine.engine r.taskId r.assignee r.source
        (some r.userId)).run w = (.ok row.response, w₁)) ∧
    ∀ task, result = .ok (.ok task) → ∃ w₁, (claimTask WorkflowEngine.engine r.taskId r.assignee
      r.source (some r.userId)).run w = (.ok task, w₁) ∧ w'.db.tasks = w₁.db.tasks := by
  rw [ClaimRoute.claim, Prog.run_tryCatch] at hrun
  rcases hclaim : (claimTask WorkflowEngine.engine r.taskId r.assignee r.source
    (some r.userId)).run w with ⟨e | task, w₁⟩
  · obtain ⟨hkeys, -, -⟩ := run_claimTask hclaim
    obtain ⟨hsame, hfail⟩ := run_onClaimError e w₁
    rw [Prog.run_bind_error hclaim] at hrun
    simp only at hrun
    rw [hrun] at hsame hfail
    simp only at hsame hfail
    rw [hsame, hkeys]
    exact ⟨fun row hrow => .inl hrow, fun task htask => absurd htask (hfail task)⟩
  · obtain ⟨hkeys, hnow, -⟩ := run_claimTask hclaim
    have hkept : ∀ {db : Db}, KeptUnder key task w₁.view db → ∀ row ∈ db.idempotencyKeys,
        row ∈ w.db.idempotencyKeys ∨ key = some row.key ∧ row.createdAt = w.now / 1000 ∧
          ∃ w₂, ((.ok task, w₁) : Except Err Task × World) = (.ok row.response, w₂) := by
      intro db hdb row hrow
      have hrow' := hdb.2 row hrow
      rw [World.view, hkeys, hnow] at hrow'
      rcases hrow' with hold | ⟨hkey, hresponse, hcreated⟩
      · exact .inl hold
      · exact .inr ⟨hkey, hcreated, w₁, by rw [hresponse]⟩
    rw [Prog.run_bind_ok hclaim] at hrun
    rcases hkeep : (ClaimRoute.remember key task).run w₁ with ⟨e | _, w₂⟩
    · -- the claim stands, but the client gets an error
      obtain ⟨-, -, hdb⟩ := (remember_spec key task).error hkeep
      obtain ⟨hsame, hfail⟩ := run_onClaimError e w₂
      rw [Prog.run_bind_error hkeep] at hrun
      simp only at hrun
      rw [hrun] at hsame hfail
      simp only at hsame hfail
      rw [hsame]
      exact ⟨hkept hdb, fun task htask => absurd htask (hfail task)⟩
    · obtain ⟨-, hdb⟩ := (remember_spec key task).ok hkeep
      rw [Prog.run_bind_ok hkeep] at hrun
      cases hrun
      refine ⟨hkept hdb, fun task' htask => ?_⟩
      cases htask
      exact ⟨w₁, rfl, hdb.1⟩

end Handler

/-- What a request that names the key of a remembered response is answered with. -/
def Server.Remembers (s : Server) (key : String) (task : Task) : Prop :=
  ∃ row ∈ s.db.idempotencyKeys, row.key = key ∧ row.response = task ∧ row.live s.now = true

/-- One request: what it keeps is the response of its own claim; what it returns is that response,
    or one that is remembered under its key. -/
theorem Server.run_request {s : Server} {r : ClaimRequest} {env : Env}
    {result : Except Err ClaimReply} {w' : World} (hrun : s.reply r env = (result, w')) :
    (∀ row ∈ w'.db.idempotencyKeys, row ∈ s.db.idempotencyKeys ∨
      r.idempotencyKey = .single row.key ∧ row.createdAt = s.now / 1000 ∧
        s.Granted r row.response) ∧
    ∀ task, result = .ok (.ok task) →
      (s.Granted r task ∧ Claimed w'.db r.taskId r.assignee task) ∨
      (w'.db = s.db ∧ ∃ key, r.idempotencyKey = .single key ∧ s.Remembers key task) := by
  have hidle := World.idle_start env s.db s.now
  -- the handler's claim, from the world in which its key has been looked up
  have hclaim : ∀ (key : Option String) {w : World}, w.db = s.db → w.now = s.now → w.Idle →
      (ClaimRoute.claim WorkflowEngine.engine r key).run w = (result, w') →
      (∀ row ∈ w'.db.idempotencyKeys, row ∈ s.db.idempotencyKeys ∨
        key = some row.key ∧ row.createdAt = s.now / 1000 ∧ s.Granted r row.response) ∧
      ∀ task, result = .ok (.ok task) → s.Granted r task ∧ Claimed w'.db r.taskId r.assignee task := by
    intro key w hdb hnow hw hr
    have hgranted : ∀ {task : Task} {w₁ : World}, (claimTask WorkflowEngine.engine r.taskId r.assignee
        r.source (some r.userId)).run w = (.ok task, w₁) → s.Granted r task := fun hr =>
      ⟨w, _, hdb, hnow, hw, hr, (run_claimTask hr).2.2 _ rfl⟩
    obtain ⟨hrows, hok⟩ := run_claim hr
    rw [hdb, hnow] at hrows
    refine ⟨fun row hrow => (hrows row hrow).imp_right fun h => ?_, fun task htask => ?_⟩
    · obtain ⟨hkey, hcreated, w₁, hr₁⟩ := h
      exact ⟨hkey, hcreated, hgranted hr₁⟩
    · obtain ⟨w₁, hr₁, htasks⟩ := hok task htask
      obtain ⟨hstored, hid, hassignee, hstatus⟩ := (run_claimTask hr₁).2.2 task rfl
      exact ⟨hgranted hr₁, htasks ▸ hstored, hid, hassignee, hstatus⟩
  rw [Server.reply, ClaimRoute.route] at hrun
  split at hrun
  · rw [ClaimRoute.handle] at hrun
    split at hrun
    · rename_i reply hkey
      cases hrun
      refine ⟨fun row hrow => .inl hrow, fun task htask => ?_⟩
      exact absurd (Except.ok.inj htask) (ClaimRoute.readKey_error hkey task)
    · obtain ⟨hrows, hok⟩ := hclaim none rfl rfl hidle hrun
      refine ⟨fun row hrow => (hrows row hrow).imp_right fun h => ?_, fun task htask => ?_⟩
      · cases h.1
      · exact .inl (hok task htask)
    · rename_i key hkey
      have hheader := ClaimRoute.readKey_some hkey
      rcases hget : (IdempotencyService.get key).run (World.start env s.db s.now) with ⟨e | cached, w⟩
      · obtain ⟨-, -, hdb⟩ := (IdempotencyService.get_spec key).error hget
        have hsame : w.db = s.db := hdb
        rw [Prog.run_bind_error hget] at hrun
        cases hrun
        rw [hsame]
        exact ⟨fun row hrow => .inl hrow, fun task htask => by cases htask⟩
      · obtain ⟨hw, hcached, hdb⟩ := (IdempotencyService.get_spec key).ok hget
        have hsame : w.db = s.db := hdb
        rw [Prog.run_bind_ok hget] at hrun
        cases cached with
        | some cached =>
          cases hrun
          rw [hsame]
          refine ⟨fun row hrow => .inl hrow, fun task htask => .inr ⟨rfl, key, hheader, ?_⟩⟩
          cases htask
          exact hcached cached rfl
        | none =>
          have hw' : w.now = s.now ∧ w.Idle := by
            rw [hw]
            exact ⟨rfl, hidle.cascadeDepth, hidle.cascadeError⟩
          obtain ⟨hrows, hok⟩ := hclaim (some key) hsame hw'.1 hw'.2 hrun
          refine ⟨fun row hrow => (hrows row hrow).imp_right fun h => ?_, fun task htask => ?_⟩
          · rw [hheader, Option.some.inj h.1]
            exact ⟨rfl, h.2⟩
          · exact .inl (hok task htask)
  · cases hrun
    exact ⟨fun row hrow => .inl hrow, fun task htask => by cases htask⟩

/-! ## Sequences of requests -/

/-- An earlier request of the run, under this key, whose claim was granted and answered with the
    task at this second. -/
def GrantedBefore (start : Server) (actions : List ServerAction) (key : String) (task : Task)
    (createdAt : Nat) : Prop :=
  ∃ before r env after, actions = before ++ .request r env :: after ∧
    r.idempotencyKey = .single key ∧ (before.foldl Server.step start).Granted r task ∧
    task.id = r.taskId ∧ task.assignee = some r.assignee ∧ task.status = .inProgress ∧
    createdAt = (before.foldl Server.step start).now / 1000

theorem GrantedBefore.append {start : Server} {actions : List ServerAction} {key : String}
    {task : Task} {createdAt : Nat} (h : GrantedBefore start actions key task createdAt)
    (a : ServerAction) : GrantedBefore start (actions ++ [a]) key task createdAt := by
  obtain ⟨before, r, env, after, hactions, hrest⟩ := h
  refine ⟨before, r, env, after ++ [a], ?_, hrest⟩
  rw [hactions, List.append_assoc, List.cons_append]

/-- Every remembered response is the response of an earlier request under its key. -/
theorem remembered_granted {start : Server} (hstart : start.db.idempotencyKeys = [])
    (actions : List ServerAction) :
    ∀ row ∈ (actions.foldl Server.step start).db.idempotencyKeys,
      GrantedBefore start actions row.key row.response row.createdAt := by
  induction actions using List.reverseRecOn with
  | nil =>
    intro row hrow
    rw [List.foldl_nil, hstart] at hrow
    cases hrow
  | append_singleton actions a ih =>
    intro row hrow
    rw [List.foldl_append] at hrow
    cases a with
    | request r env =>
      rcases hrun : (actions.foldl Server.step start).reply r env with ⟨result, w'⟩
      have hrow' : row ∈ w'.db.idempotencyKeys := by
        simpa only [List.foldl_cons, List.foldl_nil, Server.step, hrun] using hrow
      rcases (Server.run_request hrun).1 row hrow' with hold | ⟨hkey, hcreated, hgranted⟩
      · exact (ih row hold).append _
      · obtain ⟨_, _, -, -, -, -, hclaimed⟩ := id hgranted
        exact ⟨actions, r, env, [], rfl, hkey, hgranted, hclaimed.id, hclaimed.assignee,
          hclaimed.status, hcreated⟩
    | wait ms => exact (ih row hrow).append _
    | cleanup => exact (ih row (List.mem_of_mem_filter hrow)).append _
    | others db => exact (ih row hrow).append _

/-- **Main theorem.** After any sequence of claim requests (and whatever else happens to the
    database), a request that is answered with a success has been granted its own claim, and the
    response is the row that it has left in the database; or its key was used within 24 hours by
    an earlier request, whose claim was granted, and the response is that request's response,
    unchanged, for the task and the assignee that it named. Then nothing is written. -/
theorem claim_responses {start : Server} (hstart : start.db.idempotencyKeys = [])
    {actions : List ServerAction} {r : ClaimRequest} {env : Env} {task : Task} {w' : World}
    (hreply : (actions.foldl Server.step start).reply r env = (.ok (.ok task), w')) :
    let s := actions.foldl Server.step start
    (s.Granted r task ∧ Claimed w'.db r.taskId r.assignee task) ∨
    (w'.db = s.db ∧ ∃ key createdAt, r.idempotencyKey = .single key ∧
      GrantedBefore start actions key task createdAt ∧
      s.now / 1000 < createdAt + idempotencyTtl) := by
  rcases (Server.run_request hreply).2 task rfl with hgranted | ⟨hdb, key, hkey, row, hrow, hremembered⟩
  · exact .inl hgranted
  · obtain ⟨hrowKey, hresponse, hlive⟩ := hremembered
    have horigin := remembered_granted hstart actions row hrow
    rw [hrowKey, hresponse] at horigin
    exact .inr ⟨hdb, key, row.createdAt, hkey, horigin, of_decide_eq_true hlive⟩

/-- The task of a success. -/
def successOf : Except Err ClaimReply → Option Task
  | .ok (.ok task) => some task
  | _ => none

theorem successOf_eq_some {reply : Except Err ClaimReply} {task : Task}
    (h : successOf reply = some task) : reply = .ok (.ok task) := by
  unfold successOf at h
  split at h
  · cases h
    rfl
  · cases h

/-- A request for a task, by a worker, under the key `retry-key`. -/
def retryRequest (taskId : Nat) (assignee : String) : ClaimRequest :=
  ⟨taskId, assignee, .single "retry-key", .user, 1⟩

/-- Two open tasks and user 1. -/
def claimServer : Server :=
  ⟨{ Db.withTasks [plainTask .open none, plainTask .open none] with users := [1] }, 0⟩

/-- The first worker claims task 1. -/
theorem claim_responses_first :
    let reply := claimServer.reply (retryRequest 1 "first") .undisturbed
    ∃ task, successOf reply.1 = some task ∧ Claimed reply.2.db 1 "first" task := by
  intro reply
  have hsuccess : (successOf reply.1).isSome = true := by decide +kernel
  obtain ⟨task, htask⟩ := Option.isSome_iff_exists.1 hsuccess
  have hreply : ([].foldl Server.step claimServer).reply (retryRequest 1 "first") .undisturbed =
      (.ok (.ok task), reply.2) := Prod.ext (successOf_eq_some htask) rfl
  rcases claim_responses rfl hreply with ⟨-, hclaimed⟩ | ⟨-, _, _, -, ⟨_, _, _, _, hnil, -⟩, -⟩
  · exact ⟨task, htask, hclaimed⟩
  · cases List.append_eq_nil_iff.1 hnil.symm |>.2

/-- The second worker names task 2 under the same key and is answered with task 1, which the first
    worker holds. -/
theorem claim_responses_reused :
    ¬ ∀ task, successOf (([.request (retryRequest 1 "first") .undisturbed].foldl Server.step
      claimServer).reply (retryRequest 2 "second") .undisturbed).1 = some task →
        task.id = 2 ∧ task.assignee = some "second" := by
  intro h
  have hfirst : (successOf (([.request (retryRequest 1 "first") .undisturbed].foldl Server.step
      claimServer).reply (retryRequest 2 "second") .undisturbed).1).map (·.id) = some 1 := by
    decide +kernel
  obtain ⟨task, htask, hid⟩ := Option.map_eq_some_iff.1 hfirst
  exact absurd ((h task htask).1.symm.trans hid) (by decide)

end WoodFiredTasks
