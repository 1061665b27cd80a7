import WoodFiredTasks.Mcp.RemoteTaskTools

set_option autoImplicit false

/-! # Remote writes and local writes

A call of `create_task` or `update_task` that the stdio server's schema accepts, on either server.
The schemas of the remote server know the fields of the REST bodies only and drop what else there
is, so a submission for scoring never reaches the route: without one the two calls come to the
same call of the service, and with one the remote call is that of the arguments less the
submission. -/

namespace WoodFiredTasks.TaskBody

open Router (Json)

/-! ## Fields of a parsed object -/

section Parsed

variable {α : Type} {keys : List String} {default : String → Option Json} {fields : Fields}
  {key : String} (decode : Json → Option α)

theorem required_parsedObject (hkey : key ∈ keys) (hdefault : default key = none) :
    required (parsedObject keys default fields) key decode = required fields key decode := by
  rw [required, required, lookup_parsedObject hkey, hdefault, Option.or_none]

theorem withDefault_parsedObject {value : α} (hkey : key ∈ keys)
    (hdefault : ∀ json, default key = some json → decode json = some value) :
    withDefault (parsedObject keys default fields) key value decode =
      withDefault fields key value decode := by
  unfold withDefault
  rw [lookup_parsedObject hkey]
  cases hlookup : fields.lookup key <;> cases hjson : default key <;> simp_all

theorem patched_parsedObject (hkey : key ∈ keys) (hdefault : default key = none) :
    patched (parsedObject keys default fields) key decode = patched fields key decode := by
  refine withDefault_parsedObject _ hkey fun json hjson => ?_
  rw [hdefault] at hjson
  contradiction

theorem nullish_parsedObject (hkey : key ∈ keys) (hdefault : default key = none) :
    nullish (parsedObject keys default fields) key decode = nullish fields key decode := by
  refine withDefault_parsedObject _ hkey fun json hjson => ?_
  rw [hdefault] at hjson
  contradiction

end Parsed

/-- A key that is neither given nor filled in is not in the object. -/
theorem keys_parsedObject {keys known : List String} {default : String → Option Json}
    {fields : Fields} (hknown : ∀ key ∈ keys, key ∉ known →
      fields.lookup key = none ∧ default key = none) :
    ((parsedObject keys default fields).all fun field => known.contains field.1) = true := by
  refine List.all_eq_true.2 fun field hfield => ?_
  obtain ⟨key, hkey, hvalue⟩ := List.mem_filterMap.1 hfield
  obtain ⟨value, hvalue, rfl⟩ := Option.map_eq_some_iff.1 hvalue
  rw [List.contains_iff_mem]
  by_contra hmissing
  obtain ⟨hlookup, hdefault⟩ := hknown key hkey hmissing
  rw [hlookup, hdefault] at hvalue
  contradiction

/-- A key that a strict schema does not know is not given. -/
theorem lookup_eq_none_of_strict {keys : List String} {value : Json} {fields : Fields}
    {key : String} (hstrict : strictObject keys value = some fields) (hkey : key ∉ keys) :
    fields.lookup key = none := by
  cases value with
  | obj given =>
    simp only [strictObject, Option.ite_none_right_eq_some, Option.some.injEq] at hstrict
    obtain ⟨hall, rfl⟩ := hstrict
    refine List.lookup_eq_none_iff.2 fun field hfield => ?_
    rw [bne_iff_ne]
    rintro rfl
    exact hkey (List.contains_iff_mem.1 (List.all_eq_true.1 hall field hfield))
  | _ => contradiction

theorem eq_none_of_patched {α : Type} {fields : Fields} {key : String} {decode : Json → Option α}
    {value : Option α} (habsent : fields.lookup key = none)
    (hpatched : patched fields key decode = some value) : value = none := by
  rw [patched, withDefault, habsent] at hpatched
  exact (Option.some.inj hpatched).symm

theorem eq_obj_of_strict {keys : List String} {value : Json} {fields : Fields}
    (hstrict : strictObject keys value = some fields) : value = .obj fields := by
  cases value with
  | obj given =>
    simp only [strictObject, Option.ite_none_right_eq_some, Option.some.injEq] at hstrict
    rw [hstrict.2]
  | _ => contradiction

end WoodFiredTasks.TaskBody

namespace WoodFiredTasks.TaskTools

open Router (Json)
open TaskBody

/-! ## Creating -/

/-- The body of a new task has the fields that were given. -/
theorem createTaskFields_createBody (fields : Fields) :
    createTaskFields (parsedObject (createTaskKeys ++ ["created_by_user_id", "assignee_user_id"])
      createDefault fields) = createTaskFields fields := by
  have hpriority : ∀ json, createDefault "priority" = some json →
      enumOf priorities json = some .medium := by
    rintro json ⟨⟩
    rfl
  have htags : ∀ json, createDefault "tags" = some json → array string json = some [] := by
    rintro json ⟨⟩
    rfl
  unfold createTaskFields
  rw [withDefault_parsedObject _ (by decide) hpriority, withDefault_parsedObject _ (by decide) htags]
  simp (disch := first | rfl | decide) only [required_parsedObject, nullish_parsedObject]

/-- The server derives the ids of users itself. -/
theorem users_of_createTaskFields {fields : Fields} {input : CreateTaskInput}
    (hinput : createTaskFields fields = some input) :
    { input with createdByUserId := none, assigneeUserId := none } = input := by
  unfold createTaskFields at hinput
  iterate 12
    obtain ⟨_, -, hinput⟩ := Option.bind_eq_some_iff.1 hinput
  obtain rfl := Option.some.inj hinput
  rfl

/-- Without a submission the input of the service is that of the call. -/
theorem createTask_none (bypass : Listener) (input : CreateTaskInput)
    (wsjfTrigger : Option WsjfHistoryTrigger) (actorUserId : Option Nat) :
    createTask bypass input none wsjfTrigger actorUserId =
      TaskService.createTask bypass
        { input with createdByUserId := actorUserId, assigneeUserId := none } :=
  Prog.pure_bind_eq _ _

/-- What the schema of the stdio server has checked. -/
theorem parseCreateArgs_eq_some {env : Env} {args : Json} {a : CreateArgs}
    (hparse : parseCreateArgs env args = some a) :
    ∃ fields, strictObject (createTaskKeys ++ ["wsjf_submission", "wsjf_trigger"]) args =
        some fields ∧ createTaskFields fields = some a.input ∧
      patched fields "wsjf_submission" scoreSubmission = some a.submission ∧
      TaskSchema.createTask env a.input = [] := by
  simp only [parseCreateArgs, Option.bind_eq_bind, Option.bind_eq_some_iff] at hparse
  obtain ⟨fields, hfields, input, hinput, submission, hsubmission, trigger, -, hissues⟩ := hparse
  rw [Option.ite_none_right_eq_some] at hissues
  obtain ⟨⟨hissues, -⟩, ha⟩ := hissues
  obtain rfl := Option.some.inj ha
  exact ⟨fields, hfields, hinput, hsubmission, hissues⟩

section Create

variable {bodyFits : Json → Bool} {bypass : Listener} {user : Nat} {args : Json} {a : CreateArgs}
  {fields : Fields} {w : World}

/-- **The remote call drops the submission.** It comes to the call of the stdio server with the
    other arguments. -/
theorem remoteCreateTask_eq (hparse : parseCreateArgs w.env args = some a)
    (hargs : args = .obj fields) (hfits : bodyFits (createBody fields) = true) :
    remoteCreateTask bodyFits bypass user args w =
      serve (createTask bypass a.input none none (some user)) w := by
  subst hargs
  obtain ⟨given, hstrict, hinput, -, hissues⟩ := parseCreateArgs_eq_some hparse
  obtain rfl : fields = given := Json.obj.inj (eq_obj_of_strict hstrict)
  have husers := users_of_createTaskFields hinput
  have hcreatedByKey := lookup_eq_none_of_strict hstrict
    (by decide : "created_by_user_id" ∉ createTaskKeys ++ ["wsjf_submission", "wsjf_trigger"])
  have hassigneeKey := lookup_eq_none_of_strict hstrict
    (by decide : "assignee_user_id" ∉ createTaskKeys ++ ["wsjf_submission", "wsjf_trigger"])
  have hbody : remoteCreateBody w.env (.obj fields) = some (createBody fields) := by
    simp [remoteCreateBody, objectFields, hinput, nullish, withDefault, hcreatedByKey,
      hassigneeKey, husers, hissues]
  have hroute : (TaskBody.createTaskInput (createBody fields)) = some a.input := by
    rw [createTaskInput_eq, createBody, strictObject, if_pos, Option.bind_some,
      createTaskFields_createBody, hinput]
    refine keys_parsedObject fun key hkey hunknown => ?_
    rcases List.mem_append.1 hkey with hknown | hid
    · exact absurd hknown hunknown
    · simp only [List.mem_cons, List.not_mem_nil, or_false] at hid
      rcases hid with rfl | rfl
      · exact ⟨hcreatedByKey, rfl⟩
      · exact ⟨hassigneeKey, rfl⟩
  unfold remoteCreateTask
  rw [hbody]
  simp only [send, hfits, if_true, postTask, hroute]
  rw [Option.filter_some, if_pos (by simpa using hissues), createTask_none]

end Create

/-! ## Updating -/

/-- The body of a patch has the fields that were given. -/
theorem updateTaskFields_updateBody (fields : Fields) :
    updateTaskFields (parsedObject (updateTaskKeys ++ ["assignee_user_id"]) (fun _ => none)
      fields) = updateTaskFields fields := by
  have hfield : ∀ {α : Type} (key : String) (decode : Json → Option α), key ∈ updateTaskKeys →
      patched (parsedObject (updateTaskKeys ++ ["assignee_user_id"]) (fun _ => none) fields) key
        decode = patched fields key decode := by
    intro α key decode hkey
    exact patched_parsedObject decode (List.mem_append_left _ hkey) rfl
  unfold updateTaskFields
  rw [hfield "title" _ (by decide), hfield "description" _ (by decide),
    hfield "status" _ (by decide), hfield "priority" _ (by decide),
    hfield "parent_task_id" _ (by decide), hfield "estimated_minutes" _ (by decide),
    hfield "assignee" _ (by decide), hfield "due_date" _ (by decide),
    hfield "tags" _ (by decide), hfield "acceptance_criteria" _ (by decide),
    hfield "verification_evidence" _ (by decide), hfield "wsjf" _ (by decide),
    hfield "blocked_by" _ (by decide)]

/-- The server derives the id of the assignee itself. -/
theorem users_of_updateTaskFields {fields : Fields} {updates : UpdateTaskInput}
    (hupdates : updateTaskFields fields = some updates) :
    { updates with assigneeUserId := none } = updates := by
  unfold updateTaskFields at hupdates
  iterate 13
    obtain ⟨_, -, hupdates⟩ := Option.bind_eq_some_iff.1 hupdates
  obtain rfl := Option.some.inj hupdates
  rfl

/-- Without a submission the updates of the service are those of the call. -/
theorem updateTask_none (bypass : Listener) (resolve : Option String → Option Nat) (id : Nat)
    (updates : UpdateTaskInput) (actorUserId : Option Nat) :
    updateTask bypass resolve id updates none actorUserId =
      TaskService.updateTask bypass id
        { updates with assigneeUserId := updates.assignee.map resolve } .user
        (actorUserId.map Nat.repr) :=
  Prog.pure_bind_eq _ _

/-- What the schema of the stdio server has checked. -/
theorem parseUpdateArgs_eq_some {env : Env} {args : Json} {a : UpdateArgs}
    (hparse : parseUpdateArgs env args = some a) :
    ∃ top given fields, objectFields args = some top ∧ required top "id" natural = some a.id ∧
      a.id ≠ 0 ∧ top.lookup "updates" = some given ∧
      strictObject (updateTaskKeys ++ ["wsjf_submission"]) given = some fields ∧
      updateTaskFields fields = some a.updates ∧
      patched fields "wsjf_submission" scoreSubmission = some a.submission ∧
      TaskSchema.updateTask env a.updates = [] := by
  simp only [parseUpdateArgs, Option.bind_eq_bind, Option.bind_eq_some_iff] at hparse
  obtain ⟨top, htop, id, hid, given, hgiven, fields, hfields, updates, hupdates, submission,
    hsubmission, hchecks⟩ := hparse
  rw [Option.ite_none_right_eq_some] at hchecks
  obtain ⟨⟨hpositive, hissues, -⟩, ha⟩ := hchecks
  obtain rfl := Option.some.inj ha
  exact ⟨top, given, fields, htop, hid, hpositive, hgiven, hfields, hupdates, hsubmission, hissues⟩

section Update

variable {bodyFits : Json → Bool} {bypass : Listener} {findByEmail : String → Option Nat}
  {user : Nat} {args : Json} {a : UpdateArgs} {top fields : Fields} {w : World}

/-- **The remote patch drops the submission.** -/
theorem remoteUpdateTask_eq (hparse : parseUpdateArgs w.env args = some a)
    (hargs : args = .obj top) (hgiven : top.lookup "updates" = some (.obj fields))
    (hfits : bodyFits (updateBody fields) = true) :
    remoteUpdateTask bodyFits bypass findByEmail user args w =
      serve (updateTask bypass (resolveAssigneeUserId findByEmail) a.id a.updates none
        (some user)) w := by
  subst hargs
  obtain ⟨top', given, fields', htop, hid, hpositive, hgiven', hstrict, hupdates, -, hissues⟩ :=
    parseUpdateArgs_eq_some hparse
  obtain rfl : top = top' := Option.some.inj htop
  obtain rfl : given = .obj fields := Option.some.inj (hgiven'.symm.trans hgiven)
  obtain rfl : fields = fields' := Json.obj.inj (eq_obj_of_strict hstrict)
  have huser := users_of_updateTaskFields hupdates
  have hkey := lookup_eq_none_of_strict hstrict
    (by decide : "assignee_user_id" ∉ updateTaskKeys ++ ["wsjf_submission"])
  have hbody : remoteUpdateBody w.env (.obj top) = some (a.id, updateBody fields) := by
    simp [remoteUpdateBody, objectFields, hid, hgiven, hupdates, patched, withDefault, hkey, huser,
      hpositive, hissues]
  have hroute : (strictObject updateTaskKeys (updateBody fields)).bind updateTaskFields =
      some a.updates := by
    rw [updateBody, strictObject, if_pos, Option.bind_some, updateTaskFields_updateBody, hupdates]
    refine keys_parsedObject fun key hid hunknown => ?_
    rcases List.mem_append.1 hid with hknown | hassignee
    · exact absurd hknown hunknown
    · obtain rfl := List.mem_singleton.1 hassignee
      exact ⟨hkey, rfl⟩
  unfold remoteUpdateTask
  rw [hbody]
  simp only [send, hfits, if_true, putTask, hroute]
  rw [Option.filter_some, if_pos (by simpa using hissues), updateTask_none]
  rfl

end Update

/-! ## Agreement -/

/-- Both calls succeed or both fail, and they leave the same rows. With one user and one clock on
    both sides the times and the ids of users are the same as well. -/
structure Agrees (stdio remote : Except ToolError Task × World) : Prop where
  succeeds : remote.1.isOk = stdio.1.isOk
  tasks : remote.2.db.tasks.rows = stdio.2.db.tasks.rows
  dependencies : remote.2.db.dependencies.rows = stdio.2.db.dependencies.rows
  wsjfHistory : remote.2.db.wsjfHistory.rows = stdio.2.db.wsjfHistory.rows

theorem Agrees.of_eq {stdio remote : Except ToolError Task × World} (h : remote = stdio) :
    Agrees stdio remote := by
  subst h
  exact ⟨rfl, rfl, rfl, rfl⟩

/-- The arguments of `create_task` hold no submission, and the body made of them is not too long. -/
def CreateCarried (bodyFits : Json → Bool) (args : Json) : Prop :=
  ∃ fields, args = .obj fields ∧ fields.lookup "wsjf_submission" = none ∧
    bodyFits (createBody fields) = true

/-- The updates of `update_task` hold no submission, and the body made of them is not too long. -/
def UpdateCarried (bodyFits : Json → Bool) (args : Json) : Prop :=
  ∃ top fields, args = .obj top ∧ top.lookup "updates" = some (.obj fields) ∧
    fields.lookup "wsjf_submission" = none ∧ bodyFits (updateBody fields) = true

/-- **Main theorem.** Whatever the stdio server's schema accepts, the remote call agrees with the
    local one if the arguments hold no submission for scoring and the request is not too long. -/
theorem remoteWrites_agree (bodyFits : Json → Bool) (bypass : Listener)
    (findByEmail : String → Option Nat) (user : Nat) (args : Json) (w : World) :
    ((parseCreateArgs w.env args).isSome = true → CreateCarried bodyFits args →
      Agrees (stdioCreateTask bypass (some user) args w)
        (remoteCreateTask bodyFits bypass user args w)) ∧
    ((parseUpdateArgs w.env args).isSome = true → UpdateCarried bodyFits args →
      Agrees (stdioUpdateTask bypass findByEmail (some user) args w)
        (remoteUpdateTask bodyFits bypass findByEmail user args w)) := by
  constructor
  · rintro haccepted ⟨fields, rfl, hnone, hfits⟩
    obtain ⟨a, hparse⟩ := Option.isSome_iff_exists.1 haccepted
    refine Agrees.of_eq ?_
    rw [remoteCreateTask_eq hparse rfl hfits]
    -- no submission was given, so none was parsed, and then the trigger is not looked at
    obtain ⟨given, hstrict, -, hsubmission, -⟩ := parseCreateArgs_eq_some hparse
    obtain rfl : fields = given := Json.obj.inj (eq_obj_of_strict hstrict)
    have habsent : a.submission = none := eq_none_of_patched hnone hsubmission
    simp only [stdioCreateTask, hparse, habsent, createTask_none]
  · rintro haccepted ⟨top, fields, rfl, hgiven, hnone, hfits⟩
    obtain ⟨a, hparse⟩ := Option.isSome_iff_exists.1 haccepted
    refine Agrees.of_eq ?_
    rw [remoteUpdateTask_eq hparse rfl hgiven hfits]
    obtain ⟨top', given, fields', htop, -, -, hgiven', hstrict, -, hsubmission, -⟩ :=
      parseUpdateArgs_eq_some hparse
    obtain rfl : top = top' := Option.some.inj htop
    obtain rfl : given = .obj fields := Option.some.inj (hgiven'.symm.trans hgiven)
    obtain rfl : fields = fields' := Json.obj.inj (eq_obj_of_strict hstrict)
    have habsent : a.submission = none := eq_none_of_patched hnone hsubmission
    simp only [stdioUpdateTask, hparse, habsent]

/-! ## A decomposed task -/

/-- A task of a decomposition, with the submission that such a task must come with. -/
def decomposedArgs : Json :=
  .obj
    [("title", .str "release"), ("project_id", .num 1), ("created_by", .str "agent"),
      ("tags", .arr [.str "decomp-1"]), ("wsjf_trigger", .str "decompose"),
      ("wsjf_submission", .obj
        [("classification", .obj
          [("themeName", .null), ("alignment", .str "none"), ("severity", .str "none"),
            ("decay", .null), ("jobSizeTier", .num 1), ("evidence", .obj
              [("value", .str "release"), ("timeCriticality", .str "release"),
                ("riskOpportunity", .str "release"), ("jobSize", .str "release")])]),
          ("features", .obj
            [("deadlineDate", .null), ("daysUntilDeadline", .null),
              ("transitiveDependents", .num 0), ("filesTouched", .num 0),
              ("charterVersion", .null)])])]

/-- The stdio server creates the task, and the remote server refuses it for want of the submission
    that it has dropped. -/
theorem remoteWrites_decomposed :
    ¬ ∀ (bypass : Listener) (findByEmail : String → Option Nat) (user : Nat) (args : Json)
        (w : World),
      ((parseCreateArgs w.env args).isSome = true →
        Agrees (stdioCreateTask bypass (some user) args w)
          (remoteCreateTask (fun _ => true) bypass user args w)) ∧
      ((parseUpdateArgs w.env args).isSome = true →
        Agrees (stdioUpdateTask bypass findByEmail (some user) args w)
          (remoteUpdateTask (fun _ => true) bypass findByEmail user args w)) := by
  intro hagree
  have hdecomposed := (hagree (fun _ => pure ⟨⟩) (fun _ => none) 1 decomposedArgs
    (World.start .undisturbed { Db.oneProject with users := [1] } 0)).1 (by decide +kernel)
  exact absurd hdecomposed.succeeds (by decide +kernel)

end WoodFiredTasks.TaskTools
