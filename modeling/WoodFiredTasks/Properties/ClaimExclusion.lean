import WoodFiredTasks.Lib.Runs
import WoodFiredTasks.Properties.StatusLegality

set_option autoImplicit false

/-! # Claims exclude each other

The conditional UPDATE of a fresh claim finds the row unassigned and open, and leaves it assigned
and in progress. So between two of them something has made the row unassigned again (a release of
a sweep, or an update that clears the assignee) and something has made it unassigned and open. The
latter need not write the row by name: the engine's cascade reopens a blocked task whose assignee
has been cleared. While only claims write the row, the first fresh claim wins, and every claim that
ends normally is by the same assignee. -/

namespace WoodFiredTasks

open TaskService

/-! ## Rows and steps -/

/-- The row is there and nobody is assigned. -/
def Db.Unassigned (db : Db) (t : Nat) : Prop :=
  ∃ row ∈ db.tasks.find? t, row.assignee = none

/-- The row is there, in progress and assigned. -/
def Db.HeldBy (db : Db) (t : Nat) (assignee : String) : Prop :=
  ∃ row ∈ db.tasks.find? t, row.assignee = some assignee ∧ row.status = .inProgress

/-- The release of the task by a sweep. -/
def Point.Releases (t : Nat) : Point → Prop
  | .release _ claim _ => claim.id = t
  | _ => False

/-- The write of an update of the task that clears the assignee. -/
def Point.ClearsAssignee (t : Nat) : Point → Prop
  | .updateWrite _ id input _ => id = t ∧ input.assignee = some none
  | _ => False

/-- The write of an update of the task that opens it. -/
def Point.Opens (t : Nat) : Point → Prop
  | .updateWrite _ id input _ => id = t ∧ input.status = some .open
  | _ => False

/-- The events of an update into done, which the engine answers with a cascade. -/
def Point.Cascades : Point → Prop
  | .announce _ updated _ _ => updated.status = .done
  | _ => False

instance (t : Nat) : DecidablePred (Point.Releases t) := fun point => by
  cases point <;> simp only [Point.Releases] <;> infer_instance

instance (t : Nat) : DecidablePred (Point.ClearsAssignee t) := fun point => by
  cases point <;> simp only [Point.ClearsAssignee] <;> infer_instance

instance (t : Nat) : DecidablePred (Point.Opens t) := fun point => by
  cases point <;> simp only [Point.Opens] <;> infer_instance

/-- The step is a fresh claim of the task by the assignee that ends normally. -/
def Sys.Grants (s : Sys) (a : Action) (t : Nat) (assignee : String) : Prop :=
  ∃ p env user source, a = .step p env ∧
    s.procs p = some (.claimUpdate .fresh t assignee user source) ∧
    (s.result (.claimUpdate .fresh t assignee user source) env).1 = .ok none

/-- The step makes the task unassigned: a release, or an update that says so. -/
def Sys.Unassigns (s : Sys) (a : Action) (t : Nat) : Prop :=
  ¬ s.db.Unassigned t ∧ (s.step a).db.Unassigned t ∧
    ∃ point ∈ s.pointAt a, point.Releases t ∨ point.ClearsAssignee t

/-- The step makes the task unassigned and open: a release, an update that clears the assignee or
    opens the task, or the unblocking of a task without an assignee. -/
def Sys.Frees (s : Sys) (a : Action) (t : Nat) : Prop :=
  ¬ s.db.Free t ∧ (s.step a).db.Free t ∧ ∃ point ∈ s.pointAt a,
    point.Releases t ∨ point.ClearsAssignee t ∨ point.Opens t ∨ point.Cascades ∧ s.db.Unassigned t

/-- A fresh claim finds the row free and leaves it held. -/
theorem Sys.Grants.held {s : Sys} {a : Action} {t : Nat} {assignee : String}
    (h : s.Grants a t assignee) : s.db.Free t ∧ (s.step a).db.HeldBy t assignee := by
  obtain ⟨p, env, user, source, rfl, hpoint, hok⟩ := h
  obtain ⟨-, row, hrow, hassignee, hstatus, hdb⟩ := Sys.effect_of_ok hpoint hok
  refine ⟨⟨row, hrow, hassignee, hstatus⟩, row.claim assignee user s.now, ?_, rfl, rfl⟩
  rw [hdb, Db.find?_writeTask_self]
  exact congrArg (Option.map _) hrow

/-- A row that is made unassigned has been released, or updated to be. -/
theorem Sys.unassigns {s : Sys} {a : Action} {t : Nat} (ht : t < s.db.tasks.next)
    (hbefore : ¬ s.db.Unassigned t) (hafter : (s.step a).db.Unassigned t) : s.Unassigns a t := by
  refine ⟨hbefore, hafter, ?_⟩
  obtain ⟨r', hr', hnone⟩ := hafter
  obtain ⟨r, hr, hkept | ⟨p, env, point, ha, hpoint, hchange⟩⟩ := Sys.claimChange_step ht hr'
  · exact absurd ⟨r, hr, hkept.1.symm.trans hnone⟩ hbefore
  · subst ha
    have hassigned : r.assignee ≠ none := fun hr₀ => hbefore ⟨r, hr, hr₀⟩
    refine ⟨point, hpoint, ?_⟩
    cases hchange with
    | kept hassignee => exact absurd (hassignee.symm.trans hnone) hassigned
    | claimed hfree => exact absurd hfree.1 hassigned
    | @updated existing input source hassignee =>
      refine .inr ⟨rfl, ?_⟩
      rw [hnone] at hassignee
      rcases hinput : input.assignee with _ | assignee
      · rw [hinput] at hassignee
        exact absurd hassignee.symm hassigned
      · rw [hinput] at hassignee
        exact congrArg some hassignee.symm
    | released hid => exact .inl hid
    | cascaded hdone hassignee => exact absurd (hassignee.symm.trans hnone) hassigned

/-- What has made a row free. -/
theorem Sys.frees {s : Sys} {a : Action} {t : Nat} (ht : t < s.db.tasks.next)
    (hbefore : ¬ s.db.Free t) (hafter : (s.step a).db.Free t) : s.Frees a t := by
  refine ⟨hbefore, hafter, ?_⟩
  obtain ⟨r', hr', hnone, hopen⟩ := hafter
  obtain ⟨r, hr, hkept | ⟨p, env, point, ha, hpoint, hchange⟩⟩ := Sys.claimChange_step ht hr'
  · exact absurd ⟨r, hr, hkept.1.symm.trans hnone, hkept.2.symm.trans hopen⟩ hbefore
  · subst ha
    refine ⟨point, hpoint, ?_⟩
    cases hchange with
    | kept hassignee hstatus =>
      exact absurd ⟨r, hr, hassignee.symm.trans hnone, hstatus.symm.trans hopen⟩ hbefore
    | claimed hfree hheld =>
      rw [hopen] at hheld
      cases hheld.2
    | @updated existing input source hassignee hstatus =>
      rw [hnone] at hassignee
      rw [hopen] at hstatus
      rcases hinput : input.assignee with _ | assignee
      · rw [hinput] at hassignee
        rcases hs : input.status with _ | status
        · rw [hs] at hstatus
          exact absurd ⟨r, hr, hassignee.symm, hstatus.symm⟩ hbefore
        · rw [hs] at hstatus
          exact .inr (.inr (.inl ⟨rfl, hs.trans (congrArg some hstatus.symm)⟩))
      · rw [hinput] at hassignee
        exact .inr (.inl ⟨rfl, hinput.trans (congrArg some hassignee.symm)⟩)
    | released hid => exact .inl hid
    | cascaded hdone hassignee =>
      exact .inr (.inr (.inr ⟨hdone, r, hr, hassignee.symm.trans hnone⟩))

theorem Db.Free.unassigned {db : Db} {t : Nat} (h : db.Free t) : db.Unassigned t := by
  obtain ⟨row, hrow, hassignee, -⟩ := h
  exact ⟨row, hrow, hassignee⟩

theorem Db.HeldBy.not_unassigned {db : Db} {t : Nat} {assignee : String}
    (h : db.HeldBy t assignee) : ¬ db.Unassigned t := by
  obtain ⟨row, hrow, hassignee, -⟩ := h
  intro hfree
  obtain ⟨row', hrow', hnone⟩ := hfree
  cases hrow.symm.trans hrow'
  rw [hassignee] at hnone
  cases hnone

theorem Db.HeldBy.unique {db : Db} {t : Nat} {x y : String} (hx : db.HeldBy t x)
    (hy : db.HeldBy t y) : x = y := by
  obtain ⟨row, hrow, hassignee, -⟩ := hx
  obtain ⟨row', hrow', hassignee', -⟩ := hy
  cases hrow.symm.trans hrow'
  exact Option.some.inj (hassignee.symm.trans hassignee')

/-- A property that a fresh claim has made false and that holds again has been made true by a
    step in between. -/
theorem Sys.Grants.someStep {s : Sys} {a : Action} {t : Nat} {assignee : String}
    {mid : List Action} {P : Sys → Prop} {C : Sys → Action → Prop} (h : s.Grants a t assignee)
    (hC : ∀ s a, t < s.db.tasks.next → ¬ P s → P (s.step a) → C s a) (hP : ¬ P (s.step a))
    (hP' : P (mid.foldl Sys.step (s.step a))) : RunSome Sys.step C (s.step a) mid := by
  obtain ⟨-, row, hrow, -⟩ := h.held
  exact RunSome.of_change (I := fun s => t < s.db.tasks.next)
    (fun s a hlt => hlt.trans_le (s.keepsProjects_step a).next) hC (Table.lt_next_of_find? hrow)
    hP hP'

/-! ## The race -/

/-- The claim that a point belongs to. -/
def Point.claim? : Point → Option (Nat × String)
  | .start (.claimTask t assignee _ _) => some (t, assignee)
  | .claimUpdate _ t assignee _ _ => some (t, assignee)
  | .renewReload t assignee _ => some (t, assignee)
  | _ => none

/-- The segment from the point may write the task's row, and is not one of a claim. -/
def Point.Disturbs (t : Nat) : Point → Prop
  | .updateWrite _ id _ _ => id = t
  | .sizeWrite _ id _ _ => id = t
  | .announce _ updated _ _ => updated.status = .done
  | .release _ claim _ => claim.id = t
  | .deleteRow _ => True
  | _ => False

instance (t : Nat) : DecidablePred (Point.Disturbs t) := fun point => by
  cases point <;> simp only [Point.Disturbs] <;> infer_instance

/-- The step ends a claim of the task by the assignee, normally. -/
def Sys.ClaimSucceeds (s : Sys) (a : Action) (t : Nat) (assignee : String) : Prop :=
  ∃ p env point, a = .step p env ∧ s.procs p = some point ∧
    point.claim? = some (t, assignee) ∧ (s.result point env).1 = .ok none

/-- The step is one of a claim of the task by the assignee. -/
def Sys.StepsClaim (s : Sys) (a : Action) (t : Nat) (assignee : String) : Prop :=
  ∃ point ∈ s.pointAt a, point.claim? = some (t, assignee)

/-- Whoever has renewed a claim of the task, and is about to read it again, holds it. -/
def Sys.RenewalsHeld (s : Sys) (t : Nat) : Prop :=
  ∀ p assignee source, s.procs p = some (.renewReload t assignee source) → s.db.HeldBy t assignee

section Race

variable {env : Env} {now t : Nat} {db db' : Db} {point : Point}

/-- What a step that does not disturb the claims of a task does to its row: nothing, or it is
    held by the claimer afterwards. -/
theorem Point.TaskChange.race (h : point.TaskChange env now db db') (ht : t < db.tasks.next)
    (hrest : ¬ point.Disturbs t) :
    db'.tasks.find? t = db.tasks.find? t ∨ ∃ assignee, point.claim? = some (t, assignee) ∧
      db'.HeldBy t assignee ∧ (db.Free t ∨ db.HeldBy t assignee) := by
  cases h with
  | same h => exact .inl (by rw [h.tasks])
  | @claim taskId assignee user source row hrow hassignee hstatus =>
    by_cases hid : t = taskId
    · subst hid
      refine .inr ⟨assignee, rfl, ?_, .inl ⟨row, hrow, hassignee, hstatus⟩⟩
      exact ⟨row.claim assignee user now, by rw [Db.find?_writeTask_self, hrow]; rfl, rfl, rfl⟩
    · exact .inl (Db.find?_writeTask_ne hid)
  | @renew taskId assignee user source row hrow hassignee hstatus =>
    by_cases hid : t = taskId
    · subst hid
      refine .inr ⟨assignee, rfl, ?_, .inr ⟨row, hrow, hassignee, hstatus⟩⟩
      exact ⟨row.renew now, by rw [Db.find?_writeTask_self, hrow]; rfl, hassignee, hstatus⟩
    · exact .inl (Db.find?_writeTask_ne hid)
  | update hrow hcheck h =>
    rw [h.tasks]
    exact .inl (Db.find?_writeTask_ne (Ne.symm hrest))
  | resize h =>
    rw [h.tasks]
    exact .inl (Db.find?_writeTask_ne (Ne.symm hrest))
  | release => exact .inl (Db.find?_writeTask_ne (Ne.symm hrest))
  | cascade hchanged hdone => exact absurd hdone hrest
  | insert hcheck h =>
    rw [h.tasks, Db.find?_insertTask, if_neg ht.ne]
    exact .inl rfl
  | delete => exact absurd trivial hrest

/-- The same for a step of the whole. -/
theorem Sys.race_step {s : Sys} {a : Action} (ht : t < s.db.tasks.next)
    (hrest : ∀ point ∈ s.pointAt a, ¬ point.Disturbs t) :
    (s.step a).db.tasks.find? t = s.db.tasks.find? t ∨ ∃ assignee, s.StepsClaim a t assignee ∧
      (s.step a).db.HeldBy t assignee ∧ (s.db.Free t ∨ s.db.HeldBy t assignee) := by
  refine Sys.step_tasks (I := fun db => db.tasks.find? t = s.db.tasks.find? t ∨ ∃ assignee,
    s.StepsClaim a t assignee ∧ db.HeldBy t assignee ∧ (s.db.Free t ∨ s.db.HeldBy t assignee))
    (.inl rfl) (fun _ h => h) (fun _ h => h) fun p env point db' ha hpoint hchange _ => ?_
  subst ha
  rcases hchange.race ht (hrest point hpoint) with hsame | ⟨assignee, hclaim, hheld, hbefore⟩
  · exact .inl hsame
  · exact .inr ⟨assignee, ⟨point, hpoint, hclaim⟩, hheld, hbefore⟩

/-- A renewal has found its own claim. -/
theorem Point.Effect.renewed {assignee : String} {source : EventSource}
    (h : point.Effect env now db db' (some (.renewReload t assignee source))) :
    db'.HeldBy t assignee := by
  -- only the UPDATE of a renewal is followed by this point
  cases point with
  | start call =>
    cases call with
    | claimTask =>
      obtain ⟨-, path, hnext⟩ := h
      cases hnext
    | updateTask =>
      obtain ⟨-, row, -, hnext, -⟩ := h
      cases hnext
    | sweep =>
      obtain ⟨-, claims, hnext, -⟩ := h
      cases claims <;> cases hnext
    | createTask => cases h.2.1
    | _ => cases h.2
  | claimUpdate path =>
    cases path with
    | fresh => cases h.1
    | renewal =>
      obtain ⟨hnext, row, hrow, hassignee, hstatus, rfl⟩ := h
      cases hnext
      exact ⟨row.renew now, by rw [Db.find?_writeTask_self, hrow]; rfl, hassignee, hstatus⟩
  | updateWrite existing id input source =>
    obtain ⟨-, written, hnext⟩ := h
    unfold afterWrite at hnext
    split at hnext <;> cases hnext
  | sizeRead =>
    obtain ⟨-, existing, hnext⟩ := h
    cases hnext
  | sizeWrite =>
    obtain ⟨-, hnext | ⟨_, _, _, _, -, hnext⟩⟩ := h
    · cases hnext
    · cases hnext
  | announce => cases h.1
  | release timeoutMinutes claim rest =>
    obtain ⟨-, hnext⟩ | ⟨hnext, -⟩ := h
    · cases rest <;> cases hnext
    · cases hnext
  | releaseReload timeoutMinutes claim rest =>
    obtain ⟨-, hnext⟩ := h
    cases rest <;> cases hnext
  | cycleCheck => cases h.2.1
  | insertEdge => cases h.1
  | insertTask =>
    obtain ⟨-, hnext | ⟨_, _, hnext⟩⟩ := h
    · cases hnext
    · cases hnext
  | _ => cases h.2

/-- Renewals stay held while only claims write the row. -/
theorem Sys.RenewalsHeld.step {s : Sys} {a : Action} (h : s.RenewalsHeld t)
    (ht : t < s.db.tasks.next) (hrest : ∀ point ∈ s.pointAt a, ¬ point.Disturbs t) :
    (s.step a).RenewalsHeld t := by
  have hpoints := Sys.step_points (a := a) (P := fun _ db point => ∀ assignee source,
    point = .renewReload t assignee source → db.HeldBy t assignee)
    (fun q point hq x source hpoint => h q x source (hpoint ▸ hq))
    (fun _ _ _ _ _ hstart => nomatch hstart) (fun point hheld x source hpoint => ?_)
    (fun p env point db' next _ _ heffect _ x source hnext => (hnext ▸ heffect).renewed)
  · exact fun q x source hq => hpoints q _ hq x source rfl
  · -- a held row is written by its holder only
    have hbefore := hheld x source hpoint
    rcases Sys.race_step ht hrest with hsame | ⟨y, -, hafter, hfree | hy⟩
    · obtain ⟨row, hrow, hrow'⟩ := hbefore
      exact ⟨row, hsame.trans hrow, hrow'⟩
    · exact absurd hfree.unassigned hbefore.not_unassigned
    · exact hbefore.unique hy ▸ hafter

/-- A claim that succeeds leaves the row held by its assignee. -/
theorem Sys.ClaimSucceeds.held {s : Sys} {a : Action} {x : String} (h : s.ClaimSucceeds a t x)
    (hrenewals : s.RenewalsHeld t) : (s.step a).db.HeldBy t x := by
  obtain ⟨p, env, point, rfl, hpoint, hclaim, hok⟩ := h
  have heffect := Sys.effect_of_ok hpoint hok
  cases point with
  | start call =>
    cases call with
    | claimTask =>
      obtain ⟨-, path, hnext⟩ := heffect
      cases hnext
    | _ => cases hclaim
  | claimUpdate path =>
    cases hclaim
    cases path with
    | fresh =>
      obtain ⟨-, row, hrow, hassignee, hstatus, hdb⟩ := heffect
      rw [hdb]
      exact ⟨row.claim x _ s.now, by rw [Db.find?_writeTask_self, hrow]; rfl, rfl, rfl⟩
    | renewal => cases heffect.1
  | renewReload =>
    cases hclaim
    rw [heffect.1]
    exact hrenewals p x _ hpoint
  | _ => cases hclaim

end Race

/-- What holds of every step of a race that the assignee wins: every claim that ends normally is
    theirs, and no other claim changes the row. -/
def Sys.WonBy (t : Nat) (winner : String) (s : Sys) (a : Action) : Prop :=
  (∀ x, s.ClaimSucceeds a t x → x = winner) ∧
    ((s.step a).db.tasks.find? t ≠ s.db.tasks.find? t → s.StepsClaim a t winner)

/-- Once the row is held, it stays so while only claims write it. -/
theorem wonBy_of_held {s : Sys} {actions : List Action} {t : Nat} {winner : String}
    (hheld : s.db.HeldBy t winner) (hrenewals : s.RenewalsHeld t)
    (h : RunOk Sys.step (fun s a => ∀ point ∈ s.pointAt a, ¬ point.Disturbs t) s actions) :
    RunOk Sys.step (Sys.WonBy t winner) s actions := by
  refine h.mono_of_invariant (I := fun s => s.db.HeldBy t winner ∧ s.RenewalsHeld t)
    ⟨hheld, hrenewals⟩ ?_ ?_
  · intro s a hs hrest
    obtain ⟨⟨row, hrow, hrow'⟩, hrenewals⟩ := hs
    have ht := Table.lt_next_of_find? hrow
    refine ⟨?_, hrenewals.step ht hrest⟩
    rcases Sys.race_step ht hrest with hsame | ⟨y, -, hafter, hfree | hy⟩
    · exact ⟨row, hsame.trans hrow, hrow'⟩
    · exact absurd hfree.unassigned (Db.HeldBy.not_unassigned ⟨row, hrow, hrow'⟩)
    · exact Db.HeldBy.unique ⟨row, hrow, hrow'⟩ hy ▸ hafter
  · intro s a hs hrest
    obtain ⟨⟨row, hrow, hrow'⟩, hrenewals⟩ := hs
    have hrow'' : s.db.HeldBy t winner := ⟨row, hrow, hrow'⟩
    have hstep := Sys.race_step (Table.lt_next_of_find? hrow) hrest
    constructor
    · intro x hx
      rcases hstep with hsame | ⟨y, -, hafter, hfree | hy⟩
      · exact (hx.held hrenewals).unique ⟨row, hsame.trans hrow, hrow'⟩
      · exact absurd hfree.unassigned hrow''.not_unassigned
      · exact ((hx.held hrenewals).unique hafter).trans (hy.unique hrow'')
    · intro hne
      rcases hstep with hsame | ⟨y, hy', hafter, hfree | hy⟩
      · exact absurd hsame hne
      · exact absurd hfree.unassigned hrow''.not_unassigned
      · exact hrow''.unique hy ▸ hy'

/-- While only claims write a free row there is one winner. -/
theorem exists_wonBy {s : Sys} {actions : List Action} {t : Nat} (hfree : s.db.Free t)
    (hrenewals : s.RenewalsHeld t)
    (h : RunOk Sys.step (fun s a => ∀ point ∈ s.pointAt a, ¬ point.Disturbs t) s actions) :
    ∃ winner, RunOk Sys.step (Sys.WonBy t winner) s actions := by
  induction actions generalizing s with
  | nil => exact ⟨"", trivial⟩
  | cons a rest ih =>
    obtain ⟨row, hrow, hrow'⟩ := hfree
    have ht := Table.lt_next_of_find? hrow
    have hrenewals' := hrenewals.step ht h.1
    rcases Sys.race_step ht h.1 with hsame | ⟨winner, hwrites, hafter, -⟩
    · -- the row is still free, so nobody has succeeded yet
      have hfree' : (s.step a).db.Free t := ⟨row, hsame.trans hrow, hrow'⟩
      obtain ⟨winner, hrest⟩ := ih hfree' hrenewals' h.2
      refine ⟨winner, ⟨fun x hx => ?_, fun hne => absurd hsame hne⟩, hrest⟩
      exact absurd hfree'.unassigned (hx.held hrenewals).not_unassigned
    · refine ⟨winner, ⟨fun x hx => ?_, fun _ => hwrites⟩, wonBy_of_held hafter hrenewals' h.2⟩
      exact (hx.held hrenewals).unique hafter

/-- **Main theorem.** Between two fresh claims of a task a step has made it unassigned, and a step
    has made it unassigned and open. From a state where the task is free, while only claims write
    its row, one assignee wins: every claim that ends normally is theirs, and only theirs change
    the row. -/
theorem claims_exclude (t : Nat) :
    (∀ (s : Sys) (a b : Action) (mid : List Action) (x y : String), s.Grants a t x →
      (mid.foldl Sys.step (s.step a)).Grants b t y →
      RunSome Sys.step (fun s a => s.Unassigns a t) (s.step a) mid ∧
        RunSome Sys.step (fun s a => s.Frees a t) (s.step a) mid) ∧
    (∀ (s : Sys) (actions : List Action), s.db.Free t → s.RenewalsHeld t →
      RunOk Sys.step (fun s a => ∀ point ∈ s.pointAt a, ¬ point.Disturbs t) s actions →
      ∃ winner, RunOk Sys.step (Sys.WonBy t winner) s actions) := by
  refine ⟨fun s a b mid x y hx hy => ?_, fun s actions hfree hrenewals h => ?_⟩
  · have hheld := hx.held.2
    have hfree := hy.held.1
    constructor
    · exact hx.someStep (P := fun s => s.db.Unassigned t) (fun s a => Sys.unassigns)
        hheld.not_unassigned hfree.unassigned
    · exact hx.someStep (P := fun s => s.db.Free t) (fun s a => Sys.frees)
        (fun hafter => hheld.not_unassigned hafter.unassigned) hfree
  · exact exists_wonBy hfree hrenewals h

/-- A call, and so many of its segments. -/
def callSteps (p : Nat) (c : Call) (n : Nat) : List Action :=
  .call p c :: List.replicate n (.step p .undisturbed)

/-- The database with a project and a task. -/
def freeTask : Db := ((Sys.quiet .empty 0).run (claimedTask.take 6)).db

/-- Two workers race for the task; and one of them claims it again after a sweep. -/
theorem claims_exclude_race :
    (∃ winner, RunOk Sys.step (Sys.WonBy 1 winner) (Sys.quiet freeTask 0)
      [.call 1 (.claimTask 1 "worker" none .user), .call 2 (.claimTask 1 "other" none .user),
        .step 1 .undisturbed, .step 2 .undisturbed, .step 2 .undisturbed, .step 1 .undisturbed]) ∧
    RunSome Sys.step (fun s a => s.Unassigns a 1)
      (((Sys.quiet freeTask 0).run (callSteps 1 (.claimTask 1 "worker" none .user) 1)).step
        (.step 1 .undisturbed))
      (.wait 172800000 :: callSteps 2 (.sweep 30) 3 ++
        callSteps 2 (.claimTask 1 "other" none .user) 1) := by
  constructor
  · exact (claims_exclude 1).2 _ _ (by decide +kernel) (fun _ _ _ h => nomatch h) (by decide +kernel)
  · exact ((claims_exclude 1).1 _ _ (.step 2 .undisturbed) _ "worker" "other"
      ⟨1, .undisturbed, none, .user, rfl, by decide +kernel, by decide +kernel⟩
      ⟨2, .undisturbed, none, .user, rfl, by decide +kernel, by decide +kernel⟩).1

/-- Worker has claimed task 2, blocks it by task 1 and gives it up; then task 1 is done, and the
    other worker claims task 2. -/
def claimedAfterUnblock : List Action :=
  callSteps 1 (.updateTask 2 { status := some .blocked, blockedBy := some [1] } .user none) 3 ++
    callSteps 1 (.updateTask 2 { assignee := some none } .user none) 3 ++
    callSteps 1 (.claimTask 1 "worker" none .user) 2 ++
    callSteps 1 (.updateTask 1 { status := some .done } .user none) 3 ++
    callSteps 2 (.claimTask 2 "other" none .user) 1

/-- The step that makes the task unassigned and open is then the cascade: neither a release of the
    task nor an update of it. -/
theorem claims_exclude_unblocked : ¬ ∀ (t : Nat) (s : Sys) (a b : Action) (mid : List Action)
    (x y : String), x ≠ y → s.Grants a t x → (mid.foldl Sys.step (s.step a)).Grants b t y →
    RunSome Sys.step (fun s a => ¬ s.db.Free t ∧ (s.step a).db.Free t ∧ ∃ point ∈ s.pointAt a,
      point.Releases t ∨ point.ClearsAssignee t ∨ point.Opens t) (s.step a) mid := by
  intro h
  let create : Call := .createTask { title := "task", projectId := 1, createdBy := "user" }
  let before := .addProject "project" :: callSteps 1 create 4 ++ callSteps 1 create 4 ++
    callSteps 1 (.claimTask 2 "worker" none .user) 1
  have hsome := h 2 ((Sys.quiet .empty 0).run before) (.step 1 .undisturbed) (.step 2 .undisturbed)
    claimedAfterUnblock "worker" "other" (by decide)
    ⟨1, .undisturbed, none, .user, rfl, by decide +kernel, by decide +kernel⟩
    ⟨2, .undisturbed, none, .user, rfl, by decide +kernel, by decide +kernel⟩
  revert hsome
  decide +kernel

end WoodFiredTasks
