import WoodFiredTasks.Lib.Runs
import WoodFiredTasks.Scm.Perforce

set_option autoImplicit false

/-! # Perforce contexts in one workspace

Two questions about runs of the verbs, with other people's work in between: does a command issued
for a context leave the files alone that are not opened in the changelist of the context, and does
it find that changelist pending.

The commands that take a number are scoped by it, but `sync`, `resolve -as` and `revert //...` work
on every opened file, and a new changelist takes over the default one (`isShielded` says when that
does no harm). A submit leaves its final number in the state file, and the next stage takes that
for the number of a pending changelist (`isUnspent`). -/

namespace WoodFiredTasks.Scm

open SlashPath (Text)
open P4 (Command Output Reply Server OpenedFile)
open Prog (Triple)

variable {F : Type} [DecidableEq F]

/-! ## Delivery -/

/-- What is known of a command once the adapter goes on. -/
theorem triple_p4 {P : World F → Prop} {Q : Reply → World F → Prop} {E : World F → Prop}
    {ctx : Text} {fault : Fault} {cmd : Command}
    (hok : ∀ w res, P w → (fault.deliver w.server cmd).1 = .ok res →
      Q res (w.afterIssue ctx fault cmd))
    (herr : ∀ w, P w → E (w.afterIssue ctx fault cmd)) : Triple P (p4 ctx fault cmd) Q E := by
  intro w hw
  refine ⟨fun res w' hr => ?_, fun e w' hr => ?_⟩
  · simp only [Prog.run, p4, Prod.mk.injEq] at hr
    rw [← hr.2]
    exact hok w res hw hr.1
  · simp only [Prog.run, p4, Prod.mk.injEq] at hr
    rw [← hr.2]
    exact herr w hw

theorem triple_p4OrFail {P : World F → Prop} {Q : Reply → World F → Prop} {E : World F → Prop}
    {ctx : Text} {fault : Fault} {cmd : Command} {operation : String}
    (hok : ∀ w res, P w → (fault.deliver w.server cmd).1 = .ok res → res.code = 0 →
      Q res (w.afterIssue ctx fault cmd))
    (herr : ∀ w, P w → E (w.afterIssue ctx fault cmd)) :
    Triple P (p4OrFail ctx fault cmd operation) Q E := by
  unfold p4OrFail
  refine Triple.bind (triple_p4 (Q := fun res w' => (res.code = 0 → Q res w') ∧ E w')
    (fun w res hw hres => ⟨hok w res hw hres, herr w hw⟩) herr) fun res => ?_
  by_cases hcode : res.code = 0
  · rw [if_neg (not_not.mpr hcode)]
    exact Triple.pure fun w hw => hw.1 hcode
  · rw [if_pos hcode]
    exact Triple.throw fun w hw => hw.2

/-- A command either has its effect or has none. -/
theorem Fault.deliver_server (fault : Fault) (s : Server F) (cmd : Command) :
    (fault.deliver s cmd).2 = (s.perform cmd).2 ∨ (fault.deliver s cmd).2 = s := by
  cases fault <;> simp [Fault.deliver]

/-- The commands that change nothing on the server. -/
def isQuiet : Command → Bool
  | .loginStatus => true
  | .changeForm _ _ => true
  | .changeInput (some _) _ => true
  | .shelve _ => true
  | .deleteClient _ => true
  | _ => false

theorem perform_of_isQuiet {s : Server F} {cmd : Command} (h : isQuiet cmd = true) :
    (s.perform cmd).2 = s := by
  unfold Server.perform
  split <;> simp_all [isQuiet, Server.onPending] <;> split <;> rfl

theorem Fault.deliver_of_isQuiet {fault : Fault} {s : Server F} {cmd : Command}
    (h : isQuiet cmd = true) : (fault.deliver s cmd).2 = s := by
  rcases fault.deliver_server s cmd with heq | heq
  · rw [heq, perform_of_isQuiet h]
  · exact heq

/-- A submit that is answered with an error changes nothing on the server. -/
theorem Fault.deliver_submit_failed {fault : Fault} {s : Server F} {n : Nat} {res : Reply}
    (h : (fault.deliver s (.submit n)).1 = .ok res) (hcode : res.code ≠ 0) :
    (fault.deliver s (.submit n)).2 = s := by
  have hperform : (s.perform (.submit n)).1.code ≠ 0 → (s.perform (.submit n)).2 = s := by
    simp only [Server.perform, Server.onPending]
    split
    · split
      · simp
      · split
        · simp
        · split <;> simp [Reply.done]
    · simp
  cases fault <;> simp only [Fault.deliver, Except.ok.injEq, reduceCtorEq] at h ⊢
  all_goals (subst h; exact hperform hcode)

/-! ## Isolation -/

/-- The file is opened in the changelist of the context. -/
def isIn (own : Option Nat) (o : OpenedFile F) : Bool :=
  own.any fun n => o.change = some n

/-- The command left alone what is not opened in the changelist of its context. -/
def Issued.isFramed (i : Issued F) : Prop :=
  ∀ o ∈ i.before.opened, isIn i.own o = false → o ∈ i.after.opened

/-- Every command issued so far did. -/
def World.isolated (w : World F) : Prop := ∀ i ∈ w.log, i.isFramed

/-- What keeps a command from doing harm outside the changelist of its context. -/
def isHarmless (own : Option Nat) (s : Server F) : Command → Bool
  | .changeInput none _ => s.opened.all fun o => o.change ≠ none
  | .submit n => own = some n
  | .sync => s.opened.all fun o => !s.isOutdated o || isIn own o
  | .resolveSafe => s.opened.all fun o => !s.isResolvable o || isIn own o
  | .revertAll => s.opened.all fun o => isIn own o
  | _ => true

theorem perform_framed {own : Option Nat} {s : Server F} {cmd : Command}
    (h : isHarmless own s cmd = true) {o : OpenedFile F} (ho : o ∈ s.opened)
    (hown : isIn own o = false) : o ∈ (s.perform cmd).2.opened := by
  cases cmd with
  | loginStatus => exact ho
  | shelve n =>
    simp only [Server.perform, Server.onPending]
    split <;> exact ho
  | deleteClient name => exact ho
  | changeForm change description =>
    cases change with
    | none => exact ho
    | some n =>
      simp only [Server.perform, Server.onPending]
      split <;> exact ho
  | changeInput change description =>
    cases change with
    | none =>
      -- The new changelist takes over what is opened in the default one, and that is nothing.
      simp only [isHarmless, List.all_eq_true, decide_eq_true_eq] at h
      exact List.mem_map.mpr ⟨o, ho, by simp [Server.takeOver, h o ho]⟩
    | some n =>
      simp only [Server.perform, Server.onPending]
      split <;> exact ho
  | reconcile n files =>
    simp only [Server.perform, Server.onPending]
    split
    · simp [Server.reconcile, ho]
    · exact ho
  | submit n =>
    have hn : o.change ≠ some n := by
      simp only [isHarmless, decide_eq_true_eq] at h
      simpa [isIn, h] using hown
    have hkept : o ∈ (s.submit n).opened := by
      simp only [Server.opened] at ho ⊢
      simp [Server.submit, Server.opened, ho, hn]
    simp only [Server.perform, Server.onPending]
    split
    · split
      · exact ho
      · split
        · exact ho
        · split <;> exact hkept
    · exact ho
  | sync =>
    simp only [isHarmless, List.all_eq_true, Bool.or_eq_true, Bool.not_eq_true'] at h
    have hfresh : s.isOutdated o = false := by simpa [hown] using h o ho
    exact List.mem_map.mpr ⟨o, ho, by simp [Server.reschedule, hfresh]⟩
  | resolveSafe =>
    simp only [isHarmless, List.all_eq_true, Bool.or_eq_true, Bool.not_eq_true'] at h
    have hstays : s.isResolvable o = false := by simpa [hown] using h o ho
    exact List.mem_map.mpr ⟨o, ho, by simp [Server.merge, hstays]⟩
  | revertAll =>
    simp only [isHarmless, List.all_eq_true] at h
    rw [h o ho] at hown
    exact absurd hown (by simp)

/-- A harmless command keeps the log framed, whatever becomes of it. -/
theorem isolated_afterIssue {w : World F} {ctx : Text} {fault : Fault} {cmd : Command}
    (hw : w.isolated) (h : isHarmless (w.contextCl ctx) w.server cmd = true) :
    (w.afterIssue ctx fault cmd).isolated := by
  intro i hi
  simp only [World.afterIssue, List.mem_append, List.mem_singleton] at hi
  rcases hi with hi | rfl
  · exact hw i hi
  · intro o ho hown
    show o ∈ (fault.deliver w.server cmd).2.opened
    rcases fault.deliver_server w.server cmd with heq | heq
    · rw [heq]
      exact perform_framed h ho hown
    · rw [heq]
      exact ho

/-- A world that is isolated so far, with this server and these changelists. -/
def isolatedAt (s : Server F) (cls : Text → Option Nat) (w : World F) : Prop :=
  w.isolated ∧ w.server = s ∧ w.contextCl = cls

section Verbs

variable {s : Server F} {cls : Text → Option Nat} {ctx : Text} {fault : Fault} {faults : Faults}
  {cmd : Command}

theorem isolatedAt_afterIssue {w : World F} (hw : isolatedAt s cls w) (hquiet : isQuiet cmd = true) :
    isolatedAt s cls (w.afterIssue ctx fault cmd) := by
  obtain ⟨hiso, rfl, rfl⟩ := hw
  have hharmless : isHarmless (w.contextCl ctx) w.server cmd = true := by
    cases cmd <;> simp_all [isQuiet, isHarmless]
    rename_i change _
    cases change <;> simp_all
  refine ⟨isolated_afterIssue hiso hharmless, ?_, rfl⟩
  simp [World.afterIssue, Fault.deliver_of_isQuiet hquiet]

theorem isolated_preflight :
    Triple (isolatedAt s cls) (preflight ctx fault) (fun _ => isolatedAt s cls)
      World.isolated := by
  refine Triple.withState fun w hw => ?_
  by_cases hlogged : w.loggedIn = true
  · rw [if_pos hlogged]
    exact Triple.pure fun w' hw' => hw' ▸ hw
  · rw [if_neg hlogged]
    refine Triple.bind (Q := fun _ => isolatedAt s cls)
      (triple_p4 (fun w' res hw' _ => ?_) fun w' hw' => ?_) fun res => ?_
    · subst hw'
      exact isolatedAt_afterIssue hw rfl
    · subst hw'
      exact (isolatedAt_afterIssue hw rfl).1
    · by_cases hcode : res.code = 0
      · rw [if_pos hcode]
        exact Triple.modify fun w' hw' => hw'
      · rw [if_neg hcode]
        split <;> exact Triple.throw fun w' hw' => hw'.1

theorem isolated_isolate :
    Triple (isolatedAt s cls) (isolate ctx faults) (fun _ => World.isolated) World.isolated :=
  Triple.bind isolated_preflight fun _ => Triple.pure fun _ h => h.1

theorem isolated_quiet {operation : String} (hquiet : isQuiet cmd = true) :
    Triple (isolatedAt s cls) (p4OrFail ctx fault cmd operation) (fun _ => isolatedAt s cls)
      World.isolated :=
  triple_p4OrFail (fun _ _ hw _ _ => isolatedAt_afterIssue hw hquiet)
    fun _ hw => (isolatedAt_afterIssue hw hquiet).1

/-- A verb opens a changelist only if the default one has no files to take over. -/
theorem isolated_ensureContextChangelist
    (hdefault : cls ctx = none → ∀ o ∈ s.opened, o.change ≠ none) :
    Triple (isolatedAt s cls) (ensureContextChangelist ctx faults) (fun _ => World.isolated)
      World.isolated := by
  refine Triple.withState fun w hw => ?_
  cases hcl : w.contextCl ctx with
  | some existing => exact Triple.pure fun w' hw' => hw' ▸ hw.1
  | none =>
    have hcreate : ∀ w' : World F, isolatedAt s cls w' → ∀ description fault,
        (w'.afterIssue ctx fault (.changeInput none description)).isolated := by
      intro w' hw' description fault
      refine isolated_afterIssue hw'.1 ?_
      simp only [isHarmless, List.all_eq_true, decide_eq_true_eq]
      rw [hw'.2.1]
      exact hdefault (by rw [← hw.2.2]; exact hcl)
    refine Triple.bind (Q := fun _ => World.isolated) ?_ fun res => ?_
    · refine Triple.bind (Q := fun _ => isolatedAt s cls) ?_ fun _ => ?_
      · exact (isolated_quiet rfl).conseq (fun w' hw' => hw' ▸ hw) (fun _ _ h => h) fun _ h => h
      · exact triple_p4OrFail (fun w' _ hw' _ _ => hcreate w' hw' _ _) fun w' hw' =>
          hcreate w' hw' _ _
    · refine Triple.bind (Q := fun _ => World.isolated) ?_ fun cl => ?_
      · exact Triple.lift (fun _ _ _ h => h) fun _ h => h
      · exact Triple.bind (Q := fun _ => World.isolated) (Triple.modify fun _ h => h) fun _ =>
          Triple.pure fun _ h => h

/-- A command that is harmless wherever it is issued. -/
theorem isolated_always {operation : String}
    (h : ∀ (own : Option Nat) (s : Server F), isHarmless own s cmd = true) :
    Triple World.isolated (p4OrFail (F := F) ctx fault cmd operation) (fun _ => World.isolated)
      World.isolated :=
  triple_p4OrFail (fun _ _ hw _ _ => isolated_afterIssue hw (h _ _)) fun _ hw =>
    isolated_afterIssue hw (h _ _)

theorem isolated_stage {files : List Text}
    (hdefault : (∃ toStage, stageArguments files = .ok toStage ∧ toStage ≠ []) →
      cls ctx = none → ∀ o ∈ s.opened, o.change ≠ none) :
    Triple (isolatedAt s cls) (stage ctx faults files) (fun _ => World.isolated)
      World.isolated := by
  refine Triple.bind isolated_preflight fun _ => ?_
  refine Triple.bind (Q := fun toStage w => isolatedAt s cls w ∧ stageArguments files = .ok toStage)
    (Triple.lift (fun _ heq _ hw => ⟨hw, heq⟩) fun _ hw => hw.1) fun toStage => ?_
  by_cases hnil : toStage = []
  · rw [if_pos hnil]
    exact Triple.pure fun _ hw => hw.1.1
  · rw [if_neg hnil]
    intro w hw
    have hempty := hdefault ⟨toStage, hw.2, hnil⟩
    refine Triple.bind (isolated_ensureContextChangelist hempty) (fun cl => ?_) w hw.1
    exact Triple.bind (isolated_always fun _ _ => rfl) fun _ => Triple.pure fun _ h => h

theorem isolated_setChangelistDescription {cl : Nat} {message : Text} :
    Triple World.isolated (setChangelistDescription (F := F) ctx faults cl message)
      (fun _ => World.isolated) World.isolated := by
  refine Triple.bind (Q := fun _ => World.isolated) ?_ fun _ => Triple.pure fun _ h => h
  exact Triple.bind (isolated_always fun _ _ => rfl) fun _ => isolated_always fun _ _ => rfl

theorem isolated_record {config : Except ScmError Behaviors} {message : Text}
    (hdefault : (∃ behaviors, config = .ok behaviors ∧ behaviors.commit = true) →
      cls ctx = none → ∀ o ∈ s.opened, o.change ≠ none) :
    Triple (isolatedAt s cls) (record ctx faults config message) (fun _ => World.isolated)
      World.isolated := by
  refine Triple.bind isolated_preflight fun _ => ?_
  refine Triple.bind (Q := fun behaviors w => isolatedAt s cls w ∧ config = .ok behaviors)
    (Triple.lift (fun _ heq _ hw => ⟨hw, heq⟩) fun _ hw => hw.1) fun behaviors => ?_
  cases hcommit : behaviors.commit with
  | false =>
    rw [if_pos (by rfl)]
    exact Triple.pure fun _ hw => hw.1.1
  | true =>
    rw [if_neg (by simp)]
    intro w hw
    have hempty := hdefault ⟨behaviors, hw.2, hcommit⟩
    refine Triple.bind (isolated_ensureContextChangelist hempty) (fun cl => ?_) w hw.1
    refine Triple.bind isolated_setChangelistDescription fun _ => ?_
    split
    · exact Triple.pure fun _ h => h
    · exact Triple.bind (isolated_always fun _ _ => rfl) fun _ => Triple.pure fun _ h => h

theorem isolated_teardownIsolation {id : Text} (hown : ∀ o ∈ s.opened, isIn (cls ctx) o = true) :
    Triple (isolatedAt s cls) (teardownIsolation ctx faults id) (fun _ => World.isolated)
      World.isolated := by
  have hrevert : ∀ (w : World F) (fault : Fault), isolatedAt s cls w →
      (w.afterIssue ctx fault .revertAll).isolated := by
    intro w fault hw
    refine isolated_afterIssue hw.1 ?_
    simp only [isHarmless, List.all_eq_true]
    rw [hw.2.1, hw.2.2]
    exact hown
  refine Triple.bind isolated_preflight fun _ => ?_
  refine Triple.bind (Q := fun _ => World.isolated)
    (triple_p4 (fun w _ hw _ => hrevert w _ hw) fun w hw => hrevert w _ hw) fun _ => ?_
  refine Triple.bind (Q := fun _ => World.isolated) ?_ fun _ => Triple.pure fun _ h => h
  exact triple_p4 (fun _ _ hw _ => isolated_afterIssue hw rfl) fun _ hw =>
    isolated_afterIssue hw rfl

/-! ### Publishing -/

/-- Only the context's own files are outdated or can be resolved. -/
def isSettled (own : Option Nat) (s : Server F) : Bool :=
  s.opened.all fun o => !(s.isOutdated o || s.isResolvable o) || isIn own o

omit [DecidableEq F] in
theorem isSettled_sync {own : Option Nat} (h : isSettled own s = true) :
    isHarmless own s.sync .resolveSafe = true := by
  simp only [isSettled, isHarmless, List.all_eq_true] at h ⊢
  intro o' ho'
  obtain ⟨o, ho, rfl⟩ := List.mem_map.mp ho'
  have hsettled := h o ho
  cases hout : s.isOutdated o with
  | true =>
    -- A file that the sync scheduled for resolve was outdated before it.
    have hown : isIn own o = true := by simpa [hout] using hsettled
    have hsame : isIn own (s.reschedule o) = isIn own o := by
      simp [isIn, Server.reschedule, hout]
    simp [hsame, hown]
  | false =>
    have hkept : s.reschedule o = o := by simp [Server.reschedule, hout]
    have hsame : s.sync.isResolvable o = s.isResolvable o := rfl
    rw [hkept, hsame]
    simpa [hout] using hsettled

/-- Isolated so far, with these changelists, and a `resolve -as` would do no harm. -/
def isolatedResolvable (own : Option Nat) (cls : Text → Option Nat) (w : World F) : Prop :=
  w.isolated ∧ w.contextCl = cls ∧ isHarmless own w.server .resolveSafe = true

theorem isolated_publishAgain {cl : Nat} (hcl : cls ctx = some cl)
    (hsettled : isSettled (some cl) s = true) :
    Triple (isolatedAt s cls) (publishAgain ctx faults cl) (fun _ => World.isolated)
      World.isolated := by
  have hsync : ∀ (w : World F) (fault : Fault), isolatedAt s cls w →
      isolatedResolvable (some cl) cls (w.afterIssue ctx fault .sync) := by
    intro w fault hw
    have hpoint : isHarmless (some cl) s .sync = true ∧
        isHarmless (some cl) s .resolveSafe = true := by
      simp only [isSettled, isHarmless, List.all_eq_true] at hsettled ⊢
      constructor <;> intro o ho <;> have := hsettled o ho <;> grind
    refine ⟨isolated_afterIssue hw.1 ?_, hw.2.2, ?_⟩
    · rw [hw.2.1, hw.2.2, hcl]
      exact hpoint.1
    · show isHarmless (some cl) (fault.deliver w.server .sync).2 .resolveSafe = true
      rw [hw.2.1]
      rcases fault.deliver_server s .sync with heq | heq
      · rw [heq]
        exact isSettled_sync hsettled
      · rw [heq]
        exact hpoint.2
  have hresolve : ∀ (w : World F) (fault : Fault), isolatedResolvable (some cl) cls w →
      (w.afterIssue ctx fault .resolveSafe).isolated ∧
        (w.afterIssue ctx fault .resolveSafe).contextCl = cls := by
    intro w fault hw
    refine ⟨isolated_afterIssue hw.1 ?_, hw.2.1⟩
    rw [hw.2.1, hcl]
    exact hw.2.2
  have hsubmit : ∀ (w : World F) (fault : Fault), w.isolated ∧ w.contextCl = cls →
      (w.afterIssue ctx fault (.submit cl)).isolated := by
    intro w fault hw
    exact isolated_afterIssue hw.1 (by simp [isHarmless, hw.2, hcl])
  refine Triple.bind (Q := fun _ => isolatedResolvable (some cl) cls)
    (triple_p4 (fun w _ hw _ => hsync w _ hw) fun w hw => (hsync w _ hw).1) fun _ => ?_
  refine Triple.bind (Q := fun _ w => w.isolated ∧ w.contextCl = cls)
    (triple_p4 (fun w _ hw _ => hresolve w _ hw) fun w hw => (hresolve w _ hw).1) fun _ => ?_
  refine Triple.bind (Q := fun _ => World.isolated) ?_ fun result => ?_
  · refine Triple.bind (Q := fun _ => World.isolated)
      (triple_p4 (fun w _ hw _ => hsubmit w _ hw) fun w hw => hsubmit w _ hw) fun res => ?_
    split <;> exact Triple.pure fun _ h => h
  · cases result with
    | ok finalCl =>
      exact Triple.bind (Q := fun _ => World.isolated) (Triple.modify fun _ h => h) fun _ =>
        Triple.pure fun _ h => h
    | failed conflict res =>
      dsimp only
      split <;> exact Triple.throw fun _ h => h

/-- The reply to a submit is a conflict. -/
def submitConflicts (s : Server F) (fault : Fault) (cl : Nat) : Bool :=
  match (fault.deliver s (.submit cl)).1 with
  | .ok res => isSubmitConflict res
  | .error _ => false

/-- A submit leaves the world isolated, and unchanged if it is answered with a conflict. -/
theorem isolated_submit {cl : Nat} (hcl : cls ctx = some cl) :
    Triple (isolatedAt s cls) (submit ctx fault cl)
      (fun result w => w.isolated ∧ ∀ res, result = .failed true res →
        isolatedAt s cls w ∧ submitConflicts s fault cl = true) World.isolated := by
  have hissued : ∀ w : World F, isolatedAt s cls w →
      (w.afterIssue ctx fault (.submit cl)).isolated := by
    intro w hw
    exact isolated_afterIssue hw.1 (by simp [isHarmless, hw.2.2, hcl])
  refine Triple.bind (Q := fun res w => w.isolated ∧ (isSubmitConflict res = true →
      isolatedAt s cls w ∧ submitConflicts s fault cl = true))
    (triple_p4 (fun w res hw hres => ⟨hissued w hw, fun hconflict => ?_⟩) hissued) fun res => ?_
  · have hcode : res.code ≠ 0 := by
      simp only [isSubmitConflict, Bool.and_eq_true, decide_eq_true_eq] at hconflict
      exact hconflict.1
    refine ⟨⟨hissued w hw, ?_, hw.2.2⟩, ?_⟩
    · rw [← hw.2.1]
      exact Fault.deliver_submit_failed hres hcode
    · rw [← hw.2.1, submitConflicts, hres]
      exact hconflict
  · by_cases hcode : res.code = 0
    · rw [if_pos hcode]
      exact Triple.pure fun w hw => ⟨hw.1, fun res' h => by cases h⟩
    · rw [if_neg hcode]
      refine Triple.pure fun w hw => ⟨hw.1, fun res' h => hw.2 ?_⟩
      simp only [SubmitResult.failed.injEq] at h
      exact h.1

theorem isolated_publish {config : Except ScmError Behaviors}
    (hsettled : (∃ behaviors, config = .ok behaviors ∧ behaviors.publish = true) →
      ∀ cl, cls ctx = some cl → submitConflicts s faults.submit cl = true →
        isSettled (some cl) s = true) :
    Triple (isolatedAt s cls) (publish ctx faults config) (fun _ => World.isolated)
      World.isolated := by
  refine Triple.bind isolated_preflight fun _ => ?_
  refine Triple.bind (Q := fun behaviors w => isolatedAt s cls w ∧ config = .ok behaviors)
    (Triple.lift (fun _ heq _ hw => ⟨hw, heq⟩) fun _ hw => hw.1) fun behaviors => ?_
  cases hpublish : behaviors.publish with
  | false =>
    rw [if_pos (by rfl)]
    exact Triple.pure fun _ hw => hw.1.1
  | true =>
    rw [if_neg (by simp)]
    refine Triple.withState fun w hw => ?_
    have hconfig := hsettled ⟨behaviors, hw.2, hpublish⟩
    cases hcl : w.contextCl ctx with
    | none => exact Triple.pure fun w' hw' => hw' ▸ hw.1.1
    | some cl =>
      have hcls : cls ctx = some cl := by rw [← hw.1.2.2]; exact hcl
      refine Triple.bind ((isolated_submit hcls).conseq (fun w' hw' => hw' ▸ hw.1)
        (fun _ _ h => h) fun _ h => h) fun result => ?_
      cases result with
      | ok finalCl =>
        exact Triple.bind (Q := fun _ => World.isolated) (Triple.modify fun _ h => h.1) fun _ =>
          Triple.pure fun _ h => h
      | failed conflict res =>
        cases conflict with
        | false => exact Triple.throw fun _ h => h.1
        | true =>
          intro w' hw'
          obtain ⟨hat, hconflict⟩ := hw'.2 res rfl
          exact isolated_publishAgain hcls (hconfig cl hcls hconflict) w' hat

end Verbs

/-- Nothing is opened in the default changelist. -/
def isDefaultEmpty (s : Server F) : Bool := s.opened.all fun o => o.change ≠ none

/-- A call that does no harm outside the changelist of its context: a stage or a record that opens
    a changelist finds the default one empty, a publish that meets a conflict finds only its own
    files outdated or to be resolved, and a teardown finds only its own files opened. -/
def isShielded (w : World F) : Action F → Bool
  | .call _ _ .isolate => true
  | .call ctx _ (.stage files) =>
    match stageArguments files with
    | .ok (_ :: _) => (w.contextCl ctx).isSome || isDefaultEmpty w.server
    | _ => true
  | .call ctx _ (.record config _) =>
    match config with
    | .ok behaviors =>
      !behaviors.commit || (w.contextCl ctx).isSome || isDefaultEmpty w.server
    | .error _ => true
  | .call ctx faults (.publish config) =>
    match config, w.contextCl ctx with
    | .ok behaviors, some cl =>
      !(behaviors.publish && submitConflicts w.server faults.submit cl) ||
        isSettled (some cl) w.server
    | _, _ => true
  | .call ctx _ (.teardownIsolation _) => w.server.opened.all fun o => isIn (w.contextCl ctx) o
  | _ => true

/-- One step. -/
theorem isolated_step {w : World F} {a : Action F} (hw : w.isolated) (h : isShielded w a = true) :
    (w.step a).isolated := by
  have hat : isolatedAt w.server w.contextCl w := ⟨hw, rfl, rfl⟩
  cases a with
  | workspace ws => exact hw
  | allocate status => exact hw
  | restart => exact hw
  | call ctx faults verb =>
    cases verb with
    | isolate =>
      show ((isolate ctx faults).exec w).isolated
      exact isolated_isolate.exec (fun _ _ h => h) (fun _ h => h) hat
    | stage files =>
      show ((stage ctx faults files).exec w).isolated
      refine (isolated_stage ?_).exec (fun _ _ h => h) (fun _ h => h) hat
      rintro ⟨toStage, hfiles, hne⟩ hnone
      obtain ⟨file, rest, rfl⟩ := List.exists_cons_of_ne_nil hne
      simpa [isShielded, hfiles, hnone, isDefaultEmpty] using h
    | record config message =>
      show ((record ctx faults config message).exec w).isolated
      refine (isolated_record ?_).exec (fun _ _ h => h) (fun _ h => h) hat
      rintro ⟨behaviors, rfl, hcommit⟩ hnone
      simpa [isShielded, hcommit, hnone, isDefaultEmpty] using h
    | publish config =>
      show ((publish ctx faults config).exec w).isolated
      refine (isolated_publish ?_).exec (fun _ _ h => h) (fun _ h => h) hat
      rintro ⟨behaviors, rfl, hpublish⟩ cl hcl hconflict
      simpa [isShielded, hcl, hpublish, hconflict] using h
    | teardownIsolation id =>
      show ((teardownIsolation ctx faults id).exec w).isolated
      refine (isolated_teardownIsolation ?_).exec (fun _ _ h => h) (fun _ h => h) hat
      simpa [isShielded] using h

/-- **Main theorem.** In a run whose calls are all shielded, no command issued for a context touches
    a file that is opened in another changelist. -/
theorem World.isolated_of_isShielded (server : Server F) (actions : List (Action F))
    (h : RunOk World.step (fun w a => isShielded w a = true) (World.start server) actions) :
    Always World.step World.isolated (World.start server) actions :=
  h.always (fun _ _ hw ha => isolated_step hw ha) (by simp [World.isolated, World.start])

/-- Two files, both edited, and no changelist yet. -/
def P4.Server.sample : Server Nat where
  changes := []
  workspace :=
    { opened := []
      head := fun _ => 1
      synced := fun _ => 1
      edited := [0, 1]
      mergeable := fun _ => true
      denotes := fun spec file =>
        (spec = "a".toList && file = 0) || (spec = "b".toList && file = 1) }

theorem World.isolated_of_isShielded_sample :
    Always World.step World.isolated (World.start Server.sample)
      [.call "x".toList {} (.stage ["a".toList]), .call "x".toList {} (.publish (.ok {}))] :=
  World.isolated_of_isShielded Server.sample _ ⟨by decide, by decide, trivial⟩

/-- Tearing one context down reverts the file that another one has staged. -/
theorem World.not_isolated_teardown :
    ¬ ∀ (server : Server Nat) (actions : List (Action Nat)),
      Always World.step World.isolated (World.start server) actions := by
  intro h
  have hrun := (h Server.sample
    [.call "x".toList {} (.stage ["a".toList]), .call "y".toList {} (.stage ["b".toList]),
      .call "x".toList {} (.teardownIsolation "1".toList)]).last
  have hreverted : ∃ i ∈ (([.call "x".toList {} (.stage ["a".toList]),
      .call "y".toList {} (.stage ["b".toList]),
      .call "x".toList {} (.teardownIsolation "1".toList)] : List (Action Nat)).foldl World.step
        (World.start Server.sample)).log,
      ∃ o ∈ i.before.opened, isIn i.own o = false ∧ o ∉ i.after.opened := by decide
  obtain ⟨i, hi, o, ho, hown, hgone⟩ := hreverted
  exact hgone (hrun i hi o ho hown)

/-! ## Pending changelists -/

/-- The command was a submit that took effect. -/
def Issued.isSubmit (i : Issued F) : Bool :=
  match i.command with
  | .submit n => i.before.isPending n && !i.after.isPending n
  | _ => false

/-- A submit of the context has taken effect. -/
def World.hasPublished (w : World F) (ctx : Text) : Bool :=
  w.log.any fun i => i.context = ctx && i.isSubmit

/-- Every command issued so far found the changelist it was given pending. -/
def World.usesPending (w : World F) : Prop :=
  ∀ i ∈ w.log, ∀ n, i.command.change = some n → i.before.isPending n = true

/-- The invariant: contexts have changelists of their own, and that of a context is pending until a
    submit of the context takes effect. -/
structure World.Sound (w : World F) : Prop where
  lt : ∀ ctx n, w.contextCl ctx = some n → n < w.server.next
  inj : ∀ ctx ctx' n, w.contextCl ctx = some n → w.contextCl ctx' = some n → ctx = ctx'
  pending : ∀ ctx n, w.contextCl ctx = some n → w.hasPublished ctx = false →
    w.server.isPending n = true
  uses : w.usesPending

section Pending

variable {ctx : Text} {fault : Fault} {faults : Faults} {cmd : Command} {cl : Nat} {w : World F}

omit [DecidableEq F] in
/-- Only what is known of the numbers matters. -/
theorem isPending_congr {s s' : Server F} (h : s'.changes = s.changes) (n : Nat) :
    s'.isPending n = s.isPending n := by
  rw [Server.isPending, Server.isPending, Server.status, Server.status, h]

theorem hasPublished_afterIssue (ctx' : Text) :
    (w.afterIssue ctx fault cmd).hasPublished ctx' =
      (w.hasPublished ctx' || (ctx = ctx' && (w.issue ctx fault cmd).isSubmit)) := by
  simp [World.hasPublished, World.afterIssue, World.issue]

theorem usesPending_afterIssue (hw : w.usesPending)
    (h : ∀ n, cmd.change = some n → w.server.isPending n = true) :
    (w.afterIssue ctx fault cmd).usesPending := by
  intro i hi n hn
  simp only [World.afterIssue, List.mem_append, List.mem_singleton] at hi
  rcases hi with hi | rfl
  · exact hw i hi n hn
  · exact h n hn

/-- A command that neither creates nor submits leaves the numbers alone. -/
theorem Fault.deliver_changes {s : Server F} (hcreate : ∀ d, cmd ≠ .changeInput none d)
    (hsubmit : ∀ n, cmd ≠ .submit n) : (fault.deliver s cmd).2.changes = s.changes := by
  rcases fault.deliver_server s cmd with heq | heq
  · rw [heq, Server.perform_changes s cmd hcreate hsubmit]
  · rw [heq]

theorem Sound_afterIssue (ctx : Text) (fault : Fault) (cmd : Command) (hw : w.Sound)
    (hcreate : ∀ d, cmd ≠ .changeInput none d) (hsubmit : ∀ n, cmd ≠ .submit n)
    (h : ∀ n, cmd.change = some n → w.server.isPending n = true) :
    (w.afterIssue ctx fault cmd).Sound ∧
      ∀ ctx', (w.afterIssue ctx fault cmd).hasPublished ctx' = w.hasPublished ctx' := by
  have hchanges : (w.afterIssue ctx fault cmd).server.changes = w.server.changes :=
    Fault.deliver_changes hcreate hsubmit
  have hpublished : ∀ ctx', (w.afterIssue ctx fault cmd).hasPublished ctx' =
      w.hasPublished ctx' := by
    intro ctx'
    have hquiet : (w.issue ctx fault cmd).isSubmit = false := by
      cases cmd <;> first | rfl | exact absurd rfl (hsubmit _)
    simp [hasPublished_afterIssue, hquiet]
  refine ⟨⟨fun c n hn => ?_, hw.inj, fun c n hn hc => ?_, usesPending_afterIssue hw.uses h⟩,
    hpublished⟩
  · rw [Server.next, hchanges]
    exact hw.lt c n hn
  · rw [isPending_congr hchanges]
    exact hw.pending c n hn (by rw [← hpublished]; exact hc)

/-- The context has this changelist, and no submit of it has taken effect. -/
def World.holds (w : World F) (ctx : Text) (cl : Nat) : Prop :=
  w.Sound ∧ w.contextCl ctx = some cl ∧ w.hasPublished ctx = false

omit [DecidableEq F] in
theorem World.holds.isPending (h : w.holds ctx cl) : w.server.isPending cl = true :=
  h.1.pending ctx cl h.2.1 h.2.2

theorem holds_afterIssue (hw : w.holds ctx cl) (hcreate : ∀ d, cmd ≠ .changeInput none d)
    (hsubmit : ∀ n, cmd ≠ .submit n) (h : ∀ n, cmd.change = some n → n = cl) :
    (w.afterIssue ctx fault cmd).holds ctx cl := by
  have hsound := Sound_afterIssue ctx fault cmd hw.1 hcreate hsubmit
    fun n hn => by rw [h n hn]; exact hw.isPending
  exact ⟨hsound.1, hw.2.1, by rw [hsound.2]; exact hw.2.2⟩

/-- The commands a verb issues on the changelist of its context, other than the submit. -/
theorem holds_p4OrFail {operation : String} (hcreate : ∀ d, cmd ≠ .changeInput none d)
    (hsubmit : ∀ n, cmd ≠ .submit n) (h : ∀ n, cmd.change = some n → n = cl) :
    Triple (fun w : World F => w.holds ctx cl) (p4OrFail ctx fault cmd operation)
      (fun _ w => w.holds ctx cl) World.Sound :=
  triple_p4OrFail (fun _ _ hw _ _ => holds_afterIssue hw hcreate hsubmit h) fun _ hw =>
    (holds_afterIssue hw hcreate hsubmit h).1

/-- Sound so far, and no submit of the context has taken effect. -/
def World.unspent (w : World F) (ctx : Text) : Prop := w.Sound ∧ w.hasPublished ctx = false

theorem unspent_preflight {ctx' : Text} :
    Triple (fun w : World F => w.unspent ctx') (preflight ctx fault)
      (fun _ w => w.unspent ctx') World.Sound := by
  refine Triple.withState fun w hw => ?_
  have hissued : (w.afterIssue ctx fault .loginStatus).unspent ctx' := by
    have hsound := Sound_afterIssue ctx fault .loginStatus hw.1 (by simp) (by simp)
      (by simp [Command.change])
    exact ⟨hsound.1, by rw [hsound.2]; exact hw.2⟩
  by_cases hlogged : w.loggedIn = true
  · rw [if_pos hlogged]
    exact Triple.pure fun w' hw' => hw' ▸ hw
  · rw [if_neg hlogged]
    refine Triple.bind (Q := fun _ w => w.unspent ctx')
      (triple_p4 (fun w' res hw' _ => hw' ▸ hissued) fun w' hw' => hw' ▸ hissued.1) fun res => ?_
    by_cases hcode : res.code = 0
    · rw [if_pos hcode]
      exact Triple.modify fun w' hw' => ⟨⟨hw'.1.lt, hw'.1.inj, hw'.1.pending, hw'.1.uses⟩, hw'.2⟩
    · rw [if_neg hcode]
      split <;> exact Triple.throw fun w' hw' => hw'.1

/-- Creating a changelist gives a context a number that no context has. -/
theorem Sound_create (fault : Fault) (description : Text) (hw : w.unspent ctx) :
    (w.afterIssue ctx fault (.changeInput none description)).unspent ctx ∧
      ∀ res, (fault.deliver w.server (.changeInput none description)).1 = .ok res → res.code = 0 →
        ∀ n, parseCreatedChange res.output = some n → n = w.server.next ∧
          (w.afterIssue ctx fault (.changeInput none description)).server = w.server.createChange
      := by
  have hpublished : ∀ ctx',
      (w.afterIssue ctx fault (.changeInput none description)).hasPublished ctx' =
        w.hasPublished ctx' := by
    intro ctx'
    simp [hasPublished_afterIssue, World.issue, Issued.isSubmit]
  have hserver : (w.afterIssue ctx fault (.changeInput none description)).server =
      w.server.createChange ∨
      (w.afterIssue ctx fault (.changeInput none description)).server = w.server :=
    fault.deliver_server w.server (.changeInput none description)
  refine ⟨⟨⟨fun c n hn => ?_, hw.1.inj, fun c n hn hc => ?_, usesPending_afterIssue hw.1.uses ?_⟩,
    by rw [hpublished]; exact hw.2⟩, ?_⟩
  · have hlt := hw.1.lt c n hn
    rcases hserver with heq | heq
    · rw [heq, Server.next_createChange]
      omega
    · rw [heq]
      exact hlt
  · have hlt := hw.1.lt c n hn
    have hpending := hw.1.pending c n hn (by rw [← hpublished]; exact hc)
    rcases hserver with heq | heq
    · rw [heq, Server.isPending, Server.status_createChange, if_neg (Nat.ne_of_lt hlt)]
      exact hpending
    · rw [heq]
      exact hpending
  · simp [Command.change]
  · intro res hres hcode n hn
    cases fault with
    | fine =>
      simp only [Fault.deliver, Server.perform, Except.ok.injEq] at hres
      subst hres
      simp only [Reply.done, parseCreatedChange, Option.some.injEq] at hn
      exact ⟨hn.symm, rfl⟩
    | garbled =>
      simp only [Fault.deliver, Except.ok.injEq] at hres
      subst hres
      simp [parseCreatedChange] at hn
    | refused output detail =>
      simp only [Fault.deliver, Except.ok.injEq] at hres
      subst hres
      simp [Reply.failed] at hcode
    | lost err => simp [Fault.deliver] at hres
    | late err => simp [Fault.deliver] at hres

omit [DecidableEq F] in
/-- A number that no other context has keeps the numbers apart. -/
theorem recording_inj (hinj : ∀ c c' n, w.contextCl c = some n → w.contextCl c' = some n → c = c')
    (hother : ∀ c, c ≠ ctx → w.contextCl c ≠ some cl)
    {c c' : Text} {n : Nat} (hn : (w.recording ctx cl).contextCl c = some n)
    (hn' : (w.recording ctx cl).contextCl c' = some n) : c = c' := by
  rcases World.recording_cases hn with ⟨hc, hcl⟩ | ⟨hc, hold⟩
  · rcases World.recording_cases hn' with ⟨hc', -⟩ | ⟨hc', hold'⟩
    · rw [hc, hc']
    · exact absurd (hcl ▸ hold') (hother c' hc')
  · rcases World.recording_cases hn' with ⟨-, hcl'⟩ | ⟨-, hold'⟩
    · exact absurd (hcl' ▸ hold) (hother c hc)
    · exact hinj c c' n hold hold'

omit [DecidableEq F] in
/-- Recording the number that was just created. -/
theorem holds_writeContextCl (hw : w.unspent ctx) (hcl : ∀ c, w.contextCl c ≠ some cl)
    (hlt : cl < w.server.next) (hpending : w.server.isPending cl = true) :
    (w.recording ctx cl).holds ctx cl := by
  refine ⟨⟨fun c n hn => ?_, fun c c' n => recording_inj hw.1.inj fun c _ => hcl c,
    fun c n hn hc => ?_, hw.1.uses⟩, by simp [World.recording], hw.2⟩
  · rcases World.recording_cases hn with ⟨-, rfl⟩ | ⟨-, hold⟩
    · exact hlt
    · exact hw.1.lt c n hold
  · rcases World.recording_cases hn with ⟨-, rfl⟩ | ⟨-, hold⟩
    · exact hpending
    · exact hw.1.pending c n hold hc

/-- What is known of a number once the reply of the command that created it is in. -/
def World.isNew (w : World F) (n : Nat) : Prop :=
  (∀ c, w.contextCl c ≠ some n) ∧ n < w.server.next ∧ w.server.isPending n = true

theorem unspent_createChange {description : Text} {operation : String} :
    Triple (fun w : World F => w.unspent ctx)
      (p4OrFail ctx fault (.changeInput none description) operation)
      (fun res w => w.unspent ctx ∧ ∀ n, parseCreatedChange res.output = some n → w.isNew n)
      World.Sound := by
  refine triple_p4OrFail (fun w res hw hres hcode => ?_) fun w hw => (Sound_create fault description hw).1.1
  obtain ⟨hunspent, hreply⟩ := Sound_create fault description hw
  refine ⟨hunspent, fun n hn => ?_⟩
  obtain ⟨rfl, hserver⟩ := hreply res hres hcode n hn
  refine ⟨fun c hc => Nat.lt_irrefl _ (hw.1.lt c _ hc), ?_, ?_⟩
  · rw [hserver, Server.next_createChange]
    exact Nat.lt_succ_self _
  · rw [hserver, Server.isPending, Server.status_createChange, if_pos rfl]
    rfl

theorem unspent_changeForm {description : Text} {operation : String} :
    Triple (fun w : World F => w.unspent ctx)
      (p4OrFail ctx fault (.changeForm none description) operation)
      (fun _ w => w.unspent ctx) World.Sound := by
  have hissued : ∀ w : World F, w.unspent ctx →
      (w.afterIssue ctx fault (.changeForm none description)).unspent ctx := by
    intro w hw
    have hsound := Sound_afterIssue ctx fault (.changeForm none description) hw.1 (by simp)
      (by simp) (by simp [Command.change])
    exact ⟨hsound.1, by rw [hsound.2]; exact hw.2⟩
  exact triple_p4OrFail (fun w _ hw _ _ => hissued w hw) fun w hw => (hissued w hw).1

theorem createdChange_eq_ok {res : Reply} (h : createdChange res = .ok cl) :
    parseCreatedChange res.output = some cl := by
  unfold createdChange at h
  cases hparse : parseCreatedChange res.output with
  | none => simp [hparse] at h
  | some n => simpa [hparse] using h

theorem holds_ensureContextChangelist :
    Triple (fun w : World F => w.unspent ctx) (ensureContextChangelist ctx faults)
      (fun cl w => w.holds ctx cl) World.Sound := by
  refine Triple.withState fun w hw => ?_
  cases hcl : w.contextCl ctx with
  | some existing => exact Triple.pure fun w' hw' => hw' ▸ ⟨hw.1, hcl, hw.2⟩
  | none =>
    have hstart : ∀ w', w' = w → w'.unspent ctx := fun w' hw' => hw' ▸ hw
    refine Triple.bind (Q := fun res w' => w'.unspent ctx ∧
      ∀ n, parseCreatedChange res.output = some n → w'.isNew n) ?_ fun res => ?_
    · refine Triple.bind (Q := fun _ w' => w'.unspent ctx) ?_ fun _ => unspent_createChange
      exact unspent_changeForm.conseq hstart (fun _ _ h => h) fun _ h => h
    · refine Triple.bind (Q := fun cl w' => w'.unspent ctx ∧ w'.isNew cl) ?_ fun cl => ?_
      · exact Triple.lift (fun cl hok w' hw' => ⟨hw'.1, hw'.2 cl (createdChange_eq_ok hok)⟩)
          fun _ hw' => hw'.1.1
      · exact Triple.bind (Q := fun _ w' => w'.holds ctx cl)
          (Triple.modify fun w' hw' => holds_writeContextCl hw'.1 hw'.2.1 hw'.2.2.1 hw'.2.2.2)
          fun _ => Triple.pure fun _ h => h

/-! ### Submits -/

/-- A submit is refused, or it takes effect and says the final number. -/
theorem perform_submit (s : Server F) (n : Nat) :
    ((s.perform (.submit n)).1.code ≠ 0 ∧ (s.perform (.submit n)).2 = s) ∨
      ((s.perform (.submit n)).1.code = 0 ∧ (s.perform (.submit n)).2 = s.submit n ∧
        parseSubmittedChange (s.perform (.submit n)).1.output = some (s.finalNumber n)) := by
  simp only [Server.perform, Server.onPending]
  split
  · split
    · exact Or.inl ⟨by simp [Reply.failed], rfl⟩
    · split
      · exact Or.inl ⟨by simp [Reply.failed], rfl⟩
      · split
        · rename_i hfinal
          exact Or.inr ⟨rfl, rfl, by simp [Reply.done, parseSubmittedChange, hfinal]⟩
        · exact Or.inr ⟨rfl, rfl, rfl⟩
  · exact Or.inl ⟨by simp [Reply.failed], rfl⟩

/-- After the submit, the context may record the old number or the final one. -/
theorem Sound_submitted (fault : Fault) (hw : w.holds ctx cl)
    (hserver : (fault.deliver w.server (.submit cl)).2 = w.server.submit cl) {final : Nat}
    (hfinal : final = cl ∨ final = w.server.finalNumber cl) :
    ((w.afterIssue ctx fault (.submit cl)).recording ctx final).Sound := by
  have hcl : cl < w.server.next := hw.1.lt ctx cl hw.2.1
  have hserver' : (w.afterIssue ctx fault (.submit cl)).server = w.server.submit cl := hserver
  have hsubmit : (w.issue ctx fault (.submit cl)).isSubmit = true := by
    simp [World.issue, Issued.isSubmit, hserver, hw.isPending, w.server.isPending_submit hcl]
  -- No other context has the number that is recorded.
  have hother : ∀ c, c ≠ ctx → w.contextCl c ≠ some final := by
    intro c hc hn
    rcases hfinal with rfl | rfl
    · exact hc (hw.1.inj c ctx _ hn hw.2.1)
    · have hlt := hw.1.lt c _ hn
      unfold Server.finalNumber at hn hlt
      split at hn
      · exact hc (hw.1.inj c ctx _ hn hw.2.1)
      · rename_i hlast
        rw [if_neg hlast] at hlt
        exact Nat.lt_irrefl _ hlt
  have hsound : ∀ c n, w.contextCl c = some n → n < (w.server.submit cl).next := fun c n hn =>
    Nat.lt_of_lt_of_le (hw.1.lt c n hn) (w.server.next_submit cl)
  refine ⟨fun c n hn => ?_, fun c c' n hn hn' => ?_, fun c n hn hc => ?_,
    usesPending_afterIssue hw.1.uses (fun n hn => ?_)⟩
  · show n < (w.afterIssue ctx fault (.submit cl)).server.next
    rw [hserver']
    rcases World.recording_cases hn with ⟨-, rfl⟩ | ⟨-, hold⟩
    · rcases hfinal with rfl | rfl
      · exact hsound ctx _ hw.2.1
      · exact w.server.finalNumber_lt hcl
    · exact hsound c n hold
  · exact recording_inj (w := w.afterIssue ctx fault (.submit cl)) hw.1.inj hother hn hn'
  · show (w.afterIssue ctx fault (.submit cl)).server.isPending n = true
    have hc : (w.afterIssue ctx fault (.submit cl)).hasPublished c = false := hc
    rw [hasPublished_afterIssue, hsubmit] at hc
    rcases World.recording_cases hn with ⟨rfl, -⟩ | ⟨hctx, hold⟩
    · simp at hc
    · have hold : w.contextCl c = some n := hold
      have hne : n ≠ cl := fun heq => hctx (hw.1.inj c ctx cl (heq ▸ hold) hw.2.1)
      have hkept := w.server.status_submit_of_ne hne (hw.1.lt c n hold)
      rw [hserver', Server.isPending, hkept]
      exact hw.1.pending c n hold (by simp_all)
  · simp only [Command.change, Option.some.injEq] at hn
    exact hn ▸ hw.isPending

/-- A submit that has no effect leaves the changelist as it was. -/
theorem holds_of_unsubmitted (hw : w.holds ctx cl)
    (hserver : (fault.deliver w.server (.submit cl)).2 = w.server) :
    (w.afterIssue ctx fault (.submit cl)).holds ctx cl := by
  have hserver' : (w.afterIssue ctx fault (.submit cl)).server = w.server := hserver
  have hpublished : ∀ c, (w.afterIssue ctx fault (.submit cl)).hasPublished c =
      w.hasPublished c := by
    intro c
    simp [hasPublished_afterIssue, World.issue, Issued.isSubmit, hserver]
  refine ⟨⟨fun c n hn => ?_, hw.1.inj, fun c n hn hc => ?_,
    usesPending_afterIssue hw.1.uses (fun n hn => ?_)⟩, hw.2.1, by rw [hpublished]; exact hw.2.2⟩
  · rw [hserver']
    exact hw.1.lt c n hn
  · rw [hserver']
    exact hw.1.pending c n hn (by rw [← hpublished]; exact hc)
  · simp only [Command.change, Option.some.injEq] at hn
    exact hn ▸ hw.isPending

theorem holds_submit :
    Triple (fun w : World F => w.holds ctx cl) (submit ctx fault cl)
      (fun result w => match result with
        | .ok final => (w.recording ctx final).Sound
        | .failed _ _ => w.holds ctx cl) World.Sound := by
  refine Triple.bind (Q := fun res w => if res.code = 0
    then (w.recording ctx ((parseSubmittedChange res.output).getD cl)).Sound
    else w.holds ctx cl) (triple_p4 (fun w res hw hres => ?_) fun w hw => ?_) fun res => ?_
  · by_cases hcode : res.code = 0
    · rw [if_pos hcode]
      rcases perform_submit w.server cl with ⟨hperform, hkept⟩ | ⟨hperform, hdone, hparse⟩
      · cases fault <;> simp only [Fault.deliver, Except.ok.injEq, reduceCtorEq] at hres
        all_goals
          subst hres
          first | exact absurd hcode hperform | simp [Reply.failed] at hcode
      · cases fault with
        | fine =>
          simp only [Fault.deliver, Except.ok.injEq] at hres
          subst hres
          exact Sound_submitted .fine hw hdone (Or.inr (by rw [hparse]; rfl))
        | garbled =>
          simp only [Fault.deliver, Except.ok.injEq] at hres
          subst hres
          exact Sound_submitted .garbled hw hdone (Or.inl rfl)
        | refused output detail =>
          simp only [Fault.deliver, Except.ok.injEq] at hres
          subst hres
          simp [Reply.failed] at hcode
        | lost err => simp [Fault.deliver] at hres
        | late err => simp [Fault.deliver] at hres
    · rw [if_neg hcode]
      exact holds_of_unsubmitted hw (Fault.deliver_submit_failed hres hcode)
  · rcases fault.deliver_server w.server (.submit cl) with heq | heq
    · rcases perform_submit w.server cl with ⟨_, hkept⟩ | ⟨_, hdone, _⟩
      · exact (holds_of_unsubmitted hw (heq.trans hkept)).1
      · have hsound := Sound_submitted fault hw (heq.trans hdone) (Or.inl rfl)
        have hrecorded : (w.afterIssue ctx fault (.submit cl)).contextCl ctx = some cl := hw.2.1
        rw [World.recording_eq_self hrecorded] at hsound
        exact hsound
    · exact (holds_of_unsubmitted hw heq).1
  · by_cases hcode : res.code = 0
    · simp only [hcode, if_true]
      exact Triple.pure fun _ h => h
    · simp only [hcode, if_false]
      exact Triple.pure fun _ h => h

omit [DecidableEq F] in
theorem sound_finishPublish {final : Nat} :
    Triple (fun w : World F => (w.recording ctx final).Sound) (finishPublish ctx final)
      (fun _ => World.Sound) World.Sound :=
  Triple.bind (Q := fun _ => World.Sound) (Triple.modify fun _ h => h) fun _ =>
    Triple.pure fun _ h => h

/-- The second attempt uses the changelist no earlier than the first one let go of it. -/
theorem sound_publishAgain :
    Triple (fun w : World F => w.holds ctx cl) (publishAgain ctx faults cl) (fun _ => World.Sound)
      World.Sound := by
  have hissued : ∀ (w : World F) (fault : Fault) (cmd : Command), cmd = .sync ∨ cmd = .resolveSafe →
      w.holds ctx cl → (w.afterIssue ctx fault cmd).holds ctx cl := by
    intro w fault cmd hcmd hw
    rcases hcmd with rfl | rfl
    · exact holds_afterIssue hw (by simp) (by simp) (by simp [Command.change])
    · exact holds_afterIssue hw (by simp) (by simp) (by simp [Command.change])
  refine Triple.bind (Q := fun _ w => w.holds ctx cl) (triple_p4
    (fun w _ hw _ => hissued w _ _ (Or.inl rfl) hw)
    fun w hw => (hissued w _ _ (Or.inl rfl) hw).1) fun _ => ?_
  refine Triple.bind (Q := fun _ w => w.holds ctx cl) (triple_p4
    (fun w _ hw _ => hissued w _ _ (Or.inr rfl) hw)
    fun w hw => (hissued w _ _ (Or.inr rfl) hw).1) fun _ => ?_
  refine Triple.bind holds_submit fun result => ?_
  cases result with
  | ok final => exact sound_finishPublish
  | failed conflict res =>
    dsimp only
    split <;> exact Triple.throw fun _ h => h.1

theorem sound_publish {config : Except ScmError Behaviors} :
    Triple (fun w : World F => w.unspent ctx) (publish ctx faults config) (fun _ => World.Sound)
      World.Sound := by
  refine Triple.bind unspent_preflight fun _ => ?_
  refine Triple.bind (Q := fun _ w => w.unspent ctx) (Triple.lift (fun _ _ _ h => h) fun _ h => h.1)
    fun behaviors => ?_
  split
  · exact Triple.pure fun _ h => h.1
  · refine Triple.withState fun w hw => ?_
    cases hcl : w.contextCl ctx with
    | none => exact Triple.pure fun w' hw' => hw' ▸ hw.1
    | some cl =>
      have hholds : ∀ w', w' = w → w'.holds ctx cl := fun w' hw' => hw' ▸ ⟨hw.1, hcl, hw.2⟩
      refine Triple.bind (holds_submit.conseq hholds (fun _ _ h => h) fun _ h => h) fun result => ?_
      cases result with
      | ok final => exact sound_finishPublish
      | failed conflict res =>
        cases conflict with
        | false => exact Triple.throw fun _ h => h.1
        | true => exact sound_publishAgain

theorem sound_stage {files : List Text} :
    Triple (fun w : World F => w.unspent ctx) (stage ctx faults files) (fun _ => World.Sound)
      World.Sound := by
  refine Triple.bind unspent_preflight fun _ => ?_
  refine Triple.bind (Q := fun _ w => w.unspent ctx) (Triple.lift (fun _ _ _ h => h) fun _ h => h.1)
    fun toStage => ?_
  split
  · exact Triple.pure fun _ h => h.1
  · refine Triple.bind holds_ensureContextChangelist fun cl => ?_
    refine Triple.bind (holds_p4OrFail (by simp) (by simp) ?_) fun _ => Triple.pure fun _ h => h.1
    simp [Command.change, eq_comm]

theorem holds_setChangelistDescription {message : Text} :
    Triple (fun w : World F => w.holds ctx cl) (setChangelistDescription ctx faults cl message)
      (fun _ w => w.holds ctx cl) World.Sound := by
  refine Triple.bind (Q := fun _ w => w.holds ctx cl) ?_ fun _ => Triple.pure fun _ h => h
  refine Triple.bind (holds_p4OrFail (by simp) (by simp) ?_) fun _ =>
    holds_p4OrFail (by simp) (by simp) ?_
  · simp [Command.change, eq_comm]
  · simp [Command.change, eq_comm]

theorem sound_record {config : Except ScmError Behaviors} {message : Text} :
    Triple (fun w : World F => w.unspent ctx) (record ctx faults config message)
      (fun _ => World.Sound) World.Sound := by
  refine Triple.bind unspent_preflight fun _ => ?_
  refine Triple.bind (Q := fun _ w => w.unspent ctx) (Triple.lift (fun _ _ _ h => h) fun _ h => h.1)
    fun behaviors => ?_
  split
  · exact Triple.pure fun _ h => h.1
  · refine Triple.bind holds_ensureContextChangelist fun cl => ?_
    refine Triple.bind holds_setChangelistDescription fun _ => ?_
    split
    · exact Triple.pure fun _ h => h.1
    · refine Triple.bind (holds_p4OrFail (by simp) (by simp) ?_) fun _ =>
        Triple.pure fun _ h => h.1
      simp [Command.change, eq_comm]

end Pending

/-- Commands that are given no changelist keep the invariant in any world. -/
theorem sound_unnumbered {w : World F} {ctx : Text} {fault : Fault} {cmd : Command} (hw : w.Sound)
    (hcmd : cmd = .loginStatus ∨ cmd = .revertAll ∨ ∃ name, cmd = .deleteClient name) :
    (w.afterIssue ctx fault cmd).Sound := by
  rcases hcmd with rfl | rfl | ⟨name, rfl⟩
  · exact (Sound_afterIssue _ _ _ hw (by simp) (by simp) (by simp [Command.change])).1
  · exact (Sound_afterIssue _ _ _ hw (by simp) (by simp) (by simp [Command.change])).1
  · exact (Sound_afterIssue _ _ _ hw (by simp) (by simp) (by simp [Command.change])).1

theorem sound_preflight {ctx : Text} {fault : Fault} :
    Triple (World.Sound (F := F)) (preflight ctx fault) (fun _ => World.Sound) World.Sound := by
  refine Triple.withState fun w hw => ?_
  by_cases hlogged : w.loggedIn = true
  · rw [if_pos hlogged]
    exact Triple.pure fun w' hw' => hw' ▸ hw
  · rw [if_neg hlogged]
    refine Triple.bind (Q := fun _ => World.Sound)
      (triple_p4 (fun w' _ hw' _ => hw' ▸ sound_unnumbered hw (Or.inl rfl)) fun w' hw' =>
        hw' ▸ sound_unnumbered hw (Or.inl rfl)) fun res => ?_
    by_cases hcode : res.code = 0
    · rw [if_pos hcode]
      exact Triple.modify fun w' hw' => ⟨hw'.lt, hw'.inj, hw'.pending, hw'.uses⟩
    · rw [if_neg hcode]
      split <;> exact Triple.throw fun _ h => h

theorem sound_teardownIsolation {ctx : Text} {faults : Faults} {id : Text} :
    Triple (World.Sound (F := F)) (teardownIsolation ctx faults id) (fun _ => World.Sound)
      World.Sound := by
  refine Triple.bind sound_preflight fun _ => ?_
  refine Triple.bind (Q := fun _ => World.Sound) (triple_p4
    (fun w _ hw _ => sound_unnumbered hw (Or.inr (Or.inl rfl))) fun w hw =>
      sound_unnumbered hw (Or.inr (Or.inl rfl))) fun _ => ?_
  exact Triple.bind (Q := fun _ => World.Sound) (triple_p4
    (fun w _ hw _ => sound_unnumbered hw (Or.inr (Or.inr ⟨_, rfl⟩))) fun w hw =>
      sound_unnumbered hw (Or.inr (Or.inr ⟨_, rfl⟩))) fun _ => Triple.pure fun _ h => h

/-- The call stages, records or publishes for a context that has not published yet. -/
def isUnspent (w : World F) : Action F → Bool
  | .call ctx _ (.stage _) => !w.hasPublished ctx
  | .call ctx _ (.record _ _) => !w.hasPublished ctx
  | .call ctx _ (.publish _) => !w.hasPublished ctx
  | _ => true

theorem Sound_step {w : World F} {a : Action F} (hw : w.Sound) (h : isUnspent w a = true) :
    (w.step a).Sound := by
  cases a with
  | workspace ws => exact ⟨hw.lt, hw.inj, hw.pending, hw.uses⟩
  | restart => exact ⟨hw.lt, hw.inj, hw.pending, hw.uses⟩
  | allocate status =>
    refine ⟨fun ctx n hn => ?_, hw.inj, fun ctx n hn hctx => ?_, hw.uses⟩
    · have hlt : n < w.server.changes.length := hw.lt ctx n hn
      simp only [World.step, Server.next, Server.allocate, List.length_append, List.length_singleton]
      omega
    · show (w.server.allocate status).isPending n = true
      rw [Server.isPending, Server.status_allocate w.server (hw.lt ctx n hn)]
      exact hw.pending ctx n hn hctx
  | call ctx faults verb =>
    cases verb with
    | isolate =>
      exact (sound_preflight.bind fun _ => Triple.pure fun _ h => h).exec (p := isolate ctx faults)
        (Q := fun _ => World.Sound) (fun _ _ h => h) (fun _ h => h) hw
    | stage files =>
      exact sound_stage.exec (fun _ _ h => h) (fun _ h => h) ⟨hw, by simpa [isUnspent] using h⟩
    | record config message =>
      exact sound_record.exec (fun _ _ h => h) (fun _ h => h) ⟨hw, by simpa [isUnspent] using h⟩
    | publish config =>
      exact sound_publish.exec (fun _ _ h => h) (fun _ h => h) ⟨hw, by simpa [isUnspent] using h⟩
    | teardownIsolation id =>
      exact sound_teardownIsolation.exec (fun _ _ h => h) (fun _ h => h) hw

omit [DecidableEq F] in
theorem Sound_start (server : Server F) : (World.start server).Sound where
  lt _ _ h := by simp [World.start] at h
  inj _ _ _ h := by simp [World.start] at h
  pending _ _ h := by simp [World.start] at h
  uses i hi := by simp [World.start] at hi

/-- **Main theorem.** In a run in which no context stages, records or publishes again after it has
    published, every command that is given a changelist finds it pending. -/
theorem World.usesPending_of_isUnspent (server : Server F) (actions : List (Action F))
    (h : RunOk World.step (fun w a => isUnspent w a = true) (World.start server) actions) :
    Always World.step World.usesPending (World.start server) actions :=
  (h.always (fun _ _ hw ha => Sound_step hw ha) (Sound_start server)).mono fun _ hw => hw.uses

theorem World.usesPending_of_isUnspent_sample :
    Always World.step World.usesPending (World.start Server.sample)
      [.call "x".toList {} (.stage ["a".toList]), .call "x".toList {} (.publish (.ok {}))] :=
  World.usesPending_of_isUnspent Server.sample _ ⟨by decide, by decide, trivial⟩

/-- After a publish, the next stage opens its files in the submitted changelist. -/
theorem World.not_usesPending_stage :
    ¬ ∀ (server : Server Nat) (actions : List (Action Nat)),
      Always World.step World.usesPending (World.start server) actions := by
  intro h
  have hrun := (h Server.sample
    [.call "x".toList {} (.stage ["a".toList]), .call "x".toList {} (.publish (.ok {})),
      .call "x".toList {} (.stage ["b".toList])]).last
  have hspent : ∃ i ∈ (([.call "x".toList {} (.stage ["a".toList]),
      .call "x".toList {} (.publish (.ok {})),
      .call "x".toList {} (.stage ["b".toList])] : List (Action Nat)).foldl World.step
        (World.start Server.sample)).log,
      i.command.change = some 0 ∧ i.before.isPending 0 = false := by decide
  obtain ⟨i, hi, hchange, hspent⟩ := hspent
  rw [hrun i hi 0 hchange] at hspent
  exact absurd hspent (by simp)

end WoodFiredTasks.Scm
