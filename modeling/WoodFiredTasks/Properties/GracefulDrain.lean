import WoodFiredTasks.Lib.Runs
import WoodFiredTasks.Router.Lifecycle

set_option autoImplicit false

/-! # Who returns before the daemon is drained

The call of `stop` that finds the daemon running waits for the consume loop and then for everything
that is in flight. A call that finds it stopping waits for the consume loop only. So as long as
nobody calls `stop` while another call is at work, whoever returns leaves a drained daemon behind;
and a call that comes in between can return too early. -/

namespace WoodFiredTasks.Router

namespace Lifecycle

/-- `runDaemon` or a call of `stop` has returned. -/
def hasReturned (s : Lifecycle) : Bool :=
  (s.calls.any (· = .returned)) || (match s.main with | .returned _ => true | _ => false)

/-- Whoever has returned has left a drained daemon behind: everything that was in flight has
    settled, and no call of `stop` is at work. -/
structure Graceful (s : Lifecycle) : Prop where
  drained : s.hasReturned = true → ∀ work ∈ s.tracked, work.isSettled = true
  first : s.hasReturned = true → ∀ stage ∈ s.calls, stage = .returned ∨ stage = .joining

/-- The action calls `stop`. -/
def callsStop (s : Lifecycle) : Action → Bool
  | .stop => true
  | .resumeMain => s.main = .waiting && s.consumeLoop ≠ .running
  | _ => false

/-- `stop` is not called while another call is at work. -/
def Calm (s : Lifecycle) (a : Action) : Prop := callsStop s a = true → s.phase ≠ .stopping

/-! ## The phases -/

structure IdleOk (s : Lifecycle) : Prop where
  tracked : s.tracked = []
  calls : s.calls = []
  consumeLoop : s.consumeLoop = .null
  main : s.main = .notRun

structure RunningOk (s : Lifecycle) : Prop where
  calls : s.calls = []
  consumeLoop : s.consumeLoop ≠ .null
  main : ∀ code, s.main ≠ .returned code

/-- The one call that is at work, and what it will not have missed. -/
def AtWork (s : Lifecycle) : StopStage → Prop
  | .flushing | .awaitingLoop => True
  | .draining upTo => s.consumeLoop ≠ .running ∧ upTo = s.tracked.length
  | .joining | .returned => False

structure StoppingOk (s : Lifecycle) : Prop where
  calls : ∃ stage, s.calls = [stage] ∧ s.AtWork stage
  consumeLoop : s.consumeLoop ≠ .null
  main : ∀ code, s.main ≠ .returned code

structure StoppedOk (s : Lifecycle) : Prop where
  consumeLoop : s.consumeLoop ≠ .running
  settled : ∀ work ∈ s.tracked, work.isSettled = true
  calls : ∀ stage ∈ s.calls, stage = .returned ∨ stage = .joining

/-- What holds of a daemon in each of its phases. -/
def Inv (s : Lifecycle) : Prop :=
  match s.phase with
  | .idle => s.IdleOk
  | .running => s.RunningOk
  | .stopping => s.StoppingOk
  | .stopped => s.StoppedOk

theorem Inv.graceful {s : Lifecycle} (h : s.Inv) : s.Graceful := by
  cases hphase : s.phase with
  | idle =>
    simp only [Inv, hphase] at h
    have hno : s.hasReturned = false := by simp [hasReturned, h.calls, h.main]
    constructor <;> simp [hno]
  | running =>
    simp only [Inv, hphase] at h
    have hno : s.hasReturned = false := by
      cases hmain : s.main with
      | returned code => exact absurd hmain (h.main code)
      | _ => simp [hasReturned, h.calls, hmain]
    constructor <;> simp [hno]
  | stopping =>
    simp only [Inv, hphase] at h
    obtain ⟨stage, hcalls, hwork⟩ := h.calls
    have hstage : stage ≠ .returned := by
      intro heq
      rw [heq] at hwork
      exact hwork
    have hno : s.hasReturned = false := by
      cases hmain : s.main with
      | returned code => exact absurd hmain (h.main code)
      | _ => simp [hasReturned, hcalls, hmain, hstage]
    constructor <;> simp [hno]
  | stopped =>
    simp only [Inv, hphase] at h
    exact ⟨fun _ => h.settled, fun _ => h.calls⟩

/-! ## Promises that have settled stay so -/

theorem forall_mem_modify {α : Type} {P : α → Prop} {f : α → α} (hf : ∀ a, P a → P (f a))
    {l : List α} (h : ∀ a ∈ l, P a) (i : Nat) : ∀ a ∈ l.modify i f, P a := by
  induction l generalizing i with
  | nil => simp
  | cons a rest ih =>
    obtain ⟨ha, hrest⟩ := List.forall_mem_cons.1 h
    cases i with
    | zero => exact List.forall_mem_cons.2 ⟨hf a ha, hrest⟩
    | succ i => exact List.forall_mem_cons.2 ⟨ha, ih hrest i⟩

theorem isSettled_progress {deps : DaemonDeps} {aborted : Bool} {work : Work} (what : Progress)
    (h : work.isSettled = true) : (work.progress deps aborted what).isSettled = true := by
  have hparts := h
  simp only [Work.isSettled, Bool.and_eq_true, List.isEmpty_iff, Option.isNone_iff_eq_none,
    List.all_eq_true, decide_eq_true_eq] at hparts
  obtain ⟨⟨hrules, hquerying⟩, hdispatches⟩ := hparts
  cases what with
  | gate j passes =>
    simpa [Work.progress, Work.isSettled, hrules, hquerying] using
      forall_mem_modify (by simp) hdispatches j
  | settle j =>
    simpa [Work.progress, Work.isSettled, hrules, hquerying] using
      forall_mem_modify (by simp) hdispatches j
  | answer tasks nowMs => simp [Work.progress, hquerying, h]
  | next => simp [Work.progress, hrules, h]

theorem isSettled_map {work : Work} {f : DispatchStage → DispatchStage} (hf : f .settled = .settled)
    (h : work.isSettled = true) :
    ({ work with dispatches := work.dispatches.map f } : Work).isSettled = true := by
  simp only [Work.isSettled, Bool.and_eq_true, List.all_eq_true, decide_eq_true_eq] at h ⊢
  refine ⟨h.1, ?_⟩
  intro stage hstage
  obtain ⟨stage', hstage', rfl⟩ := List.mem_map.1 hstage
  rw [h.2 stage' hstage', hf]

/-! ## Steps -/

theorem Inv.start {s : Lifecycle} (h : s.Inv) : s.start.Inv := by
  unfold Lifecycle.start
  by_cases hphase : s.phase = .idle
  · simp only [Inv, hphase] at h
    simp only [hphase, ne_eq, not_true_eq_false, if_false]
    split
    · exact ⟨h.calls, by simp, by simp [h.main]⟩
    · exact ⟨h.calls, by simp [track], by simp [track, h.main]⟩
  · simpa [hphase] using h

/-- Where `runDaemon` waits does not matter as long as it has not returned. -/
theorem Inv.withMain {s : Lifecycle} (h : s.Inv) (hidle : s.phase ≠ .idle) {main : MainStage}
    (hmain : s.phase ≠ .stopped → ∀ code, main ≠ .returned code) :
    ({ s with main } : Lifecycle).Inv := by
  cases hphase : s.phase with
  | idle => exact absurd hphase hidle
  | running =>
    simp only [Inv, hphase] at h ⊢
    exact ⟨h.calls, h.consumeLoop, hmain (by simp [hphase])⟩
  | stopping =>
    simp only [Inv, hphase] at h ⊢
    exact ⟨h.calls, h.consumeLoop, hmain (by simp [hphase])⟩
  | stopped =>
    simp only [Inv, hphase] at h ⊢
    exact ⟨h.consumeLoop, h.settled, h.calls⟩

theorem Inv.withExitCode {s : Lifecycle} (h : s.Inv) (exitCode : Sse.ExitCode) :
    ({ s with exitCode } : Lifecycle).Inv := by
  cases hphase : s.phase with
  | idle =>
    simp only [Inv, hphase] at h ⊢
    exact ⟨h.tracked, h.calls, h.consumeLoop, h.main⟩
  | running =>
    simp only [Inv, hphase] at h ⊢
    exact ⟨h.calls, h.consumeLoop, h.main⟩
  | stopping =>
    simp only [Inv, hphase] at h ⊢
    exact ⟨h.calls, h.consumeLoop, h.main⟩
  | stopped =>
    simp only [Inv, hphase] at h ⊢
    exact ⟨h.consumeLoop, h.settled, h.calls⟩

theorem start_phase (s : Lifecycle) : s.start.phase ≠ .idle := by
  unfold Lifecycle.start
  by_cases hphase : s.phase = .idle
  · simp only [hphase, ne_eq, not_true_eq_false, if_false]
    split <;> simp [track]
  · simp [hphase]

theorem Inv.run {s : Lifecycle} (h : s.Inv) : s.run.Inv := by
  unfold Lifecycle.run
  split
  · exact h.start.withMain (start_phase s) (by simp)
  · exact h

/-- Something new is in flight, which a daemon that stops does not miss: it has not come to its last
    wait while the consume loop runs. -/
theorem Inv.track {s : Lifecycle} (h : s.Inv) (hloop : s.consumeLoop = .running) (work : Work) :
    (s.track work).Inv := by
  cases hphase : s.phase with
  | idle =>
    simp only [Inv, hphase] at h
    exact absurd (h.consumeLoop.symm.trans hloop) (by simp)
  | running =>
    simp only [Inv, Lifecycle.track, hphase] at h ⊢
    exact ⟨h.calls, h.consumeLoop, h.main⟩
  | stopping =>
    simp only [Inv, Lifecycle.track, hphase] at h ⊢
    obtain ⟨stage, hcalls, hwork⟩ := h.calls
    refine ⟨⟨stage, hcalls, ?_⟩, h.consumeLoop, h.main⟩
    cases stage with
    | draining upTo => exact absurd hloop hwork.1
    | _ => exact hwork
  | stopped =>
    simp only [Inv, hphase] at h
    exact absurd hloop h.consumeLoop

theorem Inv.trackRunning {s : Lifecycle} (h : s.Inv) (hphase : s.phase = .running) (work : Work) :
    (s.track work).Inv := by
  simp only [Inv, Lifecycle.track, hphase] at h ⊢
  exact ⟨h.calls, h.consumeLoop, h.main⟩

theorem Inv.onEvent {s : Lifecycle} (h : s.Inv) (hloop : s.consumeLoop = .running) (ev : SSEEvent) :
    (s.onEvent ev).Inv := by
  unfold Lifecycle.onEvent
  split
  · exact h
  · split
    · exact h
    · split
      · exact h
      · exact h.track hloop _

theorem Inv.streamEnd {s : Lifecycle} (h : s.Inv) (hloop : s.consumeLoop = .running)
    (code : Sse.ExitCode) : ({ s with consumeLoop := .ended code } : Lifecycle).Inv := by
  cases hphase : s.phase with
  | idle =>
    simp only [Inv, hphase] at h
    exact absurd (h.consumeLoop.symm.trans hloop) (by simp)
  | running =>
    simp only [Inv, hphase] at h ⊢
    exact ⟨h.calls, by simp, h.main⟩
  | stopping =>
    simp only [Inv, hphase] at h ⊢
    obtain ⟨stage, hcalls, hwork⟩ := h.calls
    refine ⟨⟨stage, hcalls, ?_⟩, by simp, h.main⟩
    cases stage with
    | draining upTo => exact absurd hloop hwork.1
    | _ => exact hwork
  | stopped =>
    simp only [Inv, hphase] at h
    exact absurd hloop h.consumeLoop

/-- What is in flight moves on; what has settled stays so. -/
theorem Inv.mapTracked {s : Lifecycle} (h : s.Inv) {tracked : List Work}
    (hlength : tracked.length = s.tracked.length)
    (hsettled : (∀ work ∈ s.tracked, work.isSettled = true) →
      ∀ work ∈ tracked, work.isSettled = true) : ({ s with tracked } : Lifecycle).Inv := by
  cases hphase : s.phase with
  | idle =>
    simp only [Inv, hphase] at h ⊢
    exact ⟨List.length_eq_zero_iff.1 (by rw [hlength, h.tracked, List.length_nil]), h.calls,
      h.consumeLoop, h.main⟩
  | running =>
    simp only [Inv, hphase] at h ⊢
    exact ⟨h.calls, h.consumeLoop, h.main⟩
  | stopping =>
    simp only [Inv, hphase] at h ⊢
    obtain ⟨stage, hcalls, hwork⟩ := h.calls
    refine ⟨⟨stage, hcalls, ?_⟩, h.consumeLoop, h.main⟩
    cases stage with
    | draining upTo => exact ⟨hwork.1, hwork.2.trans hlength.symm⟩
    | _ => exact hwork
  | stopped =>
    simp only [Inv, hphase] at h ⊢
    exact ⟨h.consumeLoop, hsettled h.settled, h.calls⟩

theorem Inv.stop {s : Lifecycle} (h : s.Inv) (hcalm : s.phase ≠ .stopping) : s.stop.Inv := by
  unfold Lifecycle.stop
  cases hphase : s.phase with
  | idle =>
    simp only [Inv, hphase] at h ⊢
    exact ⟨by simp [h.consumeLoop], by simp [h.tracked], by simp [h.calls]⟩
  | running =>
    simp only [Inv, hphase] at h ⊢
    exact ⟨⟨.flushing, by simp [h.calls], trivial⟩, h.consumeLoop, h.main⟩
  | stopping => exact absurd hphase hcalm
  | stopped =>
    simp only [Inv, hphase] at h ⊢
    refine ⟨h.consumeLoop, h.settled, ?_⟩
    intro stage hstage
    rcases List.mem_append.1 hstage with hold | hnew
    · exact h.calls stage hold
    · rw [List.mem_singleton.1 hnew]
      by_cases hloop : s.consumeLoop = .null <;> simp [hloop]

/-- The call that is at work goes on. -/
theorem StoppingOk.resume {s : Lifecycle} (h : s.StoppingOk) (hphase : s.phase = .stopping)
    (call : Nat) : (s.resume call).Inv := by
  have hsame : s.Inv := by simpa only [Inv, hphase] using h
  obtain ⟨stage, hcalls, hwork⟩ := h.calls
  cases call with
  | succ n => simpa [Lifecycle.resume, hcalls] using hsame
  | zero =>
    cases stage with
    | flushing =>
      simp only [Lifecycle.resume, hcalls, List.getElem?_cons_zero, h.consumeLoop, if_false, Inv,
        hphase]
      exact ⟨⟨.awaitingLoop, by simp, trivial⟩, h.consumeLoop, h.main⟩
    | awaitingLoop =>
      cases hloop : s.consumeLoop with
      | ended code =>
        simp only [Lifecycle.resume, hcalls, List.getElem?_cons_zero, hloop, Inv, hphase]
        exact ⟨⟨.draining s.tracked.length, by simp, by simp, rfl⟩, by simp, h.main⟩
      | _ => simpa [Lifecycle.resume, hcalls, hloop] using hsame
    | draining upTo =>
      obtain ⟨hloop, hupTo⟩ := hwork
      by_cases hdone : (s.tracked.take upTo).all Work.isSettled = true
      · rw [hupTo, List.take_length, List.all_eq_true] at hdone
        simp only [Lifecycle.resume, hcalls, List.getElem?_cons_zero, hupTo, List.take_length,
          List.all_eq_true.2 hdone, if_true, Inv]
        exact ⟨hloop, hdone, by simp⟩
      · simpa [Lifecycle.resume, hcalls, hdone] using hsame
    | joining => exact absurd hwork (by simp [AtWork])
    | returned => exact absurd hwork (by simp [AtWork])

theorem Inv.resume {s : Lifecycle} (h : s.Inv) (call : Nat) : (s.resume call).Inv := by
  cases hphase : s.phase with
  | idle =>
    have hcalls : s.calls = [] := by
      simp only [Inv, hphase] at h
      exact h.calls
    simpa [Lifecycle.resume, hcalls] using h
  | running =>
    have hcalls : s.calls = [] := by
      simp only [Inv, hphase] at h
      exact h.calls
    simpa [Lifecycle.resume, hcalls] using h
  | stopping =>
    simp only [Inv, hphase] at h
    exact h.resume hphase call
  | stopped =>
    have hok : s.StoppedOk := by simpa only [Inv, hphase] using h
    unfold Lifecycle.resume
    cases hstage : s.calls[call]? with
    | none => exact h
    | some stage =>
      rcases hok.calls stage (List.mem_of_getElem? hstage) with rfl | rfl
      · exact h
      · cases hloop : s.consumeLoop with
        | ended code =>
          simp only [Inv, hphase]
          refine ⟨by simp, hok.settled, ?_⟩
          intro stage hmem
          rcases List.mem_or_eq_of_mem_set hmem with hold | rfl
          · exact hok.calls stage hold
          · exact .inl rfl
        | _ => exact h

theorem stop_phase {s : Lifecycle} : s.stop.phase ≠ .idle := by
  unfold Lifecycle.stop
  split <;> simp_all

/-- Who waits for a call that has returned waits for one of a stopped daemon. -/
theorem Inv.stopped_of_returned {s : Lifecycle} (h : s.Inv) {call : Nat}
    (hreturned : s.calls[call]? = some .returned) : s.phase = .stopped := by
  have hmem := List.mem_of_getElem? hreturned
  cases hphase : s.phase with
  | idle =>
    simp only [Inv, hphase] at h
    simp [h.calls] at hmem
  | running =>
    simp only [Inv, hphase] at h
    simp [h.calls] at hmem
  | stopping =>
    simp only [Inv, hphase] at h
    obtain ⟨stage, hcalls, hwork⟩ := h.calls
    rw [hcalls, List.mem_singleton] at hmem
    rw [← hmem] at hwork
    exact hwork.elim
  | stopped => rfl

theorem Inv.resumeMain {s : Lifecycle} (h : s.Inv) (hcalm : s.Calm .resumeMain) :
    s.resumeMain.Inv := by
  cases hmain : s.main with
  | notRun => simpa [Lifecycle.resumeMain, hmain] using h
  | returned code => simpa [Lifecycle.resumeMain, hmain] using h
  | waiting =>
    cases hloop : s.consumeLoop with
    | running => simpa [Lifecycle.resumeMain, hmain, hloop] using h
    | null =>
      have hphase : s.phase ≠ .stopping := hcalm (by simp [callsStop, hmain, hloop])
      have heq : s.resumeMain =
          { s.stop with main := .stopping s.calls.length s.exitCode } := by
        rw [Lifecycle.resumeMain, hmain, hloop]
      rw [heq]
      exact (h.stop hphase).withMain stop_phase (by simp)
    | ended code =>
      have hphase : s.phase ≠ .stopping := hcalm (by simp [callsStop, hmain, hloop])
      have heq : s.resumeMain =
          { ({ s with exitCode := code } : Lifecycle).stop with
            main := .stopping s.calls.length code } := by
        simp [Lifecycle.resumeMain, hmain, hloop]
      rw [heq]
      exact ((h.withExitCode code).stop hphase).withMain stop_phase (by simp)
  | stopping call code =>
    by_cases hreturned : s.calls[call]? = some .returned
    · have hphase := h.stopped_of_returned hreturned
      have heq : s.resumeMain = { s with main := .returned code } := by
        simp [Lifecycle.resumeMain, hmain, hreturned]
      rw [heq]
      exact h.withMain (by simp [hphase]) (fun hno => absurd hphase hno)
    · simpa [Lifecycle.resumeMain, hmain, hreturned] using h

theorem Inv.step {s : Lifecycle} (h : s.Inv) {a : Action} (hcalm : s.Calm a) : (s.step a).Inv := by
  cases a with
  | start => exact h.start
  | run => exact h.run
  | yield ev =>
    simp only [Lifecycle.step]
    split
    · next hloop => exact h.onEvent hloop ev
    · exact h
  | streamEnd code =>
    simp only [Lifecycle.step]
    split
    · next hloop => exact h.streamEnd hloop code
    · exact h
  | sweepTick ruleIndex =>
    simp only [Lifecycle.step]
    split
    · next hphase =>
      split
      · exact h
      · exact h.trackRunning hphase _
    · exact h
  | fireBucket key =>
    refine h.mapTracked (by simp) ?_
    intro hsettled work hwork
    obtain ⟨work', hwork', rfl⟩ := List.mem_map.1 hwork
    exact isSettled_map rfl (hsettled work' hwork')
  | progress i what =>
    refine h.mapTracked (by simp) ?_
    intro hsettled
    exact forall_mem_modify (fun _ => isSettled_progress what) hsettled i
  | stop => exact h.stop (hcalm rfl)
  | resume call => exact h.resume call
  | resumeMain => exact h.resumeMain hcalm

/-! ## Runs -/

theorem inv_created (deps : DaemonDeps) : (created deps).Inv := ⟨rfl, rfl, rfl, rfl⟩

/-- A call of `stop` that finds another one at work can return before that one: the event stream
    ends, and the call goes on. -/
theorem not_graceful_of_stop {s : Lifecycle} (h : s.Inv) (hphase : s.phase = .stopping) :
    ∃ rest, ¬ ((Action.stop :: rest).foldl step s).Graceful := by
  simp only [Inv, hphase] at h
  obtain ⟨stage, hcalls, hwork⟩ := h.calls
  refine ⟨[.streamEnd .cleanShutdown, .resume 1], fun hgraceful => ?_⟩
  have hreached : ((Action.stop :: [.streamEnd .cleanShutdown, .resume 1]).foldl step s).calls =
      [stage, .returned] := by
    simp only [List.foldl_cons, List.foldl_nil, step, Lifecycle.stop, hphase]
    cases hloop : s.consumeLoop with
    | null => exact absurd hloop h.consumeLoop
    | running => simp [Lifecycle.resume, hcalls]
    | ended code => simp [Lifecycle.resume, hcalls]
  obtain ⟨s', hs'⟩ :
      ∃ s', (Action.stop :: [.streamEnd .cleanShutdown, .resume 1]).foldl step s = s' := ⟨_, rfl⟩
  rw [hs'] at hgraceful hreached
  have hstage := hgraceful.first (by simp [hasReturned, hreached]) stage (by simp [hreached])
  rcases hstage with rfl | rfl
  · exact hwork
  · exact hwork

/-- **Main theorem.** As long as `stop` is not called while another call is at work, whoever has
    returned has left a drained daemon behind, and no other call is at work; but from every state in
    which a call is at work, another call can return before it. -/
theorem stop_drains (deps : DaemonDeps) :
    (∀ actions, RunOk step Calm (created deps) actions →
      Always step Graceful (created deps) actions) ∧
    ∀ actions, RunOk step Calm (created deps) actions →
      (actions.foldl step (created deps)).phase = .stopping →
      ∃ rest, ¬ ((actions ++ Action.stop :: rest).foldl step (created deps)).Graceful := by
  constructor
  · intro actions hcalm
    have halways : Always step Inv (created deps) actions :=
      hcalm.always (fun s a hs ha => hs.step ha) (inv_created deps)
    exact halways.mono fun s hs => hs.graceful
  · intro actions hcalm hphase
    have hinv : (actions.foldl step (created deps)).Inv :=
      hcalm.invariant (fun s a hs ha => hs.step ha) (inv_created deps)
    obtain ⟨rest, hrest⟩ := not_graceful_of_stop hinv hphase
    refine ⟨rest, ?_⟩
    rwa [List.foldl_append]

/-! ## Samples -/

def sampleDeps : DaemonDeps where
  config :=
    { rules :=
        [{ name := "triage", on := .taskCreated, doHandler := .shellExec, withBlock := [],
           debounceMs := some 0 }] }
  apiBaseUrl := "http://localhost:3000"
  apiKey := "wft_pat_1"
  env _ := none

def sampleEvent : SSEEvent where
  id := some "5"
  event := some "task.created"
  data := some { eventType := some "task.created" }
  origin := ⟨0, 5⟩

/-- SIGTERM comes while a handler runs, and the event stream ends. -/
def sampleShutdown : Lifecycle :=
  [.run, .yield sampleEvent, .progress 0 (.gate 0 true), .stop, .resume 0,
    .streamEnd .cleanShutdown, .resumeMain, .resume 1, .resumeMain].foldl step (created sampleDeps)

/-- `runDaemon` returns while the handler still runs. -/
theorem sampleShutdown_returns :
    sampleShutdown.main = .returned .cleanShutdown ∧
    sampleShutdown.tracked.map Work.dispatches = [[.handling]] ∧ ¬ sampleShutdown.Graceful := by
  refine ⟨by decide +kernel, by decide +kernel, fun h => ?_⟩
  have hall : sampleShutdown.tracked.all Work.isSettled = true :=
    List.all_eq_true.2 (h.drained (by decide +kernel))
  exact absurd hall (by decide +kernel)

end Lifecycle

end WoodFiredTasks.Router
