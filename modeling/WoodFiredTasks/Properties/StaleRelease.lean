import WoodFiredTasks.Lib.Runs
import WoodFiredTasks.ProcessSteps

set_option autoImplicit false

/-! # What the sweep takes

The sweep reads the claims that are older than the TTL in one statement and releases them one by
one later on; the release asks only whether the row is still held and in progress. So a release
takes a stale claim as long as it finds the claim that the sweep has read. A claim that was
renewed in between is taken as well. -/

namespace WoodFiredTasks

/-- The claim that a step releases by the sweep's reading, its TTL, and the row that has it. -/
def Sys.releaseOf (s : Sys) : Action → Option (Nat × StaleClaim × Task)
  | .step p _ =>
    match s.procs p with
    | some (.release timeoutMinutes claim _) =>
      ((s.db.tasks.find? claim.id).filter Task.releasable).map fun row =>
        (timeoutMinutes, claim, row)
    | _ => none
  | _ => none

/-- A row that is released has the claim that the sweep has read. -/
def ClaimUnchangedSinceSelect (s : Sys) (a : Action) : Prop :=
  ∀ release ∈ s.releaseOf a, release.2.2.claimedAt = some release.2.1.claimedAt

instance (s : Sys) (a : Action) : Decidable (ClaimUnchangedSinceSelect s a) :=
  inferInstanceAs (Decidable (∀ release ∈ s.releaseOf a, _))

/-- The release of a sweep with this TTL changes only rows that are, at that moment, in progress
    with a claim older than the TTL. -/
def ReleasesStale (s : Sys) (a : Action) : Prop :=
  ∀ p env timeoutMinutes claim rest, a = .step p env →
    s.procs p = some (.release timeoutMinutes claim rest) → ∀ t,
      (s.step a).db.tasks.find? t ≠ s.db.tasks.find? t →
        ∃ row claimedAt, s.db.tasks.find? t = some row ∧ row.status = .inProgress ∧
          row.claimedAt = some claimedAt ∧ claimedAt.olderThan timeoutMinutes s.now = true

/-- One release: what it changes is the row of its claim, which is in progress and held. -/
theorem release_changes {s : Sys} {p timeoutMinutes : Nat} {env : Env} {claim : StaleClaim}
    {rest : List StaleClaim} (hpoint : s.procs p = some (.release timeoutMinutes claim rest))
    {t : Nat} (ht : (s.step (.step p env)).db.tasks.find? t ≠ s.db.tasks.find? t) :
    ∃ row, s.db.tasks.find? t = some row ∧ row.status = .inProgress ∧
      s.releaseOf (.step p env) = some (timeoutMinutes, claim, row) := by
  rcases Sys.step_cases env hpoint with ⟨db', next, heffect, -, hstep⟩ | hstep
  · rw [hstep] at ht
    rcases heffect with ⟨rfl, -⟩ | ⟨-, row, hrow, hassignee, hstatus, rfl⟩
    · exact absurd rfl ht
    · have hid : t = claim.id := by
        by_contra hne
        exact ht (Db.find?_writeTask_ne hne)
      subst hid
      refine ⟨row, hrow, hstatus, ?_⟩
      have hreleasable : row.releasable = true := by
        simp only [Task.releasable, hstatus, Option.isSome_iff_ne_none, Bool.and_eq_true, beq_self_eq_true,
          and_true]
        exact hassignee
      simp only [Sys.releaseOf, hpoint, hrow, Option.filter_some, hreleasable, if_true,
        Option.map_some]
  · rw [hstep] at ht
    exact absurd rfl ht

/-- **Main theorem.** In every run whose releases find the claims that their sweeps have read, a
    release changes only rows with a stale claim. -/
theorem releases_stale {db : Db} {now : Nat} {actions : List Action}
    (h : RunOk Sys.step ClaimUnchangedSinceSelect (Sys.quiet db now) actions) :
    RunOk Sys.step ReleasesStale (Sys.quiet db now) actions := by
  refine h.mono_of_invariant (Sys.pointsSound_quiet db now) (fun s a hs _ => hs.step a) ?_
  rintro s a hsound hsame p env timeoutMinutes claim rest rfl hpoint t ht
  obtain ⟨row, hrow, hstatus, hrelease⟩ := release_changes hpoint ht
  have hold : claim.claimedAt.olderThan timeoutMinutes s.now = true :=
    hsound p _ hpoint claim List.mem_cons_self
  exact ⟨row, claim.claimedAt, hrow, hstatus, hsame _ hrelease, hold⟩

/-- Task 1 is claimed, and half an hour and a minute later a sweep has read the claim. -/
def sweepHasRead : List Action :=
  [.call 1 (.claimTask 1 "worker" none .user), .step 1 .undisturbed, .step 1 .undisturbed,
    .wait 1860000, .call 2 (.sweep defaultClaimTtlMinutes), .step 2 .undisturbed]

/-- A sweep that releases at once takes the stale claim that it has read. -/
theorem releases_stale_atOnce : RunOk Sys.step ReleasesStale
    (Sys.quiet (Db.withTasks [plainTask .open none]) 0) (sweepHasRead ++ [.step 2 .undisturbed]) :=
  releases_stale (by decide +kernel)

/-- The worker renews its claim before the release. -/
def renewedInGap : List Action :=
  sweepHasRead ++
    [.call 1 (.claimTask 1 "worker" none .user), .step 1 .undisturbed, .step 1 .undisturbed]

/-- The release takes the renewed claim. -/
theorem releases_renewed : ¬ RunOk Sys.step ReleasesStale
    (Sys.quiet (Db.withTasks [plainTask .open none]) 0) (renewedInGap ++ [.step 2 .undisturbed]) := by
  intro h
  have hlast := (RunOk.append_iff.1 h).2.1
  generalize hs : renewedInGap.foldl Sys.step
    (Sys.quiet (Db.withTasks [plainTask .open none]) 0) = s at hlast
  have hfresh : (s.db.tasks.find? 1).all (fun row => row.claimedAt.all fun claimedAt =>
      !claimedAt.olderThan defaultClaimTtlMinutes s.now) = true := by
    rw [← hs]
    decide +kernel
  obtain ⟨row, claimedAt, hrow, -, hclaimed, hold⟩ := hlast 2 .undisturbed defaultClaimTtlMinutes
    ⟨1, "worker", .sqlite 0⟩ [] rfl (by rw [← hs]; decide +kernel) 1 (by rw [← hs]; decide +kernel)
  rw [hrow, Option.all_some, hclaimed, Option.all_some, hold] at hfresh
  cases hfresh

end WoodFiredTasks
