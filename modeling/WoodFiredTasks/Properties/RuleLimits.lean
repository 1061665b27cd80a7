import WoodFiredTasks.Router.Budget

set_option autoImplicit false

/-! # The limits of a rule

A rule may set its own `max_dispatches_per_minute` and `debounce_ms`. The daemon builds its rate
limiter and its debouncer from the defaults alone, so these limits hold as far as they agree with
the defaults (`limits_honoured`) and are ignored where they do not (`limits_ignored`). -/

namespace WoodFiredTasks.Router

/-- A rule with the `max_dispatches_per_minute` that it sets, which no function of the daemon
    reads. -/
structure LimitedRule extends Rule where
  maxDispatchesPerMinute : Option Nat := none

namespace WftRouterDaemon

variable {d : WftRouterDaemon} {key : String} {payload : DispatchPayload}

/-! ## The time between two events -/

/-- The move neither pushes under the key nor flushes the buckets. -/
def Move.quiet (key : String) : Move → Bool
  | .dispatchRule rule mapped =>
    rule.debounceMs = some 0 || compoundKey rule.name (eventKey mapped) ≠ key
  | .stop => false
  | _ => true

/-- The time that the timers see. -/
def Move.elapsed : Move → Nat
  | .wait ms => ms
  | _ => 0

def elapsed : List Move → Nat
  | [] => 0
  | m :: rest => m.elapsed + elapsed rest

/-- The payload was pushed under the key so long ago: it waits while the window is open. -/
structure Waits (d : WftRouterDaemon) (key : String) (payload : DispatchPayload)
    (since : Nat) : Prop where
  pending : since < windowMs d.deps → ∃ b ∈ d.buckets, b.key = key ∧ b.latestPayload = payload ∧
    b.deadline + since = d.now + windowMs d.deps
  gone : windowMs d.deps ≤ since → ∀ b ∈ d.buckets, b.key ≠ key

namespace Waits

variable {since : Nat}

theorem congr {d' : WftRouterDaemon} (h : Waits d key payload since) (hdeps : d'.deps = d.deps)
    (hnow : d'.now = d.now) (hbuckets : d'.buckets = d.buckets) : Waits d' key payload since := by
  obtain ⟨hpending, hgone⟩ := h
  exact ⟨by rwa [hdeps, hnow, hbuckets], by rwa [hdeps, hbuckets]⟩

/-- A push begins the wait. -/
theorem of_push (rule : Rule) (hwindow : 0 < windowMs d.deps) :
    Waits (d.push key payload rule) key payload 0 := by
  obtain ⟨b, hbuckets, hkey, hpayload, hdeadline, -⟩ := InOrder.push_buckets d key payload rule
  refine ⟨fun _ => ⟨b, ?_, hkey, hpayload, hdeadline⟩, fun hnone => absurd hnone (by
    show ¬ windowMs d.deps ≤ 0
    omega)⟩
  rw [hbuckets]
  exact List.mem_append_right _ (List.mem_singleton_self b)

/-- A push under another key changes nothing. -/
theorem push_of_ne (h : Waits d key payload since) {key' : String} (hne : key' ≠ key)
    (payload' : DispatchPayload) (rule : Rule) :
    Waits (d.push key' payload' rule) key payload since := by
  obtain ⟨b', hbuckets, hkey', -⟩ := InOrder.push_buckets d key' payload' rule
  constructor
  · intro hopen
    obtain ⟨b, hb, hkey, hrest⟩ := h.pending hopen
    refine ⟨b, ?_, hkey, hrest⟩
    rw [hbuckets]
    refine List.mem_append_left _ (List.mem_filter.2 ⟨hb, ?_⟩)
    simpa [hkey] using hne.symm
  · intro hclosed b hb
    rw [hbuckets, List.mem_append, List.mem_singleton] at hb
    rcases hb with hb | rfl
    · exact h.gone hclosed b (List.mem_of_mem_filter hb)
    · rw [hkey']
      exact hne

theorem dispatchRule (h : Waits d key payload since) {rule : Rule} {mapped : MappedEvent}
    (hquiet : (Move.dispatchRule rule mapped).quiet key = true) :
    Waits (d.dispatchRule rule mapped) key payload since := by
  have hseen : Waits { d with seen := d.seen ++ [dispatchPayload rule mapped] } key payload since :=
    h.congr rfl rfl rfl
  unfold WftRouterDaemon.dispatchRule
  dsimp only
  split
  · have hqueue := SameQueue.dispatch { d with seen := d.seen ++ [dispatchPayload rule mapped] }
      rule (dispatchPayload rule mapped)
    exact hseen.congr hqueue.deps now_dispatch hqueue.buckets
  · next hpush =>
    have hne : compoundKey rule.name (eventKey mapped) ≠ key := by
      simpa [Move.quiet, hpush] using hquiet
    exact hseen.push_of_ne hne _ rule

/-- When the window closes, the payload goes. -/
theorem wait (h : Waits d key payload since) (horder : InOrder d) (ms : Nat) :
    Waits (d.wait ms) key payload (since + ms) := by
  have hdeps : (d.wait ms).deps = d.deps := (SameQueue.foldl SameQueue.fireTimer _ _).deps
  have hbuckets : (d.wait ms).buckets = d.buckets.filter (d.now + ms < ·.deadline) :=
    (SameQueue.foldl SameQueue.fireTimer _ _).buckets.trans
      (dropWhile_deadline (d.now + ms) horder.sorted)
  have hnow : (d.wait ms).now = d.now + ms := rfl
  constructor
  · intro hopen
    rw [hdeps] at hopen ⊢
    obtain ⟨b, hb, hkey, hpayload, hdeadline⟩ := h.pending (by omega)
    refine ⟨b, ?_, hkey, hpayload, by rw [hnow]; omega⟩
    rw [hbuckets]
    refine List.mem_filter.2 ⟨hb, decide_eq_true ?_⟩
    omega
  · intro hclosed b hb hkey
    rw [hdeps] at hclosed
    rw [hbuckets, List.mem_filter] at hb
    have hlate : d.now + ms < b.deadline := by simpa using hb.2
    by_cases hopen : since < windowMs d.deps
    · -- it is the bucket of the payload, whose timer has fired
      obtain ⟨b', hb', hkey', -, hdeadline⟩ := h.pending hopen
      have hsame : b = b' :=
        List.inj_on_of_nodup_map horder.keys hb.1 hb' (hkey.trans hkey'.symm)
      rw [hsame] at hlate
      omega
    · exact h.gone (by omega) b hb.1 hkey

theorem setClock (h : Waits d key payload since) (horder : InOrder d) (clock : Nat) :
    Waits (d.setClock clock) key payload since := by
  constructor
  · intro hopen
    obtain ⟨b, hb, hkey, hpayload, hdeadline⟩ := h.pending hopen
    have hcoming := (horder.coming b hb).1
    refine ⟨_, List.mem_map_of_mem hb, hkey, hpayload, ?_⟩
    show clock + (b.deadline - d.now) + since = clock + windowMs d.deps
    omega
  · intro hclosed b hb
    obtain ⟨b', hb', rfl⟩ := List.mem_map.1 hb
    exact h.gone hclosed b' hb'

theorem move (h : Waits d key payload since) (horder : InOrder d) {m : Move}
    (hquiet : m.quiet key = true) : Waits (d.move m) key payload (since + m.elapsed) := by
  cases m with
  | dispatchRule rule mapped => exact h.dispatchRule hquiet
  | wait ms => exact h.wait horder ms
  | settle i result =>
    show Waits (d.settle i result) key payload since
    unfold settle
    split
    · exact h
    · exact h.congr rfl rfl rfl
  | stop => simp [Move.quiet] at hquiet
  | setClock clock => exact h.setClock horder clock

theorem run {moves : List Move} (h : Waits d key payload since) (horder : InOrder d)
    (hparsed : ∀ m ∈ moves, m.parsed = true) (hquiet : ∀ m ∈ moves, m.quiet key = true) :
    Waits (moves.foldl WftRouterDaemon.move d) key payload (since + elapsed moves) := by
  induction moves generalizing d since with
  | nil => exact h
  | cons m rest ih =>
    have hnext := h.move horder (hquiet m List.mem_cons_self)
    rw [elapsed, ← Nat.add_assoc]
    exact ih hnext (moveOk horder (hparsed m List.mem_cons_self)).order
      (fun m' hm' => hparsed m' (List.mem_cons_of_mem _ hm'))
      fun m' hm' => hquiet m' (List.mem_cons_of_mem _ hm')

/-- The next push under the key takes the place of the payload, if that still waits. -/
theorem replaced (h : Waits d key payload since) (horder : InOrder d) :
    (Debouncer.replaced d.buckets key).toList =
      if since < windowMs d.deps then [payload] else [] := by
  unfold Debouncer.replaced
  by_cases hopen : since < windowMs d.deps
  · obtain ⟨b, hb, hkey, hpayload, -⟩ := h.pending hopen
    cases hfind : d.buckets.find? (·.key = key) with
    | none => exact absurd hkey (by simpa using List.find?_eq_none.1 hfind b hb)
    | some b' =>
      have hkey' : b'.key = key := by simpa using List.find?_some hfind
      have hsame : b' = b := List.inj_on_of_nodup_map horder.keys
        (List.mem_of_find?_eq_some hfind) hb (hkey'.trans hkey.symm)
      simp [hopen, hsame, hpayload]
  · have hfind : d.buckets.find? (·.key = key) = none := by
      simpa using h.gone (Nat.le_of_not_lt hopen)
    simp [hopen, hfind]

end Waits

/-! ## The result -/

/-- What the limits of a rule promise for every run of a process: in an interval of `length`
    milliseconds a handler is called for the rule at most `m + m * length / 60000` times; and of
    two events of a task that follow each other, the second takes the place of the first exactly
    when it comes within the rule's window. -/
structure LimitsHonoured (deps : DaemonDeps) (now : Nat) (store : IdempotencyStore)
    (rule : LimitedRule) : Prop where
  rate : ∀ m, rule.maxDispatchesPerMinute = some m →
    ∀ (before during : List Move) (start length : ℚ),
      (∀ a ∈ before ++ during, a.parsed = true) →
      let d := before.foldl move { deps, now, store }
      Always move (fun d => start ≤ (d.now : ℚ) ∧ (d.now : ℚ) ≤ start + length) d during →
      ((during.foldl move d).callsFor rule.name : ℚ) ≤
        d.callsFor rule.name + (m + m * length / 60000)
  debounce : ∀ w, rule.debounceMs = some w → w ≠ 0 →
    ∀ (before between : List Move) (first second : MappedEvent),
      (∀ a ∈ before ++ .dispatchRule rule.toRule first :: between, a.parsed = true) →
      eventKey second = eventKey first →
      (∀ a ∈ between, a.quiet (compoundKey rule.name (eventKey first)) = true) →
      let d := (before ++ .dispatchRule rule.toRule first :: between).foldl move
        { deps, now, store }
      (d.dispatchRule rule.toRule second).merged =
        d.merged ++ if elapsed between < w then [dispatchPayload rule.toRule first] else []

theorem inOrder_start (deps : DaemonDeps) (now : Nat) (store : IdempotencyStore) :
    InOrder { deps, now, store } := by
  refine ⟨?_, ?_, ?_, ?_⟩ <;> simp

/-- In every interval the calls for a rule are at most what the defaults allow. -/
theorem callsFor_le (deps : DaemonDeps) (now : Nat) (store : IdempotencyStore) (ruleId : String)
    {before during : List Move} {start length : ℚ}
    (hparsed : ∀ a ∈ before ++ during, a.parsed = true)
    (hwithin : Always move (fun d => start ≤ (d.now : ℚ) ∧ (d.now : ℚ) ≤ start + length)
      (before.foldl move { deps, now, store }) during) :
    0 ≤ length ∧
    ((during.foldl move (before.foldl move { deps, now, store })).callsFor ruleId : ℚ) ≤
      (before.foldl move { deps, now, store }).callsFor ruleId +
        (tokensPerMinute deps + length * (tokensPerMinute deps / 60000)) := by
  have hlength : 0 ≤ length := by
    have hbounds := hwithin.start
    linarith
  have hrate : (0 : ℚ) ≤ tokensPerMinute deps / 60000 := by positivity
  -- what was spent before leaves the buckets within their bounds
  obtain ⟨horder, earlier, hearlier⟩ := run_moves (inOrder_start deps now store)
    fun a ha => hparsed a (List.mem_append_left during ha)
  have hbounded : TokenBuckets.Bounded (tokensPerMinute deps : ℚ)
      (before.foldl move { deps, now, store }).rateLimiter.whole := by
    rw [hearlier.limiter]
    exact TokenBuckets.bounded_start.run (Nat.cast_nonneg _) hrate earlier
  obtain ⟨calls, hcalls, htimes⟩ := spent_run horder
    (fun a ha => hparsed a (List.mem_append_right before ha)) hwithin
  have hgrants : (TokenBuckets.grants (tokensPerMinute deps : ℚ) (tokensPerMinute deps / 60000) ruleId
      (before.foldl move { deps, now, store }).rateLimiter.whole calls : ℚ) ≤
      tokensPerMinute deps + length * (tokensPerMinute deps / 60000) :=
    TokenBuckets.grants_le_of_within hbounded (Nat.cast_nonneg _) hrate hlength calls
      fun c hc _ => htimes c hc
  have hcapacity : (before.foldl move { deps, now, store }).capacity = tokensPerMinute deps := by
    rw [capacity, hearlier.deps]
  refine ⟨hlength, ?_⟩
  rw [hcalls.calls ruleId, Nat.cast_add, hcapacity]
  exact add_le_add_right hgrants _

/-- The second of two events of a task takes the place of the first while the window is open. -/
theorem merged_second {w : Nat} {rule : Rule} (horder : InOrder d) (hw : rule.debounceMs = some w)
    (hne : w ≠ 0) (hwindow : windowMs d.deps = w) {between : List Move} {first second : MappedEvent}
    (hfirst : (Move.dispatchRule rule first).parsed = true)
    (hbetween : ∀ a ∈ between, a.parsed = true) (hkey : eventKey second = eventKey first)
    (hquiet : ∀ a ∈ between, a.quiet (compoundKey rule.name (eventKey first)) = true) :
    ((between.foldl move (d.dispatchRule rule first)).dispatchRule rule second).merged =
      (between.foldl move (d.dispatchRule rule first)).merged ++
        if elapsed between < w then [dispatchPayload rule first] else [] := by
  have hdebounced : ¬ rule.debounceMs = some 0 := by
    rw [hw]
    simpa using hne
  have hpush : ∀ (d : WftRouterDaemon) (mapped : MappedEvent), d.dispatchRule rule mapped =
      { d with seen := d.seen ++ [dispatchPayload rule mapped] }.push
        (compoundKey rule.name (eventKey mapped)) (dispatchPayload rule mapped) rule := by
    intro d mapped
    unfold dispatchRule
    dsimp only
    rw [if_neg hdebounced]
  have hopen : 0 < windowMs { d with seen := d.seen ++ [dispatchPayload rule first] }.deps := by
    show 0 < windowMs d.deps
    omega
  have hwaits : Waits (d.dispatchRule rule first) (compoundKey rule.name (eventKey first))
      (dispatchPayload rule first) 0 := by
    rw [hpush]
    exact Waits.of_push rule hopen
  have hpushed : InOrder (d.dispatchRule rule first) := (moveOk horder hfirst).order
  have hdeps : (d.dispatchRule rule first).deps = d.deps := by
    rw [hpush]
    rfl
  obtain ⟨hlast, calls, hcalls⟩ := run_moves hpushed hbetween
  have hreplaced := (hwaits.run hpushed hbetween hquiet).replaced hlast
  rw [hcalls.deps, hdeps, hwindow, Nat.zero_add] at hreplaced
  rw [hpush _ second, hkey, ← hreplaced]
  rfl

/-- **Main theorem.** The limits of a rule hold in every run of a process if the defaults allow no
    more dispatches than the rule and have the window of the rule. -/
theorem limits_honoured (deps : DaemonDeps) (now : Nat) (store : IdempotencyStore)
    (rule : LimitedRule)
    (hrate : ∀ m, rule.maxDispatchesPerMinute = some m → tokensPerMinute deps ≤ m)
    (hwindow : ∀ w, rule.debounceMs = some w → w ≠ 0 → windowMs deps = w) :
    LimitsHonoured deps now store rule := by
  constructor
  · intro m hm before during start length hparsed d hwithin
    obtain ⟨hlength, hcalls⟩ := callsFor_le deps now store rule.name hparsed hwithin
    have hle : (tokensPerMinute deps : ℚ) ≤ m := Nat.cast_le.2 (hrate m hm)
    refine hcalls.trans (add_le_add_right ?_ _)
    calc (tokensPerMinute deps : ℚ) + length * (tokensPerMinute deps / 60000)
        ≤ m + length * (m / 60000) := by gcongr
      _ = m + m * length / 60000 := by ring
  · intro w hw hne before between first second hparsed hkey hquiet d
    obtain ⟨horder, earlier, hearlier⟩ := run_moves (inOrder_start deps now store)
      fun a ha => hparsed a (List.mem_append_left _ ha)
    have hfirst := hparsed _ (List.mem_append_right before List.mem_cons_self)
    have hbetween : ∀ a ∈ between, a.parsed = true :=
      fun a ha => hparsed a (List.mem_append_right before (List.mem_cons_of_mem _ ha))
    have hd : d = between.foldl move
        ((before.foldl move { deps, now, store }).dispatchRule rule.toRule first) :=
      List.foldl_append
    rw [hd]
    exact merged_second horder hw hne (by rw [hearlier.deps]; exact hwindow w hw hne) hfirst
      hbetween hkey hquiet

/-! A daemon without defaults of its own: 60 dispatches a minute and a window of 1500 ms. -/

def limitedRule (maxDispatchesPerMinute debounceMs : Nat) : LimitedRule where
  name := "notify"
  on := .taskUpdated
  doHandler := .webhookPost
  withBlock := [("url", .str "https://first.local")]
  debounceMs := some debounceMs
  maxDispatchesPerMinute := some maxDispatchesPerMinute

def limitedDeps (rule : LimitedRule) : DaemonDeps where
  config := { rules := [rule.toRule] }
  apiBaseUrl := "https://tasks.local"
  apiKey := "key"
  env := fun _ => none

def updateOf (eventId : String) : MappedEvent where
  payload := { type := "task.updated", task := some { id := some 7 } }
  eventId
  emittedAtMs := none
  origin := none

/-- The theorem at a rule that sets what the defaults are. -/
theorem limits_honoured_default :
    LimitsHonoured (limitedDeps (limitedRule 60 1500)) 0 .empty (limitedRule 60 1500) := by
  refine limits_honoured (limitedDeps (limitedRule 60 1500)) 0 .empty (limitedRule 60 1500)
    (fun m hm => ?_) fun w hw _ => ?_
  · rw [← Option.some.inj hm]
    decide
  · rw [← Option.some.inj hw]
    rfl

/-- A rule with one dispatch a minute gets two at once; one with a window of 100 ms merges events
    that come 200 ms apart. The loader accepts both. -/
theorem limits_ignored :
    ((limitedDeps (limitedRule 1 0)).config.accepted = true ∧
      ¬ LimitsHonoured (limitedDeps (limitedRule 1 0)) 0 .empty (limitedRule 1 0)) ∧
    ((limitedDeps (limitedRule 60 100)).config.accepted = true ∧
      ¬ LimitsHonoured (limitedDeps (limitedRule 60 100)) 0 .empty (limitedRule 60 100)) := by
  refine ⟨⟨by decide +kernel, fun h => ?_⟩, by decide +kernel, fun h => ?_⟩
  · have hzero : ∀ d : WftRouterDaemon, d.now = 0 → (0 : ℚ) ≤ d.now ∧ (d.now : ℚ) ≤ 0 + 0 := by
      intro d hd
      simp [hd]
    have hrate := h.rate 1 rfl []
      [.dispatchRule (limitedRule 1 0).toRule (updateOf "1"),
        .dispatchRule (limitedRule 1 0).toRule (updateOf "2")] 0 0 (by decide +kernel)
      ⟨hzero _ rfl, hzero _ (by decide +kernel), hzero _ (by decide +kernel)⟩
    have hcalls : (([.dispatchRule (limitedRule 1 0).toRule (updateOf "1"),
        .dispatchRule (limitedRule 1 0).toRule (updateOf "2")] : List Move).foldl move
          { deps := limitedDeps (limitedRule 1 0), now := 0 }).callsFor "notify" = 2 := by
      decide +kernel
    rw [List.foldl_nil, show (limitedRule 1 0).name = "notify" from rfl, hcalls] at hrate
    norm_num [callsFor] at hrate
  · have hmerged := h.debounce 100 rfl (by decide) [] [.wait 200] (updateOf "1") (updateOf "2")
      (by decide +kernel) rfl (by decide +kernel)
    have hlength := congrArg List.length hmerged
    revert hlength
    decide +kernel

end WftRouterDaemon

end WoodFiredTasks.Router
