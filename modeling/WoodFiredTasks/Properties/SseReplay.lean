import WoodFiredTasks.Events.SseManager
import WoodFiredTasks.Lib.ReplayLog
import WoodFiredTasks.Lib.Runs

set_option autoImplicit false

/-! # No silent loss on the event stream

The buffer retains a last part of what the running process has numbered, as long as its age filter
removes the older events first. So a client that comes back with a number of the same process gets
all it has missed, or is told of a gap (`sseReplay_complete`). A number from before a restart means
nothing to the new process: the client hears of no gap and misses events
(`sseReplay_incomplete`). -/

namespace WoodFiredTasks

/-- The client was told that events are missing. -/
def SseConnection.gapSignalled (conn : SseConnection) : Bool :=
  conn.frames.any fun frame => match frame with
    | .replayGap .. => true
    | .event .. => false

/-- The broadcast came later than the other. -/
def Broadcast.After (b b' : Broadcast) : Prop := b'.boot < b.boot ∨ b'.boot = b.boot ∧ b'.id < b.id

instance (b b' : Broadcast) : Decidable (b.After b') := inferInstanceAs (Decidable (_ ∨ _ ∧ _))

namespace SseManager

variable {conn : SseConnection} {buffer : List (Nat × EventPayload)} {n id : Nat}
  {event : EventPayload} {now : Nat}

/-! ## What is sent -/

@[simp] theorem filters_sendMatching (conn : SseConnection) (id : Nat) (event : EventPayload) :
    (sendMatching conn id event).filters = conn.filters := by
  unfold sendMatching
  split <;> rfl

@[simp] theorem resumedFrom_sendMatching (conn : SseConnection) (id : Nat) (event : EventPayload) :
    (sendMatching conn id event).resumedFrom = conn.resumedFrom := by
  unfold sendMatching
  split <;> rfl

@[simp] theorem gapSignalled_sendMatching (conn : SseConnection) (id : Nat) (event : EventPayload) :
    (sendMatching conn id event).gapSignalled = conn.gapSignalled := by
  unfold sendMatching
  split
  · simp [sendEvent, SseConnection.gapSignalled]
  · rfl

/-- Nothing that was sent is taken back. -/
theorem mem_frames_sendMatching {frame : Frame} (h : frame ∈ conn.frames) :
    frame ∈ (sendMatching conn id event).frames := by
  unfold sendMatching
  split
  · exact List.mem_append_left _ h
  · exact h

theorem event_mem_sendMatching (h : matchesFilters event conn.filters = true) :
    Frame.event id event ∈ (sendMatching conn id event).frames := by
  simp [sendMatching, h, sendEvent]

theorem event_mem_of_sendMatching {id' : Nat} {event' : EventPayload}
    (h : Frame.event id' event' ∈ (sendMatching conn id event).frames) :
    Frame.event id' event' ∈ conn.frames ∨ (id', event') = (id, event) := by
  unfold sendMatching at h
  split at h
  · simpa [sendEvent] using h
  · exact .inl h

/-- Sending a list of events sends nothing else. -/
theorem event_mem_of_sendAll {events : List (Nat × EventPayload)}
    (h : Frame.event id event ∈ (events.foldl (fun conn e => sendMatching conn e.1 e.2) conn).frames) :
    Frame.event id event ∈ conn.frames ∨ (id, event) ∈ events := by
  induction events generalizing conn with
  | nil => exact .inl h
  | cons e rest ih =>
    rcases ih h with hfirst | hrest
    · rcases event_mem_of_sendMatching hfirst with hold | heq
      · exact .inl hold
      · exact .inr (heq ▸ List.mem_cons_self)
    · exact .inr (List.mem_cons_of_mem _ hrest)

theorem event_mem_of_replayEvents
    (h : Frame.event id event ∈ (replayEvents buffer conn n).frames) :
    Frame.event id event ∈ conn.frames ∨ (id, event) ∈ buffer := by
  unfold replayEvents at h
  rcases event_mem_of_sendAll h with hold | hbuffer
  · refine .inl ?_
    split at hold
    · exact hold
    · simpa using hold
  · exact .inr (List.mem_of_mem_filter hbuffer)

/-- Sending a list of events leaves the rest of the connection alone and sends every event that
    matches. -/
theorem sendAll_spec (conn : SseConnection) (events : List (Nat × EventPayload)) :
    let sent := events.foldl (fun conn e => sendMatching conn e.1 e.2) conn
    sent.filters = conn.filters ∧ sent.resumedFrom = conn.resumedFrom ∧
      sent.gapSignalled = conn.gapSignalled ∧ (∀ frame ∈ conn.frames, frame ∈ sent.frames) ∧
      ∀ e ∈ events, matchesFilters e.2 conn.filters = true → Frame.event e.1 e.2 ∈ sent.frames := by
  induction events generalizing conn with
  | nil => simp
  | cons e rest ih =>
    obtain ⟨hfilters, hresumed, hgap, hkept, hsent⟩ := ih (sendMatching conn e.1 e.2)
    simp only [filters_sendMatching, resumedFrom_sendMatching, gapSignalled_sendMatching] at *
    refine ⟨hfilters, hresumed, hgap, fun frame h => hkept _ (mem_frames_sendMatching h), ?_⟩
    intro e' he' hmatch
    rcases List.mem_cons.1 he' with rfl | hrest
    · exact hkept _ (event_mem_sendMatching hmatch)
    · exact hsent e' hrest hmatch

/-- The replay sends every buffered event after the given number that matches, and signals a gap
    exactly when it finds one. -/
theorem replayEvents_spec (buffer : List (Nat × EventPayload)) (conn : SseConnection) (n : Nat) :
    (replayEvents buffer conn n).filters = conn.filters ∧
      (replayEvents buffer conn n).resumedFrom = conn.resumedFrom ∧
      (replayEvents buffer conn n).gapSignalled = (conn.gapSignalled || (hasGap buffer n).isSome) ∧
      ∀ e ∈ buffer, n < e.1 → matchesFilters e.2 conn.filters = true →
        Frame.event e.1 e.2 ∈ (replayEvents buffer conn n).frames := by
  unfold replayEvents
  cases hgap : hasGap buffer n with
  | none =>
    obtain ⟨hfilters, hresumed, hsame, -, hsent⟩ :=
      sendAll_spec conn (buffer.filter fun e => e.1 > n)
    refine ⟨hfilters, hresumed, by simpa using hsame, fun e he hn => hsent e ?_⟩
    exact List.mem_filter.2 ⟨he, by simpa using hn⟩
  | some earliest =>
    obtain ⟨hfilters, hresumed, hsame, -, hsent⟩ :=
      sendAll_spec { conn with frames := conn.frames ++ [.replayGap n earliest] }
        (buffer.filter fun e => e.1 > n)
    refine ⟨hfilters, hresumed, ?_, fun e he hn => hsent e ?_⟩
    · rw [hsame]
      simp [SseConnection.gapSignalled]
    · exact List.mem_filter.2 ⟨he, by simpa using hn⟩

/-- Without a gap, the first buffered number is at most the next one. -/
theorem head_le_of_hasGap (hn : 0 < n) (h : hasGap buffer n = none) :
    ∀ e ∈ buffer.head?, e.1 ≤ n + 1 := by
  intro e he
  rw [Option.mem_def] at he
  simp only [hasGap, hn, he, if_true, Option.map_some, Option.filter_eq_none_iff] at h
  have := h e.1 rfl
  simpa using this

end SseManager

namespace SseServer

variable {s : SseServer}

/-- While a client that came back is connected and was told of no gap, it has been sent, with this
    connection, every event since the one it came back from that matches its filters. -/
def NoSilentLoss (s : SseServer) : Prop :=
  ∀ conn ∈ s.manager.connections, conn.gapSignalled = false → ∀ b ∈ conn.resumedFrom,
    ∀ b' ∈ s.broadcasts, b'.After b → SseManager.matchesFilters b'.event conn.filters = true →
      b'.boot = s.boot ∧ Frame.event b'.id b'.event ∈ conn.frames

/-! ## The invariant -/

structure Inv (s : SseServer) : Prop where
  nextEventId : s.manager.nextEventId = s.log.length + 1
  retains : Retains s.manager.eventBuffer s.log
  past : ∀ b ∈ s.past, b.boot < s.boot
  ids : ∀ r ∈ s.received, 0 < r.2.id
  resumed : ∀ conn ∈ s.manager.connections, conn.gapSignalled = false → ∀ b ∈ conn.resumedFrom,
    b.boot = s.boot ∧ ∀ e ∈ numbered s.log, b.id < e.1 →
      SseManager.matchesFilters e.2 conn.filters = true → Frame.event e.1 e.2 ∈ conn.frames

theorem mem_broadcasts {b : Broadcast} : b ∈ s.broadcasts ↔
    b ∈ s.past ∨ b.boot = s.boot ∧ (b.id, b.event) ∈ numbered s.log := by
  unfold broadcasts
  rw [List.mem_append, List.mem_mapIdx, mem_numbered]
  refine or_congr_right ⟨?_, ?_⟩
  · rintro ⟨i, hi, rfl⟩
    exact ⟨rfl, i, List.getElem?_eq_getElem hi, rfl⟩
  · rintro ⟨hboot, i, hget, hid⟩
    obtain ⟨hi, hval⟩ := List.getElem?_eq_some_iff.1 hget
    refine ⟨i, hi, ?_⟩
    obtain ⟨boot, id, event⟩ := b
    simp_all

theorem Inv.noSilentLoss (h : s.Inv) : s.NoSilentLoss := by
  intro conn hconn hgap b hb b' hb' hafter hmatch
  obtain ⟨hboot, hsent⟩ := h.resumed conn hconn hgap b hb
  rcases mem_broadcasts.1 hb' with hpast | ⟨hboot', hlog⟩
  · have hlt := h.past b' hpast
    rcases hafter with hlater | ⟨hsame, -⟩ <;> omega
  · refine ⟨hboot', hsent _ hlog ?_ hmatch⟩
    rcases hafter with hlater | ⟨-, hid⟩
    · omega
    · exact hid

theorem inv_start (now : Nat) : Inv { now } where
  nextEventId := rfl
  retains := .nil
  past := by simp
  ids := by simp
  resumed := by simp

/-! ## What each step does -/

/-- Of the buffered events, the age filter removes older ones before younger ones, and not the one
    that is broadcast. -/
def PrunesInOrder (s : SseServer) : Action → Prop
  | .broadcast event =>
    ((SseManager.capped (s.manager.eventBuffer ++ [(s.manager.nextEventId, event)])).Pairwise
      fun e e' => SseManager.outlived s.now e'.2 = true → SseManager.outlived s.now e.2 = true) ∧
      SseManager.outlived s.now event = false
  | _ => True

/-- A client comes back to the process that numbered the last event it has under that number. -/
def ResumesInProcess (s : SseServer) : Action → Prop
  | .connect client _ _ lastEventId => ∀ b ∈ s.receivedAs client lastEventId, b.boot = s.boot
  | _ => True

/-- The buffer after a broadcast still retains a last part of the log. -/
theorem retains_prune (h : s.Inv) {event : EventPayload} (hprunes : s.PrunesInOrder (.broadcast event)) :
    Retains (SseManager.pruneEventBuffer s.now
      (s.manager.eventBuffer ++ [(s.manager.nextEventId, event)])) (s.log ++ [event]) := by
  obtain ⟨horder, hyoung⟩ := hprunes
  have hpush := h.retains.push event
  rw [← h.nextEventId] at hpush
  generalize hbuffer : s.manager.eventBuffer ++ [(s.manager.nextEventId, event)] = buffer at *
  -- the event that was just pushed survives both prunings
  have hlast : (s.manager.nextEventId, event) ∈ SseManager.capped buffer := by
    have hmem : ∀ k < buffer.length, (s.manager.nextEventId, event) ∈ buffer.drop k := by
      intro k hk
      rw [← hbuffer] at hk ⊢
      rw [List.drop_append_of_le_length (by simpa using Nat.le_of_lt_succ (by simpa using hk))]
      simp
    have hlength : 0 < buffer.length := by simp [← hbuffer]
    unfold SseManager.capped
    split
    · exact hmem _ (by unfold SseManager.maxBufferSize at *; omega)
    · exact hmem 0 hlength
  have hcapped : Retains (SseManager.capped buffer) (s.log ++ [event]) := by
    unfold SseManager.capped at hlast ⊢
    split at hlast
    · next hlong =>
      rw [if_pos hlong]
      exact hpush.drop fun _ => List.ne_nil_of_mem hlast
    · next hshort =>
      rw [if_neg hshort]
      exact hpush
  obtain ⟨k, hk⟩ := List.filter_eq_drop_of_pairwise (l := SseManager.capped buffer)
    (p := fun e => !SseManager.outlived s.now e.2) (horder.imp fun hab ha => by
      by_contra hb
      simp_all)
  unfold SseManager.pruneEventBuffer
  rw [hk]
  refine hcapped.drop fun _ => ?_
  rw [← hk]
  exact List.ne_nil_of_mem (List.mem_filter.2 ⟨hlast, by simp [hyoung]⟩)

theorem inv_broadcast (h : s.Inv) (event : EventPayload)
    (hprunes : s.PrunesInOrder (.broadcast event)) : (s.step (.broadcast event)).Inv where
  nextEventId := by simp [step, SseManager.broadcast, h.nextEventId]
  retains := retains_prune h hprunes
  past := h.past
  ids := by
    intro r hr
    rcases List.mem_append.1 hr with hold | hnew
    · exact h.ids r hold
    · obtain ⟨conn, -, rfl⟩ := List.mem_map.1 hnew
      have := h.nextEventId
      show 0 < s.manager.nextEventId
      omega
  resumed := by
    intro conn' hconn' hgap b hb
    obtain ⟨conn, hconn, rfl⟩ := List.mem_map.1 hconn'
    simp only [SseManager.gapSignalled_sendMatching, SseManager.resumedFrom_sendMatching,
      SseManager.filters_sendMatching] at hgap hb ⊢
    obtain ⟨hboot, hsent⟩ := h.resumed conn hconn hgap b hb
    refine ⟨hboot, fun e he hid hmatch => ?_⟩
    have he' : e ∈ numbered (s.log ++ [event]) := he
    rw [numbered_concat, List.mem_append, List.mem_singleton, ← h.nextEventId] at he'
    rcases he' with hold | rfl
    · exact SseManager.mem_frames_sendMatching (hsent e hold hid hmatch)
    · exact SseManager.event_mem_sendMatching hmatch

/-- What a new connection is sent has been numbered by this process. -/
theorem ids_opened (h : s.Inv) (conn : SseConnection) (hframes : conn.frames = [])
    (lastEventId : Option Nat) :
    ∀ b ∈ (s.manager.opened conn lastEventId).frames.filterMap (frameBroadcast s.boot), 0 < b.id := by
  intro b hb
  obtain ⟨frame, hframe, hb⟩ := List.mem_filterMap.1 hb
  cases frame with
  | replayGap requested earliest => cases hb
  | event id event =>
    obtain rfl := Option.some.inj hb
    unfold SseManager.opened at hframe
    cases lastEventId with
    | none => simp [hframes] at hframe
    | some n =>
      rcases SseManager.event_mem_of_replayEvents hframe with hold | hbuffer
      · simp [hframes] at hold
      · exact (h.retains.le_length hbuffer).1

/-- A client that names an id has received something under it. -/
theorem receivedAs_some {client n : Nat} {b : Broadcast} (h : s.receivedAs client (some n) = some b) :
    (client, b) ∈ s.received ∧ b.id = n := by
  have hmem := List.mem_of_getLast? h
  obtain ⟨r, hr, rfl⟩ := List.mem_map.1 hmem
  obtain ⟨hreceived, hsame⟩ := List.mem_filter.1 hr
  obtain ⟨rfl, hid⟩ := of_decide_eq_true hsame
  exact ⟨hreceived, hid⟩

theorem inv_connect (h : s.Inv) (client connectionId : Nat) (filters : SseFilters)
    (lastEventId : Option Nat)
    (hresumes : s.ResumesInProcess (.connect client connectionId filters lastEventId)) :
    (s.step (.connect client connectionId filters lastEventId)).Inv where
  nextEventId := h.nextEventId
  retains := h.retains
  past := h.past
  ids := by
    intro r hr
    rcases List.mem_append.1 hr with hold | hnew
    · exact h.ids r hold
    · obtain ⟨b, hb, rfl⟩ := List.mem_map.1 hnew
      exact ids_opened h _ rfl lastEventId b hb
  resumed := by
    intro conn hconn hgap b hb
    rcases List.mem_append.1 hconn with hold | hnew
    · exact h.resumed conn hold hgap b hb
    · obtain rfl := List.mem_singleton.1 hnew
      cases lastEventId with
      | none => cases hb
      | some n =>
        obtain ⟨hfilters, hresumed, hsignalled, hsent⟩ := SseManager.replayEvents_spec
          s.manager.eventBuffer (s.newConnection client connectionId filters (some n)) n
        simp only [SseManager.opened, hfilters, hresumed, hsignalled] at hgap hb ⊢
        obtain ⟨hreceived, rfl⟩ := receivedAs_some hb
        refine ⟨hresumes b hb, fun e he hid hmatch => hsent e ?_ hid hmatch⟩
        have hnogap : SseManager.hasGap s.manager.eventBuffer b.id = none := by
          simpa using (Bool.or_eq_false_iff.1 hgap).2
        exact h.retains.complete (SseManager.head_le_of_hasGap (h.ids _ hreceived) hnogap) he hid

theorem inv_restart (h : s.Inv) : (s.step .restart).Inv where
  nextEventId := rfl
  retains := .nil
  past := by
    intro b hb
    have hle : b.boot ≤ s.boot := by
      rcases mem_broadcasts.1 hb with hpast | ⟨hboot, -⟩
      · exact Nat.le_of_lt (h.past b hpast)
      · exact Nat.le_of_eq hboot
    exact Nat.lt_succ_of_le hle
  ids := h.ids
  resumed := by
    intro conn hconn
    cases hconn

/-- Every step that meets the conditions keeps the invariant. -/
theorem inv_step (h : s.Inv) (a : Action) (hprunes : s.PrunesInOrder a)
    (hresumes : s.ResumesInProcess a) : (s.step a).Inv := by
  cases a with
  | broadcast event => exact inv_broadcast h event hprunes
  | connect client connectionId filters lastEventId => exact inv_connect h _ _ _ _ hresumes
  | disconnect connectionId =>
    exact ⟨h.nextEventId, h.retains, h.past, h.ids,
      fun conn hconn => h.resumed conn (List.mem_of_mem_filter hconn)⟩
  | restart => exact inv_restart h
  | wait ms => exact ⟨h.nextEventId, h.retains, h.past, h.ids, h.resumed⟩

/-- **Main theorem.** In every run in which clients come back to the process that numbered what they
    name, and in which the age filter prunes in order, no event is lost silently. -/
theorem sseReplay_complete (now : Nat) (actions : List Action)
    (hresumes : RunOk step ResumesInProcess { now } actions)
    (hprunes : RunOk step PrunesInOrder { now } actions) :
    Always step NoSilentLoss { now } actions := by
  have hinv : Always step Inv { now } actions :=
    (hresumes.and hprunes).always (fun s a h hc => inv_step h a hc.2 hc.1) (inv_start now)
  exact hinv.mono fun s h => h.noSilentLoss

/-! ## Sample runs -/

instance (s : SseServer) : DecidablePred s.PrunesInOrder
  | .broadcast event => inferInstanceAs (Decidable
      ((SseManager.capped (s.manager.eventBuffer ++ [(s.manager.nextEventId, event)])).Pairwise _ ∧
        SseManager.outlived s.now event = false))
  | .connect .. | .disconnect _ | .restart | .wait _ => isTrue trivial

instance (s : SseServer) : DecidablePred s.ResumesInProcess
  | .connect client _ _ lastEventId =>
    inferInstanceAs (Decidable (∀ b ∈ s.receivedAs client lastEventId, b.boot = s.boot))
  | .broadcast _ | .disconnect _ | .restart | .wait _ => isTrue trivial

/-- A change of a project, at a time. -/
def projectUpdated (timestamp : Nat) : EventPayload where
  eventType := "project.updated"
  timestamp
  data := .project { id := 1, name := "project" }

/-- A client gets one event, misses one, and comes back. -/
def reconnect : List Action :=
  [.connect 1 1 {} none, .broadcast (projectUpdated 0), .disconnect 1, .broadcast (projectUpdated 0),
    .connect 1 2 {} (some 1)]

theorem sseReplay_complete_reconnect : Always step NoSilentLoss { now := 0 } reconnect :=
  sseReplay_complete 0 reconnect (by decide +kernel) (by decide +kernel)

/-- A client gets one event; the server restarts and broadcasts another one, and the client comes
    back with the number of the first. -/
def restarted : List Action :=
  [.connect 1 1 {} none, .broadcast (projectUpdated 0), .restart, .broadcast (projectUpdated 0),
    .connect 1 2 {} (some 1)]

/-- The second event has the number of the first: it is neither replayed nor is a gap signalled. -/
theorem sseReplay_incomplete :
    ¬ ∀ now actions, Always step NoSilentLoss { now } actions := by
  intro h
  have hlast := (h 0 restarted).last
  have hconn : (⟨2, {}, 1, [], 1, some ⟨0, 1, projectUpdated 0⟩⟩ : SseConnection) ∈
      (restarted.foldl step { now := 0 }).manager.connections := by
    decide +kernel
  obtain ⟨-, hsent⟩ := hlast _ hconn rfl _ rfl ⟨1, 1, projectUpdated 0⟩ (by decide +kernel)
    (by decide +kernel) rfl
  cases hsent

end SseServer

end WoodFiredTasks
