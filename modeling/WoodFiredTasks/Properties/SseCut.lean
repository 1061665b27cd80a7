import WoodFiredTasks.Router.SseClient
import Mathlib.Data.List.Induction
import Mathlib.Data.List.Nodup

set_option autoImplicit false

/-! # What a cut connection loses

Wherever a connection is cut by an error, the router has yielded the events that were received
completely and nothing else, and asks for the rest when it reconnects. At a clean end the parser is
flushed: what has arrived of an event is yielded as if it were all of it, and its id goes into the
next request, so the server does not send the event again. -/

namespace WoodFiredTasks.Router.Sse

/-! ## One connection -/

/-- The bytes among these reads. -/
def bytesOf (reads : List Read) : List UInt8 :=
  reads.flatMap fun
    | .chunk value => value
    | _ => []

/-- The text of some bytes from the beginning of a body. -/
def textOf (bytes : List UInt8) : List Char := (({} : TextDecoder).decode bytes).2

theorem textOf_append (xs ys : List UInt8) :
    textOf (xs ++ ys) = textOf xs ++ ((({} : TextDecoder).decode xs).1.decode ys).2 := by
  simp [textOf, TextDecoder.decode_append]

theorem completeEvents_eq (text : List Char) :
    completeEvents text = (Transducer.run SSEParser.step ([], {}) text).2 := by
  rw [SSEParser.run_step]

theorem completeEvents_append (text more : List Char) :
    completeEvents (text ++ more) = completeEvents text ++
      (Transducer.run SSEParser.step (Transducer.run SSEParser.step ([], {}) text).1 more).2 := by
  simp [completeEvents_eq, Transducer.run_append]

@[simp] theorem completeEvents_nil : completeEvents [] = [] := rfl

theorem yieldEvents_spec (env : ClientEnv) (events : List SSEEvent) (lastRealEventAt : Int)
    (readings : Nat) :
    (yieldEvents env events lastRealEventAt readings).yielded <+: events ∧
      ((yieldEvents env events lastRealEventAt readings).result = none →
        (yieldEvents env events lastRealEventAt readings).yielded = events) ∧
      ∀ result, (yieldEvents env events lastRealEventAt readings).result = some result →
        ∃ ms, result = .stale ms := by
  induction events generalizing lastRealEventAt readings with
  | nil => simp [yieldEvents]
  | cons event rest ih =>
    unfold yieldEvents
    by_cases hoff : env.staleResubscribeAfterMs = 0
    · simpa [hoff] using ih _ _
    · simp only [hoff, if_false]
      generalize (if (!isControlEvent event) = true then env.now readings else lastRealEventAt) = last
      generalize (if (!isControlEvent event) = true then readings + 1 else readings) = n
      by_cases hsilent : (env.staleResubscribeAfterMs : Int) ≤ env.now n - last
      · simp [hsilent]
      · simpa [hsilent] using ih _ _

/-- The loop has read these bytes. -/
structure LoopState.After (st : LoopState) (bytes : List UInt8) : Prop where
  decoder : st.decoder = (({} : TextDecoder).decode bytes).1
  parser : (st.parser.lineBuffer, st.parser.pending) =
    (Transducer.run SSEParser.step ([], {}) (textOf bytes)).1

/-- One chunk: the state after it, and the events that it completes. -/
theorem LoopState.After.chunk {st : LoopState} {bytes : List UInt8} (h : st.After bytes)
    (value : List UInt8) (lastRealEventAt : Int) (readings : Nat) :
    (⟨(st.decoder.decode value).1, (st.parser.feed (st.decoder.decode value).2).1, lastRealEventAt,
        readings⟩ : LoopState).After (bytes ++ value) ∧
      completeEvents (textOf (bytes ++ value)) =
        completeEvents (textOf bytes) ++ (st.parser.feed (st.decoder.decode value).2).2 := by
  have hfeed := SSEParser.feed_eq st.parser (st.decoder.decode value).2
  rw [h.parser] at hfeed
  have htext : textOf (bytes ++ value) = textOf bytes ++ (st.decoder.decode value).2 := by
    rw [textOf_append, h.decoder]
  refine ⟨⟨?_, ?_⟩, ?_⟩
  · rw [h.decoder, TextDecoder.decode_append]
  · rw [htext, Transducer.run_append]
    exact congrArg Prod.fst hfeed
  · rw [htext, completeEvents_append]
    exact congrArg _ (congrArg Prod.snd hfeed).symm

/-- What the loop yields after these bytes: nothing but the events that become complete, unless it
    reads the end of the body; then also what there is of an event. -/
theorem readLoop_spec (env : ClientEnv) (aborted : Bool) (reads : List Read) (st : LoopState)
    (bytes : List UInt8) (h : st.After bytes) :
    let loop := readLoop env aborted st reads
    let text := textOf (bytes ++ bytesOf loop.reads)
    (.done ∉ loop.reads →
      completeEvents (textOf bytes) ++ loop.yielded <+: completeEvents text) ∧
    (.done ∈ loop.reads → completeEvents (textOf bytes) ++ loop.yielded =
      completeEvents text ++ (eventOfBlock (openBlock text)).toList) ∧
    ((∀ ms, loop.result ≠ some (.stale ms)) →
      completeEvents text <+: completeEvents (textOf bytes) ++ loop.yielded) := by
  induction reads generalizing st bytes with
  | nil => simp [readLoop, bytesOf]
  | cons read rest ih =>
    cases read with
    | failed message => simp [readLoop, bytesOf]
    | done =>
      have hflush : st.parser.flush.2 = (eventOfBlock (openBlock (textOf bytes))).toList :=
        SSEParser.flush_of_run h.parser
      simp [readLoop, bytesOf, hflush]
    | chunk value =>
      obtain ⟨hafter, hevents⟩ := h.chunk value
        (yieldEvents env (st.parser.feed (st.decoder.decode value).2).2 st.lastRealEventAt
          st.readings).lastRealEventAt
        (yieldEvents env (st.parser.feed (st.decoder.decode value).2).2 st.lastRealEventAt
          st.readings).readings
      have hyield := yieldEvents_spec env (st.parser.feed (st.decoder.decode value).2).2
        st.lastRealEventAt st.readings
      obtain ⟨hpart, hall, hstale⟩ := hyield
      unfold readLoop
      dsimp only
      split
      · next result hresult =>
        -- the stream is deaf: the rest of the chunk is not yielded
        obtain ⟨ms, rfl⟩ := hstale _ hresult
        refine ⟨fun _ => ?_, by simp, fun hno => absurd rfl (hno ms)⟩
        simp only [bytesOf, List.flatMap_cons, List.flatMap_nil, List.append_nil, hevents]
        exact (List.prefix_append_right_inj _).2 hpart
      · next hresult =>
        obtain ⟨hopen, hdone, hkept⟩ := ih _ _ hafter
        rw [hevents] at hopen hdone hkept
        simp only [bytesOf, List.flatMap_cons, hall hresult, ← List.append_assoc,
          List.mem_cons, reduceCtorEq, false_or] at hopen hdone hkept ⊢
        exact ⟨hopen, hdone, hkept⟩

/-! ## Sessions -/

/-- The text that was received on a connection. -/
def Session.received (s : Session) : List Char := textOf (bytesOf s.run.reads)

/-- The client took the silence of the connection for deafness. -/
def Session.isStale (s : Session) : Bool :=
  match s.run.result with
  | some (.stale _) => true
  | _ => false

/-- The server has dropped the events that were asked for. -/
def Session.isGap (s : Session) : Bool :=
  match s.run.result with
  | some (.gap _) => true
  | _ => false

/-- The session is one of this client's. -/
def Session.Of (env : ClientEnv) (s : Session) : Prop :=
  ∃ readings, s.run = runOneConnection env s.connection readings

theorem Session.Of.spec {env : ClientEnv} {s : Session} (h : s.Of env) :
    (.done ∉ s.run.reads → s.run.yielded <+: completeEvents s.received) ∧
    (.done ∈ s.run.reads → s.run.yielded =
      completeEvents s.received ++ (eventOfBlock (openBlock s.received)).toList) ∧
    (s.isStale = false → completeEvents s.received <+: s.run.yielded) := by
  obtain ⟨readings, hrun⟩ := h
  have hnil : ∀ n result, s.run = ⟨[], [], n, result⟩ →
      (.done ∉ s.run.reads → s.run.yielded <+: completeEvents s.received) ∧
      (.done ∈ s.run.reads → s.run.yielded =
        completeEvents s.received ++ (eventOfBlock (openBlock s.received)).toList) ∧
      (s.isStale = false → completeEvents s.received <+: s.run.yielded) := by
    intro n result hs
    have hreceived : s.received = [] := by simp [Session.received, hs, bytesOf, textOf, TextDecoder.decode]
    simp [hs, hreceived]
  unfold runOneConnection at hrun
  cases hfetch : s.connection.fetch with
  | rejected message =>
    rw [hfetch] at hrun
    exact hnil _ _ hrun
  | response status body =>
    rw [hfetch] at hrun
    dsimp only at hrun
    split at hrun
    · exact hnil _ _ hrun
    · split at hrun
      · exact hnil _ _ hrun
      · cases body with
        | none => exact hnil _ _ hrun
        | some reads =>
          dsimp only at hrun
          split at hrun
          · have hspec := readLoop_spec env s.connection.aborted reads
              ⟨{}, createSSEParser, env.now readings, readings + 1⟩ [] ⟨rfl, rfl⟩
            rw [← hrun] at hspec
            obtain ⟨hopen, hdone, hkept⟩ := hspec
            refine ⟨hopen, hdone, fun hs => hkept fun ms hms => ?_⟩
            simp [Session.isStale, hms] at hs
          · exact hnil _ _ hrun

/-! ## Runs -/

/-- The id that an event leaves for the next connection. -/
def SSEEvent.realId (event : SSEEvent) : Option String :=
  event.id.filter fun id => !id.isEmpty

theorem nextId_eq (lastEventId : Option String) (event : SSEEvent) :
    nextId lastEventId event = event.realId.or lastEventId := by
  unfold nextId SSEEvent.realId
  cases event.id with
  | none => simp
  | some id => by_cases hid : id.isEmpty = true <;> simp [hid, Option.filter]

/-- Every session of the run is opened with what the ones before it have left. -/
def Chained (lastEventId : Option String) : List Session → Prop
  | [] => True
  | s :: rest =>
    s.lastEventId = lastEventId ∧
      Chained (if s.isGap then none else s.run.yielded.foldl nextId lastEventId) rest

theorem beforeReconnect_lastEventId {env : ClientEnv} {connection : Connection} {st st' : ClientState}
    (h : beforeReconnect env connection st = .ok st') : st'.lastEventId = st.lastEventId := by
  unfold beforeReconnect at h
  dsimp only at h
  split at h
  · cases h
  · split at h
    · cases h
      rfl
    · split at h
      · cases h
      · split at h
        · cases h
        · cases h
          rfl

theorem ClientState.fail_lastEventId (env : ClientEnv) (st : ClientState) :
    (st.fail env).lastEventId = st.lastEventId := by
  unfold ClientState.fail
  split <;> rfl

theorem afterConnection_lastEventId {env : ClientEnv} {connection : Connection}
    {result : ConnectionResult} {yielded : List SSEEvent} {st st' : ClientState}
    (h : afterConnection env connection result yielded st = .ok st') :
    st'.lastEventId =
      match result with
      | .gap _ => none
      | _ => yielded.foldl nextId st.lastEventId := by
  unfold afterConnection at h
  dsimp only at h
  split at h
  · cases h
  · cases result with
    | authFailed status => cases h
    | gap status =>
      cases h
      rfl
    | stale ms =>
      cases h
      by_cases hnone : yielded.isEmpty = true <;> simp [hnone]
    | closedClean =>
      have hid := beforeReconnect_lastEventId h
      rw [hid]
      by_cases hnone : yielded.isEmpty = true <;> simp [hnone, ClientState.fail_lastEventId]
    | networkError message =>
      have hid := beforeReconnect_lastEventId h
      rw [hid, ClientState.fail_lastEventId]
      by_cases hnone : yielded.isEmpty = true <;> simp [hnone]

theorem clientLoop_spec (env : ClientEnv) (connections : List Connection) (st : ClientState) :
    (∀ s ∈ (clientLoop env st connections).1, s.Of env) ∧
      Chained st.lastEventId (clientLoop env st connections).1 := by
  induction connections generalizing st with
  | nil => simp [clientLoop, Chained]
  | cons connection rest ih =>
    have hof : (⟨st.lastEventId, connection, runOneConnection env connection st.readings⟩ :
        Session).Of env := ⟨st.readings, rfl⟩
    unfold clientLoop
    dsimp only
    split
    · exact ⟨by simpa using hof, rfl, trivial⟩
    · next result hresult =>
      split
      · exact ⟨by simpa using hof, rfl, trivial⟩
      · next st' hnext =>
        have hid := afterConnection_lastEventId hnext
        obtain ⟨hofs, hchain⟩ := ih st'
        refine ⟨by simpa using ⟨hof, hofs⟩, rfl, ?_⟩
        rw [hid] at hchain
        cases result <;> simpa [Session.isGap, hresult] using hchain

theorem runSSEClient_spec (env : ClientEnv) (aborted : Bool) (connections : List Connection) :
    (∀ s ∈ (runSSEClient env aborted connections).1, s.Of env) ∧
      Chained none (runSSEClient env aborted connections).1 := by
  unfold runSSEClient
  split
  · simp [Chained]
  · exact clientLoop_spec env connections {}

/-! ## A server that replays -/

/-- Bytes that a server sends in one piece: an event, or a comment. They can be read at the
    beginning of a body and after any other frame. -/
structure Frame where
  bytes : List UInt8
  event : Option SSEEvent
  reads_as : ∀ bomSeen, Transducer.run (Transducer.comp TextDecoder.step SSEParser.step)
    (({}, bomSeen), ([], {})) bytes = ((({}, true), ([], {})), event.toList)

/-- The events after the one with this id. -/
def replayAfter (log : List SSEEvent) : Option String → List SSEEvent
  | none => log
  | some id => (log.dropWhile fun event => event.realId ≠ some id).tail

/-- The server sends, on this connection, what follows the id that it was asked for; the client
    gets some first part of it. Other frames may stand between the events. -/
def Serves (log : List SSEEvent) (s : Session) : Prop :=
  s.isGap = false ∧ ∃ frames : List Frame,
    (frames.filterMap Frame.event).filter (·.realId.isSome) = replayAfter log s.lastEventId ∧
      bytesOf s.run.reads <+: frames.flatMap Frame.bytes

/-- Every event has an id of its own. -/
def Numbered (log : List SSEEvent) : Prop :=
  (∀ event ∈ log, event.realId.isSome = true) ∧ (log.map SSEEvent.realId).Nodup

/-- The events that the router has got, but for those without an id. -/
def delivered (sessions : List Session) : List SSEEvent :=
  (sessions.flatMap (·.run.yielded)).filter (·.realId.isSome)

/-- The events of the session that had been received completely when they were yielded. -/
def Session.completelyYielded (s : Session) : List SSEEvent :=
  s.run.yielded.take (completeEvents s.received).length

/-- Nothing but complete events is yielded; a session is opened with no id or with that of the last
    complete event before it; complete events are yielded unless the client gives the connection up
    by itself; and of a server that replays, the router gets every event, as it was sent. -/
structure LosesNothing (sessions : List Session) : Prop where
  complete : ∀ s ∈ sessions, s.run.yielded <+: completeEvents s.received
  resumed : ∀ before s after, sessions = before ++ s :: after → s.lastEventId = none ∨
    s.lastEventId = (before.flatMap Session.completelyYielded).foldl nextId none
  kept : ∀ s ∈ sessions, s.isStale = false → completeEvents s.received <+: s.run.yielded
  replayed : ∀ log, Numbered log → (∀ s ∈ sessions, Serves log s) → delivered sessions <+: log

/-! ## The id of the next request -/

theorem foldl_nextId (events : List SSEEvent) (lastEventId : Option String) :
    events.foldl nextId lastEventId = (events.foldl nextId none).or lastEventId := by
  induction events generalizing lastEventId with
  | nil => simp
  | cons event rest ih =>
    rw [List.foldl_cons, List.foldl_cons, ih, ih (nextId none event), nextId_eq, nextId_eq,
      Option.or_none, Option.or_assoc]

/-- Events without an id leave the cursor where it is. -/
theorem foldl_nextId_filter (events : List SSEEvent) (lastEventId : Option String) :
    (events.filter (·.realId.isSome)).foldl nextId lastEventId =
      events.foldl nextId lastEventId := by
  induction events generalizing lastEventId with
  | nil => simp
  | cons event rest ih =>
    by_cases hid : event.realId.isSome = true
    · simp [hid, ih]
    · have hskip : nextId lastEventId event = lastEventId := by
        rw [nextId_eq, Option.not_isSome_iff_eq_none.1 hid, Option.none_or]
      simp [hid, ih, hskip]

theorem Chained.resumed {sessions : List Session} {lastEventId : Option String}
    (h : Chained lastEventId sessions) (seen : List SSEEvent)
    (hseen : lastEventId = none ∨ lastEventId = seen.foldl nextId none) :
    ∀ before s after, sessions = before ++ s :: after → s.lastEventId = none ∨
      s.lastEventId = (seen ++ before.flatMap (·.run.yielded)).foldl nextId none := by
  induction sessions generalizing lastEventId seen with
  | nil =>
    intro before s after hsplit
    simp at hsplit
  | cons x rest ih =>
    obtain ⟨hid, hrest⟩ := h
    intro before s after hsplit
    cases before with
    | nil =>
      obtain ⟨rfl, -⟩ := List.cons.inj hsplit
      simpa [hid] using hseen
    | cons y before =>
      obtain ⟨rfl, hsplit'⟩ := List.cons.inj hsplit
      have hnext : (if x.isGap then none else x.run.yielded.foldl nextId lastEventId) = none ∨
          (if x.isGap then none else x.run.yielded.foldl nextId lastEventId) =
            (seen ++ x.run.yielded).foldl nextId none := by
        by_cases hgap : x.isGap = true
        · simp [hgap]
        · rw [List.foldl_append, foldl_nextId x.run.yielded lastEventId,
            foldl_nextId x.run.yielded (seen.foldl nextId none)]
          rcases hseen with hseen | hseen
          · cases hlast : x.run.yielded.foldl nextId none <;> simp [hgap, hseen]
          · simp [hgap, hseen]
      simpa [List.append_assoc] using ih hrest (seen ++ x.run.yielded) hnext before s after hsplit'

/-! ## What a replaying server gets through -/

/-- Bytes in a row are read frame by frame. -/
theorem run_frames (frames : List Frame) (bomSeen : Bool) :
    (Transducer.run (Transducer.comp TextDecoder.step SSEParser.step)
      (({}, bomSeen), ([], {})) (frames.flatMap Frame.bytes)).2 = frames.filterMap Frame.event := by
  induction frames generalizing bomSeen with
  | nil => simp
  | cons frame rest ih =>
    rw [List.flatMap_cons, Transducer.run_append, frame.reads_as, ih true]
    cases hevent : frame.event <;> simp [hevent]

theorem completeEvents_textOf (bytes : List UInt8) :
    completeEvents (textOf bytes) = (Transducer.run (Transducer.comp TextDecoder.step SSEParser.step)
      (({}, false), ([], {})) bytes).2 := by
  rw [completeEvents_eq, Transducer.run_comp]
  rfl

theorem replayAfter_seen {seen rest : List SSEEvent} (h : Numbered (seen ++ rest)) :
    replayAfter (seen ++ rest) (seen.foldl nextId none) = rest := by
  obtain ⟨hids, hnodup⟩ := h
  cases seen using List.reverseRecOn with
  | nil => rfl
  | append_singleton seen event =>
    obtain ⟨id, hid⟩ := Option.isSome_iff_exists.1 (hids event (by simp))
    have hearlier : ∀ x ∈ seen, decide (x.realId ≠ some id) = true := by
      intro x hx
      have hne : x.realId ≠ event.realId := by
        rw [List.map_append, List.map_append, List.append_assoc] at hnodup
        exact (List.nodup_append.1 hnodup).2.2 _ (List.mem_map_of_mem hx) _ (by simp)
      simpa [hid] using hne
    have hlast : (seen ++ [event]).foldl nextId none = some id := by
      simp [nextId_eq, hid]
    rw [hlast, replayAfter, List.append_assoc, List.dropWhile_append_of_pos hearlier]
    simp [hid]

theorem delivered_prefix {log : List SSEEvent} (hlog : Numbered log) {sessions : List Session}
    (hcomplete : ∀ s ∈ sessions, s.run.yielded <+: completeEvents s.received)
    (hserves : ∀ s ∈ sessions, Serves log s) (seen rest : List SSEEvent)
    (hsplit : log = seen ++ rest) (hchain : Chained (seen.foldl nextId none) sessions) : delivered sessions <+: rest := by
  induction sessions generalizing seen rest with
  | nil => simp [delivered]
  | cons s sessions ih =>
    obtain ⟨hid, hchain⟩ := hchain
    obtain ⟨hgap, frames, hframes, hbytes⟩ := hserves s (by simp)
    rw [hid, hsplit, replayAfter_seen (hsplit ▸ hlog)] at hframes
    -- what was received is a first part of the frames, and what was yielded is one of that
    have hreceived : completeEvents s.received <+: frames.filterMap Frame.event := by
      rw [← run_frames frames false, Session.received, completeEvents_textOf]
      exact Transducer.run_mono _ hbytes
    have hyielded : s.run.yielded.filter (·.realId.isSome) <+: rest := by
      rw [← hframes]
      exact ((hcomplete s (by simp)).trans hreceived).filter _
    obtain ⟨rest', hrest'⟩ := hyielded
    have hnext : (if s.isGap then none else s.run.yielded.foldl nextId (seen.foldl nextId none)) =
        (seen ++ s.run.yielded.filter (·.realId.isSome)).foldl nextId none := by
      simp [hgap, foldl_nextId_filter]
    rw [hnext] at hchain
    have hdelivered := ih (fun x hx => hcomplete x (by simp [hx])) (fun x hx => hserves x (by simp [hx]))
      (seen ++ s.run.yielded.filter (·.realId.isSome)) rest'
      (by rw [hsplit, ← hrest', List.append_assoc]) hchain
    rw [← hrest', delivered, List.flatMap_cons, List.filter_append]
    exact (List.prefix_append_right_inj _).2 hdelivered

/-! ## When nothing is lost -/

/-- **Main theorem.** Nothing is lost exactly if no body that was read to its end ends within an
    event. -/
theorem runSSEClient_losesNothing (env : ClientEnv) (aborted : Bool)
    (connections : List Connection) :
    LosesNothing (runSSEClient env aborted connections).1 ↔
      ∀ s ∈ (runSSEClient env aborted connections).1, .done ∈ s.run.reads →
        betweenEvents s.received = true := by
  obtain ⟨hof, hchain⟩ := runSSEClient_spec env aborted connections
  constructor
  · intro h s hs hdone
    have hflushed := (hof s hs).spec.2.1 hdone
    have hlength := (h.complete s hs).length_le
    rw [hflushed, List.length_append] at hlength
    rw [betweenEvents, ← eventOfBlock_eq_none]
    cases hevent : eventOfBlock (openBlock s.received) with
    | none => rfl
    | some event =>
      rw [hevent, Option.toList_some, List.length_singleton] at hlength
      omega
  · intro h
    have hcomplete : ∀ s ∈ (runSSEClient env aborted connections).1,
        s.run.yielded <+: completeEvents s.received := by
      intro s hs
      obtain ⟨hopen, hdone, -⟩ := (hof s hs).spec
      by_cases hend : Read.done ∈ s.run.reads
      · rw [hdone hend, eventOfBlock_eq_none.2 (h s hs hend)]
        simp
      · exact hopen hend
    refine ⟨hcomplete, fun before s after hsplit => ?_, fun s hs => (hof s hs).spec.2.2,
      fun log hlog hserves => delivered_prefix hlog hcomplete hserves [] log rfl hchain⟩
    have hall : before.flatMap Session.completelyYielded = before.flatMap (·.run.yielded) := by
      refine List.flatMap_congr fun x hx => ?_
      exact List.take_of_length_le (hcomplete x (by simp [hsplit, hx])).length_le
    rw [hall]
    simpa using hchain.resumed [] (.inl rfl) before s after hsplit

/-! ## Samples -/

def ascii (text : String) : List UInt8 := text.toList.map fun c => UInt8.ofNat c.toNat

def sampleEvent : SSEEvent :=
  { id := some "5", event := some "task.created", data := "\x7b\"id\":12\x7d" }

/-- The event as the server sends it. -/
def sampleFrame : Frame where
  bytes := ascii "id: 5\nevent: task.created\ndata: \x7b\"id\":12\x7d\n\n"
  event := some sampleEvent
  reads_as bomSeen := by cases bomSeen <;> decide +kernel

def sampleEnv : ClientEnv where
  url := "http://localhost:3000/api/v1/events"
  apiKey := "wft_pat_1"
  now _ := 0

/-- The server closes the stream after a part of the event; the router connects again. -/
def sampleRun : List Session :=
  (runSSEClient sampleEnv false
    [{ fetch := .response 200
        (some [.chunk (ascii "id: 5\nevent: task.created\nda"), .chunk (ascii "ta: \x7b\"i"), .done]) },
     { fetch := .response 200 (some []) }]).1

theorem sampleRun_sent :
    sampleRun.map (fun s => (s.isGap, s.lastEventId, bytesOf s.run.reads)) =
      [(false, none, ascii "id: 5\nevent: task.created\ndata: \x7b\"i"), (false, some "5", [])] := by
  decide +kernel

/-- The server replays what it is asked for. -/
theorem sampleRun_served : ∀ s ∈ sampleRun, Serves [sampleEvent] s := by
  intro s hs
  have hsent := List.mem_map_of_mem (f := fun s => (s.isGap, s.lastEventId, bytesOf s.run.reads)) hs
  rw [sampleRun_sent, List.mem_cons, List.mem_singleton, Prod.mk.injEq, Prod.mk.injEq] at hsent
  rcases hsent with ⟨hgap, hid, hbytes⟩ | hsent
  · refine ⟨hgap, [sampleFrame], ?_, ?_⟩
    · rw [hid]
      decide
    · rw [hbytes]
      decide
  · simp only [Prod.mk.injEq] at hsent
    obtain ⟨hgap, hid, hbytes⟩ := hsent
    refine ⟨hgap, [], ?_, ?_⟩
    · rw [hid]
      decide
    · simp [hbytes]

/-- What there is of the event is yielded, and the event is not asked for again. -/
theorem sampleRun_loses :
    sampleRun.map (fun s => (s.lastEventId, s.run.yielded)) =
      [(none, [{ sampleEvent with data := "\x7b\"i" }]), (some "5", [])] ∧
    ¬ LosesNothing sampleRun := by
  refine ⟨by decide +kernel, fun h => ?_⟩
  have hdelivered : delivered sampleRun = [{ sampleEvent with data := "\x7b\"i" }] := by
    decide +kernel
  have hpart := h.replayed [sampleEvent] ⟨by decide, by decide⟩ sampleRun_served
  rw [hdelivered] at hpart
  exact absurd hpart (by decide)

end WoodFiredTasks.Router.Sse
