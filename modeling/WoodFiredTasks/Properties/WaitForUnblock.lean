import WoodFiredTasks.Lib.Runs
import WoodFiredTasks.Mcp.WaitForUnblock

set_option autoImplicit false

/-! # No wake-up is missed if the stream lasts and every wake-up comes through it

`timeout` should mean that the whole timeout has elapsed and that nothing opened the task in that
time, `unblocked` that something did. The remote tool also answers `timeout` when the server or the
network ends the stream, at whatever time: the server ends every stream after ten minutes, and the
longest timeout is thirty (`remote_not_honest`). Its two requests are independent, too, so the task
may be opened after it was read as blocked and before there is a stream, and another process that
writes to the database sends nothing on it.

The answers are honest in every run in which, when the tool gives up, the deadline has passed and
the frames of all the wake-ups before it have been read, and in which the timer is not so late that
the tool reads of a wake-up after the deadline (`waits_honest`). -/

namespace WoodFiredTasks.Mcp

/-- What an answer at a time means, given when the task was opened since the call began. -/
structure HonestAnswer (answer : Option WaitAnswer) (now deadline : Nat) (moves : List Nat) :
    Prop where
  timeout : answer = some .timeout → deadline ≤ now ∧ ∀ time ∈ moves, deadline ≤ time
  unblocked : answer = some .unblocked → ∃ time ∈ moves, time < deadline

/-! ## The stdio tool -/

namespace StdioWait

def Honest (s : StdioWait) : Prop := HonestAnswer s.answer s.now s.deadline s.moves

/-- The step opens the task. -/
def opens (s : StdioWait) : Step → Bool
  | .updateTask id status =>
    id == s.taskId && s.tasks id == some .blocked && status == .open
  | _ => false

/-- While the tool waits, the task is opened before the deadline: the timer is not late. -/
def Timely (s : StdioWait) (a : Step) : Bool :=
  s.opens a → s.current = some .blocked → s.settled = none → s.now < s.deadline

/-- How the subscription was settled says what happened. -/
structure Sound (s : StdioWait) : Prop where
  waiting : s.settled = none → s.moves = []
  gaveUp : s.settled = some .gaveUp → s.deadline ≤ s.now ∧ ∀ time ∈ s.moves, s.deadline ≤ time
  observed : s.current = some .blocked → s.settled = some .observed →
    ∃ time ∈ s.moves, time < s.deadline

theorem Sound.honest {s : StdioWait} (h : s.Sound) : s.Honest := by
  constructor
  · intro hanswer
    exact h.gaveUp (waitAnswer_timeout.1 hanswer).2
  · intro hanswer
    obtain ⟨hcurrent, hsettled⟩ := waitAnswer_unblocked hanswer
    exact h.observed hcurrent hsettled

theorem Sound.of_gaveUp {s : StdioWait} (hsettled : s.settled = some .gaveUp)
    (h : s.deadline ≤ s.now ∧ ∀ time ∈ s.moves, s.deadline ≤ time) : s.Sound :=
  ⟨by simp [hsettled], fun _ => h, by simp [hsettled]⟩

theorem Sound.of_observed {s : StdioWait} (hsettled : s.settled = some .observed)
    (h : s.current = some .blocked → ∃ time ∈ s.moves, time < s.deadline) : s.Sound :=
  ⟨by simp [hsettled], by simp [hsettled], fun hcurrent _ => h hcurrent⟩

theorem Sound.start (taskId now : Nat) (timeoutSeconds : Option Nat)
    (tasks : Nat → Option TaskStatus) : (start taskId now timeoutSeconds tasks).Sound := by
  constructor
  · intro _
    rfl
  · intro h
    simp only [StdioWait.start] at h
    split at h <;> contradiction
  · intro _ h
    simp only [StdioWait.start] at h
    split at h <;> contradiction

/-- An event that moves the task wakes the wait, and is one of its moves. -/
theorem Sound.updateTask {s : StdioWait} (h : s.Sound) (id : Nat) (status : TaskStatus)
    (htimely : s.Timely (.updateTask id status)) : (s.updateTask id status).Sound := by
  rw [StdioWait.updateTask]
  split
  · exact h
  rename_i old hold
  dsimp only
  split
  · exact ⟨h.waiting, h.gaveUp, h.observed⟩
  by_cases hunblocks : ({ id, fromStatus := old, toStatus := status } : StatusChanged).unblocks
      s.taskId = true
  · have hopens : s.opens (.updateTask id status) = true := by
      simp only [StatusChanged.unblocks, Bool.and_eq_true, beq_iff_eq] at hunblocks
      obtain ⟨⟨rfl, rfl⟩, rfl⟩ := hunblocks
      simp [opens, hold]
    rw [if_pos hunblocks, handle]
    split
    · rename_i hwaits
      refine .of_observed rfl fun hcurrent => ?_
      simp only [Timely, decide_eq_true_eq] at htimely
      exact ⟨s.now, by simp, htimely hopens hcurrent hwaits.1⟩
    · rename_i hsettled
      have hsome : s.settled ≠ none := fun hnone => hsettled ⟨hnone, hunblocks⟩
      refine ⟨fun hnone => absurd hnone hsome, fun hgaveUp => ?_, fun hcurrent hobserved => ?_⟩
      · obtain ⟨hdeadline, hmoves⟩ := h.gaveUp hgaveUp
        exact ⟨hdeadline, List.forall_mem_append.2 ⟨hmoves, by simpa using hdeadline⟩⟩
      · obtain ⟨time, hmem, htime⟩ := h.observed hcurrent hobserved
        exact ⟨time, List.mem_append_left _ hmem, htime⟩
  · rw [if_neg hunblocks, handle, if_neg (by simp [hunblocks])]
    exact ⟨h.waiting, h.gaveUp, h.observed⟩

theorem Sound.step {s : StdioWait} (h : s.Sound) (a : Step) (htimely : s.Timely a) :
    (s.step a).Sound := by
  cases a with
  | updateTask id status => exact h.updateTask id status htimely
  | writeElsewhere id status => exact ⟨h.waiting, h.gaveUp, h.observed⟩
  | tick ms =>
    refine ⟨h.waiting, fun hsettled => ?_, h.observed⟩
    obtain ⟨hdeadline, hmoves⟩ := h.gaveUp hsettled
    exact ⟨Nat.le_add_right_of_le hdeadline, hmoves⟩
  | fireTimer =>
    rw [StdioWait.step]
    split
    · rename_i hfires
      apply Sound.of_gaveUp rfl
      show s.deadline ≤ s.now ∧ ∀ time ∈ s.moves, s.deadline ≤ time
      rw [h.waiting hfires.1]
      exact ⟨hfires.2, by simp⟩
    · exact h
  | resume =>
    rw [StdioWait.step]
    split
    · exact ⟨h.waiting, h.gaveUp, h.observed⟩
    · exact h

end StdioWait

/-! ## What the loop reads -/

section
variable {env : RemoteEnv}

/-- The frame at this place of the stream ends the loop. -/
def wakesAt (env : RemoteEnv) (sent : List Frame) (i : Nat) : Prop :=
  ∃ frame, sent[i]? = some frame ∧ env.read frame.events = some .observed

theorem wakesAt_concat {sent : List Frame} {frame : Frame} {i : Nat} :
    wakesAt env (sent ++ [frame]) i ↔
      wakesAt env sent i ∨ i = sent.length ∧ env.read frame.events = some .observed := by
  unfold wakesAt
  by_cases hlt : i < sent.length
  · rw [List.getElem?_append_left hlt]
    simp [show i ≠ sent.length by omega]
  · by_cases heq : i = sent.length
    · subst heq
      simp
    · have hnone : (sent ++ [frame])[i]? = none := by
        rw [List.getElem?_eq_none_iff, List.length_append, List.length_singleton]
        omega
      have hnone' : sent[i]? = none := by
        rw [List.getElem?_eq_none_iff]
        omega
      simp [hnone, hnone', heq]

/-- Frames of which each goes on or ends the loop do so together. -/
theorem read_frames {frames : List Frame}
    (h : ∀ frame ∈ frames, env.read frame.events = none ∨ env.read frame.events = some .observed) :
    env.read (frames.flatMap Frame.events) = none ∧ (∀ i, ¬ wakesAt env frames i) ∨
      env.read (frames.flatMap Frame.events) = some .observed ∧ ∃ i, wakesAt env frames i := by
  induction frames with
  | nil => exact .inl ⟨rfl, by simp [wakesAt]⟩
  | cons frame rest ih =>
    rw [List.flatMap_cons, env.read_append]
    rcases h frame List.mem_cons_self with hfirst | hfirst
    · have hrest := ih fun f hf => h f (List.mem_cons_of_mem frame hf)
      rw [hfirst, Option.none_or]
      refine hrest.imp (fun hgoes => ⟨hgoes.1, fun i => ?_⟩) fun hends => ⟨hends.1, ?_⟩
      · cases i with
        | zero => simp [wakesAt, hfirst]
        | succ i => exact hgoes.2 i
      · obtain ⟨i, hi⟩ := hends.2
        exact ⟨i + 1, hi⟩
    · exact .inr ⟨by rw [hfirst, Option.some_or], 0, frame, rfl, hfirst⟩

/-- The first bytes end the loop exactly if they hold a frame that does. -/
theorem read_take (env : RemoteEnv) {sent : List Frame} (received : Nat)
    (h : ∀ frame ∈ sent, env.read frame.events = none ∨ env.read frame.events = some .observed) :
    let read :=
      env.read (Transducer.run readByte readStart ((sent.flatMap Frame.bytes).take received)).2
    read = none ∧ (∀ i < framesWithin sent received, ¬ wakesAt env sent i) ∨
      read = some .observed ∧ ∃ i < framesWithin sent received, wakesAt env sent i := by
  have htake : ∀ i, wakesAt env (sent.take (framesWithin sent received)) i ↔
      i < framesWithin sent received ∧ wakesAt env sent i := by
    intro i
    unfold wakesAt
    by_cases hlt : i < framesWithin sent received
    · simp [hlt]
    · simp [hlt]
  have hframes := read_frames fun (frame : Frame) (hmem : frame ∈ sent.take (framesWithin sent received)) =>
    h frame (List.mem_of_mem_take hmem)
  simp only [htake, not_and] at hframes
  rw [readStart, run_take]
  exact hframes

end

/-! ## The remote tool -/

namespace RemoteWait

variable {env : RemoteEnv}

def Honest (s : RemoteWait) : Prop :=
  HonestAnswer s.answer s.now s.deadline (s.moves.map Move.time)

/-- The step makes the tool answer `timeout`. -/
def givesUp (s : RemoteWait) : Step env → Bool
  | .cancelDone =>
    s.current == some (some .blocked) && s.settled == none && s.left == some .gaveUp
  | .fireTimer =>
    s.current == some (some .blocked) && s.settled == none && decide (s.deadline ≤ s.now)
  | .deliverRead =>
    s.current == none && s.snapshot == some (some .blocked) && s.settled == some .gaveUp
  | _ => false

/-- Each time that the task was opened before the deadline, the server sent a frame on the stream,
    and that frame was read to its end. -/
def hasRead (s : RemoteWait) : Bool :=
  s.moves.all fun move =>
    decide (s.deadline ≤ move.time) || move.frame.any (· < framesWithin s.sent s.received)

/-- The bytes complete the frame of no wake-up that comes too late, unless there is one in time. -/
def readsInTime (s : RemoteWait) (n : Nat) : Bool :=
  s.moves.any (fun move => decide (move.time < s.deadline)) ||
    s.moves.all fun move => move.frame.all (framesWithin s.sent (s.received + n) ≤ ·)

/-- The tool gives up after the deadline only, and with everything read that came before it; it
    reads nothing that comes after it. -/
def Timely (s : RemoteWait) (a : Step env) : Bool :=
  (!s.givesUp a || decide (s.deadline ≤ s.now) && s.left != some .observed && s.hasRead) &&
    match a with
    | .deliver n => !s.reading || s.readsInTime n
    | _ => true

theorem answer_timeout {s : RemoteWait} :
    s.answer = some .timeout ↔ s.current = some (some .blocked) ∧ s.settled = some .gaveUp := by
  rw [answer, Option.bind_eq_some_iff]
  simp only [waitAnswer_timeout]
  constructor
  · rintro ⟨current, hcurrent, rfl, hsettled⟩
    exact ⟨hcurrent, hsettled⟩
  · rintro ⟨hcurrent, hsettled⟩
    exact ⟨some .blocked, hcurrent, rfl, hsettled⟩

/-- The task was opened in time. -/
def Opened (s : RemoteWait) : Prop := ∃ move ∈ s.moves, move.time < s.deadline

/-- The events of the bytes that were read, and the state after them. -/
def readSoFar (s : RemoteWait) : ReaderState × List RemoteSSEEvent :=
  Transducer.run readByte readStart (s.bytes.take s.received)

/-- The loop has read the bytes received, the frames that end it are those of the moves, and what
    it was left and settled with says what happened. -/
structure Sound (env : RemoteEnv) (s : RemoteWait) : Prop where
  received_le : s.received ≤ s.bytes.length
  reader : s.left = none → readerState s.decoder s.parser = s.readSoFar.1
  events : env.read s.readSoFar.2 = if s.left = some .observed then some .observed else none
  reads : ∀ frame ∈ s.sent, env.read frame.events = none ∨ env.read frame.events = some .observed
  frames : ∀ i, (∃ move ∈ s.moves, move.frame = some i) ↔ wakesAt env s.sent i
  left_observed : s.left = some .observed → s.Opened
  settled_observed : s.settled = some .observed → s.Opened
  timeout : s.answer = some .timeout →
    s.deadline ≤ s.now ∧ ∀ move ∈ s.moves, s.deadline ≤ move.time

theorem Sound.honest {s : RemoteWait} (h : s.Sound env) : s.Honest := by
  constructor
  · intro hanswer
    obtain ⟨hdeadline, hmoves⟩ := h.timeout hanswer
    exact ⟨hdeadline, List.forall_mem_map.2 hmoves⟩
  · intro hanswer
    rw [answer, Option.bind_eq_some_iff] at hanswer
    obtain ⟨current, -, hwait⟩ := hanswer
    obtain ⟨move, hmem, htime⟩ := h.settled_observed (waitAnswer_unblocked hwait).2
    exact ⟨move.time, List.mem_map_of_mem hmem, htime⟩

theorem Sound.start (env : RemoteEnv) (now : Nat) (timeoutSeconds : Option Nat)
    (task : TaskStatus) : (start now timeoutSeconds task).Sound env := by
  constructor
  · simp [RemoteWait.start]
  · intro _
    rfl
  · rfl
  · simp [RemoteWait.start]
  · simp [RemoteWait.start, wakesAt]
  · intro hleft
    contradiction
  · intro hsettled
    contradiction
  · intro hanswer
    contradiction

/-- When everything was read and nothing was seen, nothing happened in time. -/
theorem Sound.late {s : RemoteWait} (h : s.Sound env) (hleft : s.left ≠ some .observed)
    (hread : s.hasRead = true) : ∀ move ∈ s.moves, s.deadline ≤ move.time := by
  intro move hmove
  simp only [hasRead, List.all_eq_true, Bool.or_eq_true, decide_eq_true_eq] at hread
  rcases hread move hmove with hlate | hframe
  · exact hlate
  · obtain ⟨i, hi, hlt⟩ := (Option.any_eq_true _ _).1 hframe
    have hwakes := (h.frames i).1 ⟨move, hmove, hi⟩
    have hevents := h.events
    rw [if_neg hleft] at hevents
    rcases read_take env s.received h.reads with ⟨-, hnone⟩ | ⟨hseen, -⟩
    · exact absurd hwakes (hnone i (of_decide_eq_true hlt))
    · exact absurd (hevents.symm.trans hseen) (by simp)

/-- A chunk is read from where the loop stands. -/
theorem readSoFar_deliver (env : RemoteEnv) (s : RemoteWait) (n : Nat)
    (hreader : readerState s.decoder s.parser = s.readSoFar.1) :
    (s.deliver env n).readSoFar =
      (readerState (s.deliver env n).decoder (s.deliver env n).parser,
        s.readSoFar.2 ++ (s.parser.feed
          (s.decoder.decode ((s.bytes.drop s.received).take n)).2).2) := by
  have hchunk := feed_decode s.decoder s.parser ((s.bytes.drop s.received).take n)
  show Transducer.run readByte readStart (s.bytes.take (s.received + n)) = _
  have hstate : (Transducer.run readByte readStart (s.bytes.take s.received)).1 =
      readerState s.decoder s.parser := hreader.symm
  rw [List.take_add, Transducer.run_append, hstate, ← hchunk]
  rfl

/-- Reading keeps the invariant. -/
theorem Sound.deliver {s : RemoteWait} (h : s.Sound env) {n : Nat} (hreading : s.reading = true)
    (hn : s.received + n ≤ s.bytes.length) (htime : s.readsInTime n = true) :
    (s.deliver env n).Sound env := by
  simp only [reading, Bool.and_eq_true, Option.isNone_iff_eq_none] at hreading
  obtain ⟨⟨-, hleft⟩, hsettled⟩ := hreading
  have hread := readSoFar_deliver env s n (h.reader hleft)
  have hnone := h.events
  rw [hleft, if_neg (by simp)] at hnone
  have hevents : env.read (s.deliver env n).readSoFar.2 = (s.deliver env n).left := by
    rw [hread, env.read_append, hnone, Option.none_or]
    rfl
  have htotal := read_take env (s.received + n) h.reads
  change env.read (s.deliver env n).readSoFar.2 = none ∧ _ ∨
    env.read (s.deliver env n).readSoFar.2 = some .observed ∧ _ at htotal
  rw [hevents] at htotal
  refine ⟨hn, fun _ => congrArg Prod.fst hread.symm, ?_, h.reads, h.frames, fun hobserved => ?_,
    h.settled_observed, h.timeout⟩
  · rw [hevents]
    rcases htotal with ⟨hgoes, -⟩ | ⟨hends, -⟩
    · simp [hgoes]
    · simp [hends]
  · rcases htotal with ⟨hgoes, -⟩ | ⟨-, i, hlt, hwakes⟩
    · exact absurd (hobserved.symm.trans hgoes) (by simp)
    · obtain ⟨move, hmove, hframe⟩ := (h.frames i).2 hwakes
      simp only [readsInTime, Bool.or_eq_true, List.any_eq_true, decide_eq_true_eq,
        List.all_eq_true] at htime
      rcases htime with hopened | hlate
      · exact hopened
      · have := hlate move hmove
        rw [hframe, Option.all_some, decide_eq_true_eq] at this
        omega

/-- More frames and more moves, as long as they belong together. -/
theorem Sound.send {s : RemoteWait} (h : s.Sound env) (task : TaskStatus) (sent : List Frame)
    (moves : List Move)
    (hreads : ∀ frame ∈ sent, env.read frame.events = none ∨
      env.read frame.events = some .observed)
    (hframes : ∀ i, (∃ move ∈ s.moves ++ moves, move.frame = some i) ↔
      wakesAt env (s.sent ++ sent) i)
    (htime : ∀ move ∈ moves, move.time = s.now) :
    ({ s with task := task, sent := s.sent ++ sent, moves := s.moves ++ moves } :
      RemoteWait).Sound env := by
  have hreadSoFar : ({ s with task := task, sent := s.sent ++ sent, moves := s.moves ++ moves } :
      RemoteWait).readSoFar = s.readSoFar := by
    simp only [readSoFar, bytes, List.flatMap_append]
    exact congrArg _ (List.take_append_of_le_length h.received_le)
  have hopened : s.Opened → ∃ move ∈ s.moves ++ moves, move.time < s.deadline :=
    fun ⟨move, hmem, hlt⟩ => ⟨move, List.mem_append_left _ hmem, hlt⟩
  constructor
  · show s.received ≤ ((s.sent ++ sent).flatMap Frame.bytes).length
    rw [List.flatMap_append, List.length_append]
    exact Nat.le_add_right_of_le h.received_le
  · rw [hreadSoFar]
    exact h.reader
  · rw [hreadSoFar]
    exact h.events
  · exact List.forall_mem_append.2 ⟨h.reads, hreads⟩
  · exact hframes
  · exact fun hleft => hopened (h.left_observed hleft)
  · exact fun hsettled => hopened (h.settled_observed hsettled)
  · intro hanswer
    obtain ⟨hdeadline, hmoves⟩ := h.timeout hanswer
    refine ⟨hdeadline, List.forall_mem_append.2 ⟨hmoves, fun move hmem => ?_⟩⟩
    show s.deadline ≤ move.time
    rw [htime move hmem]
    exact hdeadline

theorem Sound.updateTask {s : RemoteWait} (h : s.Sound env) (status : TaskStatus)
    (byServer : Bool) : (s.updateTask env status byServer).Sound env := by
  have hread := env.read_statusFrame s.sent.length s.task status
  apply h.send status
  · intro frame hmem
    split at hmem
    · rw [List.mem_singleton.1 hmem, hread]
      split
      · exact .inr rfl
      · exact .inl rfl
    · contradiction
  · intro i
    by_cases hsends : byServer = true ∧ s.stream = .open ∧ s.task ≠ status
    · simp only [if_pos hsends]
      rw [wakesAt_concat, hread, ← h.frames i]
      by_cases hopens : s.task = .blocked ∧ status = .open
      · simp [hopens, or_and_right, exists_or, eq_comm]
      · simp [hopens]
    · simp only [if_neg hsends]
      rw [List.append_nil, ← h.frames i]
      split
      · simp [or_and_right, exists_or]
      · simp
  · intro move hmem
    split at hmem
    · rw [List.mem_singleton.1 hmem]
    · contradiction

theorem Sound.settle {s : RemoteWait} (h : s.Sound env) (how : Settled)
    (hobserved : how = .observed → s.Opened)
    (htimeout : s.current = some (some .blocked) → s.settled = none → how = .gaveUp →
      s.deadline ≤ s.now ∧ ∀ move ∈ s.moves, s.deadline ≤ move.time) :
    (s.settle how).Sound env := by
  refine { h with settled_observed := fun hsettled => ?_, timeout := fun hanswer => ?_ }
  · rcases Option.or_eq_some_iff.1 hsettled with hbefore | ⟨-, hhow⟩
    · exact h.settled_observed hbefore
    · exact hobserved (Option.some.inj hhow)
  · obtain ⟨hcurrent, hsettled⟩ := answer_timeout.1 hanswer
    rcases Option.or_eq_some_iff.1 hsettled with hbefore | ⟨hnone, hhow⟩
    · exact h.timeout (answer_timeout.2 ⟨hcurrent, hbefore⟩)
    · exact htimeout hcurrent hnone (Option.some.inj hhow)

/-- Giving up in time is giving up with nothing in time. -/
theorem Sound.of_timely {s : RemoteWait} (h : s.Sound env) {a : Step env}
    (htimely : s.Timely a = true) (hgives : s.givesUp a = true) :
    s.deadline ≤ s.now ∧ ∀ move ∈ s.moves, s.deadline ≤ move.time := by
  simp only [Timely, hgives, Bool.not_true, Bool.false_or, Bool.and_eq_true, decide_eq_true_eq,
    bne_iff_ne, ne_eq] at htimely
  obtain ⟨⟨⟨hdeadline, hleft⟩, hread⟩, -⟩ := htimely
  exact ⟨hdeadline, h.late hleft hread⟩

theorem Sound.deliverRead {s : RemoteWait} (h : s.Sound env) (hcurrent : s.current = none)
    (htimely : s.Timely (.deliverRead : Step env) = true) : s.deliverRead.Sound env := by
  have hread : ∀ current, (current = some (some .blocked) → s.snapshot = current) →
      ({ s with current := current } : RemoteWait).Sound env := by
    intro current hblocked
    refine { h with timeout := fun hanswer => ?_ }
    obtain ⟨hnow, hsettled⟩ := answer_timeout.1 hanswer
    refine h.of_timely htimely ?_
    have hsnapshot : s.snapshot = some (some .blocked) := (hblocked hnow).trans hnow
    have hgaveUp : s.settled = some .gaveUp := hsettled
    simp [givesUp, hcurrent, hsnapshot, hgaveUp]
  rw [RemoteWait.deliverRead]
  split
  · exact h
  · exact hread s.snapshot fun _ => rfl
  · rename_i status hnot hsnapshot
    refine (hread s.snapshot fun _ => rfl).settle .gaveUp (fun hhow => ?_) fun hblocked _ _ => ?_
    · contradiction
    · have : s.snapshot = some (some .blocked) := hblocked
      rw [hsnapshot] at this
      exact absurd (Option.some.inj this) hnot

theorem Sound.step {s : RemoteWait} (h : s.Sound env) (a : Step env)
    (htimely : s.Timely a = true) : (s.step env a).Sound env := by
  cases a with
  | openStream =>
    rw [RemoteWait.step]
    split
    · exact { h with }
    · exact h
  | refuseStream =>
    rw [RemoteWait.step]
    split
    · exact h.settle .failed (by simp) (by simp)
    · exact h
  | readTask =>
    rw [RemoteWait.step]
    split
    · exact { h with }
    · exact h
  | failRead =>
    rw [RemoteWait.step]
    split
    · exact { h with }
    · exact h
  | deliverRead =>
    rw [RemoteWait.step]
    split
    · exact h.deliverRead ‹_› htimely
    · exact h
  | updateTask status byServer => exact h.updateTask status byServer
  | broadcast frame =>
    rw [RemoteWait.step]
    split
    · have hsend := h.send s.task [frame.1] []
        (by simpa using .inl frame.2)
        (by simpa [wakesAt_concat, frame.2] using h.frames) (by simp)
      simpa using hsend
    · exact h
  | closeStream => exact { h with }
  | deliver n =>
    rw [RemoteWait.step]
    split
    · rename_i hreads
      simp only [Timely, hreads.1, Bool.not_true, Bool.false_or, Bool.and_eq_true] at htimely
      exact h.deliver hreads.1 hreads.2 htimely.2
    · exact h
  | endStream =>
    rw [RemoteWait.step]
    split
    · rename_i hreading
      simp only [reading, Bool.and_eq_true, Option.isNone_iff_eq_none] at hreading
      have hevents := h.events
      rw [hreading.1.2, if_neg (by simp)] at hevents
      exact { h with
        reader := by simp
        events := hevents
        left_observed := by simp }
    · exact h
  | cancelDone =>
    rw [RemoteWait.step]
    split
    · exact h
    · rename_i how hleft
      refine h.settle how (fun hhow => h.left_observed (hhow ▸ hleft)) fun hcurrent hnone hhow => ?_
      exact h.of_timely htimely (by simp [givesUp, hcurrent, hnone, hleft, hhow])
  | fireTimer =>
    rw [RemoteWait.step]
    split
    · rename_i hfires
      refine h.settle .gaveUp (by simp) fun hcurrent hnone _ => ?_
      exact h.of_timely htimely (by simp [givesUp, hcurrent, hnone, hfires])
    · exact h
  | deliverFresh succeeded =>
    rw [RemoteWait.step]
    split
    · refine { h with timeout := fun hanswer => h.timeout ?_ }
      obtain ⟨hcurrent, hsettled⟩ := answer_timeout.1 hanswer
      exact answer_timeout.2 ⟨hcurrent, hsettled⟩
    · exact h
  | tick ms =>
    refine { h with timeout := fun hanswer => ?_ }
    obtain ⟨hdeadline, hmoves⟩ := h.timeout hanswer
    exact ⟨Nat.le_add_right_of_le hdeadline, hmoves⟩

end RemoteWait

/-! ## The runs -/

/-- **Main theorem.** The answers of the remote tool are honest in every run in which it gives up
    only after the deadline and with the frames of all the earlier wake-ups read, and reads no later
    one; those of the stdio tool in every run in which its own process opens the task, while the
    tool waits, before the deadline only. -/
theorem waits_honest (env : RemoteEnv) (now : Nat) (timeoutSeconds : Option Nat) (task : TaskStatus)
    (run : List (RemoteWait.Step env)) (taskId : Nat) (tasks : Nat → Option TaskStatus)
    (stdioRun : List StdioWait.Step) :
    (RunOk (RemoteWait.step env) (fun s a => s.Timely a = true)
        (RemoteWait.start now timeoutSeconds task) run →
      Always (RemoteWait.step env) RemoteWait.Honest
        (RemoteWait.start now timeoutSeconds task) run) ∧
    (RunOk StdioWait.step (fun s a => s.Timely a = true)
        (StdioWait.start taskId now timeoutSeconds tasks) stdioRun →
      Always StdioWait.step StdioWait.Honest
        (StdioWait.start taskId now timeoutSeconds tasks) stdioRun) := by
  constructor
  · intro htimely
    have hsound := htimely.always (fun _ a hs ha => hs.step a ha)
      (RemoteWait.Sound.start env now timeoutSeconds task)
    exact hsound.mono fun _ hs => hs.honest
  · intro htimely
    have hsound := htimely.always (fun _ a hs ha => hs.step a ha)
      (StdioWait.Sound.start taskId now timeoutSeconds tasks)
    exact hsound.mono fun _ hs => hs.honest

/-! ## Samples -/

def sampleHead : List Char :=
  "\x7b\"data\":\x7b\"id\":7\x7d,\"metadata\":\x7b\"from\":\"".toList

def sampleMid : List Char := "\",\"to\":\"".toList

def sampleTail : List Char := "\"\x7d\x7d".toList

/-- The event of a change of the task with the id 7, as JSON. -/
def sampleText (fromStatus toStatus : List Char) : List Char :=
  sampleHead ++ (fromStatus ++ (sampleMid ++ (toStatus ++ sampleTail)))

def beforeQuote (text : List Char) : List Char := text.takeWhile (· ≠ '"')

/-- `JSON.parse`, on the data of these events. -/
def sampleParse (data : String) : ParsedData :=
  let fromStatus := beforeQuote (data.toList.drop sampleHead.length)
  let toStatus := beforeQuote
    (data.toList.drop (sampleHead.length + (fromStatus.length + sampleMid.length)))
  if data.toList = sampleText fromStatus toStatus then
    .payload (some 7) (some (String.ofList fromStatus)) (some (String.ofList toStatus))
  else .invalid

theorem status_plain (status : TaskStatus) : PlainText status.text.toList := by
  cases status <;> decide

theorem status_noQuote (status : TaskStatus) : ∀ c ∈ status.text.toList, c ≠ '"' := by
  have hall : (status.text.toList.all fun c => c != '"') = true := by
    cases status <;> decide
  simpa using hall

theorem beforeQuote_append {text : List Char} (rest : List Char) (h : ∀ c ∈ text, c ≠ '"')
    (hrest : beforeQuote rest = []) : beforeQuote (text ++ rest) = text := by
  rw [beforeQuote] at hrest
  rw [beforeQuote, List.takeWhile_append_of_pos (by simpa using h), hrest, List.append_nil]

theorem sampleParse_text (old new : TaskStatus) :
    sampleParse (String.ofList (sampleText old.text.toList new.text.toList)) =
      .payload (some 7) (some old.text) (some new.text) := by
  have hold : beforeQuote ((sampleText old.text.toList new.text.toList).drop sampleHead.length) =
      old.text.toList := by
    rw [sampleText, List.drop_left]
    exact beforeQuote_append _ (status_noQuote old) rfl
  have hnew : beforeQuote ((sampleText old.text.toList new.text.toList).drop
      (sampleHead.length + (old.text.toList.length + sampleMid.length))) = new.text.toList := by
    rw [sampleText, ← List.drop_drop, List.drop_left, ← List.drop_drop, List.drop_left,
      List.drop_left]
    exact beforeQuote_append _ (status_noQuote new) rfl
  simp only [sampleParse, String.toList_ofList, hold, hnew, if_true, String.ofList_toList]

theorem sampleText_plain (old new : TaskStatus) :
    PlainText (sampleText old.text.toList new.text.toList) := by
  have hparts : PlainText sampleHead ∧ PlainText sampleMid ∧ PlainText sampleTail := by decide
  exact hparts.1.append ((status_plain old).append
    (hparts.2.1.append ((status_plain new).append hparts.2.2)))

def sampleEnv : RemoteEnv where
  taskId := 7
  parse := sampleParse
  statusFrame _ old new :=
    .ofEvent "task.status_changed".toList (sampleText old.text.toList new.text.toList) (by decide)
      (sampleText_plain old new)
  statusData _ old new := String.ofList (sampleText old.text.toList new.text.toList)
  statusFrame_events _ old new := by simp [Frame.ofEvent]
  parse_empty := by decide
  parse_statusData _ old new := sampleParse_text old new

/-- The stream is opened, the task is read, opened by the server and the frame read in two parts. -/
def sampleRun : List (RemoteWait.Step sampleEnv) :=
  [.openStream, .readTask, .tick 20, .updateTask .open true, .deliverRead, .deliver 40, .deliver 54,
    .cancelDone, .deliverFresh true]

/-- Nothing opens the task within a minute. -/
def sampleStdioRun : List StdioWait.Step := [.updateTask 7 .blocked, .tick 60000, .fireTimer]

theorem sample_answers :
    (sampleRun.foldl (RemoteWait.step sampleEnv) (.start 0 (some 60) .blocked)).answer =
      some .unblocked ∧
    (sampleStdioRun.foldl StdioWait.step (.start 7 0 (some 60) fun _ => some .blocked)).answer =
      some .timeout := by
  decide +kernel

theorem waits_honest_sample :
    Always (RemoteWait.step sampleEnv) RemoteWait.Honest (.start 0 (some 60) .blocked) sampleRun ∧
      Always StdioWait.step StdioWait.Honest (.start 7 0 (some 60) fun _ => some .blocked)
        sampleStdioRun :=
  have h := waits_honest sampleEnv 0 (some 60) .blocked sampleRun 7 (fun _ => some .blocked)
    sampleStdioRun
  ⟨h.1 (by decide +kernel), h.2 (by decide +kernel)⟩

/-- The server ends the stream after ten and a half minutes; the tool says that half an hour is
    over. -/
theorem remote_not_honest :
    ¬ Always (RemoteWait.step sampleEnv) RemoteWait.Honest (.start 0 (some 1800) .blocked)
      [.openStream, .readTask, .deliverRead, .tick 630000, .closeStream, .endStream,
        .cancelDone] := by
  intro h
  have hlast := h.last.timeout (by decide +kernel)
  exact absurd hlast.1 (by decide +kernel)

end WoodFiredTasks.Mcp
