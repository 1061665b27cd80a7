import WoodFiredTasks.Lib.Text
import WoodFiredTasks.Slack.TaskFormatter

set_option autoImplicit false

/-! # What a field can put into a Slack message

A text is faithful if it is inert and every part that came from a field reads as the value of the
field. Escaped fields are faithful whatever they hold (`isFaithful_of_isSafe`); the two fields that
are sent raw, the actor of a notification and the title in its fallback text, are so only if they
have none of the three characters. -/

namespace WoodFiredTasks.Slack

open Migrate (codeUnits)

/-! ## Faithful texts -/

/-- The part reads as the value that it shows. -/
def Part.isFaithful : Part → Bool
  | .lit _ => true
  | .field value shown => unescape shown = value

/-- The text is inert, and reads as the values that it shows. -/
def isFaithful (parts : Parts) : Bool := isInert (render parts) && parts.all Part.isFaithful

/-- A part that may stand in any text. -/
def Part.isSafe (part : Part) : Bool := isInert part.text && part.isFaithful

theorem isFaithful_of_isSafe {parts : Parts} (h : ∀ part ∈ parts, part.isSafe = true) :
    isFaithful parts = true := by
  have hinert : isInert (render parts) = true := by
    induction parts with
    | nil => rfl
    | cons part rest ih =>
      have hpart := h part (by simp)
      simp only [Part.isSafe, Bool.and_eq_true] at hpart
      show isInert (part.text ++ render rest) = true
      exact isInert_append hpart.1 (ih fun p hp => h p (by simp [hp]))
  simp only [isFaithful, hinert, Bool.true_and, List.all_eq_true]
  intro part hpart
  have hsafe := h part hpart
  simp only [Part.isSafe, Bool.and_eq_true] at hsafe
  exact hsafe.2

/-! ## Safe parts -/

theorem isSafe_str {s : String} (h : isInert (codeUnits s) = true) : (str s).isSafe = true := by
  simp [Part.isSafe, str, Part.text, Part.isFaithful, h]

theorem isSafe_escaped (value : JsText) : (escaped value).isSafe = true := by
  simp [Part.isSafe, escaped, Part.text, Part.isFaithful, isInert_escape, unescape_escape]

theorem isSafe_num (n : Nat) : (num n).isSafe = true := by
  refine isSafe_str (isInert_of_isPlain ?_)
  simp only [isPlain, codeUnits, List.all_eq_true, List.mem_flatMap]
  rintro u ⟨c, hc, hu⟩
  have hdigit := Char.isDigit_iff_toNat.mp (isDigit_of_mem_toString hc)
  have hge : 48 ≤ c.toNat := hdigit.1
  have hle : c.toNat ≤ 57 := hdigit.2
  rw [if_pos (by omega : c.toNat < 0x10000), List.mem_singleton] at hu
  subst hu
  have hamp : c.toNat ≠ amp := by
    show c.toNat ≠ 0x26
    omega
  have hlt : c.toNat ≠ lt := by
    show c.toNat ≠ 0x3C
    omega
  have hgt : c.toNat ≠ gt := by
    show c.toNat ≠ 0x3E
    omega
  simp [hamp, hlt, hgt]

theorem isSafe_statusEmoji (status : TaskStatus) : (str (statusEmoji status)).isSafe = true :=
  isSafe_str (by cases status <;> decide)

theorem isSafe_priorityIndicator (priority : TaskPriority) :
    (str (priorityIndicator priority)).isSafe = true :=
  isSafe_str (by cases priority <;> decide)

theorem isSafe_eventLabel (eventType : EventType) : (str (eventLabel eventType)).isSafe = true :=
  isSafe_str (by cases eventType <;> decide)

theorem isSafe_eventTypeText (eventType : EventType) :
    (str (eventTypeText eventType)).isSafe = true :=
  isSafe_str (by cases eventType <;> decide)

theorem isSafe_statusText (status : TaskStatus) : (str status.text).isSafe = true :=
  isSafe_str (by cases status <;> decide)

theorem isSafe_assigneeMention (assignee : Option String) :
    ∀ part ∈ assigneeMention assignee, part.isSafe = true := by
  have hnobody : ∀ part ∈ [str "_unassigned_"], part.isSafe = true := by
    simpa using isSafe_str (by decide)
  cases assignee with
  | none => exact hnobody
  | some name =>
    by_cases hname : name = ""
    · simpa [assigneeMention, hname] using hnobody
    · have hat : (str "@").isSafe = true := isSafe_str (by decide)
      simp [assigneeMention, hname, hat, isSafe_escaped]

theorem isSafe_escapedOr (value : Option JsText) {fallback : String}
    (h : isInert (codeUnits fallback) = true) : (escapedOr value fallback).isSafe = true := by
  unfold escapedOr
  split
  · exact isSafe_str h
  · cases value with
    | none => simp_all [escapeSlackMrkdwn]
    | some v => exact isSafe_escaped v

/-! ## Lists and cards -/

theorem isFaithful_formatTaskEntry (task : Task) : isFaithful (formatTaskEntry task) = true := by
  have hfixed : (str " *#").isSafe = true ∧ (str " ").isSafe = true ∧ (str "*\n").isSafe = true ∧
      (str " · ").isSafe = true :=
    ⟨isSafe_str (by decide), isSafe_str (by decide), isSafe_str (by decide), isSafe_str (by decide)⟩
  refine isFaithful_of_isSafe fun part hpart => ?_
  rcases List.mem_append.mp hpart with hpart | hpart
  · simp only [List.mem_cons, List.not_mem_nil, or_false] at hpart
    rcases hpart with rfl | rfl | rfl | rfl | rfl | rfl | rfl | rfl
    · exact isSafe_statusEmoji task.status
    · exact hfixed.1
    · exact isSafe_num task.id
    · exact hfixed.2.1
    · exact isSafe_escaped _
    · exact hfixed.2.2.1
    · exact isSafe_priorityIndicator task.priority
    · exact hfixed.2.2.2
  · exact isSafe_assigneeMention task.assignee part hpart

/-- Every text of a list is faithful. -/
theorem isFaithful_formatTaskList (tasks : List Task) :
    ∀ block ∈ formatTaskList tasks, ∀ text ∈ block.texts, isFaithful text = true := by
  intro block hblock text htext
  unfold formatTaskList at hblock
  split at hblock
  · rw [List.mem_singleton.mp hblock] at htext
    rw [List.mem_singleton.mp htext]
    decide
  · simp only [List.mem_append, List.mem_singleton, List.mem_map] at hblock
    rcases hblock with (rfl | ⟨task, -, rfl⟩) | hblock
    · rw [List.mem_singleton.mp htext]
      refine isFaithful_of_isSafe ?_
      simp [isSafe_num, isSafe_str (s := "Tasks (") (by decide), isSafe_str (s := ")") (by decide)]
    · rw [List.mem_singleton.mp htext]
      exact isFaithful_formatTaskEntry task
    · split at hblock
      · rw [List.mem_singleton.mp hblock] at htext
        rw [List.mem_singleton.mp htext]
        refine isFaithful_of_isSafe ?_
        simp [isSafe_num, isSafe_str (s := "Showing 20 of ") (by decide),
          isSafe_str (s := " tasks") (by decide)]
      · simp at hblock

/-- Every text of a card is faithful. -/
theorem isFaithful_formatTaskDetail (task : Task) :
    ∀ block ∈ formatTaskDetail task, ∀ text ∈ block.texts, isFaithful text = true := by
  have hone : ∀ value : JsText, isFaithful [escaped value] = true := fun value =>
    isFaithful_of_isSafe (by simpa using isSafe_escaped value)
  have htwo : ∀ (s : String) (part : Part), isInert (codeUnits s) = true → part.isSafe = true →
      isFaithful [str s, part] = true := fun s part hs hpart =>
    isFaithful_of_isSafe (by simpa using ⟨isSafe_str hs, hpart⟩)
  intro block hblock text htext
  simp only [formatTaskDetail, List.mem_append, List.mem_cons, List.not_mem_nil, or_false]
    at hblock
  rcases hblock with (rfl | rfl) | hblock
  · rw [List.mem_singleton.mp htext]
    exact hone _
  · simp only [Block.texts, List.mem_append, List.mem_cons, List.not_mem_nil, or_false] at htext
    rcases htext with (rfl | rfl | rfl | rfl | rfl | rfl) | htext
    · refine isFaithful_of_isSafe ?_
      simp [isSafe_statusEmoji, isSafe_statusText, isSafe_str (s := "*Status*\n") (by decide),
        isSafe_str (s := " ") (by decide)]
    · exact htwo _ _ (by decide) (isSafe_priorityIndicator _)
    · exact htwo _ _ (by decide) (isSafe_escapedOr _ (by decide))
    · exact htwo _ _ (by decide) (isSafe_escapedOr _ (by decide))
    · exact htwo _ _ (by decide) (isSafe_num _)
    · exact htwo _ _ (by decide) (isSafe_escaped _)
    · split at htext
      · rw [List.mem_singleton.mp htext]
        exact htwo _ _ (by decide) (isSafe_escaped _)
      · simp at htext
  · cases hdescription : task.description with
    | none => simp [hdescription] at hblock
    | some description =>
      simp only [hdescription, List.mem_cons, List.not_mem_nil, or_false] at hblock
      rcases hblock with rfl | rfl
      · simp [Block.texts] at htext
      · rw [List.mem_singleton.mp htext]
        exact hone _

/-! ## Notifications -/

theorem isSafe_raw {value : JsText} (h : isPlain value = true) : (raw value).isSafe = true := by
  simp [Part.isSafe, raw, Part.text, Part.isFaithful, isInert_of_isPlain h, unescape_of_isPlain h]

/-- A raw field at the end of a line of a faithful text is plain. -/
theorem isPlain_of_isFaithful {before after : Parts} {value : JsText}
    (h : isFaithful (before ++ raw value :: after) = true)
    (hafter : render after = [] ∨ (render after).head? = some 10) : isPlain value = true := by
  simp only [isFaithful, Bool.and_eq_true, List.all_append, List.all_cons] at h
  obtain ⟨hinert, -, hfield, -⟩ := h
  have hrender : render (before ++ raw value :: after) =
      render before ++ (value ++ render after) := by
    simp [render, raw, Part.text]
  rw [hrender] at hinert
  exact isPlain_of_unescape_eq_self hafter (isInert_of_append hinert)
    (by simpa [raw, Part.isFaithful] using hfield)

theorem isSafe_detailLines (task : Task) (projectName : String) :
    ∀ line ∈ detailLines task projectName, ∀ part ∈ line, part.isSafe = true := by
  have hfixed : ∀ s ∈ [" *#", " ", "*", "_", " · ", "`/tasks show ", "`"],
      (str s).isSafe = true := by
    intro s hs
    refine isSafe_str ?_
    revert s
    decide
  intro line hline part hpart
  simp only [detailLines, List.mem_append, List.mem_cons, List.not_mem_nil, or_false] at hline
  rcases hline with (rfl | hline) | rfl | rfl
  · simp only [List.mem_cons, List.not_mem_nil, or_false] at hpart
    rcases hpart with rfl | rfl | rfl | rfl | rfl | rfl
    · exact isSafe_statusEmoji task.status
    · exact hfixed _ (by simp)
    · exact isSafe_num task.id
    · exact hfixed _ (by simp)
    · exact isSafe_escaped _
    · exact hfixed _ (by simp)
  · split at hline
    · simp at hline
    · rw [List.mem_singleton.mp hline] at hpart
      simp only [List.mem_cons, List.not_mem_nil, or_false] at hpart
      rcases hpart with rfl | rfl | rfl
      · exact hfixed _ (by simp)
      · exact isSafe_escaped _
      · exact hfixed _ (by simp)
  · simp only [List.mem_append, List.mem_cons, List.not_mem_nil, or_false] at hpart
    rcases hpart with (rfl | rfl) | hpart
    · exact isSafe_priorityIndicator task.priority
    · exact hfixed _ (by simp)
    · exact isSafe_assigneeMention task.assignee part hpart
  · simp only [List.mem_cons, List.not_mem_nil, or_false] at hpart
    rcases hpart with rfl | rfl | rfl
    · exact hfixed _ (by simp)
    · exact isSafe_num task.id
    · exact hfixed _ (by simp)

/-- Lines of safe parts are joined to a text of safe parts. -/
theorem isSafe_intercalate {lines : List Parts}
    (h : ∀ line ∈ lines, ∀ part ∈ line, part.isSafe = true) :
    ∀ part ∈ [str "\n"].intercalate lines, part.isSafe = true := by
  induction lines with
  | nil => simp
  | cons line rest ih =>
    have hrest := ih fun l hl => h l (by simp [hl])
    by_cases hnil : rest = []
    · subst hnil
      simpa using h line (by simp)
    · rw [List.intercalate_cons_of_ne_nil hnil]
      intro part hpart
      simp only [List.mem_append, List.mem_singleton] at hpart
      rcases hpart with (hpart | rfl) | hpart
      · exact h line (by simp) part hpart
      · exact isSafe_str (by decide)
      · exact hrest part hpart

/-- A notification is faithful exactly if the name of its actor is plain. -/
theorem isFaithful_formatTaskNotification (event : TaskEvent) (projectName : String) :
    (∀ block ∈ formatTaskNotification event projectName, ∀ text ∈ block.texts,
      isFaithful text = true) ↔
      ∀ actor, event.actor = some actor → isPlain (codeUnits actor) = true := by
  have hlabel := isSafe_eventLabel event.eventType
  have hdetail := isSafe_detailLines event.data projectName
  have hne : detailLines event.data projectName ≠ [] := by simp [detailLines]
  have htext : [str "\n"].intercalate ([str "*", str (eventLabel event.eventType), str "* by ",
      actorPart event.actor] :: detailLines event.data projectName) =
      [str "*", str (eventLabel event.eventType), str "* by "] ++ actorPart event.actor ::
        (str "\n" :: [str "\n"].intercalate (detailLines event.data projectName)) := by
    rw [List.intercalate_cons_of_ne_nil hne]
    simp
  simp only [formatTaskNotification, List.mem_singleton, forall_eq, Block.texts, htext]
  constructor
  · intro hfaithful actor hactor
    rw [hactor] at hfaithful
    exact isPlain_of_isFaithful hfaithful (Or.inr rfl)
  · intro hplain
    have hactor : (actorPart event.actor).isSafe = true := by
      cases hactor : event.actor with
      | none => exact isSafe_str (by decide)
      | some actor => exact isSafe_raw (hplain actor hactor)
    refine isFaithful_of_isSafe fun part hpart => ?_
    simp only [List.mem_append, List.mem_cons, List.not_mem_nil, or_false] at hpart
    rcases hpart with (rfl | rfl | rfl) | rfl | rfl | hpart
    · exact isSafe_str (by decide)
    · exact hlabel
    · exact isSafe_str (by decide)
    · exact hactor
    · exact isSafe_str (by decide)
    · exact isSafe_intercalate hdetail part hpart

/-- The fallback text is faithful exactly if the title of the task is plain. -/
theorem isFaithful_fallbackText (eventType : EventType) (title : String) :
    isFaithful [str (eventTypeText eventType), str ": ", raw (codeUnits title)] = true ↔
      isPlain (codeUnits title) = true := by
  constructor
  · intro h
    have hafter : isFaithful ([str (eventTypeText eventType), str ": "] ++
        raw (codeUnits title) :: []) = true := h
    exact isPlain_of_isFaithful hafter (Or.inl rfl)
  · intro hplain
    have hcolon : (str ": ").isSafe = true := isSafe_str (by decide)
    refine isFaithful_of_isSafe ?_
    simp [isSafe_eventTypeText, hcolon, isSafe_raw hplain]

/-! ## All messages -/

theorem isFaithful_eventPost (getProject : Nat → Option Project) (eventType : EventType)
    (event : TaskEvent) (channelId : String) :
    (∀ text ∈ (eventPost getProject eventType event channelId).texts, isFaithful text = true) ↔
      (∀ actor, event.actor = some actor → isPlain (codeUnits actor) = true) ∧
        isPlain (codeUnits event.data.title) = true := by
  rw [← isFaithful_formatTaskNotification event
      (resolveProjectName getProject event.data.projectId),
    ← isFaithful_fallbackText eventType event.data.title]
  simp only [Post.texts, eventPost, List.mem_append, List.mem_flatMap, List.mem_singleton]
  constructor
  · intro h
    exact ⟨fun block hblock text htext => h text (Or.inl ⟨block, hblock, htext⟩),
      h _ (Or.inr rfl)⟩
  · rintro ⟨hblocks, hfallback⟩ text (⟨block, hblock, htext⟩ | rfl)
    · exact hblocks block hblock text htext
    · exact hfallback

/-- **Main theorem.** Every text of a list and of a card is faithful; the texts of the posts for an
    event all are exactly if no channel is subscribed or neither the actor nor the title has an
    ampersand or an angle bracket. -/
theorem messages_faithful_iff (findSubscribedChannels : Nat → EventType → List String)
    (getProject : Nat → Option Project) (eventType : EventType) (event : TaskEvent)
    (tasks : List Task) (task : Task) :
    ((∀ post ∈ handleTaskEvent findSubscribedChannels getProject eventType event,
        ∀ text ∈ post.texts, isFaithful text = true) ∧
      (∀ block ∈ formatTaskList tasks, ∀ text ∈ block.texts, isFaithful text = true) ∧
      (∀ block ∈ formatTaskDetail task, ∀ text ∈ block.texts, isFaithful text = true)) ↔
    (findSubscribedChannels event.data.projectId eventType = [] ∨
      (∀ actor, event.actor = some actor → isPlain (codeUnits actor) = true) ∧
        isPlain (codeUnits event.data.title) = true) := by
  have hlist := isFaithful_formatTaskList tasks
  have hdetail := isFaithful_formatTaskDetail task
  unfold handleTaskEvent
  cases hchannels : findSubscribedChannels event.data.projectId eventType with
  | nil =>
    simp only [List.length_nil, if_true, List.not_mem_nil, false_implies, implies_true, true_and,
      true_or, iff_true]
    exact ⟨hlist, hdetail⟩
  | cons channelId rest =>
    have hne : (channelId :: rest).length ≠ 0 := by simp
    rw [if_neg hne, or_iff_right (List.cons_ne_nil channelId rest)]
    constructor
    · rintro ⟨hposts, -, -⟩
      exact (isFaithful_eventPost getProject eventType event channelId).mp
        (hposts _ (List.mem_map.mpr ⟨channelId, by simp, rfl⟩))
    · intro hplain
      refine ⟨fun post hpost => ?_, hlist, hdetail⟩
      obtain ⟨channelId', -, rfl⟩ := List.mem_map.mp hpost
      exact (isFaithful_eventPost getProject eventType event channelId').mpr hplain

/-- A task called by a channel mention. -/
def pingTask : Task where
  id := 1
  title := "<!channel>"
  description := none
  status := .open
  priority := .low
  projectId := 1
  parentTaskId := none
  estimatedMinutes := none
  assignee := none
  createdBy := "a"
  dueDate := none
  createdAt := .iso 0
  updatedAt := .iso 0
  version := 1
  claimedAt := none
  completedAt := none
  acceptanceCriteria := none
  verificationEvidence := none
  wsjf := {}
  createdByUserId := none
  assigneeUserId := none
  tags := []

/-- The mention reaches the channel in the fallback text. -/
theorem messages_not_faithful :
    ¬ ∀ (findSubscribedChannels : Nat → EventType → List String)
      (getProject : Nat → Option Project) (eventType : EventType) (event : TaskEvent),
      ∀ post ∈ handleTaskEvent findSubscribedChannels getProject eventType event,
        ∀ text ∈ post.texts, isFaithful text = true := by
  intro h
  have hpost := h (fun _ _ => ["C1"]) (fun _ => none) .taskCreated
    { eventType := .taskCreated, data := pingTask, actor := none }
    (eventPost (fun _ => none) .taskCreated
      { eventType := .taskCreated, data := pingTask, actor := none } "C1")
    (List.mem_singleton.mpr rfl)
    [str (eventTypeText .taskCreated), str ": ", raw (codeUnits pingTask.title)]
    (List.mem_append_right _ (List.mem_singleton.mpr rfl))
  exact absurd hpost (by decide)

end WoodFiredTasks.Slack
