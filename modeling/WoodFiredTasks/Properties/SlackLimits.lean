import Mathlib.Tactic.Ring
import WoodFiredTasks.Lib.Text
import WoodFiredTasks.Schemas.TaskSchema
import WoodFiredTasks.Slack.TaskFormatter

set_option autoImplicit false

/-! # Slack's limits on the blocks of a message

Slack refuses a message whose blocks or texts are too long; the lengths are those of the escaped
texts, in UTF-16 code units as JavaScript counts them. An ampersand is sent as five code units and
an angle bracket as four, so that what was cut to a limit before it was escaped may exceed it
afterwards. -/

namespace WoodFiredTasks.Slack

open Migrate (codeUnits)

/-! ## Lengths -/

/-- How many code units are sent for a code unit. -/
def sentUnit (u : Nat) : Nat := if u = amp then 5 else if u = lt ∨ u = gt then 4 else 1

/-- The length of a text once it is escaped. -/
def sentLength (s : JsText) : Nat := (s.map sentUnit).sum

/-- The length of a text that is assembled from parts. -/
def shownLength (parts : Parts) : Nat := (render parts).length

theorem length_escape (s : JsText) : (escape s).length = sentLength s := by
  rw [escape_eq, sentLength]
  induction s with
  | nil => rfl
  | cons u rest ih =>
    have hunit : (entity u).length = sentUnit u := by
      by_cases hamp : u = amp
      · subst hamp
        rfl
      · by_cases hlt : u = lt
        · subst hlt
          rfl
        · by_cases hgt : u = gt
          · subst hgt
            rfl
          · simp [entity, sentUnit, hamp, hlt, hgt]
    rw [List.flatMap_cons, List.length_append, hunit, ih, List.map_cons, List.sum_cons]

theorem sentLength_le (s : JsText) : sentLength s ≤ 5 * s.length := by
  rw [sentLength]
  induction s with
  | nil => simp
  | cons u rest ih =>
    have hunit : sentUnit u ≤ 5 := by
      unfold sentUnit
      split_ifs <;> omega
    simp only [List.map_cons, List.sum_cons, List.length_cons]
    omega

theorem sentLength_append (s t : JsText) : sentLength (s ++ t) = sentLength s + sentLength t := by
  simp [sentLength]

theorem shownLength_nil : shownLength [] = 0 := rfl

theorem shownLength_cons (part : Part) (rest : Parts) :
    shownLength (part :: rest) = part.text.length + shownLength rest := by
  simp [shownLength, render]

theorem shownLength_append (parts rest : Parts) :
    shownLength (parts ++ rest) = shownLength parts + shownLength rest := by
  simp [shownLength, render]

theorem length_escaped (value : JsText) : (escaped value).text.length = sentLength value :=
  length_escape value

/-- The code units of a text are what the schemas count. -/
theorem length_codeUnits (s : String) : (codeUnits s).length = TaskSchema.utf16Length s := by
  have hchars : ∀ chars : List Char,
      (chars.flatMap fun c => if c.toNat < 0x10000 then [c.toNat]
        else [0xD800 + (c.toNat - 0x10000) / 0x400, 0xDC00 + (c.toNat - 0x10000) % 0x400]).length =
      (chars.map fun c => if c.val < 0x10000 then 1 else 2).sum := by
    intro chars
    induction chars with
    | nil => rfl
    | cons c rest ih =>
      have hval : c.toNat < 0x10000 ↔ c.val < 0x10000 := Iff.rfl
      rw [List.flatMap_cons, List.length_append, ih, List.map_cons, List.sum_cons]
      by_cases hc : c.toNat < 0x10000
      · rw [if_pos hc, if_pos (hval.1 hc), List.length_singleton]
      · rw [if_neg hc, if_neg (mt hval.2 hc)]
        rfl
  exact hchars s.toList

/-- The digits of a row id of SQLite, or of the length of an array. -/
theorem length_num_le {n : Nat} (hn : n < 2 ^ 63) : (num n).text.length ≤ 19 := by
  show (codeUnits (toString n)).length ≤ 19
  have hunits : ∀ c ∈ (toString n).toList, (if c.val < 0x10000 then 1 else 2) = 1 := by
    intro c hc
    have hdigit := Char.isDigit_iff_toNat.mp (isDigit_of_mem_toString hc)
    have hval : c.val < 0x10000 := show c.toNat < 0x10000 by
      have hle : c.toNat ≤ 57 := hdigit.2
      omega
    rw [if_pos hval]
  have hlength : (codeUnits (toString n)).length = (toString n).length := by
    rw [length_codeUnits, TaskSchema.utf16Length, List.map_congr_left hunits, List.map_const',
      List.sum_replicate_nat, Nat.mul_one, String.length_toList]
  rw [hlength]
  exact (Nat.length_repr_le_iff (by decide)).2 (by omega)

/-! ## Limits -/

/-- Slack's limits on a block. -/
def Block.WithinLimits : Block → Prop
  | .header text => shownLength text ≤ 150
  | .section text => 1 ≤ shownLength text ∧ shownLength text ≤ 3000
  | .fields list => list.length ≤ 10 ∧ ∀ text ∈ list, shownLength text ≤ 2000
  | .divider => True
  | .context _ => True

theorem header_withinLimits {text : Parts} :
    (Block.header text).WithinLimits ↔ shownLength text ≤ 150 := Iff.rfl

theorem section_withinLimits {text : Parts} :
    (Block.section text).WithinLimits ↔ 1 ≤ shownLength text ∧ shownLength text ≤ 3000 := Iff.rfl

theorem fields_withinLimits {list : List Parts} : (Block.fields list).WithinLimits ↔
    list.length ≤ 10 ∧ ∀ text ∈ list, shownLength text ≤ 2000 := Iff.rfl

/-- Slack's limits on the blocks of a message. -/
def WithinLimits (blocks : List Block) : Prop :=
  blocks.length ≤ 50 ∧ ∀ block ∈ blocks, block.WithinLimits

/-! ## Messages -/

/-- The fields of a row as the body of a call. -/
def asInput (t : Task) : CreateTaskInput where
  title := t.title
  description := t.description
  priority := t.priority
  projectId := t.projectId
  parentTaskId := t.parentTaskId
  estimatedMinutes := t.estimatedMinutes
  assignee := t.assignee
  createdBy := t.createdBy
  dueDate := t.dueDate
  tags := t.tags
  acceptanceCriteria := t.acceptanceCriteria
  createdByUserId := t.createdByUserId
  assigneeUserId := t.assigneeUserId

/-- The fields of a row satisfy the schema, and its ids are those of SQLite. -/
structure IsValid (env : Env) (t : Task) : Prop where
  fields : TaskSchema.createTask env (asInput t) = []
  id : t.id < 2 ^ 63
  projectId : t.projectId < 2 ^ 63

/-- What the formatters are given. -/
inductive SlackMessage where
  | list (tasks : List Task)
  | detail (task : Task)
  | notification (event : TaskEvent) (projectName : String)

/-- The blocks that the formatters build. -/
def SlackMessage.blocks : SlackMessage → List Block
  | list tasks => formatTaskList tasks
  | detail task => formatTaskDetail task
  | notification event projectName => formatTaskNotification event projectName

/-- The tasks of a message are valid; an array has fewer than 2³² elements. -/
def SlackMessage.IsValid (env : Env) : SlackMessage → Prop
  | list tasks => tasks.length < 2 ^ 32 ∧ ∀ t ∈ tasks, Slack.IsValid env t
  | detail task => Slack.IsValid env task
  | notification event _ => Slack.IsValid env event.data

/-- A title stays within the header, after it was cut if it was longer than that. -/
def TitleFits (title : JsText) : Prop :=
  if title.length ≤ 150 then sentLength title ≤ 150 else sentLength (title.take 147) ≤ 147

/-- The length of a mention of the assignee. -/
def mentionLength (assignee : Option String) : Nat :=
  match assignee with
  | none => 12
  | some name => if name = "" then 12 else 1 + sentLength (codeUnits name)

/-- The length of the text of a notification: the values it shows, once they are escaped, and the
    fixed text around them. -/
def notificationLength (event : TaskEvent) (projectName : String) : Nat :=
  (7 + (codeUnits (eventLabel event.eventType)).length
      + (codeUnits (event.actor.getD "system")).length)
    + (6 + (codeUnits (statusEmoji event.data.status)).length
      + (codeUnits (toString event.data.id)).length + sentLength (codeUnits event.data.title))
    + (if projectName = "" then 0 else 3 + sentLength (codeUnits projectName))
    + (4 + (codeUnits (priorityIndicator event.data.priority)).length
      + mentionLength event.data.assignee)
    + (14 + (codeUnits (toString event.data.id)).length)

/-- When the escaped values fit. -/
def SlackMessage.Fits : SlackMessage → Prop
  | list _ => True
  | detail task =>
    TitleFits (codeUnits task.title) ∧
    (∀ due, task.dueDate = some due → sentLength (codeUnits due) ≤ 1989) ∧
    (sentLength ((codeUnits ", ").intercalate (task.tags.map codeUnits)) ≤ 1993) ∧
    (∀ description, task.description = some description → description ≠ "" ∧
      sentLength ((codeUnits description).take 3000) ≤ 3000)
  | notification event projectName => notificationLength event projectName ≤ 3000

/-! ## Valid fields -/

section Valid

variable {env : Env} {t : Task}

theorem utf16Length_le {path : String} {n : Nat} {s : String} {message : Message}
    (h : TaskSchema.atMost path n (TaskSchema.utf16Length s) message = []) :
    sentLength (codeUnits s) ≤ 5 * n := by
  have hle := sentLength_le (codeUnits s)
  rw [length_codeUnits] at hle
  have hn : ¬ n < TaskSchema.utf16Length s := by
    intro hlt
    rw [TaskSchema.atMost, if_pos hlt] at h
    exact List.cons_ne_nil _ _ h
  omega

/-- What the schema says about the lengths of the fields that a message shows. -/
theorem IsValid.lengths (h : IsValid env t) :
    sentLength (codeUnits t.title) ≤ 1275 ∧ sentLength (codeUnits t.createdBy) ≤ 500 ∧
      ∀ name, t.assignee = some name → sentLength (codeUnits name) ≤ 500 := by
  have hfields := h.fields
  simp only [TaskSchema.createTask, List.append_eq_nil_iff] at hfields
  obtain ⟨⟨⟨⟨⟨⟨⟨⟨⟨⟨⟨⟨⟨⟨-, htitle⟩, -⟩, -⟩, -⟩, -⟩, hassignee⟩, -⟩, hcreatedBy⟩, -⟩, -⟩, -⟩, -⟩, -⟩, -⟩ :=
    hfields
  refine ⟨utf16Length_le htitle, utf16Length_le hcreatedBy, fun name hname => ?_⟩
  rw [show (asInput t).assignee = some name from hname] at hassignee
  exact utf16Length_le hassignee

/-- A mention of the assignee, in the texts of the list and of a notification. -/
theorem shownLength_assigneeMention (assignee : Option String) :
    shownLength (assigneeMention assignee) = mentionLength assignee := by
  cases assignee with
  | none => decide
  | some name =>
    by_cases hname : name = ""
    · subst hname
      decide
    · have hat : (str "@").text.length = 1 := by decide
      simp only [assigneeMention, mentionLength, if_neg hname, shownLength_cons, shownLength_nil,
        length_escaped, hat, Nat.add_zero]

theorem IsValid.mentionLength_le (h : IsValid env t) : mentionLength t.assignee ≤ 501 := by
  unfold mentionLength
  split
  · omega
  · rename_i name hname
    have hle := h.lengths.2.2 name hname
    split <;> omega

theorem length_statusEmoji_le (status : TaskStatus) : (str (statusEmoji status)).text.length ≤ 2 := by
  cases status <;> decide

theorem length_priorityIndicator_le (priority : TaskPriority) :
    (str (priorityIndicator priority)).text.length ≤ 9 := by
  cases priority <;> decide

end Valid

/-! ## Lists -/

theorem formatTaskEntry_withinLimits {env : Env} {t : Task} (h : IsValid env t) :
    (Block.section (formatTaskEntry t)).WithinLimits := by
  have hemoji := length_statusEmoji_le t.status
  have hpriority := length_priorityIndicator_le t.priority
  have hid := length_num_le h.id
  have htitle := h.lengths.1
  have hmention := h.mentionLength_le
  have hmark : (str " *#").text.length = 3 := by decide
  have hblank : (str " ").text.length = 1 := by decide
  have hline : (str "*\n").text.length = 2 := by decide
  have hdot : (str " · ").text.length = 3 := by decide
  have hlength : shownLength (formatTaskEntry t) = _ := shownLength_append _ _
  rw [shownLength_assigneeMention] at hlength
  simp only [shownLength_cons, shownLength_nil, length_escaped, hmark, hblank, hline, hdot]
    at hlength
  show 1 ≤ shownLength (formatTaskEntry t) ∧ shownLength (formatTaskEntry t) ≤ 3000
  omega

/-- Every list of valid tasks stays within the limits. -/
theorem formatTaskList_withinLimits {env : Env} {tasks : List Task} (hlength : tasks.length < 2 ^ 32)
    (hvalid : ∀ t ∈ tasks, IsValid env t) : WithinLimits (formatTaskList tasks) := by
  unfold formatTaskList
  split
  · refine ⟨by simp, fun block hblock => ?_⟩
    rw [List.mem_singleton.1 hblock]
    show 1 ≤ shownLength _ ∧ shownLength _ ≤ 3000
    decide
  · refine ⟨?_, fun block hblock => ?_⟩
    · have htake : (tasks.take 20).length ≤ 20 := by simp
      have hfooter : (if tasks.length > 20 then
          [Block.context [[str "Showing 20 of ", num tasks.length, str " tasks"]]] else []).length
            ≤ 1 := by
        split <;> simp
      simp only [List.length_append, List.length_map, List.length_singleton]
      omega
    · rcases List.mem_append.1 hblock with hblock | hfooter
      · rcases List.mem_append.1 hblock with hheader | hentry
        · rw [List.mem_singleton.1 hheader]
          have hnum := length_num_le (n := tasks.length) (by omega)
          have hopen : (str "Tasks (").text.length = 7 := by decide
          have hclose : (str ")").text.length = 1 := by decide
          show shownLength _ ≤ 150
          simp only [shownLength_cons, shownLength_nil, hopen, hclose]
          omega
        · obtain ⟨t, ht, rfl⟩ := List.mem_map.1 hentry
          exact formatTaskEntry_withinLimits (hvalid t (List.mem_of_mem_take ht))
      · split at hfooter
        · rw [List.mem_singleton.1 hfooter]
          trivial
        · exact absurd hfooter List.not_mem_nil

/-! ## Cards -/

theorem shownLength_title (title : JsText) :
    shownLength [escaped (cutTitle title)] ≤ 150 ↔ TitleFits title := by
  rw [shownLength_cons, shownLength_nil, length_escaped, Nat.add_zero, cutTitle, TitleFits]
  by_cases hlong : title.length > 150
  · have hdots : sentLength (codeUnits "...") = 3 := by decide
    rw [if_pos hlong, if_neg (by omega), sentLength_append, hdots]
    omega
  · rw [if_neg hlong, if_pos (by omega)]

theorem codeUnits_eq_nil {s : String} : codeUnits s = [] ↔ s = "" := by
  constructor
  · intro h
    rw [← String.toList_eq_nil_iff]
    by_contra hne
    obtain ⟨c, rest, hs⟩ := List.exists_cons_of_ne_nil hne
    rw [codeUnits, hs, List.flatMap_cons] at h
    have hfirst := (List.append_eq_nil_iff.1 h).1
    split at hfirst <;> exact List.cons_ne_nil _ _ hfirst
  · rintro rfl
    rfl

theorem sentLength_eq_zero {s : JsText} : sentLength s = 0 ↔ s = [] := by
  rw [← length_escape, List.length_eq_zero_iff]
  cases s with
  | nil => simp [escape_eq]
  | cons u rest =>
    have hunit : entity u ≠ [] := by
      unfold entity
      split_ifs <;> simp [codeUnits]
    simp [escape_eq, hunit]

/-- A field that shows a value, or a text of at most 12 code units for an absent one. -/
theorem length_escapedOr {value : Option String} {fallback : String} {bound : Nat}
    (hfallback : (codeUnits fallback).length ≤ bound) :
    (escapedOr (value.map codeUnits) fallback).text.length ≤ bound ↔
      ∀ s, value = some s → sentLength (codeUnits s) ≤ bound := by
  cases value with
  | none => simpa [escapedOr, escapeSlackMrkdwn, str, Part.text] using hfallback
  | some s =>
    have hlength : (escapeSlackMrkdwn ((some s).map codeUnits)).length = sentLength (codeUnits s) :=
      length_escape (codeUnits s)
    simp only [Option.some.injEq, forall_eq']
    rw [escapedOr]
    by_cases hempty : escapeSlackMrkdwn ((some s).map codeUnits) = []
    · rw [hempty, List.length_nil] at hlength
      rw [if_pos hempty, ← hlength]
      exact iff_of_true hfallback (Nat.zero_le _)
    · rw [if_neg hempty, ← hlength]
      rfl

theorem shownLength_pair (s : String) (part : Part) :
    shownLength [str s, part] = (codeUnits s).length + part.text.length := by
  rw [shownLength_cons, shownLength_cons, shownLength_nil, Nat.add_zero]
  rfl

/-- The field of the tags, which is there if there are any. -/
def tagsField (tags : List String) : List Parts :=
  if tags.length > 0 then
    [[str "*Tags*\n", escaped ((codeUnits ", ").intercalate (tags.map codeUnits))]]
  else []

/-- The fields of a card that are always there. -/
def fixedFields (task : Task) : List Parts :=
  [[str "*Status*\n", str (statusEmoji task.status), str " ", str task.status.text],
    [str "*Priority*\n", str (priorityIndicator task.priority)],
    [str "*Assignee*\n", escapedOr (task.assignee.map codeUnits) "_unassigned_"],
    [str "*Due Date*\n", escapedOr (task.dueDate.map codeUnits) "_none_"],
    [str "*Project*\n#", num task.projectId],
    [str "*Created by*\n", escaped (codeUnits task.createdBy)]]

/-- The blocks of the description. -/
def descriptionBlocks (description : Option String) : List Block :=
  match description with
  | none => []
  | some text => [.divider, .section [escaped ((codeUnits text).take 3000)]]

theorem formatTaskDetail_eq (task : Task) :
    formatTaskDetail task =
      [.header [escaped (cutTitle (codeUnits task.title))],
        .fields (fixedFields task ++ tagsField task.tags)] ++ descriptionBlocks task.description := by
  unfold formatTaskDetail descriptionBlocks
  cases task.description <;> rfl

theorem tagsField_iff (tags : List String) :
    (∀ text ∈ tagsField tags, shownLength text ≤ 2000) ↔
      sentLength ((codeUnits ", ").intercalate (tags.map codeUnits)) ≤ 1993 := by
  have hname : (codeUnits "*Tags*\n").length = 7 := by decide
  unfold tagsField
  cases tags with
  | nil => exact iff_of_true (by simp) (by decide)
  | cons tag rest =>
    rw [if_pos (by simp)]
    simp only [List.mem_singleton, forall_eq, shownLength_pair, length_escaped, hname]
    omega

theorem descriptionBlocks_iff (description : Option String) :
    (∀ block ∈ descriptionBlocks description, block.WithinLimits) ↔
      ∀ text, description = some text → text ≠ "" ∧
        sentLength ((codeUnits text).take 3000) ≤ 3000 := by
  cases description with
  | none => exact iff_of_true (by simp [descriptionBlocks]) (by simp)
  | some text =>
    have hempty : 1 ≤ sentLength ((codeUnits text).take 3000) ↔ text ≠ "" := by
      rw [Nat.one_le_iff_ne_zero, ne_eq, sentLength_eq_zero, List.take_eq_nil_iff, codeUnits_eq_nil]
      simp
    have hlength : shownLength [escaped ((codeUnits text).take 3000)] =
        sentLength ((codeUnits text).take 3000) := by
      rw [shownLength_cons, shownLength_nil, length_escaped, Nat.add_zero]
    simp [descriptionBlocks, Block.WithinLimits, hlength, hempty]

/-- Of the fields that are always there, only a due date can be too long. -/
theorem fixedFields_iff {env : Env} {t : Task} (h : IsValid env t) :
    (∀ text ∈ fixedFields t, shownLength text ≤ 2000) ↔
      ∀ due, t.dueDate = some due → sentLength (codeUnits due) ≤ 1989 := by
  obtain ⟨-, hcreatedBy, hassignee⟩ := h.lengths
  have hstatus : shownLength
      [str "*Status*\n", str (statusEmoji t.status), str " ", str t.status.text] ≤ 2000 := by
    cases t.status <;> decide
  have hpriority : shownLength [str "*Priority*\n", str (priorityIndicator t.priority)] ≤ 2000 := by
    cases t.priority <;> decide
  have hassigneeField : shownLength
      [str "*Assignee*\n", escapedOr (t.assignee.map codeUnits) "_unassigned_"] ≤ 2000 := by
    have hfallback : (codeUnits "_unassigned_").length ≤ 500 := by decide
    have hvalue := (length_escapedOr hfallback).2 hassignee
    have hname : (codeUnits "*Assignee*\n").length = 11 := by decide
    rw [shownLength_pair, hname]
    omega
  have hdue : shownLength [str "*Due Date*\n", escapedOr (t.dueDate.map codeUnits) "_none_"] ≤ 2000
      ↔ ∀ due, t.dueDate = some due → sentLength (codeUnits due) ≤ 1989 := by
    have hfallback : (codeUnits "_none_").length ≤ 1989 := by decide
    have hname : (codeUnits "*Due Date*\n").length = 11 := by decide
    rw [← length_escapedOr hfallback, shownLength_pair, hname]
    omega
  have hproject : shownLength [str "*Project*\n#", num t.projectId] ≤ 2000 := by
    have hvalue := length_num_le h.projectId
    have hname : (codeUnits "*Project*\n#").length = 11 := by decide
    rw [shownLength_pair, hname]
    omega
  have hcreated : shownLength [str "*Created by*\n", escaped (codeUnits t.createdBy)] ≤ 2000 := by
    have hname : (codeUnits "*Created by*\n").length = 13 := by decide
    rw [shownLength_pair, hname, length_escaped]
    omega
  unfold fixedFields
  simp only [List.forall_mem_cons, hstatus, hpriority, hassigneeField, hproject, hcreated, true_and,
    List.not_mem_nil, false_implies, implies_true, and_true, hdue]

/-- A card stays within the limits exactly if its escaped values fit. -/
theorem formatTaskDetail_withinLimits_iff {env : Env} {t : Task} (h : IsValid env t) :
    WithinLimits (formatTaskDetail t) ↔ (SlackMessage.detail t).Fits := by
  have hcount : (fixedFields t ++ tagsField t.tags).length ≤ 10 := by
    unfold tagsField
    split <;> simp [fixedFields]
  have hblocks : (formatTaskDetail t).length ≤ 50 := by
    rw [formatTaskDetail_eq]
    cases t.description <;> simp [descriptionBlocks]
  rw [WithinLimits, formatTaskDetail_eq, List.forall_mem_append, descriptionBlocks_iff,
    ← formatTaskDetail_eq]
  simp only [hblocks, true_and, List.forall_mem_cons, header_withinLimits, fields_withinLimits,
    shownLength_title, hcount, List.forall_mem_append, fixedFields_iff h, tagsField_iff,
    List.not_mem_nil, false_implies, implies_true, and_true, SlackMessage.Fits, and_assoc]

/-! ## Notifications -/

theorem length_actorPart (actor : Option String) :
    (actorPart actor).text.length = (codeUnits (actor.getD "system")).length := by
  cases actor <;> rfl

/-- The length of the text of a notification. -/
theorem shownLength_notification (event : TaskEvent) (projectName : String) :
    ∃ text, formatTaskNotification event projectName = [.section text] ∧
      shownLength text = notificationLength event projectName := by
  refine ⟨_, rfl, ?_⟩
  have hstar : (str "*").text.length = 1 := by decide
  have hby : (str "* by ").text.length = 5 := by decide
  have hline : (str "\n").text.length = 1 := by decide
  have hmark : (str " *#").text.length = 3 := by decide
  have hblank : (str " ").text.length = 1 := by decide
  have hunder : (str "_").text.length = 1 := by decide
  have hdot : (str " · ").text.length = 3 := by decide
  have hshow : (str "`/tasks show ").text.length = 13 := by decide
  have htick : (str "`").text.length = 1 := by decide
  have hstr : ∀ s, (str s).text.length = (codeUnits s).length := fun _ => rfl
  have hnum : (num event.data.id).text.length = (codeUnits (toString event.data.id)).length := rfl
  unfold detailLines notificationLength
  by_cases hproject : projectName = ""
  · rw [if_pos hproject, if_pos hproject]
    simp only [List.append_nil, List.intercalate_cons_cons, List.intercalate_singleton,
      List.cons_append, List.nil_append, shownLength_append, shownLength_cons, shownLength_nil,
      length_escaped, length_actorPart, shownLength_assigneeMention, hstar, hby, hline, hmark,
      hblank, hdot, hshow, htick, hnum, hstr (eventLabel _), hstr (statusEmoji _),
      hstr (priorityIndicator _)]
    ring
  · rw [if_neg hproject, if_neg hproject]
    simp only [List.intercalate_cons_cons, List.intercalate_singleton,
      List.cons_append, List.nil_append, shownLength_append, shownLength_cons, shownLength_nil,
      length_escaped, length_actorPart, shownLength_assigneeMention, hstar, hby, hline, hmark,
      hblank, hunder, hdot, hshow, htick, hnum, hstr (eventLabel _), hstr (statusEmoji _),
      hstr (priorityIndicator _)]
    ring

theorem formatTaskNotification_withinLimits_iff (event : TaskEvent) (projectName : String) :
    WithinLimits (formatTaskNotification event projectName) ↔
      (SlackMessage.notification event projectName).Fits := by
  obtain ⟨text, hblocks, hlength⟩ := shownLength_notification event projectName
  have hpos : 1 ≤ notificationLength event projectName := by
    unfold notificationLength
    omega
  rw [hblocks, WithinLimits, SlackMessage.Fits]
  simp [section_withinLimits, hlength, hpos]

/-- **Main theorem.** The blocks of a message about valid tasks stay within Slack's limits exactly
    if the escaped values fit: a list always does. -/
theorem slack_limits_iff (env : Env) (message : SlackMessage) (h : message.IsValid env) :
    WithinLimits message.blocks ↔ message.Fits := by
  cases message with
  | list tasks => exact iff_of_true (formatTaskList_withinLimits h.1 h.2) trivial
  | detail task => exact formatTaskDetail_withinLimits_iff h
  | notification event projectName =>
    exact formatTaskNotification_withinLimits_iff event projectName

/-- A task with a title and a description. -/
def plainTask (title : String) (description : Option String) : Task :=
  { id := 1, title, description, status := .open, priority := .medium, projectId := 1,
    parentTaskId := none, estimatedMinutes := none, assignee := none, createdBy := "user",
    dueDate := none, createdAt := .iso 0, updatedAt := .iso 0, version := 1, claimedAt := none,
    completedAt := none, acceptanceCriteria := none, verificationEvidence := none, wsjf := {},
    createdByUserId := none, assigneeUserId := none, tags := [] }

/-- The theorem at a card that fits. -/
theorem slack_limits_plain_card :
    WithinLimits (formatTaskDetail (plainTask "Fix R&D build" none)) := by
  have hvalid : IsValid .undisturbed (plainTask "Fix R&D build" none) :=
    ⟨by decide +kernel, by decide, by decide⟩
  have htitle : TitleFits (codeUnits "Fix R&D build") := by
    rw [TitleFits, if_pos (by decide)]
    decide
  exact (slack_limits_iff .undisturbed (.detail (plainTask "Fix R&D build" none)) hvalid).2
    ⟨htitle, by simp [plainTask], by decide, by simp [plainTask]⟩

/-- A title of 40 ampersands is not cut, and becomes a header of 200 code units. -/
theorem ampersand_title_exceeds_header :
    (SlackMessage.detail (plainTask (String.ofList (List.replicate 40 '&')) none)).IsValid .undisturbed ∧
      ¬ WithinLimits (formatTaskDetail (plainTask (String.ofList (List.replicate 40 '&')) none)) := by
  refine ⟨⟨by decide +kernel, by decide, by decide⟩, fun h => ?_⟩
  have hheader := h.2 _ (List.mem_cons_self)
  have hlength : shownLength
      [escaped (cutTitle (codeUnits (String.ofList (List.replicate 40 '&'))))] = 200 := by
    decide +kernel
  exact absurd (hlength ▸ header_withinLimits.1 hheader) (by decide)

end WoodFiredTasks.Slack
