import WoodFiredTasks.Events.Types
import WoodFiredTasks.Slack.Mrkdwn

set_option autoImplicit false

/-! # Slack messages about tasks

The Block Kit blocks of `src/slack/task-formatter.ts` and the posts of `SlackNotifier`. A text is
the list of its parts, so that the part that came from a field can be told from the rest; `render`
is the text that is sent. Finding the subscribed channels and the project are parameters, and the
retries of a post, which send the same message again, are left out. -/

namespace WoodFiredTasks.Slack

open Migrate (codeUnits)

/-! ## Texts and blocks -/

/-- A part of a text. -/
inductive Part where
  /-- Fixed text, a number, or the name of a status, a priority or an event type. -/
  | lit (text : JsText)
  /-- What is shown for the value of a user's field. -/
  | field (value shown : JsText)
  deriving DecidableEq

/-- The part as it is sent. -/
def Part.text : Part → JsText
  | .lit text => text
  | .field _ shown => shown

/-- The parts of a text. -/
abbrev Parts := List Part

/-- The text that is sent. -/
def render (parts : Parts) : JsText := parts.flatMap Part.text

/-- Fixed text. -/
def str (s : String) : Part := .lit (codeUnits s)

/-- A number. -/
def num (n : Nat) : Part := .lit (codeUnits (toString n))

/-- A field that is escaped. -/
def escaped (value : JsText) : Part := .field value (escape value)

/-- A field that is sent as it is. -/
def raw (value : JsText) : Part := .field value value

inductive Block where
  /-- A header, in plain text with emoji. -/
  | header (text : Parts)
  | «section» (text : Parts)
  /-- A section with fields. -/
  | fields (fields : List Parts)
  | divider
  | context (elements : List Parts)

/-- The texts of a block. -/
def Block.texts : Block → List Parts
  | .header text => [text]
  | .section text => [text]
  | .fields list => list
  | .divider => []
  | .context elements => elements

/-! ## Lookup maps -/

/-- `STATUS_EMOJI` -/
def statusEmoji : TaskStatus → String
  | .open => "⚪"
  | .inProgress => "🔵"
  | .done => "✅"
  | .closed => "⛔"
  | .blocked => "🔴"
  | .backlogged => "🟡"

/-- `PRIORITY_INDICATOR` -/
def priorityIndicator : TaskPriority → String
  | .urgent => "🔴 urgent"
  | .high => "🟠 high"
  | .medium => "🟡 medium"
  | .low => "⚪ low"

/-- `EVENT_LABELS` -/
def eventLabel : EventType → String
  | .taskCreated => "Task created"
  | .taskUpdated => "Task updated"
  | .taskStatusChanged => "Status changed"
  | .taskClaimed => "Task claimed"
  | .taskClaimReleased => "Claim released (TTL expired)"
  | .taskDeleted => "Task deleted"

/-- The event type as a text. -/
def eventTypeText : EventType → String
  | .taskCreated => "task.created"
  | .taskUpdated => "task.updated"
  | .taskStatusChanged => "task.status_changed"
  | .taskClaimed => "task.claimed"
  | .taskClaimReleased => "task.claim_released"
  | .taskDeleted => "task.deleted"

/-! ## Formatters -/

/-- The assignee as a mention. -/
def assigneeMention (assignee : Option String) : Parts :=
  match assignee with
  | none => [str "_unassigned_"]
  | some name =>
    if name = "" then [str "_unassigned_"] else [str "@", escaped (codeUnits name)]

/-- One entry of `formatTaskList`. -/
def formatTaskEntry (task : Task) : Parts :=
  [str (statusEmoji task.status), str " *#", num task.id, str " ", escaped (codeUnits task.title),
    str "*\n", str (priorityIndicator task.priority), str " · "] ++ assigneeMention task.assignee

/-- `formatTaskList` -/
def formatTaskList (tasks : List Task) : List Block :=
  if tasks.length = 0 then [.section [str "_No tasks found._"]]
  else
    [.header [str "Tasks (", num tasks.length, str ")"]] ++
      (tasks.take 20).map (fun task => .section (formatTaskEntry task)) ++
      if tasks.length > 20 then
        [.context [[str "Showing 20 of ", num tasks.length, str " tasks"]]]
      else []

/-- The title of a card, at most 150 code units long. -/
def cutTitle (title : JsText) : JsText :=
  if title.length > 150 then title.take 147 ++ codeUnits "..." else title

/-- An escaped field, or the given text where nothing is left of it. -/
def escapedOr (value : Option JsText) (fallback : String) : Part :=
  if escapeSlackMrkdwn value = [] then str fallback
  else .field (value.getD []) (escapeSlackMrkdwn value)

/-- `formatTaskDetail` -/
def formatTaskDetail (task : Task) : List Block :=
  let fields : List Parts :=
    [[str "*Status*\n", str (statusEmoji task.status), str " ", str task.status.text],
      [str "*Priority*\n", str (priorityIndicator task.priority)],
      [str "*Assignee*\n", escapedOr (task.assignee.map codeUnits) "_unassigned_"],
      [str "*Due Date*\n", escapedOr (task.dueDate.map codeUnits) "_none_"],
      [str "*Project*\n#", num task.projectId],
      [str "*Created by*\n", escaped (codeUnits task.createdBy)]] ++
    if task.tags.length > 0 then
      [[str "*Tags*\n", escaped ((codeUnits ", ").intercalate (task.tags.map codeUnits))]]
    else []
  [.header [escaped (cutTitle (codeUnits task.title))], .fields fields] ++
    match task.description with
    | none => []
    | some description => [.divider, .section [escaped ((codeUnits description).take 3000)]]

/-- A task event, as far as a notification shows it. -/
structure TaskEvent where
  eventType : EventType
  data : Task
  actor : Option String

/-- `metadata.actor ?? 'system'` -/
def actorPart (actor : Option String) : Part :=
  match actor with
  | none => str "system"
  | some name => raw (codeUnits name)

/-- The lines of a notification after the first. -/
def detailLines (task : Task) (projectName : String) : List Parts :=
  [[str (statusEmoji task.status), str " *#", num task.id, str " ",
      escaped (codeUnits task.title), str "*"]] ++
  (if projectName = "" then [] else [[str "_", escaped (codeUnits projectName), str "_"]]) ++
  [[str (priorityIndicator task.priority), str " · "] ++ assigneeMention task.assignee,
    [str "`/tasks show ", num task.id, str "`"]]

/-- `formatTaskNotification` -/
def formatTaskNotification (event : TaskEvent) (projectName : String) : List Block :=
  let firstLine := [str "*", str (eventLabel event.eventType), str "* by ", actorPart event.actor]
  [.section ([str "\n"].intercalate (firstLine :: detailLines event.data projectName))]

/-! ## The notifier -/

/-- The message given to `chat.postMessage`. -/
structure Post where
  channel : String
  blocks : List Block
  text : Parts

/-- The texts of a post, the fallback text last. -/
def Post.texts (post : Post) : List Parts := post.blocks.flatMap Block.texts ++ [post.text]

/-- The name of the project, as well as it can be found. -/
def resolveProjectName (getProject : Nat → Option Project) (projectId : Nat) : String :=
  match getProject projectId with
  | some project => project.name
  | none => "Project #" ++ toString projectId

/-- The message for an event. -/
def eventPost (getProject : Nat → Option Project) (eventType : EventType) (event : TaskEvent)
    (channelId : String) : Post where
  channel := channelId
  blocks := formatTaskNotification event (resolveProjectName getProject event.data.projectId)
  text := [str (eventTypeText eventType), str ": ", raw (codeUnits event.data.title)]

/-- `SlackNotifier.handleTaskEvent`: one post for each subscribed channel. -/
def handleTaskEvent (findSubscribedChannels : Nat → EventType → List String)
    (getProject : Nat → Option Project) (eventType : EventType) (event : TaskEvent) : List Post :=
  let channels := findSubscribedChannels event.data.projectId eventType
  if channels.length = 0 then [] else channels.map (eventPost getProject eventType event)

end WoodFiredTasks.Slack
