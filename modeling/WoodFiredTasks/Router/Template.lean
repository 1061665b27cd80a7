import Mathlib.Data.List.Basic
import Mathlib.Data.Rat.Defs

set_option autoImplicit false

/-! # Templates

A rule hands its handler a `with:` block, a JSON value whose strings may stand for a field of the
event's task: `{{task.<path>}}`, and nothing else in the string. Here are the renderer of such a
block (`packages/wft-router/src/dispatch/template.ts`) and the check that the loader makes of it
(`validateTemplating` of `config/triggers-schema.ts`).

Left out: what a path finds on a JavaScript prototype (`{{task.constructor}}`), and the warnings
of a missed path or of a long value. -/

namespace WoodFiredTasks.Router

/-- A value of a `with:` block. -/
inductive Json where
  | null
  | bool (b : Bool)
  | num (n : Rat)
  | str (s : String)
  | arr (items : List Json)
  | obj (fields : List (String × Json))

/-- The task of an event, as rules see it. A field that the event lacks is `none`; a parent or an
    assignee that the event has as `null` is `some none`. -/
structure TaskShape where
  id : Option Int := none
  projectId : Option Int := none
  projectSlug : Option String := none
  status : Option String := none
  tags : Option (List String) := none
  parentTaskId : Option (Option Int) := none
  assignee : Option (Option String) := none
  deriving DecidableEq

/-- What an event tells about a change of status. -/
structure MetadataShape where
  fromStatus : Option String := none
  toStatus : Option String := none
  source : Option String := none
  deriving DecidableEq

/-- `EventPayloadShape`: an event as rules see it. -/
structure EventPayloadShape where
  type : String
  task : Option TaskShape := none
  metadata : Option MetadataShape := none
  deriving DecidableEq

/-! ## Tokens -/

/-- `[^}]*}}` matches a prefix. -/
def closes : List Char → Bool
  | [] => false
  | '\x7d' :: rest => rest.head? = some '\x7d'
  | _ :: rest => closes rest

/-- `[^}]*}}` matches the whole text. -/
def closesExactly : List Char → Bool
  | [] => false
  | '\x7d' :: rest => rest = ['\x7d']
  | _ :: rest => closesExactly rest

/-- What follows an opening `{{`. -/
def afterOpen : List Char → Option (List Char)
  | '\x7b' :: '\x7b' :: rest => some rest
  | _ => none

/-- `TEMPLATE_TOKEN_RE` and `TOKEN_PRESENT_RE`: a token stands somewhere in the text. -/
def tokenPresent : List Char → Bool
  | [] => false
  | c :: rest => (afterOpen (c :: rest)).any closes || tokenPresent rest

/-- The loader's `PURE_SUBSTITUTION_RE`: the whole text is one token. -/
def pureToken (text : List Char) : Bool := (afterOpen text).any closesExactly

/-- `[a-zA-Z0-9_.]` -/
def pathChar (c : Char) : Bool := c.isAlphanum || c = '_' || c = '.'

/-- The renderer's `PURE_SUBSTITUTION_RE`: the path of a text that is one `{{task.<path>}}`. -/
def taskPath (text : List Char) : Option (List Char) :=
  match (afterOpen text).bind fun rest =>
      if "task.".toList.isPrefixOf rest then some (rest.drop 5) else none with
  | none => none
  | some rest =>
    let path := rest.takeWhile pathChar
    if path ≠ [] ∧ rest.dropWhile pathChar = ['\x7d', '\x7d'] then some path else none

/-! ## The loader's check -/

/-- `TemplatingIssue` -/
structure TemplatingIssue where
  path : String
  message : String
  deriving DecidableEq

/-- `ENV_VAR_NAME_RE`, `^[A-Z][A-Z0-9_]*$` -/
def envVarName : List Char → Bool
  | [] => false
  | c :: rest => c.isUpper && rest.all fun c => c.isUpper || c.isDigit || c = '_'

def checkStringForTemplatingViolations (s path : String) : List TemplatingIssue :=
  if !tokenPresent s.toList then []
  else if pureToken s.toList then []
  else [{ path, message :=
    "templating: \x7b\x7b...\x7d\x7d substitution must occupy the entire string " ++
    "(see event-router-design.md §\"Templating\" rule 1 — substitutions " ++
    "at bare JSON value positions only)" }]

/-- The issue of a `token_env` that names no environment variable. -/
def tokenEnvIssues (name path : String) : List TemplatingIssue :=
  if envVarName name.toList then []
  else [{ path, message :=
    "token_env must be an env-var name (UPPER_SNAKE, leading letter); got \"" ++ name ++ "\"" }]

/-- The text under the key `token_env`, which is no template. -/
def tokenEnvName (k : String) : Json → Option String
  | .str s => if k = "token_env" then some s else none
  | _ => none

mutual

def walkWithValue : Json → String → List TemplatingIssue
  | .str s, path => checkStringForTemplatingViolations s path
  | .arr items, path => walkWithItems items 0 path
  | .obj fields, path => walkWithFields fields path
  | .null, _ | .bool _, _ | .num _, _ => []

def walkWithItems : List Json → Nat → String → List TemplatingIssue
  | [], _, _ => []
  | item :: rest, i, path =>
    walkWithValue item (path ++ "[" ++ toString i ++ "]") ++ walkWithItems rest (i + 1) path

def walkWithFields : List (String × Json) → String → List TemplatingIssue
  | [], _ => []
  | field :: rest, path => walkWithField field path ++ walkWithFields rest path

def walkWithField : String × Json → String → List TemplatingIssue
  | (k, v), path =>
    match tokenEnvName k v with
    | some name => tokenEnvIssues name (path ++ "." ++ k)
    | none => walkWithValue v (path ++ "." ++ k)

end

/-! ## The renderer -/

/-- `TemplatingError`, with the place that its message names. -/
structure TemplatingError where
  path : String

/-- The message of the error. -/
def TemplatingError.message (err : TemplatingError) : String :=
  "templating: \x7b\x7b...\x7d\x7d substitution must occupy the entire string (at " ++ err.path ++
    "). Mixed substitutions are rejected at config-parse time; this is the runtime defense."

/-- `maxValueBytes` -/
def maxValueBytes : Nat := 4096

/-- `truncatedHeadBytes` and `truncatedTailBytes` -/
def truncatedBytes : Nat := 2048

/-- The longest prefix of at most that many bytes. -/
def takeBytes : Nat → List Char → List Char
  | _, [] => []
  | budget, c :: rest =>
    if c.utf8Size ≤ budget then c :: takeBytes (budget - c.utf8Size) rest else []

/-- `truncateUtf8`: a head and a tail with an ellipsis between them. -/
def truncateUtf8 (s : String) : String :=
  String.ofList (takeBytes truncatedBytes s.toList ++
    '…' :: (takeBytes truncatedBytes s.toList.reverse).reverse)

def applyStringRules (s : String) : String :=
  if s.utf8ByteSize ≤ maxValueBytes then s else truncateUtf8 s

/-- A key with its value, if the event has it. -/
def jsonField {α : Type} (key : String) (toJson : α → Json) (value : Option α) :
    List (String × Json) :=
  (value.map fun a => (key, toJson a)).toList

/-- A value that may be `null`. -/
def jsonNullable {α : Type} (toJson : α → Json) : Option α → Json
  | none => .null
  | some a => toJson a

/-- The task as the object that `resolvePath` walks. -/
def TaskShape.toJson (task : TaskShape) : Json :=
  .obj (jsonField "id" (fun n : Int => .num n) task.id ++
    jsonField "project_id" (fun n : Int => .num n) task.projectId ++
    jsonField "project_slug" .str task.projectSlug ++
    jsonField "status" .str task.status ++
    jsonField "tags" (fun tags => .arr (tags.map .str)) task.tags ++
    jsonField "parent_task_id" (jsonNullable fun n : Int => .num n) task.parentTaskId ++
    jsonField "assignee" (jsonNullable .str) task.assignee)

/-- A property of a value: a key of an object, an index or the length of an array. -/
def Json.property (segment : String) : Json → Option Json
  | .obj fields => fields.lookup segment
  | .arr items =>
    if segment = "length" then some (.num items.length)
    else ((List.range items.length).find? fun i => toString i = segment).bind fun i => items[i]?
  | _ => none

def resolvePath (event : EventPayloadShape) (dottedPath : List Char) : Option Json :=
  (dottedPath.splitOn '.').foldl
    (fun current segment => current.bind (Json.property (String.ofList segment)))
    (event.task.map TaskShape.toJson)

/-- What a found value becomes: a text may be too long, a miss is `null`. -/
def resolvedValue : Option Json → Json
  | none => .null
  | some (.str s) => .str (applyStringRules s)
  | some v => v

def renderString (event : EventPayloadShape) (raw path : String) : Except TemplatingError Json :=
  match taskPath raw.toList with
  | some dottedPath => .ok (resolvedValue (resolvePath event dottedPath))
  | none => if tokenPresent raw.toList then .error ⟨path⟩ else .ok (.str raw)

mutual

def walk (event : EventPayloadShape) : Json → String → Except TemplatingError Json
  | .str s, path => renderString event s path
  | .arr items, path => (walkItems event items 0 path).map .arr
  | .obj fields, path => (walkFields event fields path).map .obj
  | .null, _ => .ok .null
  | .bool b, _ => .ok (.bool b)
  | .num n, _ => .ok (.num n)

def walkItems (event : EventPayloadShape) : List Json → Nat → String →
    Except TemplatingError (List Json)
  | [], _, _ => .ok []
  | item :: rest, i, path =>
    (walk event item (path ++ "[" ++ toString i ++ "]")).bind fun item' =>
      (walkItems event rest (i + 1) path).map (item' :: ·)

def walkFields (event : EventPayloadShape) : List (String × Json) → String →
    Except TemplatingError (List (String × Json))
  | [], _ => .ok []
  | field :: rest, path =>
    (walkField event field path).bind fun field' => (walkFields event rest path).map (field' :: ·)

def walkField (event : EventPayloadShape) : String × Json → String →
    Except TemplatingError (String × Json)
  | (k, v), path => (walk event v (path ++ "." ++ k)).map fun v' => (k, v')

end

/-- `renderWith` -/
def renderWith (withBlock : List (String × Json)) (event : EventPayloadShape) :
    Except TemplatingError (List (String × Json)) :=
  walkFields event withBlock "with"

end WoodFiredTasks.Router
