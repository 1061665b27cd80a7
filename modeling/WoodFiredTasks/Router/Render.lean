import WoodFiredTasks.Lib.Utf8Text
import WoodFiredTasks.Router.Handlers

set_option autoImplicit false

/-! # The renderer on any event

`Template.lean` renders a block for the events that rules see. This is the same source file
(`packages/wft-router/src/dispatch/template.ts`) without what is left out there: the task of an
event is any JSON value, the byte limits are options, long texts are cut as bytes, and
`current[segment]` finds what an object or an array inherits from its prototype.

Left out: the warnings, the strip of chat controls (no handler asks for it), and texts that are no
sequences of code points. -/

namespace WoodFiredTasks.Router.Templating

open Utf8Text

/-- `RenderOptions` -/
structure RenderOptions where
  maxValueBytes : Nat := Router.maxValueBytes
  truncatedHeadBytes : Nat := truncatedBytes
  truncatedTailBytes : Nat := truncatedBytes
  deriving DecidableEq

/-! ## Properties -/

/-- What an object or an array inherits: functions, and the two prototypes. -/
inductive Builtin where
  | function (name : String)
  | objectPrototype
  | arrayPrototype
  deriving DecidableEq

/-- A value of the language other than `undefined`. -/
inductive Value where
  | json (v : Json)
  | builtin (b : Builtin)

/-- The functions of `Object.prototype`. -/
def objectFunctions : List String :=
  ["constructor", "__defineGetter__", "__defineSetter__", "hasOwnProperty", "__lookupGetter__",
    "__lookupSetter__", "isPrototypeOf", "propertyIsEnumerable", "toString", "valueOf",
    "toLocaleString"]

/-- The functions of `Array.prototype`. -/
def arrayFunctions : List String :=
  ["at", "concat", "constructor", "copyWithin", "entries", "every", "fill", "filter", "find",
    "findIndex", "findLast", "findLastIndex", "flat", "flatMap", "forEach", "includes", "indexOf",
    "join", "keys", "lastIndexOf", "map", "pop", "push", "reduce", "reduceRight", "reverse",
    "shift", "slice", "some", "sort", "splice", "toLocaleString", "toReversed", "toSorted",
    "toSpliced", "toString", "unshift", "values", "with"]

/-- What an object that lacks the property finds on its prototype. -/
def inheritedByObject (segment : String) : Option Value :=
  if segment = "__proto__" then some (.builtin .objectPrototype)
  else if segment ∈ objectFunctions then some (.builtin (.function segment))
  else none

/-- What an array that lacks the property finds on its prototypes. -/
def inheritedByArray (segment : String) : Option Value :=
  if segment = "__proto__" then some (.builtin .arrayPrototype)
  else if segment ∈ arrayFunctions ∨ segment ∈ objectFunctions then
    some (.builtin (.function segment))
  else none

/-- A property of a builtin. A function is no object (`typeof`), so the walk ends there. -/
def Builtin.get (segment : String) : Builtin → Option Value
  | .function _ => none
  | .objectPrototype =>
    if segment = "__proto__" then some (.json .null)
    else if segment ∈ objectFunctions then some (.builtin (.function segment))
    else none
  | .arrayPrototype =>
    if segment = "length" then some (.json (.num 0))
    else if segment ∈ arrayFunctions then some (.builtin (.function segment))
    else inheritedByObject segment

/-- What a value has on its prototypes. -/
def inherited (segment : String) : Json → Option Value
  | .obj _ => inheritedByObject segment
  | .arr _ => inheritedByArray segment
  | _ => none

/-- `current[segment]`, if `current` is an object. -/
def Value.get (segment : String) : Value → Option Value
  | .json v => (v.property segment).elim (inherited segment v) fun w => some (.json w)
  | .builtin b => b.get segment

/-- `resolvePath`: `none` is `undefined`. -/
def resolvePath (task : Option Json) (dottedPath : List Char) : Option Value :=
  (dottedPath.splitOn '.').foldl
    (fun current segment => current.bind (Value.get (String.ofList segment))) (task.map .json)

/-! ## Long texts -/

/-- `Buffer.byteLength` -/
def byteLength (s : String) : Nat := s.utf8ByteSize

/-- The bytes from `start` to `end`, less what is not a whole character. -/
def sliceAtCodepointBoundary (buf : List UInt8) (start stop : Int) : List Char :=
  let lo := (max 0 (min (buf.length : Int) start)).toNat
  let hi := max lo (min (buf.length : Int) stop).toNat
  let adjustedLo := rollForward buf lo
  let adjustedHi := rollBack buf adjustedLo hi
  decode ((buf.take adjustedHi).drop adjustedLo)

def truncateUtf8 (s : String) (headBytes tailBytes : Nat) : String :=
  let buf := encode s.toList
  String.ofList (sliceAtCodepointBoundary buf 0 headBytes ++
    '…' :: sliceAtCodepointBoundary buf (buf.length - tailBytes) buf.length)

def applyStringRules (opts : RenderOptions) (s : String) : String :=
  if byteLength s ≤ opts.maxValueBytes then s
  else truncateUtf8 s opts.truncatedHeadBytes opts.truncatedTailBytes

/-! ## The walk -/

/-- A rendered block: what stands for the leaves of the block is any value. -/
inductive Rendered where
  | value (v : Value)
  | arr (items : List Rendered)
  | obj (fields : List (String × Rendered))

/-- What a found value becomes. -/
def resolvedValue (opts : RenderOptions) : Option Value → Value
  | none => .json .null
  | some (.json (.str s)) => .json (.str (applyStringRules opts s))
  | some v => v

def renderString (opts : RenderOptions) (task : Option Json) (raw path : String) :
    Except TemplatingError Value :=
  match taskPath raw.toList with
  | some dottedPath => .ok (resolvedValue opts (resolvePath task dottedPath))
  | none => if tokenPresent raw.toList then .error ⟨path⟩ else .ok (.json (.str raw))

/-- `out[k] = v`, which sets no key but the prototype of `out` if the key is `__proto__`. -/
def assign (field : String × Rendered) (out : List (String × Rendered)) :
    List (String × Rendered) :=
  if field.1 = "__proto__" then out else field :: out

mutual

def walk (opts : RenderOptions) (task : Option Json) : Json → String →
    Except TemplatingError Rendered
  | .str s, path => (renderString opts task s path).map .value
  | .arr items, path => (walkItems opts task items 0 path).map .arr
  | .obj fields, path => (walkFields opts task fields path).map .obj
  | .null, _ => .ok (.value (.json .null))
  | .bool b, _ => .ok (.value (.json (.bool b)))
  | .num n, _ => .ok (.value (.json (.num n)))

def walkItems (opts : RenderOptions) (task : Option Json) : List Json → Nat → String →
    Except TemplatingError (List Rendered)
  | [], _, _ => .ok []
  | item :: rest, i, path =>
    (walk opts task item (path ++ "[" ++ toString i ++ "]")).bind fun item' =>
      (walkItems opts task rest (i + 1) path).map (item' :: ·)

def walkFields (opts : RenderOptions) (task : Option Json) : List (String × Json) → String →
    Except TemplatingError (List (String × Rendered))
  | [], _ => .ok []
  | field :: rest, path =>
    (walkField opts task field path).bind fun field' =>
      (walkFields opts task rest path).map (assign field')

def walkField (opts : RenderOptions) (task : Option Json) : String × Json → String →
    Except TemplatingError (String × Rendered)
  | (k, v), path => (walk opts task v (path ++ "." ++ k)).map fun v' => (k, v')

end

/-- `renderWith` -/
def renderWith (withBlock : List (String × Json)) (task : Option Json) (opts : RenderOptions) :
    Except TemplatingError (List (String × Rendered)) :=
  walkFields opts task withBlock "with"

/-! ## Blocks that render -/

mutual

/-- Whether a value renders is seen from its texts. -/
theorem walk_isOk (opts : RenderOptions) (task : Option Json) :
    ∀ (v : Json) (path : String), (walk opts task v path).isOk = v.renders
  | .str s, path => by
    rw [walk, Json.renders, isOk_map]
    unfold renderString renderable
    cases taskPath s.toList with
    | some dottedPath => rfl
    | none => cases htoken : tokenPresent s.toList <;> simp [Except.isOk, Except.toBool]
  | .arr items, path => by rw [walk, Json.renders, isOk_map, walkItems_isOk]
  | .obj fields, path => by rw [walk, Json.renders, isOk_map, walkFields_isOk]
  | .null, _ | .bool _, _ | .num _, _ => rfl

theorem walkItems_isOk (opts : RenderOptions) (task : Option Json) :
    ∀ (items : List Json) (i : Nat) (path : String),
      (walkItems opts task items i path).isOk = rendersItems items
  | [], _, _ => rfl
  | item :: rest, i, path => by
    rw [walkItems, rendersItems, isOk_bind_map, walk_isOk, walkItems_isOk]

theorem walkFields_isOk (opts : RenderOptions) (task : Option Json) :
    ∀ (fields : List (String × Json)) (path : String),
      (walkFields opts task fields path).isOk = rendersFields fields
  | [], _ => rfl
  | field :: rest, path => by
    rw [walkFields, rendersFields, isOk_bind_map, walkField_isOk, walkFields_isOk]

theorem walkField_isOk (opts : RenderOptions) (task : Option Json) :
    ∀ (field : String × Json) (path : String),
      (walkField opts task field path).isOk = rendersField field
  | (k, v), path => by rw [walkField, rendersField, isOk_map, walk_isOk]

end

end WoodFiredTasks.Router.Templating
