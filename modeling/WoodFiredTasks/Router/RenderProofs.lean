import WoodFiredTasks.Router.Render
import Mathlib.Tactic.Ring

set_option autoImplicit false

/-! # Cuts and paths of the renderer

A cut text is the longest prefix and the longest suffix within their budgets
(`toList_truncateUtf8`), so its length is known from what they leave (`byteLength_truncateUtf8`).
A walk along a path finds what the event itself has there (`getPath_own`); where the event has
nothing, it finds something only at the few paths that objects and arrays inherit
(`getPath_missed`). -/

namespace WoodFiredTasks.Router.Templating

open Utf8Text

/-! ## The cut of a long text -/

/-- What is left of the budget after the characters that fit in it. -/
def remainder : Nat → List Char → Nat
  | budget, [] => budget
  | budget, c :: rest => if c.utf8Size ≤ budget then remainder (budget - c.utf8Size) rest else budget

theorem length_takeBytes (budget : Nat) (cs : List Char) :
    (encode (takeBytes budget cs)).length + remainder budget cs = budget := by
  induction cs generalizing budget with
  | nil => simp [takeBytes, remainder]
  | cons c cs ih =>
    rw [takeBytes, remainder]
    split
    · next h =>
      have hrest := ih (budget - c.utf8Size)
      rw [encode_cons, List.length_append, String.length_utf8EncodeChar]
      omega
    · simp

/-- The text fits, or the budget ends within a character. -/
theorem takeBytes_cases (budget : Nat) (cs : List Char) :
    (encode cs).length ≤ budget ∧ takeBytes budget cs = cs ∨
      ∃ pre c post, cs = pre ++ c :: post ∧ takeBytes budget cs = pre ∧
        (encode pre).length ≤ budget ∧ budget < (encode pre).length + c.utf8Size := by
  induction cs generalizing budget with
  | nil => exact .inl ⟨Nat.zero_le _, rfl⟩
  | cons c cs ih =>
    rw [takeBytes]
    split
    · next hc =>
      rcases ih (budget - c.utf8Size) with ⟨hfits, heq⟩ | ⟨pre, d, post, rfl, heq, hle, hlt⟩
      · refine .inl ⟨?_, by rw [heq]⟩
        rw [encode_cons, List.length_append, String.length_utf8EncodeChar]
        omega
      · refine .inr ⟨c :: pre, d, post, rfl, by rw [heq], ?_, ?_⟩ <;>
        · rw [encode_cons, List.length_append, String.length_utf8EncodeChar]
          omega
    · next hc => exact .inr ⟨[], c, cs, rfl, rfl, Nat.zero_le _, by simpa using hc⟩

theorem takeBytes_prefix (budget : Nat) (cs : List Char) : takeBytes budget cs <+: cs := by
  rcases takeBytes_cases budget cs with ⟨-, heq⟩ | ⟨pre, c, post, hcs, heq, -, -⟩
  · rw [heq]
  · rw [heq]
    exact ⟨c :: post, hcs.symm⟩

theorem length_encode_reverse (cs : List Char) :
    (encode cs.reverse).length = (encode cs).length := by
  induction cs with
  | nil => rfl
  | cons c cs ih => simp [encode_append, ih, Nat.add_comm]

theorem slice_eq {buf : List UInt8} {start stop : Int} {lo hi : Nat}
    (hlo : (max 0 (min (buf.length : Int) start)).toNat = lo)
    (hhi : max lo (min (buf.length : Int) stop).toNat = hi) :
    sliceAtCodepointBoundary buf start stop =
      decode ((buf.take (rollBack buf (rollForward buf lo) hi)).drop (rollForward buf lo)) := by
  subst hlo hhi
  rfl

/-- The head is the longest prefix within its budget. -/
theorem slice_head (cs : List Char) (headBytes : Nat) :
    sliceAtCodepointBoundary (encode cs) 0 headBytes = takeBytes headBytes cs := by
  have hforward : rollForward (encode cs) 0 = 0 := rollForward_between [] cs
  rcases takeBytes_cases headBytes cs with ⟨hfits, heq⟩ | ⟨pre, c, post, rfl, heq, hle, hlt⟩
  · rw [slice_eq (show _ = 0 by omega) (show _ = (encode cs).length by omega), hforward,
      rollBack_length]
    simp [heq]
  · obtain ⟨k, rfl⟩ := Nat.exists_eq_add_of_le hle
    have hlen : (encode pre).length + c.utf8Size ≤ (encode (pre ++ c :: post)).length := by
      simp [encode_append]
    rw [slice_eq (show _ = 0 by omega) (show _ = (encode pre).length + k by omega), hforward,
      rollBack_within pre post (by omega), encode_append]
    simp [heq]

/-- The tail is the longest suffix within its budget. -/
theorem slice_tail (cs : List Char) (tailBytes : Nat) :
    sliceAtCodepointBoundary (encode cs) ((encode cs).length - tailBytes) (encode cs).length =
      (takeBytes tailBytes cs.reverse).reverse := by
  have hlen := length_encode_reverse cs
  rcases takeBytes_cases tailBytes cs.reverse with ⟨hfits, heq⟩ | ⟨pre, c, post, hcs, heq, hle, hlt⟩
  · have hforward : rollForward (encode cs) 0 = 0 := rollForward_between [] cs
    rw [slice_eq (show _ = 0 by omega) (show _ = (encode cs).length by omega), hforward,
      rollBack_length]
    simp [heq]
  · -- the cut is within the character, or before it, and moves to its end
    obtain rfl : cs = post.reverse ++ c :: pre.reverse := by
      rw [← cs.reverse_reverse, hcs]
      simp
    have hparts : (encode (post.reverse ++ c :: pre.reverse)).length =
        (encode post.reverse).length + (c.utf8Size + (encode pre).length) := by
      simp [encode_append, length_encode_reverse]
    rw [slice_eq (show _ = (encode post.reverse).length +
        (c.utf8Size + (encode pre).length - tailBytes) by omega)
        (show _ = (encode (post.reverse ++ c :: pre.reverse)).length by omega),
      rollForward_within _ _ (by omega) (by omega), rollBack_length, List.take_length,
      encode_append, List.drop_length_add_append, encode_cons, ← String.length_utf8EncodeChar c, List.drop_left,
      decode_encode, heq]

theorem toList_truncateUtf8 (s : String) (headBytes tailBytes : Nat) :
    (truncateUtf8 s headBytes tailBytes).toList =
      takeBytes headBytes s.toList ++ '…' :: (takeBytes tailBytes s.toList.reverse).reverse := by
  unfold truncateUtf8
  simp only [String.toList_ofList]
  rw [slice_tail]
  have hhead := slice_head s.toList headBytes
  rw [hhead]

/-- The bytes of a cut text, and what they leave of the two budgets. -/
theorem byteLength_truncateUtf8 (s : String) (headBytes tailBytes : Nat) :
    byteLength (truncateUtf8 s headBytes tailBytes) + remainder headBytes s.toList +
        remainder tailBytes s.toList.reverse = headBytes + tailBytes + 3 := by
  have hhead := length_takeBytes headBytes s.toList
  have htail := length_takeBytes tailBytes s.toList.reverse
  have hellipsis : (String.utf8EncodeChar '…').length = 3 := rfl
  rw [byteLength, ← length_encode, toList_truncateUtf8, encode_append, encode_cons, List.length_append, List.length_append,
    length_encode_reverse, hellipsis]
  omega

theorem length_encode_replicate (n : Nat) (c : Char) :
    (encode (List.replicate n c)).length = n * c.utf8Size := by
  induction n with
  | zero => simp
  | succ n ih =>
    rw [List.replicate_succ, encode_cons, List.length_append, ih, String.length_utf8EncodeChar]
    ring

/-- Characters of one byte leave nothing of a budget that they exceed. -/
theorem remainder_replicate (budget n : Nat) {c : Char} (hc : c.utf8Size = 1) :
    remainder budget (List.replicate n c) = budget - n := by
  induction n generalizing budget with
  | zero => rfl
  | succ n ih =>
    rw [List.replicate_succ, remainder]
    split
    · rw [ih]
      omega
    · omega

/-- Over the limit, a text of one-byte characters becomes longer than the limit. -/
theorem byteLength_cut_replicate {n : Nat} {c : Char} (hc : c.utf8Size = 1) (hn : 4096 < n) :
    byteLength (applyStringRules {} (String.ofList (List.replicate n c))) = 4099 := by
  have hlong : byteLength (String.ofList (List.replicate n c)) = n := by
    rw [byteLength, ← length_encode, String.toList_ofList, length_encode_replicate, hc, Nat.mul_one]
  have hbytes := byteLength_truncateUtf8 (String.ofList (List.replicate n c)) 2048 2048
  rw [String.toList_ofList, List.reverse_replicate, remainder_replicate _ _ hc] at hbytes
  have hlimit : ¬ n ≤ ({} : RenderOptions).maxValueBytes := Nat.not_le.2 hn
  rw [applyStringRules, hlong, if_neg hlimit]
  show byteLength (truncateUtf8 _ 2048 2048) = 4099
  omega

/-- With the limits that the handlers use, this is the rule of `Template.lean`. -/
theorem applyStringRules_default (s : String) :
    applyStringRules {} s = Router.applyStringRules s := by
  have hcut : truncateUtf8 s truncatedBytes truncatedBytes = Router.truncateUtf8 s := by
    rw [← String.toList_inj, toList_truncateUtf8, Router.truncateUtf8, String.toList_ofList]
  unfold Router.applyStringRules
  rw [← hcut]
  rfl

/-! ## The walk along a path -/

/-- The steps of a path. -/
def segments (dottedPath : List Char) : List String :=
  (dottedPath.splitOn '.').map String.ofList

/-- Where the steps of a path lead, if none of them fails. -/
def along {α : Type} (step : String → α → Option α) : α → List String → Option α
  | v, [] => some v
  | v, segment :: rest => (step segment v).bind fun w => along step w rest

/-- The value that the event itself has at a path. -/
def ownValue (v : Json) (path : List String) : Option Json := along Json.property v path

/-- The paths at which an object has something that it inherits. -/
def objectPaths : List (List String) :=
  objectFunctions.map (fun name => [name]) ++
    ["__proto__"] :: objectFunctions.map fun name => ["__proto__", name]

/-- The paths at which an array has something that it inherits. -/
def arrayPaths : List (List String) :=
  (arrayFunctions ++ objectFunctions).map (fun name => [name]) ++
    ["__proto__"] :: ["__proto__", "length"] ::
      (arrayFunctions.map (fun name => ["__proto__", name]) ++
        objectPaths.map fun path => "__proto__" :: path)

/-- The paths at which a value has something that it inherits. -/
def inheritedPaths : Json → List (List String)
  | .obj _ => objectPaths
  | .arr _ => arrayPaths
  | _ => []

/-- The path leaves the event for something inherited. -/
def strays : Json → List String → Bool
  | _, [] => false
  | v, segment :: rest =>
    (v.property segment).elim ((inheritedPaths v).contains (segment :: rest)) fun w => strays w rest

/-- The value that `resolvePath` finds at a path. -/
def getPath (v : Value) (path : List String) : Option Value := along Value.get v path

theorem ownValue_nil (v : Json) : ownValue v [] = some v := rfl

theorem ownValue_cons (v : Json) (segment : String) (rest : List String) :
    ownValue v (segment :: rest) = (v.property segment).bind fun w => ownValue w rest := rfl

@[simp] theorem getPath_nil (v : Value) : getPath v [] = some v := rfl

theorem getPath_cons (v : Value) (segment : String) (rest : List String) :
    getPath v (segment :: rest) = (v.get segment).bind fun w => getPath w rest := rfl

theorem foldl_along {α : Type} (step : String → α → Option α) (path : List (List Char))
    (current : Option α) :
    path.foldl (fun current segment => current.bind (step (String.ofList segment))) current =
      current.bind fun v => along step v (path.map String.ofList) := by
  induction path generalizing current with
  | nil => simp [along]
  | cons segment rest ih =>
    rw [List.foldl_cons, ih, Option.bind_assoc]
    rfl

theorem resolvePath_eq (task : Option Json) (dottedPath : List Char) :
    resolvePath task dottedPath =
      task.bind fun v => getPath (.json v) (segments dottedPath) := by
  unfold resolvePath segments
  rw [foldl_along, Option.bind_map]
  rfl

/-- What the event itself has is found. -/
theorem getPath_own {v w : Json} {path : List String} (h : ownValue v path = some w) :
    getPath (.json v) path = some (.json w) := by
  induction path generalizing v with
  | nil =>
    obtain rfl := Option.some.inj h
    rfl
  | cons segment rest ih =>
    rw [ownValue_cons] at h
    rw [getPath_cons, Value.get]
    cases hstep : v.property segment with
    | none => simp [hstep] at h
    | some u =>
      rw [hstep, Option.bind_some] at h
      exact ih h

/-- A walk that ends at nothing, or at `null`. -/
def Missed (found : Option Value) : Prop := found = none ∨ found = some (.json .null)

theorem missed_none : Missed none := .inl rfl

theorem not_missed_builtin (b : Builtin) : ¬ Missed (some (.builtin b)) := by
  simp [Missed]

theorem mem_objectPaths {segment : String} {rest : List String} :
    segment :: rest ∈ objectPaths ↔ segment ∈ objectFunctions ∧ rest = [] ∨
      segment = "__proto__" ∧ (rest = [] ∨ ∃ name ∈ objectFunctions, rest = [name]) := by
  unfold objectPaths
  simp only [List.mem_append, List.mem_cons, List.mem_map, List.cons.injEq]
  constructor
  · rintro (⟨name, hname, rfl, rfl⟩ | ⟨rfl, rfl⟩ | ⟨name, hname, rfl, rfl⟩)
    · exact .inl ⟨hname, rfl⟩
    · exact .inr ⟨rfl, .inl rfl⟩
    · exact .inr ⟨rfl, .inr ⟨name, hname, rfl⟩⟩
  · rintro (⟨hname, rfl⟩ | ⟨rfl, rfl | ⟨name, hname, rfl⟩⟩)
    · exact .inl ⟨segment, hname, rfl, rfl⟩
    · exact .inr (.inl ⟨rfl, rfl⟩)
    · exact .inr (.inr ⟨name, hname, rfl, rfl⟩)

theorem mem_arrayPaths {segment : String} {rest : List String} :
    segment :: rest ∈ arrayPaths ↔
      (segment ∈ arrayFunctions ∨ segment ∈ objectFunctions) ∧ rest = [] ∨
        segment = "__proto__" ∧ (rest = [] ∨ rest = ["length"] ∨
          (∃ name ∈ arrayFunctions, rest = [name]) ∨ rest ∈ objectPaths) := by
  unfold arrayPaths
  simp only [List.mem_append, List.mem_cons, List.mem_map, List.cons.injEq]
  constructor
  · rintro (⟨name, hname, rfl, rfl⟩ | ⟨rfl, rfl⟩ | ⟨rfl, rfl⟩ | ⟨name, hname, rfl, rfl⟩ |
      ⟨path, hpath, rfl, rfl⟩)
    · exact .inl ⟨hname, rfl⟩
    · exact .inr ⟨rfl, .inl rfl⟩
    · exact .inr ⟨rfl, .inr (.inl rfl)⟩
    · exact .inr ⟨rfl, .inr (.inr (.inl ⟨name, hname, rfl⟩))⟩
    · exact .inr ⟨rfl, .inr (.inr (.inr hpath))⟩
  · rintro (⟨hname, rfl⟩ | ⟨rfl, rfl | rfl | ⟨name, hname, rfl⟩ | hpath⟩)
    · exact .inl ⟨segment, hname, rfl, rfl⟩
    · exact .inr (.inl ⟨rfl, rfl⟩)
    · exact .inr (.inr (.inl ⟨rfl, rfl⟩))
    · exact .inr (.inr (.inr (.inl ⟨name, hname, rfl, rfl⟩)))
    · exact .inr (.inr (.inr (.inr ⟨rest, hpath, rfl, rfl⟩)))

/-- A function is where a walk ends. -/
theorem missed_function (name : String) (rest : List String) :
    Missed (getPath (.builtin (.function name)) rest) ↔ rest ≠ [] := by
  cases rest with
  | nil => simp [Missed]
  | cons segment rest => simp [getPath_cons, Value.get, Builtin.get, Missed]

theorem missed_null (rest : List String) : Missed (getPath (.json .null) rest) := by
  cases rest with
  | nil => exact .inr rfl
  | cons segment rest => simp [getPath_cons, Value.get, Json.property, inherited, Missed]

/-- `Object.prototype` has functions and no prototype. -/
theorem missed_objectPrototype (path : List String) :
    Missed (getPath (.builtin .objectPrototype) path) ↔
      ¬ (path = [] ∨ ∃ name ∈ objectFunctions, path = [name]) := by
  cases path with
  | nil => simp [Missed]
  | cons segment rest =>
    rw [getPath_cons, Value.get, Builtin.get]
    by_cases hproto : segment = "__proto__"
    · have hfree : "__proto__" ∉ objectFunctions := by decide
      subst hproto
      rw [if_pos rfl]
      simp [missed_null, hfree]
    rw [if_neg hproto]
    by_cases hname : segment ∈ objectFunctions
    · rw [if_pos hname, Option.bind_some, missed_function]
      simp [hname]
    · rw [if_neg hname]
      simp [missed_none, hname]

theorem missed_inheritedByObject (segment : String) (rest : List String) :
    Missed ((inheritedByObject segment).bind fun w => getPath w rest) ↔
      segment :: rest ∉ objectPaths := by
  rw [mem_objectPaths, inheritedByObject]
  by_cases hproto : segment = "__proto__"
  · have hfree : "__proto__" ∉ objectFunctions := by decide
    subst hproto
    rw [if_pos rfl, Option.bind_some, missed_objectPrototype]
    simp [hfree]
  rw [if_neg hproto]
  by_cases hname : segment ∈ objectFunctions
  · rw [if_pos hname, Option.bind_some, missed_function]
    simp [hname, hproto]
  · rw [if_neg hname]
    simp [missed_none, hname, hproto]

/-- `Array.prototype` has a length, functions and `Object.prototype`. -/
theorem missed_arrayPrototype (path : List String) :
    Missed (getPath (.builtin .arrayPrototype) path) ↔
      ¬ (path = [] ∨ path = ["length"] ∨ (∃ name ∈ arrayFunctions, path = [name]) ∨
        path ∈ objectPaths) := by
  cases path with
  | nil => simp [Missed]
  | cons segment rest =>
    rw [getPath_cons, Value.get, Builtin.get]
    by_cases hlength : segment = "length"
    · have hfree : "length" ∉ arrayFunctions ∧ "length" ∉ objectFunctions := by decide
      subst hlength
      rw [if_pos rfl, Option.bind_some, mem_objectPaths]
      cases rest with
      | nil => simp [Missed]
      | cons next rest => simp [getPath_cons, Value.get, Json.property, inherited, Missed, hfree]
    rw [if_neg hlength]
    by_cases hname : segment ∈ arrayFunctions
    · have hproto : segment ≠ "__proto__" := by
        rintro rfl
        exact absurd hname (by decide)
      rw [if_pos hname, Option.bind_some, missed_function, mem_objectPaths]
      simp only [List.cons.injEq, hlength, false_and, hproto, false_or, or_false]
      by_cases hrest : rest = []
      · simp [hrest, hname]
      · simp [hrest]
    · rw [if_neg hname, missed_inheritedByObject]
      simp [hlength, hname]

theorem missed_inheritedByArray (segment : String) (rest : List String) :
    Missed ((inheritedByArray segment).bind fun w => getPath w rest) ↔
      segment :: rest ∉ arrayPaths := by
  rw [mem_arrayPaths, inheritedByArray]
  by_cases hproto : segment = "__proto__"
  · have hfree : ¬ ("__proto__" ∈ arrayFunctions ∨ "__proto__" ∈ objectFunctions) := by decide
    subst hproto
    rw [if_pos rfl, Option.bind_some, missed_arrayPrototype]
    simp [hfree]
  rw [if_neg hproto]
  by_cases hname : segment ∈ arrayFunctions ∨ segment ∈ objectFunctions
  · rw [if_pos hname, Option.bind_some, missed_function]
    simp [hname, hproto]
  · rw [if_neg hname]
    simp [missed_none, hname, hproto]

theorem missed_inherited (v : Json) (segment : String) (rest : List String) :
    Missed ((inherited segment v).bind fun w => getPath w rest) ↔
      segment :: rest ∉ inheritedPaths v := by
  cases v with
  | obj fields => exact missed_inheritedByObject segment rest
  | arr items => exact missed_inheritedByArray segment rest
  | _ => simp [inherited, inheritedPaths, missed_none]

/-- Where the event itself has nothing, a walk ends at nothing unless it strays. -/
theorem getPath_missed {v : Json} {path : List String} (h : ownValue v path = none) :
    Missed (getPath (.json v) path) ↔ strays v path = false := by
  induction path generalizing v with
  | nil => simp [ownValue_nil] at h
  | cons segment rest ih =>
    rw [ownValue_cons] at h
    rw [getPath_cons, Value.get, strays]
    cases hstep : v.property segment with
    | none => simp [missed_inherited]
    | some w =>
      rw [hstep, Option.bind_some] at h
      exact ih h

theorem strays_own {v w : Json} {path : List String} (h : ownValue v path = some w) :
    strays v path = false := by
  induction path generalizing v with
  | nil => rfl
  | cons segment rest ih =>
    rw [ownValue_cons] at h
    rw [strays]
    cases hstep : v.property segment with
    | none => simp [hstep] at h
    | some u =>
      rw [hstep, Option.bind_some] at h
      exact ih h

/-! ## The events that rules see -/

/-- On the task of an event as rules see it, a token becomes what `Template.lean` says, unless its
    path strays. -/
theorem renderString_template {event : EventPayloadShape} {raw : String} (path : String)
    (h : ∀ dottedPath, taskPath raw.toList = some dottedPath →
      ∀ v, event.task.map TaskShape.toJson = some v → strays v (segments dottedPath) = false) :
    renderString {} (event.task.map TaskShape.toJson) raw path =
      (Router.renderString event raw path).map .json := by
  unfold renderString Router.renderString
  cases htoken : taskPath raw.toList with
  | none => cases hpresent : tokenPresent raw.toList <;> simp [Except.map]
  | some dottedPath =>
    have hstays := h dottedPath htoken
    have hshape : Router.resolvePath event dottedPath =
        (event.task.map TaskShape.toJson).bind fun v => ownValue v (segments dottedPath) :=
      foldl_along Json.property _ _
    dsimp only [Except.map]
    rw [hshape, resolvePath_eq]
    cases htask : event.task.map TaskShape.toJson with
    | none => rfl
    | some v =>
      rw [Option.bind_some, Option.bind_some]
      cases hown : ownValue v (segments dottedPath) with
      | none =>
        rcases (getPath_missed hown).2 (hstays v htask) with hmissed | hmissed <;>
        · rw [hmissed]
          rfl
      | some w =>
        rw [getPath_own hown]
        cases w with
        | str s =>
          rw [resolvedValue, applyStringRules_default]
          rfl
        | _ => rfl

end WoodFiredTasks.Router.Templating
