import WoodFiredTasks.Router.RenderProofs

set_option autoImplicit false

/-! # What a rendered block has to be

`Meets` is the specification of the renderer: a block keeps its shape, a token becomes the value
that the event itself has there, or `null`, and a text of the event is cut to at most
`maxValueBytes` (`Capped`). The renderer does not always meet it. A path may find what every object
inherits, only a text that is the whole value is cut, the two parts of a cut text and the ellipsis
can be longer than the limit, and a key `__proto__` is lost. `Faithful` says when none of this
happens, and `renderWith_meets_iff` that the specification is met just then. -/

namespace WoodFiredTasks.Router.Templating

/-! ## The specification -/

/-- A text of the event is itself, or a prefix and a suffix around the ellipsis, and not too
    long. -/
def CappedText (maxBytes : Nat) (s s' : String) : Prop :=
  byteLength s' ≤ maxBytes ∧ (s' = s ∨ ∃ head tail, head <+: s.toList ∧ tail <:+ s.toList ∧
    s'.toList = head ++ '…' :: tail)

mutual

/-- The second value is the first one, with every text capped. -/
def Capped (maxBytes : Nat) : Json → Json → Prop
  | .str s, .str s' => CappedText maxBytes s s'
  | .arr items, .arr items' => CappedItems maxBytes items items'
  | .obj fields, .obj fields' => CappedFields maxBytes fields fields'
  | .null, .null => True
  | .bool b, .bool b' => b' = b
  | .num n, .num n' => n' = n
  | _, _ => False

def CappedItems (maxBytes : Nat) : List Json → List Json → Prop
  | [], [] => True
  | item :: rest, item' :: rest' => Capped maxBytes item item' ∧ CappedItems maxBytes rest rest'
  | _, _ => False

def CappedFields (maxBytes : Nat) : List (String × Json) → List (String × Json) → Prop
  | [], [] => True
  | field :: rest, field' :: rest' =>
    CappedField maxBytes field field' ∧ CappedFields maxBytes rest rest'
  | _, _ => False

def CappedField (maxBytes : Nat) : String × Json → String × Json → Prop
  | (k, v), (k', v') => k' = k ∧ Capped maxBytes v v'

end

/-- What stands for a token: the value of the event, or `null`. -/
def MeetsToken (opts : RenderOptions) (task : Option Json) (path : List String) (out : Value) :
    Prop :=
  match task.bind fun v => ownValue v path with
  | none => out = .json .null
  | some v => ∃ v', out = .json v' ∧ Capped opts.maxValueBytes v v'

/-- What stands for a text: a text without a token is unchanged. -/
def MeetsText (opts : RenderOptions) (task : Option Json) (s : String) (out : Value) : Prop :=
  match taskPath s.toList with
  | some dottedPath => MeetsToken opts task (segments dottedPath) out
  | none => tokenPresent s.toList = false ∧ out = .json (.str s)

mutual

/-- **The specification of the renderer**: the shape of the block, with every leaf as it has to
    be. -/
def Meets (opts : RenderOptions) (task : Option Json) : Json → Rendered → Prop
  | .str s, .value out => MeetsText opts task s out
  | .arr items, .arr items' => MeetsItems opts task items items'
  | .obj fields, .obj fields' => MeetsFields opts task fields fields'
  | .null, .value out => out = .json .null
  | .bool b, .value out => out = .json (.bool b)
  | .num n, .value out => out = .json (.num n)
  | _, _ => False

def MeetsItems (opts : RenderOptions) (task : Option Json) : List Json → List Rendered → Prop
  | [], [] => True
  | item :: rest, item' :: rest' => Meets opts task item item' ∧ MeetsItems opts task rest rest'
  | _, _ => False

def MeetsFields (opts : RenderOptions) (task : Option Json) :
    List (String × Json) → List (String × Rendered) → Prop
  | [], [] => True
  | field :: rest, field' :: rest' =>
    MeetsField opts task field field' ∧ MeetsFields opts task rest rest'
  | _, _ => False

def MeetsField (opts : RenderOptions) (task : Option Json) :
    String × Json → String × Rendered → Prop
  | (k, v), (k', v') => k' = k ∧ Meets opts task v v'

end

/-! ## When it is met -/

mutual

/-- Every text in the value is within the limit. -/
def withinLimit (maxBytes : Nat) : Json → Bool
  | .str s => byteLength s ≤ maxBytes
  | .arr items => withinLimitItems maxBytes items
  | .obj fields => withinLimitFields maxBytes fields
  | .null | .bool _ | .num _ => true

def withinLimitItems (maxBytes : Nat) : List Json → Bool
  | [] => true
  | item :: rest => withinLimit maxBytes item && withinLimitItems maxBytes rest

def withinLimitFields (maxBytes : Nat) : List (String × Json) → Bool
  | [] => true
  | field :: rest => withinLimitField maxBytes field && withinLimitFields maxBytes rest

def withinLimitField (maxBytes : Nat) : String × Json → Bool
  | (_, v) => withinLimit maxBytes v

end

/-- A text that is the whole value is short, or the two cuts leave room for the ellipsis; in an
    array or an object every text is short. -/
def Fits (opts : RenderOptions) : Json → Prop
  | .str s => byteLength s ≤ opts.maxValueBytes ∨
      opts.truncatedHeadBytes + opts.truncatedTailBytes + 3 ≤ opts.maxValueBytes +
        remainder opts.truncatedHeadBytes s.toList +
        remainder opts.truncatedTailBytes s.toList.reverse
  | v => withinLimit opts.maxValueBytes v = true

/-- A token that asks for nothing inherited, and for nothing too long. -/
def FaithfulToken (opts : RenderOptions) (task : Option Json) (path : List String) : Prop :=
  ∀ v, task = some v → strays v path = false ∧ ∀ w, ownValue v path = some w → Fits opts w

mutual

/-- Every token of the block is faithful, and no key is `__proto__`. -/
def Faithful (opts : RenderOptions) (task : Option Json) : Json → Prop
  | .str s => ∀ dottedPath, taskPath s.toList = some dottedPath →
      FaithfulToken opts task (segments dottedPath)
  | .arr items => FaithfulItems opts task items
  | .obj fields => FaithfulFields opts task fields
  | .null | .bool _ | .num _ => True

def FaithfulItems (opts : RenderOptions) (task : Option Json) : List Json → Prop
  | [] => True
  | item :: rest => Faithful opts task item ∧ FaithfulItems opts task rest

def FaithfulFields (opts : RenderOptions) (task : Option Json) : List (String × Json) → Prop
  | [] => True
  | field :: rest => FaithfulField opts task field ∧ FaithfulFields opts task rest

def FaithfulField (opts : RenderOptions) (task : Option Json) : String × Json → Prop
  | (k, v) => k ≠ "__proto__" ∧ Faithful opts task v

end

/-! ## Leaves -/

theorem cappedText_self (maxBytes : Nat) (s : String) :
    CappedText maxBytes s s ↔ byteLength s ≤ maxBytes :=
  ⟨fun h => h.1, fun h => ⟨h, .inl rfl⟩⟩

mutual

/-- A value that is handed on as it is has to have short texts. -/
theorem capped_self (maxBytes : Nat) :
    ∀ v : Json, Capped maxBytes v v ↔ withinLimit maxBytes v = true
  | .str s => by rw [Capped, withinLimit, cappedText_self, decide_eq_true_eq]
  | .arr items => by rw [Capped, withinLimit, cappedItems_self]
  | .obj fields => by rw [Capped, withinLimit, cappedFields_self]
  | .null | .bool _ | .num _ => by simp [Capped, withinLimit]

theorem cappedItems_self (maxBytes : Nat) :
    ∀ items : List Json, CappedItems maxBytes items items ↔ withinLimitItems maxBytes items = true
  | [] => by simp [CappedItems, withinLimitItems]
  | item :: rest => by
    rw [CappedItems, withinLimitItems, Bool.and_eq_true, capped_self, cappedItems_self]

theorem cappedFields_self (maxBytes : Nat) :
    ∀ fields : List (String × Json),
      CappedFields maxBytes fields fields ↔ withinLimitFields maxBytes fields = true
  | [] => by simp [CappedFields, withinLimitFields]
  | field :: rest => by
    rw [CappedFields, withinLimitFields, Bool.and_eq_true, cappedField_self, cappedFields_self]

theorem cappedField_self (maxBytes : Nat) :
    ∀ field : String × Json,
      CappedField maxBytes field field ↔ withinLimitField maxBytes field = true
  | (k, v) => by
    rw [CappedField, withinLimitField, capped_self]
    simp

end

/-- A cut text has the right form; whether it is short is seen from what the cuts leave. -/
theorem cappedText_applyStringRules (opts : RenderOptions) (s : String) :
    CappedText opts.maxValueBytes s (applyStringRules opts s) ↔ Fits opts (.str s) := by
  unfold applyStringRules Fits
  by_cases hshort : byteLength s ≤ opts.maxValueBytes
  · rw [if_pos hshort, cappedText_self]
    exact ⟨.inl, fun _ => hshort⟩
  rw [if_neg hshort]
  have hbytes := byteLength_truncateUtf8 s opts.truncatedHeadBytes opts.truncatedTailBytes
  have hsuffix : (takeBytes opts.truncatedTailBytes s.toList.reverse).reverse <:+ s.toList := by
    rw [← List.reverse_prefix, List.reverse_reverse]
    exact takeBytes_prefix ..
  constructor
  · rintro ⟨hle, -⟩
    right
    omega
  · intro h
    refine ⟨by omega, .inr ⟨_, _, takeBytes_prefix .., hsuffix, toList_truncateUtf8 ..⟩⟩

theorem capped_resolvedValue (opts : RenderOptions) (v : Json) :
    (∃ v', resolvedValue opts (some (.json v)) = .json v' ∧ Capped opts.maxValueBytes v v') ↔
      Fits opts v := by
  cases v with
  | str s =>
    rw [← cappedText_applyStringRules]
    simp [resolvedValue, Capped]
  | _ => simp [resolvedValue, Fits, capped_self]

theorem resolvedValue_eq_null (opts : RenderOptions) (found : Option Value) :
    resolvedValue opts found = .json .null ↔ Missed found := by
  unfold resolvedValue
  split <;> simp_all [Missed]

/-- The value of a token. -/
theorem meetsToken_resolved (opts : RenderOptions) (task : Option Json) (dottedPath : List Char) :
    MeetsToken opts task (segments dottedPath) (resolvedValue opts (resolvePath task dottedPath)) ↔
      FaithfulToken opts task (segments dottedPath) := by
  rw [resolvePath_eq]
  unfold MeetsToken FaithfulToken
  cases task with
  | none => simp [resolvedValue]
  | some v =>
    simp only [Option.bind_some, Option.some_inj]
    cases hown : ownValue v (segments dottedPath) with
    | none =>
      have hmissed := getPath_missed hown
      simp [resolvedValue_eq_null, hmissed, hown]
    | some w =>
      have hcapped := capped_resolvedValue opts w
      simp only [getPath_own hown, hcapped]
      simp [strays_own hown, hown]

/-! ## Blocks -/

theorem map_eq_ok {ε α β : Type} {f : α → β} {x : Except ε α} {b : β} (h : x.map f = .ok b) :
    ∃ a, x = .ok a ∧ b = f a := by
  cases x with
  | error err => simp [Except.map] at h
  | ok a => exact ⟨a, rfl, (Except.ok.inj h).symm⟩

theorem bind_map_eq_ok {ε α β γ : Type} {f : α → β → γ} {x : Except ε α} {y : Except ε β} {c : γ}
    (h : (x.bind fun a => y.map (f a)) = .ok c) : ∃ a b, x = .ok a ∧ y = .ok b ∧ c = f a b := by
  cases x with
  | error err => simp [Except.bind] at h
  | ok a =>
    obtain ⟨b, hy, hc⟩ := map_eq_ok h
    exact ⟨a, b, rfl, hy, hc⟩

/-- The rendered fields have no key `__proto__`. -/
theorem walkFields_keys {opts : RenderOptions} {task : Option Json} {fields : List (String × Json)}
    {path : String} {out : List (String × Rendered)}
    (h : walkFields opts task fields path = .ok out) : ∀ field ∈ out, field.1 ≠ "__proto__" := by
  induction fields generalizing out with
  | nil =>
    rw [walkFields] at h
    obtain rfl := Except.ok.inj h
    simp
  | cons field rest ih =>
    rw [walkFields] at h
    obtain ⟨field', rest', -, hrest, rfl⟩ := bind_map_eq_ok h
    unfold assign
    split
    · exact ih hrest
    · next hkey => simpa [hkey] using ih hrest

theorem renderString_meets {opts : RenderOptions} {task : Option Json} {s path : String}
    {out : Value} (h : renderString opts task s path = .ok out) :
    MeetsText opts task s out ↔ Faithful opts task (.str s) := by
  unfold renderString at h
  unfold MeetsText
  rw [Faithful]
  cases htoken : taskPath s.toList with
  | some dottedPath =>
    rw [htoken] at h
    obtain rfl := Except.ok.inj h
    simp [meetsToken_resolved]
  | none =>
    rw [htoken] at h
    dsimp only at h
    split at h
    · simp at h
    · next hplain =>
      obtain rfl := Except.ok.inj h
      simpa using hplain

mutual

/-- A rendered value is as specified exactly when its tokens are faithful. -/
theorem walk_meets {opts : RenderOptions} {task : Option Json} :
    ∀ {v : Json} {path : String} {out : Rendered}, walk opts task v path = .ok out →
      (Meets opts task v out ↔ Faithful opts task v)
  | .str s, path, out, h => by
    rw [walk] at h
    obtain ⟨value, hvalue, rfl⟩ := map_eq_ok h
    rw [Meets]
    exact renderString_meets hvalue
  | .arr items, path, out, h => by
    rw [walk] at h
    obtain ⟨items', hitems, rfl⟩ := map_eq_ok h
    rw [Meets, Faithful]
    exact walkItems_meets hitems
  | .obj fields, path, out, h => by
    rw [walk] at h
    obtain ⟨fields', hfields, rfl⟩ := map_eq_ok h
    rw [Meets, Faithful]
    exact walkFields_meets hfields
  | .null, path, out, h => by
    obtain rfl := Except.ok.inj h
    simp [Meets, Faithful]
  | .bool b, path, out, h => by
    obtain rfl := Except.ok.inj h
    simp [Meets, Faithful]
  | .num n, path, out, h => by
    obtain rfl := Except.ok.inj h
    simp [Meets, Faithful]

theorem walkItems_meets {opts : RenderOptions} {task : Option Json} :
    ∀ {items : List Json} {i : Nat} {path : String} {out : List Rendered},
      walkItems opts task items i path = .ok out →
        (MeetsItems opts task items out ↔ FaithfulItems opts task items)
  | [], i, path, out, h => by
    obtain rfl := Except.ok.inj h
    simp [MeetsItems, FaithfulItems]
  | item :: rest, i, path, out, h => by
    rw [walkItems] at h
    obtain ⟨item', rest', hitem, hrest, rfl⟩ := bind_map_eq_ok h
    rw [MeetsItems, FaithfulItems, walk_meets hitem, walkItems_meets hrest]

theorem walkFields_meets {opts : RenderOptions} {task : Option Json} :
    ∀ {fields : List (String × Json)} {path : String} {out : List (String × Rendered)},
      walkFields opts task fields path = .ok out →
        (MeetsFields opts task fields out ↔ FaithfulFields opts task fields)
  | [], path, out, h => by
    obtain rfl := Except.ok.inj h
    simp [MeetsFields, FaithfulFields]
  | (k, v) :: rest, path, out, h => by
    rw [walkFields, walkField] at h
    obtain ⟨field', rest', hfield, hrest, rfl⟩ := bind_map_eq_ok h
    obtain ⟨v', hv, rfl⟩ := map_eq_ok hfield
    rw [FaithfulFields, FaithfulField]
    by_cases hkey : k = "__proto__"
    · -- the field is lost, and no other one has its key
      have hnot : ¬ MeetsFields opts task ((k, v) :: rest) rest' := by
        cases rest' with
        | nil => simp [MeetsFields]
        | cons field' rest'' =>
          rw [MeetsFields, MeetsField]
          have hother := walkFields_keys hrest field' (by simp)
          rintro ⟨⟨hsame, -⟩, -⟩
          exact hother (hsame.trans hkey)
      simp [assign, hkey] at hnot ⊢
      exact hnot
    · rw [assign, if_neg hkey, MeetsFields, MeetsField, walk_meets hv, walkFields_meets hrest]
      simp [hkey]

end

/-- **Main theorem.** Whatever the block, the task and the limits, what is rendered is as specified
    if and only if the block has no key `__proto__` and every token in it is faithful. A block
    that is not rendered has a text with a token and something else (`walkFields_isOk`). -/
theorem renderWith_meets_iff (opts : RenderOptions) (task : Option Json)
    (withBlock : List (String × Json)) :
    (∀ out, renderWith withBlock task opts = .ok out → MeetsFields opts task withBlock out) ↔
      (rendersFields withBlock = true → FaithfulFields opts task withBlock) := by
  have hok := walkFields_isOk opts task withBlock "with"
  unfold renderWith
  cases hout : walkFields opts task withBlock "with" with
  | error err =>
    rw [hout] at hok
    simp [← hok, Except.isOk, Except.toBool]
  | ok out =>
    rw [hout] at hok
    simp [← hok, Except.isOk, Except.toBool, walkFields_meets hout]

/-- A task without a field `constructor` renders `{{task.constructor}}` to a function, and a text of
    4097 letters to 4099 bytes. -/
theorem constructor_rendered :
    (∃ out, renderWith [("x", .str "\x7b\x7btask.constructor\x7d\x7d")] (some (.obj [])) {} =
        .ok out ∧
      ¬ MeetsFields {} (some (.obj [])) [("x", .str "\x7b\x7btask.constructor\x7d\x7d")] out) ∧
    ¬ CappedText 4096 (String.ofList (List.replicate 4097 'a'))
      (applyStringRules {} (String.ofList (List.replicate 4097 'a'))) := by
  refine ⟨⟨[("x", .value (.builtin (.function "constructor")))], rfl, ?_⟩, ?_⟩
  · have hpath :
        taskPath "\x7b\x7btask.constructor\x7d\x7d".toList = some "constructor".toList := rfl
    have hown : ownValue (.obj []) (segments "constructor".toList) = none := rfl
    rw [MeetsFields, MeetsField, Meets, MeetsText, hpath]
    simp only [MeetsToken, Option.bind_some, hown]
    simp
  · rintro ⟨hle, -⟩
    rw [byteLength_cut_replicate rfl (by omega)] at hle
    omega

end WoodFiredTasks.Router.Templating
