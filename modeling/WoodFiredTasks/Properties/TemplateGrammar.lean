import WoodFiredTasks.Router.Handlers
import WoodFiredTasks.Router.Triggers

set_option autoImplicit false

/-! # The grammar of templates, twice

The loader takes every text that is one `{{…}}` token; the renderer takes of these only
`{{task.<path>}}`. An accepted config renders for every event exactly when its tokens are of the
second form. -/

namespace WoodFiredTasks.Router

/-! ## The texts of a block -/

mutual

/-- The texts in a value. -/
def Json.strings : Json → List String
  | .str s => [s]
  | .arr items => stringsOfItems items
  | .obj fields => stringsOfFields fields
  | .null | .bool _ | .num _ => []

def stringsOfItems : List Json → List String
  | [] => []
  | item :: rest => item.strings ++ stringsOfItems rest

def stringsOfFields : List (String × Json) → List String
  | [] => []
  | field :: rest => stringsOfField field ++ stringsOfFields rest

def stringsOfField : String × Json → List String
  | (_, v) => v.strings

end

mutual

theorem Json.renders_eq : ∀ v : Json, v.renders = v.strings.all renderable
  | .str s => by simp [Json.renders, Json.strings]
  | .arr items => by rw [Json.renders, Json.strings, rendersItems_eq]
  | .obj fields => by rw [Json.renders, Json.strings, rendersFields_eq]
  | .null | .bool _ | .num _ => rfl

theorem rendersItems_eq : ∀ items : List Json,
    rendersItems items = (stringsOfItems items).all renderable
  | [] => rfl
  | item :: rest => by
    rw [rendersItems, stringsOfItems, List.all_append, Json.renders_eq, rendersItems_eq]

theorem rendersFields_eq : ∀ fields : List (String × Json),
    rendersFields fields = (stringsOfFields fields).all renderable
  | [] => rfl
  | field :: rest => by
    rw [rendersFields, stringsOfFields, List.all_append, rendersField_eq, rendersFields_eq]

theorem rendersField_eq : ∀ field : String × Json,
    rendersField field = (stringsOfField field).all renderable
  | (_, v) => by rw [rendersField, stringsOfField, Json.renders_eq]

end

/-! ## What the loader takes -/

/-- The loader takes the text: it has no token or is one. -/
def loadable (s : String) : Bool := !tokenPresent s.toList || pureToken s.toList

theorem checkString_eq_nil {s path : String} :
    checkStringForTemplatingViolations s path = [] ↔ loadable s = true := by
  unfold checkStringForTemplatingViolations loadable
  by_cases htoken : tokenPresent s.toList = true
  · by_cases hpure : pureToken s.toList = true
    · simp [htoken, hpure]
    · simp [htoken, hpure]
  · simp [htoken]

theorem closes_of_closesExactly {text : List Char} (h : closesExactly text = true) :
    closes text = true := by
  induction text with
  | nil => simp [closesExactly] at h
  | cons c rest ih =>
    by_cases hc : c = '\x7d'
    · subst hc
      simp only [closesExactly, decide_eq_true_eq] at h
      simp [closes, h]
    · simp only [closesExactly, closes] at h ⊢
      exact ih h

/-- A text that is one token has a token. -/
theorem tokenPresent_of_pureToken {text : List Char} (h : pureToken text = true) :
    tokenPresent text = true := by
  unfold pureToken at h
  cases text with
  | nil => simp [afterOpen] at h
  | cons c rest =>
    cases hopen : afterOpen (c :: rest) with
    | none => simp [hopen] at h
    | some inner =>
      rw [hopen] at h
      rw [tokenPresent, hopen, Option.any_some, closes_of_closesExactly h, Bool.true_or]

/-- Without an opening brace there is no token. -/
theorem tokenPresent_of_notMem {text : List Char} (h : '\x7b' ∉ text) :
    tokenPresent text = false := by
  induction text with
  | nil => rfl
  | cons c rest ih =>
    have hc : c ≠ '\x7b' := fun heq => h (heq ▸ List.mem_cons_self)
    have hrest := ih fun hmem => h (List.mem_cons_of_mem c hmem)
    have hopen : afterOpen (c :: rest) = none := by
      unfold afterOpen
      split
      · next heq => exact absurd (List.cons.inj heq).1 hc
      · rfl
    rw [tokenPresent, hopen, hrest]
    rfl

/-- The name of an environment variable is no template. -/
theorem loadable_of_envVarName {s : String} (h : envVarName s.toList = true) :
    loadable s = true := by
  have hfree : '\x7b' ∉ s.toList := by
    intro hmem
    cases htext : s.toList with
    | nil => simp [htext] at hmem
    | cons c rest =>
      rw [htext] at h hmem
      simp only [envVarName, Bool.and_eq_true, List.all_eq_true] at h
      rcases List.mem_cons.1 hmem with heq | hrest
      · rw [← heq] at h
        exact absurd h.1 (by decide)
      · exact absurd (h.2 _ hrest) (by decide)
  simp [loadable, tokenPresent_of_notMem hfree]

mutual

theorem loadable_of_walkWithValue : ∀ (v : Json) (path : String),
    walkWithValue v path = [] → ∀ s ∈ v.strings, loadable s = true
  | .str text, path, h, s, hs => by
    rw [Json.strings, List.mem_singleton] at hs
    rw [hs]
    exact checkString_eq_nil.1 h
  | .arr items, path, h, s, hs => loadable_of_walkWithItems items 0 path h s hs
  | .obj fields, path, h, s, hs => loadable_of_walkWithFields fields path h s hs
  | .null, _, _, _, hs | .bool _, _, _, _, hs | .num _, _, _, _, hs =>
    absurd hs List.not_mem_nil

theorem loadable_of_walkWithItems : ∀ (items : List Json) (i : Nat) (path : String),
    walkWithItems items i path = [] → ∀ s ∈ stringsOfItems items, loadable s = true
  | [], _, _, _, _, hs => absurd hs List.not_mem_nil
  | item :: rest, i, path, h, s, hs => by
    rw [walkWithItems, List.append_eq_nil_iff] at h
    rcases List.mem_append.1 hs with hs | hs
    · exact loadable_of_walkWithValue item _ h.1 s hs
    · exact loadable_of_walkWithItems rest _ path h.2 s hs

theorem loadable_of_walkWithFields : ∀ (fields : List (String × Json)) (path : String),
    walkWithFields fields path = [] → ∀ s ∈ stringsOfFields fields, loadable s = true
  | [], _, _, _, hs => absurd hs List.not_mem_nil
  | field :: rest, path, h, s, hs => by
    rw [walkWithFields, List.append_eq_nil_iff] at h
    rcases List.mem_append.1 hs with hs | hs
    · exact loadable_of_walkWithField field path h.1 s hs
    · exact loadable_of_walkWithFields rest path h.2 s hs

theorem loadable_of_walkWithField : ∀ (field : String × Json) (path : String),
    walkWithField field path = [] → ∀ s ∈ stringsOfField field, loadable s = true
  | (k, v), path, h, s, hs => by
    unfold walkWithField at h
    cases hname : tokenEnvName k v with
    | none =>
      rw [hname] at h
      exact loadable_of_walkWithValue v _ h s hs
    | some name =>
      -- the value is a text, of which the loader asks only that it be a name
      rw [hname] at h
      cases v with
      | str text =>
        have htext : text = name := by
          simp only [tokenEnvName] at hname
          split at hname
          · exact Option.some.inj hname
          · contradiction
        rw [stringsOfField, Json.strings, List.mem_singleton] at hs
        rw [hs, htext]
        refine loadable_of_envVarName ?_
        by_contra hbad
        simp [tokenEnvIssues, hbad] at h
      | _ => simp [tokenEnvName] at hname

end

/-- Every text of an accepted config is loadable. -/
theorem loadable_of_accepted {config : TriggersConfig} (h : config.accepted = true) {rule : Rule}
    (hrule : rule ∈ config.rules) {s : String} (hs : s ∈ stringsOfFields rule.withBlock) :
    loadable s = true := by
  have hissues : validateTemplating config = [] := by
    simp only [TriggersConfig.accepted, Bool.and_eq_true, List.isEmpty_iff] at h
    exact h.2
  obtain ⟨i, hi, rfl⟩ := List.getElem_of_mem hrule
  have hwalk := List.flatten_eq_nil_iff.1 hissues _ (List.mem_mapIdx.2 ⟨i, hi, rfl⟩)
  exact loadable_of_walkWithFields _ _ hwalk s hs

/-! ## What the renderer takes -/

theorem renderWith_ok_iff (withBlock : List (String × Json)) (event : EventPayloadShape) :
    (∃ out, renderWith withBlock event = .ok out) ↔
      ∀ s ∈ stringsOfFields withBlock, renderable s = true := by
  rw [← List.all_eq_true, ← rendersFields_eq, ← walkFields_isOk event withBlock "with", renderWith]
  cases walkFields event withBlock "with" with
  | error err => simp [Except.isOk, Except.toBool]
  | ok out => simp [Except.isOk, Except.toBool]

/-- Of the texts that the loader takes, the renderer refuses the tokens that are no task path. -/
theorem renderable_iff {s : String} (h : loadable s = true) :
    renderable s = true ↔ (pureToken s.toList = true → (taskPath s.toList).isSome = true) := by
  unfold renderable
  by_cases hpure : pureToken s.toList = true
  · simp [hpure, tokenPresent_of_pureToken hpure]
  · have hnone : tokenPresent s.toList = false := by simpa [loadable, hpure] using h
    simp [hpure, hnone]

/-- **Main theorem.** The blocks of an accepted config render for every event if and only if every
    text in them that is one token is a `{{task.<path>}}`. -/
theorem accepted_renders_iff (config : TriggersConfig) (h : config.accepted = true) :
    (∀ event, ∀ rule ∈ config.rules, ∃ out, renderWith rule.withBlock event = .ok out) ↔
      ∀ rule ∈ config.rules, ∀ s ∈ stringsOfFields rule.withBlock,
        pureToken s.toList = true → (taskPath s.toList).isSome = true := by
  constructor
  · intro hrender rule hrule s hs
    have hok := hrender { type := "task.created" } rule hrule
    exact (renderable_iff (loadable_of_accepted h hrule hs)).1
      ((renderWith_ok_iff rule.withBlock _).1 hok s hs)
  · intro htokens event rule hrule
    refine (renderWith_ok_iff rule.withBlock event).2 fun s hs => ?_
    exact (renderable_iff (loadable_of_accepted h hrule hs)).2 (htokens rule hrule s hs)

/-- A rule that posts the title it gets from the event. -/
def titleConfig (title : String) : TriggersConfig where
  rules := [{ name := "follow-up", on := .taskCreated, doHandler := .createTaskInProject,
              withBlock := [("title", .str title)] }]

/-- The theorem at a config whose only token is a task path. -/
theorem accepted_renders_assignee :
    (titleConfig "{{task.assignee}}").accepted = true ∧
      ∀ event, ∀ rule ∈ (titleConfig "{{task.assignee}}").rules,
        ∃ out, renderWith rule.withBlock event = .ok out := by
  have haccepted : (titleConfig "{{task.assignee}}").accepted = true := by decide +kernel
  refine ⟨haccepted, (accepted_renders_iff (titleConfig "{{task.assignee}}") haccepted).2 ?_⟩
  decide +kernel

/-- A blank within the braces: the config is accepted and its rule fails on every event. -/
theorem blank_token_never_renders :
    (titleConfig "{{ task.assignee }}").accepted = true ∧
      ∀ event, ∀ rule ∈ (titleConfig "{{ task.assignee }}").rules,
        ¬ ∃ out, renderWith rule.withBlock event = .ok out := by
  refine ⟨by decide +kernel, fun event rule hrule => ?_⟩
  rw [renderWith_ok_iff]
  revert rule
  decide +kernel

end WoodFiredTasks.Router
