import WoodFiredTasks.Api.PostRoutes

set_option autoImplicit false

/-! # The request of `create_task_in_project` reaches no route

The handler posts to `/api/v1/projects/<project>/tasks`, and the server has no such route: whatever
the project and the body are, the answer is 404 and the dispatch has failed for good. The one
exception is an accident of URLs: a project that is rendered to `..` is a dot segment, which takes
`projects` out of the path, and what is left is `/api/v1/tasks`. So the request is served exactly
if the project is `..` and the rest of the block is the body of a new task
(`createTask_served_iff`). -/

namespace WoodFiredTasks.Api

open Router

/-! ## Segments -/

theorem forall_of_all {p : Char → Bool} {text : List Char} (h : (text.all fun c => !p c) = true) :
    ∀ c ∈ text, p c = false := by
  simpa using h

/-- A byte that begins with the bits of a mask is not below it. -/
theorem le_or_byte (x mask : UInt8) : mask.toNat ≤ (x ||| mask).toNat := by
  rw [UInt8.toNat_or]
  exact Nat.right_le_or

/-- The first byte of a character is that of a dot only if it is one. -/
theorem utf8_dot {c : Char} {rest : List UInt8} (h : String.utf8EncodeChar c = 0x2e :: rest) :
    c = '.' := by
  have hhigh : ∀ x mask : UInt8, 0x2e < mask.toNat → x ||| mask ≠ 0x2e := by
    intro x mask hmask heq
    have hle := le_or_byte x mask
    rw [heq] at hle
    have : (0x2e : UInt8).toNat = 0x2e := rfl
    omega
  rcases c.utf8Size_eq with hsize | hsize | hsize | hsize
  · rw [String.utf8EncodeChar_eq_singleton hsize] at h
    injection h with hbyte
    have hle : c.val.toNat ≤ 127 := Char.utf8Size_eq_one_iff.1 hsize
    have hbyte := congrArg UInt8.toNat hbyte
    rw [UInt32.toNat_toUInt8] at hbyte
    have hval : c.val.toNat = 46 := by
      have : (0x2e : UInt8).toNat = 46 := rfl
      omega
    exact Char.ext (UInt32.toNat.inj hval)
  · rw [String.utf8EncodeChar_eq_cons_cons hsize] at h
    injection h with hbyte
    exact absurd hbyte (hhigh _ _ (by decide))
  · rw [String.utf8EncodeChar_eq_cons_cons_cons hsize] at h
    injection h with hbyte
    exact absurd hbyte (hhigh _ _ (by decide))
  · rw [String.utf8EncodeChar_eq_cons_cons_cons_cons hsize] at h
    injection h with hbyte
    exact absurd hbyte (hhigh _ _ (by decide))

/-- What stands for a character in a path segment. -/
def encodedChar (c : Char) : List Char :=
  if uriUnreserved c then [c] else (String.utf8EncodeChar c).flatMap percentEncoded

theorem toList_encodeURIComponent (s : String) :
    (encodeURIComponent s).toList = s.toList.flatMap encodedChar := by
  rw [encodeURIComponent, String.toList_ofList]
  rfl

/-- The digits of a byte. -/
theorem percentEncoded_eq (byte : UInt8) : ∃ high low, percentEncoded byte = ['%', high, low] ∧
    high ∈ "0123456789ABCDEF".toList ∧ low ∈ "0123456789ABCDEF".toList := by
  have hdigit : ∀ n < 16, "0123456789ABCDEF".toList.getD n '0' ∈ "0123456789ABCDEF".toList := by
    decide
  have hbyte : byte.toNat < 256 := byte.toNat_lt
  exact ⟨_, _, rfl, hdigit _ (by omega), hdigit _ (by omega)⟩

theorem encodedChar_plain (c : Char) : ∀ d ∈ encodedChar c, isDelimiter d = false := by
  intro d hd
  rw [encodedChar] at hd
  split at hd
  · rename_i hc
    rw [List.mem_singleton.1 hd]
    by_contra hdelimiter
    simp only [isDelimiter, Bool.not_eq_false, Bool.or_eq_true, decide_eq_true_eq] at hdelimiter
    rcases hdelimiter with ((rfl | rfl) | rfl) | rfl <;> exact absurd hc (by decide)
  · obtain ⟨byte, -, hmem⟩ := List.mem_flatMap.1 hd
    obtain ⟨high, low, heq, hhigh, hlow⟩ := percentEncoded_eq byte
    have hplain : ∀ x ∈ '%' :: "0123456789ABCDEF".toList, isDelimiter x = false :=
      forall_of_all (by decide)
    rw [heq] at hmem
    apply hplain
    simp only [List.mem_cons, List.not_mem_nil, or_false] at hmem
    rcases hmem with rfl | rfl | rfl
    · exact List.mem_cons_self
    · exact List.mem_cons_of_mem _ hhigh
    · exact List.mem_cons_of_mem _ hlow

/-- A percent-encoded dot is never written. -/
theorem encoded_ne_dot (text rest : List Char) (e : Char) (he : e = 'e' ∨ e = 'E') :
    text.flatMap encodedChar ≠ '%' :: '2' :: e :: rest := by
  intro h
  cases text with
  | nil => contradiction
  | cons c text =>
    rw [List.flatMap_cons, encodedChar] at h
    split at h
    · rename_i hc
      injection h with hc'
      subst hc'
      exact absurd hc (by decide)
    · rename_i hc
      cases hbytes : String.utf8EncodeChar c with
      | nil => exact String.utf8EncodeChar_ne_nil hbytes
      | cons byte bytes =>
        rw [hbytes] at h
        simp only [List.flatMap_cons, percentEncoded, List.cons_append, List.nil_append,
          List.cons.injEq, true_and] at h
        have hbyte : byte = 0x2e := by
          have hlt : byte.toNat < 256 := byte.toNat_lt
          have hhigh : ∀ n < 16, "0123456789ABCDEF".toList.getD n '0' = '2' → n = 2 := by decide
          have hlow : ∀ n < 16, "0123456789ABCDEF".toList.getD n '0' = 'e' ∨
              "0123456789ABCDEF".toList.getD n '0' = 'E' → n = 14 := by decide
          have h2 := hhigh (byte.toNat / 16) (by omega) h.1
          have h14 := hlow (byte.toNat % 16) (by omega) (he.imp h.2.1.trans h.2.1.trans)
          have hnat : byte.toNat = 46 := by omega
          exact UInt8.toNat.inj hnat
        subst hbyte
        rw [utf8_dot hbytes] at hc
        exact absurd hc (by decide)

/-- A dot that is written stands for itself. -/
theorem encoded_dot {text rest : List Char} (h : text.flatMap encodedChar = '.' :: rest) :
    ∃ text' : List Char, rest = text'.flatMap encodedChar := by
  cases text with
  | nil => contradiction
  | cons c text =>
    rw [List.flatMap_cons, encodedChar] at h
    split at h
    · injection h with _ htext
      exact ⟨text, htext.symm⟩
    · cases hbytes : String.utf8EncodeChar c with
      | nil => exact absurd hbytes String.utf8EncodeChar_ne_nil
      | cons byte bytes =>
        rw [hbytes] at h
        simp [percentEncoded] at h

/-- The only encoded text that is a double dot. -/
theorem isDoubleDot_encoded {text : List Char}
    (h : isDoubleDot (text.flatMap encodedChar) = true) : text.flatMap encodedChar = "..".toList := by
  simp only [isDoubleDot, dots, List.any_cons, List.any_nil, Bool.or_false, Bool.or_eq_true,
    decide_eq_true_eq] at h
  rcases h with (h | h | h) | (h | h | h) | (h | h | h)
  · exact h
  · obtain ⟨text', htext⟩ := encoded_dot h
    exact absurd htext.symm (encoded_ne_dot text' [] 'e' (.inl rfl))
  · obtain ⟨text', htext⟩ := encoded_dot h
    exact absurd htext.symm (encoded_ne_dot text' [] 'E' (.inr rfl))
  · exact absurd h (encoded_ne_dot text _ 'e' (.inl rfl))
  · exact absurd h (encoded_ne_dot text _ 'e' (.inl rfl))
  · exact absurd h (encoded_ne_dot text _ 'e' (.inl rfl))
  · exact absurd h (encoded_ne_dot text _ 'E' (.inr rfl))
  · exact absurd h (encoded_ne_dot text _ 'E' (.inr rfl))
  · exact absurd h (encoded_ne_dot text _ 'E' (.inr rfl))

/-- A segment that the handler writes. -/
structure IsSegment (segment : String) : Prop where
  plain : ∀ c ∈ segment.toList, isDelimiter c = false
  doubleDot : isDoubleDot segment.toList = true → segment = ".."

theorem isSegment_encode (s : String) : IsSegment (encodeURIComponent s) := by
  constructor
  · intro c hc
    rw [toList_encodeURIComponent] at hc
    obtain ⟨d, -, hmem⟩ := List.mem_flatMap.1 hc
    exact encodedChar_plain d c hmem
  · intro h
    rw [toList_encodeURIComponent] at h
    apply String.toList_injective
    rw [toList_encodeURIComponent]
    exact isDoubleDot_encoded h

theorem isSegment_resolve {numberText : Rat → String} {block : Block} {segment : String}
    (h : resolveProjectSegment numberText block = some segment) : IsSegment segment := by
  unfold resolveProjectSegment at h
  split at h
  · rw [← Option.some.inj h]
    exact isSegment_encode _
  · split at h
    · contradiction
    · rw [← Option.some.inj h]
      exact isSegment_encode _
  · contradiction

/-! ## The path of the request -/

/-- Where the server is: `scheme://authority`. -/
structure Origin where
  scheme : List Char
  authority : List Char
  scheme_plain : (scheme.all fun c => !isDelimiter c) = true
  authority_plain : (authority.all fun c => !isDelimiter c) = true

def Origin.text (origin : Origin) : List Char :=
  origin.scheme ++ ':' :: '/' :: '/' :: origin.authority

theorem urlPath_origin (origin : Origin) {rest : List Char}
    (hrest : ∀ c ∈ rest, (c = '?' || c = '#') = false) :
    urlPath (origin.text ++ '/' :: rest) =
      let segments := rest.splitOnP fun c => c = '/' || c = '\\'
      resolveDots segments.dropLast (segments.getLast?.getD []) := by
  have hscheme : ∀ c ∈ origin.scheme ++ [':'], decide (c ≠ '/') = true := by
    intro c hc
    rcases List.mem_append.1 hc with hc | hc
    · have := forall_of_all origin.scheme_plain c hc
      simp only [isDelimiter, Bool.or_eq_false_iff, decide_eq_false_iff_not] at this
      simpa using this.1.1.1
    · rw [List.mem_singleton.1 hc]
      decide
  have hauthority : ∀ c ∈ origin.authority, (!isDelimiter c) = true := by
    intro c hc
    rw [forall_of_all origin.authority_plain c hc]
    rfl
  have htext : origin.text ++ '/' :: rest =
      origin.scheme ++ [':'] ++ ('/' :: '/' :: (origin.authority ++ '/' :: rest)) := by
    simp [Origin.text]
  have hquery : rest.takeWhile (fun c => decide (c ≠ '?' ∧ c ≠ '#')) = rest := by
    have hall : ∀ c ∈ rest, decide (c ≠ '?' ∧ c ≠ '#') = true := by
      intro c hc
      simpa using hrest c hc
    have happend : (rest ++ []).takeWhile _ = _ := List.takeWhile_append_of_pos hall
    simpa using happend
  rw [urlPath, htext, List.dropWhile_append_of_pos hscheme]
  simp only [List.dropWhile_cons, ne_eq, not_true, decide_false, Bool.false_eq_true, if_false,
    List.drop_succ_cons, List.drop_zero]
  rw [List.dropWhile_append_of_pos hauthority]
  simp only [List.dropWhile_cons, show isDelimiter '/' = true from rfl, Bool.not_true,
    Bool.false_eq_true, if_false, List.drop_succ_cons, List.drop_zero]
  rw [hquery]

/-- What follows the authority in the URL of the request. -/
def requestRest (segment : String) : List Char :=
  "api".toList ++ '/' :: ("v1".toList ++ '/' :: ("projects".toList ++ '/' ::
    (segment.toList ++ '/' :: "tasks".toList)))

theorem url_createTaskRequest {origin : Origin} {ctx : AttemptContext}
    (hbase : (trimBase ctx.apiBaseUrl).toList = origin.text) (block : Block) (segment : String) :
    (createTaskRequest ctx block segment).url.toList =
      origin.text ++ '/' :: requestRest segment := by
  simp [createTaskRequest, hbase, requestRest]

theorem splitOnP_requestRest {segment : String} (h : IsSegment segment) :
    ((requestRest segment).splitOnP fun c => c = '/' || c = '\\') =
      ["api".toList, "v1".toList, "projects".toList, segment.toList, "tasks".toList] := by
  have hplain : ∀ c ∈ segment.toList, (c = '/' || c = '\\') = false := by
    intro c hc
    have := h.plain c hc
    simp only [isDelimiter, Bool.or_eq_false_iff] at this ⊢
    exact this.1.1
  rw [requestRest, List.splitOnP_append_cons_of_forall_mem (forall_of_all (by decide)) '/' (by decide),
    List.splitOnP_append_cons_of_forall_mem (forall_of_all (by decide)) '/' (by decide),
    List.splitOnP_append_cons_of_forall_mem (forall_of_all (by decide)) '/' (by decide),
    List.splitOnP_append_cons_of_forall_mem hplain '/' (by decide),
    List.splitOnP_eq_singleton (forall_of_all (by decide))]

/-- The path that the server sees, with its dot segments resolved. -/
theorem urlPath_createTaskRequest {origin : Origin} {ctx : AttemptContext}
    (hbase : (trimBase ctx.apiBaseUrl).toList = origin.text) (block : Block) {segment : String}
    (h : IsSegment segment) :
    urlPath (createTaskRequest ctx block segment).url.toList =
      pushSegment ["api".toList, "v1".toList, "projects".toList] segment.toList ++
        ["tasks".toList] := by
  have hsegment : ∀ c ∈ segment.toList, (c = '?' || c = '#') = false := by
    intro c hc
    have := h.plain c hc
    simp only [isDelimiter, Bool.or_eq_false_iff] at this ⊢
    exact ⟨this.1.2, this.2⟩
  have hrest : ∀ c ∈ requestRest segment, (c = '?' || c = '#') = false := by
    simp only [requestRest, List.forall_mem_append, List.forall_mem_cons]
    exact ⟨forall_of_all (by decide), by decide, forall_of_all (by decide), by decide,
      forall_of_all (by decide), by decide, hsegment, by decide, forall_of_all (by decide)⟩
  rw [url_createTaskRequest hbase, urlPath_origin origin hrest]
  simp only [splitOnP_requestRest h]
  rfl

/-- Only a double dot leads to a route, and to that of new tasks. -/
theorem isMatch_iff {segment : String} (h : IsSegment segment) (route : PostRoute) :
    route.isMatch (pushSegment ["api".toList, "v1".toList, "projects".toList] segment.toList ++
      ["tasks".toList]) = true ↔ segment = ".." ∧ route = .createTask := by
  by_cases hdouble : isDoubleDot segment.toList = true
  · have hsegment := h.doubleDot hdouble
    subst hsegment
    cases route <;> decide
  · have hne : segment ≠ ".." := by
      rintro rfl
      exact hdouble (by decide)
    simp only [hne, false_and, iff_false]
    by_cases hsingle : isSingleDot segment.toList = true
    · simp only [pushSegment, if_neg hdouble, if_pos hsingle]
      cases route <;> decide
    · simp only [pushSegment, if_neg hdouble, if_neg hsingle]
      cases route <;>
        simp [PostRoute.isMatch, PostRoute.pattern, PostRoute.accepts, PatternPart.accepts,
          PostRoute.atRoot]

/-! ## The request -/

/-- **Main theorem.** The request is served exactly if the project is rendered to `..` and the rest
    of the block is accepted as the body of a new task; otherwise the dispatch fails for good. -/
theorem createTask_served_iff (env : Env) (others : PostRoute → Json → Bool)
    (handle : PostRoute → Json → Nat) (numberText : Rat → String) (origin : Origin)
    (ctx : AttemptContext) (block : Block) (segment : String)
    (hbase : (trimBase ctx.apiBaseUrl).toList = origin.text)
    (hsegment : resolveProjectSegment numberText block = some segment) :
    (Served env others (createTaskRequest ctx block segment) ↔
      segment = ".." ∧ TaskBody.acceptsCreateTask env (.obj (buildRequestBody block)) = true) ∧
    (¬ Served env others (createTaskRequest ctx block segment) →
      ∃ detail, finishRequest (.response (status env others handle
        (createTaskRequest ctx block segment))) = giveUp detail) := by
  have hplain := isSegment_resolve hsegment
  have hpath := urlPath_createTaskRequest hbase block hplain
  refine ⟨⟨?_, ?_⟩, fun hnot => ?_⟩
  · rintro ⟨-, route, -, body, hmatch, hbody, haccepts⟩
    rw [hpath, isMatch_iff hplain] at hmatch
    obtain ⟨rfl, rfl⟩ := hmatch
    injection hbody with hbody
    injection hbody with hbody
    subst hbody
    exact ⟨rfl, haccepts⟩
  · rintro ⟨hdots, haccepts⟩
    refine ⟨rfl, .createTask, by decide, .obj (buildRequestBody block), ?_, rfl, haccepts⟩
    rw [hpath, isMatch_iff hplain]
    exact ⟨hdots, rfl⟩
  · rcases status_of_not_served rfl hnot handle with hstatus | hstatus
    · rw [hstatus]
      exact ⟨_, rfl⟩
    · rw [hstatus]
      exact ⟨_, rfl⟩

/-! ## Samples -/

def localOrigin : Origin where
  scheme := "http".toList
  authority := "localhost:3000".toList
  scheme_plain := by decide
  authority_plain := by decide

/-- An attempt for a rule with this block. -/
def sampleContext (block : Block) : AttemptContext where
  event := { type := "task.status_changed" }
  identity := { ruleName := "review", eventId := "5", taskId := some 12, toStatus := some "done",
                emittedAtMs := none }
  withBlock := some block
  renderedWith := none
  apiBaseUrl := "http://localhost:3000/"
  authToken := "wft_pat_1"

/-- All that a new task in the project 7 needs. -/
def sampleTask : Block :=
  [("title", .str "Review the release"), ("project_id", .num 7), ("created_by", .str "router")]

theorem createTask_served_sample :
    Served .undisturbed (fun _ _ => false)
      (createTaskRequest (sampleContext (("project", .str "..") :: sampleTask))
        (("project", .str "..") :: sampleTask) "..") :=
  (createTask_served_iff .undisturbed (fun _ _ => false) (fun _ _ => 201) (fun n => toString n.num)
    localOrigin _ _ ".." (by decide +kernel) (by decide +kernel)).1.2
    ⟨rfl, by decide +kernel⟩

/-- A block with everything that the schema of a new task asks for, which the loader accepts, and
    of which no request is served. -/
theorem createTask_not_served :
    let block := ("project", .num 7) :: sampleTask
    walkWithFields block "with" = [] ∧
      resolveProjectSegment (fun n => toString n.num) block = some "7" ∧
      TaskBody.acceptsCreateTask .undisturbed (.obj (buildRequestBody block)) = true ∧
      ∀ others, ¬ Served .undisturbed others (createTaskRequest (sampleContext block) block "7") := by
  refine ⟨by decide +kernel, by decide +kernel, by decide +kernel, ?_⟩
  rintro others ⟨-, route, hroute, -, hmatch, -⟩
  have hnone : PostRoute.all.all (fun route => !route.isMatch (urlPath (createTaskRequest
      (sampleContext (("project", .num 7) :: sampleTask)) (("project", .num 7) :: sampleTask)
      "7").url.toList)) = true := by
    decide +kernel
  have hfalse := List.all_eq_true.1 hnone route hroute
  rw [hmatch] at hfalse
  contradiction

end WoodFiredTasks.Api
