import WoodFiredTasks.Lib.PairPasses
import WoodFiredTasks.Router.RenderProofs

set_option autoImplicit false

/-! # What the strip of chat controls leaves

The strip makes one pass for each of `<!`, `<@` and `<#`, in this order. What a handler gets is
always a part of the text it asked for, but a pass can bring the halves of an earlier sequence
together, or those of its own: `<<!!` becomes `<!`. The texts that come out clean are those where
each pair encloses only pairs of earlier passes (`PairPasses.layered`). -/

/-! ## The strip of chat controls

The fourth rule of the renderer (`packages/wft-router/src/dispatch/template.ts`), which
`Render.lean` leaves out: a handler that asks for it gets its texts without `<!`, `<@` and `<#`,
removed before the length is looked at. -/

namespace WoodFiredTasks.Router.Templating

open PairPasses Utf8Text

/-- `CHAT_CONTROL_SEQUENCES` -/
def chatControlSequences : List String := ["<!", "<@", "<#"]

/-- The texts between the occurrences of `seq`, in one: `skip` characters are still of the
    occurrence that was found last. -/
def splitJoinFrom (seq : List Char) : Nat → List Char → List Char
  | _, [] => []
  | skip + 1, _ :: rest => splitJoinFrom seq skip rest
  | 0, c :: rest =>
    if seq.isPrefixOf (c :: rest) then splitJoinFrom seq (seq.length - 1) rest
    else c :: splitJoinFrom seq 0 rest

/-- `s.split(seq).join('')` -/
def splitJoin (s seq : String) : String := String.ofList (splitJoinFrom seq.toList 0 s.toList)

/-- `RenderContext`, less the event and the logger. -/
structure RenderContext extends RenderOptions where
  stripChatControls : Bool := false
  deriving DecidableEq

/-- `applyStringRules` -/
def RenderContext.applyStringRules (ctx : RenderContext) (value : String) : String :=
  let s := if ctx.stripChatControls then chatControlSequences.foldl splitJoin value else value
  Templating.applyStringRules ctx.toRenderOptions s

/-! ## The strip as passes -/

/-- The last characters of the sequences. -/
def controls : List Char := ['!', '@', '#']

/-- The text after the strip. -/
def stripped (s : String) : List Char := passes '<' controls s.toList

theorem splitJoinFrom_pair (a b : Char) (cs : List Char) :
    splitJoinFrom [a, b] 0 cs = without a b cs := by
  induction cs using without.induct a b with
  | case1 => simp [splitJoinFrom, without]
  | case2 c => simp [splitJoinFrom, without, List.isPrefixOf]
  | case3 c d rest hpair ih =>
    obtain ⟨rfl, rfl⟩ := hpair
    simp [splitJoinFrom, without, List.isPrefixOf, ih]
  | case4 c d rest hpair ih =>
    have hprefix : ¬[a, b].isPrefixOf (c :: d :: rest) = true := by
      intro h
      simp only [List.isPrefixOf, Bool.and_true, Bool.and_eq_true, beq_iff_eq] at h
      exact hpair ⟨h.1.symm, h.2.symm⟩
    rw [without, if_neg hpair, splitJoinFrom, if_neg hprefix, ih]

theorem toList_foldl_splitJoin (s : String) :
    (chatControlSequences.foldl splitJoin s).toList = stripped s := by
  have hpair : ∀ (s : String) (b : Char),
      (splitJoin s (String.ofList ['<', b])).toList = without '<' b s.toList := by
    intro s b
    rw [splitJoin, String.toList_ofList, String.toList_ofList, splitJoinFrom_pair]
  show (splitJoin (splitJoin (splitJoin s _) _) _).toList =
    without '<' '#' (without '<' '@' (without '<' '!' s.toList))
  rw [← hpair s, ← hpair, ← hpair]

/-! ## Texts without the sequences -/

/-- The text has none of the sequences. -/
def NoControls (s : String) : Prop := ∀ seq ∈ chatControlSequences, ¬seq.toList <:+: s.toList

instance (s : String) : Decidable (NoControls s) := by
  unfold NoControls
  infer_instance

theorem noControls_iff (s : String) : NoControls s ↔ Clean '<' controls s.toList := by
  have hseq : ∀ b ∈ controls, (String.ofList ['<', b]) ∈ chatControlSequences := by
    intro b hb
    simp only [controls, List.mem_cons, List.not_mem_nil, or_false] at hb
    rcases hb with rfl | rfl | rfl <;> decide
  have hall : ∀ seq ∈ chatControlSequences, ∃ b ∈ controls, seq.toList = ['<', b] := by
    intro seq hseq
    simp only [chatControlSequences, List.mem_cons, List.not_mem_nil, or_false] at hseq
    rcases hseq with rfl | rfl | rfl
    exacts [⟨'!', by simp [controls], rfl⟩, ⟨'@', by simp [controls], rfl⟩,
      ⟨'#', by simp [controls], rfl⟩]
  rw [Clean, List.isChain_iff_forall_rel_of_append_cons_cons]
  constructor
  · rintro h a b l₁ l₂ hs ⟨rfl, hb⟩
    refine h _ (hseq b hb) ⟨l₁, l₂, ?_⟩
    rw [hs, String.toList_ofList]
    simp
  · rintro h seq hmem ⟨l₁, l₂, hs⟩
    obtain ⟨b, hb, heq⟩ := hall seq hmem
    have hsplit : s.toList = l₁ ++ '<' :: b :: l₂ := by
      rw [← hs, heq]
      simp
    exact h hsplit ⟨rfl, hb⟩

end WoodFiredTasks.Router.Templating

namespace WoodFiredTasks.Router.Templating

open PairPasses Utf8Text

/-- The rules of a handler that asks for the strip. -/
def chatRules (opts : RenderOptions) (s : String) : String :=
  RenderContext.applyStringRules { opts with stripChatControls := true } s

/-- A part of the text, in order, or two with the ellipsis between them. -/
def PartOf (s out : String) : Prop :=
  out.toList.Sublist s.toList ∨
    ∃ head tail, out.toList = head ++ '…' :: tail ∧ (head ++ tail).Sublist s.toList

/-! ## The cut -/

/-- A beginning and an end of a text that are together no longer than it do not overlap. -/
theorem append_sublist_of_length_lt {p q cs : List Char} (hp : p <+: cs) (hq : q <:+ cs)
    (hlength : (encode p).length + (encode q).length < (encode cs).length) :
    (p ++ q).Sublist cs := by
  obtain ⟨r, rfl⟩ := hp
  rw [encode_append, List.length_append] at hlength
  rcases List.suffix_or_suffix_of_suffix hq (List.suffix_append p r) with hqr | hrq
  · exact (List.Sublist.refl p).append hqr.sublist
  · obtain ⟨x, rfl⟩ := hrq
    rw [encode_append, List.length_append] at hlength
    omega

/-- What the two rules make of a text, whatever the limits are. -/
theorem chatRules_cases (opts : RenderOptions) (s : String) :
    (chatRules opts s).toList = stripped s ∨
      ∃ head tail, (chatRules opts s).toList = head ++ '…' :: tail ∧
        head <+: stripped s ∧ tail <:+ stripped s ∧
        (opts.truncatedHeadBytes + opts.truncatedTailBytes ≤ opts.maxValueBytes →
          (head ++ tail).Sublist (stripped s)) := by
  have hstripped := toList_foldl_splitJoin s
  simp only [chatRules, RenderContext.applyStringRules, if_true, applyStringRules]
  split
  · exact .inl hstripped
  · rename_i hlong
    have hsuffix : (takeBytes opts.truncatedTailBytes (stripped s).reverse).reverse <:+
        stripped s := by
      rw [← List.reverse_prefix, List.reverse_reverse]
      exact takeBytes_prefix _ _
    rw [toList_truncateUtf8, hstripped]
    have hprefix := takeBytes_prefix opts.truncatedHeadBytes (stripped s)
    refine .inr ⟨_, _, rfl, hprefix, hsuffix, fun hfit => ?_⟩
    refine append_sublist_of_length_lt hprefix hsuffix ?_
    have hhead := length_takeBytes opts.truncatedHeadBytes (stripped s)
    have htail := length_takeBytes opts.truncatedTailBytes (stripped s).reverse
    rw [byteLength, ← length_encode, hstripped] at hlong
    rw [length_encode_reverse]
    omega

theorem stripped_sublist (s : String) : (stripped s).Sublist s.toList := passes_sublist _ _ _

theorem partOf_chatRules (opts : RenderOptions)
    (hfit : opts.truncatedHeadBytes + opts.truncatedTailBytes ≤ opts.maxValueBytes) (s : String) :
    PartOf s (chatRules opts s) := by
  unfold PartOf
  rcases chatRules_cases opts s with hall | ⟨head, tail, hcut, -, -, hpart⟩
  · rw [hall]
    exact Or.inl (stripped_sublist s)
  · have hsub := (hpart hfit).trans (stripped_sublist s)
    exact Or.inr ⟨head, tail, hcut, hsub⟩

/-! ## The sequences -/

/-- A cut does not bring the halves of a sequence together. -/
theorem clean_cut {cs head tail : List Char} (h : Clean '<' controls cs) (hhead : head <+: cs)
    (htail : tail <:+ cs) : Clean '<' controls (head ++ '…' :: tail) := by
  have hleft : Clean '<' controls head := List.IsChain.infix h hhead.isInfix
  have hright : Clean '<' controls tail := List.IsChain.infix h htail.isInfix
  have hellipsis : ('…' : Char) ∉ controls := by decide
  refine List.isChain_append.mpr ⟨hleft, List.isChain_cons.mpr ⟨?_, hright⟩, ?_⟩
  · rintro b - ⟨heq, -⟩
    exact absurd heq (by decide)
  · rintro a - b hb ⟨-, hmem⟩
    simp only [List.head?_cons, Option.mem_some_iff] at hb
    exact hellipsis (hb ▸ hmem)

/-- **Main theorem.** The text a handler gets is free of the sequences and a part of the one it
    asked for, under any limits that leave the head and the tail apart, exactly when each pair of
    the text encloses only pairs of earlier passes. -/
theorem chatRules_complete_iff (s : String) :
    ((∀ opts : RenderOptions, NoControls (chatRules opts s)) ∧
      ∀ opts : RenderOptions,
        opts.truncatedHeadBytes + opts.truncatedTailBytes ≤ opts.maxValueBytes →
          PartOf s (chatRules opts s)) ↔
      layered '<' controls s.toList = true := by
  have hopener : '<' ∉ controls := by decide
  have hnodup : controls.Nodup := by decide
  have hclean : Clean '<' controls (stripped s) ↔ layered '<' controls s.toList = true :=
    clean_passes_iff hopener hnodup s.toList
  rw [← hclean]
  constructor
  · rintro ⟨hnone, -⟩
    -- a limit that the text keeps
    have huncut : (chatRules { maxValueBytes := byteLength (String.ofList (stripped s)) } s).toList =
        stripped s := by
      have hstripped := toList_foldl_splitJoin s
      simp only [chatRules, RenderContext.applyStringRules, if_true, applyStringRules]
      rw [← hstripped, String.ofList_toList, if_pos le_rfl]
    rw [← huncut]
    exact (noControls_iff _).mp (hnone _)
  · intro h
    refine ⟨fun opts => (noControls_iff _).mpr ?_, fun opts hfit => partOf_chatRules opts hfit s⟩
    rcases chatRules_cases opts s with hall | ⟨head, tail, hcut, hhead, htail, -⟩
    · rw [hall]
      exact h
    · rw [hcut]
      exact clean_cut h hhead htail

/-- One sequence within another of its kind. -/
theorem chatRules_nested : ¬∀ s : String, NoControls (chatRules {} s) := by
  intro h
  have hnested := (noControls_iff _).mp (h "<<!!")
  have hout : (chatRules {} "<<!!").toList = ['<', '!'] := by
    rw [show chatRules {} "<<!!" = "<!" by decide +kernel]
    rfl
  rw [hout] at hnested
  have hpair : '<' = '<' ∧ '!' ∈ controls := by decide
  exact List.isChain_cons_cons.mp hnested |>.1 hpair

end WoodFiredTasks.Router.Templating
