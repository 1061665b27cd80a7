import WoodFiredTasks.Lib.Transducer

set_option autoImplicit false

/-! # Markup and the text in it

A reader of markup: outside of tags and in quoted attribute values it takes every character for
content and decodes the references it knows, in a tag it takes every character for markup. Escaped
text is content wherever a reader may find it: its characters come out as they went in, and none of
them as markup (`run_escape`).

A document is made of fixed parts and of data. Where its data stands in text or in quoted values,
what is read is a frame that the fixed parts alone determine, filled with the data (`read_print`). -/

namespace Markup

/-! ## Reading -/

/-- Where the reader is: in text, in a tag, or in an attribute value up to a quotation mark. -/
inductive Mode where
  | text
  | tag
  | quoted (mark : Char)
  deriving DecidableEq

inductive Token where
  | markup (c : Char)
  | content (c : Char)
  deriving DecidableEq

/-- The references and what they stand for. -/
def references : List (List Char × Char) :=
  [(['&', 'a', 'm', 'p', ';'], '&'), (['&', 'l', 't', ';'], '<'), (['&', 'g', 't', ';'], '>'),
    (['&', 'q', 'u', 'o', 't', ';'], '"'), (['&', '#', '3', '9', ';'], '\'')]

/-- The reader and the reference that it has begun to read. -/
structure Reader where
  mode : Mode
  pending : List Char
  deriving DecidableEq

def start : Reader := ⟨.text, []⟩

/-- A character outside of references. -/
def plain (mode : Mode) (c : Char) : Reader × List Token :=
  match mode with
  | .text =>
    if c = '<' then (⟨.tag, []⟩, [.markup c])
    else if c = '&' then (⟨.text, [c]⟩, [])
    else (⟨.text, []⟩, [.content c])
  | .tag =>
    if c = '>' then (⟨.text, []⟩, [.markup c])
    else if c = '"' ∨ c = '\'' then (⟨.quoted c, []⟩, [.markup c])
    else (⟨.tag, []⟩, [.markup c])
  | .quoted mark =>
    if c = mark then (⟨.tag, []⟩, [.markup c])
    else if c = '&' then (⟨.quoted mark, [c]⟩, [])
    else (⟨.quoted mark, []⟩, [.content c])

def step (r : Reader) (c : Char) : Reader × List Token :=
  if r.pending = [] then plain r.mode c
  else
    let begun := r.pending ++ [c]
    match references.lookup begun with
    | some d => (⟨r.mode, []⟩, [.content d])
    | none =>
      if references.any fun ref => begun.isPrefixOf ref.1 then (⟨r.mode, begun⟩, [])
      else ((plain r.mode c).1, r.pending.map .content ++ (plain r.mode c).2)

/-- What is read from a whole text. -/
def read (s : List Char) : List Token :=
  (Transducer.run step start s).2 ++ (Transducer.run step start s).1.pending.map .content

/-! ## Escaping -/

/-- Every occurrence of a character is replaced. -/
def replaceAll (c : Char) (replacement : List Char) (s : List Char) : List Char :=
  s.flatMap fun d => if d = c then replacement else [d]

/-- A character as it is written into text and attribute values. -/
def escapeChar (c : Char) : List Char :=
  if c = '&' then ['&', 'a', 'm', 'p', ';']
  else if c = '<' then ['&', 'l', 't', ';']
  else if c = '>' then ['&', 'g', 't', ';']
  else if c = '"' then ['&', 'q', 'u', 'o', 't', ';']
  else if c = '\'' then ['&', '#', '3', '9', ';']
  else [c]

def escape (s : List Char) : List Char := s.flatMap escapeChar

theorem replaceAll_append (c : Char) (replacement s t : List Char) :
    replaceAll c replacement (s ++ t) = replaceAll c replacement s ++ replaceAll c replacement t :=
  List.flatMap_append

/-- One replacement after the other escapes each character once, as the first one is that of the
    character with which all of the others begin. -/
theorem replaceAll_eq_escape (s : List Char) :
    replaceAll '\'' ['&', '#', '3', '9', ';'] (replaceAll '"' ['&', 'q', 'u', 'o', 't', ';']
      (replaceAll '>' ['&', 'g', 't', ';'] (replaceAll '<' ['&', 'l', 't', ';']
        (replaceAll '&' ['&', 'a', 'm', 'p', ';'] s)))) = escape s := by
  induction s with
  | nil => rfl
  | cons c rest ih =>
    have hsplit : ∀ (d : Char) (replacement : List Char),
        replaceAll d replacement (c :: rest)
          = replaceAll d replacement [c] ++ replaceAll d replacement rest :=
      fun d replacement => replaceAll_append d replacement [c] rest
    rw [hsplit, replaceAll_append, replaceAll_append, replaceAll_append, replaceAll_append, ih]
    show _ = escapeChar c ++ escape rest
    refine congrArg (· ++ escape rest) ?_
    unfold escapeChar
    by_cases hamp : c = '&'
    · subst hamp
      decide
    by_cases hlt : c = '<'
    · subst hlt
      decide
    by_cases hgt : c = '>'
    · subst hgt
      decide
    by_cases hdq : c = '"'
    · subst hdq
      decide
    by_cases hsq : c = '\''
    · subst hsq
      decide
    · simp [replaceAll, hamp, hlt, hgt, hdq, hsq]

/-! ## Escaped text is content -/

/-- Where data may stand. -/
def Mode.admits : Mode → Bool
  | .text => true
  | .tag => false
  | .quoted mark => mark = '"' ∨ mark = '\''

theorem run_escapeChar {mode : Mode} (h : mode.admits = true) (c : Char) :
    Transducer.run step ⟨mode, []⟩ (escapeChar c) = (⟨mode, []⟩, [.content c]) := by
  have hmode : mode = .text ∨ mode = .quoted '"' ∨ mode = .quoted '\'' := by
    cases mode with
    | text => exact .inl rfl
    | tag => contradiction
    | quoted mark =>
      rcases of_decide_eq_true h with rfl | rfl
      · exact .inr (.inl rfl)
      · exact .inr (.inr rfl)
  unfold escapeChar
  -- the five characters that are written as references, and all others
  by_cases hamp : c = '&'
  · subst hamp
    rcases hmode with rfl | rfl | rfl <;> decide
  by_cases hlt : c = '<'
  · subst hlt
    rcases hmode with rfl | rfl | rfl <;> decide
  by_cases hgt : c = '>'
  · subst hgt
    rcases hmode with rfl | rfl | rfl <;> decide
  by_cases hdq : c = '"'
  · subst hdq
    rcases hmode with rfl | rfl | rfl <;> decide
  by_cases hsq : c = '\''
  · subst hsq
    rcases hmode with rfl | rfl | rfl <;> decide
  rw [if_neg hamp, if_neg hlt, if_neg hgt, if_neg hdq, if_neg hsq, Transducer.run_singleton]
  rcases hmode with rfl | rfl | rfl <;> simp [step, plain, hamp, hlt, hdq, hsq]

/-- **Escaped text is read as itself, and leaves the reader where it was.** -/
theorem run_escape {mode : Mode} (h : mode.admits = true) (s : List Char) :
    Transducer.run step ⟨mode, []⟩ (escape s) = (⟨mode, []⟩, s.map .content) := by
  induction s with
  | nil => rfl
  | cons c rest ih =>
    show Transducer.run step ⟨mode, []⟩ (escapeChar c ++ escape rest) = _
    rw [Transducer.run_append, run_escapeChar h, ih]
    rfl

/-! ## Documents -/

/-- A part of a document. -/
inductive Item where
  | fixed (s : List Char)
  | data (s : List Char)

/-- The text of a document: its data is escaped. -/
def print (doc : List Item) : List Char :=
  doc.flatMap fun
    | .fixed s => s
    | .data s => escape s

/-- The data of a document. -/
def texts (doc : List Item) : List (List Char) :=
  doc.filterMap fun
    | .fixed _ => none
    | .data s => some s

/-- A part without its data. -/
def Item.shape : Item → Option (List Char)
  | .fixed s => some s
  | .data _ => none

/-- The state in which the fixed parts leave the reader; `none` when some data stands where it may
    not. -/
def leads (r : Reader) : List (Option (List Char)) → Option Reader
  | [] => some r
  | some s :: rest => leads (Transducer.run step r s).1 rest
  | none :: rest => if r.pending = [] ∧ r.mode.admits = true then leads r rest else none

/-- What is read of the fixed parts, with a hole for each datum. -/
def frame (r : Reader) : List (Option (List Char)) → List (Option (List Token))
  | [] => []
  | some s :: rest => some (Transducer.run step r s).2 :: frame (Transducer.run step r s).1 rest
  | none :: rest => none :: frame r rest

/-- The holes are filled one after the other. -/
def fill : List (Option (List Token)) → List (List Char) → List Token
  | [], _ => []
  | some tokens :: rest, data => tokens ++ fill rest data
  | none :: rest, s :: data => s.map .content ++ fill rest data
  | none :: rest, [] => fill rest []

theorem leads_append (r : Reader) (xs ys : List (Option (List Char))) :
    leads r (xs ++ ys) = (leads r xs).bind fun r' => leads r' ys := by
  induction xs generalizing r with
  | nil => rfl
  | cons x rest ih =>
    cases x with
    | some s => exact ih _
    | none =>
      show (if _ then leads r (rest ++ ys) else none)
        = Option.bind (if _ then leads r rest else none) _
      split_ifs
      · exact ih r
      · rfl

/-- Parts that leave the reader where it was may be repeated. -/
theorem leads_flatten {r : Reader} {parts : List (List (Option (List Char)))}
    (h : ∀ part ∈ parts, leads r part = some r) : leads r parts.flatten = some r := by
  induction parts with
  | nil => rfl
  | cons part rest ih =>
    rw [List.flatten_cons, leads_append, h part List.mem_cons_self]
    exact ih fun p hp => h p (List.mem_cons_of_mem part hp)

theorem run_print {r r' : Reader} {doc : List Item} (h : leads r (doc.map Item.shape) = some r') :
    Transducer.run step r (print doc) = (r', fill (frame r (doc.map Item.shape)) (texts doc)) := by
  induction doc generalizing r with
  | nil =>
    obtain rfl : r = r' := Option.some.inj h
    rfl
  | cons item rest ih =>
    cases item with
    | fixed s =>
      have hrest := ih (r := (Transducer.run step r s).1) h
      show Transducer.run step r (s ++ print rest) = _
      rw [Transducer.run_append, hrest]
      rfl
    | data s =>
      have h : (if r.pending = [] ∧ r.mode.admits = true
          then leads r (rest.map Item.shape) else none) = some r' := h
      obtain ⟨⟨hpending, hadmits⟩, hrest⟩ := Option.ite_none_right_eq_some.1 h
      obtain ⟨mode, pending⟩ := r
      obtain rfl : pending = [] := hpending
      show Transducer.run step ⟨mode, []⟩ (escape s ++ print rest) = _
      rw [Transducer.run_append, run_escape hadmits, ih hrest]
      rfl

/-- **What is read of a document** is a frame that its fixed parts determine, filled with its
    data. -/
theorem read_print {doc : List Item} {mode : Mode}
    (h : leads start (doc.map Item.shape) = some ⟨mode, []⟩) :
    read (print doc) = fill (frame start (doc.map Item.shape)) (texts doc) := by
  unfold read
  rw [run_print h]
  exact List.append_nil _

theorem countP_frame (r : Reader) (doc : List Item) :
    (frame r (doc.map Item.shape)).countP Option.isNone = (texts doc).length := by
  induction doc generalizing r with
  | nil => rfl
  | cons item rest ih =>
    cases item with
    | fixed s => exact ih _
    | data s =>
      show (none :: frame r (rest.map Item.shape)).countP Option.isNone = (s :: texts rest).length
      rw [List.countP_cons, ih, List.length_cons]
      rfl

theorem texts_append (doc doc' : List Item) : texts (doc ++ doc') = texts doc ++ texts doc' :=
  List.filterMap_append

end Markup
