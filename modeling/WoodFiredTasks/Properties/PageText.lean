import WoodFiredTasks.Web.Pages

set_option autoImplicit false

/-! # Data on the pages is text

What a browser reads of a page is a frame of markup that the templates fix, with the data as the
text in its holes, each in a text or in a quoted attribute value (`page_read`). The frame depends on
which blocks and how many rows there are, and on nothing that a user or an identity provider
wrote. -/

namespace WoodFiredTasks.Web

open Markup (Item Reader Token frame leads fill)

/-! ## Templates as documents -/

/-- The text is that of a document. -/
def Prints (s : String) (doc : List Item) : Prop := s.toList = Markup.print doc

theorem Prints.append {s t : String} {doc doc' : List Item} (h : Prints s doc)
    (h' : Prints t doc') : Prints (s ++ t) (doc ++ doc') := by
  unfold Prints Markup.print at *
  rw [String.toList_append, h, h', List.flatMap_append]

theorem prints_fixed (s : String) : Prints s [.fixed s.toList] := (List.append_nil _).symm

theorem toList_replace (s : String) (c : Char) (replacement : String) :
    (replace s c replacement).toList = Markup.replaceAll c replacement.toList s.toList :=
  String.toList_ofList

theorem prints_escapeHtml (s : String) : Prints (escapeHtml (some s)) [.data s.toList] := by
  show (escapeHtml (some s)).toList = Markup.escape s.toList ++ []
  unfold escapeHtml
  rw [toList_replace, toList_replace, toList_replace, toList_replace, toList_replace,
    List.append_nil, ← Markup.replaceAll_eq_escape]
  rfl

theorem prints_nullable (s : Option String) :
    Prints (escapeHtml s) [.data (s.getD "").toList] := by
  cases s with
  | none => rfl
  | some s => exact prints_escapeHtml s

/-- The document of an array. -/
theorem prints_array {α : Type} (rows : List α) (render : α → String) (doc : α → List Item)
    (h : ∀ row, Prints (render row) (doc row)) :
    Prints (Arg.array (rows.map fun row => .unsafeHtml (render row))).render
      (rows.flatMap doc) := by
  induction rows with
  | nil => rfl
  | cons row rest ih => exact (h row).append ih

/-- The document of a template: its strings, with the documents of the values between them. -/
def templateDoc : List String → List (List Item) → List Item
  | [], _ => []
  | s :: strings, [] => .fixed s.toList :: templateDoc strings []
  | s :: strings, doc :: docs => .fixed s.toList :: (doc ++ templateDoc strings docs)

theorem prints_html {strings : List String} {args : List Arg} {docs : List (List Item)}
    (h : List.Forall₂ (fun arg doc => Prints arg.render doc) args docs) :
    Prints (html strings args) (templateDoc strings docs) := by
  induction strings generalizing args docs with
  | nil => rfl
  | cons s strings ih =>
    cases h with
    | nil => exact (prints_fixed s).append (ih .nil)
    | cons harg hrest =>
      unfold html
      rw [String.append_assoc]
      exact (prints_fixed s).append (harg.append (ih hrest))

/-! ## Where the values stand -/

/-- What stands between two strings of a template: one datum, or a block of its own. -/
inductive Slot where
  | datum
  | block

/-- A document that begins and ends in text. -/
def IsBlock (doc : List Item) : Prop := leads Markup.start (doc.map Item.shape) = some Markup.start

def Slot.Fits : Slot → List Item → Prop
  | .datum, doc => doc.map Item.shape = [none]
  | .block, doc => IsBlock doc

/-- Where the strings of a template leave the reader; `none` when a value stands where it may
    not. -/
def slotsLead (r : Reader) : List (List Char) → List Slot → Option Reader
  | [], _ => some r
  | s :: strings, [] => slotsLead (Transducer.run Markup.step r s).1 strings []
  | s :: strings, slot :: slots =>
    let r' := (Transducer.run Markup.step r s).1
    let admitted := match slot with
      | .datum => r'.pending.isEmpty && r'.mode.admits
      | .block => r' = Markup.start
    if admitted then slotsLead r' strings slots else none

theorem leads_templateDoc {strings : List String} {chars : List (List Char)} {slots : List Slot}
    {docs : List (List Item)} {r r' : Reader}
    (hchars : List.Forall₂ (fun l s => String.ofList l = s) chars strings)
    (hdocs : List.Forall₂ Slot.Fits slots docs) (h : slotsLead r chars slots = some r') :
    leads r ((templateDoc strings docs).map Item.shape) = some r' := by
  induction hchars generalizing r slots docs with
  | nil =>
    cases hdocs <;> exact h
  | @cons l s chars strings hs _ ih =>
    have hl : s.toList = l := by rw [← hs, String.toList_ofList]
    cases hdocs with
    | nil =>
      show leads (Transducer.run Markup.step r s.toList).1 _ = some r'
      rw [hl]
      exact ih .nil h
    | @cons slot doc slots docs hfits hrest =>
      unfold slotsLead at h
      obtain ⟨hadmitted, hmore⟩ := Option.ite_none_right_eq_some.1 h
      show leads (Transducer.run Markup.step r s.toList).1
        ((doc ++ templateDoc strings docs).map Item.shape) = some r'
      rw [hl, List.map_append, Markup.leads_append]
      cases slot with
      | datum =>
        obtain ⟨hpending, hmode⟩ := Bool.and_eq_true_iff.1 hadmitted
        rw [show doc.map Item.shape = [none] from hfits]
        show Option.bind (if _ then some _ else none) _ = _
        rw [if_pos ⟨List.isEmpty_iff.1 hpending, hmode⟩, Option.bind_some]
        exact ih hrest hmore
      | block =>
        have hstart := of_decide_eq_true hadmitted
        rw [hstart] at hmore ⊢
        rw [show leads Markup.start (doc.map Item.shape) = some Markup.start from hfits,
          Option.bind_some]
        exact ih hrest hmore

/-- A template is a block when its strings lead from text to text. -/
theorem isBlock_templateDoc (slots : List Slot) {strings : List String} {chars : List (List Char)}
    {docs : List (List Item)}
    (hchars : List.Forall₂ (fun l s => String.ofList l = s) chars strings)
    (hdocs : List.Forall₂ Slot.Fits slots docs)
    (h : slotsLead Markup.start chars slots = some Markup.start) :
    IsBlock (templateDoc strings docs) :=
  leads_templateDoc hchars hdocs h

theorem isBlock_nil : IsBlock [] := rfl

theorem IsBlock.append {doc doc' : List Item} (h : IsBlock doc) (h' : IsBlock doc') :
    IsBlock (doc ++ doc') := by
  unfold IsBlock at *
  rw [List.map_append, Markup.leads_append, h]
  exact h'

theorem isBlock_flatMap {α : Type} {rows : List α} {doc : α → List Item}
    (h : ∀ row, IsBlock (doc row)) : IsBlock (rows.flatMap doc) := by
  induction rows with
  | nil => exact isBlock_nil
  | cons row rest ih => exact (h row).append ih

/-! ## The layout -/

def datum (s : String) : List Item := [.data s.toList]

def layoutDoc (title : String) (body : List Item) : List Item :=
  templateDoc [layoutHead, "</title>\n<style>", style, layoutMain, layoutEnd]
    [datum title, [], [], body]

theorem prints_layout {title body : String} {doc : List Item} (h : Prints body doc) :
    Prints (layout title body) (layoutDoc title doc) := by
  unfold layout
  simp only [String.append_assoc]
  exact (prints_fixed _).append ((prints_escapeHtml title).append ((prints_fixed _).append
    ((prints_fixed _).append ((prints_fixed _).append (h.append (prints_fixed _))))))

set_option maxRecDepth 20000 in
theorem isBlock_layoutDoc (title : String) {body : List Item} (h : IsBlock body) :
    IsBlock (layoutDoc title body) :=
  isBlock_templateDoc [.datum, .block, .block, .block]
    (.cons rfl (.cons rfl (.cons rfl (.cons rfl (.cons rfl .nil)))))
    (.cons rfl (.cons isBlock_nil (.cons isBlock_nil (.cons h .nil)))) (by decide +kernel)

/-! ## The parts of a page -/

/-- The document of a template whose values are texts. -/
def textsDoc (strings texts : List String) : List Item := templateDoc strings (texts.map datum)

theorem texts_templateDoc {strings : List String} {docs : List (List Item)}
    (h : docs.length ≤ strings.length) :
    Markup.texts (templateDoc strings docs) = docs.flatMap Markup.texts := by
  induction strings generalizing docs with
  | nil =>
    obtain rfl : docs = [] := List.length_eq_zero_iff.1 (Nat.le_zero.1 h)
    rfl
  | cons s strings ih =>
    cases docs with
    | nil => exact ih (Nat.zero_le _)
    | cons doc docs =>
      show Markup.texts (doc ++ templateDoc strings docs) = _
      rw [Markup.texts_append, ih (Nat.le_of_succ_le_succ h), List.flatMap_cons]

theorem texts_textsDoc {strings texts : List String} (h : texts.length ≤ strings.length) :
    Markup.texts (textsDoc strings texts) = texts.map String.toList := by
  unfold textsDoc
  rw [texts_templateDoc (by rwa [List.length_map]), List.flatMap_map]
  exact (List.map_eq_flatMap).symm

theorem texts_flatMap {α : Type} (rows : List α) (doc : α → List Item) :
    Markup.texts (rows.flatMap doc) = rows.flatMap fun row => Markup.texts (doc row) := by
  induction rows with
  | nil => rfl
  | cons row rest ih => rw [List.flatMap_cons, Markup.texts_append, ih, List.flatMap_cons]

/-- Only the shapes of its values decide on the shape of a template. -/
theorem shape_templateDoc {strings : List String} {docs docs' : List (List Item)}
    (h : List.Forall₂ (fun doc doc' => doc.map Item.shape = doc'.map Item.shape) docs docs') :
    (templateDoc strings docs).map Item.shape = (templateDoc strings docs').map Item.shape := by
  induction strings generalizing docs docs' with
  | nil => rfl
  | cons s strings ih =>
    cases h with
    | nil => rfl
    | @cons doc doc' docs docs' hdoc hrest =>
      show some s.toList :: (doc ++ templateDoc strings docs).map Item.shape
        = some s.toList :: (doc' ++ templateDoc strings docs').map Item.shape
      rw [List.map_append, List.map_append, hdoc, ih hrest]

theorem shape_flatMap {α β : Type} {rows : List α} {rows' : List β} {doc : α → List Item}
    {doc' : β → List Item} (hlength : rows.length = rows'.length)
    (h : ∀ row row', (doc row).map Item.shape = (doc' row').map Item.shape) :
    (rows.flatMap doc).map Item.shape = (rows'.flatMap doc').map Item.shape := by
  induction rows generalizing rows' with
  | nil =>
    obtain rfl : rows' = [] := List.length_eq_zero_iff.1 hlength.symm
    rfl
  | cons row rest ih =>
    cases rows' with
    | nil => contradiction
    | cons row' rest' =>
      rw [List.flatMap_cons, List.flatMap_cons, List.map_append, List.map_append, h row row',
        ih (Nat.succ.inj hlength)]

/-- The document of a template that is there when its text is. -/
def optionalDoc (strings : List String) (s : Option String) : List Item :=
  match s with
  | none => []
  | some s => textsDoc strings [s]

theorem shape_optionalDoc {strings : List String} {s s' : Option String}
    (h : s.isSome = s'.isSome) :
    (optionalDoc strings s).map Item.shape = (optionalDoc strings s').map Item.shape := by
  cases s with
  | none =>
    cases s' with
    | none => rfl
    | some s' => contradiction
  | some s =>
    cases s' with
    | none => contradiction
    | some s' => exact shape_templateDoc (.cons rfl .nil)

theorem texts_optionalDoc {strings : List String} (h : 1 ≤ strings.length) (s : Option String) :
    Markup.texts (optionalDoc strings s) = s.toList.map String.toList := by
  cases s with
  | none => rfl
  | some s => exact texts_textsDoc h

/-- A text that is there and not empty. -/
def present (s : Option String) : Option String := s.filter (· ≠ "")

theorem prints_optionalBlock (strings : List String) (s : Option String) :
    Prints (optionalBlock strings s) (optionalDoc strings (present s)) := by
  unfold optionalBlock optionalDoc present
  cases s.filter (· ≠ "") with
  | none => rfl
  | some s => exact prints_html (.cons (prints_escapeHtml s) .nil)

theorem isBlock_optionalDoc {strings : List String} (h : ∀ s, IsBlock (textsDoc strings [s]))
    (s : Option String) : IsBlock (optionalDoc strings s) := by
  cases s with
  | none => exact isBlock_nil
  | some s => exact h s

/-! ## The token page -/

def activeTexts (csrf : String) (t : TokenRow) : List String :=
  [t.name, t.prefixText, t.suffix, t.createdAt, t.lastUsedAt.getD "—", t.expiresAt.getD "—",
    toString t.id, csrf]

def revokedTexts (t : TokenRow) : List String :=
  [t.name, t.prefixText, t.suffix, t.revokedAt.getD ""]

def revokedSectionDoc (revoked : List TokenRow) : List Item :=
  if revoked.length > 0 then
    templateDoc revokedSectionStrings
      [revoked.flatMap fun t => textsDoc revokedStrings (revokedTexts t)]
  else []

def tokensDoc (opts : RenderTokensOptions) : List Item :=
  layoutDoc "Tokens" (templateDoc tokensStrings
    [optionalDoc mintedStrings opts.mintedToken,
      opts.active.flatMap fun t => textsDoc activeStrings (activeTexts opts.csrf t),
      datum opts.csrf, revokedSectionDoc opts.revoked])

theorem prints_activeRow (csrf : String) (t : TokenRow) :
    Prints (activeRow csrf t) (textsDoc activeStrings (activeTexts csrf t)) :=
  prints_html (.cons (prints_escapeHtml _) (.cons (prints_escapeHtml _)
    (.cons (prints_escapeHtml _) (.cons (prints_escapeHtml _) (.cons (prints_escapeHtml _)
      (.cons (prints_escapeHtml _) (.cons (prints_escapeHtml _)
        (.cons (prints_escapeHtml _) .nil))))))))

theorem prints_revokedRow (t : TokenRow) :
    Prints (revokedRow t) (textsDoc revokedStrings (revokedTexts t)) :=
  prints_html (.cons (prints_escapeHtml _) (.cons (prints_escapeHtml _)
    (.cons (prints_escapeHtml _) (.cons (prints_nullable _) .nil))))

theorem prints_revokedSection (revoked : List TokenRow) :
    Prints (revokedSection revoked) (revokedSectionDoc revoked) := by
  unfold revokedSection revokedSectionDoc
  split_ifs
  · exact prints_html (.cons (prints_array _ _ _ prints_revokedRow) .nil)
  · rfl

theorem prints_mintedBlock (token : Option String) :
    Prints (mintedBlock token) (optionalDoc mintedStrings token) := by
  cases token with
  | none => rfl
  | some token => exact prints_html (.cons (prints_escapeHtml _) .nil)

theorem prints_renderTokens (opts : RenderTokensOptions) :
    Prints (renderTokens opts) (tokensDoc opts) :=
  prints_layout (prints_html (.cons (prints_mintedBlock _)
    (.cons (prints_array _ _ _ (prints_activeRow opts.csrf)) (.cons (prints_escapeHtml _)
      (.cons (prints_revokedSection _) .nil)))))

set_option maxRecDepth 20000 in
theorem isBlock_minted (token : String) : IsBlock (textsDoc mintedStrings [token]) :=
  isBlock_templateDoc [.datum] (.cons rfl (.cons rfl .nil)) (.cons rfl .nil)
    (by decide +kernel)

set_option maxRecDepth 20000 in
theorem isBlock_active (csrf : String) (t : TokenRow) :
    IsBlock (textsDoc activeStrings (activeTexts csrf t)) :=
  isBlock_templateDoc [.datum, .datum, .datum, .datum, .datum, .datum, .datum, .datum]
    (.cons rfl (.cons rfl (.cons rfl (.cons rfl (.cons rfl (.cons rfl (.cons rfl (.cons rfl
      (.cons rfl .nil)))))))))
    (.cons rfl (.cons rfl (.cons rfl (.cons rfl (.cons rfl (.cons rfl (.cons rfl (.cons rfl
      .nil)))))))) (by decide +kernel)

set_option maxRecDepth 20000 in
theorem isBlock_revoked (t : TokenRow) : IsBlock (textsDoc revokedStrings (revokedTexts t)) :=
  isBlock_templateDoc [.datum, .datum, .datum, .datum]
    (.cons rfl (.cons rfl (.cons rfl (.cons rfl (.cons rfl .nil)))))
    (.cons rfl (.cons rfl (.cons rfl (.cons rfl .nil)))) (by decide +kernel)

set_option maxRecDepth 20000 in
theorem isBlock_revokedSection (revoked : List TokenRow) : IsBlock (revokedSectionDoc revoked) := by
  unfold revokedSectionDoc
  split_ifs
  · exact isBlock_templateDoc [.block] (.cons rfl (.cons rfl .nil))
      (.cons (isBlock_flatMap isBlock_revoked) .nil) (by decide +kernel)
  · exact isBlock_nil

set_option maxRecDepth 20000 in
theorem isBlock_tokensDoc (opts : RenderTokensOptions) : IsBlock (tokensDoc opts) :=
  isBlock_layoutDoc _ (isBlock_templateDoc [.block, .block, .datum, .block]
    (.cons rfl (.cons rfl (.cons rfl (.cons rfl (.cons rfl .nil)))))
    (.cons (isBlock_optionalDoc isBlock_minted _) (.cons (isBlock_flatMap (isBlock_active _))
      (.cons rfl (.cons (isBlock_revokedSection _) .nil)))) (by decide +kernel))

def tokensTexts (opts : RenderTokensOptions) : List String :=
  "Tokens" :: (opts.mintedToken.toList ++ opts.active.flatMap (activeTexts opts.csrf) ++
    [opts.csrf] ++ opts.revoked.flatMap revokedTexts)

theorem texts_revokedSectionDoc (revoked : List TokenRow) :
    Markup.texts (revokedSectionDoc revoked)
      = (revoked.flatMap revokedTexts).map String.toList := by
  unfold revokedSectionDoc
  split_ifs with hlength
  · rw [texts_templateDoc (by simp [revokedSectionStrings]), List.flatMap_cons, List.flatMap_nil,
      List.append_nil, texts_flatMap, List.map_flatMap]
    exact List.flatMap_congr fun t _ => texts_textsDoc (by decide : (4 : Nat) ≤ 5)
  · obtain rfl : revoked = [] := List.length_eq_zero_iff.1 (by omega)
    rfl

theorem texts_layoutDoc (title : String) (body : List Item) :
    Markup.texts (layoutDoc title body) = title.toList :: Markup.texts body := by
  unfold layoutDoc
  rw [texts_templateDoc (by simp)]
  simp [datum, Markup.texts]

theorem texts_tokensDoc (opts : RenderTokensOptions) :
    Markup.texts (tokensDoc opts) = (tokensTexts opts).map String.toList := by
  unfold tokensDoc tokensTexts
  have hactive : Markup.texts
      (opts.active.flatMap fun t => textsDoc activeStrings (activeTexts opts.csrf t))
        = (opts.active.flatMap (activeTexts opts.csrf)).map String.toList := by
    rw [texts_flatMap, List.map_flatMap]
    exact List.flatMap_congr fun t _ => texts_textsDoc (by decide : (8 : Nat) ≤ 9)
  rw [texts_layoutDoc, texts_templateDoc (by simp [tokensStrings])]
  simp only [List.flatMap_cons, List.flatMap_nil, hactive, texts_revokedSectionDoc,
    texts_optionalDoc (show 1 ≤ mintedStrings.length by decide), List.map_cons, List.map_append,
    List.append_nil, List.append_assoc]
  rfl

theorem shape_tokensDoc {opts opts' : RenderTokensOptions}
    (hminted : opts.mintedToken.isSome = opts'.mintedToken.isSome)
    (hactive : opts.active.length = opts'.active.length)
    (hrevoked : opts.revoked.length = opts'.revoked.length) :
    (tokensDoc opts).map Item.shape = (tokensDoc opts').map Item.shape := by
  have hsection : (revokedSectionDoc opts.revoked).map Item.shape
      = (revokedSectionDoc opts'.revoked).map Item.shape := by
    unfold revokedSectionDoc
    rw [hrevoked]
    split_ifs
    · exact shape_templateDoc (.cons (shape_flatMap hrevoked fun _ _ => rfl) .nil)
    · rfl
  refine shape_templateDoc (.cons rfl (.cons rfl (.cons rfl (.cons (shape_templateDoc ?_) .nil))))
  exact .cons (shape_optionalDoc hminted) (.cons (shape_flatMap hactive fun _ _ => rfl)
    (.cons rfl (.cons hsection .nil)))

/-! ## The page of the device flow -/

def deviceTexts (props : DevicePageProps) : List String :=
  "Approve CLI sign-in" :: ((present props.errorMessage).toList ++
    (present props.prefilledUserCode).toList ++
    [props.csrfToken, props.prefilledUserCode.getD ""])

def deviceDoc (props : DevicePageProps) : List Item :=
  layoutDoc "Approve CLI sign-in" (templateDoc deviceStrings
    [optionalDoc errorStrings (present props.errorMessage),
      optionalDoc prefilledStrings (present props.prefilledUserCode), datum props.csrfToken,
      datum (props.prefilledUserCode.getD "")])

theorem prints_renderDevicePage (props : DevicePageProps) :
    Prints (renderDevicePage props) (deviceDoc props) :=
  prints_layout (prints_html (.cons (prints_optionalBlock _ _) (.cons (prints_optionalBlock _ _)
    (.cons (prints_escapeHtml _) (.cons (prints_escapeHtml _) .nil)))))

set_option maxRecDepth 20000 in
theorem isBlock_deviceDoc (props : DevicePageProps) : IsBlock (deviceDoc props) := by
  have herror : ∀ s, IsBlock (textsDoc errorStrings [s]) := fun s =>
    isBlock_templateDoc [.datum] (.cons rfl (.cons rfl .nil)) (.cons rfl .nil) (by decide +kernel)
  have hprefilled : ∀ s, IsBlock (textsDoc prefilledStrings [s]) := fun s =>
    isBlock_templateDoc [.datum] (.cons rfl (.cons rfl .nil)) (.cons rfl .nil) (by decide +kernel)
  exact isBlock_layoutDoc _ (isBlock_templateDoc [.block, .block, .datum, .datum]
    (.cons rfl (.cons rfl (.cons rfl (.cons rfl (.cons rfl .nil)))))
    (.cons (isBlock_optionalDoc herror _) (.cons (isBlock_optionalDoc hprefilled _)
      (.cons rfl (.cons rfl .nil)))) (by decide +kernel))

theorem texts_deviceDoc (props : DevicePageProps) :
    Markup.texts (deviceDoc props) = (deviceTexts props).map String.toList := by
  unfold deviceDoc deviceTexts
  rw [texts_layoutDoc, texts_templateDoc (by simp [deviceStrings])]
  simp only [List.flatMap_cons, List.flatMap_nil,
    texts_optionalDoc (show 1 ≤ errorStrings.length by decide),
    texts_optionalDoc (show 1 ≤ prefilledStrings.length by decide), List.map_cons,
    List.map_append, List.append_assoc]
  rfl

theorem shape_deviceDoc {props props' : DevicePageProps}
    (herror : (present props.errorMessage).isSome = (present props'.errorMessage).isSome)
    (hprefilled : (present props.prefilledUserCode).isSome
      = (present props'.prefilledUserCode).isSome) :
    (deviceDoc props).map Item.shape = (deviceDoc props').map Item.shape :=
  shape_templateDoc (.cons rfl (.cons rfl (.cons rfl (.cons (shape_templateDoc
    (.cons (shape_optionalDoc herror) (.cons (shape_optionalDoc hprefilled)
      (.cons rfl (.cons rfl .nil))))) .nil))))

/-! ## Pages of one template -/

/-- A page whose body is one template with a text at each place. -/
structure PlainPage (strings : List String) (n : Nat) : Prop where
  fits : n ≤ strings.length
  isBlock : ∀ texts : List String, texts.length = n → IsBlock (textsDoc strings texts)

theorem fits_datums (texts : List String) :
    List.Forall₂ Slot.Fits (List.replicate texts.length .datum) (texts.map datum) := by
  induction texts with
  | nil => exact .nil
  | cons s rest ih => exact .cons rfl ih

theorem plainPage_of_chars {strings : List String} {chars : List (List Char)} (n : Nat)
    (hchars : List.Forall₂ (fun l s => String.ofList l = s) chars strings)
    (hfits : n ≤ strings.length)
    (h : slotsLead Markup.start chars (List.replicate n .datum) = some Markup.start) :
    PlainPage strings n where
  fits := hfits
  isBlock := fun texts hlength =>
    isBlock_templateDoc _ hchars (fits_datums texts) (by rwa [hlength])

set_option maxRecDepth 20000 in
theorem plainPage_approved : PlainPage approvedStrings 0 :=
  plainPage_of_chars 0 (.cons rfl .nil) (by decide) (by decide +kernel)

set_option maxRecDepth 20000 in
theorem plainPage_error : PlainPage renderErrorStrings 2 :=
  plainPage_of_chars 2 (.cons rfl (.cons rfl (.cons rfl .nil))) (by decide) (by decide +kernel)

set_option maxRecDepth 20000 in
theorem plainPage_login : PlainPage renderLoginStrings 1 :=
  plainPage_of_chars 1 (.cons rfl (.cons rfl .nil)) (by decide) (by decide +kernel)

set_option maxRecDepth 20000 in
theorem plainPage_me : PlainPage renderMeStrings 5 :=
  plainPage_of_chars 5 (.cons rfl (.cons rfl (.cons rfl (.cons rfl (.cons rfl (.cons rfl .nil))))))
    (by decide) (by decide +kernel)

def plainDoc (title : String) (strings texts : List String) : List Item :=
  layoutDoc title (textsDoc strings texts)

theorem texts_plainDoc {strings : List String} {n : Nat} (h : PlainPage strings n) (title : String)
    {texts : List String} (hlength : texts.length = n) :
    Markup.texts (plainDoc title strings texts) = (title :: texts).map String.toList := by
  rw [plainDoc, texts_layoutDoc, texts_textsDoc (hlength ▸ h.fits), List.map_cons]

theorem shape_plainDoc (title : String) (strings : List String) {texts texts' : List String}
    (h : texts.length = texts'.length) :
    (plainDoc title strings texts).map Item.shape
      = (plainDoc title strings texts').map Item.shape := by
  refine shape_templateDoc (.cons rfl (.cons rfl (.cons rfl (.cons (shape_templateDoc ?_) .nil))))
  induction texts generalizing texts' with
  | nil =>
    obtain rfl : texts' = [] := List.length_eq_zero_iff.1 h.symm
    exact .nil
  | cons s rest ih =>
    cases texts' with
    | nil => contradiction
    | cons s' rest' => exact .cons rfl (ih (Nat.succ.inj h))

/-! ## All pages -/

inductive Page where
  | tokens (opts : RenderTokensOptions)
  | device (props : DevicePageProps)
  | deviceApproved
  | error (opts : RenderErrorOptions)
  | login (next : Option String)
  | me (opts : RenderMeOptions)

/-- Which page it is, which optional blocks are there and how many rows there are. -/
inductive PageShape where
  | tokens (minted : Bool) (active revoked : Nat)
  | device (error prefilled : Bool)
  | deviceApproved
  | error
  | login
  | me
  deriving DecidableEq

namespace Page

variable (toISOString : Nat → String)

def render : Page → String
  | .tokens opts => renderTokens opts
  | .device props => renderDevicePage props
  | .deviceApproved => renderDeviceApprovedPage
  | .error opts => renderError opts
  | .login next => renderLogin next
  | .me opts => renderMe toISOString opts

def shape : Page → PageShape
  | .tokens opts => .tokens opts.mintedToken.isSome opts.active.length opts.revoked.length
  | .device props =>
    .device (present props.errorMessage).isSome (present props.prefilledUserCode).isSome
  | .deviceApproved => .deviceApproved
  | .error _ => .error
  | .login _ => .login
  | .me _ => .me

/-- The data of a page, its title first, in the order in which it is shown. -/
def texts : Page → List String
  | .tokens opts => tokensTexts opts
  | .device props => deviceTexts props
  | .deviceApproved => ["Approved"]
  | .error opts => ["Error", opts.message, optionalBlock reasonStrings opts.reason]
  | .login next => ["Sign in", loginHref next]
  | .me opts =>
    ["Profile", opts.user.displayName, opts.user.email.getD "—", authMethodLabel opts.authMethod,
      lastSignIn toISOString opts.authenticatedAt, opts.csrf]

def doc (page : Page) : List Item :=
  match page with
  | .tokens opts => tokensDoc opts
  | .device props => deviceDoc props
  | .deviceApproved => plainDoc "Approved" approvedStrings []
  | .error opts =>
    plainDoc "Error" renderErrorStrings [opts.message, optionalBlock reasonStrings opts.reason]
  | .login next => plainDoc "Sign in" renderLoginStrings [loginHref next]
  | .me opts =>
    plainDoc "Profile" renderMeStrings
      [opts.user.displayName, opts.user.email.getD "—", authMethodLabel opts.authMethod,
        lastSignIn toISOString opts.authenticatedAt, opts.csrf]

theorem prints_render (page : Page) : Prints (page.render toISOString) (page.doc toISOString) := by
  cases page with
  | tokens opts => exact prints_renderTokens opts
  | device props => exact prints_renderDevicePage props
  | deviceApproved => exact prints_layout (prints_html .nil)
  | error opts =>
    exact prints_layout (prints_html (.cons (prints_escapeHtml _)
      (.cons (prints_escapeHtml _) .nil)))
  | login next => exact prints_layout (prints_html (.cons (prints_escapeHtml _) .nil))
  | me opts =>
    exact prints_layout (prints_html (.cons (prints_escapeHtml _) (.cons (prints_escapeHtml _)
      (.cons (prints_escapeHtml _) (.cons (prints_escapeHtml _)
        (.cons (prints_escapeHtml _) .nil))))))

theorem isBlock_doc (page : Page) : IsBlock (page.doc toISOString) := by
  cases page with
  | tokens opts => exact isBlock_tokensDoc opts
  | device props => exact isBlock_deviceDoc props
  | deviceApproved => exact isBlock_layoutDoc _ (plainPage_approved.isBlock _ rfl)
  | error opts => exact isBlock_layoutDoc _ (plainPage_error.isBlock _ rfl)
  | login next => exact isBlock_layoutDoc _ (plainPage_login.isBlock _ rfl)
  | me opts => exact isBlock_layoutDoc _ (plainPage_me.isBlock _ rfl)

theorem texts_doc (page : Page) :
    Markup.texts (page.doc toISOString) = (page.texts toISOString).map String.toList := by
  cases page with
  | tokens opts => exact texts_tokensDoc opts
  | device props => exact texts_deviceDoc props
  | deviceApproved => exact texts_plainDoc plainPage_approved _ rfl
  | error opts => exact texts_plainDoc plainPage_error _ rfl
  | login next => exact texts_plainDoc plainPage_login _ rfl
  | me opts => exact texts_plainDoc plainPage_me _ rfl

/-- The documents of pages of one shape differ in their data only. -/
theorem shape_doc {page page' : Page} (h : page.shape = page'.shape) :
    (page.doc toISOString).map Item.shape = (page'.doc toISOString).map Item.shape := by
  cases page with
  | tokens opts =>
    cases page' with
    | tokens opts' =>
      obtain ⟨hminted, hactive, hrevoked⟩ := PageShape.tokens.inj h
      exact shape_tokensDoc hminted hactive hrevoked
    | _ => contradiction
  | device props =>
    cases page' with
    | device props' =>
      obtain ⟨herror, hprefilled⟩ := PageShape.device.inj h
      exact shape_deviceDoc herror hprefilled
    | _ => contradiction
  | deviceApproved =>
    cases page' with
    | deviceApproved => rfl
    | _ => contradiction
  | error opts =>
    cases page' with
    | error opts' => exact shape_plainDoc _ _ rfl
    | _ => contradiction
  | login next =>
    cases page' with
    | login next' => exact shape_plainDoc _ _ rfl
    | _ => contradiction
  | me opts =>
    cases page' with
    | me opts' => exact shape_plainDoc _ _ rfl
    | _ => contradiction

/-- **Main theorem.** All pages of one shape are read as one frame of markup, whose holes are filled
    with the data of the page, character by character. So no data is read as markup, whatever
    stands in it, and all of it is read as it is. -/
theorem page_read (shape : PageShape) : ∃ holes : List (Option (List Token)),
    ∀ page : Page, page.shape = shape →
      holes.countP Option.isNone = (page.texts toISOString).length ∧
      Markup.read (page.render toISOString).toList
        = fill holes ((page.texts toISOString).map String.toList) := by
  by_cases hsome : ∃ page : Page, page.shape = shape
  · obtain ⟨page, hpage⟩ := hsome
    refine ⟨frame Markup.start ((page.doc toISOString).map Item.shape), fun page' hpage' => ?_⟩
    rw [shape_doc toISOString (hpage.trans hpage'.symm)]
    constructor
    · rw [Markup.countP_frame, texts_doc, List.length_map]
    · rw [show (page'.render toISOString).toList = Markup.print (page'.doc toISOString) from
        page'.prints_render toISOString, Markup.read_print (page'.isBlock_doc toISOString),
        texts_doc]
  · exact ⟨[], fun page hpage => absurd ⟨page, hpage⟩ hsome⟩

end Page

end WoodFiredTasks.Web
