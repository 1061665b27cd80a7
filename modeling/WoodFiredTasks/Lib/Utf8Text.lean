import WoodFiredTasks.Lib.Transducer

set_option autoImplicit false

/-! # Texts as UTF-8 bytes

The bytes of a text, and where they may be cut. The first byte of a character is none of those that
go on with one (`utf8EncodeChar_shape`), so a cut that falls within a character can be moved to either
end of it by looking at single bytes (`take_rollBack`, `drop_rollForward`), and what is cut off
decodes to whole characters (`decode_encode`). -/

namespace Utf8Text

open WoodFiredTasks (Utf8State)

/-! ## Encoding -/

/-- The bytes of a text. -/
def encode (cs : List Char) : List UInt8 := cs.flatMap String.utf8EncodeChar

/-- A byte `10xxxxxx`. -/
def isContinuation (b : UInt8) : Bool := b &&& 0xC0 == 0x80

/-- The text of the bytes; a character that is not complete in the end is U+FFFD. -/
def decode (bytes : List UInt8) : List Char :=
  let out := Transducer.run Utf8State.step {} bytes
  out.2 ++ if out.1.bytesNeeded = 0 then [] else ['\ufffd']

@[simp] theorem encode_nil : encode [] = [] := rfl

@[simp] theorem encode_cons (c : Char) (cs : List Char) :
    encode (c :: cs) = String.utf8EncodeChar c ++ encode cs := rfl

theorem encode_append (xs ys : List Char) : encode (xs ++ ys) = encode xs ++ encode ys :=
  List.flatMap_append

theorem length_encode (s : String) : (encode s.toList).length = s.utf8ByteSize := by
  conv_rhs => rw [← s.ofList_toList]
  simp [encode, String.ofList, List.utf8Encode, -String.ofList_toList]

/-! ## Bytes -/

/-- The byte that goes on with a character, for the last six bits of a number. -/
def goesOn (n : Nat) : UInt8 := UInt8.ofNat (n % 0x40 + 0x80)

theorem toNat_lt (c : Char) :
    c.val.toNat < 0xD800 ∨ 0xDFFF < c.val.toNat ∧ c.val.toNat < 0x110000 := c.valid

theorem toNat_ofNat {n : Nat} (h : n < 256) : (UInt8.ofNat n).toNat = n := by
  rw [UInt8.toNat_ofNat']
  omega

theorem toNat_goesOn (n : Nat) : (goesOn n).toNat = n % 0x40 + 0x80 :=
  toNat_ofNat (by omega)

theorem isContinuation_ofNat {n : Nat} (h : n < 256) :
    isContinuation (UInt8.ofNat n) = decide (0x80 ≤ n ∧ n < 0xC0) := by
  have hall : ∀ k : Fin 256,
      isContinuation (UInt8.ofNat k) = decide (0x80 ≤ (k : Nat) ∧ (k : Nat) < 0xC0) := by
    decide +kernel
  exact hall ⟨n, h⟩

@[simp] theorem isContinuation_goesOn (n : Nat) : isContinuation (goesOn n) = true := by
  rw [goesOn, isContinuation_ofNat (by omega), decide_eq_true_eq]
  omega

theorem utf8EncodeChar_eq (c : Char) : String.utf8EncodeChar c =
    if c.val.toNat ≤ 0x7F then [UInt8.ofNat c.val.toNat]
    else if c.val.toNat ≤ 0x7FF then
      [UInt8.ofNat (c.val.toNat / 0x40 % 0x20 + 0xC0), goesOn c.val.toNat]
    else if c.val.toNat ≤ 0xFFFF then
      [UInt8.ofNat (c.val.toNat / 0x1000 % 0x10 + 0xE0), goesOn (c.val.toNat / 0x40),
        goesOn c.val.toNat]
    else
      [UInt8.ofNat (c.val.toNat / 0x40000 % 0x08 + 0xF0), goesOn (c.val.toNat / 0x1000),
        goesOn (c.val.toNat / 0x40), goesOn c.val.toNat] := rfl

/-- One byte that begins a character, and bytes that go on with it. -/
theorem utf8EncodeChar_shape (c : Char) : ∃ lead tail, String.utf8EncodeChar c = lead :: tail ∧
    isContinuation lead = false ∧ ∀ b ∈ tail, isContinuation b = true := by
  have hlead : ∀ n < 256, n < 0x80 ∨ 0xC0 ≤ n → isContinuation (UInt8.ofNat n) = false := by
    intro n hn h
    rw [isContinuation_ofNat hn, decide_eq_false_iff_not]
    omega
  rw [utf8EncodeChar_eq]
  split
  · exact ⟨_, [], rfl, hlead _ (by omega) (by omega), by simp⟩
  split
  · exact ⟨_, _, rfl, hlead _ (by omega) (by omega), by simp⟩
  split
  · exact ⟨_, _, rfl, hlead _ (by omega) (by omega), by simp⟩
  · exact ⟨_, _, rfl, hlead _ (by omega) (by omega), by simp⟩

/-! ## Decoding -/

section

variable (st : Utf8State) (n : Nat) (hneeded : st.bytesNeeded ≠ 0)
  (hbounds : st.lower ≤ n % 0x40 + 0x80 ∧ n % 0x40 + 0x80 ≤ st.upper)

include hneeded hbounds

/-- The decoder on the last byte of a character. -/
theorem run_goesOn (hlast : st.bytesSeen + 1 = st.bytesNeeded) :
    Transducer.run Utf8State.step st [goesOn n] =
      ({}, [Char.ofNat (st.codePoint * 0x40 + n % 0x40)]) := by
  have hbits : (n % 0x40 + 0x80) % 0x40 = n % 0x40 := by omega
  rw [Transducer.run_singleton]
  simp only [Utf8State.step, toNat_goesOn, if_neg hneeded, hbits, if_pos hlast]
  rw [if_neg (by omega)]

/-- The decoder on a byte that is not the last of its character. -/
theorem run_goesOn_cons (hmore : st.bytesSeen + 1 ≠ st.bytesNeeded) (rest : List UInt8) :
    Transducer.run Utf8State.step st (goesOn n :: rest) =
      Transducer.run Utf8State.step
        { bytesNeeded := st.bytesNeeded, bytesSeen := st.bytesSeen + 1,
          codePoint := st.codePoint * 0x40 + n % 0x40 } rest := by
  have hbits : (n % 0x40 + 0x80) % 0x40 = n % 0x40 := by omega
  rw [Transducer.run_cons]
  simp only [Utf8State.step, toNat_goesOn, if_neg hneeded, hbits, if_neg hmore]
  rw [if_neg (by omega)]
  rfl

end

/-- The decoder on the first byte of a character of several bytes. -/
theorem run_lead {n : Nat} (hn : n < 256) {st : Utf8State} (h : Utf8State.lead n = (st, []))
    (rest : List UInt8) :
    Transducer.run Utf8State.step {} (UInt8.ofNat n :: rest) =
      Transducer.run Utf8State.step st rest := by
  rw [Transducer.run_cons]
  simp only [Utf8State.step, toNat_ofNat hn, if_true, h, List.nil_append]

theorem lead_two {n : Nat} (h : 2 ≤ n ∧ n < 0x20) :
    Utf8State.lead (n + 0xC0) = ({ bytesNeeded := 1, codePoint := n }, []) := by
  have hbits : (n + 0xC0) % 0x20 = n := by omega
  rw [Utf8State.lead, if_neg (by omega), if_pos (by omega), hbits]

theorem lead_three {n : Nat} (h : n < 0x10) :
    Utf8State.lead (n + 0xE0) =
      ({ bytesNeeded := 2, codePoint := n, lower := if n = 0 then 0xA0 else 0x80,
         upper := if n = 0xD then 0x9F else 0xBF }, []) := by
  have hbits : (n + 0xE0) % 0x10 = n := by omega
  have hzero : (n + 0xE0 = 0xE0) ↔ n = 0 := by omega
  have hd : (n + 0xE0 = 0xED) ↔ n = 0xD := by omega
  rw [Utf8State.lead, if_neg (by omega), if_neg (by omega), if_pos (by omega), hbits]
  simp only [hzero, hd]

theorem lead_four {n : Nat} (h : n ≤ 4) :
    Utf8State.lead (n + 0xF0) =
      ({ bytesNeeded := 3, codePoint := n, lower := if n = 0 then 0x90 else 0x80,
         upper := if n = 4 then 0x8F else 0xBF }, []) := by
  have hbits : (n + 0xF0) % 0x08 = n := by omega
  have hzero : (n + 0xF0 = 0xF0) ↔ n = 0 := by omega
  have hfour : (n + 0xF0 = 0xF4) ↔ n = 4 := by omega
  rw [Utf8State.lead, if_neg (by omega), if_neg (by omega), if_neg (by omega), if_pos (by omega),
    hbits]
  simp only [hzero, hfour]

/-- The decoder reads the bytes of a character as that character. -/
theorem run_utf8EncodeChar (c : Char) :
    Transducer.run Utf8State.step {} (String.utf8EncodeChar c) = ({}, [c]) := by
  have hc := toNat_lt c
  have hself : ∀ n, n = c.val.toNat → Char.ofNat n = c := fun n hn => hn ▸ Char.ofNat_toNat c
  rw [utf8EncodeChar_eq]
  split
  · next h =>
    rw [Transducer.run_singleton]
    simp only [Utf8State.step, toNat_ofNat (show c.val.toNat < 256 by omega), if_true]
    rw [Utf8State.lead, if_pos h, hself _ rfl]
  split
  · next h h' =>
    rw [run_lead (by omega) (lead_two (by omega)),
      run_goesOn _ _ (by simp) (by dsimp only; omega) rfl, hself _ (by dsimp only; omega)]
  split
  · next h h' h'' =>
    -- the bounds of the second byte keep out overlong forms and surrogates
    have hbounds : (if c.val.toNat / 0x1000 % 0x10 = 0 then 0xA0 else 0x80) ≤
          c.val.toNat / 0x40 % 0x40 + 0x80 ∧
        c.val.toNat / 0x40 % 0x40 + 0x80 ≤
          (if c.val.toNat / 0x1000 % 0x10 = 0xD then 0x9F else 0xBF) := by
      split <;> split <;> omega
    rw [run_lead (by omega) (lead_three (by omega)),
      run_goesOn_cons _ _ (by simp) hbounds (by simp),
      run_goesOn _ _ (by simp) (by dsimp only; omega) rfl, hself _ (by dsimp only; omega)]
  · next h h' h'' =>
    have hbounds : (if c.val.toNat / 0x40000 % 0x08 = 0 then 0x90 else 0x80) ≤
          c.val.toNat / 0x1000 % 0x40 + 0x80 ∧
        c.val.toNat / 0x1000 % 0x40 + 0x80 ≤
          (if c.val.toNat / 0x40000 % 0x08 = 4 then 0x8F else 0xBF) := by
      split <;> split <;> omega
    rw [run_lead (by omega) (lead_four (by omega)),
      run_goesOn_cons _ _ (by simp) hbounds (by simp),
      run_goesOn_cons _ _ (by simp) (by dsimp only; omega) (by simp),
      run_goesOn _ _ (by simp) (by dsimp only; omega) rfl, hself _ (by dsimp only; omega)]

theorem run_encode (cs : List Char) : Transducer.run Utf8State.step {} (encode cs) = ({}, cs) := by
  induction cs with
  | nil => rfl
  | cons c cs ih => rw [encode_cons, Transducer.run_append, run_utf8EncodeChar, ih]; rfl

/-- The bytes of a text are decoded as that text. -/
@[simp] theorem decode_encode (cs : List Char) : decode (encode cs) = cs := by
  simp [decode, run_encode]

/-! ## Places to cut -/

/-- The nearest place from `lo` on that is not within a character. -/
def rollForward (buf : List UInt8) (lo : Nat) : Nat :=
  lo + ((buf.drop lo).takeWhile isContinuation).length

/-- The nearest place from `hi` down to `lo` that is not within a character. -/
def rollBack (buf : List UInt8) (lo : Nat) : Nat → Nat
  | 0 => 0
  | hi + 1 =>
    if lo < hi + 1 ∧ buf[hi + 1]?.any isContinuation then rollBack buf lo hi else hi + 1

theorem takeWhile_encode (cs : List Char) : (encode cs).takeWhile isContinuation = [] := by
  cases cs with
  | nil => rfl
  | cons c cs =>
    obtain ⟨lead, tail, hshape, hlead, -⟩ := utf8EncodeChar_shape c
    rw [encode_cons, hshape, List.cons_append, List.takeWhile_cons_of_neg (by simp [hlead])]

/-- Only the first byte of a character begins it. -/
theorem isContinuation_get {c : Char} {k : Nat} {b : UInt8} (h : (String.utf8EncodeChar c)[k]? = some b) :
    isContinuation b = decide (0 < k) := by
  obtain ⟨lead, tail, hshape, hlead, htail⟩ := utf8EncodeChar_shape c
  rw [hshape] at h
  cases k with
  | zero =>
    rw [List.getElem?_cons_zero, Option.some_inj] at h
    rw [← h, hlead]
    rfl
  | succ k =>
    rw [List.getElem?_cons_succ] at h
    rw [htail b (List.mem_of_getElem? h)]
    simp

theorem any_isContinuation_get (pre post : List Char) {c : Char} {k : Nat} (h : k < c.utf8Size) :
    (encode (pre ++ c :: post))[(encode pre).length + k]?.any isContinuation = decide (0 < k) := by
  obtain ⟨b, hb⟩ : ∃ b, (String.utf8EncodeChar c)[k]? = some b := by
    rw [← String.length_utf8EncodeChar] at h
    exact ⟨_, List.getElem?_eq_getElem h⟩
  rw [encode_append, List.getElem?_append_right (by omega), Nat.add_sub_cancel_left, encode_cons,
    List.getElem?_append_left (by simpa using h), hb]
  exact isContinuation_get hb

/-- Up to a place within a character, the characters before it. -/
theorem rollBack_within (pre post : List Char) {c : Char} {k : Nat} (h : k < c.utf8Size) :
    rollBack (encode (pre ++ c :: post)) 0 ((encode pre).length + k) = (encode pre).length := by
  induction k with
  | zero =>
    have hlead := any_isContinuation_get pre post h
    cases hlen : (encode pre).length with
    | zero => rfl
    | succ n =>
      rw [hlen] at hlead
      rw [Nat.add_zero, rollBack, if_neg (by simp_all)]
  | succ k ih =>
    have hgoes := any_isContinuation_get pre post h
    rw [← Nat.add_assoc] at hgoes ⊢
    rw [rollBack, if_pos ⟨by omega, by simpa using hgoes⟩]
    exact ih (by omega)

/-- The end is no place within a character. -/
theorem rollBack_length (buf : List UInt8) (lo : Nat) : rollBack buf lo buf.length = buf.length := by
  cases hlen : buf.length with
  | zero => rfl
  | succ n => rw [rollBack, if_neg (by simp [← hlen])]

/-- From a place within a character, the characters after it. -/
theorem rollForward_within (pre post : List Char) {c : Char} {k : Nat} (hk : 0 < k)
    (h : k ≤ c.utf8Size) :
    rollForward (encode (pre ++ c :: post)) ((encode pre).length + k) =
      (encode pre).length + c.utf8Size := by
  have hdrop : (encode (pre ++ c :: post)).drop ((encode pre).length + k) =
      (String.utf8EncodeChar c).drop k ++ encode post := by
    rw [encode_append, List.drop_length_add_append, encode_cons,
      List.drop_append_of_le_length (by simpa using h)]
  have hall : ∀ b ∈ (String.utf8EncodeChar c).drop k, isContinuation b = true := by
    intro b hb
    obtain ⟨i, hi⟩ := List.mem_iff_getElem?.1 hb
    rw [List.getElem?_drop] at hi
    rw [isContinuation_get hi, decide_eq_true_eq]
    omega
  rw [rollForward, hdrop, List.takeWhile_append_of_pos hall, takeWhile_encode]
  simp
  omega

/-- Between two characters nothing is skipped. -/
theorem rollForward_between (pre post : List Char) :
    rollForward (encode (pre ++ post)) (encode pre).length = (encode pre).length := by
  rw [rollForward, encode_append, List.drop_left, takeWhile_encode]
  rfl

end Utf8Text
