import Mathlib.Data.List.Basic

set_option autoImplicit false

/-! # Query strings

The format `application/x-www-form-urlencoded` of the parameters of a request: a list of names and
values is written as `name=value` with `&` between the pairs; a byte of the UTF-8 text that may not
stand for itself is written as `%` and two hexadecimal digits, and a blank as `+`. Whatever the
texts are, the pairs that are read back are those that were written. -/

namespace FormUrl

/-! ## Bytes -/

/-- Letters, digits and `*-._` stand for themselves. -/
def standsForItself (b : UInt8) : Bool :=
  (0x30 ≤ b && b ≤ 0x39) || (0x41 ≤ b && b ≤ 0x5A) || (0x61 ≤ b && b ≤ 0x7A) ||
    b == 0x2A || b == 0x2D || b == 0x2E || b == 0x5F

def hexDigit (n : UInt8) : UInt8 := if n < 10 then 0x30 + n else 0x37 + n

def hexValue (b : UInt8) : Option UInt8 :=
  if 0x30 ≤ b && b ≤ 0x39 then some (b - 0x30)
  else if 0x41 ≤ b && b ≤ 0x46 then some (b - 0x37)
  else if 0x61 ≤ b && b ≤ 0x66 then some (b - 0x57)
  else none

def encodeByte (b : UInt8) : List UInt8 :=
  if b = 0x20 then [0x2B]
  else if standsForItself b then [b]
  else [0x25, hexDigit (b / 16), hexDigit (b % 16)]

/-- The bytes of a text; none if an escape is broken. -/
def decodeBytes : List UInt8 → Option (List UInt8)
  | [] => some []
  | 0x25 :: hi :: lo :: rest => do
    let h ← hexValue hi
    let l ← hexValue lo
    (decodeBytes rest).map fun bytes => (h * 16 + l) :: bytes
  | b :: rest =>
    if b = 0x25 then none
    else (decodeBytes rest).map fun bytes => (if b = 0x2B then 0x20 else b) :: bytes

/-- What holds of the 256 bytes holds of every byte. -/
theorem forall_byte {P : UInt8 → Prop} (h : ∀ n : Fin 256, P (UInt8.ofNat n)) (b : UInt8) : P b := by
  have hb := h ⟨b.toNat, b.toNat_lt⟩
  simpa using hb

theorem standsForItself_spec : ∀ b : UInt8, standsForItself b = true → b ≠ 0x25 ∧ b ≠ 0x2B :=
  forall_byte (by decide +kernel)

theorem hex_spec : ∀ b : UInt8, hexValue (hexDigit (b / 16)) = some (b / 16) ∧
    hexValue (hexDigit (b % 16)) = some (b % 16) ∧ b / 16 * 16 + b % 16 = b :=
  forall_byte (by decide +kernel)

/-- No encoded byte is a separator. -/
theorem separator_notMem_encodeByte : ∀ b : UInt8, 0x26 ∉ encodeByte b ∧ 0x3D ∉ encodeByte b :=
  forall_byte (by decide +kernel)

/-- What is written for a byte is read as it. -/
theorem decodeBytes_encodeByte (b : UInt8) (rest : List UInt8) :
    decodeBytes (encodeByte b ++ rest) = (decodeBytes rest).map fun bytes => b :: bytes := by
  unfold encodeByte
  split
  · rename_i hblank
    subst hblank
    simp [decodeBytes]
  · split
    · rename_i hself
      obtain ⟨hpercent, hplus⟩ := standsForItself_spec b hself
      simp [decodeBytes, hpercent, hplus]
    · obtain ⟨hhi, hlo, hsum⟩ := hex_spec b
      simp [decodeBytes, hhi, hlo, hsum]

theorem decodeBytes_encode (bytes : List UInt8) :
    decodeBytes (bytes.flatMap encodeByte) = some bytes := by
  induction bytes with
  | nil => rfl
  | cons b rest ih => rw [List.flatMap_cons, decodeBytes_encodeByte, ih, Option.map_some]

/-! ## Texts -/

/-- What is written for a text. -/
def encodeText (s : String) : List UInt8 := s.toByteArray.data.toList.flatMap encodeByte

/-- The text that is read, if the bytes are one. -/
def decodeText (bytes : List UInt8) : Option String :=
  decodeBytes bytes >>= fun decoded => String.fromUTF8? ⟨decoded.toArray⟩

theorem decodeText_encodeText (s : String) : decodeText (encodeText s) = some s := by
  rw [decodeText, encodeText, decodeBytes_encode]
  show String.fromUTF8? ⟨s.toByteArray.data.toList.toArray⟩ = some s
  rw [Array.toArray_toList, String.fromUTF8?, dif_pos s.isValidUTF8]
  rfl

theorem separator_notMem_encodeText (s : String) : 0x26 ∉ encodeText s ∧ 0x3D ∉ encodeText s := by
  simp only [encodeText, List.mem_flatMap, not_exists, not_and]
  exact ⟨fun b _ => (separator_notMem_encodeByte b).1, fun b _ => (separator_notMem_encodeByte b).2⟩

/-! ## Pairs -/

def encodePair (p : String × String) : List UInt8 := encodeText p.1 ++ 0x3D :: encodeText p.2

/-- A name ends at the first `=`. -/
def decodePair (bytes : List UInt8) : Option (String × String) := do
  let name ← decodeText (bytes.takeWhile fun b => b != 0x3D)
  let value ← decodeText ((bytes.dropWhile fun b => b != 0x3D).drop 1)
  pure (name, value)

/-- `URLSearchParams.toString`. -/
def encode (params : List (String × String)) : List UInt8 :=
  [0x26].intercalate (params.map encodePair)

/-- The parameters that a query string is read as. -/
def decode (query : List UInt8) : Option (List (String × String)) :=
  ((query.splitOn 0x26).filter fun bytes => bytes != []).mapM decodePair

/-- The entries that are defined. -/
def defined (entries : List (String × Option String)) : List (String × String) :=
  entries.filterMap fun entry => entry.2.map fun value => (entry.1, value)

theorem decodePair_encodePair (p : String × String) : decodePair (encodePair p) = some p := by
  have hname : ∀ b ∈ encodeText p.1, (b != 0x3D) = true := by
    intro b hb
    rw [bne_iff_ne]
    rintro rfl
    exact (separator_notMem_encodeText p.1).2 hb
  have htake : (encodePair p).takeWhile (fun b => b != 0x3D) = encodeText p.1 := by
    rw [encodePair, List.takeWhile_append_of_pos hname]
    simp
  have hdrop : ((encodePair p).dropWhile fun b => b != 0x3D).drop 1 = encodeText p.2 := by
    rw [encodePair, List.dropWhile_append_of_pos hname]
    simp
  rw [decodePair, htake, hdrop, decodeText_encodeText, decodeText_encodeText]
  rfl

/-- **Main theorem.** What is read back are the parameters that were written. -/
theorem decode_encode (params : List (String × String)) : decode (encode params) = some params := by
  have hread : (params.map encodePair).mapM decodePair = some params := by
    induction params with
    | nil => rfl
    | cons p rest ih =>
      rw [List.map_cons, List.mapM_cons, decodePair_encodePair, ih]
      rfl
  have hpairs : (params.map encodePair).filter (fun bytes => bytes != []) =
      params.map encodePair := by
    rw [List.filter_eq_self]
    intro bytes hbytes
    obtain ⟨p, -, rfl⟩ := List.mem_map.1 hbytes
    simp [encodePair]
  rw [decode, encode]
  cases params with
  | nil => rfl
  | cons p rest =>
    rw [List.splitOn_intercalate, hpairs, hread]
    · intro bytes hbytes hmem
      obtain ⟨q, -, rfl⟩ := List.mem_map.1 hbytes
      rcases List.mem_append.1 hmem with hname | hvalue
      · exact (separator_notMem_encodeText q.1).1 hname
      · rcases List.mem_cons.1 hvalue with hsep | hvalue
        · exact absurd hsep (by decide)
        · exact (separator_notMem_encodeText q.2).1 hvalue
    · simp

/-- An entry is found under its name if it is defined. -/
theorem lookup_defined {entries : List (String × Option String)} {name : String}
    (hnodup : (entries.map Prod.fst).Nodup) :
    (defined entries).lookup name = (entries.lookup name).join := by
  induction entries with
  | nil => rfl
  | cons entry rest ih =>
    obtain ⟨key, value⟩ := entry
    obtain ⟨hfirst, hrest⟩ := List.nodup_cons.1 hnodup
    have hih := ih hrest
    by_cases hname : name = key
    · subst hname
      cases value with
      | some text => simp [defined]
      | none =>
        -- the name is not there a second time
        have hnone : rest.lookup name = none := by
          rw [List.lookup_eq_none_iff]
          intro p hp
          simpa using fun h : name = p.1 => hfirst (List.mem_map.2 ⟨p, hp, h.symm⟩)
        rw [hnone] at hih
        simpa [defined, List.lookup_cons] using hih
    · have hbeq : (name == key) = false := by simpa using hname
      cases value with
      | some text => simpa [defined, List.lookup_cons, hbeq] using hih
      | none => simpa [defined, List.lookup_cons, hbeq] using hih

end FormUrl
