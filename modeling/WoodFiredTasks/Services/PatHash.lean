import Mathlib.Data.BitVec
import Mathlib.Data.List.GetD
import WoodFiredTasks.Lib.BitGroups

set_option autoImplicit false

/-! # Generating personal access tokens

`src/services/pat-hash.ts`. The base32 encoder collects bits in a JavaScript number: `<<` and `|`
work on 32 bits, so from the fifth byte on the accumulator drops its upper bits. At most twelve of
them are still to be written, and those are kept, so every bit of the random bytes reaches the
token (`encodeBase32_bits`) and different bytes give different tokens. -/

namespace WoodFiredTasks.PatHash

open BitGroups (bitsOf)

/-- `PAT_PREFIX` -/
def patPrefix : String := "wft_pat_"

/-- `BASE32_ALPHABET` -/
def base32Alphabet : List Char := "ABCDEFGHIJKLMNOPQRSTUVWXYZ234567".toList

/-! ## The encoder -/

/-- `BASE32_ALPHABET[value & 0x1f]` -/
def base32Char (value : BitVec 32) : Char := base32Alphabet.getD (value &&& 0x1f).toNat 'A'

/-- The inner loop: write five bits at a time. What it leaves is the new `bits`. -/
def writeGroups (value : BitVec 32) : Nat → List Char × Nat
  | bits + 5 =>
    let rest := writeGroups value bits
    (base32Char (value >>> bits) :: rest.1, rest.2)
  | bits => ([], bits)

/-- The loop over the bytes, from the accumulator that it has reached. -/
def encodeFrom (bits : Nat) (value : BitVec 32) : List UInt8 → List Char
  | [] =>
    -- the remaining bits, aligned to the left of the last group
    if bits > 0 then [base32Char (value <<< (5 - bits))] else []
  | byte :: bytes =>
    let value := (value <<< 8) ||| BitVec.ofNat 32 byte.toNat
    let groups := writeGroups value (bits + 8)
    groups.1 ++ encodeFrom groups.2 value bytes

def encodeBase32 (bytes : List UInt8) : List Char := encodeFrom 0 0 bytes

/-- What `generateToken` makes of its random bytes, apart from the constant prefix. -/
structure GeneratedToken where
  token : String
  suffix : String
  hash : String
  deriving DecidableEq

/-- `generateToken`, with `crypto.randomBytes(20)` and the digest of the runtime. -/
def generateToken (hashToken : String → String) (randomBytes : List UInt8) : GeneratedToken :=
  let body := encodeBase32 randomBytes
  let token := patPrefix ++ String.ofList body
  ⟨token, String.ofList (body.drop (body.length - 4)), hashToken token⟩

/-! ## What the accumulator holds -/

/-- The number of a character of the alphabet. -/
def IsGroup (c : Char) (group : Nat) : Prop := group < 2 ^ 5 ∧ base32Alphabet.getD group 'A' = c

theorem base32Char_isGroup (value : BitVec 32) :
    IsGroup (base32Char value) (value &&& 0x1f).toNat := by
  refine ⟨?_, rfl⟩
  rw [BitVec.toNat_and]
  exact Nat.lt_of_le_of_lt Nat.and_le_right (by decide)

theorem testBit_group (value : BitVec 32) {i : Nat} (hi : i < 5) :
    (value &&& 0x1f).toNat.testBit i = value.toNat.testBit i := by
  rw [BitVec.toNat_and, Nat.testBit_and]
  have hmask : (0x1f : BitVec 32).toNat.testBit i = true := by
    have h : (0x1f : BitVec 32).toNat = 2 ^ 5 - 1 := rfl
    rw [h, Nat.testBit_two_pow_sub_one]
    exact decide_eq_true hi
  rw [hmask, Bool.and_true]

theorem toNat_shift_or (value : BitVec 32) (byte : UInt8) {i : Nat} (hi : i < 32) :
    ((value <<< 8) ||| BitVec.ofNat 32 byte.toNat).toNat.testBit i
      = if i < 8 then byte.toNat.testBit i else value.toNat.testBit (i - 8) := by
  rw [← BitVec.getLsbD, BitVec.getLsbD_or, BitVec.getLsbD_shiftLeft, BitVec.getLsbD_ofNat,
    BitVec.getLsbD]
  by_cases h : i < 8
  · simp [h, hi]
  · have hbyte : byte.toNat.testBit i = false := by
      refine Nat.testBit_lt_two_pow (Nat.lt_of_lt_of_le byte.toNat_lt ?_)
      exact Nat.pow_le_pow_right (by decide) (by omega)
    simp [h, hi, hbyte]

/-- The low bits of the accumulator after the next byte. -/
theorem bitsOf_next (value : BitVec 32) (byte : UInt8) {bits : Nat} (hbits : bits < 5) :
    bitsOf (bits + 8) ((value <<< 8) ||| BitVec.ofNat 32 byte.toNat).toNat
      = bitsOf bits value.toNat ++ bitsOf 8 byte.toNat := by
  refine BitGroups.bitsOf_push (fun i hi => ?_) fun i hi => ?_
  · rw [toNat_shift_or value byte (by omega), if_neg (by omega), Nat.add_sub_cancel]
  · rw [toNat_shift_or value byte (by omega), if_pos hi]

/-- The inner loop writes the upper bits and leaves fewer than five. -/
theorem writeGroups_bits (value : BitVec 32) (bits : Nat) :
    (writeGroups value bits).2 < 5 ∧ ∃ groups : List Nat,
      List.Forall₂ IsGroup (writeGroups value bits).1 groups ∧
      groups.flatMap (bitsOf 5) ++ bitsOf (writeGroups value bits).2 value.toNat
        = bitsOf bits value.toNat := by
  fun_induction writeGroups value bits with
  | case1 bits rest ih =>
    obtain ⟨hrest, groups, hgroups, hbits⟩ := ih
    refine ⟨hrest, _ :: groups, .cons (base32Char_isGroup _) hgroups, ?_⟩
    show _ = bitsOf (bits + 5) value.toNat
    rw [List.flatMap_cons, List.append_assoc, hbits, Nat.add_comm bits 5, BitGroups.bitsOf_add]
    congr 1
    refine BitGroups.bitsOf_congr fun i hi => ?_
    rw [testBit_group _ hi, BitVec.toNat_ushiftRight]
  | case2 bits h =>
    refine ⟨?_, [], .nil, rfl⟩
    by_contra hlarge
    exact h (bits - 5) (by omega)

/-- The last group: the remaining bits, then zeros. -/
theorem bitsOf_last (value : BitVec 32) {bits : Nat} (hbits : bits < 5) :
    bitsOf 5 (value <<< (5 - bits) &&& 0x1f).toNat
      = bitsOf bits value.toNat ++ List.replicate (5 - bits) false := by
  have hsplit : bitsOf 5 (value <<< (5 - bits) &&& 0x1f).toNat
      = bitsOf (bits + (5 - bits)) (value <<< (5 - bits)).toNat := by
    rw [show bits + (5 - bits) = 5 by omega]
    exact BitGroups.bitsOf_congr fun i hi => testBit_group _ hi
  rw [hsplit, ← BitGroups.bitsOf_zero_right]
  refine BitGroups.bitsOf_push (fun i hi => ?_) fun i hi => ?_
  · rw [← BitVec.getLsbD, BitVec.getLsbD_shiftLeft, BitVec.getLsbD]
    have hlt : i + (5 - bits) < 32 := by omega
    simp [hlt]
  · rw [← BitVec.getLsbD, BitVec.getLsbD_shiftLeft]
    simp [hi]

/-- The invariant of the loop over the bytes: what has not been written yet is the low `bits` bits
    of the accumulator and the bytes that are left. -/
theorem encodeFrom_bits (bytes : List UInt8) {bits : Nat} (hbits : bits < 5)
    (value : BitVec 32) : ∃ groups : List Nat,
      List.Forall₂ IsGroup (encodeFrom bits value bytes) groups ∧ ∃ pad < 5,
        groups.flatMap (bitsOf 5)
          = bitsOf bits value.toNat ++ (bytes.map UInt8.toNat).flatMap (bitsOf 8)
            ++ List.replicate pad false := by
  induction bytes generalizing bits value with
  | nil =>
    unfold encodeFrom
    by_cases h : bits > 0
    · rw [if_pos h]
      refine ⟨[_], .cons (base32Char_isGroup _) .nil, 5 - bits, by omega, ?_⟩
      rw [List.flatMap_singleton, bitsOf_last value hbits, List.map_nil, List.flatMap_nil,
        List.append_nil]
    · rw [if_neg h]
      obtain rfl : bits = 0 := by omega
      exact ⟨[], .nil, 0, by omega, rfl⟩
  | cons byte bytes ih =>
    obtain ⟨hleft, first, hfirst, hwritten⟩ :=
      writeGroups_bits ((value <<< 8) ||| BitVec.ofNat 32 byte.toNat) (bits + 8)
    obtain ⟨rest, hrest, pad, hpad, hbitsRest⟩ :=
      ih hleft ((value <<< 8) ||| BitVec.ofNat 32 byte.toNat)
    refine ⟨first ++ rest, List.rel_append hfirst hrest, pad, hpad, ?_⟩
    rw [List.flatMap_append, hbitsRest, ← List.append_assoc, ← List.append_assoc, hwritten,
      bitsOf_next value byte hbits, List.map_cons, List.flatMap_cons, List.append_assoc _ (bitsOf 8 _)]

/-- The characters of an encoding stand for the bits of the bytes, filled up with zeros. -/
theorem encodeBase32_bits (bytes : List UInt8) : ∃ groups : List Nat,
    List.Forall₂ IsGroup (encodeBase32 bytes) groups ∧ ∃ pad < 5,
      groups.flatMap (bitsOf 5)
        = (bytes.map UInt8.toNat).flatMap (bitsOf 8) ++ List.replicate pad false := by
  obtain ⟨groups, hgroups, pad, hpad, hbits⟩ := @encodeFrom_bits bytes 0 (by decide) 0
  exact ⟨groups, hgroups, pad, hpad, by rw [hbits]; rfl⟩

/-! ## What a token looks like -/

theorem base32Alphabet_nodup : base32Alphabet.Nodup := by decide

theorem IsGroup.mem {c : Char} {group : Nat} (h : IsGroup c group) : c ∈ base32Alphabet := by
  obtain ⟨hlt, rfl⟩ := h
  rw [List.getD_eq_getElem _ _ (show group < base32Alphabet.length from hlt)]
  exact List.getElem_mem _

theorem IsGroup.inj {c : Char} {group group' : Nat} (h : IsGroup c group)
    (h' : IsGroup c group') : group = group' := by
  obtain ⟨hlt, rfl⟩ := h
  obtain ⟨hlt', heq⟩ := h'
  rw [List.getD_eq_getElem _ _ (show group' < base32Alphabet.length from hlt'),
    List.getD_eq_getElem _ _ (show group < base32Alphabet.length from hlt)] at heq
  exact ((base32Alphabet_nodup.getElem_inj_iff).1 heq).symm

theorem groups_unique {cs : List Char} {groups groups' : List Nat}
    (h : List.Forall₂ IsGroup cs groups) (h' : List.Forall₂ IsGroup cs groups') :
    groups = groups' := by
  induction h generalizing groups' with
  | nil =>
    cases h' with
    | nil => rfl
  | cons hc _ ih =>
    cases h' with
    | cons hc' hrest => rw [hc.inj hc', ih hrest]

/-- The length of an encoding: the bits of the bytes in groups of five, the last one begun. -/
theorem length_encodeBase32 (bytes : List UInt8) :
    (encodeBase32 bytes).length = (8 * bytes.length + 4) / 5 := by
  obtain ⟨groups, hgroups, pad, hpad, hbits⟩ := encodeBase32_bits bytes
  have hlength := congrArg List.length hbits
  rw [BitGroups.length_flatMap_bitsOf, List.length_append, BitGroups.length_flatMap_bitsOf,
    List.length_map, List.length_replicate] at hlength
  rw [hgroups.length_eq]
  omega

/-- **No bit is lost.** Different byte strings, of whatever lengths, have different encodings. -/
theorem encodeBase32_injective : Function.Injective encodeBase32 := by
  intro bytes bytes' h
  obtain ⟨groups, hgroups, pad, hpad, hbits⟩ := encodeBase32_bits bytes
  obtain ⟨groups', hgroups', pad', hpad', hbits'⟩ := encodeBase32_bits bytes'
  rw [h] at hgroups
  obtain rfl := groups_unique hgroups hgroups'
  have hlength : bytes.length = bytes'.length := by
    have hlength := congrArg List.length h
    rw [length_encodeBase32, length_encodeBase32] at hlength
    omega
  have hsame : (bytes.map UInt8.toNat).flatMap (bitsOf 8)
      = (bytes'.map UInt8.toNat).flatMap (bitsOf 8) := by
    refine (List.append_inj (hbits.symm.trans hbits') ?_).1
    rw [BitGroups.length_flatMap_bitsOf, BitGroups.length_flatMap_bitsOf, List.length_map,
      List.length_map, hlength]
  have hbyte : ∀ bs : List UInt8, ∀ n ∈ bs.map UInt8.toNat, n < 2 ^ 8 := by
    intro bs n hn
    obtain ⟨byte, -, rfl⟩ := List.mem_map.1 hn
    exact byte.toNat_lt
  have hmap := BitGroups.eq_of_flatMap_bitsOf (by decide) (hbyte bytes) (hbyte bytes') hsame
  exact List.map_injective_iff.2 (fun a b hab => UInt8.toNat_inj.1 hab) hmap

theorem mem_base32Alphabet {bytes : List UInt8} {c : Char} (h : c ∈ encodeBase32 bytes) :
    c ∈ base32Alphabet := by
  obtain ⟨groups, hgroups, -⟩ := encodeBase32_bits bytes
  obtain ⟨i, hi, rfl⟩ := List.getElem_of_mem h
  exact (List.Forall₂.get hgroups hi (hgroups.length_eq ▸ hi)).mem

end WoodFiredTasks.PatHash
