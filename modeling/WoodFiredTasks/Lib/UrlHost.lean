import Mathlib.Data.List.Basic
import Mathlib.Data.List.Infix
import Mathlib.Data.List.TakeWhile

set_option autoImplicit false

/-! # The hosts of URLs

What a URL parser makes of the host of a URL with a special scheme, whatever spelling it had: a
domain, an IPv4 address or an IPv6 address. The texts of the two kinds of addresses are those of
the serializers of the URL Standard: four decimal numbers, and hexadecimal pieces with the first
longest run of zeros left out. What a text begins with, and whether it is that of the loopback
address, is said by the numbers of the address (`Ipv6.prefix_iff`, `Ipv6.text_loopback`). -/

namespace UrlHost

theorem mem_intercalate {α : Type} {x c : α} {ls : List (List α)} (h : c ∈ [x].intercalate ls) :
    c = x ∨ ∃ l ∈ ls, c ∈ l := by
  induction ls with
  | nil => simp at h
  | cons l ls ih =>
    by_cases hls : ls = []
    · subst hls
      rw [List.intercalate_singleton] at h
      exact .inr ⟨l, List.mem_cons_self .., h⟩
    · rw [List.intercalate_cons_of_ne_nil hls, List.append_assoc, List.mem_append,
        List.singleton_append, List.mem_cons] at h
      rcases h with h | h | h
      · exact .inr ⟨l, List.mem_cons_self .., h⟩
      · exact .inl h
      · exact (ih h).imp_right fun ⟨l', hl', hc⟩ => ⟨l', List.mem_cons_of_mem _ hl', hc⟩

/-! ## IPv4 -/

/-- An IPv4 address. -/
structure Ipv4 where
  a : Fin 256
  b : Fin 256
  c : Fin 256
  d : Fin 256
  deriving DecidableEq

def Ipv4.parts (ip : Ipv4) : List (List Char) :=
  [ip.a, ip.b, ip.c, ip.d].map fun n : Fin 256 => Nat.toDigits 10 n.val

/-- The IPv4 serializer. -/
def Ipv4.text (ip : Ipv4) : List Char := ['.'].intercalate ip.parts

theorem Ipv4.isDigit_of_mem_parts {ip : Ipv4} {part : List Char} (h : part ∈ ip.parts) {c : Char}
    (hc : c ∈ part) : c.isDigit = true := by
  obtain ⟨n, -, rfl⟩ := List.mem_map.mp h
  exact Nat.isDigit_of_mem_toDigits (by decide) (by decide) hc

theorem Ipv4.splitOn_text (ip : Ipv4) : ip.text.splitOn '.' = ip.parts := by
  refine List.splitOn_intercalate _ (fun part hpart hmem => ?_) (by simp [parts])
  exact absurd (isDigit_of_mem_parts hpart hmem) (by decide)

theorem Ipv4.mem_text {ip : Ipv4} {c : Char} (h : c ∈ ip.text) : c = '.' ∨ c.isDigit = true :=
  (mem_intercalate h).imp_right fun ⟨_, hpart, hc⟩ => isDigit_of_mem_parts hpart hc

/-! ## IPv6 -/

/-- An IPv6 address: eight pieces of sixteen bits. -/
structure Ipv6 where
  pieces : List Nat
  length_eq : pieces.length = 8
  lt : ∀ p ∈ pieces, p < 0x10000

/-- A piece as the shortest lower-case hexadecimal number. -/
def hexText (p : Nat) : List Char := Nat.toDigits 16 p

/-- The pieces with colons between them. -/
def joined (ps : List Nat) : List Char := [':'].intercalate (ps.map hexText)

/-- How many pieces are zero in the beginning. -/
def zeros (ps : List Nat) : Nat := (ps.takeWhile (· = 0)).length

/-- Where the first longest run of more than one zero begins. -/
def compressAt (ps : List Nat) : Option Nat :=
  (List.range ps.length).find? fun i =>
    decide (1 < zeros (ps.drop i)) &&
      (List.range ps.length).all fun j => decide (zeros (ps.drop j) ≤ zeros (ps.drop i))

/-- The IPv6 serializer. -/
def serialize (ps : List Nat) : List Char :=
  match compressAt ps with
  | none => joined ps
  | some i => joined (ps.take i) ++ ':' :: ':' :: joined ((ps.drop i).dropWhile (· = 0))

def Ipv6.text (ip : Ipv6) : List Char := serialize ip.pieces

/-! ## Pieces -/

theorem mem_hexText {p : Nat} {c : Char} (h : c ∈ hexText p) : ∃ d < 16, c = d.digitChar := by
  induction p using Nat.strong_induction_on with
  | _ p ih =>
    by_cases hp : p < 16
    · rw [hexText, Nat.toDigits_of_lt_base hp, List.mem_singleton] at h
      exact ⟨p, hp, h⟩
    · rw [hexText, Nat.toDigits_of_base_le (by decide) (by omega), List.mem_append,
        List.mem_singleton] at h
      rcases h with h | h
      · exact ih (p / 16) (by omega) h
      · exact ⟨p % 16, Nat.mod_lt _ (by decide), h⟩

theorem colon_notMem_hexText (p : Nat) : ':' ∉ hexText p := by
  intro h
  obtain ⟨d, hd, hc⟩ := mem_hexText h
  have hall : ∀ d : Fin 16, ':' ≠ (d : Nat).digitChar := by decide
  exact hall ⟨d, hd⟩ hc

theorem hexText_ne_nil (p : Nat) : hexText p ≠ [] := Nat.toDigits_ne_nil

theorem hexText_eq_singleton {p : Nat} {c : Char} (h : hexText p = [c]) : p.digitChar = c := by
  by_cases hp : p < 16
  · rw [hexText, Nat.toDigits_of_lt_base hp] at h
    simpa using h
  · rw [hexText, Nat.toDigits_of_base_le (by decide) (by omega)] at h
    have hlength := congrArg List.length h
    have hpos : 0 < (Nat.toDigits 16 (p / 16)).length := Nat.length_toDigits_pos
    rw [List.length_append, List.length_singleton, List.length_singleton] at hlength
    omega

/-- The digits of a piece. -/
theorem hexText_eq {p : Nat} (hp : p < 0x10000) :
    hexText p =
      if p < 0x10 then [p.digitChar]
      else if p < 0x100 then [(p / 0x10).digitChar, (p % 0x10).digitChar]
      else if p < 0x1000 then
        [(p / 0x100).digitChar, (p / 0x10 % 0x10).digitChar, (p % 0x10).digitChar]
      else
        [(p / 0x1000).digitChar, (p / 0x100 % 0x10).digitChar, (p / 0x10 % 0x10).digitChar,
          (p % 0x10).digitChar] := by
  have hstep : ∀ n, ¬n < 0x10 → Nat.toDigits 16 n =
      Nat.toDigits 16 (n / 0x10) ++ [(n % 0x10).digitChar] :=
    fun n hn => Nat.toDigits_of_base_le (by decide) (by omega)
  have hlast : ∀ n < 0x10, Nat.toDigits 16 n = [n.digitChar] :=
    fun n hn => Nat.toDigits_of_lt_base hn
  unfold hexText
  split
  · next h => exact hlast p h
  split
  · next h₁ h₂ =>
    rw [hstep p h₁, hlast (p / 0x10) (by omega)]
    rfl
  split
  · next h₁ h₂ h₃ =>
    rw [hstep p h₁, hstep (p / 0x10) (by omega), Nat.div_div_eq_div_mul,
      hlast (p / 0x100) (by omega)]
    rfl
  · next h₁ h₂ h₃ =>
    rw [hstep p h₁, hstep (p / 0x10) (by omega), Nat.div_div_eq_div_mul,
      hstep (p / 0x100) (by omega), Nat.div_div_eq_div_mul, hlast (p / 0x1000) (by omega)]
    rfl

/-- Which pieces are written with `f` and another digit in front. -/
theorem prefix_hexText_iff {p d : Nat} (hp : p < 0x10000) (hd : d < 16) (rest : List Char) :
    ['f', d.digitChar] <+: hexText p ++ ':' :: rest ↔
      p = 0xF0 + d ∨ p / 0x10 = 0xF0 + d ∨ p / 0x100 = 0xF0 + d := by
  have hf : ∀ n, 'f' = n.digitChar ↔ n = 15 := fun n => by rw [eq_comm, Nat.digitChar_eq_f]
  have hcolon : d.digitChar ≠ ':' := by
    intro h
    have hall : ∀ d : Fin 16, (d : Nat).digitChar ≠ ':' := by decide
    exact hall ⟨d, hd⟩ h
  have hinj : ∀ n < 16, d.digitChar = n.digitChar ↔ d = n := by
    intro n hn
    have hall : ∀ d n : Fin 16, (d : Nat).digitChar = (n : Nat).digitChar ↔ (d : Nat) = n := by
      decide
    exact hall ⟨d, hd⟩ ⟨n, hn⟩
  rw [hexText_eq hp]
  split
  · simp only [List.cons_append, List.nil_append, List.cons_prefix_cons, hcolon, false_and,
      and_false, false_iff]
    omega
  split
  · simp only [List.cons_append, List.nil_append, List.cons_prefix_cons, List.nil_prefix, and_true,
      hf, hinj _ (Nat.mod_lt p (by decide : 0x10 > 0))]
    omega
  split
  · simp only [List.cons_append, List.nil_append, List.cons_prefix_cons, List.nil_prefix, and_true,
      hf, hinj _ (Nat.mod_lt (p / 0x10) (by decide : 0x10 > 0))]
    omega
  · simp only [List.cons_append, List.nil_append, List.cons_prefix_cons, List.nil_prefix, and_true,
      hf, hinj _ (Nat.mod_lt (p / 0x100) (by decide : 0x10 > 0))]
    omega

/-! ## Addresses -/

theorem splitOn_joined {ps : List Nat} (h : ps ≠ []) :
    (joined ps).splitOn ':' = ps.map hexText := by
  refine List.splitOn_intercalate _ (fun part hpart => ?_) (by simpa using h)
  obtain ⟨p, -, rfl⟩ := List.mem_map.mp hpart
  exact colon_notMem_hexText p

theorem joined_singleton (p : Nat) : joined [p] = hexText p := List.intercalate_singleton

theorem joined_cons {p : Nat} {ps : List Nat} (h : ps ≠ []) :
    joined (p :: ps) = hexText p ++ ':' :: joined ps := by
  rw [joined, List.map_cons, List.intercalate_cons_of_ne_nil (by simpa using h),
    List.append_assoc]
  rfl

theorem hexText_prefix_joined (p : Nat) (ps : List Nat) : hexText p <+: joined (p :: ps) := by
  by_cases hps : ps = []
  · rw [hps, joined_singleton]
  · rw [joined_cons hps]
    exact List.prefix_append _ _

/-- Small pieces are known by their texts. -/
theorem map_hexText_inj {ps qs : List Nat} (hqs : ∀ q ∈ qs, q = 0 ∨ q = 1)
    (h : ps.map hexText = qs.map hexText) : ps = qs := by
  induction ps generalizing qs with
  | nil => simpa [eq_comm] using h
  | cons p ps ih =>
    cases qs with
    | nil => simp at h
    | cons q qs =>
      rw [List.map_cons, List.map_cons, List.cons.injEq] at h
      have hhead : p = q := by
        rcases hqs q (List.mem_cons_self ..) with rfl | rfl
        · exact Nat.digitChar_eq_zero.mp (hexText_eq_singleton h.1)
        · exact Nat.digitChar_eq_one.mp (hexText_eq_singleton h.1)
      rw [hhead, ih (fun q' hq' => hqs q' (List.mem_cons_of_mem _ hq')) h.2]

/-- What the serializer makes of an address: all pieces, or those before and after a run of
    zeros. -/
theorem serialize_cases (ps : List Nat) :
    serialize ps = joined ps ∨
      ∃ pre n post, 1 < n ∧ ps = pre ++ (List.replicate n 0 ++ post) ∧
        serialize ps = joined pre ++ ':' :: ':' :: joined post := by
  unfold serialize
  cases hat : compressAt ps with
  | none => exact .inl rfl
  | some i =>
    have hlong := List.find?_some hat
    simp only [Bool.and_eq_true, decide_eq_true_eq] at hlong
    refine .inr ⟨ps.take i, zeros (ps.drop i), (ps.drop i).dropWhile (· = 0), hlong.1, ?_, rfl⟩
    have hzeros : List.replicate (zeros (ps.drop i)) 0 = (ps.drop i).takeWhile (· = 0) := by
      refine (List.eq_replicate_iff.mpr ⟨rfl, fun p hp => ?_⟩).symm
      simpa using List.mem_takeWhile_imp hp
    rw [hzeros, List.takeWhile_append_dropWhile, List.take_append_drop]

/-- How a text begins. -/
theorem serialize_cons {p : Nat} {ps : List Nat} (h : ps ≠ []) :
    (∃ more, serialize (p :: ps) = hexText p ++ ':' :: more) ∨
      p = 0 ∧ ∃ more, serialize (p :: ps) = ':' :: more := by
  rcases serialize_cases (p :: ps) with hall | ⟨pre, n, post, hn, heq, htext⟩
  · exact .inl ⟨joined ps, by rw [hall, joined_cons h]⟩
  · rw [htext]
    cases pre with
    | nil =>
      obtain ⟨m, rfl⟩ : ∃ m, n = m + 1 := ⟨n - 1, by omega⟩
      rw [List.nil_append, List.replicate_succ, List.cons_append, List.cons.injEq] at heq
      exact .inr ⟨heq.1, _, rfl⟩
    | cons q pre =>
      rw [List.cons_append, List.cons.injEq] at heq
      obtain ⟨rfl, -⟩ := heq
      by_cases hpre : pre = []
      · subst hpre
        exact .inl ⟨':' :: joined post, by rw [joined_singleton]⟩
      · exact .inl ⟨joined pre ++ ':' :: ':' :: joined post, by
          rw [joined_cons hpre, List.append_assoc, List.cons_append]⟩

section Address

variable (ip : Ipv6)

theorem Ipv6.exists_pieces : ∃ p ps, ip.pieces = p :: ps ∧ ps ≠ [] := by
  have hlength := ip.length_eq
  cases hpieces : ip.pieces with
  | nil => simp [hpieces] at hlength
  | cons p ps =>
    refine ⟨p, ps, rfl, ?_⟩
    rintro rfl
    simp [hpieces] at hlength

/-- The first piece. -/
def Ipv6.first : Nat := ip.pieces.headD 0

theorem Ipv6.first_lt : ip.first < 0x10000 := by
  obtain ⟨p, ps, hpieces, -⟩ := ip.exists_pieces
  rw [first, hpieces]
  exact ip.lt p (by rw [hpieces]; exact List.mem_cons_self ..)

theorem Ipv6.colon_mem_text : ':' ∈ ip.text := by
  obtain ⟨p, ps, hpieces, hps⟩ := ip.exists_pieces
  rw [text, hpieces]
  rcases serialize_cons (p := p) hps with ⟨more, h⟩ | ⟨-, more, h⟩
  · rw [h]
    simp
  · rw [h]
    simp

/-- A text is of hexadecimal digits and colons. -/
theorem Ipv6.mem_text {ip : Ipv6} {c : Char} (h : c ∈ ip.text) :
    c = ':' ∨ ∃ d < 16, c = d.digitChar := by
  have hjoined : ∀ ps, c ∈ joined ps → c = ':' ∨ ∃ d < 16, c = d.digitChar := by
    intro ps hc
    rcases mem_intercalate hc with hc | ⟨part, hpart, hc⟩
    · exact .inl hc
    · obtain ⟨p, -, rfl⟩ := List.mem_map.mp hpart
      exact .inr (mem_hexText hc)
  rw [text] at h
  rcases serialize_cases ip.pieces with hall | ⟨pre, n, post, -, -, htext⟩
  · exact hjoined _ (hall ▸ h)
  · rw [htext, List.mem_append, List.mem_cons, List.mem_cons] at h
    rcases h with h | h | h | h
    · exact hjoined _ h
    · exact .inl h
    · exact .inl h
    · exact hjoined _ h

/-- The texts that begin with `f` and another digit. -/
theorem Ipv6.prefix_iff {d : Nat} (hd : d < 16) :
    ['f', d.digitChar] <+: ip.text ↔
      ip.first = 0xF0 + d ∨ ip.first / 0x10 = 0xF0 + d ∨ ip.first / 0x100 = 0xF0 + d := by
  obtain ⟨p, ps, hpieces, hps⟩ := ip.exists_pieces
  have hp : p < 0x10000 := ip.lt p (by rw [hpieces]; exact List.mem_cons_self ..)
  have hfirst : ip.first = p := by rw [first, hpieces]; rfl
  rw [hfirst, text, hpieces]
  rcases serialize_cons (p := p) hps with ⟨more, h⟩ | ⟨rfl, more, h⟩
  · rw [h]
    exact prefix_hexText_iff hp hd more
  · rw [h]
    simp only [List.cons_prefix_cons]
    constructor
    · rintro ⟨hc, -⟩
      exact absurd hc (by decide)
    · omega

/-- The address `::1`. -/
def Ipv6.isLoopback : Bool := ip.pieces = [0, 0, 0, 0, 0, 0, 0, 1]

theorem Ipv6.text_loopback :
    ip.text = [':', ':', '1'] ∨
        ip.text = ['0', ':', '0', ':', '0', ':', '0', ':', '0', ':', '0', ':', '0', ':', '1'] ↔
      ip.isLoopback = true := by
  obtain ⟨p, ps, hp, -⟩ := ip.exists_pieces
  have hne : ip.pieces ≠ [] := hp ▸ List.cons_ne_nil p ps
  have hlength := ip.length_eq
  rw [isLoopback, decide_eq_true_eq]
  constructor
  · rcases serialize_cases ip.pieces with hall | ⟨pre, n, post, hn, hpieces, htext⟩
    · -- nothing is left out: the pieces are those between the colons
      have hparts := splitOn_joined hne
      rw [← hall, ← text] at hparts
      rintro (h | h)
      · have hcount := congrArg List.length hparts
        rw [List.length_map, hlength, h] at hcount
        exact absurd hcount (by decide)
      · rw [h] at hparts
        exact map_hexText_inj (by decide) hparts.symm
    · rw [← text] at htext
      rintro (h | h)
      · rw [htext] at h
        have hpre : pre = [] := by
          cases pre with
          | nil => rfl
          | cons q pre =>
            obtain ⟨more, hmore⟩ := hexText_prefix_joined q pre
            obtain ⟨c, cs, hc⟩ := List.exists_cons_of_ne_nil (hexText_ne_nil q)
            rw [← hmore, hc, List.cons_append, List.cons_append, List.cons.injEq] at h
            exact absurd (hc ▸ h.1 ▸ List.mem_cons_self ..) (colon_notMem_hexText q)
        subst hpre
        have hpost : joined post = ['1'] := by simpa [joined] using h
        have hpostne : post ≠ [] := by
          rintro rfl
          exact absurd hpost (by decide)
        have hlast : post = [1] := by
          have hparts := splitOn_joined hpostne
          rw [hpost] at hparts
          exact map_hexText_inj (by decide) hparts.symm
        subst hlast
        rw [hpieces] at hlength ⊢
        simp only [List.nil_append, List.length_append, List.length_replicate,
          List.length_singleton] at hlength
        obtain rfl : n = 7 := by omega
        rfl
      · -- two colons in a row are not in this text
        exfalso
        have hinfix : [':', ':'] <:+: ip.text := ⟨joined pre, joined post, by rw [htext]; simp⟩
        rw [h] at hinfix
        exact absurd hinfix (by decide)
  · intro h
    left
    rw [text, h]
    decide

end Address

/-! ## Hosts -/

/-- The code points that a domain cannot have: C0 controls, space, delete, and those with a meaning
    elsewhere in a URL. -/
def isForbidden (c : Char) : Bool :=
  c.toNat ≤ 0x20 || c.toNat == 0x7F ||
    c ∈ ['#', '/', ':', '<', '>', '?', '@', '[', '\\', ']', '^', '|', '%']

/-- A domain as a parser leaves it: in lower case, without forbidden code points, and with a last
    label that is no number, since it would be an IPv4 address otherwise. -/
structure Domain where
  text : List Char
  allowed : ∀ c ∈ text, isForbidden c = false ∧ c.isUpper = false
  notNumber : ∀ label ∈ (text.splitOn '.').getLast?, label = [] ∨ label.all Char.isDigit = false

/-- A host. `other` is that of a scheme that is not special, or none. -/
inductive Host where
  | domain (name : Domain)
  | ipv4 (ip : Ipv4)
  | ipv6 (ip : Ipv6)
  | other (text : List Char)

/-- The host serializer. -/
def Host.text : Host → List Char
  | .domain name => name.text
  | .ipv4 ip => ip.text
  | .ipv6 ip => '[' :: (ip.text ++ [']'])
  | .other text => text

/-! ## Ranges -/

/-- `127.0.0.0/8` -/
def Ipv4.isLoopback (ip : Ipv4) : Bool := ip.a.val = 127

/-- `10.0.0.0/8`, `172.16.0.0/12` and `192.168.0.0/16` -/
def Ipv4.isRfc1918 (ip : Ipv4) : Bool :=
  ip.a.val = 10 || (ip.a.val = 172 && ip.b.val / 16 = 1) || (ip.a.val = 192 && ip.b.val = 168)

/-- `169.254.0.0/16` -/
def Ipv4.isLinkLocal (ip : Ipv4) : Bool := ip.a.val = 169 && ip.b.val = 254

/-- `fc00::/7`: the first seven bits. -/
def Ipv6.isUniqueLocal (ip : Ipv6) : Bool := ip.first / 0x200 = 0xFC00 / 0x200

/-- What is known of a parsed URL by its scheme and its host. -/
structure ParsedUrl where
  scheme : String
  host : Host
  lower : ∀ c ∈ scheme.toList, c.isUpper = false
  special : scheme = "http" ∨ scheme = "https" → ∀ text, host ≠ .other text

end UrlHost
