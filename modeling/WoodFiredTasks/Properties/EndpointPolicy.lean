import WoodFiredTasks.Lib.UrlHost
import WoodFiredTasks.Router.HandlerRuns

set_option autoImplicit false

/-! # The endpoint policy on every spelling of a host

`assertEndpointAllowed` classifies the text of a parsed host. Over any parser that leaves hosts as
the URL Standard says, its answers agree with the ranges of the addresses, but for one prefix test:
`fc` and `fd` in front of an IPv6 address are taken for the first byte of a unique-local address,
also where the first piece has fewer than four digits (`[fc::1]` is `00fc:…`). -/

namespace WoodFiredTasks.Router

open UrlHost

/-! ## Texts that are left alone -/

/-- A character that `normalizeHost` does nothing about. -/
structure PlainChar (c : Char) : Prop where
  space : c.isWhitespace = false
  lower : c.isUpper = false
  bracket : c ≠ '['
  zone : c ≠ '%'

theorem trimAscii_eq_self {s : String} (hhead : ∀ c ∈ s.toList.head?, c.isWhitespace = false)
    (hlast : ∀ c ∈ s.toList.getLast?, c.isWhitespace = false) : s.trimAscii.toString = s := by
  have hany : ∀ o : Option Char, (∀ c ∈ o, c.isWhitespace = false) →
      o.any Char.isWhitespace = false := by
    intro o ho
    cases o with
    | none => rfl
    | some c => exact ho c rfl
  have hstart : s.toSlice.startsWith Char.isWhitespace = false := by
    rw [String.Slice.startsWith_bool_eq_head?, String.copy_toSlice]
    exact hany _ hhead
  have hend : s.toSlice.endsWith Char.isWhitespace = false := by
    rw [String.Slice.endsWith_bool_eq_getLast?, String.copy_toSlice]
    exact hany _ hlast
  show ((s.toSlice.dropWhile Char.isWhitespace).dropEndWhile Char.isWhitespace).copy = s
  rw [String.Slice.dropWhile_eq_self hstart, String.Slice.dropEndWhile_eq_self hend,
    String.copy_toSlice]

theorem toLower_eq_self {s : String} (h : ∀ c ∈ s.toList, c.isUpper = false) : s.toLower = s := by
  rw [← String.toList_inj]
  show (s.map Char.toLower).toList = s.toList
  rw [String.toList_map]
  conv_rhs => rw [← List.map_id s.toList]
  refine List.map_congr_left fun c hc => ?_
  have hlower := h c hc
  unfold Char.isUpper at hlower
  rw [decide_eq_false_iff_not] at hlower
  unfold Char.toLower
  rw [id]
  grind

theorem takeWhile_zone_eq_self {s : String} (h : ∀ c ∈ s.toList, c ≠ '%') :
    (s.takeWhile (· ≠ '%')).toString = s := by
  have hall : s.toSlice.all (fun c : Char => decide (c ≠ '%')) = true := by
    rw [String.all_toSlice, String.all_bool_eq, List.all_eq_true]
    exact fun c hc => decide_eq_true (h c hc)
  show (s.toSlice.takeWhile fun c : Char => c ≠ '%').copy = s
  rw [String.Slice.takeWhile_prop_eq_takeWhile_decide, String.Slice.takeWhile_eq_self_iff.mpr hall,
    String.copy_toSlice]

theorem normalizeHost_plain {s : String} (h : ∀ c ∈ s.toList, PlainChar c) :
    normalizeHost s = s := by
  have hopen : s.startsWith "[" = false := by
    rw [String.startsWith_string_eq_false_iff]
    rintro ⟨rest, hrest⟩
    refine (h '[' ?_).bracket rfl
    rw [← hrest]
    exact List.mem_append_left _ (by decide)
  unfold normalizeHost
  rw [trimAscii_eq_self (fun c hc => (h c (List.mem_of_mem_head? hc)).space)
      (fun c hc => (h c (List.mem_of_mem_getLast? hc)).space),
    toLower_eq_self fun c hc => (h c hc).lower]
  simp only [hopen, Bool.false_and, Bool.false_eq_true, if_false]
  exact takeWhile_zone_eq_self fun c hc => (h c hc).zone

theorem normalizeHost_bracketed {s : List Char} (h : ∀ c ∈ s, PlainChar c) :
    normalizeHost (String.ofList ('[' :: (s ++ [']']))) = String.ofList s := by
  have hlist : (String.ofList ('[' :: (s ++ [']']))).toList = '[' :: (s ++ [']']) :=
    String.toList_ofList
  have hlower : ∀ c ∈ (String.ofList ('[' :: (s ++ [']']))).toList, c.isUpper = false := by
    intro c hc
    rw [hlist, List.mem_cons, List.mem_append, List.mem_singleton] at hc
    rcases hc with rfl | hc | rfl
    · decide
    · exact (h c hc).lower
    · decide
  have hopen : (String.ofList ('[' :: (s ++ [']']))).startsWith "[" = true := by
    rw [String.startsWith_string_iff, hlist]
    exact ⟨s ++ [']'], rfl⟩
  have hclose : (String.ofList ('[' :: (s ++ [']']))).endsWith "]" = true := by
    rw [← String.endsWith_toSlice, String.Slice.endsWith_string_iff, String.copy_toSlice, hlist]
    exact ⟨'[' :: s, rfl⟩
  have hbare : (((String.ofList ('[' :: (s ++ [']']))).drop 1).dropEnd 1).toString =
      String.ofList s := by
    rw [← String.toList_inj, String.toList_ofList]
    show (String.Slice.dropEnd _ 1).copy.toList = s
    rw [String.Slice.toList_copy_dropEnd, String.toList_copy_drop, hlist]
    simp
  have hlast : ('[' :: (s ++ [']'])).getLast? = some ']' := by
    rw [← List.cons_append, List.getLast?_concat]
  unfold normalizeHost
  rw [trimAscii_eq_self (by simp) (by rw [hlist, hlast]; simp), toLower_eq_self hlower]
  simp only [hopen, hclose, Bool.and_true, if_true, hbare]
  refine takeWhile_zone_eq_self fun c hc => ?_
  rw [String.toList_ofList] at hc
  exact (h c hc).zone

/-! ## The texts of hosts -/

theorem plainChar_of_isForbidden {c : Char} (hc : isForbidden c = false)
    (hupper : c.isUpper = false) : PlainChar c where
  space := by
    have hspace : c.isWhitespace = true → isForbidden c = true := by
      intro h
      simp only [Char.isWhitespace, Bool.or_eq_true, decide_eq_true_eq] at h
      rcases h with ((rfl | rfl) | rfl) | rfl <;> decide
    by_contra hnot
    rw [hspace (by simpa using hnot)] at hc
    cases hc
  lower := hupper
  bracket := by
    rintro rfl
    exact absurd hc (by decide)
  zone := by
    rintro rfl
    exact absurd hc (by decide)

theorem plainChar_of_isDigit {c : Char} (h : c.isDigit = true) : PlainChar c := by
  have hdigit : 48 ≤ c.toNat ∧ c.toNat ≤ 57 := by
    simpa [Char.isDigit, UInt32.le_iff_toNat_le] using h
  have hne : ∀ d : Char, d.toNat < 48 ∨ 57 < d.toNat → c ≠ d := by
    rintro d hd rfl
    omega
  refine ⟨?_, ?_, hne '[' (by decide), hne '%' (by decide)⟩
  · simp [Char.isWhitespace, hne ' ' (by decide), hne '\t' (by decide), hne '\r' (by decide),
      hne '\n' (by decide)]
  · unfold Char.isUpper
    simp only [decide_eq_false_iff_not, UInt32.le_iff_toNat_le, ge_iff_le]
    have : c.val.toNat = c.toNat := rfl
    simp
    omega

theorem plainChar_digitChar {d : Nat} (hd : d < 16) : PlainChar d.digitChar := by
  have hall : ∀ d : Fin 16, (d : Nat).digitChar.isWhitespace = false ∧
      (d : Nat).digitChar.isUpper = false ∧ (d : Nat).digitChar ≠ '[' ∧
        (d : Nat).digitChar ≠ '%' := by decide
  obtain ⟨h₁, h₂, h₃, h₄⟩ := hall ⟨d, hd⟩
  exact ⟨h₁, h₂, h₃, h₄⟩

theorem plainChar_ipv4 {ip : Ipv4} {c : Char} (h : c ∈ ip.text) : PlainChar c := by
  rcases Ipv4.mem_text h with rfl | h
  · exact ⟨by decide, by decide, by decide, by decide⟩
  · exact plainChar_of_isDigit h

theorem plainChar_ipv6 {ip : Ipv6} {c : Char} (h : c ∈ ip.text) : PlainChar c := by
  rcases Ipv6.mem_text h with rfl | ⟨d, hd, rfl⟩
  · exact ⟨by decide, by decide, by decide, by decide⟩
  · exact plainChar_digitChar hd

/-- The text of a host without the brackets of an IPv6 address. -/
def bareText : Host → String
  | .domain name => String.ofList name.text
  | .ipv4 ip => String.ofList ip.text
  | .ipv6 ip => String.ofList ip.text
  | .other text => String.ofList text

/-- The host that the classifiers see. -/
theorem normalizeHost_text {host : Host} (hhost : ∀ text, host ≠ .other text) :
    normalizeHost (String.ofList host.text) = bareText host := by
  cases host with
  | domain name =>
    refine normalizeHost_plain fun c hc => ?_
    rw [String.toList_ofList] at hc
    obtain ⟨hallowed, hlower⟩ := name.allowed c hc
    exact plainChar_of_isForbidden hallowed hlower
  | ipv4 ip =>
    refine normalizeHost_plain fun c hc => ?_
    rw [String.toList_ofList] at hc
    exact plainChar_ipv4 hc
  | ipv6 ip => exact normalizeHost_bracketed fun c hc => plainChar_ipv6 hc
  | other text => exact absurd rfl (hhost text)

/-! ## The classifiers -/

theorem ipv4_of_colon {s : List Char} (h : ':' ∈ s) : ipv4 (String.ofList s) = none := by
  unfold ipv4
  rw [String.toList_ofList]
  refine if_neg ?_
  rintro ⟨-, hall⟩
  -- the colon is in a part, and no digit
  have hpart : ∃ part ∈ s.splitOn '.', ':' ∈ part := by
    have hjoin : ['.'].intercalate (s.splitOn '.') = s := List.intercalate_splitOn '.'
    rw [← hjoin] at h
    rcases mem_intercalate h with hdot | hpart
    · exact absurd hdot (by decide)
    · exact hpart
  obtain ⟨part, hmem, hcolon⟩ := hpart
  have hdigits := List.all_eq_true.mp hall part hmem
  simp only [Bool.and_eq_true, List.all_eq_true] at hdigits
  exact absurd (hdigits.2 ':' hcolon) (by decide)

theorem ipv4_domain (name : Domain) : ipv4 (String.ofList name.text) = none := by
  unfold ipv4
  rw [String.toList_ofList]
  refine if_neg ?_
  rintro ⟨hfour, hall⟩
  have hne : name.text.splitOn '.' ≠ [] := by
    intro h
    rw [h] at hfour
    exact absurd hfour (by decide)
  have hlast := List.getLast?_eq_some_getLast hne
  have hdigits := List.all_eq_true.mp hall _ (List.getLast_mem hne)
  simp only [Bool.and_eq_true, decide_eq_true_eq] at hdigits
  rcases name.notNumber _ hlast with hempty | hnot
  · rw [hempty] at hdigits
    exact absurd hdigits.1.1 (by decide)
  · rw [hdigits.2] at hnot
    cases hnot

/-- A decimal number is read back. -/
theorem decimal_read (n : Fin 256) :
    1 ≤ (Nat.toDigits 10 n).length ∧ (Nat.toDigits 10 n).length ≤ 3 ∧
      (Nat.toDigits 10 n).foldl (fun (n : Nat) c => 10 * n + (c.toNat - 48)) 0 = n.val := by
  have hall : ∀ n : Fin 256,
      1 ≤ (Nat.toDigits 10 n).length ∧ (Nat.toDigits 10 n).length ≤ 3 ∧
        (Nat.toDigits 10 n).foldl (fun (n : Nat) c => 10 * n + (c.toNat - 48)) 0 = n.val := by
    decide +kernel
  exact hall n

theorem ipv4_text (ip : Ipv4) :
    ipv4 (String.ofList ip.text) = some [ip.a.val, ip.b.val, ip.c.val, ip.d.val] := by
  unfold ipv4
  rw [String.toList_ofList, Ipv4.splitOn_text]
  have hpart : ∀ n : Fin 256, (decide (1 ≤ (Nat.toDigits 10 n).length) &&
      decide ((Nat.toDigits 10 n).length ≤ 3) &&
        (Nat.toDigits 10 n).all fun c => c.isDigit) = true := by
    intro n
    obtain ⟨hpos, hshort, -⟩ := decimal_read n
    rw [decide_eq_true hpos, decide_eq_true hshort, Bool.true_and, Bool.true_and, List.all_eq_true]
    exact fun c hc => Nat.isDigit_of_mem_toDigits (by decide) (by decide) hc
  have hall : ip.parts.all (fun p => decide (1 ≤ p.length) && decide (p.length ≤ 3) &&
      p.all fun c => c.isDigit) = true := by
    simp only [Ipv4.parts, List.map_cons, List.map_nil, List.all_cons, List.all_nil, hpart,
      Bool.and_true]
  rw [if_pos ⟨rfl, hall⟩]
  simp only [Ipv4.parts, List.map_cons, List.map_nil, (decimal_read _).2.2]

/-- What the code takes an address for that is not in `fc00::/7`: its first piece has two or three
    digits. -/
def isMisread (host : Host) : Bool :=
  match host with
  | .ipv6 ip => ip.first = 0xFC || ip.first = 0xFD || ip.first / 0x10 = 0xFC || ip.first / 0x10 = 0xFD
  | _ => false

/-- The hosts that may be reached without TLS. -/
def mayBePlain (linkLocalOptIn : Bool) : Host → Bool
  | .domain name => String.ofList name.text = "localhost"
  | .ipv4 ip => ip.isLoopback || ip.isRfc1918 || (ip.isLinkLocal && linkLocalOptIn)
  | .ipv6 ip => ip.isLoopback || ip.isUniqueLocal
  | .other _ => false

/-- What the three classifiers say together. -/
def classified (linkLocalOptIn : Bool) (host : String) : Bool :=
  isLoopbackHost host || isPrivateHost host || (isLinkLocalHost host && linkLocalOptIn)

theorem classified_domain (linkLocalOptIn : Bool) (name : Domain) :
    classified linkLocalOptIn (String.ofList name.text) = mayBePlain linkLocalOptIn (.domain name) := by
  have hcolon : ':' ∉ name.text := by
    intro h
    exact absurd (name.allowed ':' h).1 (by decide)
  have hcontains : (String.ofList name.text).contains ':' = false := by
    rw [String.contains_char_eq, String.toList_ofList, decide_eq_false hcolon]
  have hne : ∀ s : String, ':' ∈ s.toList → String.ofList name.text ≠ s := by
    rintro s hs rfl
    rw [String.toList_ofList] at hs
    exact hcolon hs
  have h₁ := hne "::1" (by decide)
  have h₂ := hne "0:0:0:0:0:0:0:1" (by decide)
  simp [classified, isLoopbackHost, isPrivateHost, isLinkLocalHost, ipv4_domain, hcontains, h₁, h₂,
    mayBePlain]

theorem classified_ipv4 (linkLocalOptIn : Bool) (ip : Ipv4) :
    classified linkLocalOptIn (String.ofList ip.text) = mayBePlain linkLocalOptIn (.ipv4 ip) := by
  have hread := ipv4_text ip
  have hne : ∀ s : String, ipv4 s = none → String.ofList ip.text ≠ s := by
    rintro s hs rfl
    rw [hs] at hread
    cases hread
  have h₁ := hne "localhost" (by decide +kernel)
  have h₂ := hne "::1" (by decide +kernel)
  have h₃ := hne "0:0:0:0:0:0:0:1" (by decide +kernel)
  have hsmall : ([ip.a.val, ip.b.val, ip.c.val, ip.d.val].any (· > 255)) = false := by
    simp only [List.any_cons, List.any_nil, Bool.or_false, Bool.or_eq_false_iff,
      decide_eq_false_iff_not]
    omega
  have hloopback : isLoopbackHost (String.ofList ip.text) = ip.isLoopback := by
    simp only [isLoopbackHost, h₁, h₂, h₃, or_self, if_false, hread, Ipv4.isLoopback]
  have hprivate : isPrivateHost (String.ofList ip.text) = ip.isRfc1918 := by
    simp only [isPrivateHost, hread, hsmall, Bool.false_eq_true, if_false, Ipv4.isRfc1918]
    rw [Bool.eq_iff_iff]
    simp only [Bool.or_eq_true, Bool.and_eq_true, decide_eq_true_eq]
    omega
  have hlink : isLinkLocalHost (String.ofList ip.text) = ip.isLinkLocal := by
    simp only [isLinkLocalHost, hread, hsmall, Bool.false_eq_true, if_false, Ipv4.isLinkLocal]
  rw [classified, hloopback, hprivate, hlink]
  rfl

theorem classified_ipv6 (linkLocalOptIn : Bool) (ip : Ipv6) :
    classified linkLocalOptIn (String.ofList ip.text) =
      (mayBePlain linkLocalOptIn (.ipv6 ip) || isMisread (.ipv6 ip)) := by
  have hread := ipv4_of_colon ip.colon_mem_text
  have hcontains : (String.ofList ip.text).contains ':' = true := by
    rw [String.contains_char_eq, String.toList_ofList, decide_eq_true ip.colon_mem_text]
  have hname : String.ofList ip.text ≠ "localhost" := by
    intro h
    have hcolon := ip.colon_mem_text
    rw [← String.toList_ofList (l := ip.text), h] at hcolon
    exact absurd hcolon (by decide)
  have hloopback : isLoopbackHost (String.ofList ip.text) = ip.isLoopback := by
    have htext : ∀ s : String, String.ofList ip.text = s ↔ ip.text = s.toList := fun s => by
      rw [← String.toList_inj, String.toList_ofList]
    have hone : String.ofList ip.text = "::1" ∨ String.ofList ip.text = "0:0:0:0:0:0:0:1" ↔
        ip.isLoopback = true := by
      rw [htext, htext]
      exact ip.text_loopback
    simp only [isLoopbackHost, hname, false_or, hone, hread]
    cases ip.isLoopback <;> rfl
  have hprefix : ∀ d < 16, (String.ofList ip.text).startsWith (String.ofList ['f', d.digitChar]) =
      decide (ip.first = 0xF0 + d ∨ ip.first / 0x10 = 0xF0 + d ∨ ip.first / 0x100 = 0xF0 + d) := by
    intro d hd
    rw [Bool.eq_iff_iff, String.startsWith_string_iff, String.toList_ofList, String.toList_ofList,
      Ipv6.prefix_iff ip hd, decide_eq_true_iff]
  have hfc := hprefix 0xC (by decide)
  have hfd := hprefix 0xD (by decide)
  have hlt := ip.first_lt
  have hprivate : isPrivateHost (String.ofList ip.text) =
      (ip.isUniqueLocal || isMisread (.ipv6 ip)) := by
    simp only [isPrivateHost, hread, hcontains, Bool.true_and]
    rw [show "fc" = String.ofList ['f', (0xC : Nat).digitChar] from rfl, hfc,
      show "fd" = String.ofList ['f', (0xD : Nat).digitChar] from rfl, hfd, Bool.eq_iff_iff]
    simp only [Ipv6.isUniqueLocal, isMisread, Bool.or_eq_true, decide_eq_true_eq]
    omega
  have hlink : isLinkLocalHost (String.ofList ip.text) = false := by
    simp only [isLinkLocalHost, hread]
  rw [classified, hloopback, hprivate, hlink, Bool.false_and, Bool.or_false, mayBePlain,
    Bool.or_assoc]

/-! ## The policy -/

/-- `protocol` and `hostname` of a parsed URL. -/
def urlOf (u : ParsedUrl) : Url where
  protocol := u.scheme ++ ":"
  hostname := String.ofList u.host.text

/-- The environment with a parser. -/
def HandlerEnv.withParser (env : HandlerEnv) (parse : String → Option ParsedUrl) : HandlerEnv :=
  { env with parseUrl := fun rawUrl => (parse rawUrl).map urlOf }

/-- TLS, or a host that may be reached without. -/
def Permitted (linkLocalOptIn : Bool) (u : ParsedUrl) : Prop :=
  u.scheme = "https" ∨ u.scheme = "http" ∧ mayBePlain linkLocalOptIn u.host = true

theorem toLower_protocol (u : ParsedUrl) : (u.scheme ++ ":").toLower = u.scheme ++ ":" := by
  refine toLower_eq_self fun c hc => ?_
  rw [String.toList_append, List.mem_append] at hc
  rcases hc with hc | hc
  · exact u.lower c hc
  · rw [show c = ':' by simpa using hc]
    decide

theorem protocol_eq_iff (scheme name : String) : scheme ++ ":" = name ++ ":" ↔ scheme = name := by
  rw [← String.toList_inj, String.toList_append, String.toList_append, List.append_left_inj,
    String.toList_inj]

/-- What is accepted: what may be, and the misread addresses. -/
theorem assertEndpointAllowed_eq_none (env : HandlerEnv) (parse : String → Option ParsedUrl)
    (rawUrl : String) :
    assertEndpointAllowed (env.withParser parse) rawUrl false = none ↔
      ∃ u, parse rawUrl = some u ∧
        (Permitted env.linkLocalOptIn u ∨ u.scheme = "http" ∧ isMisread u.host = true) := by
  unfold assertEndpointAllowed HandlerEnv.withParser
  cases hparse : parse rawUrl with
  | none => simp [hparse]
  | some u =>
    simp only [hparse, Option.map_some, urlOf, toLower_protocol]
    by_cases hhttps : u.scheme = "https"
    · simp [hhttps, Permitted]
    have hhttps' : u.scheme ++ ":" ≠ "https:" := fun h => hhttps ((protocol_eq_iff _ "https").mp h)
    by_cases hhttp : u.scheme = "http"
    · have hhost := u.special (.inl hhttp)
      have hhttp' : u.scheme ++ ":" = "http:" := (protocol_eq_iff _ "http").mpr hhttp
      have hclass : classified env.linkLocalOptIn (bareText u.host) =
          (mayBePlain env.linkLocalOptIn u.host || isMisread u.host) := by
        cases hcase : u.host with
        | domain name => exact (classified_domain _ name).trans (Bool.or_false _).symm
        | ipv4 ip => exact (classified_ipv4 _ ip).trans (Bool.or_false _).symm
        | ipv6 ip => exact classified_ipv6 _ ip
        | other text => exact absurd hcase (hhost text)
      simp only [if_neg hhttps', if_pos hhttp', Bool.false_eq_true, if_false,
        normalizeHost_text hhost]
      have hiff : (Permitted env.linkLocalOptIn u ∨ u.scheme = "http" ∧ isMisread u.host = true) ↔
          classified env.linkLocalOptIn (bareText u.host) = true := by
        rw [hclass, Bool.or_eq_true]
        simp [Permitted, hhttp]
      simp only [Option.some.injEq, exists_eq_left', hiff, classified]
      grind
    · have hhttp' : u.scheme ++ ":" ≠ "http:" := fun h => hhttp ((protocol_eq_iff _ "http").mp h)
      simp [hhttps', hhttp', hhttps, hhttp, Permitted]

theorem not_mayBePlain_of_isMisread {linkLocalOptIn : Bool} {host : Host}
    (h : isMisread host = true) : mayBePlain linkLocalOptIn host = false := by
  cases host with
  | ipv6 ip =>
    have hlt := ip.first_lt
    have hfirst : ip.isLoopback = true → ip.first = 0 := by
      intro hloopback
      rw [Ipv6.first, of_decide_eq_true hloopback]
      rfl
    simp only [isMisread, Bool.or_eq_true, decide_eq_true_eq] at h
    simp only [mayBePlain, Bool.or_eq_false_iff, Ipv6.isUniqueLocal, decide_eq_false_iff_not]
    refine ⟨?_, by omega⟩
    by_contra hloopback
    have := hfirst (by simpa using hloopback)
    omega
  | domain name => cases h
  | ipv4 ip => cases h
  | other text => cases h

/-- **Main theorem.** A URL is accepted if and only if it may be, unless it is a plain-http one
    whose host is an IPv6 address with a first piece that is written as `fc` or `fd`, alone or with
    one more digit. -/
theorem endpointPolicy_iff (env : HandlerEnv) (parse : String → Option ParsedUrl)
    (rawUrl : String) :
    (assertEndpointAllowed (env.withParser parse) rawUrl false = none ↔
        ∃ u, parse rawUrl = some u ∧ Permitted env.linkLocalOptIn u) ↔
      ∀ u, parse rawUrl = some u → ¬(u.scheme = "http" ∧ isMisread u.host = true) := by
  rw [assertEndpointAllowed_eq_none]
  constructor
  · rintro h u hu ⟨hhttp, hmisread⟩
    obtain ⟨u', hu', hpermitted⟩ := h.mp ⟨u, hu, .inr ⟨hhttp, hmisread⟩⟩
    obtain rfl : u = u' := Option.some.inj (hu.symm.trans hu')
    rcases hpermitted with hhttps | ⟨-, hplain⟩
    · rw [hhttp] at hhttps
      exact absurd hhttps (by decide)
    · rw [not_mayBePlain_of_isMisread hmisread] at hplain
      cases hplain
  · intro h
    constructor
    · rintro ⟨u, hu, hpermitted | hmisread⟩
      · exact ⟨u, hu, hpermitted⟩
      · exact absurd hmisread (h u hu)
    · rintro ⟨u, hu, hpermitted⟩
      exact ⟨u, hu, .inl hpermitted⟩

theorem isUpper_http : ∀ c ∈ "http".toList, c.isUpper = false := by
  intro c hc
  have hcs : c = 'h' ∨ c = 't' ∨ c = 't' ∨ c = 'p' := by simpa using hc
  rcases hcs with rfl | rfl | rfl | rfl <;> rfl

/-- `http://[fc::1]/`, an address that is not in `fc00::/7`. -/
def shortPieceUrl : ParsedUrl where
  scheme := "http"
  host := .ipv6 { pieces := [0xFC, 0, 0, 0, 0, 0, 0, 1], length_eq := rfl, lt := by decide }
  lower := isUpper_http
  special := fun _ text h => by cases h

theorem endpointPolicy_shortPiece :
    ¬∀ (env : HandlerEnv) (parse : String → Option ParsedUrl) (rawUrl : String),
      assertEndpointAllowed (env.withParser parse) rawUrl false = none ↔
        ∃ u, parse rawUrl = some u ∧ Permitted env.linkLocalOptIn u := by
  intro h
  let env : HandlerEnv :=
    { parseUrl := fun _ => none, resolveUrl := fun _ _ => none, linkLocalOptIn := false,
      resolveAdapter := fun _ => none, spawnThrows := fun _ _ => false,
      numberText := fun _ => "" }
  let parse : String → Option ParsedUrl := fun rawUrl =>
    if rawUrl = "http://[fc::1]/" then some shortPieceUrl else none
  have haccepted : assertEndpointAllowed (env.withParser parse) "http://[fc::1]/" false = none :=
    (assertEndpointAllowed_eq_none env parse _).mpr
      ⟨shortPieceUrl, if_pos rfl, .inr ⟨rfl, by decide⟩⟩
  obtain ⟨u, hu, hpermitted⟩ := (h env parse "http://[fc::1]/").mp haccepted
  obtain rfl : shortPieceUrl = u := Option.some.inj ((if_pos rfl).symm.trans hu)
  rcases hpermitted with hhttps | ⟨-, hplain⟩
  · exact absurd hhttps (by decide)
  · exact absurd hplain (by decide)

end WoodFiredTasks.Router
