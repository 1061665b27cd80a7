import Mathlib.Algebra.Order.Field.Basic
import Mathlib.Algebra.Order.Ring.Rat
import Mathlib.Data.Char
import Mathlib.Data.List.Infix
import Mathlib.Data.List.Lex
import Mathlib.Tactic.FieldSimp
import Mathlib.Tactic.Linarith
import Mathlib.Tactic.Positivity
import Mathlib.Tactic.Ring

set_option autoImplicit false

/-! # Texts of instants

A UTC date-time of ISO 8601, `2026-02-28T09:30Z`, `2026-02-28T09:30:15Z` or
`2026-02-28T09:30:15.250Z` with any number of digits after the point, and the instant that it
names. Between texts that differ in a digit the order of characters is that of the instants
(`instant_lt`). Where one text, up to its `Z`, goes on where the other ends, the order of characters
puts the longer one first, although it names the same instant or a later one (`le_iff`). -/

universe u

namespace DateTimeText

/-! ## Texts that differ -/

section Differs

variable {α : Type u} [LinearOrder α]

/-- The texts differ at a place that both have, and the first has the smaller symbol there. -/
inductive Differs : List α → List α → Prop where
  | here {x y : α} {xs ys : List α} (h : x < y) : Differs (x :: xs) (y :: ys)
  | there {x : α} {xs ys : List α} (h : Differs xs ys) : Differs (x :: xs) (x :: ys)

variable {xs ys : List α}

theorem Differs.append (h : Differs xs ys) (r s : List α) : Differs (xs ++ r) (ys ++ s) := by
  induction h with
  | here h => exact .here h
  | there _ ih => exact .there ih

theorem Differs.append_left (h : Differs xs ys) (r : List α) : Differs (r ++ xs) (r ++ ys) := by
  induction r with
  | nil => exact h
  | cons x r ih => exact .there ih

theorem Differs.lt (h : Differs xs ys) : xs < ys := by
  induction h with
  | here h => exact List.cons_lt_cons_iff.2 (.inl h)
  | there _ ih => exact List.cons_lt_cons_iff.2 (.inr ⟨rfl, ih⟩)

/-- Neither text goes on where the other one ends. -/
theorem Differs.not_prefix (h : Differs xs ys) : ¬ xs <+: ys ∧ ¬ ys <+: xs := by
  induction h with
  | here h => simp [List.cons_prefix_cons, h.ne, h.ne']
  | there _ ih => simpa [List.cons_prefix_cons] using ih

/-- Two texts differ, or one is the beginning of the other. -/
theorem differs_or_prefix (xs ys : List α) :
    Differs xs ys ∨ Differs ys xs ∨ xs <+: ys ∨ ys <+: xs := by
  induction xs generalizing ys with
  | nil => exact .inr (.inr (.inl List.nil_prefix))
  | cons x xs ih =>
    cases ys with
    | nil => exact .inr (.inr (.inr List.nil_prefix))
    | cons y ys =>
      rcases lt_trichotomy x y with h | rfl | h
      · exact .inl (.here h)
      · rcases ih ys with h | h | h | h
        · exact .inl (.there h)
        · exact .inr (.inl (.there h))
        · exact .inr (.inr (.inl ((List.prefix_cons_inj x).2 h)))
        · exact .inr (.inr (.inr ((List.prefix_cons_inj x).2 h)))
      · exact .inr (.inl (.here h))

/-- The first difference is within the first `n` symbols or behind them. -/
theorem Differs.split (h : Differs xs ys) (n : Nat) (hx : n ≤ xs.length) (hy : n ≤ ys.length) :
    Differs (xs.take n) (ys.take n) ∨
      xs.take n = ys.take n ∧ Differs (xs.drop n) (ys.drop n) := by
  induction h generalizing n with
  | here h =>
    cases n with
    | zero => exact .inr ⟨rfl, .here h⟩
    | succ n => exact .inl (.here h)
  | there h ih =>
    cases n with
    | zero => exact .inr ⟨rfl, .there h⟩
    | succ n =>
      rcases ih n (by simpa using hx) (by simpa using hy) with h | ⟨heq, h⟩
      · exact .inl (.there h)
      · exact .inr ⟨by rw [List.take_succ_cons, List.take_succ_cons, heq], h⟩

end Differs

/-! ## Digits -/

section Digits

/-- The value of a decimal digit. -/
def digit (c : Char) : Nat := c.toNat - 48

theorem digit_lt {c : Char} (h : c.isDigit = true) : digit c < 10 := by
  simp only [Char.isDigit, Bool.and_eq_true, decide_eq_true_eq] at h
  have hle : c.toNat ≤ 57 := h.2
  unfold digit
  omega

theorem digit_lt_digit {c d : Char} (hc : c.isDigit = true) (h : c < d) : digit c < digit d := by
  simp only [Char.isDigit, Bool.and_eq_true, decide_eq_true_eq] at hc
  have hge : 48 ≤ c.toNat := hc.1
  have hlt : c.toNat < d.toNat := h
  unfold digit
  omega

/-- The number that digits make. -/
def value : List Char → Nat
  | [] => 0
  | c :: cs => digit c * 10 ^ cs.length + value cs

theorem value_lt {cs : List Char} (h : ∀ c ∈ cs, c.isDigit = true) : value cs < 10 ^ cs.length := by
  induction cs with
  | nil => simp [value]
  | cons c cs ih =>
    have hc := digit_lt (h c List.mem_cons_self)
    have hcs := ih fun d hd => h d (List.mem_cons_of_mem c hd)
    rw [value, List.length_cons, pow_succ]
    have hmul : digit c * 10 ^ cs.length ≤ 9 * 10 ^ cs.length :=
      Nat.mul_le_mul_right _ (by omega)
    omega

/-- As many digits, and the first that differs is smaller. -/
theorem Differs.value_lt {cs ds : List Char} (h : Differs cs ds) (hlength : cs.length = ds.length)
    (hcs : ∀ c ∈ cs, c.isDigit = true) : value cs < value ds := by
  induction h with
  | @here x y xs ys h =>
    have hx := digit_lt_digit (hcs x List.mem_cons_self) h
    have hrest := DateTimeText.value_lt fun c hc => hcs c (List.mem_cons_of_mem x hc)
    have hmul : (digit x + 1) * 10 ^ xs.length ≤ digit y * 10 ^ xs.length :=
      Nat.mul_le_mul_right _ hx
    rw [value, value, ← Nat.succ.inj hlength]
    rw [Nat.add_mul] at hmul
    omega
  | @there x xs ys _ ih =>
    have hlt := ih (Nat.succ.inj hlength) fun c hc => hcs c (List.mem_cons_of_mem x hc)
    rw [value, value, Nat.succ.inj hlength]
    omega

/-- The number that digits make behind a point. -/
def fraction : List Char → ℚ
  | [] => 0
  | c :: cs => (digit c + fraction cs) / 10

theorem fraction_nonneg (cs : List Char) : 0 ≤ fraction cs := by
  induction cs with
  | nil => exact le_rfl
  | cons c cs ih =>
    rw [fraction]
    positivity

theorem fraction_lt_one {cs : List Char} (h : ∀ c ∈ cs, c.isDigit = true) : fraction cs < 1 := by
  induction cs with
  | nil => norm_num [fraction]
  | cons c cs ih =>
    have hc : (digit c : ℚ) ≤ 9 := by
      exact_mod_cast Nat.le_of_lt_succ (digit_lt (h c List.mem_cons_self))
    have hcs := ih fun d hd => h d (List.mem_cons_of_mem c hd)
    rw [fraction, div_lt_one (by norm_num)]
    linarith

theorem Differs.fraction_lt {cs ds : List Char} (h : Differs cs ds)
    (hcs : ∀ c ∈ cs, c.isDigit = true) : fraction cs < fraction ds := by
  induction h with
  | @here x y xs ys h =>
    have hx : (digit x : ℚ) + 1 ≤ digit y := by
      exact_mod_cast digit_lt_digit (hcs x List.mem_cons_self) h
    have hrest := fraction_lt_one fun c hc => hcs c (List.mem_cons_of_mem x hc)
    have hnonneg := fraction_nonneg ys
    rw [fraction, fraction]
    linarith
  | @there x xs ys _ ih =>
    have hlt := ih fun c hc => hcs c (List.mem_cons_of_mem x hc)
    rw [fraction, fraction]
    linarith

theorem fraction_append (cs ds : List Char) :
    fraction (cs ++ ds) = fraction cs + fraction ds / 10 ^ cs.length := by
  induction cs with
  | nil => simp [fraction]
  | cons c cs ih =>
    rw [List.cons_append, fraction, fraction, ih, List.length_cons, pow_succ]
    field_simp
    ring

/-- A digit that is not a zero. -/
def isNonzero (c : Char) : Bool := c.isDigit && c != '0'

theorem fraction_eq_zero_iff {cs : List Char} (h : ∀ c ∈ cs, c.isDigit = true) :
    fraction cs = 0 ↔ ∀ c ∈ cs, isNonzero c = false := by
  induction cs with
  | nil => simp [fraction]
  | cons c cs ih =>
    have hc := h c List.mem_cons_self
    have hzero : digit c = 0 ↔ isNonzero c = false := by
      simp only [Char.isDigit, Bool.and_eq_true, decide_eq_true_eq] at hc
      have hge : 48 ≤ c.toNat := hc.1
      have hchar : c = '0' ↔ c.toNat = 48 := by
        rw [← Char.toNat_inj]
        rfl
      rw [isNonzero, h c List.mem_cons_self, Bool.true_and, bne_eq_false_iff_eq, hchar, digit]
      omega
    have hnonneg := fraction_nonneg cs
    rw [fraction, List.forall_mem_cons, ← ih fun d hd => h d (List.mem_cons_of_mem c hd), ← hzero]
    constructor
    · intro hsum
      have hdigit : (digit c : ℚ) = 0 := by
        have : (0 : ℚ) ≤ digit c := by positivity
        linarith
      exact ⟨by exact_mod_cast hdigit, by linarith⟩
    · intro h
      rw [h.1, h.2]
      norm_num

end Digits

/-! ## The calendar -/

section Calendar

/-- A leap year of the Gregorian calendar. -/
def isLeap (year : Nat) : Bool := year % 4 == 0 && (year % 100 != 0 || year % 400 == 0)

/-- The days of a month; none where there is no such month. -/
def monthLength (year : Nat) : Nat → Nat
  | 1 | 3 | 5 | 7 | 8 | 10 | 12 => 31
  | 4 | 6 | 9 | 11 => 30
  | 2 => if isLeap year then 29 else 28
  | _ => 0

/-- The days of a year before the month. -/
def daysBeforeMonth (year : Nat) : Nat → Nat
  | 0 => 0
  | month + 1 => daysBeforeMonth year month + monthLength year month

/-- The days before the year, from the year 0 on. -/
def daysBeforeYear : Nat → Nat
  | 0 => 0
  | year + 1 => daysBeforeYear year + daysBeforeMonth year 13

def dayNumber (year month day : Nat) : Nat :=
  daysBeforeYear year + daysBeforeMonth year month + day

/-- The day is one of the calendar. -/
def IsDate (year month day : Nat) : Prop := 1 ≤ day ∧ day ≤ monthLength year month

instance (year month day : Nat) : Decidable (IsDate year month day) :=
  inferInstanceAs (Decidable (_ ∧ _))

theorem daysBeforeMonth_mono (year : Nat) {m n : Nat} (h : m ≤ n) :
    daysBeforeMonth year m ≤ daysBeforeMonth year n := by
  induction h with
  | refl => exact le_rfl
  | step _ ih => exact ih.trans (Nat.le_add_right _ _)

theorem daysBeforeYear_mono {y z : Nat} (h : y ≤ z) : daysBeforeYear y ≤ daysBeforeYear z := by
  induction h with
  | refl => exact le_rfl
  | step _ ih => exact ih.trans (Nat.le_add_right _ _)

variable {year month day year' month' day' : Nat}

theorem IsDate.month_le (h : IsDate year month day) : month ≤ 12 := by
  by_contra hlt
  have hzero : monthLength year month = 0 := by
    unfold monthLength
    split <;> first | rfl | omega
  have := h.1.trans h.2
  omega

/-- A later year has later days only. -/
theorem dayNumber_lt_of_year (h : IsDate year month day) (h' : IsDate year' month' day')
    (hlt : year < year') : dayNumber year month day < dayNumber year' month' day' := by
  have hmonth := daysBeforeMonth_mono year (Nat.succ_le_succ h.month_le)
  have hyear := daysBeforeYear_mono (Nat.succ_le_of_lt hlt)
  have hday := h.2
  have hday' := h'.1
  simp only [daysBeforeMonth, daysBeforeYear] at hmonth hyear
  unfold dayNumber
  omega

theorem dayNumber_lt_of_month (h : IsDate year month day) (h' : IsDate year month' day')
    (hlt : month < month') : dayNumber year month day < dayNumber year month' day' := by
  have hmonth := daysBeforeMonth_mono year (Nat.succ_le_of_lt hlt)
  have hday := h.2
  have hday' := h'.1
  simp only [daysBeforeMonth] at hmonth
  unfold dayNumber
  omega

end Calendar

/-! ## Texts -/

section Texts

/-- The symbol that stands at a place of every text; at the others there are digits. -/
def separator? : Nat → Option Char
  | 4 | 7 => some '-'
  | 10 => some 'T'
  | 13 | 16 => some ':'
  | 19 => some '.'
  | _ => none

/-- From place `i` on, the symbols are those that belong there. -/
def wellPlaced : Nat → List Char → Bool
  | _, [] => true
  | i, c :: cs => (separator? i).elim c.isDigit (c == ·) && wellPlaced (i + 1) cs

/-- The text without its `Z`. -/
def body (s : List Char) : List Char := s.dropLast

def digitsOf (cs : List Char) : List Char := cs.filter Char.isDigit

/-- The number at some places of the digits. -/
def field (ds : List Char) (start length : Nat) : Nat := value ((ds.drop start).take length)

/-- The day, the hour, the minute and the second of the digits are ones that there are. -/
def InRange (ds : List Char) : Prop :=
  IsDate (field ds 0 4) (field ds 4 2) (field ds 6 2) ∧
    field ds 8 2 < 24 ∧ field ds 10 2 < 60 ∧ field ds 12 2 < 60

instance (ds : List Char) : Decidable (InRange ds) := inferInstanceAs (Decidable (_ ∧ _))

/-- The lengths that a text without its `Z` can have: to the minute, to the second, or with a
    fraction. -/
def isLength (n : Nat) : Bool := n == 16 || n == 19 || 21 ≤ n

/-- A UTC date-time. -/
def isDateTime (s : List Char) : Bool :=
  s.getLast? == some 'Z' && isLength (body s).length && wellPlaced 0 (body s) &&
    decide (InRange (digitsOf (body s)))

example : isDateTime "2024-02-29T09:30Z".toList = true := by decide +kernel
example : isDateTime "2026-02-29T09:30:00Z".toList = false := by decide +kernel

/-- The minutes up to the one that the digits name, from the year 0 on. -/
def minutes (ds : List Char) : Nat :=
  (dayNumber (field ds 0 4) (field ds 4 2) (field ds 6 2) * 24 + field ds 8 2) * 60 + field ds 10 2

/-- The seconds within the minute. -/
def seconds (ds : List Char) : ℚ := 100 * fraction (ds.drop 12)

/-- The instant of a text, in seconds from the year 0 on. -/
def instant (s : List Char) : ℚ :=
  60 * minutes (digitsOf (body s)) + seconds (digitsOf (body s))

theorem separator_not_digit {i : Nat} {d : Char} (h : separator? i = some d) :
    d.isDigit = false := by
  unfold separator? at h
  split at h <;> simp only [Option.some.injEq, reduceCtorEq] at h <;> subst h <;> rfl

/-- How many of `n` places from place `i` on have digits. -/
def digitPlaces : Nat → Nat → Nat
  | _, 0 => 0
  | i, n + 1 => (if (separator? i).isNone then 1 else 0) + digitPlaces (i + 1) n

/-- The first symbol is a digit, or the separator that belongs there. -/
theorem wellPlaced_cons {i : Nat} {c : Char} {cs : List Char} (h : wellPlaced i (c :: cs) = true) :
    (separator? i = none ∧ c.isDigit = true ∨ separator? i = some c ∧ c.isDigit = false) ∧
      wellPlaced (i + 1) cs = true := by
  rw [wellPlaced, Bool.and_eq_true] at h
  refine ⟨?_, h.2⟩
  have hfirst := h.1
  cases hsep : separator? i with
  | none =>
    rw [hsep] at hfirst
    exact .inl ⟨rfl, hfirst⟩
  | some d =>
    rw [hsep, Option.elim_some, beq_iff_eq] at hfirst
    rw [hfirst]
    exact .inr ⟨rfl, separator_not_digit hsep⟩

theorem length_digitsOf {i : Nat} {cs : List Char} (h : wellPlaced i cs = true) :
    (digitsOf cs).length = digitPlaces i cs.length := by
  induction cs generalizing i with
  | nil => rfl
  | cons c cs ih =>
    obtain ⟨hc, hcs⟩ := wellPlaced_cons h
    have hrest := ih hcs
    rw [digitsOf] at hrest
    rw [digitsOf, List.length_cons, digitPlaces]
    rcases hc with ⟨hsep, hc⟩ | ⟨hsep, hc⟩
    · rw [List.filter_cons_of_pos hc, List.length_cons, hrest, hsep, Option.isNone_none, if_pos rfl,
        Nat.add_comm]
    · rw [List.filter_cons_of_neg (by simp [hc]), hrest, hsep]
      simp

theorem digitPlaces_add (i m n : Nat) :
    digitPlaces i (m + n) = digitPlaces i m + digitPlaces (i + m) n := by
  induction m generalizing i with
  | zero => simp [digitPlaces]
  | succ m ih =>
    have hplace : i + 1 + m = i + (m + 1) := by omega
    rw [Nat.succ_add, digitPlaces, digitPlaces, ih, hplace, Nat.add_assoc]

/-- Texts that differ, differ in a digit. -/
theorem Differs.digitsOf {i : Nat} {cs ds : List Char} (h : Differs cs ds)
    (hcs : wellPlaced i cs = true) (hds : wellPlaced i ds = true) :
    Differs (digitsOf cs) (DateTimeText.digitsOf ds) := by
  induction h generalizing i with
  | @here x y xs ys h =>
    rcases (wellPlaced_cons hcs).1 with ⟨hsep, hx⟩ | ⟨hsep, -⟩
    · rcases (wellPlaced_cons hds).1 with ⟨-, hy⟩ | ⟨hsep', -⟩
      · rw [DateTimeText.digitsOf, DateTimeText.digitsOf, List.filter_cons_of_pos hx,
          List.filter_cons_of_pos hy]
        exact .here h
      · rw [hsep] at hsep'
        simp at hsep'
    · -- the same separator stands in both
      rcases (wellPlaced_cons hds).1 with ⟨hsep', -⟩ | ⟨hsep', -⟩
      · rw [hsep] at hsep'
        simp at hsep'
      · rw [hsep, Option.some.injEq] at hsep'
        exact absurd hsep' h.ne
  | @there x xs ys _ ih =>
    have hrest := ih (wellPlaced_cons hcs).2 (wellPlaced_cons hds).2
    rw [DateTimeText.digitsOf, DateTimeText.digitsOf] at hrest ⊢
    by_cases hx : x.isDigit = true
    · rw [List.filter_cons_of_pos hx, List.filter_cons_of_pos hx]
      exact .there hrest
    · rw [List.filter_cons_of_neg hx, List.filter_cons_of_neg hx]
      exact hrest

/-- All symbols before the `Z` are smaller than it. -/
theorem lt_of_wellPlaced {i : Nat} {cs : List Char} (h : wellPlaced i cs = true) :
    ∀ c ∈ cs, c < 'Z' := by
  induction cs generalizing i with
  | nil => simp
  | cons c cs ih =>
    obtain ⟨hc, hcs⟩ := wellPlaced_cons h
    have hlt : c < 'Z' := by
      rcases hc with ⟨-, hdigit⟩ | ⟨hsep, -⟩
      · simp only [Char.isDigit, Bool.and_eq_true, decide_eq_true_eq] at hdigit
        exact lt_of_le_of_lt (show c ≤ '9' from hdigit.2) (by decide)
      · unfold separator? at hsep
        split at hsep <;> simp only [Option.some.injEq, reduceCtorEq] at hsep <;> subst hsep <;>
          decide
    intro d hd
    rcases List.mem_cons.1 hd with rfl | hd
    · exact hlt
    · exact ih hcs d hd

end Texts

/-! ## The two orders -/

section Order

variable {a b : List Char}

/-- What `isDateTime` says of a text and its body. -/
structure Sound (s : List Char) : Prop where
  text : s = body s ++ ['Z']
  placed : wellPlaced 0 (body s) = true
  range : InRange (digitsOf (body s))
  enough : 12 ≤ (digitsOf (body s)).length
  whole : (digitsOf (body s)).length ≠ 13

theorem isDigit_of_mem_digitsOf {cs : List Char} : ∀ c ∈ digitsOf cs, c.isDigit = true :=
  fun _ hc => (List.mem_filter.1 hc).2

theorem sound (h : isDateTime a = true) : Sound a := by
  simp only [isDateTime, Bool.and_eq_true, beq_iff_eq, decide_eq_true_eq] at h
  obtain ⟨⟨⟨hlast, hlength⟩, hplaced⟩, hrange⟩ := h
  have hdigits := length_digitsOf hplaced
  simp only [isLength, Bool.or_eq_true, beq_iff_eq, decide_eq_true_eq] at hlength
  have hcount : 12 ≤ (digitsOf (body a)).length ∧ (digitsOf (body a)).length ≠ 13 := by
    rcases hlength with (h16 | h19) | h21
    · rw [hdigits, h16]
      decide
    · rw [hdigits, h19]
      decide
    · obtain ⟨n, hn⟩ := Nat.exists_eq_add_of_le h21
      rw [hdigits, hn, digitPlaces_add, show digitPlaces 0 21 = 15 from rfl]
      omega
  exact ⟨(List.dropLast_append_getLast? _ hlast).symm, hplaced, hrange, hcount.1, hcount.2⟩

/-- The number at the next places is smaller, or the first difference lies behind it. -/
theorem Differs.field {cs ds : List Char} {start n next : Nat}
    (h : Differs (cs.drop start) (ds.drop start)) (hnext : start + n = next)
    (hcs : next ≤ cs.length) (hds : next ≤ ds.length) (hdigit : ∀ c ∈ cs, c.isDigit = true) :
    field cs start n < DateTimeText.field ds start n ∨
      DateTimeText.field cs start n = DateTimeText.field ds start n ∧
        Differs (cs.drop next) (ds.drop next) := by
  subst hnext
  have hc : n ≤ (cs.drop start).length := by
    rw [List.length_drop]
    omega
  have hd : n ≤ (ds.drop start).length := by
    rw [List.length_drop]
    omega
  rcases h.split n hc hd with h | ⟨heq, h⟩
  · refine .inl (h.value_lt ?_ fun c hmem => ?_)
    · rw [List.length_take, List.length_take]
      omega
    · exact hdigit c (List.mem_of_mem_drop (List.mem_of_mem_take hmem))
  · rw [List.drop_drop, List.drop_drop] at h
    exact .inr ⟨congrArg value heq, h⟩

/-- The minute is earlier, or the texts differ in the seconds. -/
theorem Differs.minutes_lt {cs ds : List Char} (h : Differs cs ds) (hcs : InRange cs)
    (hds : InRange ds) (hc : 12 ≤ cs.length) (hd : 12 ≤ ds.length)
    (hdigit : ∀ c ∈ cs, c.isDigit = true) :
    minutes cs < minutes ds ∨ minutes cs = minutes ds ∧ Differs (cs.drop 12) (ds.drop 12) := by
  obtain ⟨hdate, hhour, hminute, -⟩ := hcs
  obtain ⟨hdate', hhour', hminute', -⟩ := hds
  have hday : dayNumber (DateTimeText.field cs 0 4) (DateTimeText.field cs 4 2)
        (DateTimeText.field cs 6 2) <
      dayNumber (DateTimeText.field ds 0 4) (DateTimeText.field ds 4 2)
        (DateTimeText.field ds 6 2) → minutes cs < minutes ds := by
    intro hlt
    unfold minutes
    omega
  have hstart : Differs (cs.drop 0) (ds.drop 0) := h
  rcases hstart.field (show 0 + 4 = 4 from rfl) (by omega) (by omega) hdigit with hlt | ⟨hyear, h⟩
  · exact .inl (hday (dayNumber_lt_of_year hdate hdate' hlt))
  rw [← hyear] at hdate'
  rcases h.field (show 4 + 2 = 6 from rfl) (by omega) (by omega) hdigit with hlt | ⟨hmonth, h⟩
  · exact .inl (hday (hyear ▸ dayNumber_lt_of_month hdate hdate' hlt))
  rcases h.field (show 6 + 2 = 8 from rfl) (by omega) (by omega) hdigit with hlt | ⟨hdayEq, h⟩
  · refine .inl (hday ?_)
    unfold dayNumber
    rw [hyear, hmonth]
    omega
  rcases h.field (show 8 + 2 = 10 from rfl) (by omega) (by omega) hdigit with hlt | ⟨hhourEq, h⟩
  · left
    unfold minutes
    rw [hyear, hmonth, hdayEq]
    omega
  rcases h.field (show 10 + 2 = 12 from rfl) (by omega) (by omega) hdigit with hlt | ⟨hminuteEq, h⟩
  · left
    unfold minutes
    rw [hyear, hmonth, hdayEq, hhourEq]
    omega
  · right
    refine ⟨?_, h⟩
    unfold minutes
    rw [hyear, hmonth, hdayEq, hhourEq, hminuteEq]

/-- A minute has sixty seconds. -/
theorem seconds_lt {ds : List Char} (hrange : InRange ds) (hwhole : ds.length ≠ 13)
    (hdigit : ∀ c ∈ ds, c.isDigit = true) : seconds ds < 60 := by
  have hmem : ∀ c ∈ ds.drop 12, c.isDigit = true := fun c hc => hdigit c (List.mem_of_mem_drop hc)
  have hlength : (ds.drop 12).length ≠ 1 := by
    rw [List.length_drop]
    omega
  have hsecond : value ((ds.drop 12).take 2) < 60 := hrange.2.2.2
  rw [seconds]
  rcases hrest : ds.drop 12 with _ | ⟨x, _ | ⟨y, cs⟩⟩
  · norm_num [fraction]
  · rw [hrest] at hlength
    simp at hlength
  · rw [hrest] at hsecond hmem
    have hcs : fraction cs < 1 := fraction_lt_one fun c hc =>
      hmem c (List.mem_cons_of_mem _ (List.mem_cons_of_mem _ hc))
    have hvalue : digit x * 10 + digit y < 60 := by
      simpa [value] using hsecond
    have hle : (digit x : ℚ) * 10 + digit y ≤ 59 := by
      exact_mod_cast Nat.le_of_lt_succ hvalue
    rw [fraction, fraction]
    linarith

theorem seconds_nonneg (ds : List Char) : 0 ≤ seconds ds :=
  mul_nonneg (by norm_num) (fraction_nonneg _)

/-- **The order of characters is that of instants** where the texts differ at a place that both
    have. -/
theorem instant_lt (ha : Sound a) (hb : Sound b) (h : Differs (body a) (body b)) :
    instant a < instant b := by
  have hdigits := h.digitsOf ha.placed hb.placed
  have hsecond := seconds_lt ha.range ha.whole isDigit_of_mem_digitsOf
  have hnonneg := seconds_nonneg (digitsOf (body b))
  rw [instant, instant]
  rcases hdigits.minutes_lt ha.range hb.range ha.enough hb.enough isDigit_of_mem_digitsOf with
    hlt | ⟨heq, hrest⟩
  · have hle : (minutes (digitsOf (body a)) : ℚ) + 1 ≤ minutes (digitsOf (body b)) := by
      exact_mod_cast hlt
    linarith
  · have hfraction := hrest.fraction_lt fun c hc =>
      isDigit_of_mem_digitsOf c (List.mem_of_mem_drop hc)
    rw [heq, seconds, seconds]
    linarith

/-- What a text adds to the one that it goes on from. -/
theorem instant_of_longer (ha : Sound a) {rest : List Char} (h : body b = body a ++ rest) :
    instant a ≤ instant b ∧ (instant b ≤ instant a ↔ ∀ c ∈ rest, isNonzero c = false) := by
  have hdigits : digitsOf (body b) = digitsOf (body a) ++ digitsOf rest := by
    rw [h, digitsOf, List.filter_append]
    rfl
  have hfield : ∀ start n, start + n ≤ 12 →
      field (digitsOf (body b)) start n = field (digitsOf (body a)) start n := by
    intro start n hle
    have henough := ha.enough
    rw [field, field, hdigits, List.drop_append_of_le_length (by omega),
      List.take_append_of_le_length (by rw [List.length_drop]; omega)]
  have hminutes : minutes (digitsOf (body b)) = minutes (digitsOf (body a)) := by
    simp only [minutes, hfield 0 4 (by omega), hfield 4 2 (by omega), hfield 6 2 (by omega),
      hfield 8 2 (by omega), hfield 10 2 (by omega)]
  have hseconds : seconds (digitsOf (body b)) = seconds (digitsOf (body a)) +
      100 * (fraction (digitsOf rest) / 10 ^ ((digitsOf (body a)).drop 12).length) := by
    rw [seconds, seconds, hdigits, List.drop_append_of_le_length ha.enough, fraction_append]
    ring
  have hzero : fraction (digitsOf rest) = 0 ↔ ∀ c ∈ rest, isNonzero c = false := by
    rw [fraction_eq_zero_iff isDigit_of_mem_digitsOf]
    constructor
    · intro hall c hc
      by_cases hdigit : c.isDigit = true
      · exact hall c (List.mem_filter.2 ⟨hc, hdigit⟩)
      · simp [isNonzero, hdigit]
    · intro hall c hc
      exact hall c (List.mem_filter.1 hc).1
  have hnonneg := fraction_nonneg (digitsOf rest)
  have hpow : (0 : ℚ) < 10 ^ ((digitsOf (body a)).drop 12).length := by positivity
  have hadded : 0 ≤ fraction (digitsOf rest) / 10 ^ ((digitsOf (body a)).drop 12).length :=
    div_nonneg hnonneg hpow.le
  rw [instant, instant, hminutes, hseconds, ← hzero]
  refine ⟨by linarith, fun hle => ?_, fun heq => ?_⟩
  · have hnone : fraction (digitsOf rest) / 10 ^ ((digitsOf (body a)).drop 12).length = 0 := by
      linarith
    exact (div_eq_zero_iff.1 hnone).resolve_right hpow.ne'
  · rw [heq, zero_div]
    linarith

/-- The order of characters gives another answer than that of instants: one text, up to its `Z`,
    goes on where the other ends, and it is the second one, or its further digits are not all zero. -/
def Misordered (a b : List Char) : Prop :=
  body a <+: body b ∧ a ≠ b ∨
    body b <+: body a ∧ ∃ c ∈ (body a).drop (body b).length, isNonzero c = true

instance (a b : List Char) : Decidable (Misordered a b) := inferInstanceAs (Decidable (_ ∨ _))

/-- A text that goes on comes before the one that has ended. -/
theorem differs_of_longer (ha : Sound a) (hb : Sound b) {rest : List Char}
    (h : body b = body a ++ rest) (hne : rest ≠ []) : Differs b a := by
  obtain ⟨c, cs, rfl⟩ := List.exists_cons_of_ne_nil hne
  have hc : c < 'Z' := lt_of_wellPlaced hb.placed c (by rw [h]; simp)
  rw [ha.text, hb.text, h, List.append_assoc]
  exact Differs.append_left (.here hc) _

/-- **The order of characters and the order of instants** agree on two texts if and only if these
    are not misordered. -/
theorem le_iff (ha : isDateTime a = true) (hb : isDateTime b = true) :
    (a ≤ b ↔ instant a ≤ instant b) ↔ ¬ Misordered a b := by
  have hsa := sound ha
  have hsb := sound hb
  rcases differs_or_prefix (body a) (body b) with h | h | h | h
  · have hlt : a < b := by
      rw [hsa.text, hsb.text]
      exact (h.append _ _).lt
    have hprefix := h.not_prefix
    simp [Misordered, hprefix.1, hprefix.2, hlt.le, (instant_lt hsa hsb h).le]
  · have hlt : b < a := by
      rw [hsa.text, hsb.text]
      exact (h.append _ _).lt
    have hprefix := h.not_prefix
    simp [Misordered, hprefix.1, hprefix.2, hlt.not_ge, (instant_lt hsb hsa h).not_ge]
  · obtain ⟨rest, hrest⟩ := h
    by_cases hnil : rest = []
    · have heq : a = b := by
        rw [hsa.text, hsb.text, ← hrest, hnil, List.append_nil]
      subst heq
      simp [Misordered]
    · have hlt := (differs_of_longer hsa hsb hrest.symm hnil).lt
      have hle := (instant_of_longer hsa hrest.symm).1
      have hmis : Misordered a b := .inl ⟨⟨rest, hrest⟩, hlt.ne'⟩
      simp [hmis, hlt.not_ge, hle]
  · obtain ⟨rest, hrest⟩ := h
    have hdrop : (body a).drop (body b).length = rest := by
      rw [← hrest, List.drop_left]
    by_cases hnil : rest = []
    · have heq : a = b := by
        rw [hsa.text, hsb.text, ← hrest, hnil, List.append_nil]
      subst heq
      simp [Misordered]
    · have hlt := (differs_of_longer hsb hsa hrest.symm hnil).lt
      have hzero := (instant_of_longer hsb hrest.symm).2
      have hnot : ¬ body a <+: body b := by
        intro hprefix
        have hlength := hprefix.length_le
        rw [← hrest, List.length_append] at hlength
        exact hnil (List.length_eq_zero_iff.1 (by omega))
      have hmis : Misordered a b ↔ ∃ c ∈ rest, isNonzero c = true := by
        rw [Misordered, hdrop]
        constructor
        · intro h
          exact (h.resolve_left fun hfirst => hnot hfirst.1).2
        · intro h
          exact .inr ⟨⟨rest, hrest⟩, h⟩
      rw [hmis, hzero]
      simp [hlt.le]

end Order

end DateTimeText
