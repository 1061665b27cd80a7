import WoodFiredTasks.Lib.PrefixCode
import Mathlib.Data.Nat.Notation

set_option autoImplicit false

/-! # JSON texts of strings

What `JSON.stringify` makes of a JavaScript string, and of an array of strings and `null`s. A
JavaScript string is a sequence of code points in which a surrogate may stand on its own; such a
one is escaped, so the JSON text is always well-formed, and no two arrays have the same text. -/

/-- A code point of a JavaScript string: a character, or the surrogate `0xD800 + n`. -/
inductive CodePoint where
  | scalar (c : Char)
  | surrogate (n : Fin 2048)
  deriving DecidableEq

/-- A leading surrogate and a trailing one in a row would be a pair, which is a character. -/
def CodePoint.pairs : CodePoint → CodePoint → Bool
  | .surrogate n, .surrogate m => n < 1024 && 1024 ≤ m
  | _, _ => false

/-- A JavaScript string. -/
@[ext]
structure JsString where
  points : List CodePoint
  unpaired : points.IsChain fun p q => p.pairs q = false

namespace JsString

/-- A text as a JavaScript string. -/
def ofString (s : String) : JsString where
  points := s.toList.map .scalar
  unpaired := by
    generalize s.toList = cs
    induction cs with
    | nil => exact .nil
    | cons c cs ih =>
      cases cs with
      | nil => exact .singleton _
      | cons d cs => exact .cons_cons rfl ih

/-- `isWellFormed`: no surrogate stands on its own. -/
def isWellFormed (s : JsString) : Bool :=
  s.points.all fun
    | .scalar _ => true
    | .surrogate _ => false

/-- The string as UTF-8 text: a surrogate becomes U+FFFD. -/
def toUtf8 (s : JsString) : String :=
  String.ofList (s.points.map fun
    | .scalar c => c
    | .surrogate _ => '\ufffd')

@[simp] theorem isWellFormed_ofString (s : String) : (ofString s).isWellFormed = true := by
  simp [isWellFormed, ofString]

@[simp] theorem toUtf8_ofString (s : String) : (ofString s).toUtf8 = s := by
  show String.ofList ((s.toList.map CodePoint.scalar).map _) = s
  rw [List.map_map]
  exact (congrArg String.ofList (List.map_id s.toList)).trans (String.ofList_toList)

/-- A well-formed string comes back from UTF-8 as it was, and no other one does. -/
theorem ofString_toUtf8 {s : JsString} : ofString s.toUtf8 = s ↔ s.isWellFormed = true := by
  constructor
  · intro h
    rw [← h]
    exact isWellFormed_ofString _
  · intro h
    refine JsString.ext ?_
    have hscalar : ∀ p ∈ s.points, ∃ c, p = .scalar c := by
      intro p hp
      cases p with
      | scalar c => exact ⟨c, rfl⟩
      | surrogate n => simpa using List.all_eq_true.1 h _ hp
    simp only [ofString, toUtf8, String.toList_ofList, List.map_map]
    conv_rhs => rw [← List.map_id s.points]
    refine List.map_congr_left fun p hp => ?_
    obtain ⟨c, rfl⟩ := hscalar p hp
    rfl

end JsString

/-! ## Quoting -/

/-- A hexadecimal digit, in lower case. -/
def hexDigit (d : Nat) : Char := "0123456789abcdef".toList.getD d '0'

/-- The value of a hexadecimal digit. -/
def hexValue (c : Char) : Nat := "0123456789abcdef".toList.idxOf c

/-- `UnicodeEscape` -/
def unicodeEscape (n : Nat) : List Char :=
  ['\\', 'u', hexDigit (n / 4096), hexDigit (n / 256 % 16), hexDigit (n / 16 % 16),
    hexDigit (n % 16)]

/-- `QuoteJSONString`, for one code point. -/
def quotePoint : CodePoint → List Char
  | .scalar '"' => ['\\', '"']
  | .scalar '\\' => ['\\', '\\']
  | .scalar '\x08' => ['\\', 'b']
  | .scalar '\t' => ['\\', 't']
  | .scalar '\n' => ['\\', 'n']
  | .scalar '\x0c' => ['\\', 'f']
  | .scalar '\r' => ['\\', 'r']
  | .scalar c => if c.toNat < 32 then unicodeEscape c.toNat else [c]
  | .surrogate n => unicodeEscape (0xD800 + n)

/-- `QuoteJSONString` -/
def quote (s : List CodePoint) : List Char := '"' :: (s.flatMap quotePoint ++ ['"'])

/-- An item of an array. -/
def jsonItem (item : Option (List CodePoint)) : List Char :=
  item.elim ['n', 'u', 'l', 'l'] quote

/-- `JSON.stringify` of an array that is not empty. -/
def jsonArray (first : Option (List CodePoint)) (rest : List (Option (List CodePoint))) :
    List Char :=
  '[' :: (jsonItem first ++ (rest.flatMap (fun item => ',' :: jsonItem item) ++ [']']))

/-! ## Reading back -/

/-- The code point that an escape stands for, or the character at the front. -/
def unquotePoint : List Char → Option (CodePoint × List Char)
  | '\\' :: '"' :: rest => some (.scalar '"', rest)
  | '\\' :: '\\' :: rest => some (.scalar '\\', rest)
  | '\\' :: 'b' :: rest => some (.scalar '\x08', rest)
  | '\\' :: 't' :: rest => some (.scalar '\t', rest)
  | '\\' :: 'n' :: rest => some (.scalar '\n', rest)
  | '\\' :: 'f' :: rest => some (.scalar '\x0c', rest)
  | '\\' :: 'r' :: rest => some (.scalar '\r', rest)
  | '\\' :: 'u' :: a :: b :: c :: d :: rest =>
    let n := 4096 * hexValue a + 256 * hexValue b + 16 * hexValue c + hexValue d
    some (if n < 32 then .scalar (Char.ofNat n) else .surrogate (Fin.ofNat 2048 (n - 0xD800)), rest)
  | c :: rest => some (.scalar c, rest)
  | [] => none

theorem hexValue_hexDigit {d : Nat} (h : d < 16) : hexValue (hexDigit d) = d := by
  have hall : ∀ d : Fin 16, hexValue (hexDigit d) = d := by decide
  exact hall ⟨d, h⟩

theorem unquotePoint_unicodeEscape {n : Nat} (h : n < 65536) (rest : List Char) :
    unquotePoint (unicodeEscape n ++ rest) =
      some (if n < 32 then .scalar (Char.ofNat n) else .surrogate (Fin.ofNat 2048 (n - 0xD800)),
        rest) := by
  have hn : 4096 * hexValue (hexDigit (n / 4096)) + 256 * hexValue (hexDigit (n / 256 % 16)) +
      16 * hexValue (hexDigit (n / 16 % 16)) + hexValue (hexDigit (n % 16)) = n := by
    rw [hexValue_hexDigit (by omega), hexValue_hexDigit (by omega), hexValue_hexDigit (by omega),
      hexValue_hexDigit (by omega)]
    omega
  simp only [unicodeEscape, List.cons_append, List.nil_append, unquotePoint, hn]

theorem unquotePoint_quotePoint (p : CodePoint) (rest : List Char) :
    unquotePoint (quotePoint p ++ rest) = some (p, rest) := by
  unfold quotePoint
  split
  iterate 7 rfl
  · next c _ hslash _ _ _ _ _ =>
    split
    · next hlow =>
      rw [unquotePoint_unicodeEscape (by omega), if_pos hlow, Char.ofNat_toNat]
    · show unquotePoint (c :: rest) = _
      rw [unquotePoint.eq_def]
      split <;> simp_all
  · next n =>
    rw [unquotePoint_unicodeEscape (by omega), if_neg (by omega), Nat.add_sub_cancel_left]
    simp

/-! ## No two arrays have the same text -/

theorem prefixFree_quotePoint : PrefixFree quotePoint := .of_decode unquotePoint_quotePoint

/-- Inside a text in quotes, no quotation mark stands at the front of what a code point becomes. -/
theorem quotePoint_head (p : CodePoint) : ∃ x l, quotePoint p = x :: l ∧ x ≠ '"' := by
  unfold quotePoint
  split
  iterate 7 exact ⟨_, _, rfl, by decide⟩
  · next c hquote _ _ _ _ _ _ =>
    split
    · exact ⟨_, _, rfl, by decide⟩
    · exact ⟨_, _, rfl, hquote⟩
  · exact ⟨_, _, rfl, by decide⟩

theorem prefixFree_quote : PrefixFree quote := (prefixFree_quotePoint.block quotePoint_head).cons _

theorem prefixFree_jsonItem : PrefixFree jsonItem :=
  prefixFree_quote.option fun _ => ⟨'"', _, rfl, by decide⟩

theorem prefixFree_jsonItems : PrefixFree fun rest : List (Option (List CodePoint)) =>
    rest.flatMap (fun item => ',' :: jsonItem item) ++ [']'] :=
  (prefixFree_jsonItem.cons ',').block fun _ => ⟨',', _, rfl, by decide⟩

/-- The text of an array determines its items. -/
theorem jsonArray_inj {first first' : Option (List CodePoint)}
    {rest rest' : List (Option (List CodePoint))} (h : jsonArray first rest = jsonArray first' rest') :
    first = first' ∧ rest = rest' := by
  obtain ⟨hfirst, hrest⟩ := prefixFree_jsonItem _ _ _ _ (List.cons.inj h).2
  exact ⟨hfirst, prefixFree_jsonItems.injective hrest⟩
