import Mathlib.Data.List.DropRight

set_option autoImplicit false

/-! # Resolving a reference

How the URL parser of the WHATWG standard finds the origin of a reference, with a base whose scheme
is a special one (`http`, `https`): its states up to the one that reads an authority. What the host
parser makes of an authority, and what an absolute URL resolves to, is taken as given.

The parser strips controls and spaces from both ends, removes tabs and newlines everywhere, and
reads a backslash as a slash. So a reference of one slash can still open an authority
(`opensAuthority`); every other one stays at the base's origin (`resolve_slash`). -/

namespace UrlResolve

/-! ## Characters -/

/-- A C0 control or a space. -/
def isC0OrSpace (c : Char) : Bool := c.toNat ≤ 32

def isTabOrNewline (c : Char) : Bool := c = '\t' || c = '\n' || c = '\r'

def isSlash (c : Char) : Bool := c = '/' || c = '\\'

/-! ## The parser -/

/-- What is read of an input. -/
def preprocess (input : List Char) : List Char :=
  ((input.dropWhile isC0OrSpace).rdropWhile isC0OrSpace).filter (!isTabOrNewline ·)

variable {O : Type}

/-- The origin that an authority names under the scheme of the base, if the host parser takes it;
    and the origin of an input that begins with a scheme. -/
structure Hosts (O : Type) where
  host : List Char → Option O
  absolute : List Char → Option O

/-- The scheme start state and the scheme state: the text begins with a scheme. -/
def hasScheme : List Char → Bool
  | [] => false
  | c :: rest => c.isAlpha &&
    (rest.dropWhile fun c => c.isAlphanum || c = '+' || c = '-' || c = '.').head? = some ':'

/-- The authority state reads as far as this. -/
def authorityText (text : List Char) : List Char :=
  text.takeWhile fun c => !(isSlash c || c = '?' || c = '#')

/-- The relative slash state; after two slashes more of them are ignored. -/
def relativeSlash (hosts : Hosts O) (base : O) : List Char → Option O
  | [] => some base
  | c :: rest =>
    if isSlash c then hosts.host (authorityText (rest.dropWhile isSlash)) else some base

/-- The relative state. -/
def relative (hosts : Hosts O) (base : O) : List Char → Option O
  | [] => some base
  | c :: rest => if isSlash c then relativeSlash hosts base rest else some base

/-- The origin of what a reference resolves to; none if it resolves to nothing. -/
def resolve (hosts : Hosts O) (base : O) (input : List Char) : Option O :=
  let text := preprocess input
  if hasScheme text then hosts.absolute text else relative hosts base text

/-! ## References that begin with a slash -/

/-- After a slash: the first character that is no tab or newline is another one. -/
def opensAuthority (rest : List Char) : Bool := (rest.find? (!isTabOrNewline ·)).any isSlash

/-- The authority that is read after a slash. -/
def authorityAfter (rest : List Char) : List Char :=
  authorityText (((rest.rdropWhile isC0OrSpace).filter (!isTabOrNewline ·)).dropWhile isSlash)

theorem not_isC0OrSpace_of_isSlash {c : Char} (h : isSlash c = true) : isC0OrSpace c = false := by
  simp only [isSlash, Bool.or_eq_true, decide_eq_true_eq] at h
  rcases h with rfl | rfl <;> decide

theorem rdropWhile_cons_of_neg {p : Char → Bool} {c : Char} (h : p c = false) (rest : List Char) :
    (c :: rest).rdropWhile p = c :: rest.rdropWhile p := by
  induction rest using List.reverseRecOn with
  | nil => simp [List.rdropWhile_singleton, h]
  | append_singleton init d ih =>
    by_cases hd : p d = true
    · rw [← List.cons_append, List.rdropWhile_concat_pos _ _ _ hd, ih,
        List.rdropWhile_concat_pos _ _ _ hd]
    · rw [← List.cons_append, List.rdropWhile_concat_neg _ _ _ hd,
        List.rdropWhile_concat_neg _ _ _ hd, List.cons_append]

theorem preprocess_slash (rest : List Char) :
    preprocess ('/' :: rest) = '/' :: (rest.rdropWhile isC0OrSpace).filter (!isTabOrNewline ·) := by
  rw [preprocess, List.dropWhile_cons_of_neg (by decide), rdropWhile_cons_of_neg (by decide),
    List.filter_cons_of_pos (by decide)]

/-- Stripping the end of the rest does not touch a slash in front. -/
theorem head_slash (rest : List Char) :
    (((rest.rdropWhile isC0OrSpace).filter (!isTabOrNewline ·)).head?).any isSlash =
      opensAuthority rest := by
  rw [List.head?_filter, opensAuthority]
  have hsplit : rest.rdropWhile isC0OrSpace ++ rest.rtakeWhile isC0OrSpace = rest :=
    List.rdropWhile_append_rtakeWhile
  conv_rhs => rw [← hsplit, List.find?_append]
  cases hkept : (rest.rdropWhile isC0OrSpace).find? (!isTabOrNewline ·) with
  | some c => rfl
  | none =>
    cases hstripped : (rest.rtakeWhile isC0OrSpace).find? (!isTabOrNewline ·) with
    | none => rfl
    | some c =>
      have hc : isC0OrSpace c = true := List.mem_rtakeWhile_imp (List.mem_of_find?_eq_some hstripped)
      show false = isSlash c
      by_contra hslash
      rw [not_isC0OrSpace_of_isSlash (by simpa using Ne.symm hslash)] at hc
      contradiction

/-- A reference that begins with a slash stays at the origin of the base, unless it opens an
    authority. -/
theorem resolve_slash (hosts : Hosts O) (base : O) (rest : List Char) :
    resolve hosts base ('/' :: rest) =
      if opensAuthority rest then hosts.host (authorityAfter rest) else some base := by
  have hscheme : hasScheme (preprocess ('/' :: rest)) = false := by
    rw [preprocess_slash]
    rfl
  rw [resolve, hscheme, preprocess_slash, ← head_slash, authorityAfter]
  show relativeSlash hosts base _ = _
  cases (rest.rdropWhile isC0OrSpace).filter (!isTabOrNewline ·) with
  | nil => rfl
  | cons c more =>
    show (if isSlash c then _ else _) = if isSlash c then _ else _
    by_cases hslash : isSlash c = true
    · rw [if_pos hslash, if_pos hslash, List.dropWhile_cons_of_pos hslash]
    · rw [if_neg hslash, if_neg hslash]

end UrlResolve
