import Mathlib.Data.List.Basic
import Mathlib.Data.List.Infix

set_option autoImplicit false

/-! # Machines that read one input at a time

A machine reads an input, moves to another state and writes some outputs. Running it over a list
is compatible with cutting the list in two, so it does not matter in which pieces the inputs
arrive. Machines compose, and a machine whose state is a function of another one's state can be
replaced by that one. -/

universe u v w x y

namespace Transducer

variable {S : Type u} {I : Type v} {O : Type w} {T : Type x} {M : Type y}

/-- The state after these inputs and everything that was written. -/
def run (step : S → I → S × List O) (s : S) : List I → S × List O
  | [] => (s, [])
  | i :: rest =>
    let next := step s i
    let out := run step next.1 rest
    (out.1, next.2 ++ out.2)

section

variable {step : S → I → S × List O}

@[simp] theorem run_nil (s : S) : run step s [] = (s, []) := rfl

theorem run_cons (s : S) (i : I) (rest : List I) :
    run step s (i :: rest) =
      ((run step (step s i).1 rest).1, (step s i).2 ++ (run step (step s i).1 rest).2) := rfl

theorem run_singleton (s : S) (i : I) : run step s [i] = step s i := by
  simp [run_cons]

theorem run_append (s : S) (xs ys : List I) :
    run step s (xs ++ ys) =
      ((run step (run step s xs).1 ys).1,
        (run step s xs).2 ++ (run step (run step s xs).1 ys).2) := by
  induction xs generalizing s with
  | nil => simp
  | cons i rest ih => simp [run_cons, ih, List.append_assoc]

/-- What was written for the first inputs comes first. -/
theorem run_mono (s : S) {xs ys : List I} (h : xs <+: ys) :
    (run step s xs).2 <+: (run step s ys).2 := by
  obtain ⟨rest, rfl⟩ := h
  rw [run_append]
  exact List.prefix_append ..

end

/-! ## One machine after another -/

/-- The second machine reads what the first one writes. -/
def comp (first : S → I → S × List M) (second : T → M → T × List O) (s : S × T) (i : I) :
    (S × T) × List O :=
  let written := first s.1 i
  let out := run second s.2 written.2
  ((written.1, out.1), out.2)

theorem run_comp {first : S → I → S × List M} {second : T → M → T × List O} (s : S) (t : T)
    (xs : List I) :
    run (comp first second) (s, t) xs =
      (((run first s xs).1, (run second t (run first s xs).2).1),
        (run second t (run first s xs).2).2) := by
  induction xs generalizing s t with
  | nil => simp
  | cons i rest ih => simp [run_cons, comp, ih, run_append]

/-- A machine that keeps a function of the other one's state, and writes a function of what the
    other one writes. -/
theorem run_of_view {step : S → I → S × List O} {model : T → I → T × List M} (view : T → S)
    (write : M → List O)
    (h : ∀ t i, step (view t) i = (view (model t i).1, (model t i).2.flatMap write)) (t : T)
    (xs : List I) :
    run step (view t) xs = (view (run model t xs).1, (run model t xs).2.flatMap write) := by
  induction xs generalizing t with
  | nil => simp
  | cons i rest ih => simp [run_cons, h, ih]

/-- A machine that reads pieces, each as a machine reads its inputs one by one: it does not matter
    how the inputs are cut into pieces. -/
theorem run_pieces {step : S → I → S × List O} {feed : T → List I → T × List O} (view : T → S)
    (h : ∀ t piece, (view (feed t piece).1, (feed t piece).2) = run step (view t) piece) (t : T)
    (pieces : List (List I)) :
    (view (run feed t pieces).1, (run feed t pieces).2) = run step (view t) pieces.flatten := by
  induction pieces generalizing t with
  | nil => rfl
  | cons piece rest ih =>
    have hrest := ih (feed t piece).1
    rw [List.flatten_cons, run_append, ← h t piece, run_cons]
    simp [← hrest]

/-! ## Splitting -/

/-- Collects the inputs up to the next one that separates, and writes them as one piece. -/
def split (isSeparator : I → Bool) (piece : List I) (i : I) : List I × List (List I) :=
  if isSeparator i then ([], [piece]) else (piece ++ [i], [])

theorem forall_mem_concat {isSeparator : I → Bool} {piece : List I} {i : I}
    (h : ∀ j ∈ piece, isSeparator j = false) (hi : isSeparator i = false) :
    ∀ j ∈ piece ++ [i], isSeparator j = false := by
  intro j hj
  rcases List.mem_append.1 hj with hj | hj
  · exact h j hj
  · rw [List.mem_singleton.1 hj]
    exact hi

/-- The pieces that the machine has written, and the one it holds, are those of `splitOnP`. -/
theorem splitOnP_eq_run_split {isSeparator : I → Bool} (xs : List I) :
    xs.splitOnP isSeparator =
      (run (split isSeparator) [] xs).2 ++ [(run (split isSeparator) [] xs).1] := by
  suffices h : ∀ piece : List I, (∀ i ∈ piece, isSeparator i = false) →
      (piece ++ xs).splitOnP isSeparator =
        (run (split isSeparator) piece xs).2 ++ [(run (split isSeparator) piece xs).1] from
    h [] (by simp)
  induction xs with
  | nil =>
    intro piece hpiece
    simp [List.splitOnP_eq_singleton hpiece]
  | cons i rest ih =>
    intro piece hpiece
    by_cases hi : isSeparator i = true
    · have hstep : split isSeparator piece i = ([], [piece]) := by simp [split, hi]
      rw [List.splitOnP_append_cons_of_forall_mem hpiece i hi, run_cons, hstep]
      simpa using ih [] (by simp)
    · have hstep : split isSeparator piece i = (piece ++ [i], []) := by simp [split, hi]
      have hmoved : piece ++ i :: rest = piece ++ [i] ++ rest := by simp
      rw [hmoved, ih _ (forall_mem_concat hpiece (by simpa using hi)), run_cons, hstep]
      simp

theorem dropLast_splitOnP {isSeparator : I → Bool} (xs : List I) :
    (xs.splitOnP isSeparator).dropLast = (run (split isSeparator) [] xs).2 := by
  simp [splitOnP_eq_run_split]

theorem getLast?_splitOnP {isSeparator : I → Bool} (xs : List I) :
    (xs.splitOnP isSeparator).getLast? = some (run (split isSeparator) [] xs).1 := by
  simp [splitOnP_eq_run_split]

/-- The piece that the machine holds has no separator. -/
theorem run_split_fst {isSeparator : I → Bool} {piece : List I}
    (h : ∀ i ∈ piece, isSeparator i = false) (xs : List I) :
    ∀ i ∈ (run (split isSeparator) piece xs).1, isSeparator i = false := by
  induction xs generalizing piece with
  | nil => exact h
  | cons i rest ih =>
    rw [run_cons]
    by_cases hi : isSeparator i = true
    · have hstep : split isSeparator piece i = ([], [piece]) := by simp [split, hi]
      rw [hstep]
      exact ih (by simp)
    · have hstep : split isSeparator piece i = (piece ++ [i], []) := by simp [split, hi]
      rw [hstep]
      exact ih (forall_mem_concat h (by simpa using hi))

theorem run_split_of_free {isSeparator : I → Bool} (piece : List I) {xs : List I}
    (h : ∀ i ∈ xs, isSeparator i = false) : run (split isSeparator) piece xs = (piece ++ xs, []) := by
  induction xs generalizing piece with
  | nil => simp
  | cons i rest ih =>
    have hi : isSeparator i = false := h i (by simp)
    have hrest : ∀ j ∈ rest, isSeparator j = false := fun j hj => h j (by simp [hj])
    simp [run_cons, split, hi, ih _ hrest]

end Transducer

/-! ## The UTF-8 decoder of the Encoding standard

`TextDecoder` with `stream: true`: the bytes of a character may come in several chunks, a byte that
cannot go on with a character writes U+FFFD and is read again, and one byte order mark at the
beginning is dropped. -/

namespace WoodFiredTasks

/-- The character that is being decoded: the bits so far, how many bytes they came from, how many
    it has in all (0 between characters) and where the next byte has to lie. -/
structure Utf8State where
  codePoint : Nat := 0
  bytesSeen : Nat := 0
  bytesNeeded : Nat := 0
  lower : Nat := 0x80
  upper : Nat := 0xBF
  deriving DecidableEq

namespace Utf8State

/-- The first byte of a character. -/
def lead (b : Nat) : Utf8State × List Char :=
  if b ≤ 0x7F then ({}, [Char.ofNat b])
  else if 0xC2 ≤ b ∧ b ≤ 0xDF then ({ bytesNeeded := 1, codePoint := b % 0x20 }, [])
  else if 0xE0 ≤ b ∧ b ≤ 0xEF then
    -- no overlong forms and no surrogates
    ({ bytesNeeded := 2, codePoint := b % 0x10, lower := if b = 0xE0 then 0xA0 else 0x80,
       upper := if b = 0xED then 0x9F else 0xBF }, [])
  else if 0xF0 ≤ b ∧ b ≤ 0xF4 then
    ({ bytesNeeded := 3, codePoint := b % 0x08, lower := if b = 0xF0 then 0x90 else 0x80,
       upper := if b = 0xF4 then 0x8F else 0xBF }, [])
  else ({}, ['\ufffd'])

/-- The handler of the decoder, on one byte. -/
def step (st : Utf8State) (byte : UInt8) : Utf8State × List Char :=
  let b := byte.toNat
  if st.bytesNeeded = 0 then lead b
  else if b < st.lower ∨ st.upper < b then
    let out := lead b
    (out.1, '\ufffd' :: out.2)
  else
    let codePoint := st.codePoint * 0x40 + b % 0x40
    if st.bytesSeen + 1 = st.bytesNeeded then ({}, [Char.ofNat codePoint])
    else ({ bytesNeeded := st.bytesNeeded, bytesSeen := st.bytesSeen + 1, codePoint }, [])

end Utf8State

/-- A byte order mark is dropped if it is the first character. -/
def stripBom (bomSeen : Bool) (c : Char) : Bool × List Char :=
  (true, if bomSeen = false ∧ c = '\ufeff' then [] else [c])

/-- `TextDecoder`: the state between two chunks. -/
structure TextDecoder where
  utf8 : Utf8State := {}
  bomSeen : Bool := false
  deriving DecidableEq

namespace TextDecoder

/-- One byte. -/
def step : Utf8State × Bool → UInt8 → (Utf8State × Bool) × List Char :=
  Transducer.comp Utf8State.step stripBom

/-- `decode(chunk, { stream: true })` -/
def decode (decoder : TextDecoder) (chunk : List UInt8) : TextDecoder × List Char :=
  let out := Transducer.run step (decoder.utf8, decoder.bomSeen) chunk
  (⟨out.1.1, out.1.2⟩, out.2)

/-- The text does not depend on where the bytes are cut. -/
theorem decode_append (decoder : TextDecoder) (xs ys : List UInt8) :
    decoder.decode (xs ++ ys) =
      (((decoder.decode xs).1.decode ys).1,
        (decoder.decode xs).2 ++ ((decoder.decode xs).1.decode ys).2) := by
  simp [decode, Transducer.run_append]

end TextDecoder

-- "é", U+FEFF at the beginning, and a byte that cannot follow
example : (({} : TextDecoder).decode [0xEF, 0xBB, 0xBF, 0xC3]).2 = [] := by decide
example : (({} : TextDecoder).decode [0xC3, 0xA9, 0xE2, 0x41]).2 = ['é', '\ufffd', 'A'] := by decide

end WoodFiredTasks
