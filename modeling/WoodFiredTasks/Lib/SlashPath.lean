import Mathlib.Data.List.Basic

set_option autoImplicit false

/-! # Paths with slashes

A path text is split at its slashes into segments, and the segments `.` and `..` are resolved
lexically, with a stack of the segments passed so far (the innermost first). There are two ways
to treat a `..` that has nothing to pop: `normalize` keeps it, so that a path may leave the
directory it starts from, and `descend` refuses the whole path. On the paths `descend` accepts
the two agree (`normalize_eq_of_descend`). -/

namespace SlashPath

/-- The text of a path, and of one of its segments. -/
abbrev Text := List Char

/-- The segments of a text, with an empty one before, after and between adjacent slashes. -/
def segments (text : Text) : List Text := text.splitOn '/'

/-- The text with these segments. -/
def join (segs : List Text) : Text := ['/'].intercalate segs

/-- A segment that names an entry of a directory. -/
structure IsName (seg : Text) : Prop where
  ne_nil : seg ≠ []
  noSlash : '/' ∉ seg
  ne_dot : seg ≠ ['.']
  ne_dotdot : seg ≠ ['.', '.']

/-! ## Resolving dots -/

/-- One segment, where `..` is kept if there is nothing to pop. -/
def push (stack : List Text) (seg : Text) : List Text :=
  if seg = [] ∨ seg = ['.'] then stack
  else if seg = ['.', '.'] then
    match stack with
    | [] => [['.', '.']]
    | top :: rest => if top = ['.', '.'] then ['.', '.'] :: stack else rest
  else seg :: stack

/-- The segments with their dots resolved; a leading run of `..` stays. -/
def normalize (segs : List Text) : List Text :=
  (segs.foldl push []).reverse

/-- One segment, where `..` is refused if there is nothing to pop. -/
def pushWithin (stack : List Text) (seg : Text) : Option (List Text) :=
  if seg = [] ∨ seg = ['.'] then some stack
  else if seg = ['.', '.'] then
    match stack with
    | [] => none
    | _ :: rest => some rest
  else some (seg :: stack)

/-- The segments with their dots resolved, unless they leave the directory they start from. -/
def descend (segs : List Text) : Option (List Text) :=
  (segs.foldlM pushWithin []).map List.reverse

theorem push_of_isName {seg : Text} (h : IsName seg) (stack : List Text) :
    push stack seg = seg :: stack := by
  simp [push, h.ne_nil, h.ne_dot, h.ne_dotdot]

theorem pushWithin_of_isName {seg : Text} (h : IsName seg) (stack : List Text) :
    pushWithin stack seg = some (seg :: stack) := by
  simp [pushWithin, h.ne_nil, h.ne_dot, h.ne_dotdot]

/-- While only names are on the stack, a step that is not refused is the same in both. -/
theorem push_of_pushWithin {stack stack' : List Text} {seg : Text}
    (hnames : ∀ s ∈ stack, IsName s) (hseg : '/' ∉ seg) (h : pushWithin stack seg = some stack') :
    push stack seg = stack' ∧ ∀ s ∈ stack', IsName s := by
  unfold pushWithin at h
  unfold push
  by_cases hskip : seg = [] ∨ seg = ['.']
  · simp only [hskip, if_true, Option.some.injEq] at h ⊢
    subst h
    exact ⟨rfl, hnames⟩
  · simp only [hskip, if_false] at h ⊢
    by_cases hup : seg = ['.', '.']
    · simp only [hup, if_true] at h ⊢
      cases stack with
      | nil => simp at h
      | cons top rest =>
        have htop : top ≠ ['.', '.'] := (hnames top (by simp)).ne_dotdot
        simp only [Option.some.injEq] at h
        subst h
        simp only [htop, if_false, true_and]
        intro s hs
        exact hnames s (by simp [hs])
    · simp only [hup, if_false, Option.some.injEq] at h ⊢
      subst h
      rw [not_or] at hskip
      refine ⟨rfl, fun s hs => ?_⟩
      rcases List.mem_cons.mp hs with rfl | hs
      · exact ⟨hskip.1, hseg, hskip.2, hup⟩
      · exact hnames s hs

/-- The whole run: induction on the segments, over a stack of names. -/
theorem foldl_push_of_foldlM {segs stack stack' : List Text} (hnames : ∀ s ∈ stack, IsName s)
    (hsegs : ∀ s ∈ segs, '/' ∉ s) (h : segs.foldlM pushWithin stack = some stack') :
    segs.foldl push stack = stack' ∧ ∀ s ∈ stack', IsName s := by
  induction segs generalizing stack with
  | nil =>
    simp only [List.foldlM_nil, Option.pure_def, Option.some.injEq] at h
    subst h
    exact ⟨rfl, hnames⟩
  | cons seg rest ih =>
    simp only [List.foldlM_cons, Option.bind_eq_bind, Option.bind_eq_some_iff] at h
    obtain ⟨mid, hmid, hrest⟩ := h
    have hstep := push_of_pushWithin hnames (hsegs seg (by simp)) hmid
    rw [List.foldl_cons, hstep.1]
    exact ih hstep.2 (fun s hs => hsegs s (by simp [hs])) hrest

/-- A list of names has no dots to resolve. -/
theorem descend_of_isName {segs : List Text} (h : ∀ s ∈ segs, IsName s) :
    descend segs = some segs := by
  have hrun : ∀ stack : List Text,
      segs.foldlM pushWithin stack = some (segs.reverse ++ stack) := by
    induction segs with
    | nil => intro stack; rfl
    | cons seg rest ih =>
      intro stack
      have hseg := pushWithin_of_isName (h seg (by simp)) stack
      have hrest := ih (fun s hs => h s (by simp [hs])) (seg :: stack)
      simp [List.foldlM_cons, hseg, hrest]
  simp [descend, hrun]

/-! ## Splitting and joining -/

theorem noSlash_of_mem_segments {text seg : Text} (h : seg ∈ segments text) : '/' ∉ seg := by
  unfold segments at h
  induction text generalizing seg with
  | nil =>
    simp only [List.splitOn_nil, List.mem_singleton] at h
    simp [h]
  | cons c rest ih =>
    rw [List.splitOn_cons_eq_if_modifyHead] at h
    by_cases hc : c = '/'
    · simp only [hc, beq_self_eq_true, if_true, List.mem_cons] at h
      rcases h with rfl | h
      · simp
      · exact ih h
    · have hne : (c == '/') = false := by simpa using hc
      simp only [hne, Bool.false_eq_true, if_false] at h
      obtain ⟨hd, tl, hsplit⟩ := List.exists_cons_of_ne_nil (List.splitOn_ne_nil '/' rest)
      rw [hsplit] at h ih
      simp only [List.modifyHead_cons, List.mem_cons] at h
      rcases h with rfl | h
      · have hhd : '/' ∉ hd := ih (by simp)
        simp only [List.mem_cons, not_or]
        exact ⟨fun he => hc he.symm, hhd⟩
      · exact ih (by simp [h])

/-- What `descend` accepts, `normalize` resolves to the same names. -/
theorem normalize_eq_of_descend {text : Text} {segs : List Text}
    (h : descend (segments text) = some segs) :
    normalize (segments text) = segs ∧ ∀ s ∈ segs, IsName s := by
  simp only [descend, Option.map_eq_some_iff] at h
  obtain ⟨stack, hrun, rfl⟩ := h
  have hrun' := foldl_push_of_foldlM (by simp) (fun s hs => noSlash_of_mem_segments hs) hrun
  refine ⟨by rw [normalize, hrun'.1], fun s hs => hrun'.2 s (by simpa using hs)⟩

theorem segments_join {segs : List Text} (hne : segs ≠ []) (h : ∀ s ∈ segs, IsName s) :
    segments (join segs) = segs :=
  List.splitOn_intercalate '/' (fun s hs => (h s hs).noSlash) hne

theorem join_cons_of_ne_nil {segs : List Text} (hne : segs ≠ []) (seg : Text) :
    join (seg :: segs) = seg ++ '/' :: join segs := by
  simp [join, List.intercalate_cons_of_ne_nil hne]

theorem join_ne_nil {segs : List Text} (hne : segs ≠ []) (h : ∀ s ∈ segs, IsName s) :
    join segs ≠ [] := by
  intro hnil
  have hsplit := segments_join hne h
  rw [hnil] at hsplit
  simp only [segments, List.splitOn_nil] at hsplit
  exact (h [] (by simp [← hsplit])).ne_nil rfl

/-- A text joined from names does not end in a slash. -/
theorem getLast?_join {segs : List Text} (h : ∀ s ∈ segs, IsName s) :
    (join segs).getLast? ≠ some '/' := by
  induction segs with
  | nil => simp [join]
  | cons seg rest ih =>
    have hseg := h seg (by simp)
    by_cases hrest : rest = []
    · subst hrest
      simp only [join, List.intercalate_singleton]
      intro hlast
      exact hseg.noSlash (List.mem_of_getLast? hlast)
    · have hnames : ∀ s ∈ rest, IsName s := fun s hs => h s (by simp [hs])
      rw [join_cons_of_ne_nil hrest, List.getLast?_append, List.getLast?_cons]
      obtain ⟨c, hc⟩ := Option.ne_none_iff_exists'.mp
        (mt List.getLast?_eq_none_iff.mp (join_ne_nil hrest hnames))
      have hlast := ih hnames
      rw [hc] at hlast ⊢
      simpa using hlast

/-- A text joined from names is neither empty nor a dot. -/
theorem join_ne_dot {segs : List Text} (hne : segs ≠ []) (h : ∀ s ∈ segs, IsName s) :
    join segs ≠ ['.'] := by
  intro hdot
  have hsplit := segments_join hne h
  rw [hdot] at hsplit
  exact (h ['.'] (by rw [← hsplit]; decide)).ne_dot rfl

end SlashPath
