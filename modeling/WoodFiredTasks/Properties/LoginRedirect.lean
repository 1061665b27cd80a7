import WoodFiredTasks.Lib.UrlResolve

set_option autoImplicit false

/-! # Where a login leads

What the callback sends as its `Location` stays on the site, but for one kind of query: a slash,
then tabs or newlines, then another slash. The pattern sees no second slash there; a URL parser,
which removes tabs and newlines, does (`login_redirect_same_origin_iff`). -/

/-! ## The redirect after a login

`GET /auth/login` (`src/api/routes/auth/login.ts`) keeps where to go after the login in the
handshake, and the callback (`callback.ts`) sends it as its `Location`. The rest of the two
handlers, which is about the identity provider, is left out. -/

namespace WoodFiredTasks.Api

/-- `request.query.next`: given once, it is a string; given more often, a list of them. -/
inductive NextQuery where
  | missing
  | text (s : String)
  | list (values : List String)

/-- `NEXT_PATH_RE`, `^\/[^/\\]` -/
def nextPathRe : List Char → Bool
  | '/' :: c :: _ => c ≠ '/' && c ≠ '\\'
  | _ => false

/-- `[A-HJ-KM-NP-Z2-9]` -/
def userCodeChar (c : Char) : Bool :=
  ('A' ≤ c && c ≤ 'H') || ('J' ≤ c && c ≤ 'K') || ('M' ≤ c && c ≤ 'N') || ('P' ≤ c && c ≤ 'Z') ||
    ('2' ≤ c && c ≤ '9')

/-- `DEVICE_NEXT_RE` of a text that begins with `/auth/device`, by what follows. -/
def deviceNextRe (rest : List Char) : Bool :=
  rest = [] || ("?user_code=".toList.isPrefixOf rest && (rest.drop 11).length = 8 &&
    (rest.drop 11).all userCodeChar)

/-- The `redirectAfterLogin` of the handshake. -/
def redirectAfterLogin : NextQuery → String
  | .text nextRaw =>
    if "/auth/device".toList.isPrefixOf nextRaw.toList then
      if deviceNextRe (nextRaw.toList.drop 12) then nextRaw else "/me"
    else if nextPathRe nextRaw.toList then nextRaw
    else "/me"
  | .missing | .list _ => "/me"

/-- `redirectTo` of the callback. -/
def redirectTo (redirectAfterLogin : String) : String :=
  if redirectAfterLogin = "" then "/me" else redirectAfterLogin

/-- The `Location` of the callback, if the framework sends such a header. -/
def location (sends : String → Bool) (next : NextQuery) : Option String :=
  some (redirectTo (redirectAfterLogin next)) |>.filter sends

/-- What can become of a query. -/
theorem redirectAfterLogin_cases (next : NextQuery) :
    redirectAfterLogin next = "/me" ∨
      ∃ s, next = .text s ∧ redirectAfterLogin next = s ∧
        ("/auth/device".toList <+: s.toList ∨ nextPathRe s.toList = true) := by
  cases next with
  | missing => exact .inl rfl
  | list values => exact .inl rfl
  | text nextRaw =>
    simp only [redirectAfterLogin]
    by_cases hdevice : "/auth/device".toList.isPrefixOf nextRaw.toList = true
    · rw [if_pos hdevice]
      split
      · exact .inr ⟨nextRaw, rfl, rfl, .inl (List.isPrefixOf_iff_prefix.1 hdevice)⟩
      · exact .inl rfl
    · rw [if_neg hdevice]
      split
      · next hpath => exact .inr ⟨nextRaw, rfl, rfl, .inr hpath⟩
      · exact .inl rfl

/-- A path that the looser pattern takes is kept, unless it is shaped like the device page. -/
theorem redirectAfterLogin_of_path {s : String} (hpath : nextPathRe s.toList = true)
    (hdevice : ¬ "/auth/device".toList <+: s.toList) : redirectAfterLogin (.text s) = s := by
  simp only [redirectAfterLogin]
  rw [if_neg (by rwa [List.isPrefixOf_iff_prefix]), if_pos hpath]

end WoodFiredTasks.Api

namespace WoodFiredTasks.Api

open UrlResolve (Hosts authorityAfter opensAuthority resolve resolve_slash)

variable {O : Type}

/-- The query is a path for the pattern and opens an authority for a URL parser. -/
def slipsThrough (s : String) : Bool := nextPathRe s.toList && opensAuthority (s.toList.drop 1)

theorem resolve_me (hosts : Hosts O) (base : O) : resolve hosts base "/me".toList = some base := by
  show resolve hosts base ('/' :: ['m', 'e']) = _
  rw [resolve_slash]
  rfl

theorem toList_of_nextPathRe {s : String} (h : nextPathRe s.toList = true) :
    s.toList = '/' :: s.toList.drop 1 ∧ s ≠ "" := by
  cases htext : s.toList with
  | nil => simp [htext, nextPathRe] at h
  | cons c rest =>
    rw [htext] at h
    have hc : c = '/' := by
      by_contra hne
      simp [nextPathRe, hne] at h
    refine ⟨by rw [hc]; rfl, fun hempty => ?_⟩
    rw [hempty] at htext
    simp at htext

/-- The device page is on the site. -/
theorem opensAuthority_device {text : List Char} (h : "/auth/device".toList <+: text) :
    text = '/' :: text.drop 1 ∧ opensAuthority (text.drop 1) = false := by
  obtain ⟨rest, rfl⟩ := h
  exact ⟨rfl, rfl⟩

theorem resolve_path (hosts : Hosts O) (base : O) {text : List Char} (h : text = '/' :: text.drop 1) :
    resolve hosts base text = if opensAuthority (text.drop 1) then
      hosts.host (authorityAfter (text.drop 1)) else some base := by
  rw [h]
  exact resolve_slash hosts base _

/-- What the callback sends resolves to the site, unless the query slips through. -/
theorem resolve_redirectTo (hosts : Hosts O) (base : O) (next : NextQuery) :
    resolve hosts base (redirectTo (redirectAfterLogin next)).toList = some base ∨
      ∃ s, next = .text s ∧ redirectTo (redirectAfterLogin next) = s ∧ slipsThrough s = true := by
  rcases redirectAfterLogin_cases next with hme | ⟨s, hnext, hkept, hdevice | hpath⟩
  · left
    rw [hme]
    exact resolve_me hosts base
  · left
    obtain ⟨hslash, hcloses⟩ := opensAuthority_device hdevice
    have hne : s ≠ "" := by
      rintro rfl
      simp at hslash
    rw [hkept, redirectTo, if_neg hne, resolve_path hosts base hslash, hcloses]
    rfl
  · obtain ⟨hslash, hne⟩ := toList_of_nextPathRe hpath
    have hsent : redirectTo (redirectAfterLogin next) = s := by rw [hkept, redirectTo, if_neg hne]
    by_cases hopens : opensAuthority (s.toList.drop 1) = true
    · exact .inr ⟨s, hnext, hsent, by rw [slipsThrough, hpath, hopens, Bool.true_and]⟩
    · left
      rw [hsent, resolve_path hosts base hslash, if_neg hopens]

/-- **Main theorem.** What the callback sends resolves to the origin of the site if and only if the
    query does not slip through, or the framework refuses it, or the authority that it opens is
    the site's own. -/
theorem login_redirect_same_origin_iff (hosts : Hosts O) (base : O) (sends : String → Bool)
    (next : NextQuery) :
    (∀ v, location sends next = some v → resolve hosts base v.toList = some base) ↔
      ∀ s, next = .text s → slipsThrough s = true → sends s = true →
        hosts.host (authorityAfter (s.toList.drop 1)) = some base := by
  have hlocation : ∀ v, location sends next = some v ↔
      redirectTo (redirectAfterLogin next) = v ∧ sends v = true := by
    intro v
    simp only [location, Option.filter_eq_some_iff, Option.some.injEq]
  constructor
  · rintro hsame s rfl hslips hsends
    rw [slipsThrough, Bool.and_eq_true] at hslips
    obtain ⟨hpath, hopens⟩ := hslips
    obtain ⟨hslash, hne⟩ := toList_of_nextPathRe hpath
    have hdevice : ¬ "/auth/device".toList <+: s.toList := by
      intro hprefix
      rw [(opensAuthority_device hprefix).2] at hopens
      contradiction
    have hsent : redirectTo (redirectAfterLogin (.text s)) = s := by
      rw [redirectAfterLogin_of_path hpath hdevice, redirectTo, if_neg hne]
    have hresolved := hsame s ((hlocation s).2 ⟨hsent, hsends⟩)
    rwa [resolve_path hosts base hslash, if_pos hopens] at hresolved
  · intro hown v hv
    obtain ⟨rfl, hsends⟩ := (hlocation v).1 hv
    rcases resolve_redirectTo hosts base next with hsame | ⟨s, hnext, hsent, hslips⟩
    · exact hsame
    · rw [hsent] at hsends ⊢
      obtain ⟨hpath, hopens⟩ := (Bool.and_eq_true _ _ ▸ hslips :
        nextPathRe s.toList = true ∧ opensAuthority (s.toList.drop 1) = true)
      rw [resolve_path hosts base (toList_of_nextPathRe hpath).1, if_pos hopens]
      exact hown s hnext hslips hsends

/-- Origins by their host alone. -/
def plainHosts : Hosts String where
  host authority := some (String.ofList authority)
  absolute _ := none

/-- The characters that Node takes in the value of a header. -/
def headerValue (v : String) : Bool :=
  v.toList.all fun c => c = '\t' || (32 ≤ c.toNat && c.toNat ≤ 255 && c.toNat ≠ 127)

/-- With a tab after its slash the query is kept, sent and resolved to another site. -/
theorem tab_leads_off_site :
    location headerValue (.text "/\t/evil.com/login") = some "/\t/evil.com/login" ∧
      resolve plainHosts "tasks.local" "/\t/evil.com/login".toList = some "evil.com" := by
  decide +kernel

end WoodFiredTasks.Api
