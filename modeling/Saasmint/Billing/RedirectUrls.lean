/-
Saasmint/Billing/RedirectUrls.lean

The allowlist of the redirect URLs that a checkout and the billing portal take
(core/apps/billing/serializers.py).  `validateRedirectUrl` reads a URL with
Python's parser and looks for its authority, for its host without the port, and
for its host alone, in two lists.

What the lists mean is said of the origin that a browser finds in the URL
(`OriginListed`, `OriginAllowed`): the origin itself is listed, or its host is
an allowed host and its port is none that a listed origin leaves out.  The check
is not that strict.  It also accepts every port of a listed origin, and it
accepts by Python's reading where the browser's is a different one.
`redirectSafe_iff` says exactly on which URLs it does what the lists mean; for a
URL that is written plainly the port decides (`readingsFit_plain_iff`).
-/
import Saasmint.Lib.UrlOrigins

namespace Saasmint

open UrlOrigins

/-! ### The check -/

structure RedirectSettings where
  corsAllowedOrigins : List (List Char)
  allowedHosts : List (List Char)
  corsAllowAllOrigins : Bool

inductive RedirectError where
  | valueError
  | validationError (message : String)
  deriving DecidableEq, Repr

/-- `_host_matchers`: the exact hosts, and the suffixes. -/
def hostMatchers (allowedHosts : List (List Char)) : List (List Char) × List (List Char) :=
  (allowedHosts.filter fun h => h ≠ ['*'] && !(['.'].isPrefixOf h),
    allowedHosts.filter fun h => ['.'].isPrefixOf h)

/-- `origin`: the authority as it is written. -/
def originText (r : Split) : List Char := r.scheme ++ "://".toList ++ r.netloc

/-- `origin_no_port`. -/
def originNoPort (t : PyTables) (r : Split) : List Char :=
  if hostname t r.netloc ≠ [] then r.scheme ++ "://".toList ++ hostname t r.netloc
  else originText r

/-- `_validate_redirect_url`. -/
def validateRedirectUrl (t : PyTables) (settings : RedirectSettings) (url : List Char) :
    Except RedirectError (List Char) :=
  match urlsplit t url with
  | none => .error .valueError
  | some parsed =>
    if !isHttp parsed.scheme then
      .error (.validationError "Only HTTP(S) redirect URLs are allowed.")
    else if settings.corsAllowAllOrigins then .ok url
    else if settings.corsAllowedOrigins ≠ [] ∧
        (settings.corsAllowedOrigins.contains (originText parsed) ||
          settings.corsAllowedOrigins.contains (originNoPort t parsed)) then
      .ok url
    else
      let hostname := hostname t parsed.netloc
      if settings.allowedHosts ≠ [] ∧ (hostMatchers settings.allowedHosts).1.contains hostname then
        .ok url
      else if settings.allowedHosts ≠ [] ∧
          (hostMatchers settings.allowedHosts).2.any (fun s => s.isSuffixOf hostname) then
        .ok url
      else .error (.validationError "URL domain is not in the list of allowed origins.")

/-! ### What the lists mean -/

/-- An allowed host, or one below a host that is allowed with a dot before it. -/
def RedirectSettings.HostAllowed (settings : RedirectSettings) (host : List Char) : Prop :=
  host ∈ settings.allowedHosts ∨ ∃ s ∈ settings.allowedHosts, s.head? = some '.' ∧ s <:+ host

variable (settings : RedirectSettings) (o : Origin)

/-- The origin without its port. -/
def canonicalText : List Char := o.scheme ++ "://".toList ++ o.host

/-- The origin with the port that it is written with. -/
def exactText : List Char := canonicalText o ++ portText o.port

def NonDefaultPort : Prop := ∃ port ∈ o.port, port ≠ defaultPort o.scheme

/-- The origin is listed.  A default port may be left out. -/
def OriginListed : Prop :=
  exactText o ∈ settings.corsAllowedOrigins ∨
    (¬NonDefaultPort o ∧ canonicalText o ∈ settings.corsAllowedOrigins)

/-- The host is listed without a port only, and the port is another one. -/
def OnlyCanonicalListed : Prop :=
  NonDefaultPort o ∧ canonicalText o ∈ settings.corsAllowedOrigins ∧
    exactText o ∉ settings.corsAllowedOrigins

/-- A browser may be sent there. -/
def OriginAllowed : Prop :=
  OriginListed settings o ∨ (settings.HostAllowed o.host ∧ ¬OnlyCanonicalListed settings o)

/-- **The check does what the lists mean**: what it accepts leads to an allowed
origin, and it accepts what leads to a listed one. -/
def RedirectSafe (t : PyTables) (hosts : List Char → Option (List Char))
    (settings : RedirectSettings) (url : List Char) : Prop :=
  (∀ target, validateRedirectUrl t settings url = .ok target →
      ∃ o ∈ browserOrigin hosts target, OriginAllowed settings o) ∧
    ∀ o ∈ browserOrigin hosts url, OriginListed settings o →
      validateRedirectUrl t settings url = .ok url

/-! ### What the check accepts -/

/-- Python's reading is on a list: as it is written, without its port, or by its
host. -/
def OnLists (t : PyTables) (settings : RedirectSettings) (r : Split) : Prop :=
  originText r ∈ settings.corsAllowedOrigins ∨
    originNoPort t r ∈ settings.corsAllowedOrigins ∨ settings.HostAllowed (hostname t r.netloc)

variable {t : PyTables} {hosts : List Char → Option (List Char)} {settings}

theorem hostMatchers_iff (hstar : ['*'] ∉ settings.allowedHosts) (host : List Char) :
    (host ∈ (hostMatchers settings.allowedHosts).1 ∨
        ∃ s ∈ (hostMatchers settings.allowedHosts).2, s <:+ host) ↔
      settings.HostAllowed host := by
  have hdot : ∀ s : List Char, ['.'].isPrefixOf s = true ↔ s.head? = some '.' := by
    intro s
    cases s with
    | nil => simp
    | cons c s =>
      rw [List.head?_cons, Option.some_inj]
      simpa [List.isPrefixOf] using eq_comm
  simp only [hostMatchers, RedirectSettings.HostAllowed, List.mem_filter, Bool.and_eq_true,
    decide_eq_true_eq, Bool.not_eq_true', hdot]
  constructor
  · rintro (⟨hmem, -, -⟩ | ⟨s, ⟨hmem, hhead⟩, hsuffix⟩)
    · exact Or.inl hmem
    · exact Or.inr ⟨s, hmem, hhead, hsuffix⟩
  · rintro (hmem | ⟨s, hmem, hhead, hsuffix⟩)
    · by_cases hhead : host.head? = some '.'
      · -- an entry that starts with a dot is a suffix of itself
        exact Or.inr ⟨host, ⟨hmem, hhead⟩, List.suffix_refl host⟩
      · refine Or.inl ⟨hmem, ?_, ?_⟩
        · rintro rfl
          exact hstar hmem
        · rw [← Bool.not_eq_true, hdot]
          exact hhead
    · exact Or.inr ⟨s, ⟨hmem, hhead⟩, hsuffix⟩

/-- A URL that is accepted is returned as it is. -/
theorem eq_of_validateRedirectUrl {url target : List Char}
    (h : validateRedirectUrl t settings url = .ok target) : target = url := by
  unfold validateRedirectUrl at h
  split at h
  next => cases h
  next r hr =>
    dsimp only at h
    split_ifs at h
    all_goals exact (Except.ok.inj h).symm

/-- Accepted is what Python reads as an http or https URL on a list. -/
theorem accepts_iff (hall : settings.corsAllowAllOrigins = false)
    (hstar : ['*'] ∉ settings.allowedHosts) (url : List Char) :
    validateRedirectUrl t settings url = .ok url ↔
      ∃ r ∈ urlsplit t url, isHttp r.scheme = true ∧ OnLists t settings r := by
  cases hr : urlsplit t url with
  | none =>
    unfold validateRedirectUrl
    rw [hr]
    constructor
    · intro h
      cases h
    · rintro ⟨r, h, -⟩
      cases h
  | some r =>
    have hhost := hostMatchers_iff hstar (hostname t r.netloc)
    have hany : (hostMatchers settings.allowedHosts).2.any
        (fun s => s.isSuffixOf (hostname t r.netloc)) = true ↔
        ∃ s ∈ (hostMatchers settings.allowedHosts).2, s <:+ hostname t r.netloc := by
      simp only [List.any_eq_true, List.isSuffixOf_iff_suffix]
    have hlisted : (settings.corsAllowedOrigins.contains (originText r) ||
        settings.corsAllowedOrigins.contains (originNoPort t r)) = true ↔
        originText r ∈ settings.corsAllowedOrigins ∨
          originNoPort t r ∈ settings.corsAllowedOrigins := by
      rw [Bool.or_eq_true, List.contains_iff_mem, List.contains_iff_mem]
    have hread : (∃ r' ∈ some r, isHttp r'.scheme = true ∧ OnLists t settings r') ↔
        isHttp r.scheme = true ∧ OnLists t settings r := by simp
    have hnone : ∀ message : String,
        (.error (.validationError message) : Except RedirectError (List Char)) ≠ .ok url := by
      rintro message ⟨⟩
    rw [hread]
    unfold validateRedirectUrl OnLists
    rw [hr]
    dsimp only
    rw [hall, ← hhost]
    split
    next hhttp => exact iff_of_false (hnone _) fun h => by simp [h.1] at hhttp
    next hhttp =>
      have hhttp : isHttp r.scheme = true := by simpa using hhttp
      rw [if_neg Bool.false_ne_true]
      split
      next horigin => exact iff_of_true rfl ⟨hhttp, (hlisted.mp horigin.2).imp_right Or.inl⟩
      next horigin =>
        split
        next hexact =>
          exact iff_of_true rfl
            ⟨hhttp, Or.inr (Or.inr (Or.inl (List.contains_iff_mem.mp hexact.2)))⟩
        next hexact =>
          split
          next hsuffix =>
            exact iff_of_true rfl
              ⟨hhttp, Or.inr (Or.inr (Or.inr (hany.mp hsuffix.2)))⟩
          next hsuffix =>
            refine iff_of_false (hnone _) ?_
            -- a list that something is on is not empty
            rintro ⟨-, hmem | hmem | hmem | ⟨s, hmem, hs⟩⟩
            · exact horigin ⟨List.ne_nil_of_mem hmem, hlisted.mpr (Or.inl hmem)⟩
            · exact horigin ⟨List.ne_nil_of_mem hmem, hlisted.mpr (Or.inr hmem)⟩
            · exact hexact ⟨List.ne_nil_of_mem (List.mem_filter.mp hmem).1,
                List.contains_iff_mem.mpr hmem⟩
            · exact hsuffix ⟨List.ne_nil_of_mem (List.mem_filter.mp hmem).1, hany.mpr ⟨s, hmem, hs⟩⟩

/-! ### Where the readings agree -/

/-- Python reads the scheme and the host of an origin. -/
structure ReadsAs (t : PyTables) (r : Split) (o : Origin) : Prop where
  scheme : r.scheme = o.scheme
  host : hostname t r.netloc = o.host
  host_ne : o.host ≠ []

variable {o} {r : Split}

theorem ReadsAs.originNoPort_eq (h : ReadsAs t r o) : originNoPort t r = canonicalText o := by
  rw [originNoPort, h.host, h.scheme, if_pos h.host_ne]
  rfl

theorem ReadsAs.onLists_iff (h : ReadsAs t r o) :
    OnLists t settings r ↔ originText r ∈ settings.corsAllowedOrigins ∨
      canonicalText o ∈ settings.corsAllowedOrigins ∨ settings.HostAllowed o.host := by
  rw [OnLists, h.originNoPort_eq, h.host]

/-- Of an origin that Python reads, a listed host without its port lets every
port through, and where there is none the text of the authority counts. -/
theorem ReadsAs.agree_iff (h : ReadsAs t r o) :
    ((OnLists t settings r → OriginAllowed settings o) ∧
        (OriginListed settings o → OnLists t settings r)) ↔
      ¬OnlyCanonicalListed settings o ∧
        (canonicalText o ∉ settings.corsAllowedOrigins → ¬settings.HostAllowed o.host →
          (originText r ∈ settings.corsAllowedOrigins ↔
            exactText o ∈ settings.corsAllowedOrigins)) := by
  rw [h.onLists_iff]
  unfold OriginAllowed OriginListed OnlyCanonicalListed
  by_cases hcanonical : canonicalText o ∈ settings.corsAllowedOrigins
  · -- accepted, so the port decides
    simp only [hcanonical]
    tauto
  · by_cases hhost : settings.HostAllowed o.host
    · simp [hcanonical, hhost]
    · simp only [hcanonical, hhost, or_false, false_and, and_false, not_false_eq_true,
        true_and, true_implies]
      exact iff_def.symm

/-! ### The URLs that the check is right about -/

/-- **When the check does what the lists mean**, by the lists and the two
readings of the URL. -/
structure ReadingsFit (t : PyTables) (hosts : List Char → Option (List Char))
    (settings : RedirectSettings) (url : List Char) : Prop where
  /-- The readings agree: the host is not listed without a port only, where the
  URL has another port. -/
  port : ∀ r ∈ urlsplit t url, ∀ o ∈ browserOrigin hosts url, ReadsAs t r o →
    ¬OnlyCanonicalListed settings o
  /-- They agree on a host that is on neither list without its port: the
  authority is listed as it is written or not at all. -/
  spelling : ∀ r ∈ urlsplit t url, ∀ o ∈ browserOrigin hosts url, ReadsAs t r o →
    canonicalText o ∉ settings.corsAllowedOrigins → ¬settings.HostAllowed o.host →
      (originText r ∈ settings.corsAllowedOrigins ↔ exactText o ∈ settings.corsAllowedOrigins)
  /-- Python reads another host than the browser: it is on no list, or the
  browser's origin is allowed as well. -/
  foreign : ∀ r ∈ urlsplit t url, isHttp r.scheme = true →
    (∀ o ∈ browserOrigin hosts url, ¬ReadsAs t r o) → OnLists t settings r →
      ∃ o ∈ browserOrigin hosts url, OriginAllowed settings o
  /-- Python does not read the browser's origin: that is not listed, or what
  Python reads is on a list as well. -/
  missed : ∀ o ∈ browserOrigin hosts url, (∀ r ∈ urlsplit t url, ¬ReadsAs t r o) →
    OriginListed settings o →
      ∃ r ∈ urlsplit t url, isHttp r.scheme = true ∧ OnLists t settings r

/-! ### URLs that are written plainly -/

section
variable {tail : List Char} (h : PlainOrigin o) (htail : PlainTail tail)
  (hhost : hosts o.host = some o.host)
include h

theorem ReadsAs.plain (t : PyTables) : ReadsAs t ⟨o.scheme, o.host ++ portText o.port⟩ o :=
  ⟨rfl, hostname_plain t h, h.host_ne⟩

include htail hhost

/-- Of a plain URL only the port can go wrong. -/
theorem readingsFit_plain_iff :
    ReadingsFit t hosts settings (urlText o tail) ↔ ¬OnlyCanonicalListed settings o := by
  have hr := urlsplit_urlText t h htail
  have ho := browserOrigin_eq h hhost htail.visible htail.endsAuthority
  have hreads := ReadsAs.plain h t
  constructor
  · intro hfit
    exact hfit.port _ hr _ ho hreads
  · intro hport
    refine ⟨?_, ?_, ?_, ?_⟩
    · intro r _ o' ho' _
      rwa [Option.mem_unique ho' ho]
    · intro r hr' o' ho' _ _ _
      rw [Option.mem_unique hr' hr, Option.mem_unique ho' ho, exactText, canonicalText,
        List.append_assoc _ o.host]
      rfl
    · intro r hr' _ hno
      exact absurd (Option.mem_unique hr' hr ▸ hreads) (hno o ho)
    · intro o' ho' hno
      exact absurd (Option.mem_unique ho' ho ▸ hreads) (hno _ hr)

/-- **Every port of a listed host is accepted**, though only the host without a
port is listed. -/
theorem accepts_other_port (hall : settings.corsAllowAllOrigins = false)
    (hstar : ['*'] ∉ settings.allowedHosts) (honly : OnlyCanonicalListed settings o) :
    validateRedirectUrl t settings (urlText o tail) = .ok (urlText o tail) ∧
      browserOrigin hosts (urlText o tail) = some o ∧ ¬OriginAllowed settings o := by
  have hr := urlsplit_urlText t h htail
  have hon : OnLists t settings ⟨o.scheme, o.host ++ portText o.port⟩ :=
    (ReadsAs.plain h t).onLists_iff.mpr (Or.inr (Or.inl honly.2.1))
  refine ⟨(accepts_iff hall hstar _).mpr ⟨_, hr, h.scheme, hon⟩,
    browserOrigin_eq h hhost htail.visible htail.endsAuthority, ?_⟩
  rintro ((hexact | ⟨hport, -⟩) | ⟨-, hnot⟩)
  · exact honly.2.2 hexact
  · exact hport honly.1
  · exact hnot honly

theorem not_redirectSafe_of_onlyCanonical (hall : settings.corsAllowAllOrigins = false)
    (hstar : ['*'] ∉ settings.allowedHosts) (honly : OnlyCanonicalListed settings o) :
    ¬RedirectSafe t hosts settings (urlText o tail) := by
  obtain ⟨haccepts, ho, hnot⟩ := accepts_other_port h htail hhost hall hstar honly
  rintro ⟨hsound, -⟩
  obtain ⟨o', ho', hallowed⟩ := hsound _ haccepts
  rw [Option.mem_unique ho' ho] at hallowed
  exact hnot hallowed

end

/-- **A backslash leads elsewhere**: the browser goes to the host before it, and
the check is passed by the listed host behind the `@`. -/
theorem accepts_backslash {evil : Origin} {tail : List Char} (hevil : PlainOrigin evil)
    (h : PlainOrigin o) (htail : PlainTail tail) (hhost : hosts evil.host = some evil.host)
    (hscheme : o.scheme = evil.scheme) (hport : o.port = none)
    (hall : settings.corsAllowAllOrigins = false) (hstar : ['*'] ∉ settings.allowedHosts)
    (hlisted : canonicalText o ∈ settings.corsAllowedOrigins) :
    validateRedirectUrl t settings (urlText evil ("\\@".toList ++ o.host ++ tail))
        = .ok (urlText evil ("\\@".toList ++ o.host ++ tail)) ∧
      browserOrigin hosts (urlText evil ("\\@".toList ++ o.host ++ tail)) = some evil := by
  have hchars : ∀ c ∈ o.host, isNetlocChar c = true := fun c hc =>
    isNetlocChar_of_isAuthorityChar (h.isAuthorityChar c (List.mem_append_left _ hc))
  set netloc := evil.host ++ portText evil.port ++ '\\' :: '@' :: o.host with hnetloc
  have htext : urlText evil ("\\@".toList ++ o.host ++ tail)
      = evil.scheme ++ "://".toList ++ netloc ++ tail := by
    simp [urlText, hnetloc]
  have hr : urlsplit t (evil.scheme ++ "://".toList ++ netloc ++ tail)
      = some ⟨evil.scheme, netloc⟩ := by
    refine urlsplit_eq t hevil.scheme (List.forall_mem_append.mpr ⟨?_, ?_⟩) htail
    · exact fun c hc => isNetlocChar_of_isAuthorityChar (hevil.isAuthorityChar c hc)
    · exact List.forall_mem_cons.mpr ⟨by decide, List.forall_mem_cons.mpr ⟨by decide, hchars⟩⟩
  have hlast : afterLast '@' netloc = o.host ++ portText o.port := by
    have hne : ∀ c ∈ o.host, c ≠ '@' := by
      rintro c hc rfl
      exact absurd (h.host _ hc) (by decide)
    rw [hport, show portText none = [] from rfl, List.append_nil, ← afterLast_append _ hne, hnetloc,
      List.append_cons]
  have hreads : ReadsAs t ⟨evil.scheme, netloc⟩ o :=
    ⟨hscheme.symm, hostname_eq t h hlast, h.host_ne⟩
  constructor
  · rw [htext]
    exact (accepts_iff hall hstar _).mpr
      ⟨_, hr, hevil.scheme, hreads.onLists_iff.mpr (Or.inr (Or.inl hlisted))⟩
  · refine browserOrigin_eq hevil hhost ?_ ?_
    · refine List.forall_mem_append.mpr ⟨List.forall_mem_append.mpr ⟨by decide, ?_⟩, htail.visible⟩
      exact fun c hc => (isAuthorityChar_code (h.isAuthorityChar c (List.mem_append_left _ hc))).1
    · rintro c hc
      obtain rfl := Option.some.inj hc
      rfl

/-! ### The exact condition -/

/-- **The check does what the lists mean on these URLs, and on no others.** -/
theorem redirectSafe_iff (t : PyTables) (hosts : List Char → Option (List Char))
    {settings : RedirectSettings} (hall : settings.corsAllowAllOrigins = false)
    (hstar : ['*'] ∉ settings.allowedHosts) (url : List Char) :
    RedirectSafe t hosts settings url ↔ ReadingsFit t hosts settings url := by
  unfold RedirectSafe
  have hiff := accepts_iff (t := t) hall hstar url
  constructor
  · rintro ⟨hsound, hcomplete⟩
    have hagree : ∀ r ∈ urlsplit t url, ∀ o ∈ browserOrigin hosts url, ReadsAs t r o →
        (OnLists t settings r → OriginAllowed settings o) ∧
          (OriginListed settings o → OnLists t settings r) := by
      intro r hr o ho hreads
      constructor
      · intro hon
        obtain ⟨o', ho', hallowed⟩ := hsound url
          (hiff.mpr ⟨r, hr, hreads.scheme ▸ isHttp_of_browserOrigin ho, hon⟩)
        rwa [Option.mem_unique ho ho']
      · intro hlisted
        obtain ⟨r', hr', -, hon⟩ := hiff.mp (hcomplete o ho hlisted)
        rwa [Option.mem_unique hr hr']
    exact
      { port := fun r hr o ho hreads => (hreads.agree_iff.mp (hagree r hr o ho hreads)).1
        spelling := fun r hr o ho hreads => (hreads.agree_iff.mp (hagree r hr o ho hreads)).2
        foreign := fun r hr hhttp _ hon => hsound url (hiff.mpr ⟨r, hr, hhttp, hon⟩)
        missed := fun o ho _ hlisted => hiff.mp (hcomplete o ho hlisted) }
  · intro h
    have hagree : ∀ r ∈ urlsplit t url, ∀ o ∈ browserOrigin hosts url, ReadsAs t r o →
        (OnLists t settings r → OriginAllowed settings o) ∧
          (OriginListed settings o → OnLists t settings r) := fun r hr o ho hreads =>
      hreads.agree_iff.mpr ⟨h.port r hr o ho hreads, h.spelling r hr o ho hreads⟩
    constructor
    · intro target haccepts
      obtain rfl : url = target := (eq_of_validateRedirectUrl haccepts).symm
      obtain ⟨r, hr, hhttp, hon⟩ := hiff.mp haccepts
      by_cases hreads : ∃ o ∈ browserOrigin hosts url, ReadsAs t r o
      · obtain ⟨o, ho, hreads⟩ := hreads
        exact ⟨o, ho, (hagree r hr o ho hreads).1 hon⟩
      · exact h.foreign r hr hhttp (fun o ho ha => hreads ⟨o, ho, ha⟩) hon
    · intro o ho hlisted
      refine hiff.mpr ?_
      by_cases hreads : ∃ r ∈ urlsplit t url, ReadsAs t r o
      · obtain ⟨r, hr, hreads⟩ := hreads
        exact ⟨r, hr, hreads.scheme ▸ isHttp_of_browserOrigin ho,
          (hagree r hr o ho hreads).2 hlisted⟩
      · exact h.missed o ho (fun r hr ha => hreads ⟨r, hr, ha⟩) hlisted

/-- A path on the listed origin. -/
theorem redirectSafe_listed : RedirectSafe asciiPyTables some
    ⟨["https://app.example.com".toList], ["api.example.com".toList], false⟩
    "https://app.example.com/billing".toList := by
  refine (redirectSafe_iff asciiPyTables some rfl (by decide) _).mpr ?_
  have hplain : PlainOrigin ⟨"https".toList, "app.example.com".toList, none⟩ :=
    ⟨rfl, by decide, by decide, by decide⟩
  have htail : PlainTail "/billing".toList :=
    ⟨by decide, fun c hc => Or.inl (Option.some.inj hc).symm⟩
  refine (readingsFit_plain_iff hplain htail rfl).mpr ?_
  rintro ⟨⟨port, hport, -⟩, -⟩
  cases hport

/-- Another port of the listed origin, which the list leaves out. -/
theorem port_of_listed_host_accepted : ¬RedirectSafe asciiPyTables some
    ⟨["https://app.example.com".toList], [], false⟩ "https://app.example.com:9999/".toList := by
  have hplain : PlainOrigin ⟨"https".toList, "app.example.com".toList, some 9999⟩ :=
    ⟨rfl, by decide, by decide, by decide⟩
  have htail : PlainTail "/".toList := ⟨by decide, fun c hc => Or.inl (Option.some.inj hc).symm⟩
  have honly : OnlyCanonicalListed ⟨["https://app.example.com".toList], [], false⟩
      ⟨"https".toList, "app.example.com".toList, some 9999⟩ :=
    ⟨⟨9999, rfl, by decide⟩, by decide, by decide⟩
  exact not_redirectSafe_of_onlyCanonical hplain htail rfl rfl (by decide) honly

end Saasmint
