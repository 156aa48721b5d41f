/-
Saasmint/App/RedirectChains.lean

The redirects that one page view of the app goes through: a run of `hop`, with a
moment for each request.

Each redirect takes the rank of the path down (`rank_lt_of_hop`): the locale is
put on once, the preferred one is moved to once, and a page only sends on to
pages that send on less.  So a page is shown after at most four redirects
(`page_shown_within_four`), whichever of the layout and the page is faster.  From
a plain path a redirect leads to a plain path (`plainPath_of_hop`), so that the
proxy reads each path of the chain as Next routes it.
-/
import Saasmint.App.PageRequests
import Saasmint.Lib.Loops
import Saasmint.Lib.Runs

namespace Saasmint

namespace RedirectChains

open JsStr

/-! ### The rank of a path -/

/-- How many redirects to other pages may follow. -/
def pageRank : Page → ℕ
  | .app .org | .app .checkout | .app .teamCheckout | .invitation _ => 2
  | .app _ | .authError => 1
  | .other | .notFound => 0

def isProtected (path : String) : Bool := protectedPrefixes.any (startsWith path)

/-- The same for the path behind a locale: without a session a protected path
leads to the login page, also where it has no page. -/
def placeRank (path : String) : ℕ :=
  max (pageRank (pageOf (segments path))) (if isProtected path then 1 else 0)

/-- The redirect to the preferred locale and the one of a path without a locale
count as well. -/
def rank (preferred path : String) : ℕ :=
  if (segments path).head?.any (· ∈ locales) then
    let r := placeRank (stripLocalePrefix path)
    if 1 ≤ r ∧ preferred ∈ locales ∧ preferred ≠ getLocale path then r + 1 else r
  else 4

theorem rank_localized (preferred : String) {l p : String} (hl : l ∈ locales) (hp : Rooted p) :
    rank preferred (localized l p)
      = if 1 ≤ placeRank p ∧ preferred ∈ locales ∧ preferred ≠ l then placeRank p + 1
        else placeRank p := by
  unfold rank
  rw [segments_localized (locales_slash l hl) hp, stripLocalePrefix_localized hl hp,
    getLocale_localized hl hp]
  simp only [List.head?_cons, Option.any_some, hl, decide_true, if_true]

theorem pageRank_le (page : Page) : pageRank page ≤ 2 := by
  unfold pageRank
  split <;> decide

theorem placeRank_le (path : String) : placeRank path ≤ 2 := by
  apply max_le (pageRank_le _)
  split <;> decide

theorem rank_le_of_locale {path : String} (preferred : String)
    (h : (segments path).head?.any (· ∈ locales)) : rank preferred path ≤ 3 := by
  unfold rank
  rw [if_pos h]
  have hplace : placeRank (stripLocalePrefix path) ≤ 2 := placeRank_le _
  dsimp only
  split <;> omega

theorem rank_le (preferred path : String) : rank preferred path ≤ 4 := by
  by_cases h : (segments path).head?.any (· ∈ locales)
  · exact (rank_le_of_locale preferred h).trans (by decide)
  · unfold rank
    rw [if_neg h]

/-- The login page has no rank. -/
theorem rank_login (preferred : String) {l : String} (hl : l ∈ locales) :
    rank preferred (localized l "/login") = 0 := by
  have hplace : placeRank "/login" = 0 := by decide
  rw [rank_localized preferred hl (by decide), hplace]
  rfl

/-- A slug has letters, digits and hyphens only. -/
theorem notMem_of_isSlug {slug : String} (h : IsSlug slug) {c : Char} (hc : isSlugChar c = false)
    (hhyphen : c ≠ '-') : c ∉ slug.toList := by
  obtain ⟨first, middle, last, htext, hfirst, hlast, hmiddle⟩ := h
  rw [htext]
  intro hmem
  rcases List.mem_cons.mp hmem with rfl | hmem
  · exact absurd hfirst (hc ▸ Bool.false_ne_true)
  · rcases List.mem_append.mp hmem with hmem | hmem
    · rcases hmiddle _ hmem with h | h
      · exact absurd h (hc ▸ Bool.false_ne_true)
      · exact hhyphen h
    · obtain rfl := List.mem_singleton.mp hmem
      exact absurd hlast (hc ▸ Bool.false_ne_true)

theorem plainSegment_of_isSlug {slug : String} (h : IsSlug slug) : PlainSegment slug := by
  refine ⟨?_, notMem_of_isSlug h (by decide) (by decide)⟩
  obtain ⟨first, middle, last, htext, -⟩ := h
  rintro rfl
  cases htext

theorem segments_orgDetail {slug : String} (h : IsSlug slug) :
    segments ("/org/" ++ slug) = ["org", slug] := by
  unfold segments
  rw [String.toList_append]
  show (("org".toList ++ '/' :: slug.toList).splitOn '/').map String.ofList = _
  rw [List.splitOn_append_cons_self_of_not_mem (by decide),
    List.splitOn_eq_singleton (notMem_of_isSlug h (by decide) (by decide))]
  simp

theorem placeRank_orgDetail {slug : String} (h : IsSlug slug) :
    placeRank ("/org/" ++ slug) = 1 := by
  have hpage : pageOf ["org", slug] = .app (.orgDetail slug) := by
    simp [pageOf, (plainSegment_of_isSlug h).1]
  have hprotected : isProtected ("/org/" ++ slug) = true := by
    refine List.any_eq_true.mpr ⟨"/org", by decide, ?_⟩
    apply List.isPrefixOf_iff_prefix.mpr
    rw [String.toList_append]
    exact (by decide : "/org".toList <+: "/org/".toList).trans (List.prefix_append _ _)
  unfold placeRank
  rw [segments_orgDetail h, hprotected, hpage]
  rfl

/-! ### Where a request goes -/

theorem one_le_pageRank_app (page : AppPage) : 1 ≤ pageRank (.app page) := by
  cases page with
  | org | checkout | teamCheckout => exact Nat.le_succ 1
  | _ => exact Nat.le_refl 1

theorem pageRank_le_placeRank (path : String) :
    pageRank (pageOf (segments path)) ≤ placeRank path :=
  le_max_left _ _

/-- Where a page behind the locale `l` goes. -/
inductive GoesTo (l p : String) (m : Moment) : Url → Prop
  | login (query : List (String × String)) (hp : 1 ≤ placeRank p) :
      GoesTo l p m ⟨localized l "/login", query⟩
  | locale {user : AppUser} (huser : m.layoutUser = .ok user)
      (hmem : user.preferredLocale ∈ locales) (hne : user.preferredLocale ≠ l)
      (hp : 1 ≤ placeRank p) : GoesTo l p m ⟨localized user.preferredLocale p, []⟩
  | page {t : String} (hroot : Rooted t) (hplain : ∀ segment ∈ segments t, PlainSegment segment)
      (ht : placeRank t = 1) (hp : 2 ≤ placeRank p) : GoesTo l p m ⟨localized l t, []⟩

section

variable {l p : String} {m : Moment} {url : Url}

theorem goesTo_of_getCurrentUser (hl : l ∈ locales) (hroot : Rooted p) (hp : 1 ≤ placeRank p)
    {answer : Except String AppUser}
    (h : getCurrentUser (localized l p) answer = .error url) : GoesTo l p m url := by
  cases answer with
  | ok user => cases h
  | error rawCode =>
    cases h
    rw [getLocale_localized hl hroot]
    exact .login _ hp

theorem goesTo_of_appLayout (hl : l ∈ locales) (hroot : Rooted p) (hp : 1 ≤ placeRank p)
    (h : appLayout l (localized l p) m = .error url) : GoesTo l p m url := by
  rcases Loops.bind_eq_error.mp h with hlogin | ⟨user, huser, h⟩
  · exact goesTo_of_getCurrentUser hl hroot hp hlogin
  · split at h
    next hmoved =>
      cases h
      rw [stripLocalePrefix_localized hl hroot]
      refine .locale ?_ hmoved.1 hmoved.2 hp
      cases e : m.layoutUser with
      | ok u =>
        rw [e] at huser
        cases huser
        rfl
      | error rawCode =>
        rw [e] at huser
        cases huser
    · cases h

theorem goesTo_of_orgListPage (hp : 2 ≤ placeRank p) (h : orgListPage l m = .error url) :
    GoesTo l p m url := by
  unfold orgListPage at h
  split at h
  · cases h
    exact .page (by decide) (by decide) (by decide) hp
  next org _ =>
    cases h
    refine .page ?_ ?_ (placeRank_orgDetail org.property) hp
    · show ("/org/" ++ org.val).toList.head? = _
      rw [String.toList_append]
      rfl
    · rw [segments_orgDetail org.property]
      intro segment hmem
      rcases List.mem_cons.mp hmem with rfl | hmem
      · decide
      · rw [List.mem_singleton.mp hmem]
        exact plainSegment_of_isSlug org.property
  · cases h

theorem goesTo_of_planPage (hl : l ∈ locales) (hroot : Rooted p) (hp : 2 ≤ placeRank p)
    {context : PlanContext} {query : List (String × String)}
    (h : planPage context l ⟨localized l p, query⟩ m = .error url) : GoesTo l p m url := by
  rcases Loops.bind_eq_error.mp h with hlogin | ⟨user, -, h⟩
  · exact goesTo_of_getCurrentUser hl hroot ((Nat.le_succ 1).trans hp) hlogin
  · dsimp only at h
    split at h
    · cases h
      exact .page (by decide) (by decide) (by decide) hp
    · cases h

theorem goesTo_of_appPage (hl : l ∈ locales) (hroot : Rooted p)
    {query : List (String × String)} {page : AppPage} (hpage : pageOf (segments p) = .app page)
    (h : appPage l ⟨localized l p, query⟩ m page = .error url) : GoesTo l p m url := by
  have hp : pageRank (.app page) ≤ placeRank p := hpage ▸ pageRank_le_placeRank p
  cases page with
  | feature1 | feature2 => cases h
  | org => exact goesTo_of_orgListPage hp h
  | checkout | teamCheckout => exact goesTo_of_planPage hl hroot hp h
  | dashboard | orgDetail slug | profile | subscription =>
    rcases Loops.bind_eq_error.mp h with hlogin | ⟨user, -, h⟩
    · exact goesTo_of_getCurrentUser hl hroot hp hlogin
    · cases h

theorem race_eq_error {firstWins : Bool} {a b : Render Unit} (h : race firstWins a b = .error url) :
    a = .error url ∨ b = .error url := by
  unfold race at h
  split at h
  · cases firstWins with
    | true => exact Or.inl h
    | false => exact Or.inr h
  · exact Or.inl h
  · exact Or.inr h

/-- A render that redirects is the one of a page behind a locale. -/
theorem goesTo_of_render {url' : Url} (h : render url m = .error url') :
    ∃ l p, l ∈ locales ∧ Rooted p ∧ url.path = localized l p ∧ GoesTo l p m url' := by
  obtain ⟨path, query⟩ := url
  rcases e : segments path with - | ⟨l, segs⟩
  · simp only [render, route, e] at h
    cases h
  · by_cases hl : l ∈ locales
    · rcases segs with - | ⟨s, segs⟩
      · simp only [render, route, e, hl, if_true, pageOf_nil] at h
        cases h
      · obtain ⟨p, hroot, rfl, -⟩ := eq_localized_of_segments e
        refine ⟨l, p, hl, hroot, rfl, ?_⟩
        unfold render at h
        rw [route_localized hl hroot] at h
        have hplace : pageRank (pageOf (segments p)) ≤ placeRank p := pageRank_le_placeRank p
        rcases hpage : pageOf (segments p) with page | token | - | - | -
        all_goals rw [hpage] at h hplace
        · -- a page of the app, beside its layout
          rcases Loops.bind_eq_error.mp h with hrace | ⟨-, -, h⟩
          · have hp : 1 ≤ placeRank p := (one_le_pageRank_app page).trans hplace
            rcases race_eq_error hrace with hlayout | happ
            · exact goesTo_of_appLayout hl hroot hp hlayout
            · exact goesTo_of_appPage hl hroot hpage happ
          · cases h
        · rcases Loops.bind_eq_error.mp h with hgone | ⟨-, -, h⟩
          · unfold invitationPage at hgone
            split at hgone
            · cases hgone
              exact .page (by decide) (by decide) (by decide) hplace
            · cases hgone
          · cases h
        · cases h
          exact .login _ hplace
        · cases h
        · cases h
    · simp only [render, route, e, hl, if_false] at h
      cases h

end

/-- The preferred locale that the layout reads in the request. -/
def Moment.Reads (m : Moment) (preferred : String) : Prop :=
  ∀ user, m.layoutUser = .ok user → user.preferredLocale = preferred

theorem rank_lt_of_goesTo {preferred l p : String} {m : Moment} {url : Url} (hl : l ∈ locales)
    (hroot : Rooted p) (hm : m.Reads preferred) (h : GoesTo l p m url) :
    rank preferred url.path < rank preferred (localized l p) := by
  rw [rank_localized preferred hl hroot]
  cases h with
  | login query hp =>
    rw [rank_login preferred hl]
    split <;> omega
  | locale huser hmem hne hp =>
    have hread := hm _ huser
    rw [hread] at hmem hne ⊢
    rw [rank_localized preferred hmem hroot, if_neg fun h => h.2.2 rfl, if_pos ⟨hp, hmem, hne⟩]
    exact Nat.lt_succ_self _
  | page ht hplain hplace hp =>
    rw [rank_localized preferred hl ht, hplace]
    -- the locale stays, and so does what is due for it
    by_cases hmoved : preferred ∈ locales ∧ preferred ≠ l
    · rw [if_pos ⟨Nat.le_refl 1, hmoved⟩, if_pos ⟨(Nat.le_succ 1).trans hp, hmoved⟩]
      omega
    · rw [if_neg fun h => hmoved h.2, if_neg fun h => hmoved h.2]
      omega

/-! ### A chain -/

theorem isProtected_of_redirect {path : String} {c : Cookies} {now : Timestamp}
    {result : Option RefreshResult} (h : (proxyResponse path c now result).redirect = true) :
    isProtected (stripLocalePrefix path) = true := by
  unfold proxyResponse at h
  split at h
  · cases h
  · dsimp only at h
    generalize (if result.any RefreshResult.failed = true then none else c.access) = access at h
    split at h
    next hprotected => exact (Bool.and_eq_true_iff.mp hprotected).1
    · cases h

variable {intlMiddleware : Locale → String → Option String}

/-- What a redirect is due to: the session, the locale of the path, or the page. -/
theorem hop_cases {v w : Visit} {m : Moment} (h : hop intlMiddleware v m = some w) :
    (isProtected (stripLocalePrefix v.url.path) = true ∧
        w.url = ⟨localized (getLocale v.url.path) "/login", []⟩) ∨
      (∃ path, intlMiddleware m.detected v.url.path = some path ∧ w.url = ⟨path, v.url.query⟩) ∨
      intlMiddleware m.detected v.url.path = none ∧ render v.url m = .error w.url := by
  unfold hop at h
  split at h
  next url jar hresp =>
    cases h
    unfold respond at hresp
    dsimp only at hresp
    generalize (if m.lapsed = true then _ else v.jar) = lapsedJar at hresp
    split at hresp
    next hredirect =>
      cases hresp
      exact Or.inl ⟨isProtected_of_redirect hredirect, rfl⟩
    · split at hresp
      next path hpath =>
        cases hresp
        exact Or.inr (Or.inl ⟨path, hpath, rfl⟩)
      next hnone =>
        obtain ⟨hrender, -⟩ := Prod.mk.inj hresp
        exact Or.inr (Or.inr ⟨hnone, hrender⟩)
  · cases h

/-- Every redirect takes the rank of the path down. -/
theorem rank_lt_of_hop (hintl : LocalizesPaths intlMiddleware) {preferred : String} {v w : Visit}
    {m : Moment} (hm : m.Reads preferred) (h : hop intlMiddleware v m = some w) :
    rank preferred w.url.path < rank preferred v.url.path := by
  rcases hop_cases h with ⟨hprotected, hurl⟩ | ⟨path, hpath, hurl⟩ | ⟨-, hrender⟩
  · rw [hurl, rank_login preferred (getLocale_mem _)]
    unfold rank
    have hplace : 1 ≤ placeRank (stripLocalePrefix v.url.path) := by
      unfold placeRank
      rw [hprotected]
      exact le_max_right _ _
    split
    · dsimp only
      split <;> omega
    · decide
  · rw [hurl]
    have hlocalized := hintl.localizes _ _ _ hpath
    have hbare : ¬ (segments v.url.path).head?.any (· ∈ locales) := by
      intro hprefixed
      rw [hintl.keeps _ _ hprefixed] at hpath
      cases hpath
    have hrank : rank preferred v.url.path = 4 := by
      unfold rank
      rw [if_neg hbare]
    rw [hrank]
    exact Nat.lt_succ_of_le (rank_le_of_locale preferred hlocalized)
  · obtain ⟨l, p, hl, hroot, hurl, hgoes⟩ := goesTo_of_render hrender
    rw [hurl]
    exact rank_lt_of_goesTo hl hroot hm hgoes

theorem plainPath_login {l : String} (hl : l ∈ locales) : PlainPath (localized l "/login") :=
  plainPath_localized hl (by decide) (by decide)

/-- A redirect from a plain path leads to a plain path. -/
theorem plainPath_of_hop (hplain : KeepsPlain intlMiddleware) {v w : Visit} {m : Moment}
    (hv : PlainPath v.url.path) (h : hop intlMiddleware v m = some w) : PlainPath w.url.path := by
  rcases hop_cases h with ⟨-, hurl⟩ | ⟨path, hpath, hurl⟩ | ⟨-, hrender⟩
  · rw [hurl]
    exact plainPath_login (getLocale_mem _)
  · rw [hurl]
    exact hplain _ _ _ hpath hv
  · obtain ⟨l, p, hl, hroot, hurl, hgoes⟩ := goesTo_of_render hrender
    rw [hurl] at hv
    generalize w.url = url at hgoes
    cases hgoes with
    | login query hp => exact plainPath_login hl
    | locale huser hmem hne hp => exact plainPath_localized hmem hroot (hv.segments hl hroot)
    | page hroot' hsegs ht hp => exact plainPath_localized hl hroot' hsegs

/-- What an app page is shown with: the user that the layout has read, the
preferred locale in the path, and a session that the proxy has found or
refreshed. -/
structure InOrder (intlMiddleware : Locale → String → Option String) (preferred : String)
    (v : Visit) (m : Moment) : Prop where
  user : ∃ user, m.layoutUser = .ok user
  locale : preferred ∈ locales → getLocale v.url.path = preferred
  session : ∃ access, (respond intlMiddleware v m).2.access = some access ∧
    (isTokenExpired m.now access = false ∨ ∃ token, m.refresh = .ok access token)

theorem protectedPrefix_of_app {segs : List String} {page : AppPage} (h : pageOf segs = .app page) :
    ∃ first rest, segs = first :: rest ∧ "/" ++ first ∈ protectedPrefixes := by
  unfold pageOf at h
  split at h
  all_goals first
    | exact ⟨_, _, rfl, by decide⟩
    | cases h

theorem startsWith_of_segments {p first : String} {rest : List String}
    (h : segments p = first :: rest) : startsWith p ("/" ++ first) = true := by
  obtain ⟨r, hr⟩ := List.head?_eq_some_iff.mp (rooted_of_segments h)
  have hhead : (r.splitOn '/').head? = some first.toList := by
    unfold segments at h
    rw [hr] at h
    obtain ⟨seg, segs, hsplit, rfl, -⟩ := List.map_eq_cons_iff.mp h
    rw [hsplit, List.head?_cons, String.toList_ofList]
  have hpre : first.toList <+: r := by
    rcases splitOn_cases '/' r with ⟨-, hsplit⟩ | ⟨seg, t, -, rfl, hsplit⟩
    · rw [hsplit] at hhead
      exact Option.some.inj hhead ▸ List.prefix_refl r
    · rw [hsplit] at hhead
      exact Option.some.inj hhead ▸ List.prefix_append seg _
  apply List.isPrefixOf_iff_prefix.mpr
  rw [hr, String.toList_append]
  exact List.cons_prefix_cons.mpr ⟨rfl, hpre⟩

/-- The proxy protects every app page. -/
theorem isProtected_of_app {p : String} {page : AppPage} (h : pageOf (segments p) = .app page) :
    isProtected p = true := by
  obtain ⟨first, rest, hsegs, hmem⟩ := protectedPrefix_of_app h
  exact List.any_eq_true.mpr ⟨_, hmem, startsWith_of_segments hsegs⟩

/-- On a protected path the proxy lets a live session through and no other. -/
theorem session_of_proxyResponse {path : String} {c : Cookies} {now : Timestamp}
    {result : Option RefreshResult} (hprotected : isProtected (stripLocalePrefix path) = true)
    (h : (proxyResponse path c now result).redirect = false) :
    ∃ access, (c.apply (proxyResponse path c now result).cookies).access = some access ∧
      (isTokenExpired now access = false ∨ ∃ token, result = some (.ok access token)) := by
  have hpre : protectedPrefixes.any (startsWith (stripLocalePrefix path)) = true := hprotected
  unfold proxyResponse at h ⊢
  split at h
  next access token => exact ⟨access, rfl, Or.inr ⟨token, rfl⟩⟩
  · simp only [hpre, Bool.true_and] at h ⊢
    by_cases hrejected : result.any RefreshResult.failed = true
    · simp [hrejected] at h
    · simp only [hrejected, Bool.false_eq_true, if_false] at h ⊢
      split at h
      · cases h
      next hlive =>
        obtain ⟨access, haccess, hlive⟩ : ∃ access, c.access = some access ∧
            isTokenExpired now access = false := by
          cases e : c.access with
          | none => simp [e] at hlive
          | some access => exact ⟨access, rfl, by simpa [e] using hlive⟩
        refine ⟨access, ?_, Or.inl hlive⟩
        rw [haccess]
        simp [hlive, Cookies.apply, haccess]

theorem preferred_of_appLayout {l p preferred : String} {m : Moment} (hm : m.Reads preferred)
    (h : appLayout l p m = .ok ()) :
    (∃ user, m.layoutUser = .ok user) ∧ (preferred ∈ locales → l = preferred) := by
  obtain ⟨user, huser, h⟩ := Loops.bind_eq_ok.mp h
  have hlayout : m.layoutUser = .ok user := by
    cases e : m.layoutUser with
    | ok u =>
      rw [e] at huser
      cases huser
      rfl
    | error rawCode =>
      rw [e] at huser
      cases huser
  refine ⟨⟨user, hlayout⟩, fun hmem => ?_⟩
  split at h
  · cases h
  next hstays =>
    rw [← hm user hlayout] at hmem ⊢
    by_contra hne
    exact hstays ⟨hmem, fun heq => hne heq.symm⟩

/-- Without a redirect there is a page. -/
theorem shown_of_hop_none {v : Visit} {m : Moment} (h : hop intlMiddleware v m = none) :
    ∃ page, shown intlMiddleware v m = some page := by
  unfold hop at h
  split at h
  · cases h
  next page jar hresp =>
    refine ⟨page, ?_⟩
    unfold shown
    rw [hresp]
    rfl

theorem race_eq_ok {firstWins : Bool} {a b : Render Unit} (h : race firstWins a b = .ok ()) :
    a = .ok () := by
  unfold race at h
  split at h
  · cases h
  · cases h
  · rfl

/-- An app page is rendered behind a locale, beside its layout. -/
theorem app_of_render {url : Url} {m : Moment} {page : AppPage}
    (h : render url m = .ok (.app page)) :
    ∃ l p, l ∈ locales ∧ Rooted p ∧ url.path = localized l p ∧ pageOf (segments p) = .app page ∧
      appLayout l url.path m = .ok () := by
  obtain ⟨path, query⟩ := url
  rcases e : segments path with - | ⟨l, segs⟩
  · simp only [render, route, e] at h
    cases h
  · by_cases hl : l ∈ locales
    · rcases segs with - | ⟨s, segs⟩
      · simp only [render, route, e, hl, if_true, pageOf_nil] at h
        cases h
      · obtain ⟨p, hroot, rfl, -⟩ := eq_localized_of_segments e
        unfold render at h
        rw [route_localized hl hroot] at h
        rcases hpage : pageOf (segments p) with page' | token | - | - | -
        all_goals rw [hpage] at h
        · obtain ⟨⟨⟩, hrace, h⟩ := Loops.bind_eq_ok.mp h
          cases h
          exact ⟨l, p, hl, hroot, rfl, hpage, race_eq_ok hrace⟩
        · obtain ⟨-, -, h⟩ := Loops.bind_eq_ok.mp h
          cases h
        · cases h
        · cases h
        · cases h
    · simp only [render, route, e, hl, if_false] at h
      cases h

theorem inOrder_of_shown {preferred : String} {v : Visit} {m : Moment} {page : AppPage}
    (hm : m.Reads preferred) (h : shown intlMiddleware v m = some (.app page)) :
    InOrder intlMiddleware preferred v m := by
  unfold shown at h
  rcases hresp : respond intlMiddleware v m with ⟨url | page', jar⟩
  · rw [hresp] at h
    cases h
  · rw [hresp] at h
    obtain rfl := Option.some.inj h
    have hjar : (respond intlMiddleware v m).2 = jar := by rw [hresp]
    unfold respond at hresp
    dsimp only at hresp
    generalize (if m.lapsed = true then _ else v.jar) = lapsedJar at hresp
    split at hresp
    · cases hresp
    next hthrough =>
      split at hresp
      · cases hresp
      next hintl =>
        obtain ⟨hrender, rfl⟩ := Prod.mk.inj hresp
        obtain ⟨l, p, hl, hroot, hpath, hpage, hlayout⟩ := app_of_render hrender
        obtain ⟨huser, hlocale⟩ := preferred_of_appLayout hm hlayout
        have hprotected : isProtected (stripLocalePrefix v.url.path) = true := by
          rw [hpath, stripLocalePrefix_localized hl hroot]
          exact isProtected_of_app hpage
        obtain ⟨access, haccess, hlive⟩ :=
          session_of_proxyResponse hprotected (Bool.eq_false_iff.mpr hthrough)
        refine ⟨huser, fun hmem => ?_, access, ?_, ?_⟩
        · rw [hpath, getLocale_localized hl hroot]
          exact hlocale hmem
        · rw [hjar, haccess]
        · refine hlive.imp_right fun ⟨token, hresult⟩ => ⟨token, ?_⟩
          obtain ⟨-, -, hrefresh⟩ := Option.map_eq_some_iff.mp hresult
          exact hrefresh

/-- **Every chain of redirects ends.**  Whatever plain path a browser opens with
whatever cookies, and whatever the proxy, the layout and the pages are answered
from one request to the next: every redirect leads to a plain path, and while
the user's preferred locale stays what it is, a page is shown after at most four
redirects.  An app page is shown under that locale only, to a user that the
backend has answered for and with a live session. -/
theorem page_shown_within_four (hintl : LocalizesPaths intlMiddleware)
    (hplain : KeepsPlain intlMiddleware) (preferred : String)
    (ms : ℕ → Moment) (hms : ∀ n, (ms n).Reads preferred) (v : Visit) (hv : PlainPath v.url.path) :
    ∃ n ≤ 4, ∃ w page, Runs.run (hop intlMiddleware) v ((List.range n).map ms) = some w ∧
      Runs.Always (hop intlMiddleware) (fun w => PlainPath w.url.path) v ((List.range n).map ms) ∧
      shown intlMiddleware w (ms n) = some page ∧
      ∀ appPage', page = .app appPage' → InOrder intlMiddleware preferred w (ms n) := by
  obtain ⟨n, hn, w, hrun, hend⟩ := Runs.exists_stuck_of_decreases
    (fun v : Visit => rank preferred v.url.path)
    (fun _ n _ hhop => rank_lt_of_hop hintl (hms n) hhop) v
  obtain ⟨page, hpage⟩ := shown_of_hop_none hend
  have halways : Runs.Always (hop intlMiddleware) (fun w => PlainPath w.url.path) v
      ((List.range n).map ms) :=
    Runs.always_of_invariant (fun v m w hv hhop => plainPath_of_hop hplain hv hhop) hv _
  refine ⟨n, hn.trans (rank_le preferred _), w, page, hrun, halways, hpage, fun appPage' happ => ?_⟩
  exact inOrder_of_shown (hms n) (happ ▸ hpage)

/-- A middleware that puts the detected locale before every path without one. -/
def examplePrefixing (detected : Locale) (path : String) : Option String :=
  if (segments path).head?.any (· ∈ locales) then none
  else if path = "/" then some (localized detected.val "")
  else if Rooted path then some (localized detected.val path)
  else none

theorem examplePrefixing_localizes : LocalizesPaths examplePrefixing where
  keeps := by
    intro detected path h
    unfold examplePrefixing
    rw [if_pos h]
  localizes := by
    intro detected path path' h
    have hmem : ∀ rest, ((detected.val :: rest : List String).head?.any (· ∈ locales)) = true :=
      fun rest => by simp [detected.property]
    unfold examplePrefixing at h
    split at h
    · cases h
    · split at h
      · cases h
        rw [segments_bare (locales_slash _ detected.property)]
        exact hmem []
      · split at h
        next hroot =>
          cases h
          rw [segments_localized (locales_slash _ detected.property) hroot]
          exact hmem _
        · cases h

theorem examplePrefixing_keepsPlain : KeepsPlain examplePrefixing := by
  intro detected path path' h hpath
  unfold examplePrefixing at h
  split at h
  · cases h
  · split at h
    · cases h
      refine ⟨isUnmatched_localized detected.property "", Or.inr ?_⟩
      rw [segments_bare (locales_slash _ detected.property)]
      refine ⟨List.cons_ne_nil _ _, fun segment hmem => ?_⟩
      rw [List.mem_singleton.mp hmem]
      exact plainSegment_of_locale _ detected.property
    next hhome =>
      split at h
      next hroot =>
        cases h
        exact plainPath_localized detected.property hroot (hpath.plain.resolve_left hhome).2
      · cases h

/-- A request to `/org` with a session, of a user in German. -/
def exampleMoment : Moment where
  now := 0
  lapsed := false
  detected := ⟨"en", by decide⟩
  refresh := .unreachable
  layoutUser := .ok ⟨"de"⟩
  pageUser := .ok ⟨"de"⟩
  orgs := []
  plans := [⟨some "pro", .personal⟩]
  invitationStatus := 404
  layoutFirst := true

def exampleVisit : Visit := ⟨⟨"/org", []⟩, ⟨some ⟨some 900⟩, none⟩⟩

theorem page_shown_from_org :
    ∃ n ≤ 4, ∃ w page, Runs.run (hop examplePrefixing) exampleVisit
        ((List.range n).map fun _ => exampleMoment) = some w ∧
      Runs.Always (hop examplePrefixing) (fun w => PlainPath w.url.path) exampleVisit
        ((List.range n).map fun _ => exampleMoment) ∧
      shown examplePrefixing w exampleMoment = some page ∧
      ∀ appPage', page = .app appPage' → InOrder examplePrefixing "de" w exampleMoment :=
  page_shown_within_four examplePrefixing_localizes examplePrefixing_keepsPlain "de"
    (fun _ => exampleMoment) (fun _ _ huser => by cases huser; rfl) exampleVisit
    ⟨by decide, Or.inr (by decide)⟩

/-- Four redirects there may be: to the default locale, to the preferred one, to
the subscription, and to the login page when the user cannot be read any more. -/
example :
    (Runs.run (hop examplePrefixing) exampleVisit
        [exampleMoment, exampleMoment, exampleMoment,
          { exampleMoment with layoutUser := .error "NO_SESSION" }]).map Visit.url
      = some ⟨"/de/login", [("error", "NO_SESSION")]⟩ := by
  decide

end RedirectChains

end Saasmint
