/-
Saasmint/App/PageRequests.lean

A request for a page of the app, from the proxy to what is rendered.  The proxy
(src/proxy.ts) sends a visitor without a session to the login page, the
middleware of the locales gives each path its locale, the layout of the app
pages (src/app/[locale]/(app)/layout.tsx) moves a user to the preferred locale,
and pages send a visitor on (the list of one organization, a checkout without a
plan, an invitation that is gone).

Layout and page render at the same time, so that either redirect may win.
`respond` is the response to a request, `hop` the request that its redirect
leads to.  What a request meets outside of the app is a `Moment`.

The requests are for plain paths (`PlainPath`), which Next routes as the proxy
reads them: it decodes other ones before it looks for their page, and redirects
by itself one that ends with a slash.
-/
import Saasmint.App.LocalePaths
import Saasmint.Orgs.Slugs
import Saasmint.Users.PendingPlan

namespace Saasmint

namespace RedirectChains

open JsStr

/-! ### The pages -/

/-- The path of a request, as the browser sends it, and its query, decoded. -/
structure Url where
  path : String
  query : List (String × String)
  deriving DecidableEq, Repr

/-- The pages under `(app)`. -/
inductive AppPage
  | dashboard
  | feature1
  | feature2
  | org
  | orgDetail (slug : String)
  | profile
  | subscription
  | checkout
  | teamCheckout
  deriving DecidableEq, Repr

inductive Page
  | app (page : AppPage)
  | invitation (token : String)
  | authError
  /-- A page of the other groups: none of them redirects. -/
  | other
  | notFound
  deriving DecidableEq, Repr

def segments (pathname : String) : List String :=
  match pathname.toList with
  | '/' :: rest => (rest.splitOn '/').map String.ofList
  | _ => []

/-- The pages under `[locale]`, by the segments behind the locale. -/
def pageOf : List String → Page
  | ["dashboard"] => .app .dashboard
  | ["feature1"] => .app .feature1
  | ["feature2"] => .app .feature2
  | ["org"] => .app .org
  | ["org", ""] => .notFound
  | ["org", slug] => .app (.orgDetail slug)
  | ["profile"] => .app .profile
  | ["subscription"] => .app .subscription
  | ["subscription", "checkout"] => .app .checkout
  | ["subscription", "team-checkout"] => .app .teamCheckout
  | ["invitations", ""] => .notFound
  | ["invitations", token] => .invitation token
  | ["auth", "error"] => .authError
  | [] => .other
  | ["about"] | ["blog"] | ["contact"] | ["cookies"] => .other
  | ["pricing"] | ["privacy"] | ["terms"] => .other
  | ["forgot-password"] | ["login"] | ["reset-password"] | ["signup"] | ["verify-email"] => .other
  | ["auth", "callback"] | ["auth", "confirm-link"] | ["auth", "link-email-sent"] => .other
  | _ => .notFound

theorem pageOf_nil : pageOf [] = .other := rfl

/-- The locale of a route and its page; the layout of the locales knows no other
first segment. -/
def route (pathname : String) : String × Page :=
  match segments pathname with
  | [] => ("", .notFound)
  | locale :: rest => (locale, if locale ∈ locales then pageOf rest else .notFound)

/-- `getLocale`, on the path that the proxy forwards. -/
def getLocale (pathname : String) : String :=
  match segments pathname with
  | [] => "en"
  | segment :: _ => if segment ∈ locales then segment else "en"

/-! ### What a request meets -/

abbrev Locale := { locale : String // locale ∈ locales }

structure AppUser where
  preferredLocale : String
  deriving DecidableEq, Repr

/-- A plan of the catalogue as the checkout pages read it. -/
structure CatalogPlan where
  priceId : Option String
  context : PlanContext
  deriving DecidableEq, Repr

/-- What a request meets outside of the app: the clock and the browser, the
locale that the middleware detects, and the answers of the backend. -/
structure Moment where
  now : Timestamp
  /-- The cookie of the access token has run out. -/
  lapsed : Bool
  detected : Locale
  refresh : RefreshResult
  /-- The user that the layout reads, or the code of the failure. -/
  layoutUser : Except String AppUser
  pageUser : Except String AppUser
  /-- The slugs of the user's organizations; empty where the list fails. -/
  orgs : List { slug : String // IsSlug slug }
  /-- The plans; empty where the list fails. -/
  plans : List CatalogPlan
  /-- The status of the request for the invitation. -/
  invitationStatus : Nat
  /-- The redirect of the layout is followed where the page has one too. -/
  layoutFirst : Bool

/-! ### Rendering -/

/-- `redirect` throws, so that a render ends with what it shows or where it
goes. -/
abbrev Render := Except Url

def localized (locale path : String) : String := "/" ++ locale ++ path

def loginErrorCodes : List String :=
  ["NO_SESSION", "BACKEND_REJECTED", "UNAUTHENTICATED", "email_not_verified", "token_expired",
   "account_deactivated", "account_deleted", "oauth_error", "oauth_email_unverified_collision"]

def getCurrentUser (pathname : String) : Except String AppUser → Render AppUser
  | .ok user => .ok user
  | .error rawCode =>
    let code := if rawCode ∈ loginErrorCodes then rawCode else "UNAUTHENTICATED"
    .error ⟨localized (getLocale pathname) "/login", [("error", code)]⟩

/-- The layout of the app pages. -/
def appLayout (locale pathname : String) (m : Moment) : Render Unit := do
  let user ← getCurrentUser pathname m.layoutUser
  if user.preferredLocale ∈ locales ∧ user.preferredLocale ≠ locale then
    throw ⟨localized user.preferredLocale (stripLocalePrefix pathname), []⟩

def orgListPage (locale : String) (m : Moment) : Render Unit :=
  match m.orgs with
  | [] => throw ⟨localized locale "/subscription", []⟩
  | [org] => throw ⟨localized locale ("/org/" ++ org.val), []⟩
  | _ => pure ()

/-- A query parameter; one that is given twice is an array, which no text is
equal to. -/
def searchParam (key : String) (query : List (String × String)) : Option String :=
  match query.filter fun p => p.1 = key with
  | [p] => some p.2
  | _ => none

/-- What the two checkout pages share: the user, and a plan of the context with
the price of the query. -/
def planPage (context : PlanContext) (locale : String) (url : Url) (m : Moment) : Render Unit := do
  let _ ← getCurrentUser url.path m.pageUser
  let planPriceId := (searchParam "plan" url.query).filter fun id => id ≠ ""
  let plan := planPriceId.bind fun id => m.plans.find? fun p => p.priceId = some id
  if plan.all fun p => p.context ≠ context then
    throw ⟨localized locale "/subscription", []⟩

def checkoutPage : String → Url → Moment → Render Unit := planPage .personal

def teamCheckoutPage : String → Url → Moment → Render Unit := planPage .team

def appPage (locale : String) (url : Url) (m : Moment) : AppPage → Render Unit
  | .dashboard | .orgDetail _ | .profile | .subscription => do
    let _ ← getCurrentUser url.path m.pageUser
  | .feature1 | .feature2 => pure ()
  | .org => orgListPage locale m
  | .checkout => checkoutPage locale url m
  | .teamCheckout => teamCheckoutPage locale url m

def invitationPage (locale : String) (m : Moment) : Render Unit :=
  if m.invitationStatus = 404 then throw ⟨localized locale "/dashboard", []⟩ else pure ()

def loginPassthrough : List String :=
  ["email_not_verified", "account_deactivated", "oauth_email_unverified_collision"]

def authErrorPage (locale : String) (url : Url) : Render Unit :=
  let code := ((searchParam "error" url.query).filter (· ∈ loginPassthrough)).getD "oauth_error"
  throw ⟨localized locale "/login", [("error", code)]⟩

/-- Two renders at the same time. -/
def race (firstWins : Bool) : Render Unit → Render Unit → Render Unit
  | .error a, .error b => .error (if firstWins then a else b)
  | .error a, .ok _ => .error a
  | .ok _, second => second

def render (url : Url) (m : Moment) : Render Page :=
  let (locale, page) := route url.path
  match page with
  | .app appPage' => do
    race m.layoutFirst (appLayout locale url.path m) (appPage locale url m appPage')
    return page
  | .invitation _ => do
    invitationPage locale m
    return page
  | .authError => do
    authErrorPage locale url
    return page
  | .other | .notFound => return page

/-! ### A request -/

/-- A request of the browser: where it goes, and the cookies. -/
structure Visit where
  url : Url
  jar : Cookies
  deriving DecidableEq, Repr

variable (intlMiddleware : Locale → String → Option String)

/-- What the middleware of the locales is documented to do: it redirects no path
that has a locale, and where it redirects it gives the path one. -/
structure LocalizesPaths : Prop where
  keeps : ∀ detected path, (segments path).head?.any (· ∈ locales) →
    intlMiddleware detected path = none
  localizes : ∀ detected path path', intlMiddleware detected path = some path' →
    (segments path').head?.any (· ∈ locales)

/-- The response to a request for a plain path, and the cookies after it. -/
def respond (v : Visit) (m : Moment) : Render Page × Cookies :=
  let jar := if m.lapsed then { v.jar with access := none } else v.jar
  let result := (tokenToRefresh v.url.path jar m.now).map fun _ => m.refresh
  let response := proxyResponse v.url.path jar m.now result
  let jar := jar.apply response.cookies
  if response.redirect then
    (throw ⟨localized (getLocale v.url.path) "/login", []⟩, jar)
  else
    match intlMiddleware m.detected v.url.path with
    | some path => (throw ⟨path, v.url.query⟩, jar)
    | none => (render v.url m, jar)

/-- The request that follows a redirect. -/
def hop (v : Visit) (m : Moment) : Option Visit :=
  match respond intlMiddleware v m with
  | (.error url, jar) => some ⟨url, jar⟩
  | (.ok _, _) => none

/-- The page that a response shows. -/
def shown (v : Visit) (m : Moment) : Option Page :=
  (respond intlMiddleware v m).1.toOption

/-! ### Paths with a locale -/

theorem locales_slash : ∀ l ∈ locales, '/' ∉ l.toList := by decide

/-- The path behind the locale starts with a slash. -/
def Rooted (path : String) : Prop := path.toList.head? = some '/'

instance (path : String) : Decidable (Rooted path) :=
  inferInstanceAs (Decidable (path.toList.head? = some '/'))

theorem toList_localized (l p : String) :
    (localized l p).toList = '/' :: (l.toList ++ p.toList) := by
  show ("/" ++ l ++ p).toList = _
  rw [String.toList_append, String.toList_append]
  rfl

theorem segments_localized {l p : String} (hl : '/' ∉ l.toList) (hp : Rooted p) :
    segments (localized l p) = l :: segments p := by
  obtain ⟨r, hr⟩ := List.head?_eq_some_iff.mp hp
  unfold segments
  rw [toList_localized, hr]
  show ((l.toList ++ '/' :: r).splitOn '/').map String.ofList
    = l :: (r.splitOn '/').map String.ofList
  rw [List.splitOn_append_cons_self_of_not_mem hl r, List.map_cons, String.ofList_toList]

theorem segments_bare {l : String} (hl : '/' ∉ l.toList) : segments (localized l "") = [l] := by
  unfold segments
  rw [toList_localized]
  show ((l.toList ++ []).splitOn '/').map String.ofList = [l]
  rw [List.append_nil, List.splitOn_eq_singleton hl, List.map_singleton, String.ofList_toList]

/-- A path with a second segment is its first one before a rooted path. -/
theorem eq_localized_of_segments {path l s : String} {segs : List String}
    (h : segments path = l :: s :: segs) :
    ∃ p, Rooted p ∧ path = localized l p ∧ segments p = s :: segs := by
  unfold segments at h
  split at h
  next rest hpath =>
    rcases splitOn_cases '/' rest with ⟨-, hsplit⟩ | ⟨seg, r, -, rfl, hsplit⟩
    · rw [hsplit] at h
      cases h
    · rw [hsplit, List.map_cons] at h
      obtain ⟨rfl, hsegs⟩ := List.cons.inj h
      refine ⟨String.ofList ('/' :: r), ?_, ?_, ?_⟩
      · show (String.ofList ('/' :: r)).toList.head? = _
        rw [String.toList_ofList, List.head?_cons]
      · apply String.toList_injective
        rw [toList_localized, hpath, String.toList_ofList, String.toList_ofList]
      · unfold segments
        rw [String.toList_ofList]
        exact hsegs
  · cases h

theorem rooted_of_segments {p s : String} {segs : List String} (h : segments p = s :: segs) :
    Rooted p := by
  unfold segments at h
  split at h
  next hp => exact List.head?_eq_some_iff.mpr ⟨_, hp⟩
  · cases h

/-- The locale comes off as it was put on. -/
theorem stripLocalePrefix_localized {l p : String} (hl : l ∈ locales) (hp : Rooted p) :
    stripLocalePrefix (localized l p) = p := by
  obtain ⟨r, hr⟩ := List.head?_eq_some_iff.mp hp
  have hjs : js p = slash :: utf16 r := by
    show utf16 p.toList = _
    rw [hr, utf16_cons]
    rfl
  have hpath : js (localized l p) = slash :: (js l ++ slash :: utf16 r) := by
    show js ("/" ++ l ++ p) = _
    rw [js_append, js_append, js_slash, hjs]
    rfl
  have hslash : ∀ l ∈ Routing.locales, slash ∉ l := by decide
  have hmem : js l ∈ Routing.locales := List.mem_map_of_mem hl
  have hne : js l ≠ [] := by
    have h : ∀ l ∈ Routing.locales, l ≠ [] := by decide
    exact h _ hmem
  have hhead : ((js l ++ slash :: utf16 r).splitOn slash).head? = some (js l) := by
    rw [List.splitOn_append_cons_self_of_not_mem (hslash _ hmem), List.head?_cons]
  apply js_injective
  rw [js_stripLocalePrefix, hpath, hjs]
  unfold Routing.stripLocalePrefix
  rw [find_locale hslash hhead, if_pos hmem]
  have hdrop : (slash :: (js l ++ slash :: utf16 r)).drop ((js l).length + 1)
      = slash :: utf16 r := by
    rw [List.drop_succ_cons, List.drop_left]
  simp only [hne, if_false, hdrop, List.cons_ne_nil]

theorem route_localized {l p : String} (hl : l ∈ locales) (hp : Rooted p) :
    route (localized l p) = (l, pageOf (segments p)) := by
  unfold route
  rw [segments_localized (locales_slash l hl) hp]
  simp only [hl, if_true]

theorem getLocale_mem (path : String) : getLocale path ∈ locales := by
  unfold getLocale
  split
  · decide
  · split
    next h => exact h
    · decide

theorem getLocale_localized {l p : String} (hl : l ∈ locales) (hp : Rooted p) :
    getLocale (localized l p) = l := by
  unfold getLocale
  rw [segments_localized (locales_slash l hl) hp]
  simp only [hl, if_true]

/-! ### Plain paths -/

/-- What the matcher of the proxy leaves out, behind the first slash; a dot
stands for any character. -/
def unmatchedPrefixes : List String :=
  ["_next/static", "_next/image", "favicon.ico", "icon.svg", "api"]

def isUnmatched (path : String) : Bool :=
  unmatchedPrefixes.any fun pattern =>
    pattern.length < path.length &&
      (pattern.toList.zip (path.toList.drop 1)).all fun (p, c) => p = '.' || p = c

/-- No percent sign, which would stand for another character. -/
def PlainSegment (segment : String) : Prop := segment ≠ "" ∧ '%' ∉ segment.toList

instance (segment : String) : Decidable (PlainSegment segment) :=
  inferInstanceAs (Decidable (_ ∧ _))

/-- A path that the proxy sees, and that Next neither decodes to another one nor
redirects. -/
structure PlainPath (path : String) : Prop where
  matched : isUnmatched path = false
  plain : path = "/" ∨ segments path ≠ [] ∧ ∀ segment ∈ segments path, PlainSegment segment

/-- The middleware of the locales puts a locale before a path or changes the one
there is: what it makes of a plain path is plain. -/
def KeepsPlain : Prop :=
  ∀ detected path path', intlMiddleware detected path = some path' → PlainPath path →
    PlainPath path'

/-- No locale starts as something that the matcher leaves out. -/
theorem unmatchedPrefixes_differ : ∀ l ∈ locales, 2 ≤ l.toList.length ∧
    ∀ pattern ∈ unmatchedPrefixes,
      ((pattern.toList.take 2).zip (l.toList.take 2)).all (fun (p, c) => p = '.' || p = c)
        = false := by
  decide

/-- What is behind a locale is matched. -/
theorem isUnmatched_localized {l : String} (hl : l ∈ locales) (p : String) :
    isUnmatched (localized l p) = false := by
  obtain ⟨hlength, hdiffer⟩ := unmatchedPrefixes_differ l hl
  unfold isUnmatched
  rw [List.any_eq_false]
  intro pattern hpattern hmatch
  have hall := (Bool.and_eq_true_iff.mp hmatch).2
  rw [toList_localized, List.drop_succ_cons, List.drop_zero] at hall
  have htake : (pattern.toList.take 2).zip (l.toList.take 2)
      = (pattern.toList.zip (l.toList ++ p.toList)).take 2 := by
    unfold List.zip
    rw [List.take_zipWith, List.take_append_of_le_length hlength]
  refine Bool.eq_false_iff.mp (hdiffer pattern hpattern) ?_
  rw [htake, List.all_eq_true]
  exact fun pair hmem => List.all_eq_true.mp hall pair (List.mem_of_mem_take hmem)

theorem plainSegment_of_locale : ∀ l ∈ locales, PlainSegment l := by decide

/-- A locale before a plain path. -/
theorem plainPath_localized {l p : String} (hl : l ∈ locales) (hp : Rooted p)
    (hplain : ∀ segment ∈ segments p, PlainSegment segment) : PlainPath (localized l p) where
  matched := isUnmatched_localized hl p
  plain := by
    right
    rw [segments_localized (locales_slash l hl) hp]
    refine ⟨List.cons_ne_nil _ _, fun segment hmem => ?_⟩
    rcases List.mem_cons.mp hmem with rfl | hmem
    · exact plainSegment_of_locale segment hl
    · exact hplain segment hmem

/-- What follows the locale of a plain path. -/
theorem PlainPath.segments {l p : String} (h : PlainPath (localized l p)) (hl : l ∈ locales)
    (hp : Rooted p) : ∀ segment ∈ RedirectChains.segments p, PlainSegment segment := by
  have hsegs := segments_localized (locales_slash l hl) hp
  rcases h.plain with hroot | ⟨-, hplain⟩
  · rw [hroot] at hsegs
    have hlen := congrArg List.head? hsegs
    have hempty : l = "" := by
      rw [List.head?_cons] at hlen
      exact (Option.some.inj hlen).symm
    exact absurd hempty (plainSegment_of_locale l hl).1
  · rw [hsegs] at hplain
    exact fun segment hmem => hplain segment (List.mem_cons_of_mem _ hmem)

end RedirectChains

end Saasmint
