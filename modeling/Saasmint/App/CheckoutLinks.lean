/-
Saasmint/App/CheckoutLinks.lean

The links that lead a visitor with a plan in mind to its checkout: the redirect
of `signIn` and the push of the page that verifies an address
(src/app/actions/auth.ts, VerifyEmailClient.tsx).  Both are a path under the
locale of the page with the plan in the query.

The layout of the app pages keeps the path of a request and not its query where
it moves a user to the preferred locale.  A link therefore ends on the checkout
of its plan exactly where the locale stays; else the checkout page finds no plan
and goes on to the page of the subscription (`checkout_link_ends`).
-/
import Saasmint.App.RedirectChains

namespace Saasmint

namespace RedirectChains

variable {intlMiddleware : Locale → String → Option String}

/-! ### The link to a checkout -/

def checkoutPath : PlanContext → String
  | .team => "/subscription/team-checkout"
  | .personal => "/subscription/checkout"

def checkoutLink (locale : String) (context : PlanContext) (plan : String) : Url :=
  ⟨localized locale (checkoutPath context), [("plan", plan)]⟩

/-- Where `signIn` redirects to.  A valid plan is the same text in a query. -/
def signInRedirect (resolvePlanRouting : String → Option PlanContext) (locale : String)
    (planField : Option String) : Url :=
  match planField.filter isValidPlanSlug with
  | none => ⟨localized locale "/dashboard", []⟩
  | some plan =>
    match resolvePlanRouting plan with
    | none => ⟨localized locale "/dashboard", []⟩
    | some context => checkoutLink locale context plan

/-- Where the page goes that has verified an e-mail address. -/
def verifyEmailPush (locale : String) : Option PendingPlan → Url
  | none => ⟨localized locale "/dashboard", []⟩
  | some pending => checkoutLink locale (if pending.isTeam then .team else .personal) pending.plan

/-- The two ways into a new session that lead to a checkout. -/
inductive Entry
  | signIn (planField : Option String)
  | verifyEmail (cookies : PlanCookies)
  deriving DecidableEq, Repr

def Entry.url (resolvePlanRouting : String → Option PlanContext) (locale : String) : Entry → Url
  | .signIn planField => signInRedirect resolvePlanRouting locale planField
  | .verifyEmail cookies => verifyEmailPush locale cookies.consumePendingPlan.2

theorem plan_valid_of_url {resolvePlanRouting : String → Option PlanContext} {locale plan : String}
    {context : PlanContext} {entry : Entry}
    (h : entry.url resolvePlanRouting locale = checkoutLink locale context plan) :
    isValidPlanSlug plan = true := by
  cases entry with
  | signIn planField =>
    change signInRedirect resolvePlanRouting locale planField = _ at h
    unfold signInRedirect at h
    split at h
    · cases congrArg Url.query h
    next plan' hvalid =>
      split at h
      · cases congrArg Url.query h
      · have hquery := congrArg Url.query h
        obtain rfl : plan' = plan := by
          simpa [checkoutLink] using hquery
        exact (Option.filter_eq_some_iff.mp hvalid).2
  | verifyEmail cookies =>
    change verifyEmailPush locale cookies.consumePendingPlan.2 = _ at h
    rcases e : cookies.consumePendingPlan.2 with - | pending
    · rw [e] at h
      cases congrArg Url.query h
    · rw [e] at h
      have hquery := congrArg Url.query h
      obtain rfl : pending.plan = plan := by
        simpa [verifyEmailPush, checkoutLink] using hquery
      unfold PlanCookies.consumePendingPlan at e
      split at e
      · cases e
      · split at e
        · cases e
        · dsimp only at e
          split at e
          next hvalid =>
            obtain rfl := Option.some.inj e
            exact hvalid
          · cases e

/-- What holds of a request of a user with a live session: the cookies, the user
that layout and page read, and the catalogue with the plan. -/
structure Steady (jar : Cookies) (preferred : String) (context : PlanContext) (plan : String)
    (m : Moment) : Prop where
  lapsed : m.lapsed = false
  live : ∃ access, jar.access = some access ∧ isTokenExpired m.now access = false
  layoutUser : m.layoutUser = .ok ⟨preferred⟩
  pageUser : m.pageUser = .ok ⟨preferred⟩
  offered : (m.plans.find? fun p => p.priceId = some plan).map CatalogPlan.context = some context

section

variable {jar : Cookies} {preferred plan l p : String} {context : PlanContext} {m : Moment}

/-- With a live session a path with a locale is rendered, and the cookies stay. -/
theorem respond_of_steady (hintl : LocalizesPaths intlMiddleware) (hl : l ∈ locales)
    (hroot : Rooted p) (hm : Steady jar preferred context plan m) (query : List (String × String)) :
    respond intlMiddleware ⟨⟨localized l p, query⟩, jar⟩ m
      = (render ⟨localized l p, query⟩ m, jar) := by
  obtain ⟨access, haccess, hlive⟩ := hm.live
  have hrefresh : tokenToRefresh (localized l p) jar m.now = none := by
    unfold tokenToRefresh
    rw [haccess, Option.all_some, hlive, Bool.and_false]
    rfl
  have hproxy : proxyResponse (localized l p) jar m.now none = ⟨false, .keep⟩ := by
    unfold proxyResponse
    simp [haccess, hlive]
  have hkeeps : intlMiddleware m.detected (localized l p) = none := by
    apply hintl.keeps
    rw [segments_localized (locales_slash l hl) hroot]
    simp [hl]
  unfold respond
  simp [hm.lapsed, hrefresh, hproxy, hkeeps, Cookies.apply]

theorem appLayout_of_steady (hm : Steady jar preferred context plan m) (path : String) :
    appLayout l path m
      = if preferred ∈ locales ∧ preferred ≠ l then
          .error ⟨localized preferred (stripLocalePrefix path), []⟩
        else .ok () := by
  unfold appLayout
  rw [hm.layoutUser]
  rfl

theorem planPage_of_offer (hm : Steady jar preferred context plan m) (hplan : plan ≠ "")
    (path : String) : planPage context l ⟨path, [("plan", plan)]⟩ m = .ok () := by
  obtain ⟨offer, hoffer, hcontext⟩ := Option.map_eq_some_iff.mp hm.offered
  have hparam : (searchParam "plan" [("plan", plan)]).filter (fun id => id ≠ "") = some plan := by
    show (some plan).filter _ = some plan
    simp [Option.filter, hplan]
  have hall : (some offer).all (fun p => decide (p.context ≠ context)) = false := by
    simp [hcontext]
  unfold planPage
  rw [hm.pageUser]
  show (if ((Option.filter (fun id => decide (id ≠ "")) (searchParam "plan" [("plan", plan)])).bind
    fun id => m.plans.find? fun p => p.priceId = some id).all _ = true then _ else _) = _
  rw [hparam, Option.bind_some, hoffer, hall]
  rfl

theorem planPage_without_plan (hm : Steady jar preferred context plan m) (path : String) :
    planPage context l ⟨path, []⟩ m = .error ⟨localized l "/subscription", []⟩ := by
  unfold planPage
  rw [hm.pageUser]
  rfl

/-- The checkout page of a context. -/
def checkoutOf : PlanContext → AppPage
  | .team => .teamCheckout
  | .personal => .checkout

theorem rooted_checkoutPath (context : PlanContext) : Rooted (checkoutPath context) := by
  cases context <;> decide

theorem pageOf_checkoutPath (context : PlanContext) :
    pageOf (segments (checkoutPath context)) = .app (checkoutOf context) := by
  cases context <;> decide

theorem appPage_checkoutOf (context : PlanContext) (l : String) (url : Url) (m : Moment) :
    appPage l url m (checkoutOf context) = planPage context l url m := by
  cases context <;> rfl

/-- The checkout page renders what its layout and the lookup of the plan let
through. -/
theorem render_checkoutPath (hl : l ∈ locales) (context : PlanContext)
    (query : List (String × String)) (m : Moment) :
    render ⟨localized l (checkoutPath context), query⟩ m
      = (race m.layoutFirst (appLayout l (localized l (checkoutPath context)) m)
          (planPage context l ⟨localized l (checkoutPath context), query⟩ m)).map
        fun _ => .app (checkoutOf context) := by
  unfold render
  rw [route_localized hl (rooted_checkoutPath context), pageOf_checkoutPath]
  dsimp only
  rw [appPage_checkoutOf]
  rcases race m.layoutFirst _ _ with url | _ <;> rfl

theorem hop_of_render_error {v : Visit} {url : Url}
    (h : respond intlMiddleware v m = (.error url, v.jar)) :
    hop intlMiddleware v m = some ⟨url, v.jar⟩ := by
  unfold hop
  rw [h]

theorem shown_of_render_ok {v : Visit} {page : Page}
    (h : respond intlMiddleware v m = (.ok page, v.jar)) :
    shown intlMiddleware v m = some page := by
  unfold shown
  rw [h]
  rfl

/-- A link to the checkout of a plan shows the checkout under the locale of the
link where that is not changed. -/
theorem shown_checkoutLink (hintl : LocalizesPaths intlMiddleware) (hl : l ∈ locales)
    (hplan : plan ≠ "") (hm : Steady jar preferred context plan m)
    (hstays : ¬ (preferred ∈ locales ∧ preferred ≠ l)) :
    shown intlMiddleware ⟨checkoutLink l context plan, jar⟩ m
      = some (.app (checkoutOf context)) := by
  apply shown_of_render_ok
  show respond intlMiddleware ⟨⟨localized l (checkoutPath context), _⟩, jar⟩ m = _
  rw [respond_of_steady hintl hl (rooted_checkoutPath context) hm, render_checkoutPath hl,
    appLayout_of_steady hm, if_neg hstays, planPage_of_offer hm hplan]
  rfl

/-- Under another locale the layout takes the path there, without its query. -/
theorem hop_checkoutLink (hintl : LocalizesPaths intlMiddleware) (hl : l ∈ locales)
    (hplan : plan ≠ "") (hm : Steady jar preferred context plan m)
    (hmoved : preferred ∈ locales ∧ preferred ≠ l) :
    hop intlMiddleware ⟨checkoutLink l context plan, jar⟩ m
      = some ⟨⟨localized preferred (checkoutPath context), []⟩, jar⟩ := by
  apply hop_of_render_error
  show respond intlMiddleware ⟨⟨localized l (checkoutPath context), _⟩, jar⟩ m = _
  rw [respond_of_steady hintl hl (rooted_checkoutPath context) hm, render_checkoutPath hl,
    appLayout_of_steady hm, if_pos hmoved, planPage_of_offer hm hplan,
    stripLocalePrefix_localized hl (rooted_checkoutPath context)]
  rfl

/-- Without a plan the checkout goes to the page of the subscription. -/
theorem hop_checkout_without_plan (hintl : LocalizesPaths intlMiddleware) (hl : l ∈ locales)
    (hm : Steady jar l context plan m) :
    hop intlMiddleware ⟨⟨localized l (checkoutPath context), []⟩, jar⟩ m
      = some ⟨⟨localized l "/subscription", []⟩, jar⟩ := by
  apply hop_of_render_error
  rw [respond_of_steady hintl hl (rooted_checkoutPath context) hm, render_checkoutPath hl,
    appLayout_of_steady hm, if_neg fun h => h.2 rfl, planPage_without_plan hm]
  rfl

theorem shown_subscription (hintl : LocalizesPaths intlMiddleware) (hl : l ∈ locales)
    (hm : Steady jar l context plan m) :
    shown intlMiddleware ⟨⟨localized l "/subscription", []⟩, jar⟩ m
      = some (.app .subscription) := by
  have hroot : Rooted "/subscription" := by decide
  have hpage : pageOf (segments "/subscription") = .app .subscription := by decide
  have hrender : render ⟨localized l "/subscription", []⟩ m = .ok (.app .subscription) := by
    unfold render
    rw [route_localized hl hroot, hpage]
    dsimp only
    rw [appLayout_of_steady hm, if_neg fun h => h.2 rfl]
    unfold appPage
    rw [hm.pageUser]
    rfl
  apply shown_of_render_ok
  rw [respond_of_steady hintl hl hroot hm, hrender]

end

/-- **Where a checkout link ends.**  The redirect of a sign-in, and the page that
has verified an address, lead to the checkout of the plan that was picked
exactly where the user has no other preferred locale; else the layout loses the
plan, and the visitor ends on the page of the subscription. -/
theorem checkout_link_ends (hintl : LocalizesPaths intlMiddleware)
    {resolvePlanRouting : String → Option PlanContext} {locale preferred plan : String}
    {context : PlanContext} {entry : Entry} {jar : Cookies} (hl : locale ∈ locales)
    (hlink : entry.url resolvePlanRouting locale = checkoutLink locale context plan)
    (ms : ℕ → Moment) (hms : ∀ n, Steady jar preferred context plan (ms n)) :
    ∃ n w page, Runs.run (hop intlMiddleware) ⟨entry.url resolvePlanRouting locale, jar⟩
        ((List.range n).map ms) = some w ∧
      shown intlMiddleware w (ms n) = some (.app page) ∧
      if preferred ∈ locales ∧ preferred ≠ locale then
        page = .subscription ∧ w.url = ⟨localized preferred "/subscription", []⟩
      else page = checkoutOf context ∧ w.url = entry.url resolvePlanRouting locale := by
  have hplan : plan ≠ "" := ne_empty_of_isValidPlanSlug (plan_valid_of_url hlink)
  rw [hlink]
  by_cases hmoved : preferred ∈ locales ∧ preferred ≠ locale
  · have hfirst := hop_checkoutLink hintl hl hplan (hms 0) hmoved
    have hsecond := hop_checkout_without_plan hintl hmoved.1 (hms 1)
    refine ⟨2, _, _, ?_, shown_subscription hintl hmoved.1 (hms 2), ?_⟩
    · show Runs.run _ _ [ms 0, ms 1] = _
      rw [Runs.run_cons, hfirst, Option.bind_some, Runs.run_cons, hsecond]
      rfl
    · rw [if_pos hmoved]
      exact ⟨rfl, rfl⟩
  · refine ⟨0, _, _, rfl, shown_checkoutLink hintl hl hplan (hms 0) hmoved, ?_⟩
    rw [if_neg hmoved]
    exact ⟨rfl, rfl⟩

theorem steady_example (jar : Cookies) (h : jar.access = some ⟨some 900⟩) :
    Steady jar "de" .personal "pro" exampleMoment :=
  ⟨rfl, ⟨_, h, rfl⟩, rfl, rfl, rfl⟩

/-- A visitor who has verified the address on the English pages loses the plan. -/
theorem checkout_link_loses_plan :
    ∃ n w page, Runs.run (hop examplePrefixing)
        ⟨(Entry.verifyEmail ⟨some "pro", none⟩).url (fun _ => none) "en", exampleVisit.jar⟩
        ((List.range n).map fun _ => exampleMoment) = some w ∧
      shown examplePrefixing w exampleMoment = some (.app page) ∧
      page = .subscription ∧ w.url = ⟨"/de/subscription", []⟩ := by
  have hlink : (Entry.verifyEmail ⟨some "pro", none⟩).url (fun _ => none) "en"
      = checkoutLink "en" .personal "pro" := by decide
  obtain ⟨n, w, page, hrun, hshown, hend⟩ :=
    checkout_link_ends examplePrefixing_localizes (by decide) hlink (fun _ => exampleMoment)
      (fun _ => steady_example exampleVisit.jar rfl)
  rw [if_pos (by decide)] at hend
  exact ⟨n, w, page, hrun, hshown, hend⟩

end RedirectChains

end Saasmint
