/-
Saasmint/Billing/CheckoutSessions.lean

The two views that start a checkout (`CheckoutSessionView` and
`ProductCheckoutSessionView` of apps/billing/views.py) and the session builders
of saasmint_core/services/billing.py, with the session as
`checkout.session.completed` brings it back.

What the views put on a session is texts under keys, and what the webhook
handlers make of it is values.  `team_checkout_roundtrip` and
`product_checkout_roundtrip` say that these are the values the views had.

The checks of the redirect URLs are left out; the customer has been found or
created at Stripe.
-/
import Saasmint.Billing.PlanChange
import Saasmint.Lib.Loops

namespace Saasmint

open PyStr

variable (u : UnicodeTables)

/-- An id that Stripe gives out. -/
structure StripeId where
  text : String
  nonempty : text ≠ ""
  deriving DecidableEq

/-- A UUID has 128 bits. -/
def IsUuid (id : UUID) : Prop := id < 2 ^ 128

/-! ### Sessions -/

/-- What `stripe.checkout.Session.create` is called with. -/
structure SessionParams where
  customer : StripeId
  clientReferenceId : String
  mode : String
  price : String
  quantity : Int
  locale : String
  successUrl : String
  cancelUrl : String
  adaptivePricing : Bool
  trialPeriodDays : Option Int
  metadata : Option (List (String × String))
  deriving DecidableEq

/-- The URLs of a request, which a session takes over as they are. -/
structure SessionLinks where
  successUrl : String
  cancelUrl : String
  deriving DecidableEq, Repr

/-- `create_checkout_session`. -/
def createCheckoutSession (customer : StripeId) (priceId clientReferenceId billingCurrency : String)
    (quantity : Int) (locale : String) (links : SessionLinks) (trialPeriodDays : Option Int)
    (metadata : Option (List (String × String))) : SessionParams where
  customer := customer
  clientReferenceId := clientReferenceId
  mode := "subscription"
  price := priceId
  quantity := quantity
  locale := locale
  successUrl := links.successUrl
  cancelUrl := links.cancelUrl
  adaptivePricing := billingCurrency = "usd"
  trialPeriodDays := trialPeriodDays
  metadata := metadata

/-- `create_product_checkout_session`. -/
def createProductCheckoutSession (customer : StripeId)
    (priceId clientReferenceId billingCurrency locale : String) (links : SessionLinks)
    (metadata : Option (List (String × String))) : SessionParams where
  customer := customer
  clientReferenceId := clientReferenceId
  mode := "payment"
  price := priceId
  quantity := 1
  locale := locale
  successUrl := links.successUrl
  cancelUrl := links.cancelUrl
  adaptivePricing := billingCurrency = "usd"
  trialPeriodDays := none
  metadata := metadata

/-- The keys that the handlers read. -/
def SessionMetadata.ofDict (d : List (String × String)) : SessionMetadata where
  orgName := d.lookup "org_name"
  keepPersonalSubscription := d.lookup "keep_personal_subscription"
  productId := d.lookup "product_id"
  orgId := d.lookup "org_id"

/-- The completed session, with what Stripe adds to it. -/
def SessionParams.completed (p : SessionParams) (id : StripeId) (subscription : Option String)
    (livemode : Bool) : SessionData where
  id := some id.text
  mode := some p.mode
  metadata := .ofDict (p.metadata.getD [])
  clientReferenceId := some p.clientReferenceId
  customer := some p.customer.text
  subscription := subscription
  livemode := livemode

/-! ### Requests -/

/-- The body of a plan checkout. -/
structure CheckoutBody where
  planPriceId : UUID
  seatLimit : Option Int
  trialPeriodDays : Option Int
  orgName : Option String
  keepPersonalSubscription : Option Bool
  links : SessionLinks
  deriving DecidableEq, Repr

/-- A body that the serializer has accepted, with its defaults. -/
structure CheckoutData where
  planPriceId : UUID
  seatLimit : Int
  trialPeriodDays : Option Int
  orgName : Option String
  keepPersonalSubscription : Bool
  links : SessionLinks
  deriving DecidableEq, Repr

/-- A field that may be left out. -/
def validateOptional {α β : Type} (validate : α → Except ServiceError β) :
    Option α → Except ServiceError (Option β)
  | none => .ok none
  | some value => (validate value).map some

/-- An `IntegerField` with bounds. -/
def validateInteger (field : String) (minValue maxValue value : Int) : Except ServiceError Int :=
  if value < minValue then
    .error (.validation (some field)
      ("Ensure this value is greater than or equal to " ++ toString minValue ++ "."))
  else if value > maxValue then
    .error (.validation (some field)
      ("Ensure this value is less than or equal to " ++ toString maxValue ++ "."))
  else .ok value

/-- `CharField(max_length=255)`: the text without surrounding white space. -/
def validateOrgName (value : String) : Except ServiceError String :=
  let value := strip u value
  if value = "" then .error (.validation (some "org_name") "This field may not be blank.")
  else if value.length > 255 then
    .error (.validation (some "org_name") "Ensure this field has no more than 255 characters.")
  else if value.toList.any fun c => c.toNat = 0 then
    .error (.validation (some "org_name") "Null characters are not allowed.")
  else .ok value

/-- `CheckoutRequestSerializer`. -/
def CheckoutBody.validate (body : CheckoutBody) : Except ServiceError CheckoutData := do
  let seatLimit ← validateInteger "seat_limit" 1 10000 (body.seatLimit.getD 1)
  let trialPeriodDays ← validateOptional (validateInteger "trial_period_days" 1 90)
      body.trialPeriodDays
  let orgName ← validateOptional (validateOrgName u) body.orgName
  return ⟨body.planPriceId, seatLimit, trialPeriodDays, orgName,
    body.keepPersonalSubscription.getD false, body.links⟩

/-- The body of a product checkout. -/
structure ProductCheckoutBody where
  productPriceId : UUID
  links : SessionLinks
  deriving DecidableEq, Repr

/-- `_validate_team_checkout`: the name of the organization. -/
def validateTeamCheckout (members : List OrgMember) (user : UUID) (data : CheckoutData) :
    Except ServiceError String :=
  if members.any fun m => m.user = user && m.role = .owner then .error .orgAlreadyOwned
  else match data.orgName with
    | none => .error (.validation (some "org_name") "Required for team plans.")
    | some name => .ok name

/-- `_build_checkout_metadata`, for a team. -/
def buildCheckoutMetadata (orgName : String) (keepPersonalSubscription : Bool) :
    List (String × String) :=
  [("org_name", orgName),
   ("keep_personal_subscription", if keepPersonalSubscription then "true" else "false")]

/-- `_resolve_product_purchase_context`: the organization that buys, if one does. -/
def resolveProductPurchaseContext (members : List OrgMember) (user : UUID)
    (context : Option PlanContext) : Except ServiceError (Option UUID) :=
  let membership := (members.filter fun m => m.user = user).argmin OrgMember.id
  match context.getD (if membership.isSome then .team else .personal) with
  | .personal => .ok none
  | .team =>
    match membership with
    | none => .error (.validation (some "context") "Only org members can purchase team credits.")
    | some m =>
      if m.role ≠ .owner then
        .error (.permissionDenied "Only the org owner can purchase credits for the team.")
      else .ok (some m.org)

/-! ### Views -/

variable (t : CatalogTables) (st : Settings) (members : List OrgMember)

/-- `_get_active_plan_price`, with the row. -/
def loadPlanPrice (planPriceId : UUID) (currency : String) :
    Except ServiceError (PlanPrice × LoadedPrice) :=
  match getActivePlanPrice t planPriceId (some currency) with
  | some ⟨.plan pp, rows⟩ => .ok (pp, ⟨.plan pp, rows⟩)
  | _ => .error (.notFound "Invalid plan price.")

/-- `_get_active_product_price`, with the row. -/
def loadProductPrice (productPriceId : UUID) (currency : String) :
    Except ServiceError (ProductPrice × LoadedPrice) :=
  match getActiveProductPrice t productPriceId (some currency) with
  | some ⟨.product pp, rows⟩ => .ok (pp, ⟨.product pp, rows⟩)
  | _ => .error (.notFound "Invalid product price.")

/-- `CheckoutSessionView.post`: the call of Stripe that it ends in. -/
def CheckoutSessionView.post (user : UUID) (prefs : UserPreferences) (req : Request)
    (body : CheckoutBody) (customer : StripeId) : Except ServiceError SessionParams := do
  let data ← body.validate u
  let (currency, _) ← priceCheck (resolveBillingCurrency u st req.queryCurrency (some prefs))
  let (pp, lp) ← loadPlanPrice t data.planPriceId currency
  let context ← require (t.planContext pp.planId) (.notFound "Plan matching query does not exist.")
  validateQuantityForContext context data.seatLimit
  let (priceId, billingCurrency) ← priceCheck (resolveCheckoutPrice u t st lp req (some prefs))
  match context with
  | .team =>
    let orgName ← validateTeamCheckout members user data
    return createCheckoutSession customer priceId (uuidText user) billingCurrency data.seatLimit
      prefs.preferredLocale data.links none
      (some (buildCheckoutMetadata orgName data.keepPersonalSubscription))
  | .personal =>
    return createCheckoutSession customer priceId (uuidText user) billingCurrency data.seatLimit
      prefs.preferredLocale data.links data.trialPeriodDays none

/-- `ProductCheckoutSessionView.post`: the call of Stripe that it ends in. -/
def ProductCheckoutSessionView.post (user : UUID) (prefs : UserPreferences) (req : Request)
    (context : Option String) (body : ProductCheckoutBody) (customer : StripeId) :
    Except ServiceError SessionParams := do
  let context ← validateSubscriptionContext context
  let org ← resolveProductPurchaseContext members user context
  let (currency, _) ← priceCheck (resolveBillingCurrency u st req.queryCurrency (some prefs))
  let (pp, lp) ← loadProductPrice t body.productPriceId currency
  let (priceId, billingCurrency) ← priceCheck (resolveCheckoutPrice u t st lp req (some prefs))
  return createProductCheckoutSession customer priceId (uuidText user) billingCurrency
    prefs.preferredLocale body.links
    (some (("product_id", uuidText pp.productId) ::
      (org.map fun o => ("org_id", uuidText o)).toList))

/-! ### What a view leaves on a session -/

variable {u t st members}

/-- A name that is accepted is not empty. -/
theorem validateOrgName_ok {value name : String} (h : validateOrgName u value = .ok name) :
    name = strip u value ∧ name ≠ "" := by
  unfold validateOrgName at h
  dsimp only at h
  split_ifs at h with h₁ h₂ h₃
  cases h
  exact ⟨rfl, h₁⟩

theorem validateOptional_ok {α β : Type} {validate : α → Except ServiceError β} {x : Option α}
    {b : β} (h : validateOptional validate x = .ok (some b)) :
    ∃ a, x = some a ∧ validate a = .ok b := by
  rcases x with - | a
  · cases h
  · rcases ha : validate a with e | b'
    · simp only [validateOptional, ha] at h
      cases h
    · simp only [validateOptional, ha] at h
      cases h
      exact ⟨a, rfl, ha⟩

/-- What an accepted body carries over. -/
theorem CheckoutBody.validate_ok {body : CheckoutBody} {data : CheckoutData}
    (h : body.validate u = .ok data) :
    data.planPriceId = body.planPriceId ∧
      data.keepPersonalSubscription = body.keepPersonalSubscription.getD false ∧
      ∀ name, data.orgName = some name →
        ∃ value, body.orgName = some value ∧ validateOrgName u value = .ok name := by
  unfold CheckoutBody.validate at h
  obtain ⟨seatLimit, -, h⟩ := Loops.bind_eq_ok.mp h
  obtain ⟨trialPeriodDays, -, h⟩ := Loops.bind_eq_ok.mp h
  obtain ⟨orgName, horg, h⟩ := Loops.bind_eq_ok.mp h
  cases h
  refine ⟨rfl, rfl, fun name hname => ?_⟩
  obtain rfl : orgName = some name := hname
  exact validateOptional_ok horg

/-- The name that a team checkout goes on with is the one of the body. -/
theorem validateTeamCheckout_ok {user : UUID} {data : CheckoutData} {name : String}
    (h : validateTeamCheckout members user data = .ok name) : data.orgName = some name := by
  unfold validateTeamCheckout at h
  split at h
  · cases h
  · split at h
    · cases h
    · cases h
      assumption

/-- The plan price that is loaded is the one that is named. -/
theorem loadPlanPrice_ok {planPriceId : UUID} {currency : String} {pp : PlanPrice}
    {lp : LoadedPrice}
    (h : loadPlanPrice t planPriceId currency = .ok (pp, lp)) :
    pp ∈ t.planPrices ∧ pp.id = planPriceId ∧ lp.price = .plan pp ∧ lp.LoadedFor t currency := by
  unfold loadPlanPrice at h
  split at h
  · rename_i pp' rows hload
    cases h
    have hfor := getActivePlanPrice_loadedFor hload
    obtain ⟨row, hrow, heq⟩ := Option.map_eq_some_iff.mp hload
    cases heq
    have hid := List.find?_some hrow
    simp only [Bool.and_eq_true, decide_eq_true_eq] at hid
    exact ⟨List.mem_of_find?_eq_some hrow, hid.1, rfl, hfor⟩
  · cases h

/-- The product price that is loaded is the one that is named. -/
theorem loadProductPrice_ok {productPriceId : UUID} {currency : String} {pp : ProductPrice}
    {lp : LoadedPrice} (h : loadProductPrice t productPriceId currency = .ok (pp, lp)) :
    pp ∈ t.productPrices ∧ pp.id = productPriceId ∧ lp.price = .product pp := by
  unfold loadProductPrice at h
  split at h
  · rename_i pp' rows hload
    cases h
    obtain ⟨row, hrow, heq⟩ := Option.map_eq_some_iff.mp hload
    cases heq
    have hid := List.find?_some hrow
    simp only [Bool.and_eq_true, decide_eq_true_eq] at hid
    exact ⟨List.mem_of_find?_eq_some hrow, hid.1, rfl⟩
  · cases h

/-- What a plan checkout puts on its session: for a team its name and its flag,
for a person nothing. -/
theorem CheckoutSessionView.post_ok {user : UUID} {prefs : UserPreferences} {req : Request}
    {body : CheckoutBody} {customer : StripeId} {p : SessionParams}
    (h : CheckoutSessionView.post u t st members user prefs req body customer = .ok p) :
    p.mode = "subscription" ∧ p.clientReferenceId = uuidText user ∧ p.customer = customer ∧
      ∃ pp ∈ t.planPrices, pp.id = body.planPriceId ∧
        ((t.planContext pp.planId = some .personal ∧ p.metadata = none) ∨
          t.planContext pp.planId = some .team ∧ ∃ value name, body.orgName = some value ∧
            validateOrgName u value = .ok name ∧ p.metadata = some
              (buildCheckoutMetadata name (body.keepPersonalSubscription.getD false))) := by
  unfold CheckoutSessionView.post at h
  obtain ⟨data, hdata, h⟩ := Loops.bind_eq_ok.mp h
  obtain ⟨⟨currency, d⟩, -, h⟩ := Loops.bind_eq_ok.mp h
  obtain ⟨⟨pp, lp⟩, hpp, h⟩ := Loops.bind_eq_ok.mp h
  obtain ⟨context, hcontext, h⟩ := Loops.bind_eq_ok.mp h
  obtain ⟨-, -, h⟩ := Loops.bind_eq_ok.mp h
  obtain ⟨⟨priceId, billingCurrency⟩, -, h⟩ := Loops.bind_eq_ok.mp h
  obtain ⟨hplan, hkeep, hname⟩ := CheckoutBody.validate_ok hdata
  obtain ⟨hmem, hid, -, -⟩ := loadPlanPrice_ok hpp
  have hcontext' : t.planContext pp.planId = some context := require_eq_ok.mp hcontext
  cases context with
  | personal =>
    cases h
    exact ⟨rfl, rfl, rfl, pp, hmem, hid.trans hplan, Or.inl ⟨hcontext', rfl⟩⟩
  | team =>
    obtain ⟨name, hteam, h⟩ := Loops.bind_eq_ok.mp h
    cases h
    obtain ⟨value, hvalue, hok⟩ := hname name (validateTeamCheckout_ok hteam)
    refine ⟨rfl, rfl, rfl, pp, hmem, hid.trans hplan,
      Or.inr ⟨hcontext', value, name, hvalue, hok, ?_⟩⟩
    show some (buildCheckoutMetadata name data.keepPersonalSubscription) = _
    rw [hkeep]

/-- The organization that buys is one that the user owns. -/
theorem mem_of_resolveProductPurchaseContext {user : UUID} {c : Option PlanContext} {org : UUID}
    (h : resolveProductPurchaseContext members user c = .ok (some org)) :
    ∃ m ∈ members, m.user = user ∧ m.role = .owner ∧ m.org = org := by
  unfold resolveProductPurchaseContext at h
  dsimp only at h
  split at h
  · cases h
  · split at h
    · cases h
    · rename_i m hm
      split at h
      · cases h
      · rename_i howner
        cases h
        obtain ⟨hmem, huser⟩ := List.mem_filter.mp (List.argmin_mem hm)
        exact ⟨m, hmem, of_decide_eq_true huser, not_not.mp howner, rfl⟩

/-- What a product checkout puts on its session. -/
theorem ProductCheckoutSessionView.post_ok {user : UUID} {prefs : UserPreferences} {req : Request}
    {context : Option String} {body : ProductCheckoutBody} {customer : StripeId} {p : SessionParams}
    (h : ProductCheckoutSessionView.post u t st members user prefs req context body customer
      = .ok p) :
    ∃ pp ∈ t.productPrices, pp.id = body.productPriceId ∧ ∃ c org,
      validateSubscriptionContext context = .ok c ∧
      resolveProductPurchaseContext members user c = .ok org ∧
      p.mode = "payment" ∧ p.clientReferenceId = uuidText user ∧ p.customer = customer ∧
      p.metadata = some (("product_id", uuidText pp.productId) ::
        (org.map fun o => ("org_id", uuidText o)).toList) := by
  unfold ProductCheckoutSessionView.post at h
  obtain ⟨c, hc, h⟩ := Loops.bind_eq_ok.mp h
  obtain ⟨org, horg, h⟩ := Loops.bind_eq_ok.mp h
  obtain ⟨⟨currency, d⟩, -, h⟩ := Loops.bind_eq_ok.mp h
  obtain ⟨⟨pp, lp⟩, hpp, h⟩ := Loops.bind_eq_ok.mp h
  obtain ⟨⟨priceId, billingCurrency⟩, -, h⟩ := Loops.bind_eq_ok.mp h
  cases h
  obtain ⟨hmem, hid, -⟩ := loadProductPrice_ok hpp
  exact ⟨pp, hmem, hid, c, org, hc, horg, rfl, rfl, rfl, rfl⟩

/-! ### What the handlers make of it -/

/-- The text of a UUID is not empty. -/
theorem uuidText_ne_empty (id : UUID) : uuidText id ≠ "" := by
  intro h
  have hnil : (uuidText id).toList = [] := by
    rw [h]
    rfl
  simp [uuidText] at hnil

theorem filter_ne_empty {s : String} (h : s ≠ "") :
    (some s).filter (fun x => decide (x ≠ "")) = some s :=
  Option.filter_some_pos (by simpa using h)

/-- A payment never reaches the team branch, and only a payment grants credits. -/
theorem checkoutCallbacks_mode {d : SessionData} {calls : List Callback}
    (h : checkoutCallbacks d = .ok calls) :
    (d.mode = some "payment" → ∀ a b c e f g, .onTeamCheckoutCompleted a b c e f g ∉ calls) ∧
      (d.mode ≠ some "payment" → ∀ a b c e, .onProductCheckoutCompleted a b c e ∉ calls) := by
  unfold checkoutCallbacks at h
  constructor
  · intro hmode a b c e f g hmem
    rw [if_pos hmode] at h
    cases h
    unfold productCheckoutCallbacks at hmem
    split at hmem
    · split at hmem
      · split at hmem
        · simp at hmem
        · split at hmem <;> simp at hmem
      · simp at hmem
    · simp at hmem
  · intro hmode a b c e hmem
    rw [if_neg hmode] at h
    split at h
    · split at h
      · cases h
      · split at h
        · cases h
          cases hmem
        · cases h
          simp at hmem
    · cases h
      cases hmem

/-- The flag reads back. -/
theorem keepPersonal_roundtrip (keep : Bool) :
    (decide ((some (if keep then "true" else "false") : Option String) = some "true")) = keep := by
  cases keep <;> decide

/-- **A plan checkout comes back as it went out**: for a team with the user, the
name and the flag of the request, for a person not at all. -/
theorem team_checkout_roundtrip {user : UUID} (huser : IsUuid user) {prefs : UserPreferences}
    {req : Request} {body : CheckoutBody} {customer : StripeId} {p : SessionParams}
    (h : CheckoutSessionView.post u t st members user prefs req body customer = .ok p)
    (id : StripeId) (subscription : Option String) (livemode : Bool) :
    ∃ pp ∈ t.planPrices, pp.id = body.planPriceId ∧
      ((t.planContext pp.planId = some .personal ∧
          checkoutCallbacks (p.completed id subscription livemode) = .ok []) ∨
        t.planContext pp.planId = some .team ∧ ∃ value name, body.orgName = some value ∧
          validateOrgName u value = .ok name ∧
          checkoutCallbacks (p.completed id subscription livemode)
            = .ok [.onTeamCheckoutCompleted user name customer.text livemode subscription
              (body.keepPersonalSubscription.getD false)]) := by
  obtain ⟨hmode, href, hcustomer, pp, hpp, hid, hcase⟩ := CheckoutSessionView.post_ok h
  refine ⟨pp, hpp, hid, ?_⟩
  have hpayment : (p.completed id subscription livemode).mode ≠ some "payment" := by
    show some p.mode ≠ _
    rw [hmode]
    decide
  rcases hcase with ⟨hcontext, hmeta⟩ | ⟨hcontext, value, name, hvalue, hname, hmeta⟩
  · -- a personal checkout carries no name
    refine Or.inl ⟨hcontext, ?_⟩
    unfold checkoutCallbacks
    rw [if_neg hpayment]
    simp [SessionParams.completed, hmeta, SessionMetadata.ofDict]
  · refine Or.inr ⟨hcontext, value, name, hvalue, hname, ?_⟩
    have horg : (p.completed id subscription livemode).metadata.orgName = some name := by
      show ((p.metadata.getD []).lookup "org_name") = _
      rw [hmeta]
      rfl
    have hkeep : (p.completed id subscription livemode).metadata.keepPersonalSubscription
        = some (if body.keepPersonalSubscription.getD false then "true" else "false") := by
      show ((p.metadata.getD []).lookup "keep_personal_subscription") = _
      rw [hmeta]
      rfl
    have hclient : (p.completed id subscription livemode).clientReferenceId
        = some (uuidText user) := by
      show some p.clientReferenceId = _
      rw [href]
    have hcus : (p.completed id subscription livemode).customer = some customer.text := by
      show some p.customer.text = _
      rw [hcustomer]
    unfold checkoutCallbacks
    rw [if_neg hpayment, horg, hclient, hcus, hkeep,
      filter_ne_empty (validateOrgName_ok hname).2, filter_ne_empty (uuidText_ne_empty user),
      filter_ne_empty customer.nonempty]
    simp only [uuidOfText_uuidText huser, keepPersonal_roundtrip]
    rfl

/-- **A product checkout comes back as it went out**: with the product, the user
and the organization of the request. -/
theorem product_checkout_roundtrip {user : UUID} (huser : IsUuid user)
    (hproducts : ∀ pp ∈ t.productPrices, IsUuid pp.productId)
    (hmembers : ∀ m ∈ members, IsUuid m.org)
    {prefs : UserPreferences} {req : Request} {context : Option String} {body : ProductCheckoutBody}
    {customer : StripeId} {p : SessionParams}
    (h : ProductCheckoutSessionView.post u t st members user prefs req context body customer
      = .ok p)
    (id : StripeId) (subscription : Option String) (livemode : Bool) :
    ∃ pp ∈ t.productPrices, pp.id = body.productPriceId ∧ ∃ c org,
      validateSubscriptionContext context = .ok c ∧
      resolveProductPurchaseContext members user c = .ok org ∧
      checkoutCallbacks (p.completed id subscription livemode)
        = .ok [.onProductCheckoutCompleted id.text pp.productId user org] := by
  obtain ⟨pp, hpp, hid, c, org, hc, horg, hmode, href, hcustomer, hmeta⟩ :=
    ProductCheckoutSessionView.post_ok h
  refine ⟨pp, hpp, hid, c, org, hc, horg, ?_⟩
  have hpayment : (p.completed id subscription livemode).mode = some "payment" := by
    show some p.mode = _
    rw [hmode]
  have hproduct : (p.completed id subscription livemode).metadata.productId
      = some (uuidText pp.productId) := by
    show ((p.metadata.getD []).lookup "product_id") = _
    rw [hmeta]
    rfl
  have horgId : (p.completed id subscription livemode).metadata.orgId = org.map uuidText := by
    show ((p.metadata.getD []).lookup "org_id") = _
    rw [hmeta]
    cases org <;> rfl
  have hclient : (p.completed id subscription livemode).clientReferenceId
      = some (uuidText user) := by
    show some p.clientReferenceId = _
    rw [href]
  have hsession : (p.completed id subscription livemode).id = some id.text := rfl
  rw [checkoutCallbacks, if_pos hpayment]
  cases org with
  | none =>
    rw [Option.map_none] at horgId
    simp only [productCheckoutCallbacks, hsession, hproduct, hclient, horgId,
      filter_ne_empty id.nonempty, filter_ne_empty (uuidText_ne_empty _), Option.filter_none,
      uuidOfText_uuidText huser, uuidOfText_uuidText (hproducts pp hpp)]
  | some o =>
    -- the organization is the one of a membership
    have ho : IsUuid o := by
      obtain ⟨m, hm, -, -, rfl⟩ := mem_of_resolveProductPurchaseContext horg
      exact hmembers m hm
    rw [Option.map_some] at horgId
    simp only [productCheckoutCallbacks, hsession, hproduct, hclient, horgId,
      filter_ne_empty id.nonempty, filter_ne_empty (uuidText_ne_empty _),
      uuidOfText_uuidText huser, uuidOfText_uuidText (hproducts pp hpp), uuidOfText_uuidText ho]

/-- **Checkout metadata round trip.**  A completed session makes one callback
with the values that its view had, or none where a person bought a plan; a
payment never reaches the team branch, and only a payment grants credits. -/
theorem checkout_metadata_roundtrip {user : UUID} (huser : IsUuid user)
    (hproducts : ∀ pp ∈ t.productPrices, IsUuid pp.productId)
    (hmembers : ∀ m ∈ members, IsUuid m.org) :
    (∀ prefs req body customer p id subscription livemode,
      CheckoutSessionView.post u t st members user prefs req body customer = .ok p →
        ∃ pp ∈ t.planPrices, pp.id = body.planPriceId ∧
          ((t.planContext pp.planId = some .personal ∧
              checkoutCallbacks (p.completed id subscription livemode) = .ok []) ∨
            t.planContext pp.planId = some .team ∧ ∃ value name, body.orgName = some value ∧
              validateOrgName u value = .ok name ∧
              checkoutCallbacks (p.completed id subscription livemode)
                = .ok [.onTeamCheckoutCompleted user name customer.text livemode subscription
                  (body.keepPersonalSubscription.getD false)])) ∧
    (∀ prefs req context body customer p id subscription livemode,
      ProductCheckoutSessionView.post u t st members user prefs req context body customer = .ok p →
        ∃ pp ∈ t.productPrices, pp.id = body.productPriceId ∧ ∃ c org,
          validateSubscriptionContext context = .ok c ∧
          resolveProductPurchaseContext members user c = .ok org ∧
          checkoutCallbacks (p.completed id subscription livemode)
            = .ok [.onProductCheckoutCompleted id.text pp.productId user org]) ∧
    ∀ d calls, checkoutCallbacks d = .ok calls →
      (d.mode = some "payment" → ∀ a b c e f g, .onTeamCheckoutCompleted a b c e f g ∉ calls) ∧
        (d.mode ≠ some "payment" → ∀ a b c e, .onProductCheckoutCompleted a b c e ∉ calls) := by
  refine ⟨?_, ?_, fun d calls h => checkoutCallbacks_mode h⟩
  · intro prefs req body customer p id subscription livemode h
    exact team_checkout_roundtrip huser h id subscription livemode
  · intro prefs req context body customer p id subscription livemode h
    exact product_checkout_roundtrip huser hproducts hmembers h id subscription livemode

/-! ### A shop -/

/-- A team plan at 30 USD, and a product at 5 USD. -/
def shopCatalog : Catalog where
  plans := [⟨1, "Team Pro", "", .team, .pro, .month, true⟩]
  planPrices := [⟨2, 1, "price_team", 3000⟩]
  products := [⟨3, "Boost", 50, true⟩]
  productPrices := [⟨4, 3, "price_boost", 500⟩]
  localizedPrices := []
  countryPrices := []
  constraints := by constructor <;> decide

/-- An owner who buys credits for the organization. -/
def shopMembers : List OrgMember := [⟨7, 9, 6, .owner, true⟩]

def shopPrefs : UserPreferences := ⟨"", "en"⟩

def shopLinks : SessionLinks := ⟨"https://example.com/ok", "https://example.com/no"⟩

def shopCustomer : StripeId := ⟨"cus_1", by decide⟩

/-- A user without an organization buys the team plan for " Acme ", and the owner
of organization 9 buys the product for it. -/
theorem checkout_metadata_roundtrip_shop :
    (∃ p, CheckoutSessionView.post asciiTables shopCatalog.toCatalogTables eurSettings shopMembers 5
        shopPrefs ⟨none, none, none, none⟩ ⟨2, some 3, none, some " Acme ", some true, shopLinks⟩
        shopCustomer = .ok p ∧
      ∃ value name, some " Acme " = some value ∧ validateOrgName asciiTables value = .ok name ∧
        checkoutCallbacks (p.completed ⟨"cs_1", by decide⟩ (some "sub_1") false)
          = .ok [.onTeamCheckoutCompleted 5 name "cus_1" false (some "sub_1") true]) ∧
    ∃ p, ProductCheckoutSessionView.post asciiTables shopCatalog.toCatalogTables eurSettings
        shopMembers 6 shopPrefs ⟨none, none, none, none⟩ none ⟨4, shopLinks⟩ shopCustomer = .ok p ∧
      checkoutCallbacks (p.completed ⟨"cs_2", by decide⟩ none false)
        = .ok [.onProductCheckoutCompleted "cs_2" 3 6 (some 9)] := by
  have hfive : IsUuid 5 := by unfold IsUuid; decide
  have hsix : IsUuid 6 := by unfold IsUuid; decide
  have hproducts : ∀ pp ∈ shopCatalog.productPrices, IsUuid pp.productId := by
    unfold IsUuid
    decide
  have hmembers : ∀ m ∈ shopMembers, IsUuid m.org := by
    unfold IsUuid
    decide
  constructor
  · refine ⟨_, rfl, ?_⟩
    obtain ⟨pp, hpp, -, hpersonal | ⟨-, hteam⟩⟩ :=
      (@checkout_metadata_roundtrip asciiTables _ eurSettings _ _ hfive hproducts hmembers).1
        shopPrefs ⟨none, none, none, none⟩ ⟨2, some 3, none, some " Acme ", some true, shopLinks⟩
        shopCustomer _ ⟨"cs_1", by decide⟩ (some "sub_1") false rfl
    · obtain rfl := List.mem_singleton.mp hpp
      cases hpersonal.1
    · exact hteam
  · refine ⟨_, rfl, ?_⟩
    obtain ⟨pp, hpp, -, c, org, hc, horg, hcalls⟩ :=
      (@checkout_metadata_roundtrip asciiTables _ eurSettings _ _ hsix hproducts hmembers).2.1
        shopPrefs ⟨none, none, none, none⟩ none ⟨4, shopLinks⟩ shopCustomer _
        ⟨"cs_2", by decide⟩ none
        false rfl
    obtain rfl := List.mem_singleton.mp hpp
    obtain rfl : c = none := (Except.ok.inj hc).symm
    obtain rfl : org = some 9 := (Except.ok.inj horg).symm
    exact hcalls

end Saasmint
