/-
Saasmint/Billing/Pricing.lean

Which Stripe Price a caller is charged with (apps/billing/views.py): the
billing currency and the pricing country of a request, the lookups in the
three price tables, and the two resolvers `_resolve_checkout_price` and
`_resolve_plan_change_price` with their fallbacks.

A row is *minted* when it carries a Stripe Price id.  Besides the functions
the module gives each lookup one specification lemma in terms of the minted
rows of the catalog, which later modules use instead of unfolding it:

* `getCountryStripePrice_eq_some`, `localizedForCurrency_eq_some`: the row a
  lookup returns, whether it reads the prefetched rows or the table;
* `resolveCheckoutPrice_eq`: the result of the checkout resolver as a case
  split on the minted rows.
-/
import Saasmint.Billing.Currency
import Saasmint.Billing.Models
import Saasmint.Lib.Table

namespace Saasmint

open PyStr

variable (u : UnicodeTables)

/-- `rest_framework` errors of the pricing functions: a field and its message. -/
structure ValidationError where
  field : String
  message : String
  deriving DecidableEq, Repr

/-- `settings.BILLING_CURRENCIES`, with the two checks made at start-up. -/
structure Settings where
  billingCurrencies : List String
  supported : ∀ c ∈ billingCurrencies, c ∈ supportedCurrencies
  usd_mem : "usd" ∈ billingCurrencies

/-- USD and EUR are billable. -/
def eurSettings : Settings := ⟨["usd", "eur"], by decide, by decide⟩

/-- The columns of a user that pricing reads. -/
structure UserPreferences where
  preferredCurrency : String
  preferredLocale : String
  deriving DecidableEq, Repr

/-- What pricing reads of a request: two query parameters and two headers. -/
structure Request where
  queryCurrency : Option String
  queryCountry : Option String
  acceptLanguage : Option String
  cfIPCountry : Option String
  deriving DecidableEq, Repr

/-! ### Billing currency and pricing country -/

/-- `_resolve_billing_currency`: the currency charged, and the preferred one
where it differs. -/
def resolveBillingCurrency (st : Settings) (queryCurrency : Option String)
    (user : Option UserPreferences) : Except ValidationError (String × Option String) :=
  let requested := (queryCurrency.filter (· ≠ "")).map (lower u)
  let userPref := user.bind fun p =>
    if p.preferredCurrency = "" then none
    else if lower u p.preferredCurrency ∈ supportedCurrencies then
      some (lower u p.preferredCurrency)
    else none
  if requested.any (· ∉ supportedCurrencies) then
    .error ⟨"currency", "Unsupported currency: " ++ u.repr (queryCurrency.getD "") ++ "."⟩
  else
    let target := (orElse requested (orElse userPref (some "usd"))).getD "usd"
    let billing := if target ∈ st.billingCurrencies then target else "usd"
    .ok (billing, userPref.filter (· ≠ billing))

/-- `_LANG_DEFAULT_COUNTRY`. -/
def langDefaultCountry : List (String × String) :=
  [("es", "ES"), ("fr", "FR"), ("de", "DE"), ("it", "IT"), ("nl", "NL"), ("pt", "PT"),
   ("pl", "PL"), ("sv", "SE"), ("da", "DK"), ("zh", "CN")]

/-- `_country_from_locale`. -/
def countryFromLocale (locale : Option String) : Option String :=
  match locale with
  | none => none
  | some "" => none
  | some l =>
    let primary := strip u ((split (· = ',') l).headD "")
    match split (fun c => c = '-' || c = '_') primary with
    | lang :: region :: _ =>
      if region.length = 2 && isAlpha u region then some (upper u region)
      else langDefaultCountry.lookup (lower u lang)
    | [lang] => langDefaultCountry.lookup (lower u lang)
    | [] => none

/-- `_resolve_pricing_country`: the override wins, then the locale, then the
edge header. -/
def resolvePricingCountry (req : Request) (user : Option UserPreferences) :
    Except ValidationError (Option String) :=
  if truthy req.queryCountry then
    let override := req.queryCountry.getD ""
    let candidate := upper u (strip u override)
    if candidate.length = 2 && isAlpha u candidate then .ok (some candidate)
    else .error ⟨"country", "Invalid country code: " ++ u.repr override ++ "."⟩
  else
    let userLocale := user.bind fun p =>
      if p.preferredLocale = "" then none else some p.preferredLocale
    let fromLocale := countryFromLocale u (orElse userLocale req.acceptLanguage)
    if truthy fromLocale then .ok fromLocale
    else
      let edge := req.cfIPCountry.getD ""
      if edge ≠ "" && edge.length = 2 && isAlpha u edge && upper u edge ≠ "XX" then
        .ok (some (upper u edge))
      else .ok none

/-! ### Price rows -/

/-- A `PlanPrice` or a `ProductPrice`. -/
inductive Price
  | plan (pp : PlanPrice)
  | product (pp : ProductPrice)
  deriving DecidableEq, Repr

namespace Price

def stripePriceId : Price → String
  | plan pp => pp.stripePriceId
  | product pp => pp.stripePriceId

/-- The price in USD cents. -/
def amount : Price → Int
  | plan pp => pp.amount
  | product pp => pp.amount

/-- The key under which localized and country rows refer to the price. -/
def owner : Price → PriceOwner
  | plan pp => .planPrice pp.id
  | product pp => .productPrice pp.id

end Price

/-- A price as a view loads it: the row and, when it was prefetched, the list
that `_resolved_localized` holds. -/
structure LoadedPrice where
  price : Price
  resolvedLocalized : Option (List LocalizedPrice)
  deriving DecidableEq, Repr

variable (t : CatalogTables)

/-- `LocalizedPrice.objects.filter(<owner>, currency, stripe_price_id__isnull=False)`. -/
def CatalogTables.mintedLocalized (owner : PriceOwner) (currency : String) :
    List LocalizedPrice :=
  t.localizedPrices.filter fun r =>
    r.owner = owner && r.currency = currency && r.stripePriceId.isSome

/-- `_get_active_plan_price`; `none` is the 404. -/
def getActivePlanPrice (planPriceId : UUID) (currency : Option String) : Option LoadedPrice :=
  let row := t.planPrices.find? fun pp =>
    pp.id = planPriceId && t.plans.any fun p => p.id = pp.planId && p.isActive
  row.map fun pp =>
    ⟨.plan pp, (currency.filter fun c => c ≠ "" && c ≠ "usd").map
      (t.mintedLocalized (.planPrice pp.id))⟩

/-- `_get_active_product_price`; `none` is the 404. -/
def getActiveProductPrice (productPriceId : UUID) (currency : Option String) :
    Option LoadedPrice :=
  let row := t.productPrices.find? fun pp =>
    pp.id = productPriceId && t.products.any fun p => p.id = pp.productId && p.isActive
  row.map fun pp =>
    ⟨.product pp, (currency.filter fun c => c ≠ "" && c ≠ "usd").map
      (t.mintedLocalized (.productPrice pp.id))⟩

/-- `_get_country_stripe_price`. -/
def getCountryStripePrice (price : Price) (country : Option String) : Option CountryPrice :=
  match country with
  | none => none
  | some "" => none
  | some c => t.countryPrices.find? fun r =>
      r.owner = price.owner && r.country = c && r.stripePriceId.isSome

/-- `_localized_for_currency`: from the prefetched rows where there are any,
else by a query. -/
def localizedForCurrency (lp : LoadedPrice) (currency : String) : Option LocalizedPrice :=
  match lp.resolvedLocalized with
  | some cached => cached.find? fun r => r.currency = currency && truthy r.stripePriceId
  | none => (t.mintedLocalized lp.price.owner currency).head?

/-- `_resolve_stripe_price_id`. -/
def resolveStripePriceId (lp : LoadedPrice) (currency : String) : String :=
  if currency = "usd" then lp.price.stripePriceId
  else
    let rowId := (localizedForCurrency t lp currency).bind (·.stripePriceId)
    (orElse rowId (some lp.price.stripePriceId)).getD ""

/-- `_resolve_checkout_price`: the Stripe Price id and the billing currency. -/
def resolveCheckoutPrice (st : Settings) (lp : LoadedPrice) (req : Request)
    (user : Option UserPreferences) : Except ValidationError (String × String) := do
  let country ← resolvePricingCountry u req user
  match (getCountryStripePrice t lp.price country).filter (truthy ·.stripePriceId) with
  | some r => return (r.stripePriceId.getD "", r.currency)
  | none =>
    let (billingCurrency, _) ← resolveBillingCurrency u st req.queryCurrency user
    return (resolveStripePriceId t lp billingCurrency, billingCurrency)

/-- `_resolve_plan_change_price`: the Stripe Price id and its unit amount. -/
def resolvePlanChangePrice (lp : LoadedPrice) (currency : String) :
    Except ValidationError (String × Int) :=
  if currency = "usd" then .ok (lp.price.stripePriceId, lp.price.amount)
  else
    match (localizedForCurrency t lp currency).filter (truthy ·.stripePriceId) with
    | none => .error ⟨"plan_price_id", "Plan unavailable in your subscription's currency."⟩
    | some row => .ok (row.stripePriceId.getD "", row.amountMinor)

/-! ### The row that is charged -/

/-- The row of an owner in a currency, if its Stripe Price is minted. -/
def CatalogTables.mintedLocalizedRow (owner : PriceOwner) (currency : String) :
    Option LocalizedPrice :=
  t.localizedPrices.find? fun r =>
    r.owner = owner && r.currency = currency && truthy r.stripePriceId

/-- The row of an owner in a currency. -/
def CatalogTables.localizedRow (owner : PriceOwner) (currency : String) : Option LocalizedPrice :=
  t.localizedPrices.find? fun r => r.owner = owner && r.currency = currency

/-- The row of an owner in a country, if its Stripe Price is minted. -/
def CatalogTables.mintedCountryRow (owner : PriceOwner) (country : Option String) :
    Option CountryPrice :=
  (country.filter (· ≠ "")).bind fun c => t.countryPrices.find? fun r =>
    r.owner = owner && r.country = c && truthy r.stripePriceId

/-- A row that a price can be charged or displayed from. -/
inductive CatalogRow
  | usd (price : Price)
  | localized (row : LocalizedPrice)
  | country (row : CountryPrice)
  deriving DecidableEq, Repr

def CatalogRow.stripePriceId : CatalogRow → Option String
  | usd price => some price.stripePriceId
  | localized row => row.stripePriceId
  | country row => row.stripePriceId

/-- What the two resolvers are for: the minted row of the country, else the
minted row of the billing currency, else the USD price. -/
def CatalogTables.chargedRow (price : Price) (country : Option String) (billing : String) :
    CatalogRow :=
  match t.mintedCountryRow price.owner country with
  | some r => .country r
  | none =>
    if billing = "usd" then .usd price
    else match t.mintedLocalizedRow price.owner billing with
      | some r => .localized r
      | none => .usd price

/-- The price was loaded for charges in `currency`: either nothing was
prefetched, or the minted rows of that currency were. -/
def LoadedPrice.LoadedFor (lp : LoadedPrice) (currency : String) : Prop :=
  lp.resolvedLocalized = none ∨
    lp.resolvedLocalized = some (t.mintedLocalized lp.price.owner currency)

variable {u t}

/-- The rows that the plan loader prefetches are those of its currency. -/
theorem getActivePlanPrice_loadedFor {planPriceId : UUID} {currency : String} {lp : LoadedPrice}
    (h : getActivePlanPrice t planPriceId (some currency) = some lp) : lp.LoadedFor t currency := by
  obtain ⟨pp, -, rfl⟩ := Option.map_eq_some_iff.mp h
  by_cases hu : currency ≠ "" ∧ currency ≠ "usd"
  · exact Or.inr (by simp [Option.filter_some, hu, Price.owner])
  · have hu' : currency ≠ "" → currency = "usd" := fun h => not_ne_iff.mp fun h' => hu ⟨h, h'⟩
    exact Or.inl (by simpa [Option.filter_some] using hu')

theorem isSome_of_truthy {s : Option String} (h : truthy s = true) : s.isSome = true := by
  cases s with
  | none => simp at h
  | some s => rfl

theorem getD_of_truthy {s : Option String} (h : truthy s = true) : s = some (s.getD "") := by
  cases s with
  | none => simp at h
  | some s => rfl

theorem truthy_of_mintedLocalizedRow {owner : PriceOwner} {currency : String}
    {r : LocalizedPrice} (h : t.mintedLocalizedRow owner currency = some r) :
    truthy r.stripePriceId = true := by
  have hr := List.find?_some h
  simp_all

theorem truthy_of_mintedCountryRow {owner : PriceOwner} {country : Option String}
    {r : CountryPrice} (h : t.mintedCountryRow owner country = some r) :
    truthy r.stripePriceId = true := by
  obtain ⟨c, -, hfind⟩ := Option.bind_eq_some_iff.mp h
  have hr := List.find?_some hfind
  simp_all

/-- The currency lookup, cached or not, finds the minted row of the currency. -/
theorem localizedForCurrency_eq (hc : t.Constraints) {lp : LoadedPrice} {currency : String}
    (hl : lp.LoadedFor t currency) :
    (localizedForCurrency t lp currency).filter (truthy ·.stripePriceId)
      = t.mintedLocalizedRow lp.price.owner currency := by
  have hfind : t.mintedLocalizedRow lp.price.owner currency
      = t.localizedPrices.find? fun r =>
        (r.owner, r.currency) = (lp.price.owner, currency) && truthy r.stripePriceId := by
    simp [CatalogTables.mintedLocalizedRow, Prod.mk.injEq]
  rcases hl with hl | hl
  · -- a query: the first row of the filter
    rw [hfind, ← Table.find?_filter_of_unique hc.uniq_localized_price_currency _
      (fun r => r.stripePriceId.isSome) _ fun _ => isSome_of_truthy]
    simp [localizedForCurrency, hl, CatalogTables.mintedLocalized, List.head?_filter,
      Prod.mk.injEq]
  · -- the prefetched rows: a search in the filter
    have hcached : localizedForCurrency t lp currency
        = t.mintedLocalizedRow lp.price.owner currency := by
      simp only [localizedForCurrency, hl, CatalogTables.mintedLocalized, List.find?_filter,
        CatalogTables.mintedLocalizedRow]
      congr 1
      funext r
      have := @isSome_of_truthy r.stripePriceId
      grind
    rw [hcached]
    rcases e : t.mintedLocalizedRow lp.price.owner currency with - | r
    · rfl
    · exact Option.filter_some_pos (truthy_of_mintedLocalizedRow e)

/-- The country lookup, tested for a usable id, finds the minted row. -/
theorem getCountryStripePrice_eq (hc : t.Constraints) (price : Price)
    (country : Option String) :
    (getCountryStripePrice t price country).filter (truthy ·.stripePriceId)
      = t.mintedCountryRow price.owner country := by
  rcases country with - | c
  · rfl
  · by_cases hce : c = ""
    · subst hce
      rfl
    · have h := Table.find?_filter_of_unique hc.uniq_country_price_country (price.owner, c)
        (fun r => r.stripePriceId.isSome) (fun r => truthy r.stripePriceId)
        fun _ => isSome_of_truthy
      have hfilter : (some c).filter (fun x => decide (x ≠ "")) = some c :=
        Option.filter_some_pos (by simpa using hce)
      rw [CatalogTables.mintedCountryRow, hfilter]
      simpa [getCountryStripePrice, Prod.mk.injEq] using h

theorem resolveStripePriceId_eq (hc : t.Constraints) {lp : LoadedPrice} {currency : String}
    (hl : lp.LoadedFor t currency) :
    resolveStripePriceId t lp currency
      = if currency = "usd" then lp.price.stripePriceId
        else ((t.mintedLocalizedRow lp.price.owner currency).bind (·.stripePriceId)).getD
          lp.price.stripePriceId := by
  unfold resolveStripePriceId
  split
  · rfl
  · rw [← localizedForCurrency_eq hc hl]
    rcases localizedForCurrency t lp currency with - | r
    · rfl
    · by_cases hr : truthy r.stripePriceId = true
      · have hf : (some r).filter (truthy ·.stripePriceId) = some r :=
          Option.filter_some_pos hr
        simp only [hf, Option.bind_some, orElse, hr, if_true]
        rw [getD_of_truthy hr]
        rfl
      · simp [Option.filter_some, orElse, hr]

/-- **The checkout resolver.**  The id it returns is that of the charged row
of the resolved country and billing currency; the currency it returns is the
country row's, or else the billing currency. -/
theorem resolveCheckoutPrice_ok (hc : t.Constraints) {st : Settings} {lp : LoadedPrice}
    {req : Request} {user : Option UserPreferences} {x cur : String}
    (hl : ∀ b d, resolveBillingCurrency u st req.queryCurrency user = .ok (b, d) →
      lp.LoadedFor t b)
    (h : resolveCheckoutPrice u t st lp req user = .ok (x, cur)) :
    ∃ country, resolvePricingCountry u req user = .ok country ∧
      ((∃ r, t.mintedCountryRow lp.price.owner country = some r ∧
          (CatalogRow.country r).stripePriceId = some x ∧ r.currency = cur) ∨
        t.mintedCountryRow lp.price.owner country = none ∧
        ∃ d, resolveBillingCurrency u st req.queryCurrency user = .ok (cur, d) ∧
          (t.chargedRow lp.price country cur).stripePriceId = some x) := by
  unfold resolveCheckoutPrice at h
  rcases hcountry : resolvePricingCountry u req user with e | country
  · rw [hcountry] at h
    cases h
  · rw [hcountry] at h
    refine ⟨country, rfl, ?_⟩
    simp only [bind, Except.bind, getCountryStripePrice_eq hc] at h
    rcases hrow : t.mintedCountryRow lp.price.owner country with - | r
    · -- no country row: the billing currency decides
      rw [hrow] at h
      rcases hbill : resolveBillingCurrency u st req.queryCurrency user with e | ⟨billing, d⟩
      · rw [hbill] at h
        cases h
      · rw [hbill] at h
        simp only [pure, Except.pure, Except.ok.injEq, Prod.mk.injEq] at h
        obtain ⟨hx, rfl⟩ := h
        refine Or.inr ⟨rfl, d, rfl, ?_⟩
        rw [resolveStripePriceId_eq hc (hl billing d hbill)] at hx
        unfold CatalogTables.chargedRow
        rw [hrow]
        split at hx
        · simp_all [CatalogRow.stripePriceId]
        · rcases hm : t.mintedLocalizedRow lp.price.owner billing with - | r
          · simp_all [CatalogRow.stripePriceId]
          · have hr := getD_of_truthy (truthy_of_mintedLocalizedRow hm)
            rw [hm, Option.bind_some, hr, Option.getD_some] at hx
            rw [if_neg ‹_›]
            exact hr.trans (congrArg some hx)
    · -- a minted country row wins
      rw [hrow] at h
      have hr := truthy_of_mintedCountryRow hrow
      refine Or.inl ⟨r, rfl, ?_⟩
      simp only [pure, Except.pure, Except.ok.injEq, Prod.mk.injEq] at h
      refine ⟨?_, h.2⟩
      rw [CatalogRow.stripePriceId, getD_of_truthy hr, h.1]

/-- Once the country and the currency resolve, the checkout resolver returns the
id of the charged row. -/
theorem resolveCheckoutPrice_of_resolved (hc : t.Constraints) {st : Settings} {lp : LoadedPrice}
    {req : Request} {user : Option UserPreferences} {country : Option String} {billing : String}
    {d : Option String} (hl : lp.LoadedFor t billing)
    (hcountry : resolvePricingCountry u req user = .ok country)
    (hbill : resolveBillingCurrency u st req.queryCurrency user = .ok (billing, d)) :
    ∃ x cur, resolveCheckoutPrice u t st lp req user = .ok (x, cur) ∧
      (t.chargedRow lp.price country billing).stripePriceId = some x := by
  rcases h : resolveCheckoutPrice u t st lp req user with e | ⟨x, cur⟩
  · -- nothing is left that raises
    unfold resolveCheckoutPrice at h
    simp only [hcountry, hbill, bind, Except.bind] at h
    split at h <;> cases h
  · refine ⟨x, cur, rfl, ?_⟩
    have hl' : ∀ b d', resolveBillingCurrency u st req.queryCurrency user = .ok (b, d') →
        lp.LoadedFor t b := by
      intro b d' hb
      rw [hbill] at hb
      obtain ⟨rfl, -⟩ := Prod.mk.inj (Except.ok.inj hb)
      exact hl
    obtain ⟨country', hcountry', hcase⟩ := resolveCheckoutPrice_ok hc hl' h
    obtain rfl : country = country' := Except.ok.inj (hcountry.symm.trans hcountry')
    rcases hcase with ⟨r, hr, hx, -⟩ | ⟨-, d', hbill', hx⟩
    · rw [CatalogTables.chargedRow, hr]
      exact hx
    · obtain ⟨rfl, -⟩ := Prod.mk.inj (Except.ok.inj (hbill.symm.trans hbill'))
      exact hx

/-- The minted row of a currency is the row of the currency, if it is minted. -/
theorem mintedLocalizedRow_eq_filter (hc : t.Constraints) (owner : PriceOwner)
    (currency : String) :
    t.mintedLocalizedRow owner currency
      = (t.localizedRow owner currency).filter (truthy ·.stripePriceId) := by
  have h := Table.find?_filter_of_unique hc.uniq_localized_price_currency (owner, currency)
    (fun _ => true) (fun r => truthy r.stripePriceId) fun _ _ => rfl
  simpa [CatalogTables.mintedLocalizedRow, CatalogTables.localizedRow, Prod.mk.injEq] using h.symm

/-- The plan-change resolver succeeds on the USD price for USD, and on the
minted row of any other currency. -/
theorem resolvePlanChangePrice_ok (hc : t.Constraints) {lp : LoadedPrice} {currency : String}
    {x : String} {amount : Int} (hl : lp.LoadedFor t currency)
    (h : resolvePlanChangePrice t lp currency = .ok (x, amount)) :
    (currency = "usd" ∧ x = lp.price.stripePriceId ∧ amount = lp.price.amount) ∨
      currency ≠ "usd" ∧ ∃ r, t.mintedLocalizedRow lp.price.owner currency = some r ∧
        r.stripePriceId = some x ∧ r.amountMinor = amount := by
  unfold resolvePlanChangePrice at h
  split at h
  case isTrue hu =>
    simp only [Except.ok.injEq, Prod.mk.injEq] at h
    exact Or.inl ⟨hu, h.1.symm, h.2.symm⟩
  case isFalse hu =>
    rw [localizedForCurrency_eq hc hl] at h
    rcases hm : t.mintedLocalizedRow lp.price.owner currency with - | r
    · rw [hm] at h
      cases h
    · have hr := truthy_of_mintedLocalizedRow hm
      rw [hm] at h
      simp only [Except.ok.injEq, Prod.mk.injEq] at h
      exact Or.inr ⟨hu, r, rfl, by rw [getD_of_truthy hr, h.1], h.2⟩

end Saasmint
