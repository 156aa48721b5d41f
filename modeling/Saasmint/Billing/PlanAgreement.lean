/-
Saasmint/Billing/PlanAgreement.lean

Whether checkout and the webhooks agree on the plan of a Stripe Price.

Checkout and plan change hand Stripe the id of a USD, a localized or a country
row of the plan's price.  The webhook side looks the id up among the USD rows
only.  So the two agree exactly when the USD row was charged
(`checkout_agrees_iff`); a subscription bought at any other row is rejected as
`Unknown price` by every one of its webhooks.
-/
import Saasmint.Billing.Pricing
import Saasmint.Billing.Webhooks

namespace Saasmint

open PyStr

variable (u : UnicodeTables)

/-- A payload that a sync can read: a first item with a period window, a
status that exists and a customer that is known. -/
structure SubscriptionData.WellFormed (db : BillingDb) (d : SubscriptionData)
    (item : SubscriptionItem) : Prop where
  items : d.items.head? = some item
  window : ∃ w, extractPeriodWindow d item = .ok w
  status : ∃ st, SubscriptionStatus.ofValue d.status = some st
  customer : ∃ c, db.getCustomerByStripeId d.customer = some c

/-- The webhook side takes the Stripe Price `x` for a price of the plan: the
lookup finds it, and a sync of a subscription at `x` writes the plan. -/
def CatalogTables.WebhookKnows (t : CatalogTables) (x : String) (planId : UUID) : Prop :=
  (∃ pp, t.getPriceByStripeId x = some pp ∧ pp.planId = planId) ∧
    ∀ (db : BillingDb) (now : Timestamp) (d : SubscriptionData) (item : SubscriptionItem),
      db.catalog = t → d.WellFormed db item → item.priceId = x →
        ∃ db' row, syncSubscriptionFromData u db now d = .ok db' ∧
          db'.subscriptions.getByStripeId d.id = some row ∧ row.planId = planId

/-- A checkout with these parameters falls through to the USD price: no minted
row for the pricing country, and none for a billing currency other than USD. -/
def CatalogTables.ChargesUsd (t : CatalogTables) (st : Settings) (price : Price) (req : Request)
    (user : Option UserPreferences) : Prop :=
  ∀ country, resolvePricingCountry u req user = .ok country →
    t.mintedCountryRow price.owner country = none ∧
      ∀ billing d, resolveBillingCurrency u st req.queryCurrency user = .ok (billing, d) →
        billing = "usd" ∨ t.mintedLocalizedRow price.owner billing = none

variable {u} {t : CatalogTables}

/-- The lookup finds the plan price whose id it is given. -/
theorem getPriceByStripeId_of_mem (hc : t.Constraints) {pp : PlanPrice} (h : pp ∈ t.planPrices) :
    t.getPriceByStripeId pp.stripePriceId = some pp := by
  have hu := Table.unique_some_iff.mpr hc.planPrice_stripe
  have hfind := (Table.find?_eq_some_iff hu (v := pp.stripePriceId) (a := pp)).mpr ⟨h, rfl⟩
  simpa [CatalogTables.getPriceByStripeId] using hfind

/-- Where ids are distinct, the id of a localized or country row is not found. -/
theorem getPriceByStripeId_eq_none (hd : t.storedPriceIds.Nodup) {x : String}
    (hx : x ∈ t.localizedPrices.filterMap LocalizedPrice.stripePriceId
      ++ t.countryPrices.filterMap CountryPrice.stripePriceId) :
    t.getPriceByStripeId x = none := by
  refine List.find?_eq_none.mpr fun pp hpp hppx => ?_
  have hmem : x ∈ t.planPrices.map PlanPrice.stripePriceId :=
    List.mem_map.mpr ⟨pp, hpp, by simpa using hppx⟩
  unfold CatalogTables.storedPriceIds at hd
  simp only [List.append_assoc] at hd
  have hdisj := (List.nodup_append'.mp hd).2.2
  exact hdisj hmem (List.mem_append_right _ hx)

/-- A price that the lookup finds is one that a sync writes. -/
theorem webhookKnows_iff {x : String} {planId : UUID} :
    t.WebhookKnows u x planId ↔ ∃ pp, t.getPriceByStripeId x = some pp ∧ pp.planId = planId := by
  refine ⟨And.left, fun h => ⟨h, ?_⟩⟩
  obtain ⟨pp, hfind, hplan⟩ := h
  rintro db now d item rfl ⟨hitem, ⟨⟨s, e⟩, hwindow⟩, ⟨st, hst⟩, ⟨c, hcust⟩⟩ rfl
  have hfields : syncedFields u db d = some (c, d.mirrored u item st pp.planId s e) := by
    simp [syncedFields, hitem, hwindow, hst, hcust, hfind, Except.toOption]
  obtain ⟨db', hok, hsets⟩ := syncSubscriptionFromData_spec now hfields
  exact ⟨db', _, hok, hsets.found, hplan⟩

theorem webhookKnows_usd (hc : t.Constraints) {pp : PlanPrice} (h : pp ∈ t.planPrices) :
    t.WebhookKnows u pp.stripePriceId pp.planId :=
  webhookKnows_iff.mpr ⟨pp, getPriceByStripeId_of_mem hc h, rfl⟩

theorem not_webhookKnows_localized (hd : t.storedPriceIds.Nodup) {owner : PriceOwner}
    {currency x : String} {planId : UUID} {r : LocalizedPrice}
    (hr : t.mintedLocalizedRow owner currency = some r) (hx : r.stripePriceId = some x) :
    ¬ t.WebhookKnows u x planId := by
  have hmem : r ∈ t.localizedPrices := List.mem_of_find?_eq_some hr
  have hnone := getPriceByStripeId_eq_none hd
    (List.mem_append_left _ (List.mem_filterMap.mpr ⟨r, hmem, hx⟩))
  rw [webhookKnows_iff, hnone]
  rintro ⟨pp, h, -⟩
  cases h

theorem not_webhookKnows_country (hd : t.storedPriceIds.Nodup) {owner : PriceOwner}
    {country : Option String} {x : String} {planId : UUID} {r : CountryPrice}
    (hr : t.mintedCountryRow owner country = some r) (hx : r.stripePriceId = some x) :
    ¬ t.WebhookKnows u x planId := by
  obtain ⟨c, -, hfind⟩ := Option.bind_eq_some_iff.mp hr
  have hmem : r ∈ t.countryPrices := List.mem_of_find?_eq_some hfind
  have hnone := getPriceByStripeId_eq_none hd
    (List.mem_append_right _ (List.mem_filterMap.mpr ⟨r, hmem, hx⟩))
  rw [webhookKnows_iff, hnone]
  rintro ⟨pp, h, -⟩
  cases h

/-- A checkout agrees with the webhooks exactly when it charges USD. -/
theorem checkout_agrees_iff (hc : t.Constraints) (hd : t.storedPriceIds.Nodup) {st : Settings}
    {pp : PlanPrice} (hpp : pp ∈ t.planPrices) {lp : LoadedPrice} (hlp : lp.price = .plan pp)
    {req : Request} {user : Option UserPreferences} {x cur : String}
    (hl : ∀ b d, resolveBillingCurrency u st req.queryCurrency user = .ok (b, d) →
      lp.LoadedFor t b)
    (h : resolveCheckoutPrice u t st lp req user = .ok (x, cur)) :
    t.WebhookKnows u x pp.planId ↔ t.ChargesUsd u st lp.price req user := by
  obtain ⟨country, hcountry, hcase⟩ := resolveCheckoutPrice_ok hc hl h
  rcases hcase with ⟨r, hr, hx, -⟩ | ⟨hnone, d, hbill, hx⟩
  · -- a country row was charged
    refine iff_of_false (not_webhookKnows_country hd hr hx) fun hcond => ?_
    rw [(hcond country hcountry).1] at hr
    cases hr
  · unfold CatalogTables.chargedRow at hx
    rw [hnone] at hx
    have hcond : t.ChargesUsd u st lp.price req user ↔
        (cur = "usd" ∨ t.mintedLocalizedRow lp.price.owner cur = none) := by
      constructor
      · intro hcond
        exact (hcond country hcountry).2 cur d hbill
      · rintro hb country' hcountry'
        obtain rfl : country = country' := by
          rw [hcountry] at hcountry'
          exact Except.ok.inj hcountry'
        refine ⟨hnone, fun billing' d' hbill' => ?_⟩
        obtain ⟨rfl, -⟩ : cur = billing' ∧ d = d' := by
          rw [hbill] at hbill'
          exact Prod.mk.inj (Except.ok.inj hbill')
        exact hb
    rw [hcond]
    by_cases hu : cur = "usd"
    · -- the USD price, by the billing currency
      simp only [hu, if_true, CatalogRow.stripePriceId, hlp, Option.some.injEq] at hx
      exact iff_of_true (hx ▸ webhookKnows_usd hc hpp) (Or.inl hu)
    · rcases hm : t.mintedLocalizedRow lp.price.owner cur with - | r
      · -- the USD price, for want of a minted row
        simp only [hu, if_false, hm] at hx
        simp only [CatalogRow.stripePriceId, hlp, Option.some.injEq] at hx
        exact iff_of_true (hx ▸ webhookKnows_usd hc hpp) (Or.inr rfl)
      · -- a localized row was charged
        simp only [hu, if_false, hm, CatalogRow.stripePriceId] at hx
        refine iff_of_false (not_webhookKnows_localized hd hm hx) ?_
        rintro (h | h)
        · exact hu h
        · cases h

/-- A plan change agrees with the webhooks exactly when the subscription is in
USD. -/
theorem planChange_agrees_iff (hc : t.Constraints) (hd : t.storedPriceIds.Nodup)
    {pp : PlanPrice} (hpp : pp ∈ t.planPrices) {lp : LoadedPrice} (hlp : lp.price = .plan pp)
    {currency x : String} {amount : Int} (hl : lp.LoadedFor t currency)
    (h : resolvePlanChangePrice t lp currency = .ok (x, amount)) :
    t.WebhookKnows u x pp.planId ↔ currency = "usd" := by
  rcases resolvePlanChangePrice_ok hc hl h with ⟨hu, hx, -⟩ | ⟨hu, r, hr, hx, -⟩
  · refine iff_of_true ?_ hu
    rw [hx, hlp]
    exact webhookKnows_usd hc hpp
  · exact iff_of_false (not_webhookKnows_localized hd hr hx) hu

/-- **Checkout and webhooks agree on the plan exactly when USD is charged.**
For a checkout: the pricing country has no minted row and neither has the
billing currency, unless it is USD.  For a plan change: the subscription is in
USD. -/
theorem webhookKnows_charged_iff (cat : Catalog) (hd : cat.storedPriceIds.Nodup)
    {pp : PlanPrice} (hpp : pp ∈ cat.planPrices) {lp : LoadedPrice} (hlp : lp.price = .plan pp) :
    (∀ st req user x cur,
      (∀ b d, resolveBillingCurrency u st req.queryCurrency user = .ok (b, d) →
        lp.LoadedFor cat.toCatalogTables b) →
      resolveCheckoutPrice u cat.toCatalogTables st lp req user = .ok (x, cur) →
        (cat.WebhookKnows u x pp.planId ↔ cat.ChargesUsd u st lp.price req user)) ∧
    (∀ currency x amount, lp.LoadedFor cat.toCatalogTables currency →
      resolvePlanChangePrice cat.toCatalogTables lp currency = .ok (x, amount) →
        (cat.WebhookKnows u x pp.planId ↔ currency = "usd")) := by
  constructor
  · intro st req user x cur hl h
    exact checkout_agrees_iff cat.constraints hd hpp hlp hl h
  · intro currency x amount hl h
    exact planChange_agrees_iff cat.constraints hd hpp hlp hl h

/-- One personal plan at 19.99 USD with a minted price of 17.99 EUR. -/
def eurCatalog : Catalog where
  plans := [⟨1, "Pro", "", .personal, .pro, .month, true⟩]
  planPrices := [⟨2, 1, "price_usd", 1999⟩]
  products := []
  productPrices := []
  localizedPrices := [⟨.planPrice 2, "eur", 1799, some "price_eur", 0⟩]
  countryPrices := []
  constraints := by constructor <;> decide

/-- A subscription at a price, as Stripe sends it. -/
def subscriptionAt (priceId : String) : SubscriptionData where
  id := "sub_1"
  customer := "cus_1"
  status := "active"
  items := [⟨priceId, some "eur", some 1, .int 100, .int 200⟩]
  currency := some "eur"
  trialEnd := none
  canceledAt := none
  cancelAt := none
  currentPeriodStart := .missing
  currentPeriodEnd := .missing

/-- The database before the webhook: the catalog and one customer. -/
def eurDb : BillingDb := ⟨eurCatalog.toCatalogTables, [⟨3, "cus_1", .user 4⟩], .empty⟩

theorem webhookKnows_charged_iff_usd :
    eurCatalog.WebhookKnows asciiTables "price_usd" 1 ↔
      eurCatalog.ChargesUsd asciiTables eurSettings (.plan ⟨2, 1, "price_usd", 1999⟩)
        ⟨none, none, none, none⟩ none :=
  have hpp : (⟨2, 1, "price_usd", 1999⟩ : PlanPrice) ∈ eurCatalog.planPrices := by decide
  have hlp : (⟨.plan ⟨2, 1, "price_usd", 1999⟩, none⟩ : LoadedPrice).price
      = .plan ⟨2, 1, "price_usd", 1999⟩ := rfl
  (webhookKnows_charged_iff eurCatalog (by decide) hpp hlp).1 eurSettings
    ⟨none, none, none, none⟩ none "price_usd" "usd" (fun _ _ _ => Or.inl rfl) (by decide)

/-- A checkout in EUR charges the EUR row, and the webhook of the subscription
bought there is rejected. -/
theorem eur_checkout_rejected :
    eurCatalog.storedPriceIds.Nodup ∧
    resolveCheckoutPrice asciiTables eurCatalog.toCatalogTables eurSettings
        ⟨.plan ⟨2, 1, "price_usd", 1999⟩, none⟩ ⟨some "eur", none, none, none⟩ none
      = .ok ("price_eur", "eur") ∧
    resolvePlanChangePrice eurCatalog.toCatalogTables ⟨.plan ⟨2, 1, "price_usd", 1999⟩, none⟩ "eur"
      = .ok ("price_eur", 1799) ∧
    eurCatalog.getPriceByStripeId "price_eur" = none ∧
    (syncSubscriptionFromData asciiTables eurDb 0 (subscriptionAt "price_eur")).map (fun _ => ())
      = .error (.webhookData "Unknown price price_eur") := by
  refine ⟨by decide, by decide, by decide, by decide, ?_⟩
  rfl

end Saasmint
