/-
Saasmint/Billing/PriceShown.lean

The price on display (apps/billing/serializers.py with the prefetches of
apps/billing/views.py) against the price that checkout charges.

The catalog shows the sticker of a minted country row, as checkout charges it.
Without one it shows the localized row of the billing currency, minted or not,
while checkout only charges a minted one and falls back to USD.  So the two
agree exactly when that row is not left unminted (`shown_is_charged_iff`).
The proof names the row on display (`displayedRow`) and compares it with
`chargedRow`, the row that checkout charges.

The fallback to USD also separates the two parts of what checkout is given: the
id becomes the USD one and the currency stays (`returned_currency_iff`).
-/
import Mathlib.Data.List.Find
import Saasmint.Billing.Pricing

namespace Saasmint

open PyStr

variable (u : UnicodeTables) (t : CatalogTables)

/-! ### Serializer -/

/-- The context of the catalog endpoints. -/
structure CatalogContext where
  currency : String
  preferredCurrency : Option String
  country : Option String
  deriving DecidableEq, Repr

/-- `_catalog_context`. -/
def catalogContext (st : Settings) (req : Request) (user : Option UserPreferences) :
    Except ValidationError CatalogContext := do
  let (billing, dualPref) ← resolveBillingCurrency u st req.queryCurrency user
  let country ← resolvePricingCountry u req user
  return ⟨billing, dualPref, country⟩

/-- A price with the related rows that a catalog view prefetches. -/
structure CatalogPrice where
  price : Price
  localizedPrices : List LocalizedPrice
  countryPrices : List CountryPrice
  deriving DecidableEq, Repr

/-- `_localized_prices_prefetch`. -/
def CatalogTables.localizedPricesPrefetch (owner : PriceOwner) (currency : String)
    (preferredCurrency : Option String) : List LocalizedPrice :=
  let wanted := (currency :: preferredCurrency.toList).filter fun c => c ≠ "" && c ≠ "usd"
  t.localizedPrices.filter fun r => r.owner = owner && r.currency ∈ wanted

/-- `_country_prices_prefetch`. -/
def CatalogTables.countryPricesPrefetch (owner : PriceOwner) (country : Option String) :
    List CountryPrice :=
  match country.filter (· ≠ "") with
  | none => []
  | some c => t.countryPrices.filter fun r =>
      r.owner = owner && r.country = c && r.stripePriceId.isSome

/-- A price as `PlanListView` and `ProductListView` load it. -/
def CatalogTables.catalogPrice (price : Price) (ctx : CatalogContext) : CatalogPrice where
  price := price
  localizedPrices := t.localizedPricesPrefetch price.owner ctx.currency ctx.preferredCurrency
  countryPrices := t.countryPricesPrefetch price.owner ctx.country

/-- `_localized_display`. -/
def localizedDisplay (p : CatalogPrice) (currency : String) : ℚ × String :=
  if currency = "usd" then (formatAmount p.price.amount "usd", "usd")
  else match p.localizedPrices.find? fun r => r.currency = currency with
    | some r => (formatAmount r.amountMinor currency, currency)
    | none => (formatAmount p.price.amount "usd", "usd")

/-- `_country_display`. -/
def countryDisplay (p : CatalogPrice) (country : Option String) : Option (ℚ × String) :=
  match country.filter (· ≠ "") with
  | none => none
  | some c => (p.countryPrices.find? fun r => r.country = c).map fun r =>
      (formatAmount r.stickerMinor r.currency, r.currency)

/-- `_local_display`. -/
def localDisplay (p : CatalogPrice) (preferredCurrency : Option String) :
    Option (ℚ × String) :=
  preferredCurrency.bind fun pref =>
    (p.localizedPrices.find? fun r => r.currency = pref).map fun r =>
      (formatAmount r.amountMinor pref, pref)

/-- The fields of a serialized price. -/
structure PriceRepresentation where
  amount : Int
  displayAmount : ℚ
  currency : String
  localDisplayAmount : Option ℚ
  localCurrency : Option String
  taxInclusive : Bool
  deriving DecidableEq, Repr

/-- `_PriceSerializer.to_representation`. -/
def toRepresentation (p : CatalogPrice) (ctx : CatalogContext) : PriceRepresentation :=
  let (display, taxInclusive) :=
    match countryDisplay p ctx.country with
    | some d => (d, true)
    | none => (localizedDisplay p ctx.currency, false)
  let loc := localDisplay p ctx.preferredCurrency
  { amount := p.price.amount
    displayAmount := display.1
    currency := display.2
    localDisplayAmount := loc.map Prod.fst
    localCurrency := loc.map Prod.snd
    taxInclusive := taxInclusive }

/-! ### Shown and charged -/

namespace CatalogRow

/-- How a row is shown: its amount and currency, and whether tax is included. -/
def display : CatalogRow → (ℚ × String) × Bool
  | usd price => ((formatAmount price.amount "usd", "usd"), false)
  | localized r => ((formatAmount r.amountMinor r.currency, r.currency), false)
  | country r => ((formatAmount r.stickerMinor r.currency, r.currency), true)

/-- The currency and the unit amount that the Stripe Price of a row is to have. -/
def implied : CatalogRow → Int × String
  | usd price => (price.amount, "usd")
  | localized r => (r.amountMinor, r.currency)
  | country r => (r.baseMinor, r.currency)

end CatalogRow

/-- The rows of a price. -/
def CatalogTables.RowOf (price : Price) : CatalogRow → Prop
  | .usd p => p = price
  | .localized r => r ∈ t.localizedPrices ∧ r.owner = price.owner
  | .country r => r ∈ t.countryPrices ∧ r.owner = price.owner

/-- The row that the catalog shows: as `chargedRow`, but whether or not the row
of the billing currency is minted. -/
def CatalogTables.displayedRow (price : Price) (ctx : CatalogContext) : CatalogRow :=
  match t.mintedCountryRow price.owner ctx.country with
  | some r => .country r
  | none =>
    if ctx.currency = "usd" then .usd price
    else match t.localizedRow price.owner ctx.currency with
      | some r => .localized r
      | none => .usd price

/-- Every id stored on a row of the price denotes a Stripe Price of the row's
amount and currency; the empty text denotes none. -/
structure CatalogTables.Denotes (price : Price) (stripe : String → Option (Int × String)) :
    Prop where
  row : ∀ r, t.RowOf price r → ∀ x, r.stripePriceId = some x → stripe x = some r.implied
  empty : stripe "" = none

/-- What the serializer shows is a row of the price, and its Stripe Price is the
one with the id `x`. -/
def CatalogTables.ShownIsCharged (price : Price) (rep : PriceRepresentation) (x : String) : Prop :=
  ∃ row, t.RowOf price row ∧ row.stripePriceId = some x ∧
    row.display = ((rep.displayAmount, rep.currency), rep.taxInclusive)

/-- The localized row on display, if there is one, is minted. -/
def CatalogTables.DisplayedIsMinted (price : Price) (ctx : CatalogContext) : Prop :=
  t.mintedCountryRow price.owner ctx.country = none → ctx.currency ≠ "usd" →
    ∀ r, t.localizedRow price.owner ctx.currency = some r → truthy r.stripePriceId = true

variable {u t} {price : Price} {ctx : CatalogContext}
  {stripe : String → Option (Int × String)}

/-- An id that denotes a Stripe Price is usable. -/
theorem CatalogTables.Denotes.truthy_iff (hden : t.Denotes price stripe) (row : CatalogRow)
    (hrow : t.RowOf price row) :
    truthy row.stripePriceId = true ↔ row.stripePriceId.isSome = true := by
  refine ⟨isSome_of_truthy, fun h => ?_⟩
  obtain ⟨x, hx⟩ := Option.isSome_iff_exists.mp h
  rw [hx, truthy_some, decide_eq_true_iff]
  rintro rfl
  have := hden.row row hrow "" hx
  rw [hden.empty] at this
  cases this

/-- The country row on display is the one that checkout charges. -/
theorem countryDisplay_catalogPrice (hden : t.Denotes price stripe) :
    countryDisplay (t.catalogPrice price ctx) ctx.country
      = (t.mintedCountryRow price.owner ctx.country).map fun r =>
        (formatAmount r.stickerMinor r.currency, r.currency) := by
  unfold countryDisplay CatalogTables.catalogPrice CatalogTables.countryPricesPrefetch
    CatalogTables.mintedCountryRow
  rcases ctx.country.filter fun x => decide (x ≠ "") with - | c
  · rfl
  · simp only [List.find?_filter, Option.bind_some]
    congr 1
    refine List.find?_congr fun r hr => ?_
    by_cases ho : r.owner = price.owner
    · have := hden.truthy_iff (.country r) ⟨hr, ho⟩
      simp only [CatalogRow.stripePriceId] at this
      grind
    · simp [ho]

theorem localizedRow_spec {owner : PriceOwner} {currency : String} {r : LocalizedPrice}
    (h : t.localizedRow owner currency = some r) :
    r ∈ t.localizedPrices ∧ r.owner = owner ∧ r.currency = currency := by
  have hr := List.find?_some h
  simp only [Bool.and_eq_true, decide_eq_true_eq] at hr
  exact ⟨List.mem_of_find?_eq_some h, hr⟩

/-- Without a country row the serializer shows the row of the billing currency,
minted or not. -/
theorem localizedDisplay_catalogPrice (hne : ctx.currency ≠ "") :
    localizedDisplay (t.catalogPrice price ctx) ctx.currency
      = if ctx.currency = "usd" then (formatAmount price.amount "usd", "usd")
        else match t.localizedRow price.owner ctx.currency with
          | some r => (formatAmount r.amountMinor ctx.currency, ctx.currency)
          | none => (formatAmount price.amount "usd", "usd") := by
  unfold localizedDisplay
  by_cases hu : ctx.currency = "usd"
  · rw [if_pos hu, if_pos hu]
    rfl
  · rw [if_neg hu, if_neg hu]
    have hfind : ((t.catalogPrice price ctx).localizedPrices.find? fun r =>
          r.currency = ctx.currency) = t.localizedRow price.owner ctx.currency := by
      simp only [CatalogTables.catalogPrice, CatalogTables.localizedPricesPrefetch,
        CatalogTables.localizedRow, List.find?_filter]
      refine List.find?_congr fun r hr => ?_
      by_cases hrc : r.currency = ctx.currency
      · simp [hrc, hne, hu]
      · simp [hrc]
    rw [hfind]
    rfl

/-- The serializer shows the displayed row. -/
theorem toRepresentation_display (hden : t.Denotes price stripe) (hne : ctx.currency ≠ "") :
    let rep := toRepresentation (t.catalogPrice price ctx) ctx
    (t.displayedRow price ctx).display = ((rep.displayAmount, rep.currency), rep.taxInclusive) := by
  unfold toRepresentation CatalogTables.displayedRow
  rw [countryDisplay_catalogPrice hden, localizedDisplay_catalogPrice hne]
  rcases t.mintedCountryRow price.owner ctx.country with - | r
  · by_cases hu : ctx.currency = "usd"
    · simp [hu, CatalogRow.display]
    · rcases e : t.localizedRow price.owner ctx.currency with - | r
      · simp [hu, CatalogRow.display]
      · simp [hu, CatalogRow.display, (localizedRow_spec e).2.2]
  · rfl

/-- A billing currency is one of the supported ones. -/
theorem resolveBillingCurrency_mem {st : Settings} {query : Option String}
    {user : Option UserPreferences} {billing : String} {d : Option String}
    (h : resolveBillingCurrency u st query user = .ok (billing, d)) :
    billing ∈ st.billingCurrencies := by
  unfold resolveBillingCurrency at h
  simp only at h
  split at h
  · cases h
  · simp only [Except.ok.injEq, Prod.mk.injEq] at h
    obtain ⟨rfl, -⟩ := h
    split
    case isTrue h => exact h
    case isFalse => exact st.usd_mem

theorem mintedCountryRow_rowOf {country : Option String} {r : CountryPrice}
    (h : t.mintedCountryRow price.owner country = some r) : t.RowOf price (.country r) := by
  obtain ⟨c, -, hfind⟩ := Option.bind_eq_some_iff.mp h
  have hr := List.find?_some hfind
  simp only [Bool.and_eq_true, decide_eq_true_eq] at hr
  exact ⟨List.mem_of_find?_eq_some hfind, hr.1.1⟩

/-- Both sides of a row are in one currency. -/
theorem CatalogRow.display_currency (row : CatalogRow) : row.display.1.2 = row.implied.2 := by
  cases row <;> rfl

theorem displayedRow_rowOf : t.RowOf price (t.displayedRow price ctx) := by
  unfold CatalogTables.displayedRow
  split
  · exact mintedCountryRow_rowOf ‹_›
  · split
    · rfl
    · split
      · have h := localizedRow_spec ‹_›
        exact ⟨h.1, h.2.1⟩
      · rfl

/-- A minted row on display is the row charged. -/
theorem displayedRow_eq_chargedRow (hc : t.Constraints) (h : t.DisplayedIsMinted price ctx) :
    t.displayedRow price ctx = t.chargedRow price ctx.country ctx.currency := by
  unfold CatalogTables.displayedRow CatalogTables.chargedRow
  rcases hcr : t.mintedCountryRow price.owner ctx.country with - | r
  · by_cases hu : ctx.currency = "usd"
    · simp [hu]
    · rw [mintedLocalizedRow_eq_filter hc]
      rcases hl : t.localizedRow price.owner ctx.currency with - | r
      · simp
      · have hf : (some r).filter (truthy ·.stripePriceId) = some r :=
          Option.filter_some_pos (h hcr hu r hl)
        rw [hf]
  · rfl

/-- An unminted row on display leaves USD to be charged. -/
theorem chargedRow_of_unminted (hc : t.Constraints) (h : ¬ t.DisplayedIsMinted price ctx) :
    t.chargedRow price ctx.country ctx.currency = .usd price ∧
      (t.displayedRow price ctx).display.1.2 ≠ "usd" := by
  unfold CatalogTables.DisplayedIsMinted at h
  push Not at h
  obtain ⟨hcr, hu, r, hl, hm⟩ := h
  unfold CatalogTables.displayedRow CatalogTables.chargedRow
  rw [mintedLocalizedRow_eq_filter hc, hcr, hl]
  constructor
  · simp [hu, Option.filter_some, hm]
  · simp [hu, CatalogRow.display, (localizedRow_spec hl).2.2]

/-- The context of a catalog request is what the two resolvers return. -/
theorem catalogContext_ok {st : Settings} {req : Request} {user : Option UserPreferences}
    (h : catalogContext u st req user = .ok ctx) :
    (∃ d, resolveBillingCurrency u st req.queryCurrency user = .ok (ctx.currency, d)) ∧
      resolvePricingCountry u req user = .ok ctx.country := by
  unfold catalogContext at h
  rcases hb : resolveBillingCurrency u st req.queryCurrency user with e | ⟨b, d⟩
  · rw [hb] at h
    cases h
  rcases hcn : resolvePricingCountry u req user with e | c
  · rw [hb, hcn] at h
    cases h
  · rw [hb, hcn] at h
    cases h
    exact ⟨⟨d, rfl⟩, rfl⟩

theorem resolveBillingCurrency_ne_empty {st : Settings} {query : Option String}
    {user : Option UserPreferences} {billing : String} {d : Option String}
    (h : resolveBillingCurrency u st query user = .ok (billing, d)) : billing ≠ "" := by
  rintro rfl
  have hs := st.supported _ (resolveBillingCurrency_mem h)
  revert hs
  decide

/-- **The price shown is the price charged exactly when no unminted row is on
display.** -/
theorem shown_is_charged_iff (cat : Catalog) {st : Settings} {req : Request}
    {user : Option UserPreferences} {lp : LoadedPrice}
    (hden : cat.Denotes lp.price stripe) (hl : lp.LoadedFor cat.toCatalogTables ctx.currency)
    (hctx : catalogContext u st req user = .ok ctx) :
    ∃ x cur, resolveCheckoutPrice u cat.toCatalogTables st lp req user = .ok (x, cur) ∧
      (cat.ShownIsCharged lp.price (toRepresentation (cat.catalogPrice lp.price ctx) ctx) x ↔
        cat.DisplayedIsMinted lp.price ctx) := by
  obtain ⟨⟨d, hbill⟩, hcountry⟩ := catalogContext_ok hctx
  obtain ⟨x, cur, hok, hx⟩ := resolveCheckoutPrice_of_resolved cat.constraints hl hcountry hbill
  have hshown := toRepresentation_display hden (resolveBillingCurrency_ne_empty hbill)
  refine ⟨x, cur, hok, ?_, fun hm => ?_⟩
  · -- a row with the id charged is in USD, so no other currency may be on display
    rintro ⟨row, hrowOf, hid, hdisplay⟩
    by_contra hm
    obtain ⟨hcharged, hcur⟩ := chargedRow_of_unminted cat.constraints hm
    rw [hcharged] at hx
    have himp : row.implied = (lp.price.amount, "usd") := by
      have h₁ := hden.row row hrowOf x hid
      have h₂ := hden.row (.usd lp.price) rfl x hx
      exact Option.some.inj (h₁.symm.trans h₂)
    refine hcur ?_
    rw [hshown, ← hdisplay, row.display_currency, himp]
  · rw [← displayedRow_eq_chargedRow cat.constraints hm] at hx
    exact ⟨_, displayedRow_rowOf, hx, hshown⟩

/-- One plan at 19.99 USD, with 17.99 EUR on display and not yet minted. -/
def unmintedCatalog : Catalog where
  plans := [⟨1, "Pro", "", .personal, .pro, .month, true⟩]
  planPrices := [⟨2, 1, "price_usd", 1999⟩]
  products := []
  productPrices := []
  localizedPrices := [⟨.planPrice 2, "eur", 1799, none, 0⟩]
  countryPrices := []
  constraints := by constructor <;> decide

/-- Its price, as checkout loads it. -/
def unmintedPrice : LoadedPrice := ⟨.plan ⟨2, 1, "price_usd", 1999⟩, none⟩

theorem unmintedCatalog_denotes :
    unmintedCatalog.Denotes unmintedPrice.price
      fun x => if x = "price_usd" then some (1999, "usd") else none where
  row := by
    rintro (p | r | r) hrow x hx
    · cases hrow
      cases hx
      rfl
    · obtain ⟨hr, -⟩ := hrow
      rw [List.mem_singleton.mp hr] at hx
      cases hx
    · cases hrow.1
  empty := rfl

theorem shown_is_charged_iff_usd :
    ∃ x cur, resolveCheckoutPrice asciiTables unmintedCatalog.toCatalogTables eurSettings
        unmintedPrice ⟨none, none, none, none⟩ none = .ok (x, cur) ∧
      (unmintedCatalog.ShownIsCharged unmintedPrice.price
          (toRepresentation (unmintedCatalog.catalogPrice unmintedPrice.price ⟨"usd", none, none⟩)
            ⟨"usd", none, none⟩) x ↔
        unmintedCatalog.DisplayedIsMinted unmintedPrice.price ⟨"usd", none, none⟩) :=
  shown_is_charged_iff unmintedCatalog unmintedCatalog_denotes (Or.inl rfl) (by decide)

/-- A visitor who asks for EUR is shown 17.99 EUR and charged 19.99 USD. -/
theorem eur_shown_usd_charged :
    let ctx : CatalogContext := ⟨"eur", none, none⟩
    let rep := toRepresentation (unmintedCatalog.catalogPrice unmintedPrice.price ctx) ctx
    catalogContext asciiTables eurSettings ⟨some "eur", none, none, none⟩ none = .ok ctx ∧
    (rep.displayAmount, rep.currency) = (formatAmount 1799 "eur", "eur") ∧
    resolveCheckoutPrice asciiTables unmintedCatalog.toCatalogTables eurSettings unmintedPrice
      ⟨some "eur", none, none, none⟩ none = .ok ("price_usd", "eur") ∧
    ¬ unmintedCatalog.ShownIsCharged unmintedPrice.price rep "price_usd" := by
  refine ⟨by decide, rfl, by decide, ?_⟩
  rintro ⟨p | r | r, hrow, hid, hd⟩
  · have hcur : "usd" = "eur" := congrArg (fun d => d.1.2) hd
    exact absurd hcur (by decide)
  · rw [List.mem_singleton.mp hrow.1] at hid
    cases hid
  · cases hrow.1

/-! ### The currency returned -/

/-- An id stored on a row of the price denotes, if anything, a Stripe Price in
the row's currency. -/
def CatalogTables.PricedInCurrency (t : CatalogTables) (price : Price)
    (stripeCurrency : String → Option String) : Prop :=
  ∀ row, t.RowOf price row → ∀ x, row.stripePriceId = some x →
    ∀ c, stripeCurrency x = some c → c = row.implied.2

/-- What `create_checkout_session` asks of its arguments: the billing currency
is that of the Stripe Price. -/
def CurrencyMatches (stripeCurrency : String → Option String) (x billingCurrency : String) :
    Prop :=
  ∀ c, stripeCurrency x = some c → c = billingCurrency

/-- A request that no country row answers is billed in USD or has a minted row
in its billing currency. -/
def CatalogTables.BilledFromARow (u : UnicodeTables) (t : CatalogTables) (st : Settings)
    (price : Price) (req : Request) (user : Option UserPreferences) : Prop :=
  ∀ country, resolvePricingCountry u req user = .ok country →
    t.mintedCountryRow price.owner country = none →
    ∀ billing d, resolveBillingCurrency u st req.queryCurrency user = .ok (billing, d) →
      billing = "usd" ∨ (t.mintedLocalizedRow price.owner billing).isSome = true

theorem mintedLocalizedRow_rowOf {currency : String} {r : LocalizedPrice}
    (h : t.mintedLocalizedRow price.owner currency = some r) :
    t.RowOf price (.localized r) ∧ r.currency = currency := by
  have hr := List.find?_some h
  simp only [Bool.and_eq_true, decide_eq_true_eq] at hr
  exact ⟨⟨List.mem_of_find?_eq_some h, hr.1.1⟩, hr.1.2⟩

/-- The USD id does not match another currency, unless it denotes nothing. -/
theorem currencyMatches_fallback {price : Price} {stripeCurrency : String → Option String}
    (hpriced : t.PricedInCurrency price stripeCurrency) {x cur : String}
    (hx : (CatalogRow.usd price).stripePriceId = some x) (hu : cur ≠ "usd") :
    CurrencyMatches stripeCurrency x cur ↔ stripeCurrency x = none := by
  constructor
  · intro hmatch
    rcases hs : stripeCurrency x with - | c
    · rfl
    · exfalso
      apply hu
      rw [← hmatch c hs]
      exact hpriced (.usd price) rfl x hx c hs
  · intro hs c hc'
    rw [hs] at hc'
    cases hc'

/-- **The currency returned is that of the Stripe Price exactly when the charge
does not fall back to USD from another currency**, or there is no USD Price to
fall back to. -/
theorem returned_currency_iff (hc : t.Constraints) {st : Settings} {lp : LoadedPrice}
    {req : Request} {user : Option UserPreferences} {stripeCurrency : String → Option String}
    (hpriced : t.PricedInCurrency lp.price stripeCurrency)
    (hl : ∀ b d, resolveBillingCurrency u st req.queryCurrency user = .ok (b, d) →
      lp.LoadedFor t b)
    {x cur : String} (h : resolveCheckoutPrice u t st lp req user = .ok (x, cur)) :
    CurrencyMatches stripeCurrency x cur ↔
      t.BilledFromARow u st lp.price req user ∨ stripeCurrency lp.price.stripePriceId = none := by
  obtain ⟨country, hcountry, ⟨r, hr, hx, rfl⟩ | ⟨hnone, d, hbill, hx⟩⟩ :=
    resolveCheckoutPrice_ok hc hl h
  · -- a country row: its id with its currency
    apply iff_of_true
    · exact hpriced _ (mintedCountryRow_rowOf hr) x hx
    · apply Or.inl
      intro country' hcountry' hnone
      obtain rfl : country = country' := Except.ok.inj (hcountry.symm.trans hcountry')
      rw [hr] at hnone
      cases hnone
  · have hbilled : t.BilledFromARow u st lp.price req user ↔
        cur = "usd" ∨ (t.mintedLocalizedRow lp.price.owner cur).isSome = true := by
      constructor
      · intro hb
        exact hb country hcountry hnone cur d hbill
      · intro hb country' _ _ billing d' hbill'
        obtain ⟨rfl, -⟩ := Prod.mk.inj (Except.ok.inj (hbill.symm.trans hbill'))
        exact hb
    rw [hbilled]
    unfold CatalogTables.chargedRow at hx
    rw [hnone] at hx
    by_cases hu : cur = "usd"
    · apply iff_of_true
      · rw [hu]
        apply hpriced (.usd lp.price) rfl x
        simpa [hu] using hx
      · exact Or.inl (Or.inl hu)
    · simp only [hu, if_false, false_or] at hx ⊢
      rcases hm : t.mintedLocalizedRow lp.price.owner cur with - | r
      · -- the USD id with another currency
        rw [hm] at hx
        have hid : lp.price.stripePriceId = x := Option.some.inj hx
        show CurrencyMatches stripeCurrency x cur ↔ false = true ∨ _
        simp only [Bool.false_eq_true, false_or, hid]
        exact currencyMatches_fallback hpriced hx hu
      · rw [hm] at hx
        obtain ⟨hrow, rfl⟩ := mintedLocalizedRow_rowOf hm
        apply iff_of_true
        · exact hpriced (.localized r) hrow x hx
        · exact Or.inl rfl

/-- Stripe has the USD price of the shop. -/
def unmintedCurrency (x : String) : Option String := if x = "price_usd" then some "usd" else none

theorem unmintedCatalog_priced :
    unmintedCatalog.PricedInCurrency unmintedPrice.price unmintedCurrency := by
  intro row hrow x hx c hcur
  have hden : (if x = "price_usd" then some ((1999 : Int), "usd") else none) = some row.implied :=
    unmintedCatalog_denotes.row row hrow x hx
  unfold unmintedCurrency at hcur
  split_ifs at hcur hden
  rw [← Option.some.inj hden]
  exact (Option.some.inj hcur).symm

theorem returned_currency_iff_usd :
    CurrencyMatches unmintedCurrency "price_usd" "usd" ↔
      unmintedCatalog.BilledFromARow asciiTables eurSettings unmintedPrice.price
          ⟨none, none, none, none⟩ none ∨
        unmintedCurrency unmintedPrice.price.stripePriceId = none :=
  returned_currency_iff unmintedCatalog.constraints unmintedCatalog_priced
    (fun _ _ _ => Or.inl rfl) (by decide)

/-- Asked for EUR, the resolver returns the id of a USD Price with EUR. -/
theorem eur_returned_with_usd_price :
    unmintedCatalog.PricedInCurrency unmintedPrice.price unmintedCurrency ∧
    resolveCheckoutPrice asciiTables unmintedCatalog.toCatalogTables eurSettings unmintedPrice
      ⟨some "eur", none, none, none⟩ none = .ok ("price_usd", "eur") ∧
    ¬ CurrencyMatches unmintedCurrency "price_usd" "eur" := by
  refine ⟨unmintedCatalog_priced, by decide, fun h => ?_⟩
  have hcur : "usd" = "eur" := h "usd" rfl
  exact absurd hcur (by decide)

end Saasmint
