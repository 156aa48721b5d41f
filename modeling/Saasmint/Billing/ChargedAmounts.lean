/-
Saasmint/Billing/ChargedAmounts.lean

Whether the Stripe Price that checkout selects still charges what its row implies.

The amounts are moved by `sync_localized_prices`, by `seed_catalog` and by the
save of the admin, the ids by `sync_stripe_catalog` alone.  A row and its price
therefore agree until an amount is moved, and a completed run of
`sync_stripe_catalog` makes all of them agree again (`charges_handle_iff`), unless
the FX job that it calls inline moves an amount that it has already sent.
-/
import Saasmint.Billing.PriceJobs
import Saasmint.Billing.StampedIds
import Saasmint.Lib.References

namespace Saasmint

open PyStr Programs

variable (u : UnicodeTables) (st : Settings)

/-! ### The rows that checkout uses -/

/-- The row whose Stripe Price id checkout uses for a price. -/
def CatalogTables.checkoutRow (t : CatalogTables) (price : Price) (req : Request)
    (user : Option UserPreferences) : Except ValidationError CatalogRow := do
  let country ← resolvePricingCountry u req user
  match t.mintedCountryRow price.owner country with
  | some r => return .country r
  | none =>
    let (billing, _) ← resolveBillingCurrency u st req.queryCurrency user
    return t.chargedRow price country billing

/-- The rows that checkout uses: those of the active prices, over all requests. -/
def CatalogTables.checkoutRows (t : CatalogTables) : Set CatalogRow :=
  {row | ∃ price, t.Holds (.usd price) ∧ t.activeOwner price.owner = true ∧
    ∃ req user, t.checkoutRow u st price req user = .ok row}

/-- The Stripe Price of each row that checkout uses has the amount of the row. -/
def SyncWorld.ChargesAmounts (w : SyncWorld) : Prop :=
  References.Coherent (fun row : CatalogRow => row.implied.1) CatalogRow.stripePriceId
    (fun x => (w.stripe.price x).map StripePrice.unitAmount) (w.tables.checkoutRows u st)

/-! ### Completed jobs -/

/-- A job that completes. -/
def priceAct (w : SyncWorld) (job : PriceJob) : Option SyncWorld :=
  match job with
  | .syncStripeCatalog env =>
    match handle u env st w with
    | .ok _ w' => some w'
    | .error _ _ => none
  | job => (job.edit u w.catalog).toOption.map w.withCatalog

/-- The data of a job on the database agree with every row that checkout uses and
that has a Stripe Price, and a run of `sync_stripe_catalog` moves no amount that it
has sent. -/
def KeepsCharged (w : SyncWorld) (job : PriceJob) : Prop :=
  match job with
  | .syncStripeCatalog env => w.SentStays u st env
  | job => ∀ row ∈ w.tables.checkoutRows u st,
      References.Live CatalogRow.stripePriceId
        (fun x => (w.stripe.price x).map StripePrice.unitAmount) row → job.Agrees u w.tables row

variable {u st}

/-! ### What decides which rows are used -/

section Rows

variable {t : CatalogTables}

theorem lower_eq_self {s : String} (h : ∀ c ∈ s.toList, isAscii c = true ∧ c.toLower = c) :
    lower u s = s := by
  unfold lower
  have hself : (s.toList.flatMap fun c => if isAscii c then [c.toLower] else u.lower c)
      = s.toList.flatMap fun c => [c] := by
    apply List.flatMap_congr
    intro c hc
    rw [if_pos (h c hc).1, (h c hc).2]
  rw [hself, List.flatMap_singleton']
  exact String.ofList_toList

/-- A request for a billing currency. -/
theorem resolveBillingCurrency_of_mem {currency : String} (h : currency ∈ st.billingCurrencies) :
    ∃ d, resolveBillingCurrency u st (some currency) none = .ok (currency, d) := by
  have hsupported := st.supported currency h
  have hcodes : ∀ c ∈ supportedCurrencies, c ≠ "" ∧ ∀ x ∈ c.toList, isAscii x = true ∧
      x.toLower = x := by
    decide
  obtain ⟨hne, hascii⟩ := hcodes currency hsupported
  refine ⟨none, ?_⟩
  unfold resolveBillingCurrency
  simp [Option.filter_some, hne, lower_eq_self hascii, hsupported, orElse, truthy_some, h]

theorem resolveBillingCurrency_usd : resolveBillingCurrency u st none none = .ok ("usd", none) := by
  unfold resolveBillingCurrency
  simp [orElse, st.usd_mem]

/-- What a row itself has to meet for some request to get it. -/
def CatalogRow.Offered (u : UnicodeTables) (st : Settings) : CatalogRow → Prop
  | usd _ => True
  | localized r =>
    r.currency ∈ st.billingCurrencies ∧ r.currency ≠ "usd" ∧ truthy r.stripePriceId = true
  | country r => truthy r.stripePriceId = true ∧ r.country ≠ "" ∧
    ∃ req user, resolvePricingCountry u req user = .ok (some r.country)

/-- No country resolves without a request for one. -/
theorem resolvePricingCountry_none (query : Option String) :
    resolvePricingCountry u ⟨query, none, none, none⟩ none = .ok none := by
  rfl

/-- A country row that a request can get. -/
theorem mintedCountryRow_eq_some_iff (hc : t.Constraints) {owner : PriceOwner} {country : String}
    {r : CountryPrice} :
    t.mintedCountryRow owner (some country) = some r ↔ country ≠ "" ∧ r ∈ t.countryPrices ∧
      r.owner = owner ∧ r.country = country ∧ truthy r.stripePriceId = true := by
  have hfind := Table.find?_filter_of_unique hc.uniq_country_price_country (owner, country)
    (fun _ => true) (fun r => truthy r.stripePriceId) fun _ _ => rfl
  have hrow : (t.countryPrices.find? fun r =>
      r.owner = owner && r.country = country && truthy r.stripePriceId)
        = (t.countryRow owner country).filter fun r => truthy r.stripePriceId := by
    simpa [CatalogTables.countryRow, Prod.mk.injEq] using hfind.symm
  unfold CatalogTables.mintedCountryRow
  by_cases hempty : country = ""
  · simp [hempty, Option.filter_some]
  · rw [Option.filter_some, if_pos (by simpa using hempty), Option.bind_some, hrow,
      Option.filter_eq_some_iff, CatalogTables.countryRow_eq_some_iff hc]
    simp [hempty, and_assoc]

theorem mintedLocalizedRow_eq_some_iff (hc : t.Constraints) {owner : PriceOwner}
    {currency : String} {r : LocalizedPrice} :
    t.mintedLocalizedRow owner currency = some r ↔ r ∈ t.localizedPrices ∧ r.owner = owner ∧
      r.currency = currency ∧ truthy r.stripePriceId = true := by
  rw [mintedLocalizedRow_eq_filter hc, Option.filter_eq_some_iff, localizedRow_eq_some_iff hc]
  simp [and_assoc]

theorem checkoutRow_of_minted {price : Price} {req : Request} {user : Option UserPreferences}
    {country : Option String} {r : CountryPrice}
    (hcountry : resolvePricingCountry u req user = .ok country)
    (hminted : t.mintedCountryRow price.owner country = some r) :
    t.checkoutRow u st price req user = .ok (.country r) := by
  unfold CatalogTables.checkoutRow
  simp only [hcountry, bind, Except.bind, hminted]
  rfl

theorem checkoutRow_of_unminted {price : Price} {req : Request} {user : Option UserPreferences}
    {country : Option String} {billing : String} {d : Option String}
    (hcountry : resolvePricingCountry u req user = .ok country)
    (hminted : t.mintedCountryRow price.owner country = none)
    (hbilling : resolveBillingCurrency u st req.queryCurrency user = .ok (billing, d)) :
    t.checkoutRow u st price req user = .ok (t.chargedRow price country billing) := by
  unfold CatalogTables.checkoutRow
  simp only [hcountry, bind, Except.bind, hminted, hbilling]
  rfl

/-- **The rows that checkout uses** are those of active owners that a request can get. -/
theorem mem_checkoutRows (hc : t.Constraints) {row : CatalogRow} :
    row ∈ t.checkoutRows u st ↔
      t.Holds row ∧ t.activeOwner row.owner = true ∧ row.Offered u st := by
  constructor
  · rintro ⟨price, hprice, hactive, req, user, hrow⟩
    unfold CatalogTables.checkoutRow at hrow
    obtain ⟨country, hcountry, hrow⟩ := Loops.bind_eq_ok.mp hrow
    rcases hminted : t.mintedCountryRow price.owner country with - | r <;> rw [hminted] at hrow
    · obtain ⟨⟨billing, d⟩, hbilling, hrow⟩ := Loops.bind_eq_ok.mp hrow
      cases hrow
      unfold CatalogTables.chargedRow
      rw [hminted]
      dsimp only
      split
      · exact ⟨hprice, hactive, trivial⟩
      · rename_i husd
        rcases hlocalized : t.mintedLocalizedRow price.owner billing with - | r
        · exact ⟨hprice, hactive, trivial⟩
        · obtain ⟨hr, howner, rfl, htruthy⟩ := (mintedLocalizedRow_eq_some_iff hc).mp hlocalized
          have hactive : t.activeOwner r.owner = true := howner ▸ hactive
          exact ⟨hr, hactive, resolveBillingCurrency_mem hbilling, husd, htruthy⟩
    · cases hrow
      rcases country with - | country
      · cases hminted
      · obtain ⟨hne, hr, howner, rfl, htruthy⟩ := (mintedCountryRow_eq_some_iff hc).mp hminted
        have hactive : t.activeOwner r.owner = true := howner ▸ hactive
        exact ⟨hr, hactive, htruthy, hne, req, user, hcountry⟩
  · rintro ⟨hrow, hactive, hoffered⟩
    obtain ⟨price, hprice, howner⟩ := holds_of_activeOwner hactive
    have hactive' : t.activeOwner price.owner = true := howner ▸ hactive
    rcases row with price | r | r
    · exact ⟨price, hrow, hactive, ⟨none, none, none, none⟩, none,
        checkoutRow_of_unminted (resolvePricingCountry_none none) rfl resolveBillingCurrency_usd⟩
    · obtain ⟨hmem, husd, htruthy⟩ := hoffered
      obtain ⟨d, hbilling⟩ := resolveBillingCurrency_of_mem (u := u) hmem
      refine ⟨price, hprice, hactive', ⟨some r.currency, none, none, none⟩, none, ?_⟩
      rw [checkoutRow_of_unminted (resolvePricingCountry_none _) rfl hbilling]
      have hminted := (mintedLocalizedRow_eq_some_iff hc).mpr ⟨hrow, howner.symm, rfl, htruthy⟩
      show Except.ok (if r.currency = "usd" then _ else _) = _
      rw [if_neg husd, hminted]
    · obtain ⟨htruthy, hne, req, user, hcountry⟩ := hoffered
      exact ⟨price, hprice, hactive', req, user, checkoutRow_of_minted hcountry
        ((mintedCountryRow_eq_some_iff hc).mpr ⟨hne, hrow, howner.symm, rfl, htruthy⟩)⟩

/-- What checkout of a price returns is the id on the row that it uses. -/
theorem resolveCheckoutPrice_checkoutRow (hc : t.Constraints) {lp : LoadedPrice} {req : Request}
    {user : Option UserPreferences} {x cur : String}
    (hl : ∀ b d, resolveBillingCurrency u st req.queryCurrency user = .ok (b, d) → lp.LoadedFor t b)
    (h : resolveCheckoutPrice u t st lp req user = .ok (x, cur)) :
    ∃ row, t.checkoutRow u st lp.price req user = .ok row ∧ row.stripePriceId = some x := by
  obtain ⟨country, hcountry, hcase⟩ := resolveCheckoutPrice_ok hc hl h
  rcases hcase with ⟨r, hr, hx, -⟩ | ⟨hnone, d, hbilling, hx⟩
  · exact ⟨_, checkoutRow_of_minted hcountry hr, hx⟩
  · exact ⟨_, checkoutRow_of_unminted hcountry hnone hbilling, hx⟩

/-- The loaders of checkout load active prices. -/
theorem getActivePlanPrice_active {planPriceId : UUID} {currency : Option String} {lp : LoadedPrice}
    (h : getActivePlanPrice t planPriceId currency = some lp) :
    t.Holds (.usd lp.price) ∧ t.activeOwner lp.price.owner = true := by
  obtain ⟨pp, hpp, rfl⟩ := Option.map_eq_some_iff.mp h
  have hmem := List.mem_of_find?_eq_some hpp
  have hfound := List.find?_some hpp
  obtain ⟨-, hactive⟩ := Bool.and_eq_true_iff.mp hfound
  refine ⟨hmem, List.any_eq_true.mpr ⟨pp, hmem, ?_⟩⟩
  rw [hactive]
  simp

theorem getActiveProductPrice_active {productPriceId : UUID} {currency : Option String}
    {lp : LoadedPrice} (h : getActiveProductPrice t productPriceId currency = some lp) :
    t.Holds (.usd lp.price) ∧ t.activeOwner lp.price.owner = true := by
  obtain ⟨pp, hpp, rfl⟩ := Option.map_eq_some_iff.mp h
  have hmem := List.mem_of_find?_eq_some hpp
  have hfound := List.find?_some hpp
  obtain ⟨-, hactive⟩ := Bool.and_eq_true_iff.mp hfound
  refine ⟨hmem, List.any_eq_true.mpr ⟨pp, hmem, ?_⟩⟩
  rw [hactive]
  simp

/-- A checkout of an active price charges what the row implies. -/
theorem SyncWorld.ChargesAmounts.checkout {w : SyncWorld} (h : w.ChargesAmounts u st)
    {lp : LoadedPrice} {req : Request} {user : Option UserPreferences} {x cur : String}
    (hlp : (∃ id currency, getActivePlanPrice w.tables id currency = some lp) ∨
      ∃ id currency, getActiveProductPrice w.tables id currency = some lp)
    (hl : ∀ b d, resolveBillingCurrency u st req.queryCurrency user = .ok (b, d) →
      lp.LoadedFor w.tables b)
    (hcheckout : resolveCheckoutPrice u w.tables st lp req user = .ok (x, cur)) {p : StripePrice}
    (hp : w.stripe.price x = some p) :
    ∃ row, w.tables.checkoutRow u st lp.price req user = .ok row ∧
    p.unitAmount = row.implied.1 := by
  obtain ⟨row, hrow, hid⟩ := resolveCheckoutPrice_checkoutRow w.catalog.constraints hl hcheckout
  have hactive : w.tables.Holds (.usd lp.price) ∧ w.tables.activeOwner lp.price.owner = true := by
    rcases hlp with ⟨id, currency, hlp⟩ | ⟨id, currency, hlp⟩
    · exact getActivePlanPrice_active hlp
    · exact getActiveProductPrice_active hlp
  refine ⟨row, hrow, h.eq_of_live ⟨lp.price, hactive.1, hactive.2, req, user, hrow⟩ hid ?_⟩
  rw [hp]
  rfl

/-- A row is known by its key. -/
theorem holds_key_inj (hc : t.Constraints) {row row' : CatalogRow} (hrow : t.Holds row)
    (hrow' : t.Holds row') (h : row.key = row'.key) : row = row' := by
  rcases row with price | r | r <;> rcases row' with price' | r' | r' <;>
    simp only [CatalogRow.key, RowKey.usd.injEq, RowKey.localized.injEq, RowKey.country.injEq,
      reduceCtorEq] at h
  · rcases price with pp | pp <;> rcases price' with pp' | pp' <;>
      simp only [Price.owner, PriceOwner.planPrice.injEq, PriceOwner.productPrice.injEq,
        reduceCtorEq] at h
    · rw [List.inj_on_of_nodup_map hc.planPrice_pk hrow hrow' h]
    · rw [List.inj_on_of_nodup_map hc.productPrice_pk hrow hrow' h]
  · rw [List.inj_on_of_nodup_map hc.uniq_localized_price_currency hrow hrow' (Prod.ext h.1 h.2)]
  · rw [List.inj_on_of_nodup_map hc.uniq_country_price_country hrow hrow' (Prod.ext h.1 h.2)]

end Rows

/-! ### The jobs on the database -/

section Edits

variable {w w' : SyncWorld} {catalog catalog' : Catalog}

/-- The ids that Stripe gives out are none of the seed's. -/
structure StripeCatalog.OwnIds (s : StripeCatalog) : Prop where
  wellFormed : s.WellFormed
  ids : ∀ p ∈ s.prices, p.id ≠ "" ∧ isPlaceholder p.id = false

theorem newObjectId_own (ids : List String) :
    newObjectId "price_" ids ≠ "" ∧ isPlaceholder (newObjectId "price_" ids) = false := by
  have htoList : ∀ n, ("price_" ++ String.ofList (List.replicate n '0')).toList
      = ['p', 'r', 'i', 'c', 'e', '_'] ++ List.replicate n '0' := by
    intro n
    simp only [String.toList_append, String.toList_ofList]
    rfl
  unfold newObjectId
  constructor
  · intro hempty
    have hnil := congrArg String.toList hempty
    rw [htoList] at hnil
    cases hnil
  · unfold isPlaceholder
    rw [htoList]
    rcases Table.freshKey _ with - | n
    · rfl
    · rfl

theorem StripeInvariant.ownIds : StripeInvariant StripeCatalog.OwnIds where
  of_prices s s' h hs :=
    ⟨StripeInvariant.wellFormed.of_prices s s' h hs.wellFormed, by rw [h]; exact hs.ids⟩
  modifyPrice s id f hterms hkey hs := by
    refine ⟨StripeInvariant.wellFormed.modifyPrice s id f hterms hkey hs.wellFormed, fun p hp => ?_⟩
    rcases Table.mem_update.mp hp with ⟨hp, -⟩ | ⟨q, hq, -, rfl⟩
    · exact hs.ids p hp
    · rw [(hterms q).id]
      exact hs.ids q hq
  createPrice s p hid hkey hs := by
    refine ⟨StripeInvariant.wellFormed.createPrice s p hid hkey hs.wellFormed, fun q hq => ?_⟩
    rcases List.mem_append.mp hq with hq | hq
    · obtain ⟨q₀, hq₀, rfl⟩ := List.mem_map.mp hq
      show (StripeCatalog.released p.lookupKey q₀).id ≠ ""
        ∧ isPlaceholder (StripeCatalog.released p.lookupKey q₀).id = false
      rw [StripeCatalog.released_id p.lookupKey q₀]
      exact hs.ids q₀ hq₀
    · rw [List.mem_singleton.mp hq, hid]
      exact newObjectId_own _

theorem price_eq_none_of_placeholder (hs : w.stripe.OwnIds) {x : String}
    (h : isPlaceholder x = true) : w.stripe.price x = none := by
  rcases hp : w.stripe.price x with - | p
  · rfl
  · obtain ⟨hmem, rfl⟩ := (StripeCatalog.price_eq_some_iff hs.wellFormed).mp hp
    rw [(hs.ids p hmem).2] at h
    cases h

/-- **A job on the database** keeps the charges right exactly if its data agree with
every row that has a Stripe Price. -/
theorem charges_edit_iff {job : PriceJob} (hs : w.stripe.OwnIds) (hw : w.ChargesAmounts u st)
    (h : job.edit u w.catalog = .ok catalog') :
    (w.withCatalog catalog').ChargesAmounts u st ↔
      ∀ row ∈ w.tables.checkoutRows u st, References.Live CatalogRow.stripePriceId
        (fun x => (w.stripe.price x).map StripePrice.unitAmount) row →
      job.Agrees u w.tables row := by
  obtain ⟨g, hg, hamount⟩ := edit_amount_iff h
  have hoffered : ∀ row, (g row).Offered u st ↔ row.Offered u st := by
    intro row
    have hkey := hg.key row
    have hid := hg.stripePriceId row
    rcases row with price | r | r <;> rcases hrow : g _ with price' | r' | r' <;>
      rw [hrow] at hkey hid <;>
      simp only [CatalogRow.key, CatalogRow.stripePriceId, reduceCtorEq, RowKey.localized.injEq,
        RowKey.country.injEq] at hkey hid
    · exact Iff.rfl
    · simp only [CatalogRow.Offered, hkey.2, hid]
    · simp only [CatalogRow.Offered, hkey.2, hid]
  have hused : ∀ row, w.tables.Holds row →
      (g row ∈ catalog'.checkoutRows u st ↔ row ∈ w.tables.checkoutRows u st) := by
    intro row hrow
    rw [mem_checkoutRows catalog'.constraints, mem_checkoutRows w.catalog.constraints, hg.owner,
      hg.active row hrow, hoffered]
    exact ⟨fun h => ⟨hrow, h.2⟩, fun h => ⟨hg.old row hrow, h.2⟩⟩
  have hholds : ∀ row ∈ w.tables.checkoutRows u st, w.tables.Holds row := fun row hrow =>
    ((mem_checkoutRows w.catalog.constraints).mp hrow).1
  show References.Coherent _ _ (fun x => (w.stripe.price x).map StripePrice.unitAmount)
    (catalog'.checkoutRows u st) ↔ _
  rw [References.coherent_image_iff (g := g) hw]
  · refine forall_congr' fun row => forall_congr' fun hrow => forall_congr' fun _ => ?_
    obtain ⟨hholds, hactive, -⟩ := (mem_checkoutRows w.catalog.constraints).mp hrow
    exact hamount row hholds hactive
  · exact fun row hrow => (hused row (hholds row hrow)).mpr hrow
  · exact hg.stripePriceId
  · intro row' hrow'
    rcases hg.new row' ((mem_checkoutRows catalog'.constraints).mp hrow').1 with
      ⟨row, hrow, rfl⟩ | hun
    · exact Or.inl ⟨row, (hused row hrow).mp hrow', rfl⟩
    · right
      rintro ⟨x, v, hx, hv⟩
      have hv : (w.stripe.price x).map StripePrice.unitAmount = some v := hv
      rw [price_eq_none_of_placeholder hs (hun x hx)] at hv
      cases hv

end Edits

/-! ### The runs of the Stripe sync -/

section Sync

variable {env : SyncEnv} {w w' : SyncWorld} {t : CatalogTables}

/-- What is active is sold. -/
theorem exists_sold (hc : t.Constraints) {price : Price} (hprice : t.Holds (.usd price))
    (hactive : t.activeOwner price.owner = true) :
    ∃ item ∈ t.sold u, item.owner = price.owner ∧ item.amount = price.amount := by
  unfold CatalogTables.sold
  rw [List.map_append]
  rcases price with pp | pp
  · obtain ⟨pp', hpp', hand⟩ := List.any_eq_true.mp hactive
    obtain ⟨hid, hplans⟩ := Bool.and_eq_true_iff.mp hand
    obtain rfl := List.inj_on_of_nodup_map hc.planPrice_pk hpp' hprice (of_decide_eq_true hid)
    obtain ⟨plan, hplan, hand⟩ := List.any_eq_true.mp hplans
    obtain ⟨hplanId, hplanActive⟩ := Bool.and_eq_true_iff.mp hand
    exact ⟨plan.item pp', List.mem_append_left _ ((mem_soldPlans hc).mpr
      ⟨plan, List.mem_filter.mpr ⟨hplan, hplanActive⟩, pp', hpp',
        (of_decide_eq_true hplanId).symm, rfl⟩), rfl, rfl⟩
  · obtain ⟨pp', hpp', hand⟩ := List.any_eq_true.mp hactive
    obtain ⟨hid, hproducts⟩ := Bool.and_eq_true_iff.mp hand
    obtain rfl := List.inj_on_of_nodup_map hc.productPrice_pk hpp' hprice (of_decide_eq_true hid)
    obtain ⟨product, hproduct, hand⟩ := List.any_eq_true.mp hproducts
    obtain ⟨hproductId, hproductActive⟩ := Bool.and_eq_true_iff.mp hand
    exact ⟨product.item u pp', List.mem_append_right _ ((mem_soldProducts hc).mpr
      ⟨product, List.mem_filter.mpr ⟨hproduct, hproductActive⟩, pp', hpp',
        (of_decide_eq_true hproductId).symm, rfl⟩), rfl, rfl⟩

/-- What is sold is active. -/
theorem activeOwner_of_sold (hc : t.Constraints) {item : SoldItem} (h : item ∈ t.sold u) :
    t.activeOwner item.owner = true := by
  unfold CatalogTables.sold at h
  rw [List.map_append] at h
  rcases List.mem_append.mp h with h | h
  · obtain ⟨plan, hplan, pp, hpp, hid, rfl⟩ := (mem_soldPlans hc).mp h
    obtain ⟨hmem, hactive⟩ := List.mem_filter.mp hplan
    refine List.any_eq_true.mpr ⟨pp, hpp, ?_⟩
    simp only [decide_true, Bool.true_and, List.any_eq_true]
    exact ⟨plan, hmem, by simp [hid, hactive]⟩
  · obtain ⟨product, hproduct, pp, hpp, hid, rfl⟩ := (mem_soldProducts hc).mp h
    obtain ⟨hmem, hactive⟩ := List.mem_filter.mp hproduct
    refine List.any_eq_true.mpr ⟨pp, hpp, ?_⟩
    simp only [decide_true, Bool.true_and, List.any_eq_true]
    exact ⟨product, hmem, by simp [hid, hactive]⟩

/-- The Stripe Price of a row that a run has priced. -/
theorem PricedAs.unitAmount {s : StripeCatalog} {id : String} {spec : PriceSpec} {p : StripePrice}
    (hs : s.WellFormed) (h : PricedAs s id spec) (hp : s.price id = some p) :
    p.unitAmount = spec.unitAmount := by
  obtain ⟨q, hq, hid, hmatches⟩ := h
  obtain rfl : q = p :=
    Option.some.inj (((StripeCatalog.price_eq_some_iff hs).mpr ⟨hq, hid⟩).symm.trans hp)
  exact (priceMatches_iff.mp hmatches).1

/-- The id that is stored under the key of a row is the one on the row. -/
theorem storedId_of_holds (hc : t.Constraints) {row : CatalogRow} (h : t.Holds row) :
    t.storedId row.key = row.stripePriceId := by
  rcases row with (pp | pp) | r | r
  · exact storedId_planPrice hc h
  · have hfind := (Table.find?_eq_some_iff (Table.unique_some_iff.mpr hc.productPrice_pk)
      (v := pp.id) (a := pp)).mpr ⟨h, rfl⟩
    simp only [Option.some.injEq] at hfind
    show (t.productPrices.find? fun pp' => pp'.id = pp.id).map _ = _
    rw [hfind]
    rfl
  · show (t.localizedRow r.owner r.currency).bind _ = _
    rw [(localizedRow_eq_some_iff hc).mpr ⟨h, rfl, rfl⟩]
    rfl
  · show (t.countryRow r.owner r.country).bind _ = _
    rw [(CatalogTables.countryRow_eq_some_iff hc).mpr ⟨h, rfl, rfl⟩]
    rfl

/-- Why a row has its Stripe Price after a run: as an offer, at the amount that was
sent, or as a country row, at its base. -/
inductive PricedRow (u : UnicodeTables) (st : Settings) (env : SyncEnv) (w w' : SyncWorld)
    (row : CatalogRow) (x : String) : Prop
  | offer (o : Offer) (a : Int) (ho : o ∈ w.tables.offers u st)
      (hsent : (w.pass u st env).sent.lookup o = some a) (hpriced : PricedAs w'.stripe x (o.spec a))
      (hamount : (w.pass u st env).tables.offerAmount o = some row.implied.1)
  | country (spec : PriceSpec) (hamount : spec.unitAmount = row.implied.1)
      (hpriced : PricedAs w'.stripe x spec)

section Priced

variable {existing : List (String × FetchedPrice)} {w₀ w₁ : SyncWorld} {x : String}
    {item : SoldItem}

theorem pricedRow_usd (hw : w.stripe.WellFormed) (hrun : SyncRun u env st existing w w₀ w₁ w')
    {price : Price} (hitem : item ∈ w.tables.sold u) (howner : item.owner = price.owner)
    (hamount : item.amount = price.amount)
    (hstored : w'.tables.storedId (.usd price.owner) = some x) :
    PricedRow u st env w w' (.usd price) x := by
  have ho : (⟨"usd", item⟩ : Offer) ∈ w.tables.offers u st := mem_offers.mpr ⟨st.usd_mem, hitem⟩
  have hsent : (w.pass u st env).sent.lookup ⟨"usd", item⟩ = some item.amount := sent_usd ho rfl
  obtain ⟨id, hid, -, hpriced⟩ := hrun.sent hw hsent
  have hkey : (⟨"usd", item⟩ : Offer).rowKey = .usd price.owner := congrArg RowKey.usd howner
  rw [hkey, hstored] at hid
  obtain rfl := Option.some.inj hid
  exact .offer ⟨"usd", item⟩ item.amount ho hsent hpriced (congrArg some hamount)

theorem pricedRow_localized (hw : w.stripe.WellFormed)
    (hrun : SyncRun u env st existing w w₀ w₁ w') {r : LocalizedPrice}
    (hr : r ∈ w'.tables.localizedPrices)
    (hcurrency : r.currency ∈ st.billingCurrencies) (husd : r.currency ≠ "usd")
    (hitem : item ∈ w.tables.sold u) (howner : item.owner = r.owner)
    (hstored : w'.tables.storedId (.localized r.owner r.currency) = some x) :
    PricedRow u st env w w' (.localized r) x := by
  have ho : (⟨r.currency, item⟩ : Offer) ∈ w.tables.offers u st := mem_offers.mpr ⟨hcurrency, hitem⟩
  have hkey : (⟨r.currency, item⟩ : Offer).rowKey = .localized r.owner r.currency := by
    unfold Offer.rowKey
    rw [if_neg husd]
    exact congrArg (RowKey.localized · r.currency) howner
  have hoffer : ∀ t : CatalogTables, t.offerAmount ⟨r.currency, item⟩
      = (t.localizedRow r.owner r.currency).map LocalizedPrice.amountMinor := by
    intro t
    rw [← howner]
    exact if_neg husd
  rcases hsent : (w.pass u st env).sent.lookup ⟨r.currency, item⟩ with - | a
  · -- a row that has come up after its turn has no id yet
    have hrow : w.tables.localizedRow r.owner r.currency = none := by
      by_contra hsome
      refine sent_of_isSome w.catalog.constraints ho ?_ hsent
      rw [hoffer, Option.isSome_map]
      exact Option.isSome_iff_ne_none.mpr hsome
    have hunsent : w'.tables.storedId (.localized r.owner r.currency)
        = w.tables.storedId (.localized r.owner r.currency) := by
      refine hrun.unsent hw (fun _ _ h => by cases h) fun o' hsent' hkey' => ?_
      obtain ⟨a, ha⟩ := Option.ne_none_iff_exists'.mp hsent'
      rw [rowKey_inj w.catalog.constraints (mem_of_sent ha) ho (hkey'.trans hkey.symm)] at hsent'
      exact hsent' hsent
    rw [hstored] at hunsent
    unfold CatalogTables.storedId at hunsent
    dsimp only at hunsent
    rw [hrow] at hunsent
    cases hunsent
  · obtain ⟨id, hid, -, hpriced⟩ := hrun.sent hw hsent
    rw [hkey, hstored] at hid
    obtain rfl := Option.some.inj hid
    refine .offer _ a ho hsent hpriced ?_
    refine (hrun.offerAmount hw ⟨r.currency, item⟩).symm.trans ?_
    rw [hoffer, (localizedRow_eq_some_iff w'.catalog.constraints).mpr ⟨hr, rfl, rfl⟩]
    rfl

theorem pricedRow_country (hw : w.stripe.WellFormed)
    (hrun : SyncRun u env st existing w w₀ w₁ w') {r : CountryPrice}
    (hr : r ∈ w'.tables.countryPrices)
    (hactive : w'.tables.activeOwner r.owner = true) (hx : r.stripePriceId = some x) :
    PricedRow u st env w w' (.country r) x := by
  have hkeys : r.key ∈ w₁.tables.countryPrices.map CountryPrice.key := by
    rw [← hrun.countriesOnly.countryKeys]
    exact List.mem_map_of_mem hr
  obtain ⟨cp, hcp, hkey⟩ := List.mem_map.mp hkeys
  obtain ⟨howner, hcountry⟩ := Prod.mk.inj hkey
  have hactive₁ : w₁.tables.activeOwner cp.owner = true := by
    rw [← hrun.countriesOnly.sameSold.activeOwner, howner]
    exact hactive
  obtain ⟨item, cp', id, -, -, hminted, hpriced⟩ := hrun.countryMinted hw cp
    (CatalogTables.mem_activeCountryPrices.mpr ⟨hcp, hactive₁⟩)
  rw [howner, hcountry, (CatalogTables.countryRow_eq_some_iff w'.catalog.constraints).mpr
    ⟨hr, rfl, rfl⟩] at hminted
  obtain rfl := Option.some.inj hminted
  obtain rfl := Option.some.inj hx
  exact .country _ rfl hpriced

/-- A run that completes has priced every row that checkout uses. -/
theorem pricedRow_of_used (hw : w.stripe.WellFormed) (hrun : SyncRun u env st existing w w₀ w₁ w')
    {row : CatalogRow} (hrow : row ∈ w'.tables.checkoutRows u st)
    (hx : row.stripePriceId = some x) : PricedRow u st env w w' row x := by
  have hc' := w'.catalog.constraints
  obtain ⟨hholds, hactive, hoffered⟩ := (mem_checkoutRows hc').mp hrow
  have hstored := storedId_of_holds hc' hholds
  rw [hx] at hstored
  obtain ⟨price, hprice, howner⟩ := holds_of_activeOwner hactive
  obtain ⟨item, hitem, hitemOwner, hamount⟩ := exists_sold (u := u) hc' hprice (howner ▸ hactive)
  rw [(hrun.sameSold hw).sold] at hitem
  rw [howner] at hitemOwner
  rcases row with price' | r | r
  · have hprice' : CatalogRow.usd price = CatalogRow.usd price' :=
      holds_key_inj hc' hprice hholds (congrArg RowKey.usd howner)
    rw [CatalogRow.usd.inj hprice'] at hamount
    exact pricedRow_usd hw hrun hitem hitemOwner hamount hstored
  · exact pricedRow_localized hw hrun hholds hoffered.1 hoffered.2.1 hitem hitemOwner hstored
  · exact pricedRow_country hw hrun hholds hactive hx

/-- **A completed run** leaves the charges right exactly if it has moved no amount
that it had sent, whatever it began with. -/
theorem charges_handle_iff (hs : w.stripe.OwnIds) (h : handle u env st w = .ok ⟨⟩ w') :
    w'.ChargesAmounts u st ↔ w.SentStays u st env := by
  have hw := hs.wellFormed
  obtain ⟨existing, w₀, w₁, hrun⟩ := handle_ok hw h
  have hs' : w'.stripe.OwnIds := by
    have hkept := (keeps_handle StripeInvariant.ownIds).final (m := handle u env st) hs
    unfold final at hkept
    rwa [h] at hkept
  have hc' := w'.catalog.constraints
  constructor
  · intro hcharges o ho hsome
    obtain ⟨a, hsent⟩ := Option.isSome_iff_exists.mp hsome
    rw [hsent]
    by_cases husd : o.currency = "usd"
    · -- no FX call moves a USD amount
      rw [CatalogTables.offerAmount, if_pos husd, ← sent_usd ho husd]
      exact hsent
    -- the row that the round has stamped is one that checkout uses
    obtain ⟨id, hid, -, p, hp, hpid, hmatches⟩ := hrun.sent hw hsent
    obtain ⟨hcurrency, hsold⟩ := mem_offers.mp ho
    unfold Offer.rowKey at hid
    rw [if_neg husd] at hid
    obtain ⟨r, hr, hrid⟩ := Option.bind_eq_some_iff.mp hid
    obtain ⟨hmem, howner, hrcurrency⟩ := (localizedRow_eq_some_iff hc').mp hr
    have hactive : w'.tables.activeOwner r.owner = true := by
      rw [(hrun.sameSold hw).activeOwner, howner]
      exact activeOwner_of_sold w.catalog.constraints hsold
    have htruthy : truthy r.stripePriceId = true := by
      rw [hrid, truthy_some, decide_eq_true_eq, ← hpid]
      exact (hs'.ids p hp).1
    have hused : CatalogRow.localized r ∈ w'.tables.checkoutRows u st :=
      (mem_checkoutRows hc').mpr ⟨hmem, hactive, hrcurrency ▸ hcurrency, hrcurrency ▸ husd, htruthy⟩
    have hprice := (StripeCatalog.price_eq_some_iff hs'.wellFormed).mpr ⟨hp, hpid⟩
    have heq : a = r.amountMinor := by
      refine Eq.trans (priceMatches_iff.mp hmatches).1.symm (hcharges.eq_of_live hused hrid ?_)
      rw [hprice]
      rfl
    refine (hrun.offerAmount hw o).symm.trans ?_
    rw [CatalogTables.offerAmount, if_neg husd, CatalogTables.amounts, hr, heq]
    rfl
  · intro hstays row hrow x hx v hv
    obtain ⟨p, hp, rfl⟩ := Option.map_eq_some_iff.mp hv
    cases pricedRow_of_used hw hrun hrow hx with
    | offer o a ho hsent hpriced hamount =>
      have hsame := hstays o ho (by rw [hsent]; rfl)
      rw [hamount, hsent] at hsame
      rw [hpriced.unitAmount hs'.wellFormed hp]
      exact (Option.some.inj hsame).symm
    | country spec hamount hpriced =>
      rw [hpriced.unitAmount hs'.wellFormed hp]
      exact hamount

end Priced

end Sync

/-! ### Runs of the jobs -/

/-- What a job can do. -/
theorem priceAct_cases {w w' : SyncWorld} {job : PriceJob} (h : priceAct u st w job = some w') :
    (∃ env, job = .syncStripeCatalog env ∧ handle u env st w = .ok ⟨⟩ w') ∨
    ∃ catalog, job.edit u w.catalog = .ok catalog ∧ w' = w.withCatalog catalog ∧
      (KeepsCharged u st w job ↔ ∀ row ∈ w.tables.checkoutRows u st,
        References.Live CatalogRow.stripePriceId
          (fun x => (w.stripe.price x).map StripePrice.unitAmount) row →
        job.Agrees u w.tables row) := by
  have hedit : ∀ job : PriceJob, (job.edit u w.catalog).toOption.map w.withCatalog = some w' →
      ∃ catalog, job.edit u w.catalog = .ok catalog ∧ w' = w.withCatalog catalog := by
    intro job hjob
    obtain ⟨catalog, hcatalog, rfl⟩ := Option.map_eq_some_iff.mp hjob
    rcases hok : job.edit u w.catalog with e | catalog' <;> rw [hok] at hcatalog
    · cases hcatalog
    · cases hcatalog
      exact ⟨catalog, rfl, rfl⟩
  rcases job with fetch | ⟨plans, boosts⟩ | ⟨owner, country, stickerMinor⟩ | env
  · obtain ⟨catalog, hok, hw'⟩ := hedit _ h
    exact Or.inr ⟨catalog, hok, hw', Iff.rfl⟩
  · obtain ⟨catalog, hok, hw'⟩ := hedit _ h
    exact Or.inr ⟨catalog, hok, hw', Iff.rfl⟩
  · obtain ⟨catalog, hok, hw'⟩ := hedit _ h
    exact Or.inr ⟨catalog, hok, hw', Iff.rfl⟩
  · refine Or.inl ⟨env, rfl, ?_⟩
    unfold priceAct at h
    dsimp only at h
    split at h
    · cases h
      assumption
    · cases h

/-- **The charges stay right** along a run of the jobs exactly if the data of each job
on the database agree with every row that has a Stripe Price, and no run of
`sync_stripe_catalog` moves an amount that it has sent. -/
theorem charges_amounts_iff (u : UnicodeTables) (st : Settings) {w : SyncWorld}
    (hs : w.stripe.OwnIds) (hw : w.ChargesAmounts u st) (jobs : List PriceJob) :
    Runs.Always (priceAct u st) (SyncWorld.ChargesAmounts u st) w jobs ↔
      Runs.EachStep (priceAct u st) (KeepsCharged u st) w jobs := by
  apply Runs.always_iff_eachStep (I := fun w => w.stripe.OwnIds)
  · intro w job w' hs h
    rcases priceAct_cases h with ⟨env, -, hhandle⟩ | ⟨catalog, -, rfl, -⟩
    · have hkept := (keeps_handle StripeInvariant.ownIds).final (m := handle u env st) hs
      unfold final at hkept
      rwa [hhandle] at hkept
    · exact hs
  · intro w job w' hs hw h
    rcases priceAct_cases h with ⟨env, rfl, hhandle⟩ | ⟨catalog, hok, rfl, hkeeps⟩
    · exact charges_handle_iff hs hhandle
    · exact (charges_edit_iff hs hw hok).trans hkeeps.symm
  · exact hs
  · exact hw

/-- The feed has a rate for the euro. -/
def euroEnv : SyncEnv where
  fails _ := false
  feed _ := euroFeed

theorem newPlanWorld_charges : newPlanWorld.ChargesAmounts asciiTables eurSettings := by
  intro row _ x _ v hv
  cases hv

/-- The plan is sold in euros, and the next day the rate is the same. -/
def euroStays : List PriceJob :=
  [.syncStripeCatalog euroEnv, .syncLocalizedPrices { euroFeed with now := 1 }]

theorem charges_amounts_iff_newPlan :
    Runs.Always (priceAct asciiTables eurSettings)
    (SyncWorld.ChargesAmounts asciiTables eurSettings)
      newPlanWorld euroStays := by
  refine (charges_amounts_iff asciiTables eurSettings ⟨by decide, by decide⟩ newPlanWorld_charges
    _).mpr fun w hw => ⟨?_, fun _ _ => ⟨?_, trivial⟩⟩
  · exact show newPlanWorld.SentStays asciiTables eurSettings euroEnv by decide +kernel
  · have hsold :
        (priceAct asciiTables eurSettings newPlanWorld (.syncStripeCatalog euroEnv)).isSome := by
      decide +kernel
    have hagree : ∀ hsold : (priceAct asciiTables eurSettings newPlanWorld
        (.syncStripeCatalog euroEnv)).isSome, let w := Option.get _ hsold
        (∀ r ∈ w.tables.localizedPrices, (PriceJob.syncLocalizedPrices
          { euroFeed with now := 1 }).Agrees asciiTables w.tables (.localized r)) ∧
        w.tables.countryPrices = [] := by
      decide +kernel
    obtain rfl : Option.get _ hsold = w := Option.some.inj ((Option.some_get hsold).trans hw)
    obtain ⟨hlocalized, hcountry⟩ := hagree hsold
    rintro (price | r | r) hused -
    · trivial
    · exact hlocalized r ((mem_checkoutRows (Option.get _ hsold).catalog.constraints).mp hused).1
    · have hr := ((mem_checkoutRows (Option.get _ hsold).catalog.constraints).mp hused).1
      unfold CatalogTables.Holds at hr
      rw [hcountry] at hr
      cases hr

/-- The plan is sold in euros, and the next day the euro costs less. -/
def euroFalls : List PriceJob :=
  [.syncStripeCatalog euroEnv,
    .syncLocalizedPrices ⟨1, some ⟨some "success", .dict [("EUR", some 0.8)]⟩⟩]

/-- The row then implies 15.99 EUR, and its Stripe Price charges 17.99. -/
theorem euroFalls_overcharges :
    ¬ Runs.Always (priceAct asciiTables eurSettings)
      (SyncWorld.ChargesAmounts asciiTables eurSettings) newPlanWorld euroFalls := by
  intro h
  have hrun : (Runs.run (priceAct asciiTables eurSettings) newPlanWorld euroFalls).isSome := by
    decide +kernel
  have hend : ∀ hrun : (Runs.run (priceAct asciiTables eurSettings) newPlanWorld euroFalls).isSome,
      let w := Option.get _ hrun
      (⟨.planPrice 2, "eur", 1599, some "price_00", 1⟩ : LocalizedPrice)
        ∈ w.tables.localizedPrices ∧
        w.tables.activeOwner (.planPrice 2) = true ∧
        (w.stripe.price "price_00").map StripePrice.unitAmount = some 1799 := by
    decide +kernel
  obtain ⟨hrow, hactive, hprice⟩ := hend hrun
  have hused : CatalogRow.localized ⟨.planPrice 2, "eur", 1599, some "price_00", 1⟩
      ∈ (Option.get _ hrun).tables.checkoutRows asciiTables eurSettings :=
    (mem_checkoutRows (Option.get _ hrun).catalog.constraints).mpr
      ⟨hrow, hactive, by decide, by decide, by decide⟩
  have heq := (h.last (Option.some_get hrun).symm).eq_of_live hused rfl hprice
  cases heq

end Saasmint
