/-
Saasmint/Billing/SyncRows.lean

What `sync_stripe_catalog` reads of the tables, and what its writes do to them.

A run goes through the offers, each a sold item in a currency, and then through
the country rows.  What it asks of Stripe is in the tables without the ids of
the Stripe Prices (`CatalogTables.unstamped`).  A stamp leaves those as they are
(`unstamped_stamp`) and puts its id on one row (`storedId_stamp`); the FX job
leaves the ids (`storedId_afterFx`) and does not look at them (`afterFx_congr`).
-/
import Saasmint.Billing.LocalizedSync
import Saasmint.Billing.SyncCalls

namespace Saasmint

open PyStr

variable (u : UnicodeTables)

/-! ### Rows without their Stripe Prices -/

def PlanPrice.unstamped (pp : PlanPrice) : PlanPrice := { pp with stripePriceId := "" }

def ProductPrice.unstamped (pp : ProductPrice) : ProductPrice := { pp with stripePriceId := "" }

def Price.unstamped : Price → Price
  | .plan pp => .plan pp.unstamped
  | .product pp => .product pp.unstamped

def LocalizedPrice.unstamped (r : LocalizedPrice) : LocalizedPrice :=
  { r with stripePriceId := none }

def CountryPrice.unstamped (r : CountryPrice) : CountryPrice := { r with stripePriceId := none }

def CatalogTables.unstamped (t : CatalogTables) : CatalogTables :=
  { t with
    planPrices := t.planPrices.map PlanPrice.unstamped
    productPrices := t.productPrices.map ProductPrice.unstamped
    localizedPrices := t.localizedPrices.map LocalizedPrice.unstamped
    countryPrices := t.countryPrices.map CountryPrice.unstamped }

/-! ### Offers -/

/-- A sold item in a currency. -/
structure Offer where
  currency : String
  item : SoldItem
  deriving DecidableEq, Repr

namespace Offer

variable (o : Offer)

def rowKey : RowKey :=
  if o.currency = "usd" then .usd o.item.owner else .localized o.item.owner o.currency

def key : String := lookupKey o.item.baseKey o.currency

def spec (unitAmount : Int) : PriceSpec := o.item.spec o.key unitAmount o.currency

end Offer

namespace CatalogTables

variable (t : CatalogTables)

/-- The offers in the order in which a run comes to them. -/
def offers (st : Settings) : List Offer :=
  st.billingCurrencies.flatMap fun currency => (t.sold u).map (Offer.mk currency)

/-- The amount that the row of an offer has; `none` where there is no row yet. -/
def offerAmount (o : Offer) : Option Int :=
  if o.currency = "usd" then some o.item.amount else t.amounts o.item.owner o.currency

/-- The lookup keys of the rows, in the same order. -/
def rowLookupKeys (st : Settings) : List String :=
  (t.offers u st).map Offer.key ++ t.activeCountryPrices.filterMap fun cp =>
    (t.soldItem u cp.owner).map fun item => countryLookupKey u item.baseKey cp.country

/-- The Stripe Price id on a row. -/
def storedId : RowKey → Option String
  | .usd (.planPrice k) => (t.planPrices.find? fun pp => pp.id = k).map PlanPrice.stripePriceId
  | .usd (.productPrice k) =>
    (t.productPrices.find? fun pp => pp.id = k).map ProductPrice.stripePriceId
  | .localized owner currency =>
    (t.localizedRow owner currency).bind LocalizedPrice.stripePriceId
  | .country owner country => (t.countryRow owner country).bind CountryPrice.stripePriceId

end CatalogTables

/-! ### Reads without the ids -/

section Unstamped

variable {u} {t t' : CatalogTables}

theorem find?_map_congr {α β : Type*} {f : α → β} {p : β → Bool} (q : α → Bool)
    (h : ∀ a, p (f a) = q a) (l : List α) : (l.map f).find? p = (l.find? q).map f := by
  rw [List.find?_map]
  congr 2
  funext a
  exact h a

namespace CatalogTables

theorem soldPlans_unstamped : t.unstamped.soldPlans.map Prod.fst = t.soldPlans.map Prod.fst := by
  unfold soldPlans
  rw [List.map_filterMap, List.map_filterMap]
  apply List.filterMap_congr
  intro plan _
  show Option.map _ (Option.map _ ((t.planPrices.map PlanPrice.unstamped).find? _)) = _
  rw [find?_map_congr (fun pp : PlanPrice => pp.planId = plan.id) fun _ => rfl, Option.map_map,
    Option.map_map, Option.map_map]
  rfl

theorem soldProducts_unstamped :
    (t.unstamped.soldProducts u).map Prod.fst = (t.soldProducts u).map Prod.fst := by
  unfold soldProducts
  rw [List.map_filterMap, List.map_filterMap]
  apply List.filterMap_congr
  intro product _
  show Option.map _ (Option.map _ ((t.productPrices.map ProductPrice.unstamped).find? _)) = _
  rw [find?_map_congr (fun pp : ProductPrice => pp.productId = product.id) fun _ => rfl,
    Option.map_map, Option.map_map, Option.map_map]
  rfl

theorem localizedRow_unstamped (owner : PriceOwner) (currency : String) :
    t.unstamped.localizedRow owner currency
      = (t.localizedRow owner currency).map LocalizedPrice.unstamped :=
  find?_map_congr _ (fun _ => rfl) t.localizedPrices

theorem amounts_unstamped : t.unstamped.amounts = t.amounts := by
  funext owner currency
  unfold amounts
  rw [localizedRow_unstamped, Option.map_map]
  rfl

theorem prices_unstamped : t.unstamped.prices = t.prices.map Price.unstamped := by
  unfold prices
  rw [List.map_append, List.map_map, List.map_map]
  show List.map _ (List.map _ t.planPrices) ++ List.map _ (List.map _ t.productPrices) = _
  rw [List.map_map, List.map_map]
  rfl

theorem usdAmount_unstamped : t.unstamped.usdAmount = t.usdAmount := by
  funext owner
  unfold usdAmount
  rw [prices_unstamped, find?_map_congr (fun price : Price => price.owner = owner), Option.map_map]
  · congr 1
    funext price
    rcases price with pp | pp <;> rfl
  · intro price
    rcases price with pp | pp <;> rfl

theorem activeOwner_unstamped (owner : PriceOwner) :
    t.unstamped.activeOwner owner = t.activeOwner owner := by
  rcases owner with k | k
  · exact List.any_map ..
  · exact List.any_map ..

theorem offerAmount_congr (h : t'.unstamped = t.unstamped) (o : Offer) :
    t'.offerAmount o = t.offerAmount o := by
  unfold offerAmount
  rw [← @amounts_unstamped t', h, amounts_unstamped]

end CatalogTables

/-! ### Stamps -/

theorem map_update {α β ν : Type*} [DecidableEq ν] (key : α → ν) (k : ν) (f : α → α) (g : α → β)
    (h : ∀ a, g (f a) = g a) (l : List α) : (Table.update key k f l).map g = l.map g := by
  show (l.map fun a => if key a = k then f a else a).map g = _
  rw [List.map_map]
  apply List.map_congr_left
  intro a _
  show g (if _ then _ else _) = g a
  split
  · exact h a
  · rfl

theorem find?_update {α ν : Type*} [DecidableEq ν] {key : α → ν} {k k' : ν} {f : α → α}
    (h : ∀ a, key (f a) = key a) (l : List α) :
    (Table.update key k f l).find? (fun a => key a = k')
      = (l.find? fun a => key a = k').map fun a => if k' = k then f a else a := by
  show (l.map fun a => if key a = k then f a else a).find? _ = _
  rw [find?_map_congr fun a => key a = k']
  · rcases hfind : l.find? (fun a => decide (key a = k')) with - | a
    · rfl
    · have hkey : key a = k' := by simpa using List.find?_some hfind
      show some (if key a = k then _ else _) = some (if k' = k then _ else _)
      rw [hkey]
  · intro a
    split
    · rw [h]
    · rfl

namespace CatalogTables

/-- **A stamp changes ids only.** -/
theorem unstamped_stamp (t : CatalogTables) (key : RowKey) (id : String) :
    (t.stamp key id).unstamped = t.unstamped := by
  rcases key with (k | k) | ⟨owner, currency⟩ | ⟨owner, country⟩
  · have h : (t.stamp (.usd (.planPrice k)) id).planPrices.map PlanPrice.unstamped
        = t.planPrices.map PlanPrice.unstamped :=
      map_update PlanPrice.id k (fun pp => { pp with stripePriceId := id }) _ (fun _ => rfl) _
    simp only [unstamped, h]
    rfl
  · have h : (t.stamp (.usd (.productPrice k)) id).productPrices.map ProductPrice.unstamped
        = t.productPrices.map ProductPrice.unstamped :=
      map_update ProductPrice.id k (fun pp => { pp with stripePriceId := id }) _ (fun _ => rfl) _
    simp only [unstamped, h]
    rfl
  · have h : (t.stamp (.localized owner currency) id).localizedPrices.map LocalizedPrice.unstamped
        = t.localizedPrices.map LocalizedPrice.unstamped :=
      map_update _ _ (fun r : LocalizedPrice => { r with stripePriceId := some id }) _
        (fun _ => rfl) _
    simp only [unstamped, h]
    rfl
  · have h : (t.stamp (.country owner country) id).countryPrices.map CountryPrice.unstamped
        = t.countryPrices.map CountryPrice.unstamped :=
      map_update _ _ (fun r : CountryPrice => { r with stripePriceId := some id }) _
      (fun _ => rfl) _
    simp only [unstamped, h]
    rfl

/-- There is a row for a stamp. -/
def holdsKey (t : CatalogTables) : RowKey → Bool
  | .usd (.planPrice k) => (t.planPrices.find? fun pp => pp.id = k).isSome
  | .usd (.productPrice k) => (t.productPrices.find? fun pp => pp.id = k).isSome
  | .localized owner currency => (t.localizedRow owner currency).isSome
  | .country owner country => (t.countryRow owner country).isSome

theorem localizedRow_eq_find? (owner : PriceOwner) (currency : String) :
    t.localizedRow owner currency
      = t.localizedPrices.find? fun r => (r.owner, r.currency) = (owner, currency) := by
  unfold localizedRow
  congr 1
  funext r
  simp [Prod.mk.injEq, Bool.decide_and]

/-- The id on a row after an UPDATE of a row. -/
theorem bind_find?_update {α ν : Type*} [DecidableEq ν] (key : α → ν) (k : ν) (f : α → α)
    (g : α → Option String) {id : String} (hkey : ∀ a, key (f a) = key a)
    (hg : ∀ a, g (f a) = some id) (k' : ν) (l : List α) :
    ((Table.update key k f l).find? fun a => key a = k').bind g
      = if k' = k ∧ (l.find? fun a => key a = k').isSome = true then some id
        else (l.find? fun a => key a = k').bind g := by
  rw [find?_update hkey]
  rcases l.find? (fun a => decide (key a = k')) with - | a
  · simp
  · by_cases hk : k' = k
    · simp [hk, hg]
    · simp [hk]

/-- **A stamp** puts the id on its row, if there is one, and leaves the others. -/
theorem storedId_stamp (t : CatalogTables) (key key' : RowKey) (id : String) :
    (t.stamp key id).storedId key'
      = if key' = key ∧ t.holdsKey key' = true then some id else t.storedId key' := by
  rcases key with (k | k) | ⟨owner, currency⟩ | ⟨owner, country⟩
  · rcases key' with (k' | k') | ⟨owner', currency'⟩ | ⟨owner', country'⟩
    · have h := bind_find?_update PlanPrice.id k (fun pp => { pp with stripePriceId := id })
        (fun pp => some pp.stripePriceId) (fun _ => rfl) (fun _ => rfl) k' t.planPrices
      simpa [storedId, holdsKey, stamp, Option.map_eq_bind, Function.comp_def] using h
    all_goals simp [storedId, stamp, localizedRow, countryRow]
  · rcases key' with (k' | k') | ⟨owner', currency'⟩ | ⟨owner', country'⟩
    · simp [storedId, stamp]
    · have h := bind_find?_update ProductPrice.id k (fun pp => { pp with stripePriceId := id })
        (fun pp => some pp.stripePriceId) (fun _ => rfl) (fun _ => rfl) k' t.productPrices
      simpa [storedId, holdsKey, stamp, Option.map_eq_bind, Function.comp_def] using h
    all_goals simp [storedId, stamp, localizedRow, countryRow]
  · rcases key' with (k' | k') | ⟨owner', currency'⟩ | ⟨owner', country'⟩
    · simp [storedId, stamp]
    · simp [storedId, stamp]
    · have h := bind_find?_update (fun r : LocalizedPrice => (r.owner, r.currency))
        (owner, currency) (fun r => { r with stripePriceId := some id })
        LocalizedPrice.stripePriceId (fun _ => rfl) (fun _ => rfl) (owner', currency')
        t.localizedPrices
      simpa [storedId, holdsKey, stamp, localizedRow_eq_find?] using h
    · simp [storedId, stamp, countryRow]
  · rcases key' with (k' | k') | ⟨owner', currency'⟩ | ⟨owner', country'⟩
    · simp [storedId, stamp, saveCountryRow]
    · simp [storedId, stamp, saveCountryRow]
    · simp [storedId, stamp, saveCountryRow, localizedRow]
    · have h := bind_find?_update CountryPrice.key (owner, country)
        (fun r => { r with stripePriceId := some id }) CountryPrice.stripePriceId
        (fun _ => rfl) (fun _ => rfl) (owner', country') t.countryPrices
      simpa [storedId, holdsKey, stamp, saveCountryRow, countryRow, CountryPrice.key] using h

/-- An UPDATE that changes nothing in its row changes nothing. -/
theorem update_eq_self {α ν : Type*} [DecidableEq ν] {key : α → ν} {k : ν} {f : α → α} {l : List α}
    (hu : (l.map key).Nodup) (h : ∀ a, l.find? (fun a => key a = k) = some a → f a = a) :
    Table.update key k f l = l := by
  have hfind := fun a => Table.find?_eq_some_iff (Table.unique_some_iff.mpr hu) (v := k) (a := a)
  simp only [Option.some.injEq] at hfind
  unfold Table.update
  conv_rhs => rw [← List.map_id l]
  apply List.map_congr_left
  intro a ha
  show (if key a = k then f a else a) = a
  split
  · exact h a ((hfind a).mpr ⟨ha, ‹_›⟩)
  · rfl

/-- A stamp with the id that is there. -/
theorem stamp_of_storedId (hc : t.Constraints) {key : RowKey} {id : String}
    (h : t.storedId key = some id) : t.stamp key id = t := by
  rcases key with (k | k) | ⟨owner, currency⟩ | ⟨owner, country⟩
  · have hupdate : Table.update PlanPrice.id k (fun pp => { pp with stripePriceId := id })
        t.planPrices = t.planPrices := by
      apply update_eq_self hc.planPrice_pk
      intro pp hpp
      unfold storedId at h
      dsimp only at h
      rw [hpp] at h
      cases h
      rfl
    unfold stamp
    dsimp only
    rw [hupdate]
  · have hupdate : Table.update ProductPrice.id k (fun pp => { pp with stripePriceId := id })
        t.productPrices = t.productPrices := by
      apply update_eq_self hc.productPrice_pk
      intro pp hpp
      unfold storedId at h
      dsimp only at h
      rw [hpp] at h
      cases h
      rfl
    unfold stamp
    dsimp only
    rw [hupdate]
  · have hupdate : Table.update (fun r : LocalizedPrice => (r.owner, r.currency)) (owner, currency)
        (fun r => { r with stripePriceId := some id }) t.localizedPrices = t.localizedPrices := by
      apply update_eq_self hc.uniq_localized_price_currency
      intro r hr
      unfold storedId at h
      dsimp only at h
      rw [localizedRow_eq_find?, hr] at h
      show { r with stripePriceId := some id } = r
      rw [← h]
      rfl
    unfold stamp
    dsimp only
    rw [hupdate]
  · have hupdate : Table.update CountryPrice.key (owner, country)
        (fun r => { r with stripePriceId := some id }) t.countryPrices = t.countryPrices := by
      apply update_eq_self hc.uniq_country_price_country
      intro r hr
      have hr : t.countryRow owner country = some r := hr
      unfold storedId at h
      dsimp only at h
      rw [hr] at h
      show { r with stripePriceId := some id } = r
      rw [← h]
      rfl
    unfold stamp saveCountryRow
    dsimp only
    rw [hupdate]

end CatalogTables

/-! ### The FX job -/

variable (u) in
/-- What the FX job leaves, if it does not raise. -/
def CatalogTables.afterFx (t : CatalogTables) (fetch : FxFetch) : CatalogTables :=
  match fetch.apiRates u with
  | none => t
  | some rates => t.synced u rates fetch.now

namespace CatalogTables

variable {rates : List (String × ℚ)} {now : Timestamp} {fetch : FxFetch}

theorem eq_afterFx (hc : t.Constraints) {n : Nat}
    (h : syncLocalizedPrices u fetch t = .ok (t', n)) :
    t' = t.afterFx u fetch := by
  unfold afterFx
  rcases hrates : fetch.apiRates u with - | rates
  · rcases syncLocalizedPrices_ok h with ⟨-, rfl⟩ | ⟨rates, -, hsome, -⟩
    · rfl
    · cases hrates.symm.trans hsome
  · exact ((syncLocalizedPrices_ok_iff hc hrates).mp h).2.1

theorem afterFx_constraints (hc : t.Constraints) (fetch : FxFetch) :
    (t.afterFx u fetch).Constraints := by
  unfold afterFx
  split
  · exact hc
  · exact synced_constraints u _ _ hc

/-- The job leaves the ids. -/
theorem storedId_afterFx (hc : t.Constraints) (fetch : FxFetch) (key : RowKey) :
    (t.afterFx u fetch).storedId key = t.storedId key := by
  unfold afterFx
  split
  · rfl
  · rename_i rates _
    rcases key with (k | k) | ⟨owner, currency⟩ | ⟨owner, country⟩
    · rfl
    · rfl
    · unfold storedId
      dsimp only
      rw [localizedRow_synced u rates fetch.now hc]
      rcases t.localizedRow owner currency with - | r
      · rcases t.localizedAmount rates owner currency with - | v <;> rfl
      · exact (refreshed_key t rates fetch.now r).2.2
    · show Option.bind (List.find? _ (t.countryPrices.map _)) _ = _
      rw [find?_map_congr fun r : CountryPrice => (r.owner, r.country) = (owner, country)]
      · unfold storedId countryRow
        dsimp only
        rcases t.countryPrices.find? _ with - | r
        · rfl
        · exact (suggestCountryRow_key u t rates r).2.2
      · intro r
        obtain ⟨howner, hcountry, -⟩ := suggestCountryRow_key u t rates r
        rw [howner, hcountry]

theorem suggestCountryRow_unstamped (cp : CountryPrice) :
    ((t.unstamped.suggestCountryRow u rates cp.unstamped).toOption.getD cp.unstamped).unstamped
      = ((t.suggestCountryRow u rates cp).toOption.getD cp).unstamped := by
  unfold suggestCountryRow
  rw [usdAmount_unstamped]
  show ((if cp.isCurated = true then _ else _ : Except String CountryPrice).toOption.getD
    cp.unstamped).unstamped = _
  split
  · rfl
  · dsimp only [CountryPrice.unstamped]
    rcases t.usdAmount cp.owner with - | amount
    · rfl
    · dsimp only
      rcases suggestedSticker rates amount cp.currency with - | suggested
      · rfl
      · dsimp only
        rcases deriveBase suggested (standardVatRate u cp.country) with e | base
        · rfl
        · rfl

theorem refreshed_unstamped (r : LocalizedPrice) :
    (t.unstamped.refreshed rates now r.unstamped).unstamped
      = (t.refreshed rates now r).unstamped := by
  unfold refreshed localizedAmount
  rw [usdAmount_unstamped]
  have howner : r.unstamped.owner = r.owner := rfl
  have hcurrency : r.unstamped.currency = r.currency := rfl
  rw [howner, hcurrency]
  rcases (t.usdAmount r.owner).bind fun amount => newAmount rates amount r.currency with - | v
  · rfl
  · rfl

theorem created_upsertForPrice (price : Price) (existing : List LocalizedPrice) :
    (upsertForPrice rates now price existing).filterMap LocalizedWrite.created
      = (computeNewAmounts rates price.amount).filterMap fun e =>
        if (existing.find? fun r => r.currency = e.1).isSome then none
        else some ⟨price.owner, e.1, e.2, none, now⟩ := by
  unfold upsertForPrice
  rw [List.filterMap_map]
  apply List.filterMap_congr
  rintro ⟨currency, amount⟩ _
  dsimp only [Function.comp_apply]
  rcases existing.find? _ with - | r
  · rfl
  · dsimp only
    split <;> rfl

/-- The rows that the job creates carry no id, and do not depend on one. -/
theorem created_unstamped :
    (t.unstamped.localizedWrites rates now).filterMap LocalizedWrite.created
      = (t.localizedWrites rates now).filterMap LocalizedWrite.created := by
  unfold localizedWrites
  rw [prices_unstamped, List.flatMap_map, List.filterMap_flatMap, List.filterMap_flatMap]
  apply List.flatMap_congr
  intro price _
  have howner : price.unstamped.owner = price.owner := by rcases price with pp | pp <;> rfl
  have hamount : price.unstamped.amount = price.amount := by rcases price with pp | pp <;> rfl
  rw [created_upsertForPrice, created_upsertForPrice, howner, hamount]
  apply List.filterMap_congr
  intro e _
  have hexisting : (t.unstamped.localizedPrices.filter fun r => r.owner = price.owner)
      = (t.localizedPrices.filter fun r => r.owner = price.owner).map LocalizedPrice.unstamped := by
    show (t.localizedPrices.map LocalizedPrice.unstamped).filter _ = _
    rw [List.filter_map]
    rfl
  rw [hexisting, find?_map_congr (fun r : LocalizedPrice => r.currency = e.1) fun _ => rfl,
    Option.isSome_map]

/-- **The job does not look at the ids.** -/
theorem afterFx_congr (h : t'.unstamped = t.unstamped) (fetch : FxFetch) :
    (t'.afterFx u fetch).unstamped = (t.afterFx u fetch).unstamped := by
  suffices hmain : ∀ t : CatalogTables, (t.afterFx u fetch).unstamped
      = (t.unstamped.afterFx u fetch).unstamped from (hmain t').trans (h ▸ (hmain t).symm)
  intro t
  unfold afterFx
  split
  · simp [unstamped, Function.comp_def, PlanPrice.unstamped, ProductPrice.unstamped,
      LocalizedPrice.unstamped, CountryPrice.unstamped]
  · rename_i rates _
    unfold synced
    rw [created_unstamped]
    simp only [unstamped, List.map_append, List.map_map]
    have hplan : PlanPrice.unstamped ∘ PlanPrice.unstamped = PlanPrice.unstamped := rfl
    have hproduct : ProductPrice.unstamped ∘ ProductPrice.unstamped = ProductPrice.unstamped := rfl
    rw [hplan, hproduct]
    congr 2
    · apply List.map_congr_left
      intro r _
      exact (refreshed_unstamped r).symm
    · funext cp
      exact (suggestCountryRow_unstamped cp).symm

end CatalogTables

end Unstamped

end Saasmint
