/-
Saasmint/Billing/LocalizedSync.lean

What a run of `sync_localized_prices` leaves, row by row.

A run computes an amount for every price and every currency with a rate
(`CatalogTables.localizedAmount`).  It writes one row for each of them and
counts those that it creates or moves; the rest are heartbeats.  So after a run
the amounts are all there, and a run with the same rates has only heartbeats
(`localized_sync_exact`).

The tables are written in one transaction: a run that raises leaves them as they
were, as does one whose feed is down or sends something else than rates.
-/
import Saasmint.Billing.CuratedPrices

namespace Saasmint

open PyStr

variable (u : UnicodeTables)

/-! ### The task -/

/-- What the request for the rates gets. -/
inductive FxBody
  /-- An error of the transport, or no JSON. -/
  | failed
  /-- JSON that is no object, so that `data.get` raises. -/
  | notObject
  | object (payload : FxPayload)
  deriving DecidableEq

/-- One run: the tables after it, and what it returns; `none` where it raises. -/
def runLocalizedSync (now : Timestamp) (body : FxBody) (t : CatalogTables) :
    CatalogTables × Option Nat :=
  match body with
  | .failed => (t, some 0)
  | .notObject => (t, none)
  | .object payload =>
    match syncLocalizedPrices u ⟨now, some payload⟩ t with
    | .ok (t', changed) => (t', some changed)
    | .error _ => (t, none)

/-- The rates of a body, if it has them. -/
def FxBody.rates : FxBody → Option (List (String × ℚ))
  | object payload => FxFetch.apiRates u ⟨0, some payload⟩
  | _ => none

/-! ### What is claimed -/

/-- The row of an owner in a currency is there once, with the amount. -/
def CatalogTables.HoldsAmount (t : CatalogTables) (owner : PriceOwner) (currency : String)
    (amount : Int) : Prop :=
  ∃ r, (t.localizedPrices.filter fun r => r.owner = owner ∧ r.currency = currency) = [r] ∧
    r.amountMinor = amount

/-- A country row after a run: with the suggested sticker and its base, if the
row is not curated and there is a suggestion; as it was otherwise. -/
def CatalogTables.Suggested (t : CatalogTables) (rates : List (String × ℚ))
    (cp cp' : CountryPrice) : Prop :=
  match (t.usdAmount cp.owner).bind fun amount => suggestedSticker rates amount cp.currency with
  | some sticker =>
    if cp.isCurated then cp' = cp
    else ∃ base, deriveBase sticker (standardVatRate u cp.country) = .ok base ∧
      cp' = { cp with stickerMinor := sticker, baseMinor := base }
  | none => cp' = cp

/-- The rows of `t'` that `t` did not have, or had with something else than a
time of the run. -/
def CatalogTables.createdOrChanged (t t' : CatalogTables) : Nat :=
  (t'.localizedPrices.countP fun r => t.amounts r.owner r.currency ≠ some r.amountMinor)
    + t'.countryPrices.countP fun r => r ∉ t.countryPrices

/-- The tables without the times of the runs. -/
def CatalogTables.unsynced (t : CatalogTables) : CatalogTables :=
  { t with localizedPrices := t.localizedPrices.map fun r => { r with syncedAt := 0 } }

/-- What a run with rates leaves. -/
structure CatalogTables.Synced (t t' : CatalogTables) (rates : List (String × ℚ)) : Prop where
  amounts : ∀ price ∈ t.prices, ∀ currency amount,
    newAmount rates price.amount currency = some amount →
      t'.HoldsAmount price.owner currency amount
  others : ∀ owner currency, t.localizedAmount rates owner currency = none →
    (t'.localizedPrices.filter fun r => r.owner = owner ∧ r.currency = currency)
      = t.localizedPrices.filter fun r => r.owner = owner ∧ r.currency = currency
  stripePriceIds : ∀ owner currency,
    (t'.localizedRow owner currency).bind LocalizedPrice.stripePriceId
      = (t.localizedRow owner currency).bind LocalizedPrice.stripePriceId
  country : List.Forall₂ (t.Suggested u rates) t.countryPrices t'.countryPrices
  rest : t'.plans = t.plans ∧ t'.planPrices = t.planPrices ∧ t'.products = t.products ∧
    t'.productPrices = t.productPrices

variable {u} {t t' : CatalogTables} {rates : List (String × ℚ)} {now : Timestamp}

/-! ### The writes -/

/-- The key of the row that is written. -/
def LocalizedWrite.key : LocalizedWrite → PriceOwner × String
  | create r | changed r | heartbeat r => (r.owner, r.currency)

/-- The key of a row. -/
abbrev LocalizedPrice.key (r : LocalizedPrice) : PriceOwner × String := (r.owner, r.currency)

theorem computeNewAmounts_nodup (rates : List (String × ℚ)) (amount : Int) :
    ((computeNewAmounts rates amount).map Prod.fst).Nodup := by
  have hsub : ((computeNewAmounts rates amount).map Prod.fst).Sublist
      ((supportedCurrencies.filter (· ≠ "usd")).map id) := by
    refine Table.map_filterMap_sublist ?_ _
    intro currency entry h
    obtain ⟨v, -, rfl⟩ := Option.map_eq_some_iff.mp h
    rfl
  refine hsub.nodup ?_
  rw [List.map_id]
  exact List.Nodup.filter _ (by decide)

/-- `_upsert_for_price` has one write for each of the amounts. -/
theorem map_key_upsertForPrice {price : Price} {existing : List LocalizedPrice}
    (howner : ∀ r ∈ existing, r.owner = price.owner) :
    (upsertForPrice rates now price existing).map LocalizedWrite.key
      = (computeNewAmounts rates price.amount).map fun entry => (price.owner, entry.1) := by
  unfold upsertForPrice
  rw [List.map_map]
  refine List.map_congr_left ?_
  rintro ⟨currency, v⟩ -
  simp only [Function.comp_apply]
  rcases e : existing.find? fun r => r.currency = currency with - | r
  · rw [e]
    rfl
  · rw [e]
    have hown := howner r (List.mem_of_find?_eq_some e)
    have hcur : r.currency = currency := by simpa using List.find?_some e
    dsimp only
    split <;> simp [LocalizedWrite.key, hown, hcur]

variable (rates now) in
/-- A run writes no row twice. -/
theorem localizedWrites_keys_nodup (hc : t.Constraints) :
    ((t.localizedWrites rates now).map LocalizedWrite.key).Nodup := by
  have hkeys : (t.localizedWrites rates now).map LocalizedWrite.key
      = t.prices.flatMap fun price =>
        (computeNewAmounts rates price.amount).map fun entry => (price.owner, entry.1) := by
    unfold CatalogTables.localizedWrites
    rw [List.map_flatMap]
    refine List.flatMap_congr fun price _ => map_key_upsertForPrice ?_
    intro r hr
    simpa using (List.mem_filter.mp hr).2
  rw [hkeys, List.nodup_flatMap]
  constructor
  · intro price _
    have h := (computeNewAmounts_nodup rates price.amount).map
      (f := fun currency => (price.owner, currency)) fun a b hab => (Prod.mk.inj hab).2
    rwa [List.map_map] at h
  · have hown : t.prices.Pairwise fun p q => p.owner ≠ q.owner :=
      List.pairwise_map.mp (Price.owner_inj_of_mem hc)
    refine hown.imp fun {p q} hpq => ?_
    -- writes of two prices differ in the owner
    intro key hp hq
    obtain ⟨e, -, rfl⟩ := List.mem_map.mp hp
    obtain ⟨e', -, h⟩ := List.mem_map.mp hq
    exact hpq (Prod.mk.inj h).1.symm

/-- The rows after the bulk writes, in order. -/
theorem bulkWrite_eq (hc : t.Constraints) :
    bulkWrite (t.localizedWrites rates now) t.localizedPrices
      = t.localizedPrices.map (t.refreshed rates now)
        ++ (t.localizedWrites rates now).filterMap LocalizedWrite.created := by
  have hnew : ∀ r ∈ (t.localizedWrites rates now).filterMap LocalizedWrite.created,
      updateSyncedAt ((t.localizedWrites rates now).filterMap LocalizedWrite.updateHeartbeat)
        (updateAmount ((t.localizedWrites rates now).filterMap LocalizedWrite.updateChanged) r)
        = r := by
    intro r hr
    obtain ⟨owner, currency, v, -, hnone, rfl⟩ := (mem_created hc).mp hr
    obtain ⟨h₁, h₂⟩ := inBatch_eq_none rates now hc
      (r := ⟨owner, currency, v, none, now⟩) hnone
    simp [updateAmount, updateSyncedAt, h₁, h₂]
  unfold bulkWrite
  rw [List.map_map, List.map_append]
  congr 1
  · exact List.map_congr_left fun r hr => updateSyncedAt_updateAmount hc hr
  · exact (List.map_congr_left hnew).trans (List.map_id' _)

/-! ### The tables after a run -/

/-- The tables after a run that does not raise. -/
def CatalogTables.synced (u : UnicodeTables) (t : CatalogTables) (rates : List (String × ℚ))
    (now : Timestamp) : CatalogTables :=
  { t with
    localizedPrices := t.localizedPrices.map (t.refreshed rates now)
      ++ (t.localizedWrites rates now).filterMap LocalizedWrite.created
    countryPrices := t.countryPrices.map fun cp =>
      (t.suggestCountryRow u rates cp).toOption.getD cp }

variable (t rates now) in
theorem key_refreshed (r : LocalizedPrice) : (t.refreshed rates now r).key = r.key := by
  obtain ⟨howner, hcur, -⟩ := refreshed_key t rates now r
  rw [LocalizedPrice.key, howner, hcur]

theorem created_keys_nodup (hc : t.Constraints) :
    (((t.localizedWrites rates now).filterMap LocalizedWrite.created).map
      LocalizedPrice.key).Nodup := by
  refine (Table.map_filterMap_sublist ?_ _).nodup (localizedWrites_keys_nodup rates
    now hc)
  intro w r h
  rcases w with r' | r' | r' <;> cases h
  rfl

theorem synced_keys_nodup (hc : t.Constraints) :
    ((t.synced u rates now).localizedPrices.map LocalizedPrice.key).Nodup := by
  have hold : (t.localizedPrices.map (t.refreshed rates now)).map LocalizedPrice.key
      = t.localizedPrices.map LocalizedPrice.key := by
    rw [List.map_map]
    exact List.map_congr_left fun r _ => key_refreshed t rates now r
  unfold CatalogTables.synced
  rw [List.map_append, hold, List.nodup_append']
  refine ⟨hc.uniq_localized_price_currency, created_keys_nodup hc, ?_⟩
  intro key hkey hkey'
  obtain ⟨r, hr, rfl⟩ := List.mem_map.mp hkey
  obtain ⟨r', hr', hk⟩ := List.mem_map.mp hkey'
  obtain ⟨owner, currency, v, -, hnone, rfl⟩ := (mem_created hc).mp hr'
  -- what is created had no row
  have hrow := (localizedRow_eq_some_iff hc).mpr ⟨hr, rfl, rfl⟩
  obtain ⟨rfl, rfl⟩ := Prod.mk.inj hk
  rw [hnone] at hrow
  cases hrow

/-- A run leaves the ids of the Stripe Prices where they were. -/
theorem synced_stripePriceIds (hc : t.Constraints) :
    (t.synced u rates now).localizedPrices.filterMap LocalizedPrice.stripePriceId
      = t.localizedPrices.filterMap LocalizedPrice.stripePriceId := by
  unfold CatalogTables.synced
  rw [List.filterMap_append, List.filterMap_map]
  have hold : ∀ r, (LocalizedPrice.stripePriceId ∘ t.refreshed rates now) r = r.stripePriceId :=
    fun r => (refreshed_key t rates now r).2.2
  have hnew : ((t.localizedWrites rates now).filterMap LocalizedWrite.created).filterMap
      LocalizedPrice.stripePriceId = [] := by
    refine List.filterMap_eq_nil_iff.mpr fun r hr => ?_
    obtain ⟨owner, currency, v, -, -, rfl⟩ := (mem_created hc).mp hr
    rfl
  rw [hnew, List.append_nil]
  exact List.filterMap_congr fun r _ => hold r

variable (u rates now) in
/-- A run leaves tables that meet their constraints. -/
theorem synced_constraints (hc : t.Constraints) : (t.synced u rates now).Constraints where
  plan_pk := hc.plan_pk
  uniq_active_plan_per_context_tier_interval := hc.uniq_active_plan_per_context_tier_interval
  planPrice_pk := hc.planPrice_pk
  planPrice_plan := hc.planPrice_plan
  planPrice_stripe := hc.planPrice_stripe
  product_pk := hc.product_pk
  productPrice_pk := hc.productPrice_pk
  productPrice_product := hc.productPrice_product
  productPrice_stripe := hc.productPrice_stripe
  uniq_localized_price_currency := synced_keys_nodup hc
  uniq_localized_stripe_price_id := by
    rw [synced_stripePriceIds hc]
    exact hc.uniq_localized_stripe_price_id
  uniq_country_price_country := by
    unfold CatalogTables.synced
    rw [List.map_map]
    convert hc.uniq_country_price_country using 1
    refine List.map_congr_left fun cp _ => ?_
    obtain ⟨howner, hcountry, -⟩ := suggestCountryRow_key u t rates cp
    exact Prod.ext howner hcountry
  uniq_country_stripe_price_id := by
    unfold CatalogTables.synced
    rw [List.filterMap_map]
    convert hc.uniq_country_stripe_price_id using 1
    exact List.filterMap_congr fun cp _ => (suggestCountryRow_key u t rates cp).2.2

/-! ### The count -/

/-- A row as a run rewrites it, if its amount moves. -/
def CatalogTables.moved (t : CatalogTables) (rates : List (String × ℚ)) (now : Timestamp)
    (r : LocalizedPrice) : Option LocalizedPrice :=
  if r.amountMinor ≠ (t.refreshed rates now r).amountMinor then some (t.refreshed rates now r)
  else none

theorem moved_eq_some_iff {r b : LocalizedPrice} :
    t.moved rates now r = some b ↔
      ∃ v, t.localizedAmount rates r.owner r.currency = some v ∧ r.amountMinor ≠ v ∧
        b = { r with amountMinor := v, syncedAt := now } := by
  unfold CatalogTables.moved CatalogTables.refreshed
  rcases t.localizedAmount rates r.owner r.currency with - | v
  · simp
  · simp [eq_comm]

/-- The batch of the changed rows is, in some order, that of the rows that move. -/
theorem updateChanged_perm (hc : t.Constraints) :
    ((t.localizedWrites rates now).filterMap LocalizedWrite.updateChanged).Perm
      (t.localizedPrices.filterMap (t.moved rates now)) := by
  have hupdate : ∀ w r, LocalizedWrite.updateChanged w = some r → r.key = w.key := by
    intro w r h
    rcases w with r' | r' | r' <;> cases h
    rfl
  have hmoved : ∀ r b, t.moved rates now r = some b → b.key = r.key := by
    intro r b h
    obtain ⟨v, -, -, rfl⟩ := moved_eq_some_iff.mp h
    rfl
  have hnodup := (Table.map_filterMap_sublist hupdate _).nodup
    (localizedWrites_keys_nodup rates now hc)
  have hnodup' := (Table.map_filterMap_sublist hmoved _).nodup hc.uniq_localized_price_currency
  refine (List.perm_ext_iff_of_nodup (.of_map _ hnodup) (.of_map _ hnodup')).mpr fun b => ?_
  rw [mem_updateChanged rates now hc, List.mem_filterMap]
  simp only [moved_eq_some_iff]

theorem length_updateChanged (hc : t.Constraints) :
    ((t.localizedWrites rates now).filterMap LocalizedWrite.updateChanged).length
      = t.localizedPrices.countP fun r =>
        r.amountMinor ≠ (t.refreshed rates now r).amountMinor := by
  rw [(updateChanged_perm hc).length_eq, List.length_filterMap_eq_countP]
  refine List.countP_congr fun r _ => ?_
  unfold CatalogTables.moved
  split <;> simp [*]

/-- What `_upsert_for_price` counts: the rows to create and the changed ones. -/
theorem length_not_heartbeat (writes : List LocalizedWrite) :
    (writes.filter fun w => w.updateHeartbeat.isNone).length
      = (writes.filterMap LocalizedWrite.created).length
        + (writes.filterMap LocalizedWrite.updateChanged).length := by
  induction writes with
  | nil => rfl
  | cons w writes ih =>
    rcases w with r | r | r
    · rw [List.filter_cons_of_pos rfl, List.filterMap_cons_some (f := LocalizedWrite.created) rfl,
        List.filterMap_cons_none rfl, List.length_cons, List.length_cons, ih]
      omega
    · rw [List.filter_cons_of_pos rfl, List.filterMap_cons_none rfl,
        List.filterMap_cons_some (f := LocalizedWrite.updateChanged) rfl, List.length_cons,
        List.length_cons, ih]
      omega
    · rw [List.filter_cons_of_neg (by simp [LocalizedWrite.updateHeartbeat]),
        List.filterMap_cons_none rfl, List.filterMap_cons_none rfl, ih]

/-- The localized rows that `t` did not have, or had with another amount. -/
theorem countP_localized (hc : t.Constraints) :
    ((t.synced u rates now).localizedPrices.countP fun r =>
        t.amounts r.owner r.currency ≠ some r.amountMinor)
      = ((t.localizedWrites rates now).filter fun w => w.updateHeartbeat.isNone).length := by
  rw [length_not_heartbeat, length_updateChanged hc]
  unfold CatalogTables.synced
  rw [List.countP_append, List.countP_map, Nat.add_comm]
  congr 1
  · refine List.countP_eq_length.mpr fun r hr => ?_
    obtain ⟨owner, currency, v, -, hnone, rfl⟩ := (mem_created hc).mp hr
    simp [CatalogTables.amounts, hnone]
  · refine List.countP_congr fun r hr => ?_
    obtain ⟨howner, hcur, -⟩ := refreshed_key t rates now r
    have hrow := (localizedRow_eq_some_iff hc).mpr ⟨hr, rfl, rfl⟩
    simp [CatalogTables.amounts, howner, hcur, hrow]

/-- The country rows that `t` did not have as they are. -/
theorem countP_country (hc : t.Constraints) :
    ((t.synced u rates now).countryPrices.countP fun cp => cp ∉ t.countryPrices)
      = (t.countryPrices.zip (t.synced u rates now).countryPrices).countP
        fun (old, new) => old ≠ new := by
  unfold CatalogTables.synced
  dsimp only
  rw [List.countP_map, ← List.map_prod_left_eq_zip, List.countP_map]
  refine List.countP_congr fun cp hcp => ?_
  simp only [Function.comp_apply, decide_eq_true_eq, not_iff_not]
  constructor
  · intro hmem
    -- the only row with the key of `cp` is `cp`
    obtain ⟨howner, hcountry, -⟩ := suggestCountryRow_key u t rates cp
    exact (Table.unique_some_iff.mpr hc.uniq_country_price_country).inj hcp hmem rfl
      (congrArg some (Prod.ext howner hcountry))
  · intro h
    rw [← h]
    exact hcp

/-! ### A run -/

/-- A run that can suggest for every row leaves `synced` and counts what it has
created and changed. -/
theorem syncLocalizedPrices_eq (hc : t.Constraints) {fetch : FxFetch}
    (hrates : fetch.apiRates u = some rates)
    (hall : ∀ cp ∈ t.countryPrices, ∃ cp', t.suggestCountryRow u rates cp = .ok cp') :
    syncLocalizedPrices u fetch t
      = .ok (t.synced u rates fetch.now, t.createdOrChanged (t.synced u rates fetch.now)) := by
  obtain ⟨cps, hcps⟩ := Loops.mapM_isOk hall
  have hmap := Loops.mapM_ok_eq_map (g := fun cp =>
    (t.suggestCountryRow u rates cp).toOption.getD cp) hcps fun cp _ cp' h => by
      simp [h, Except.toOption]
  unfold syncLocalizedPrices CatalogTables.createdOrChanged
  rw [hrates, countP_localized hc, countP_country hc]
  simp only [hcps, bulkWrite_eq hc, hmap]
  rfl

/-- A run that does not raise is such a run. -/
theorem syncLocalizedPrices_ok_iff (hc : t.Constraints) {fetch : FxFetch}
    (hrates : fetch.apiRates u = some rates) {n : Nat} :
    syncLocalizedPrices u fetch t = .ok (t', n) ↔
      (∀ cp ∈ t.countryPrices, ∃ cp', t.suggestCountryRow u rates cp = .ok cp') ∧
        t' = t.synced u rates fetch.now ∧ n = t.createdOrChanged t' := by
  constructor
  · intro h
    have hall : ∀ cp ∈ t.countryPrices, ∃ cp', t.suggestCountryRow u rates cp = .ok cp' := by
      rcases syncLocalizedPrices_ok h with ⟨hnone, -⟩ | ⟨rates', cps, hrates', hcps, -⟩
      · rw [hrates] at hnone
        cases hnone
      · obtain rfl := Option.some.inj (hrates.symm.trans hrates')
        intro cp hcp
        obtain ⟨cp', -, hok⟩ := (Loops.mapM_ok_mem hcps).1 cp hcp
        exact ⟨cp', hok⟩
    rw [syncLocalizedPrices_eq hc hrates hall] at h
    obtain ⟨rfl, rfl⟩ := Prod.mk.inj (Except.ok.inj h)
    exact ⟨hall, rfl, rfl⟩
  · rintro ⟨hall, rfl, rfl⟩
    exact syncLocalizedPrices_eq hc hrates hall

variable (u rates now) in
theorem localizedRow_synced (hc : t.Constraints) (owner : PriceOwner) (currency : String) :
    (t.synced u rates now).localizedRow owner currency
      = match t.localizedRow owner currency with
        | some r => some (t.refreshed rates now r)
        | none => (t.localizedAmount rates owner currency).map fun v =>
          ⟨owner, currency, v, none, now⟩ := by
  have hc' := synced_constraints u rates now hc
  rcases e : t.localizedRow owner currency with - | r
  · rcases hv : t.localizedAmount rates owner currency with - | v
    · refine Option.eq_none_iff_forall_ne_some.mpr fun r hr => ?_
      obtain ⟨hmem, rfl, rfl⟩ := (localizedRow_eq_some_iff hc').mp hr
      rcases List.mem_append.mp hmem with hmem | hmem
      · obtain ⟨r₀, hr₀, rfl⟩ := List.mem_map.mp hmem
        obtain ⟨howner, hcur, -⟩ := refreshed_key t rates now r₀
        rw [(localizedRow_eq_some_iff hc).mpr ⟨hr₀, howner.symm, hcur.symm⟩] at e
        cases e
      · obtain ⟨owner, currency, v, hv', -, rfl⟩ := (mem_created hc).mp hmem
        rw [hv] at hv'
        cases hv'
    · refine (localizedRow_eq_some_iff hc').mpr ⟨List.mem_append.mpr (Or.inr ?_), rfl, rfl⟩
      exact (mem_created hc).mpr ⟨owner, currency, v, hv, e, rfl⟩
  · obtain ⟨hr, rfl, rfl⟩ := (localizedRow_eq_some_iff hc).mp e
    obtain ⟨howner, hcur, -⟩ := refreshed_key t rates now r
    refine (localizedRow_eq_some_iff hc').mpr ⟨List.mem_append.mpr (Or.inl ?_), howner, hcur⟩
    exact List.mem_map.mpr ⟨r, hr, rfl⟩

/-- The rows with a key, as the one that the table looks up. -/
theorem filter_key_eq (hc : t.Constraints) (owner : PriceOwner) (currency : String) :
    (t.localizedPrices.filter fun r => r.owner = owner ∧ r.currency = currency)
      = (t.localizedRow owner currency).toList := by
  rcases e : t.localizedRow owner currency with - | r
  · refine List.filter_eq_nil_iff.mpr fun r hr hkey => ?_
    obtain ⟨rfl, rfl⟩ := of_decide_eq_true hkey
    rw [(localizedRow_eq_some_iff hc).mpr ⟨hr, rfl, rfl⟩] at e
    cases e
  · obtain ⟨hr, rfl, rfl⟩ := (localizedRow_eq_some_iff hc).mp e
    have hu := Table.unique_some_iff.mpr hc.uniq_localized_price_currency
    have hfilter := Table.filter_eq_singleton hu hr rfl
    simpa using hfilter

/-- A country row that the loop leaves holds what is suggested for it. -/
theorem suggested_of_ok {cp cp' : CountryPrice} (h : t.suggestCountryRow u rates cp = .ok cp') :
    t.Suggested u rates cp cp' := by
  unfold CatalogTables.Suggested
  rcases Bool.eq_false_or_eq_true cp.isCurated with hcur | hcur
  · rw [suggestCountryRow_curated hcur] at h
    obtain rfl := Except.ok.inj h
    rw [hcur]
    split <;> rfl
  · rcases husd : t.usdAmount cp.owner with - | amount
    · simp [CatalogTables.suggestCountryRow, hcur, husd] at h
    · rw [suggestCountryRow_uncurated hcur husd] at h
      rw [Option.bind_some]
      rcases hsug : suggestedSticker rates amount cp.currency with - | sticker
      · rw [hsug] at h
        exact (Except.ok.inj h).symm
      · rw [hsug] at h
        obtain ⟨base, hbase, h⟩ := Loops.bind_eq_ok.mp h
        dsimp only
        rw [if_neg (by simp [hcur])]
        exact ⟨base, hbase, (Except.ok.inj h).symm⟩

/-- A row that a run leaves is suggested again as it is. -/
theorem suggestCountryRow_idem {cp cp' : CountryPrice}
    (h : t.suggestCountryRow u rates cp = .ok cp') : t.suggestCountryRow u rates cp' = .ok cp' := by
  rcases hcur : cp.isCurated with - | -
  · rcases husd : t.usdAmount cp.owner with - | amount
    · simp [CatalogTables.suggestCountryRow, hcur, husd] at h
    · have hsuggest : t.suggestCountryRow u rates cp = _ := suggestCountryRow_uncurated hcur husd
      rw [hsuggest] at h
      rcases hsug : suggestedSticker rates amount cp.currency with - | sticker
      · rw [hsug] at h hsuggest
        obtain rfl := Except.ok.inj h
        exact hsuggest
      · rw [hsug] at h
        obtain ⟨base, hbase, h⟩ := Loops.bind_eq_ok.mp h
        obtain rfl := Except.ok.inj h
        have hcur' : ({ cp with stickerMinor := sticker, baseMinor := base } :
            CountryPrice).isCurated = false := hcur
        rw [suggestCountryRow_uncurated hcur' husd]
        simp only [hsug, hbase]
        rfl
  · rw [suggestCountryRow_curated hcur] at h
    obtain rfl := Except.ok.inj h
    exact suggestCountryRow_curated hcur

/-- **What a run leaves.** -/
theorem synced_synced (hc : t.Constraints)
    (hall : ∀ cp ∈ t.countryPrices, ∃ cp', t.suggestCountryRow u rates cp = .ok cp') :
    t.Synced u (t.synced u rates now) rates := by
  have hc' := synced_constraints u rates now hc
  constructor
  case amounts =>
    intro price hprice currency amount hamount
    have husd := (usdAmount_eq_some_iff hc).mpr ⟨price, hprice, rfl, rfl⟩
    have hv : t.localizedAmount rates price.owner currency = some amount := by
      rw [CatalogTables.localizedAmount, husd]
      exact hamount
    have hrow := localizedRow_synced u rates now hc price.owner currency
    unfold CatalogTables.HoldsAmount
    rw [filter_key_eq hc', hrow]
    rcases e : t.localizedRow price.owner currency with - | r
    · exact ⟨_, by rw [hv]; rfl, rfl⟩
    · obtain ⟨-, howner, hcur⟩ := (localizedRow_eq_some_iff hc).mp e
      refine ⟨_, rfl, ?_⟩
      rw [CatalogTables.refreshed, howner, hcur, hv]
  case others =>
    intro owner currency hnone
    rw [filter_key_eq hc, filter_key_eq hc', localizedRow_synced u rates now hc, hnone]
    rcases e : t.localizedRow owner currency with - | r
    · rfl
    · obtain ⟨-, rfl, rfl⟩ := (localizedRow_eq_some_iff hc).mp e
      simp [CatalogTables.refreshed, hnone]
  case stripePriceIds =>
    intro owner currency
    rw [localizedRow_synced u rates now hc]
    rcases e : t.localizedRow owner currency with - | r
    · rcases t.localizedAmount rates owner currency with - | v
      · rfl
      · rfl
    · exact (refreshed_key t rates now r).2.2
  case country =>
    refine List.forall₂_map_right_iff.mpr (List.forall₂_same.mpr fun cp hcp => ?_)
    obtain ⟨cp', hok⟩ := hall cp hcp
    show t.Suggested u rates cp ((t.suggestCountryRow u rates cp).toOption.getD cp)
    rw [hok]
    exact suggested_of_ok hok
  case rest => exact ⟨rfl, rfl, rfl, rfl⟩

/-! ### The next run -/

/-- The next run finds every row with its amount. -/
theorem amountMinor_of_mem_synced (hc : t.Constraints) {r : LocalizedPrice} {v : Int}
    (hr : r ∈ (t.synced u rates now).localizedPrices)
    (hv : t.localizedAmount rates r.owner r.currency = some v) : r.amountMinor = v := by
  rcases List.mem_append.mp hr with hr | hr
  · obtain ⟨r₀, -, rfl⟩ := List.mem_map.mp hr
    obtain ⟨howner, hcur, -⟩ := refreshed_key t rates now r₀
    rw [howner, hcur] at hv
    rw [CatalogTables.refreshed, hv]
  · obtain ⟨owner, currency, v', hv', -, rfl⟩ := (mem_created hc).mp hr
    exact Option.some.inj (hv'.symm.trans hv)

variable (now) in
/-- It leaves all but the times. -/
theorem synced_unsynced (hc : t.Constraints) (now' : Timestamp)
    (hall : ∀ cp ∈ t.countryPrices, ∃ cp', t.suggestCountryRow u rates cp = .ok cp') :
    ((t.synced u rates now).synced u rates now').unsynced = (t.synced u rates now).unsynced := by
  have hc' := synced_constraints u rates now hc
  have hcreated : ((t.synced u rates now).localizedWrites rates now').filterMap
      LocalizedWrite.created = [] := by
    refine List.eq_nil_iff_forall_not_mem.mpr fun r hr => ?_
    obtain ⟨owner, currency, v, hv, hnone, rfl⟩ := (mem_created hc').mp hr
    -- the first run has left a row for every amount
    have hrow := localizedRow_synced u rates now hc owner currency
    rw [hnone] at hrow
    rcases e : t.localizedRow owner currency with - | r
    · rw [e] at hrow
      have hv' : t.localizedAmount rates owner currency = some v := hv
      rw [hv'] at hrow
      cases hrow
    · rw [e] at hrow
      cases hrow
  have hrefreshed : ∀ r ∈ (t.synced u rates now).localizedPrices,
      ({ (t.synced u rates now).refreshed rates now' r with syncedAt := 0 } : LocalizedPrice)
        = { r with syncedAt := 0 } := by
    intro r hr
    unfold CatalogTables.refreshed
    split
    case h_1 v hv => rw [← amountMinor_of_mem_synced hc hr hv]
    case h_2 => rfl
  have hcountry : ∀ cp ∈ (t.synced u rates now).countryPrices,
      ((t.synced u rates now).suggestCountryRow u rates cp).toOption.getD cp = cp := by
    intro cp' hcp'
    obtain ⟨cp, hcp, rfl⟩ := List.mem_map.mp hcp'
    obtain ⟨cp', hok⟩ := hall cp hcp
    have hidem : (t.synced u rates now).suggestCountryRow u rates cp' = .ok cp' :=
      suggestCountryRow_idem hok
    rw [hok]
    show ((t.synced u rates now).suggestCountryRow u rates cp').toOption.getD cp' = cp'
    rw [hidem]
    rfl
  have hlocalized : ((t.synced u rates now).synced u rates now').localizedPrices.map
        (fun r => ({ r with syncedAt := 0 } : LocalizedPrice))
      = (t.synced u rates now).localizedPrices.map fun r => { r with syncedAt := 0 } := by
    show (List.map _ _ ++ _).map _ = _
    rw [hcreated, List.append_nil, List.map_map]
    exact List.map_congr_left hrefreshed
  have hcps : ((t.synced u rates now).synced u rates now').countryPrices
      = (t.synced u rates now).countryPrices :=
    (List.map_congr_left hcountry).trans (List.map_id' _)
  unfold CatalogTables.unsynced
  rw [hlocalized, hcps]
  rfl

/-- Nothing has changed between two tables that differ in the times alone. -/
theorem createdOrChanged_of_unsynced (hc : t.Constraints) (h : t'.unsynced = t.unsynced) :
    t.createdOrChanged t' = 0 := by
  have hrows : t'.unsynced.localizedPrices = t.unsynced.localizedPrices := by rw [h]
  have hcps : t'.unsynced.countryPrices = t.unsynced.countryPrices := by rw [h]
  have hlocalized : (t'.localizedPrices.countP fun r =>
      t.amounts r.owner r.currency ≠ some r.amountMinor) = 0 := by
    refine List.countP_eq_zero.mpr fun r hr hne => ?_
    have hmem : ({ r with syncedAt := 0 } : LocalizedPrice) ∈ t.unsynced.localizedPrices := by
      rw [← hrows]
      exact List.mem_map.mpr ⟨r, hr, rfl⟩
    obtain ⟨r₀, hr₀, heq⟩ := List.mem_map.mp hmem
    simp only [LocalizedPrice.mk.injEq] at heq
    obtain ⟨howner, hcur, hamount, -⟩ := heq
    have hrow := (localizedRow_eq_some_iff hc).mpr ⟨hr₀, howner, hcur⟩
    simp [CatalogTables.amounts, hrow, hamount] at hne
  have hcountry : (t'.countryPrices.countP fun cp => cp ∉ t.countryPrices) = 0 := by
    refine List.countP_eq_zero.mpr fun cp hcp hne => ?_
    change t'.countryPrices = t.countryPrices at hcps
    rw [hcps] at hcp
    exact of_decide_eq_true hne hcp
  unfold CatalogTables.createdOrChanged
  rw [hlocalized, hcountry]

/-! ### The task over its runs -/

theorem FxBody.exists_payload {body : FxBody} (h : body.rates u = some rates) (now : Timestamp) :
    ∃ payload, body = .object payload ∧ FxFetch.apiRates u ⟨now, some payload⟩ = some rates := by
  cases body with
  | failed => cases h
  | notObject => cases h
  | object payload => exact ⟨payload, rfl, h⟩

theorem runLocalizedSync_eq_iff (hc : t.Constraints) {body : FxBody}
    (hrates : body.rates u = some rates) {n : Nat} :
    runLocalizedSync u now body t = (t', some n) ↔
      (∀ cp ∈ t.countryPrices, ∃ cp', t.suggestCountryRow u rates cp = .ok cp') ∧
        t' = t.synced u rates now ∧ n = t.createdOrChanged t' := by
  obtain ⟨payload, rfl, hfetch⟩ := FxBody.exists_payload hrates now
  rw [← syncLocalizedPrices_ok_iff hc hfetch]
  unfold runLocalizedSync
  rcases hsync : syncLocalizedPrices u ⟨now, some payload⟩ t with msg | ⟨t'', n'⟩
  · simp [hsync]
  · simp [hsync]

/-- Without rates, or where it raises, a run changes nothing. -/
theorem runLocalizedSync_unchanged {body : FxBody}
    (h : body.rates u = none ∨ (runLocalizedSync u now body t).2 = none) :
    (runLocalizedSync u now body t).1 = t := by
  cases body with
  | failed => rfl
  | notObject => rfl
  | object payload =>
    unfold runLocalizedSync at h ⊢
    dsimp only at h ⊢
    rcases e : syncLocalizedPrices u ⟨now, some payload⟩ t with msg | ⟨t', n⟩
    · rfl
    · rw [e] at h
      have hnone : FxFetch.apiRates u ⟨now, some payload⟩ = none := by
        rcases h with h | h
        · exact h
        · cases h
      -- the call logs and returns
      rw [syncLocalizedPrices, hnone] at e
      exact (Prod.mk.inj (Except.ok.inj e)).1.symm

/-- **The job is exact, and has nothing to do twice.**  A run with rates leaves
the amounts of the prices and the suggested stickers, and counts the rows that
it has created or changed; the next run with the same rates counts none and
changes the times alone.  Without rates, or where it raises, a run changes
nothing. -/
theorem localized_sync_exact (u : UnicodeTables) (hc : t.Constraints) (now : Timestamp)
    (body : FxBody) :
    (∀ rates t' n, body.rates u = some rates → runLocalizedSync u now body t = (t', some n) →
      t.Synced u t' rates ∧ t'.Constraints ∧ n = t.createdOrChanged t' ∧
        ∀ now' body', body'.rates u = some rates → ∃ t'',
          runLocalizedSync u now' body' t' = (t'', some 0) ∧ t''.unsynced = t'.unsynced) ∧
    (body.rates u = none ∨ (runLocalizedSync u now body t).2 = none →
      (runLocalizedSync u now body t).1 = t) := by
  constructor
  · intro rates t' n hrates h
    obtain ⟨hall, rfl, hn⟩ := (runLocalizedSync_eq_iff hc hrates).mp h
    refine ⟨synced_synced hc hall, synced_constraints u rates now hc, hn,
      fun now' body' hrates' => ?_⟩
    have hc' := synced_constraints u rates now hc
    have hunsynced := synced_unsynced now hc now' hall
    refine ⟨(t.synced u rates now).synced u rates now', ?_, hunsynced⟩
    refine (runLocalizedSync_eq_iff hc' hrates').mpr ⟨?_, rfl, ?_⟩
    · -- every row that the first run has left is suggested again
      intro cp' hcp'
      obtain ⟨cp, hcp, rfl⟩ := List.mem_map.mp hcp'
      obtain ⟨cp', hok⟩ := hall cp hcp
      rw [hok]
      exact ⟨cp', suggestCountryRow_idem hok⟩
    · exact (createdOrChanged_of_unsynced hc' hunsynced).symm
  · exact runLocalizedSync_unchanged

/-- A plan at 19 USD with its amount in euros of the day before, and with a row
for Germany that nobody has curated. -/
def staleCatalog : CatalogTables where
  plans := [⟨1, "Personal Basic", "", .personal, .basic, .month, true⟩]
  planPrices := [⟨2, 1, "price_usd", 1900⟩]
  products := []
  productPrices := []
  localizedPrices := [⟨.planPrice 2, "eur", 1499, some "price_eur", 10⟩]
  countryPrices := [⟨.planPrice 2, "DE", "eur", 1499, 1260, false, none⟩]

/-- The euro moves to 0.9 USD, and the yen has a rate for the first time. -/
def euroAndYen : FxBody :=
  .object ⟨some "success", .dict [("EUR", some 0.9), ("JPY", some 150)]⟩

theorem localized_sync_exact_stale :
    ∃ t', runLocalizedSync asciiTables 20 euroAndYen staleCatalog = (t', some 3) ∧
      staleCatalog.Synced asciiTables t' [("jpy", 150), ("eur", Binary64.fl 0.9)] ∧
      ∃ t'', runLocalizedSync asciiTables 30 euroAndYen t' = (t'', some 0) := by
  have hc : staleCatalog.Constraints := by constructor <;> decide
  have hrates : euroAndYen.rates asciiTables = some [("jpy", 150), ("eur", Binary64.fl 0.9)] := by
    decide +kernel
  have hrun : (runLocalizedSync asciiTables 20 euroAndYen staleCatalog).2 = some 3 := by
    decide +kernel
  obtain ⟨hsynced, -, -, hnext⟩ := (localized_sync_exact asciiTables hc 20 euroAndYen).1 _ _ 3
    hrates (Prod.ext rfl hrun)
  obtain ⟨t'', hrun', -⟩ := hnext 30 euroAndYen hrates
  exact ⟨_, Prod.ext rfl hrun, hsynced, t'', hrun'⟩

end Saasmint
