/-
Saasmint/Billing/LocalizedPrices.lean

The daily FX job (`sync_localized_prices` of apps/billing/tasks.py): it derives
the localized amount of every price in every supported currency, and the
suggested sticker and base of every country row that nobody has curated.

The job writes amounts and no Stripe Price ids.  It leaves the rows that it
found, with their new amounts, and one for each price and currency that had
none.

The rates are numbers of the feed, read as doubles.  Amounts are columns of 32
bits, and no product of the two is large enough to overflow.
-/
import Saasmint.Billing.CatalogWrites
import Saasmint.Billing.Vat
import Saasmint.Lib.Loops

namespace Saasmint

open PyStr

variable (u : UnicodeTables)

/-! ### The feed -/

/-- The `rates` of a payload: no object, or its entries, where `none` stands
for a value that `float` rejects. -/
inductive FxRates
  | notDict
  | dict (entries : List (String × Option ℚ))
  deriving DecidableEq

structure FxPayload where
  result : Option String
  rates : FxRates
  deriving DecidableEq

/-- One call of the feed; without a payload the request or the JSON failed. -/
structure FxFetch where
  now : Timestamp
  payload : Option FxPayload
  deriving DecidableEq

/-- `api_rates`, where the last of two keys that differ in case wins; `none`
where the job logs the failure and returns. -/
def FxFetch.apiRates (fetch : FxFetch) : Option (List (String × ℚ)) :=
  match fetch.payload with
  | none => none
  | some data =>
    if data.result ≠ some "success" then none
    else match data.rates with
      | .notDict => none
      | .dict entries =>
        (entries.mapM fun e : String × Option ℚ =>
          e.2.map fun rate => (lower u e.1, Binary64.fl rate)).map List.reverse

/-- `format_amount(amount, "usd") * rate`. -/
def displayAmount (amount : Int) (rate : ℚ) : ℚ :=
  Binary64.fl (Binary64.fl (formatAmount amount "usd") * rate)

/-- An amount of US cents in another currency, friendly-rounded. -/
def convert (rates : List (String × ℚ)) (amount : Int) (currency : String) : Option Int :=
  (rates.lookup currency).map fun rate =>
    let display := roundFriendlyIn Binary64.fl (displayAmount amount rate) currency
    toMinorUnits (Binary64.decimal display) currency

/-- In binary the product is just above 18.24, the middle between 17.99 and 18.49. -/
example : displayAmount 2000 (Binary64.fl 0.912) ≠ 18.24 ∧
    convert [("eur", Binary64.fl 0.912)] 2000 "eur" = some 1849 := by decide +kernel

/-- `_suggested_sticker`. -/
def suggestedSticker (rates : List (String × ℚ)) (amount : Int) (currency : String) : Option Int :=
  if currency = "usd" then some amount else convert rates amount currency

/-- `_compute_new_amounts`. -/
def computeNewAmounts (rates : List (String × ℚ)) (amount : Int) : List (String × Int) :=
  (supportedCurrencies.filter (· ≠ "usd")).filterMap fun currency =>
    (convert rates amount currency).map (currency, ·)

/-! ### The job -/

/-- The plan prices, then the product prices. -/
def CatalogTables.prices (t : CatalogTables) : List Price :=
  t.planPrices.map .plan ++ t.productPrices.map .product

/-- The USD amount of an owner. -/
def CatalogTables.usdAmount (t : CatalogTables) (owner : PriceOwner) : Option Int :=
  (t.prices.find? fun p => p.owner = owner).map Price.amount

/-- A write of one localized row, with the row as it is in memory. -/
inductive LocalizedWrite
  | create (row : LocalizedPrice)
  | changed (row : LocalizedPrice)
  | heartbeat (row : LocalizedPrice)
  deriving DecidableEq

namespace LocalizedWrite

def created : LocalizedWrite → Option LocalizedPrice
  | create row => some row
  | _ => none

def updateChanged : LocalizedWrite → Option LocalizedPrice
  | changed row => some row
  | _ => none

def updateHeartbeat : LocalizedWrite → Option LocalizedPrice
  | heartbeat row => some row
  | _ => none

end LocalizedWrite

/-- `_upsert_for_price`. -/
def upsertForPrice (rates : List (String × ℚ)) (now : Timestamp) (price : Price)
    (existing : List LocalizedPrice) : List LocalizedWrite :=
  (computeNewAmounts rates price.amount).map fun (currency, newAmount) =>
    match existing.find? fun r => r.currency = currency with
    | none => .create ⟨price.owner, currency, newAmount, none, now⟩
    | some r =>
      if r.amountMinor ≠ newAmount then
        .changed { r with amountMinor := newAmount, syncedAt := now }
      else .heartbeat { r with syncedAt := now }

/-- The row of a batch that `bulk_update` writes over a row. -/
def inBatch (batch : List LocalizedPrice) (r : LocalizedPrice) : Option LocalizedPrice :=
  batch.find? fun b => (b.owner, b.currency) = (r.owner, r.currency)

/-- `bulk_update` of `amount_minor` and `synced_at`. -/
def updateAmount (batch : List LocalizedPrice) (r : LocalizedPrice) : LocalizedPrice :=
  match inBatch batch r with
  | some b => { r with amountMinor := b.amountMinor, syncedAt := b.syncedAt }
  | none => r

/-- `bulk_update` of `synced_at`. -/
def updateSyncedAt (batch : List LocalizedPrice) (r : LocalizedPrice) : LocalizedPrice :=
  match inBatch batch r with
  | some b => { r with syncedAt := b.syncedAt }
  | none => r

/-- `bulk_create`, and `bulk_update` of the changed rows and of the heartbeats. -/
def bulkWrite (writes : List LocalizedWrite) (rows : List LocalizedPrice) : List LocalizedPrice :=
  ((rows ++ writes.filterMap LocalizedWrite.created).map
    (updateAmount (writes.filterMap LocalizedWrite.updateChanged))).map
    (updateSyncedAt (writes.filterMap LocalizedWrite.updateHeartbeat))

/-- The writes of one run. -/
def CatalogTables.localizedWrites (t : CatalogTables) (rates : List (String × ℚ))
    (now : Timestamp) : List LocalizedWrite :=
  t.prices.flatMap fun price =>
    upsertForPrice rates now price (t.localizedPrices.filter fun r => r.owner = price.owner)

/-- The suggested sticker and base of a country row, if the row is not curated
and there is a rate for its currency. -/
def CatalogTables.suggestCountryRow (t : CatalogTables) (rates : List (String × ℚ))
    (cp : CountryPrice) : Except String CountryPrice :=
  if cp.isCurated then .ok cp
  else match t.usdAmount cp.owner with
    | none => .error "'NoneType' object has no attribute 'amount'"
    | some ownerAmount =>
      match suggestedSticker rates ownerAmount cp.currency with
      | none => .ok cp
      | some suggested => do
        let newBase ← deriveBase suggested (standardVatRate u cp.country)
        return { cp with stickerMinor := suggested, baseMinor := newBase }

/-- `sync_localized_prices`: the tables and the number of rows changed. -/
def syncLocalizedPrices (fetch : FxFetch) (t : CatalogTables) :
    Except String (CatalogTables × Nat) :=
  match fetch.apiRates u with
  | none => .ok (t, 0)
  | some rates => do
    let writes := t.localizedWrites rates fetch.now
    let countryPrices ← t.countryPrices.mapM (t.suggestCountryRow u rates)
    let changed := (writes.filter fun w => w.updateHeartbeat.isNone).length
      + (t.countryPrices.zip countryPrices).countP fun (old, new) => old ≠ new
    return ({ t with localizedPrices := bulkWrite writes t.localizedPrices,
                     countryPrices := countryPrices }, changed)

/-! ### What a run leaves -/

/-- The amount that the rates give a price in a currency. -/
def newAmount (rates : List (String × ℚ)) (amount : Int) (currency : String) : Option Int :=
  if currency ∈ supportedCurrencies ∧ currency ≠ "usd" then convert rates amount currency else none

/-- The amount that a run computes for an owner and a currency. -/
def CatalogTables.localizedAmount (t : CatalogTables) (rates : List (String × ℚ))
    (owner : PriceOwner) (currency : String) : Option Int :=
  (t.usdAmount owner).bind fun amount => newAmount rates amount currency

/-- A row after a run: with the new amount where there is one. -/
def CatalogTables.refreshed (t : CatalogTables) (rates : List (String × ℚ)) (now : Timestamp)
    (r : LocalizedPrice) : LocalizedPrice :=
  match t.localizedAmount rates r.owner r.currency with
  | some v => { r with amountMinor := v, syncedAt := now }
  | none => r

/-- A row after a run of the job. -/
def CatalogTables.afterLocalizedSync (t : CatalogTables) (fetch : FxFetch) (row : CatalogRow) :
    CatalogRow :=
  match fetch.apiRates u with
  | none => row
  | some rates =>
    match row with
    | .usd price => .usd price
    | .localized r => .localized (t.refreshed rates fetch.now r)
    | .country r => .country ((t.suggestCountryRow u rates r).toOption.getD r)

variable {u} {t t' : CatalogTables} {rates : List (String × ℚ)} {now : Timestamp}

theorem mem_computeNewAmounts {amount : Int} {currency : String} {v : Int} :
    (currency, v) ∈ computeNewAmounts rates amount ↔ newAmount rates amount currency = some v := by
  unfold computeNewAmounts newAmount
  simp only [List.mem_filterMap, List.mem_filter, Option.map_eq_some_iff, Prod.mk.injEq]
  constructor
  · rintro ⟨c, ⟨hc, hu⟩, v', hv, rfl, rfl⟩
    rw [if_pos ⟨hc, of_decide_eq_true hu⟩, hv]
  · intro h
    split at h
    case isTrue hc => exact ⟨currency, ⟨hc.1, decide_eq_true hc.2⟩, v, h, rfl, rfl⟩
    case isFalse => cases h

theorem Price.owner_inj_of_mem (hc : t.Constraints) :
    (t.prices.map Price.owner).Nodup := by
  unfold CatalogTables.prices
  rw [List.map_append, List.map_map, List.map_map, List.nodup_append']
  refine ⟨?_, ?_, ?_⟩
  · have h := List.Nodup.map (f := PriceOwner.planPrice) (fun a b h => by cases h; rfl)
      hc.planPrice_pk
    rwa [List.map_map] at h
  · have h := List.Nodup.map (f := PriceOwner.productPrice) (fun a b h => by cases h; rfl)
      hc.productPrice_pk
    rwa [List.map_map] at h
  · intro o h₁ h₂
    obtain ⟨pp, -, rfl⟩ := List.mem_map.mp h₁
    obtain ⟨qq, -, h⟩ := List.mem_map.mp h₂
    cases h

/-- The USD amount of the owner of a price. -/
theorem usdAmount_eq_some_iff (hc : t.Constraints) {owner : PriceOwner} {amount : Int} :
    t.usdAmount owner = some amount ↔ ∃ p ∈ t.prices, p.owner = owner ∧ p.amount = amount := by
  have hu := Table.unique_some_iff.mpr (Price.owner_inj_of_mem hc)
  unfold CatalogTables.usdAmount
  rw [Option.map_eq_some_iff]
  constructor
  · rintro ⟨p, hp, rfl⟩
    exact ⟨p, List.mem_of_find?_eq_some hp, by simpa using List.find?_some hp, rfl⟩
  · rintro ⟨p, hp, rfl, rfl⟩
    have hfind := (Table.find?_eq_some_iff hu (v := p.owner) (a := p)).mpr ⟨hp, rfl⟩
    exact ⟨p, by simpa using hfind, rfl⟩

/-- The row of an owner in a currency is the one that the table has. -/
theorem localizedRow_eq_some_iff (hc : t.Constraints) {owner : PriceOwner} {currency : String}
    {r : LocalizedPrice} :
    t.localizedRow owner currency = some r ↔
      r ∈ t.localizedPrices ∧ r.owner = owner ∧ r.currency = currency := by
  have hu := Table.unique_some_iff.mpr hc.uniq_localized_price_currency
  have hfind := Table.find?_eq_some_iff hu (v := (owner, currency)) (a := r)
  simpa [CatalogTables.localizedRow, Prod.mk.injEq] using hfind

/-- The existing row that `_upsert_for_price` finds for a currency. -/
theorem find?_bucket (t : CatalogTables) (owner : PriceOwner) (currency : String) :
    ((t.localizedPrices.filter fun r => r.owner = owner).find? fun r => r.currency = currency)
      = t.localizedRow owner currency := by
  simp [List.find?_filter, CatalogTables.localizedRow]

/-- What one run writes: one write for each price and each currency with a rate. -/
theorem mem_localizedWrites (hc : t.Constraints) {w : LocalizedWrite} :
    w ∈ t.localizedWrites rates now ↔
      ∃ owner currency v, t.localizedAmount rates owner currency = some v ∧
        w = match t.localizedRow owner currency with
          | none => .create ⟨owner, currency, v, none, now⟩
          | some r =>
            if r.amountMinor ≠ v then .changed { r with amountMinor := v, syncedAt := now }
            else .heartbeat { r with syncedAt := now } := by
  unfold CatalogTables.localizedWrites upsertForPrice CatalogTables.localizedAmount
  simp only [List.mem_flatMap, List.mem_map, Prod.exists, find?_bucket]
  constructor
  · rintro ⟨p, hp, currency, v, hv, rfl⟩
    have ha := (usdAmount_eq_some_iff hc).mpr ⟨p, hp, rfl, rfl⟩
    exact ⟨p.owner, currency, v, by rw [ha]; exact mem_computeNewAmounts.mp hv, rfl⟩
  · rintro ⟨owner, currency, v, hv, rfl⟩
    obtain ⟨amount, ha, hv⟩ := Option.bind_eq_some_iff.mp hv
    obtain ⟨p, hp, rfl, rfl⟩ := (usdAmount_eq_some_iff hc).mp ha
    exact ⟨p, hp, currency, v, mem_computeNewAmounts.mpr hv, rfl⟩

/-- The rows that a run creates. -/
theorem mem_created (hc : t.Constraints) {r : LocalizedPrice} :
    r ∈ (t.localizedWrites rates now).filterMap LocalizedWrite.created ↔
      ∃ owner currency v, t.localizedAmount rates owner currency = some v ∧
        t.localizedRow owner currency = none ∧ r = ⟨owner, currency, v, none, now⟩ := by
  simp only [List.mem_filterMap, mem_localizedWrites hc]
  constructor
  · rintro ⟨w, ⟨owner, currency, v, hv, rfl⟩, hr⟩
    refine ⟨owner, currency, v, hv, ?_⟩
    rcases e : t.localizedRow owner currency with - | r'
    · rw [e] at hr
      cases hr
      exact ⟨rfl, rfl⟩
    · rw [e] at hr
      dsimp only at hr
      split at hr <;> cases hr
  · rintro ⟨owner, currency, v, hv, hnone, rfl⟩
    refine ⟨_, ⟨owner, currency, v, hv, rfl⟩, ?_⟩
    rw [hnone]
    rfl

variable (rates now) in
/-- The rows that a run rewrites, because their amount has moved. -/
theorem mem_updateChanged (hc : t.Constraints) {b : LocalizedPrice} :
    b ∈ (t.localizedWrites rates now).filterMap LocalizedWrite.updateChanged ↔
      ∃ r ∈ t.localizedPrices, ∃ v, t.localizedAmount rates r.owner r.currency = some v ∧
        r.amountMinor ≠ v ∧ b = { r with amountMinor := v, syncedAt := now } := by
  simp only [List.mem_filterMap, mem_localizedWrites hc]
  constructor
  · rintro ⟨w, ⟨owner, currency, v, hv, rfl⟩, hb⟩
    rcases e : t.localizedRow owner currency with - | r
    · rw [e] at hb
      cases hb
    · obtain ⟨hr, rfl, rfl⟩ := (localizedRow_eq_some_iff hc).mp e
      rw [e] at hb
      dsimp only at hb
      split at hb
      case isTrue hne =>
        cases hb
        exact ⟨r, hr, v, hv, hne, rfl⟩
      case isFalse => cases hb
  · rintro ⟨r, hr, v, hv, hne, rfl⟩
    refine ⟨_, ⟨r.owner, r.currency, v, hv, rfl⟩, ?_⟩
    rw [(localizedRow_eq_some_iff hc).mpr ⟨hr, rfl, rfl⟩]
    dsimp only
    rw [if_pos hne]
    rfl

variable (rates now) in
/-- The rows whose amount has not moved. -/
theorem mem_updateHeartbeat (hc : t.Constraints) {b : LocalizedPrice} :
    b ∈ (t.localizedWrites rates now).filterMap LocalizedWrite.updateHeartbeat ↔
      ∃ r ∈ t.localizedPrices, t.localizedAmount rates r.owner r.currency = some r.amountMinor ∧
        b = { r with syncedAt := now } := by
  simp only [List.mem_filterMap, mem_localizedWrites hc]
  constructor
  · rintro ⟨w, ⟨owner, currency, v, hv, rfl⟩, hb⟩
    rcases e : t.localizedRow owner currency with - | r
    · rw [e] at hb
      cases hb
    · obtain ⟨hr, rfl, rfl⟩ := (localizedRow_eq_some_iff hc).mp e
      rw [e] at hb
      dsimp only at hb
      split at hb
      case isTrue => cases hb
      case isFalse heq =>
        cases hb
        exact ⟨r, hr, by rw [hv, not_not.mp heq], rfl⟩
  · rintro ⟨r, hr, hv, rfl⟩
    refine ⟨_, ⟨r.owner, r.currency, r.amountMinor, hv, rfl⟩, ?_⟩
    rw [(localizedRow_eq_some_iff hc).mpr ⟨hr, rfl, rfl⟩]
    simp [LocalizedWrite.updateHeartbeat]

theorem mem_of_inBatch {batch : List LocalizedPrice} {r b : LocalizedPrice}
    (h : inBatch batch r = some b) : b ∈ batch ∧ b.owner = r.owner ∧ b.currency = r.currency := by
  have hb := List.find?_some h
  simp only [Prod.mk.injEq, decide_eq_true_eq] at hb
  exact ⟨List.mem_of_find?_eq_some h, hb⟩

/-- A batch that has a row with the key has one to write. -/
theorem exists_inBatch {batch : List LocalizedPrice} {r b : LocalizedPrice} (hb : b ∈ batch)
    (howner : b.owner = r.owner) (hcur : b.currency = r.currency) :
    ∃ b', inBatch batch r = some b' := by
  rw [← Option.isSome_iff_exists, inBatch, List.find?_isSome]
  exact ⟨b, hb, by simp [howner, hcur]⟩

theorem eq_of_key (hc : t.Constraints) {r r' : LocalizedPrice} (hr : r ∈ t.localizedPrices)
    (hr' : r' ∈ t.localizedPrices) (howner : r'.owner = r.owner)
    (hcur : r'.currency = r.currency) : r' = r := by
  have h := (localizedRow_eq_some_iff hc).mpr ⟨hr, rfl, rfl⟩
  have h' := (localizedRow_eq_some_iff hc).mpr ⟨hr', howner, hcur⟩
  exact Option.some.inj (h'.symm.trans h)

/-- Which row `bulk_update` writes over an existing one: the moved amounts. -/
theorem inBatch_updateChanged (hc : t.Constraints) {r : LocalizedPrice}
    (hr : r ∈ t.localizedPrices) :
    inBatch ((t.localizedWrites rates now).filterMap LocalizedWrite.updateChanged) r
      = (t.localizedAmount rates r.owner r.currency).bind fun v =>
        if r.amountMinor ≠ v then some { r with amountMinor := v, syncedAt := now } else none := by
  have hspec : ∀ b, inBatch ((t.localizedWrites rates now).filterMap
      LocalizedWrite.updateChanged) r = some b → ∃ v,
        t.localizedAmount rates r.owner r.currency = some v ∧ r.amountMinor ≠ v ∧
        b = { r with amountMinor := v, syncedAt := now } := by
    intro b hb
    obtain ⟨hb, howner, hcur⟩ := mem_of_inBatch hb
    obtain ⟨r', hr', v, hv, hne, rfl⟩ := (mem_updateChanged rates now hc).mp hb
    obtain rfl := eq_of_key hc hr hr' howner hcur
    exact ⟨v, hv, hne, rfl⟩
  rcases e : inBatch ((t.localizedWrites rates now).filterMap LocalizedWrite.updateChanged) r
    with - | b
  · rcases hv : t.localizedAmount rates r.owner r.currency with - | v
    · rfl
    · rw [Option.bind_some]
      by_cases hne : r.amountMinor ≠ v
      · have hmem := (mem_updateChanged rates now hc).mpr ⟨r, hr, v, hv, hne, rfl⟩
        obtain ⟨b', hb'⟩ := exists_inBatch (r := r) hmem rfl rfl
        rw [hb'] at e
        cases e
      · rw [if_neg hne]
  · obtain ⟨v, hv, hne, rfl⟩ := hspec b e
    rw [hv, Option.bind_some, if_pos hne]

variable (rates now) in
/-- Which heartbeat `bulk_update` writes over an existing row, whatever else has
been written to it. -/
theorem inBatch_updateHeartbeat (hc : t.Constraints) {r : LocalizedPrice}
    (hr : r ∈ t.localizedPrices) (s : LocalizedPrice) (howner : s.owner = r.owner)
    (hcur : s.currency = r.currency) :
    inBatch ((t.localizedWrites rates now).filterMap LocalizedWrite.updateHeartbeat) s
      = if t.localizedAmount rates r.owner r.currency = some r.amountMinor then
          some { r with syncedAt := now }
        else none := by
  rcases e : inBatch ((t.localizedWrites rates now).filterMap LocalizedWrite.updateHeartbeat) s
    with - | b
  · split
    case isTrue hv =>
      have hmem := (mem_updateHeartbeat rates now hc).mpr ⟨r, hr, hv, rfl⟩
      obtain ⟨b', hb'⟩ := exists_inBatch (r := s) hmem howner.symm hcur.symm
      rw [hb'] at e
      cases e
    case isFalse => rfl
  · obtain ⟨hb, howner', hcur'⟩ := mem_of_inBatch e
    obtain ⟨r', hr', hv, rfl⟩ := (mem_updateHeartbeat rates now hc).mp hb
    obtain rfl := eq_of_key hc hr hr' (howner'.trans howner) (hcur'.trans hcur)
    rw [if_pos hv]

variable (rates now) in
/-- No batch has a row for a row that did not exist. -/
theorem inBatch_eq_none (hc : t.Constraints) {r : LocalizedPrice}
    (hnone : t.localizedRow r.owner r.currency = none) :
    inBatch ((t.localizedWrites rates now).filterMap LocalizedWrite.updateChanged) r = none ∧
      inBatch ((t.localizedWrites rates now).filterMap LocalizedWrite.updateHeartbeat) r
        = none := by
  have hno : ∀ r' ∈ t.localizedPrices, r'.owner = r.owner → r'.currency = r.currency → False := by
    intro r' hr' howner hcur
    rw [(localizedRow_eq_some_iff hc).mpr ⟨hr', howner, hcur⟩] at hnone
    cases hnone
  constructor
  · refine Option.eq_none_iff_forall_ne_some.mpr fun b hb => ?_
    obtain ⟨hb, howner, hcur⟩ := mem_of_inBatch hb
    obtain ⟨r', hr', v, -, -, rfl⟩ := (mem_updateChanged rates now hc).mp hb
    exact hno r' hr' howner hcur
  · refine Option.eq_none_iff_forall_ne_some.mpr fun b hb => ?_
    obtain ⟨hb, howner, hcur⟩ := mem_of_inBatch hb
    obtain ⟨r', hr', -, rfl⟩ := (mem_updateHeartbeat rates now hc).mp hb
    exact hno r' hr' howner hcur

/-- What the two updates make of an existing row. -/
theorem updateSyncedAt_updateAmount (hc : t.Constraints) {r : LocalizedPrice}
    (hr : r ∈ t.localizedPrices) :
    updateSyncedAt ((t.localizedWrites rates now).filterMap LocalizedWrite.updateHeartbeat)
        (updateAmount ((t.localizedWrites rates now).filterMap LocalizedWrite.updateChanged) r)
      = t.refreshed rates now r := by
  unfold updateAmount CatalogTables.refreshed
  rw [inBatch_updateChanged hc hr]
  rcases hv : t.localizedAmount rates r.owner r.currency with - | v
  · simp [updateSyncedAt, inBatch_updateHeartbeat rates now hc hr r rfl rfl, hv]
  · by_cases hne : r.amountMinor = v
    · subst hne
      simp [updateSyncedAt, inBatch_updateHeartbeat rates now hc hr r rfl rfl, hv]
    · have hheart := inBatch_updateHeartbeat rates now hc hr
        { r with amountMinor := v, syncedAt := now } rfl rfl
      rw [hv, if_neg fun h => hne (Option.some.inj h).symm] at hheart
      simp [updateSyncedAt, hne, hheart]

/-- The rows after the bulk writes: the existing ones, refreshed, and the
created ones. -/
theorem mem_bulkWrite (hc : t.Constraints) {r' : LocalizedPrice} :
    r' ∈ bulkWrite (t.localizedWrites rates now) t.localizedPrices ↔
      (∃ r ∈ t.localizedPrices, r' = t.refreshed rates now r) ∨
      ∃ owner currency v, t.localizedAmount rates owner currency = some v ∧
        t.localizedRow owner currency = none ∧ r' = ⟨owner, currency, v, none, now⟩ := by
  have hnew : ∀ r, t.localizedRow r.owner r.currency = none →
      updateSyncedAt ((t.localizedWrites rates now).filterMap LocalizedWrite.updateHeartbeat)
        (updateAmount ((t.localizedWrites rates now).filterMap LocalizedWrite.updateChanged) r)
        = r := by
    intro r hnone
    obtain ⟨h₁, h₂⟩ := inBatch_eq_none rates now hc hnone
    simp [updateAmount, updateSyncedAt, h₁, h₂]
  unfold bulkWrite
  simp only [List.map_map, List.mem_map, List.mem_append, Function.comp_apply]
  constructor
  · rintro ⟨r, hr | hr, rfl⟩
    · exact Or.inl ⟨r, hr, updateSyncedAt_updateAmount hc hr⟩
    · obtain ⟨owner, currency, v, hv, hnone, rfl⟩ := (mem_created hc).mp hr
      exact Or.inr ⟨owner, currency, v, hv, hnone, hnew _ hnone⟩
  · rintro (⟨r, hr, rfl⟩ | ⟨owner, currency, v, hv, hnone, rfl⟩)
    · exact ⟨r, Or.inl hr, updateSyncedAt_updateAmount hc hr⟩
    · exact ⟨_, Or.inr ((mem_created hc).mpr ⟨owner, currency, v, hv, hnone, rfl⟩), hnew _ hnone⟩

theorem suggestCountryRow_curated {cp : CountryPrice} (h : cp.isCurated = true) :
    t.suggestCountryRow u rates cp = .ok cp := if_pos h

theorem suggestCountryRow_uncurated {cp : CountryPrice} (h : cp.isCurated = false) {amount : Int}
    (howner : t.usdAmount cp.owner = some amount) :
    t.suggestCountryRow u rates cp = match suggestedSticker rates amount cp.currency with
      | none => .ok cp
      | some suggested => (deriveBase suggested (standardVatRate u cp.country)).bind fun newBase =>
        .ok { cp with stickerMinor := suggested, baseMinor := newBase } := by
  unfold CatalogTables.suggestCountryRow
  rw [h, howner]
  rfl

/-- A country row that a run leaves: with the suggested sticker and base, or as
it was. -/
theorem suggestCountryRow_ok {cp cp' : CountryPrice}
    (h : t.suggestCountryRow u rates cp = .ok cp') :
    ∃ sticker base, cp' = { cp with stickerMinor := sticker, baseMinor := base } := by
  unfold CatalogTables.suggestCountryRow at h
  split at h
  · cases h
    exact ⟨_, _, rfl⟩
  · split at h
    · cases h
    · split at h
      · cases h
        exact ⟨_, _, rfl⟩
      · obtain ⟨base, -, h⟩ := Loops.bind_eq_ok.mp h
        cases h
        exact ⟨_, _, rfl⟩

theorem syncLocalizedPrices_ok {fetch : FxFetch} {n : Nat}
    (h : syncLocalizedPrices u fetch t = .ok (t', n)) :
    (fetch.apiRates u = none ∧ t' = t) ∨
      ∃ rates countryPrices, fetch.apiRates u = some rates ∧
        t.countryPrices.mapM (t.suggestCountryRow u rates) = .ok countryPrices ∧
        t' = { t with
          localizedPrices := bulkWrite (t.localizedWrites rates fetch.now) t.localizedPrices,
          countryPrices := countryPrices } := by
  unfold syncLocalizedPrices at h
  split at h
  · cases h
    exact Or.inl ⟨‹_›, rfl⟩
  · obtain ⟨countryPrices, hcp, h⟩ := Loops.bind_eq_ok.mp h
    cases h
    exact Or.inr ⟨_, countryPrices, ‹_›, hcp, rfl⟩

variable (t rates now) in
theorem refreshed_key (r : LocalizedPrice) :
    (t.refreshed rates now r).owner = r.owner ∧ (t.refreshed rates now r).currency = r.currency ∧
      (t.refreshed rates now r).stripePriceId = r.stripePriceId := by
  unfold CatalogTables.refreshed
  split
  · exact ⟨rfl, rfl, rfl⟩
  · exact ⟨rfl, rfl, rfl⟩

variable (u t rates) in
theorem suggestCountryRow_key (r : CountryPrice) :
    let r' := (t.suggestCountryRow u rates r).toOption.getD r
    r'.owner = r.owner ∧ r'.country = r.country ∧ r'.stripePriceId = r.stripePriceId := by
  rcases e : t.suggestCountryRow u rates r with msg | r'
  · exact ⟨rfl, rfl, rfl⟩
  · obtain ⟨sticker, base, rfl⟩ := suggestCountryRow_ok e
    exact ⟨rfl, rfl, rfl⟩

/-- **The FX job rewrites amounts only.** -/
theorem syncLocalizedPrices_rewrites (hc : t.Constraints) {fetch : FxFetch} {n : Nat}
    (h : syncLocalizedPrices u fetch t = .ok (t', n)) :
    t.Rewrites t' (t.afterLocalizedSync u fetch) := by
  rcases syncLocalizedPrices_ok h with ⟨hnone, rfl⟩ | ⟨rates, cps, hrates, hcps, rfl⟩
  · refine (CatalogTables.Rewrites.refl t').congr ?_ ?_ ?_
    all_goals
      intro row
      simp [CatalogTables.afterLocalizedSync, hnone]
  · obtain ⟨hfwd, hbwd⟩ := Loops.mapM_ok_mem hcps
    constructor
    case key =>
      intro row
      unfold CatalogTables.afterLocalizedSync
      rw [hrates]
      rcases row with p | r | r
      · rfl
      · obtain ⟨ho, hcur, -⟩ := refreshed_key t rates fetch.now r
        simp [CatalogRow.key, ho, hcur]
      · obtain ⟨ho, hcn, -⟩ := suggestCountryRow_key u t rates r
        simp [CatalogRow.key, ho, hcn]
    case stripePriceId =>
      intro row
      unfold CatalogTables.afterLocalizedSync
      rw [hrates]
      rcases row with p | r | r
      · rfl
      · exact (refreshed_key t rates fetch.now r).2.2
      · exact (suggestCountryRow_key u t rates r).2.2
    case old =>
      intro row hrow
      unfold CatalogTables.afterLocalizedSync
      rw [hrates]
      rcases row with (pp | pp) | r | r
      · exact hrow
      · exact hrow
      · exact (mem_bulkWrite hc).mpr (Or.inl ⟨r, hrow, rfl⟩)
      · obtain ⟨r', hr', hok⟩ := hfwd r hrow
        show (t.suggestCountryRow u rates r).toOption.getD r ∈ cps
        rw [hok]
        exact hr'
    case new =>
      intro row hrow
      unfold CatalogTables.afterLocalizedSync
      rw [hrates]
      rcases row with (pp | pp) | r | r
      · exact Or.inl ⟨.usd (.plan pp), hrow, rfl⟩
      · exact Or.inl ⟨.usd (.product pp), hrow, rfl⟩
      · rcases (mem_bulkWrite hc).mp hrow with ⟨r₀, hr₀, rfl⟩ | ⟨o, c, v, -, -, rfl⟩
        · exact Or.inl ⟨.localized r₀, hr₀, rfl⟩
        · refine Or.inr fun x hx => ?_
          cases hx
      · obtain ⟨r₀, hr₀, hok⟩ := hbwd r hrow
        exact Or.inl ⟨.country r₀, hr₀, by simp [hok, Except.toOption]⟩
    case active =>
      intro row _
      rcases row.owner with id | id
      · rfl
      · rfl

/-! ### Amounts by owner and currency -/

/-- The localized amounts, without the rows that hold them. -/
abbrev Amounts := PriceOwner → String → Option Int

/-- What a row says of its owner and currency. -/
def CatalogTables.amounts (t : CatalogTables) : Amounts := fun owner currency =>
  (t.localizedRow owner currency).map LocalizedPrice.amountMinor

/-- A call of the feed: an amount it gives replaces the one that was there. -/
def Amounts.refresh (usd : PriceOwner → Option Int) (rates : Option (List (String × ℚ)))
    (m : Amounts) : Amounts := fun owner currency =>
  match rates with
  | none => m owner currency
  | some rates => ((usd owner).bind fun amount => newAmount rates amount currency).or
      (m owner currency)

/-- **The job refreshes the amounts.** -/
theorem syncLocalizedPrices_amounts (hc : t.Constraints) (hc' : t'.Constraints)
    {fetch : FxFetch} {n : Nat} (h : syncLocalizedPrices u fetch t = .ok (t', n)) :
    t'.amounts = t.amounts.refresh t.usdAmount (fetch.apiRates u) := by
  rcases syncLocalizedPrices_ok h with ⟨hnone, rfl⟩ | ⟨rates, cps, hrates, -, rfl⟩
  · rw [hnone]
    rfl
  · funext owner currency
    rw [hrates]
    unfold CatalogTables.amounts Amounts.refresh
    dsimp only
    rcases e : t.localizedRow owner currency with - | r
    · -- no row: one is created where there is an amount
      rcases hv : t.localizedAmount rates owner currency with - | v
      · rw [CatalogTables.localizedAmount] at hv
        rw [hv]
        refine congrArg _ (Option.eq_none_iff_forall_ne_some.mpr fun r' hr' => ?_)
        obtain ⟨hmem, rfl, rfl⟩ := (localizedRow_eq_some_iff hc').mp hr'
        rcases (mem_bulkWrite hc).mp hmem with ⟨r, hr, rfl⟩ | ⟨o, c, v, hv', -, rfl⟩
        · obtain ⟨ho, hcur, -⟩ := refreshed_key t rates fetch.now r
          rw [(localizedRow_eq_some_iff hc).mpr ⟨hr, ho.symm, hcur.symm⟩] at e
          cases e
        · rw [CatalogTables.localizedAmount, hv] at hv'
          cases hv'
      · have hrow := (localizedRow_eq_some_iff hc').mpr
          ⟨(mem_bulkWrite hc).mpr (Or.inr ⟨owner, currency, v, hv, e, rfl⟩), rfl, rfl⟩
        rw [CatalogTables.localizedAmount] at hv
        rw [hrow, hv]
        rfl
    · obtain ⟨hr, rfl, rfl⟩ := (localizedRow_eq_some_iff hc).mp e
      obtain ⟨ho, hcur, -⟩ := refreshed_key t rates fetch.now r
      have hrow := (localizedRow_eq_some_iff hc').mpr
        ⟨(mem_bulkWrite hc).mpr (Or.inl ⟨r, hr, rfl⟩), ho, hcur⟩
      rw [hrow]
      unfold CatalogTables.refreshed CatalogTables.localizedAmount
      rcases (t.usdAmount r.owner).bind fun amount => newAmount rates amount r.currency with - | v
      · rfl
      · rfl

end Saasmint
