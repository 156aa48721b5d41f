/-
Saasmint/Billing/PriceJobs.lean

The jobs that write the amounts and the ids of the price rows: `sync_localized_prices`,
`seed_catalog`, the save of `CountryPriceAdmin` and `sync_stripe_catalog`.

The first three write to the database alone and rewrite amounts only
(`edit_amount_iff`).  Whether such a job leaves the amount of a row is a matter of
its data and of the rows that there are (`PriceJob.Agrees`): the rates of the feed
against the USD price, the entries of the release against the amount, the sticker
against the base.
-/
import Saasmint.Billing.SyncRounds

namespace Saasmint

open PyStr

variable (u : UnicodeTables)

/-! ### The jobs -/

/-- What writes the amounts and the ids. -/
inductive PriceJob
  | syncLocalizedPrices (fetch : FxFetch)
  | seedCatalog (plans : List PlanSpec) (boosts : List BoostSpec)
  /-- The save of a country row with the sticker of the form. -/
  | saveModel (owner : PriceOwner) (country : String) (stickerMinor : Int)
  | syncStripeCatalog (env : SyncEnv)

/-- The save of `CountryPriceAdmin`. -/
def CatalogTables.saveModel (t : CatalogTables) (owner : PriceOwner) (country : String)
    (stickerMinor : Int) : Except String Catalog :=
  match t.countryRow owner country with
  | none => .error "No CountryPrice matches the given query."
  | some row => do
    let row' ← { row with stickerMinor, isCurated := true }.recomputeBase u
    (t.saveCountryRow row.key fun _ => row').commit

/-- The catalog that a job on the database alone leaves. -/
def PriceJob.edit (catalog : Catalog) : PriceJob → Except String Catalog
  | syncLocalizedPrices fetch => do
    let (t, _) ← Saasmint.syncLocalizedPrices u fetch catalog.toCatalogTables
    t.commit
  | seedCatalog plans boosts => Saasmint.seedCatalog u plans boosts catalog
  | saveModel owner country stickerMinor =>
    catalog.toCatalogTables.saveModel u owner country stickerMinor
  | syncStripeCatalog _ => .ok catalog

/-- What a job has for a row is what the row has already. -/
def PriceJob.Agrees (t : CatalogTables) : PriceJob → CatalogRow → Prop
  -- the rates take the USD amount to the amount of the row
  | .syncLocalizedPrices fetch, .localized r => ∀ rates ∈ fetch.apiRates u,
      ∀ amount ∈ t.localizedAmount rates r.owner r.currency, r.amountMinor = amount
  -- they take it to a sticker with the base of the row, or the row is curated
  | .syncLocalizedPrices fetch, .country r => r.isCurated = false →
      ∀ rates ∈ fetch.apiRates u, ∀ amount ∈ t.usdAmount r.owner,
      ∀ sticker ∈ suggestedSticker rates amount r.currency,
        deriveBase sticker (standardVatRate u r.country) = .ok r.baseMinor
  -- the release has the amount for the plan or product
  | .seedCatalog plans boosts, .usd price =>
      ∀ amount ∈ t.releaseAmount (plans.map SeedSpec.plan ++ boosts.map SeedSpec.boost) price,
        price.amount = amount
  | .seedCatalog _ _, .country r => r.country ∈ countryCurrency.map Prod.fst → r.Aligned u
  -- the sticker of the form has the base of the row
  | .saveModel owner country stickerMinor, .country r => r.key = (owner, country) →
      deriveBase stickerMinor (standardVatRate u r.country) = .ok r.baseMinor
  | _, _ => True

instance (t : CatalogTables) (job : PriceJob) (row : CatalogRow) :
    Decidable (job.Agrees u t row) := by
  unfold PriceJob.Agrees
  split <;> infer_instance

variable {u}

/-! ### What the jobs leave -/

section Edits

variable {t t' : CatalogTables} {catalog catalog' : Catalog}

theorem holds_of_activeOwner {owner : PriceOwner} (h : t.activeOwner owner = true) :
    ∃ price : Price, t.Holds (.usd price) ∧ price.owner = owner := by
  rcases owner with k | k
  · obtain ⟨pp, hpp, hand⟩ := List.any_eq_true.mp h
    exact ⟨.plan pp, hpp,
      congrArg PriceOwner.planPrice (of_decide_eq_true (Bool.and_eq_true_iff.mp hand).1)⟩
  · obtain ⟨pp, hpp, hand⟩ := List.any_eq_true.mp h
    exact ⟨.product pp, hpp,
      congrArg PriceOwner.productPrice (of_decide_eq_true (Bool.and_eq_true_iff.mp hand).1)⟩

theorem mem_prices {price : Price} : price ∈ t.prices ↔ t.Holds (.usd price) := by
  unfold CatalogTables.prices CatalogTables.Holds
  rcases price with pp | pp <;> simp

/-- **The FX job** leaves the amount of a row that its rates agree with. -/
theorem afterLocalizedSync_amount_iff {fetch : FxFetch} {n : Nat}
    (h : syncLocalizedPrices u fetch t = .ok (t', n)) {row : CatalogRow} (hrow : t.Holds row) :
    (t.afterLocalizedSync u fetch row).implied.1 = row.implied.1 ↔
      (PriceJob.syncLocalizedPrices fetch).Agrees u t row := by
  rcases syncLocalizedPrices_ok h with ⟨hnone, -⟩ | ⟨rates, cps, hrates, hcps, -⟩
  · unfold CatalogTables.afterLocalizedSync PriceJob.Agrees
    rcases row with price | r | r <;> dsimp only <;> rw [hnone] <;> simp
  · unfold CatalogTables.afterLocalizedSync PriceJob.Agrees
    rcases row with price | r | r <;> dsimp only <;> rw [hrates]
    · exact iff_of_true rfl trivial
    · unfold CatalogTables.refreshed
      rcases hamount : t.localizedAmount rates r.owner r.currency with - | v
      · simp [hamount]
      · simp [hamount, CatalogRow.implied, eq_comm]
    · obtain ⟨r', -, hok⟩ := (Loops.mapM_ok_mem hcps).1 r hrow
      dsimp only
      rw [hok]
      show r'.baseMinor = r.baseMinor ↔ _
      rcases hcurated : r.isCurated
      · rcases hamount : t.usdAmount r.owner with - | amount
        · unfold CatalogTables.suggestCountryRow at hok
          rw [hcurated, hamount] at hok
          cases hok
        rw [suggestCountryRow_uncurated hcurated hamount] at hok
        rcases hsticker : suggestedSticker rates amount r.currency with - | sticker
        · rw [hsticker] at hok
          cases hok
          simp [hsticker]
        · rw [hsticker] at hok
          obtain ⟨base, hbase, hok⟩ := Loops.bind_eq_ok.mp hok
          cases hok
          simp [hsticker, hbase]
      · rw [suggestCountryRow_curated hcurated] at hok
        cases hok
        simp

/-- **The seed** leaves the amount of a row of a price that the release agrees with. -/
theorem afterSeed_amount_iff {plans : List PlanSpec} {boosts : List BoostSpec}
    (h : seedCatalog u plans boosts catalog = .ok catalog') :
    ∃ g, catalog.Rewrites catalog'.toCatalogTables g ∧ ∀ row, catalog.Holds row →
      catalog.activeOwner row.owner = true →
      ((g row).implied.1 = row.implied.1 ↔
        (PriceJob.seedCatalog plans boosts).Agrees u catalog.toCatalogTables row) := by
  obtain ⟨t₁, hrounds, hrewrites, hderived⟩ := seedCatalog_rewrites h
  refine ⟨_, hrewrites, ?_⟩
  unfold PriceJob.Agrees
  rintro (price | r | r) hrow hactive
  · show (catalog.atRelease _ price).amount = price.amount ↔ _
    dsimp only
    rw [atRelease_amount]
    rcases catalog.releaseAmount _ price with - | amount
    · simp
    · simp [eq_comm]
  · exact iff_of_true rfl trivial
  · -- the owner has a price, so the row is visited in its country
    obtain ⟨price, hprice, howner⟩ := holds_of_activeOwner hactive
    have hpriced : (t₁.usdAmount r.owner).isSome = true :=
      usdAmount_isSome.mpr ⟨_, mem_prices.mpr (hrounds.old (.usd price) hprice),
        (atRelease_owner _ price).trans howner⟩
    show (t₁.realigned u r).baseMinor = r.baseMinor ↔ _
    by_cases hlaunch : r.country ∈ countryCurrency.map Prod.fst
    · obtain ⟨base, hbase, heq⟩ :=
        CountryPrice.recomputeBase_spec u (hderived r hrow hlaunch hpriced)
      unfold CountryPrice.Aligned
      dsimp only
      rw [heq, hbase]
      simp [hlaunch]
    · unfold CatalogTables.realigned
      rw [if_neg fun hand => hlaunch hand.1]
      simp [hlaunch]

/-- A country row after the save of `row`. -/
def CountryPrice.saved (row : CountryPrice) (stickerMinor base : Int) (r : CountryPrice) :
    CountryPrice :=
  if r.key = row.key then { r with stickerMinor, isCurated := true, baseMinor := base } else r

/-- What the save of a country row leaves. -/
theorem saveCountryRow_rewrites {row : CountryPrice} {stickerMinor base : Int}
    (hrow : row ∈ catalog.countryPrices) :
    catalog.Rewrites (catalog.saveCountryRow row.key fun _ =>
        { row with stickerMinor, isCurated := true, baseMinor := base })
      (CatalogRow.mapCountry (row.saved stickerMinor base)) := by
  have hinj := List.inj_on_of_nodup_map catalog.constraints.uniq_country_price_country
  refine rewrites_mapCountry (fun r => ?_) (fun r hr => ?_) fun r' hr' => ?_
  · unfold CountryPrice.saved
    split <;> exact ⟨rfl, rfl, rfl⟩
  · unfold CountryPrice.saved
    refine Table.mem_update.mpr ?_
    split
    · rename_i hkey
      obtain rfl := hinj hr hrow hkey
      exact Or.inr ⟨r, hr, rfl, rfl⟩
    · exact Or.inl ⟨hr, ‹_›⟩
  · unfold CountryPrice.saved
    rcases Table.mem_update.mp hr' with ⟨hr, hne⟩ | ⟨r, hr, hkey, rfl⟩
    · exact Or.inl ⟨r', hr, by rw [if_neg hne]⟩
    · obtain rfl := hinj hr hrow hkey
      exact Or.inl ⟨r, hr, by rw [if_pos rfl]⟩

/-- The save of the admin rewrites the amount of one row. -/
theorem saveModel_amount_iff {owner : PriceOwner} {country : String} {stickerMinor : Int}
    (h : catalog.saveModel u owner country stickerMinor = .ok catalog') :
    ∃ g, catalog.Rewrites catalog'.toCatalogTables g ∧ ∀ row, catalog.Holds row →
      ((g row).implied.1 = row.implied.1 ↔
        (PriceJob.saveModel owner country stickerMinor).Agrees u catalog.toCatalogTables row) := by
  unfold CatalogTables.saveModel at h
  rcases hfind : catalog.countryRow owner country with - | row <;> rw [hfind] at h
  · cases h
  obtain ⟨row', hbase, hcommit⟩ := Loops.bind_eq_ok.mp h
  obtain ⟨base, hderive, rfl⟩ := CountryPrice.recomputeBase_spec u hbase
  have hrow := (CatalogTables.countryRow_eq_some_iff catalog.constraints).mp hfind
  rw [CatalogTables.commit_ok hcommit]
  refine ⟨_, saveCountryRow_rewrites hrow.1, ?_⟩
  unfold PriceJob.Agrees
  rintro (price | r | r) hr
  · exact iff_of_true rfl trivial
  · exact iff_of_true rfl trivial
  · have hkey : row.key = (owner, country) := Prod.ext hrow.2.1 hrow.2.2
    show (row.saved stickerMinor base r).baseMinor = r.baseMinor ↔ _
    unfold CountryPrice.saved
    dsimp only
    rw [← hkey]
    split
    · rename_i hsame
      have hcountry : r.country = row.country := (Prod.mk.inj hsame).2
      have hderive : deriveBase stickerMinor (standardVatRate u row.country) = .ok base := hderive
      show base = r.baseMinor ↔ _
      rw [hcountry]
      simp [hsame, hderive]
    · rename_i hother
      exact iff_of_true rfl fun hsame => absurd hsame hother

/-- **No job on the database touches the ids**, and it leaves the amounts that its data agree
with. -/
theorem edit_amount_iff {job : PriceJob} (h : job.edit u catalog = .ok catalog') :
    ∃ g, catalog.Rewrites catalog'.toCatalogTables g ∧ ∀ row, catalog.Holds row →
      catalog.activeOwner row.owner = true →
      ((g row).implied.1 = row.implied.1 ↔ job.Agrees u catalog.toCatalogTables row) := by
  rcases job with fetch | ⟨plans, boosts⟩ | ⟨owner, country, stickerMinor⟩ | env
  · obtain ⟨⟨t, n⟩, hsync, hcommit⟩ := Loops.bind_eq_ok.mp h
    rw [CatalogTables.commit_ok hcommit]
    exact ⟨_, syncLocalizedPrices_rewrites catalog.constraints hsync,
      fun row hrow _ => afterLocalizedSync_amount_iff hsync hrow⟩
  · exact afterSeed_amount_iff h
  · obtain ⟨g, hg, hamount⟩ := saveModel_amount_iff h
    exact ⟨g, hg, fun row hrow _ => hamount row hrow⟩
  · cases h
    exact ⟨_, .refl _, fun row _ _ => iff_of_true rfl (by cases row <;> trivial)⟩

end Edits

end Saasmint
