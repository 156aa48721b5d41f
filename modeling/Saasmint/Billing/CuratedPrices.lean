/-
Saasmint/Billing/CuratedPrices.lean

The writers of the country prices, interleaved: the seed (`seed_catalog`), the
FX sweep (`sync_localized_prices`), the Stripe sync (`sync_stripe_catalog`) and
the save of the admin (`CountryPriceAdmin.save_model`), each as its reads and
its writes.

The base of a row is the one of its sticker in every state, since no writer
sets the one without the other.  The sweep asks for rows that nobody has
curated and overwrites what it has found, so a curated sticker stays exactly
when each bulk write still finds its rows uncurated
(`curated_stickers_stay_iff`).
-/
import Saasmint.Billing.SeedCatalog
import Saasmint.Lib.Interleaving

namespace Saasmint

open PyStr

variable (u : UnicodeTables)

/-- What identifies a row. -/
def CountryPrice.key (r : CountryPrice) : PriceOwner × String := (r.owner, r.country)

namespace CatalogTables

/-! ### Reads -/

/-- What the seed has to write, from the rows that its transaction sees. -/
def countryWrites (t : CatalogTables) : Except String (List CountryWrite) :=
  (countryCurrency.flatMap fun c => t.prices.map fun price => (c, price)).mapM fun (c, price) =>
    collectCountryRow u t c.1 c.2 price

/-- `country_to_update` of the sweep. -/
def countryToUpdate (t : CatalogTables) (rates : List (String × ℚ)) :
    Except String (List CountryPrice) := do
  let found := t.countryPrices.filter fun cp => !cp.isCurated
  let suggested ← found.mapM fun cp => do
    let cp' ← t.suggestCountryRow u rates cp
    return if cp' ≠ cp then some cp' else none
  return suggested.filterMap id

/-- The rows of active owners, by country. -/
def activeCountryPrices (t : CatalogTables) : List CountryPrice :=
  (t.countryPrices.filter fun r => t.activeOwner r.owner).mergeSort fun a b => a.country ≤ b.country

/-! ### Writes -/

/-- `bulk_create` of the new rows and `bulk_update` of the bases. -/
def writeCountryRows (t : CatalogTables) (writes : List CountryWrite) : CatalogTables :=
  { t with
    countryPrices := (t.countryPrices ++ writes.filterMap CountryWrite.created).map
      (updateBase (writes.filterMap CountryWrite.updated)) }

/-- A row after a `bulk_update` of `sticker_minor` and `base_minor`. -/
def sweptRow (batch : List CountryPrice) (r : CountryPrice) : CountryPrice :=
  match batch.find? fun b => b.key = r.key with
  | some b => { r with stickerMinor := b.stickerMinor, baseMinor := b.baseMinor }
  | none => r

def updateStickers (t : CatalogTables) (batch : List CountryPrice) : CatalogTables :=
  { t with countryPrices := t.countryPrices.map (sweptRow batch) }

/-- A save of one row. -/
def saveCountryRow (t : CatalogTables) (key : PriceOwner × String)
    (f : CountryPrice → CountryPrice) : CatalogTables :=
  { t with countryPrices := Table.update CountryPrice.key key f t.countryPrices }

end CatalogTables

/-- A writer. -/
inductive CountryJob
  | seedCatalog (plans : List PlanSpec) (boosts : List BoostSpec)
  | syncLocalizedPrices
  | syncStripeCatalog
  /-- The save of a row with the sticker of the form. -/
  | saveModel (owner : PriceOwner) (country : String) (stickerMinor : Int)
  /-- A write of the other tables, as by the plan and product rounds of a seed. -/
  | editCatalog (tables : CatalogTables)
  deriving DecidableEq

/-- What a step gets from outside. -/
inductive CountryInput
  | run
  | feed (fetch : FxFetch)
  /-- The id of the Stripe Price under the lookup key; `none` where Stripe fails. -/
  | minted (stripePriceId : Option String)
  deriving DecidableEq

/-- Where a writer is, with what it has read. -/
inductive CountryCall
  | start
  | collected (writes : List CountryWrite)
  | suggested (batch : List CountryPrice)
  | minting (rows : List CountryPrice)
  | stamping (cp : CountryPrice) (rows : List CountryPrice)
  | loaded (row : CountryPrice)
  | done
  | failed (message : String)
  deriving DecidableEq

/-- A job is between its reads and its last write. -/
def CountryCall.InProgress : CountryCall → Bool
  | collected _ | suggested _ | minting _ | stamping _ _ => true
  | _ => false

/-- `bulk_update` follows where the feed has rates; `next` otherwise. -/
def readFeed (t : CatalogTables) (fetch : FxFetch) (next : CountryCall) : CountryCall :=
  match fetch.apiRates u with
  | none => next
  | some rates =>
    match t.countryToUpdate u rates with
    | .ok batch => .suggested batch
    | .error e => .failed e

namespace CountryJob

/-- A step that only reads. -/
def read (t : CatalogTables) : CountryJob → CountryInput → CountryCall → Option CountryCall
  | seedCatalog plans boosts, .run, .start =>
    some (match (plans.map SeedSpec.plan ++ boosts.map SeedSpec.boost).foldlM seedOne t
        >>= CatalogTables.countryWrites u with
      | .ok writes => .collected writes
      | .error e => .failed e)
  | syncLocalizedPrices, .feed fetch, .start => some (readFeed u t fetch .done)
  -- the bootstrap of a missing localized row, any number of times
  | syncStripeCatalog, .feed fetch, .start => some (readFeed u t fetch .start)
  | syncStripeCatalog, .run, .start => some (.minting t.activeCountryPrices)
  | syncStripeCatalog, .run, .minting [] => some .done
  | saveModel owner country _, .run, .start =>
    some (match t.countryRow owner country with
      | some row => .loaded row
      | none => .failed "No CountryPrice matches the given query.")
  | _, _, _ => none

/-- A step that writes: what it leaves, and where the writer is after it. -/
def write (t : CatalogTables) :
    CountryJob → CountryInput → CountryCall → Option (Except String (CatalogTables × CountryCall))
  | seedCatalog _ _, .run, .collected writes => some (.ok (t.writeCountryRows writes, .done))
  | syncLocalizedPrices, .run, .suggested batch => some (.ok (t.updateStickers batch, .done))
  | syncStripeCatalog, .run, .suggested batch => some (.ok (t.updateStickers batch, .start))
  | syncStripeCatalog, .run, .minting (cp :: rows) => some do
    let cp' ← cp.recomputeBase u
    let t' := if cp.baseMinor ≠ cp'.baseMinor then
        t.saveCountryRow cp.key fun r => { r with baseMinor := cp'.baseMinor }
      else t
    return (t', .stamping cp' rows)
  | syncStripeCatalog, .minted none, .stamping _ _ => some (.error "StripeError")
  | syncStripeCatalog, .minted (some x), .stamping cp rows =>
    some (.ok (if cp.stripePriceId = some x then t
      else t.saveCountryRow cp.key fun r => { r with stripePriceId := some x }, .minting rows))
  | saveModel _ _ stickerMinor, .run, .loaded row => some do
    let row' ← { row with stickerMinor, isCurated := true }.recomputeBase u
    return (t.saveCountryRow row.key fun _ => row', .done)
  | editCatalog tables, .run, .start =>
    some (.ok ({ tables with countryPrices := t.countryPrices }, .done))
  | _, _, _ => none

end CountryJob

variable {ι : Type*}

/-- A step of a writer.  A write that fails leaves the catalog as it was. -/
def countryAct (jobs : ι → CountryJob) (i : ι) (cat : Catalog) (κ : CountryCall)
    (input : CountryInput) : Option (Catalog × CountryCall) :=
  match (jobs i).write u cat.toCatalogTables input κ with
  | some (.ok (t', κ')) =>
    match t'.commit with
    | .ok cat' => some (cat', κ')
    | .error e => some (cat, .failed e)
  | some (.error e) => some (cat, .failed e)
  | none => ((jobs i).read u cat.toCatalogTables input κ).map fun κ' => (cat, κ')

abbrev CountrySystem (ι : Type*) := Interleaving.State ι Catalog CountryCall

/-- No writer has begun. -/
def countryInit (ι : Type*) (cat : Catalog) : CountrySystem ι := ⟨cat, fun _ => .start⟩

/-! ### What is claimed -/

/-- The base of a row is the one of its sticker. -/
def CountryPrice.Aligned (r : CountryPrice) : Prop :=
  deriveBase r.stickerMinor (standardVatRate u r.country) = .ok r.baseMinor

instance (r : CountryPrice) : Decidable (r.Aligned u) :=
  inferInstanceAs (Decidable (_ = _))

def CatalogTables.Aligned (t : CatalogTables) : Prop := ∀ r ∈ t.countryPrices, r.Aligned u

/-- Where no job is in progress, the bases are those of the stickers. -/
def AlignedWhenIdle (s : CountrySystem ι) : Prop :=
  (∀ i, (s.procs i).InProgress = false) → s.shared.Aligned u

/-- Only the save of the admin moves a curated sticker. -/
def CuratedStays (jobs : ι → CountryJob) (s : CountrySystem ι) (l : ι × CountryInput)
    (s' : CountrySystem ι) : Prop :=
  (∀ owner country stickerMinor, jobs l.1 ≠ .saveModel owner country stickerMinor) →
    ∀ r ∈ s.shared.countryPrices, r.isCurated = true →
      ∃ r' ∈ s'.shared.countryPrices, r'.key = r.key ∧ r'.stickerMinor = r.stickerMinor

/-- A bulk write of suggestions finds its rows still uncurated, or curated to
the sticker that it writes. -/
def FindsUncurated (s : CountrySystem ι) (l : ι × CountryInput) : Prop :=
  ∀ batch, s.procs l.1 = .suggested batch → ∀ b ∈ batch, ∀ r ∈ s.shared.countryPrices,
    r.key = b.key → r.isCurated = true → r.stickerMinor = b.stickerMinor

/-! ### What the writers read -/

variable {u} {t t' : CatalogTables} {rates : List (String × ℚ)}

theorem CountryPrice.Aligned.recomputeBase {r : CountryPrice} (h : r.Aligned u) :
    r.recomputeBase u = .ok r := by
  unfold CountryPrice.recomputeBase
  rw [show deriveBase r.stickerMinor (standardVatRate u r.country) = .ok r.baseMinor from h]
  rfl

/-- What a recomputation leaves is aligned. -/
theorem CountryPrice.aligned_of_recomputeBase {r r' : CountryPrice}
    (h : r.recomputeBase u = .ok r') : r'.Aligned u ∧ r'.key = r.key := by
  obtain ⟨base, hbase, rfl⟩ := CountryPrice.recomputeBase_spec u h
  exact ⟨hbase, rfl⟩

/-- From aligned rows the seed collects new aligned rows and nothing to re-align. -/
theorem collectCountryRow_aligned (ht : t.Aligned u) {country currency : String} {price : Price}
    {w : CountryWrite} (h : collectCountryRow u t country currency price = .ok w) :
    w.updated = none ∧ ∀ r, w.created = some r → r.Aligned u := by
  unfold collectCountryRow at h
  split at h
  · obtain ⟨base, hbase, h⟩ := Loops.bind_eq_ok.mp h
    cases h
    refine ⟨rfl, fun r hr => ?_⟩
    cases hr
    exact hbase
  · rename_i existing hfind
    have hex := ht existing (List.mem_of_find?_eq_some hfind)
    rw [hex.recomputeBase] at h
    cases h
    rw [if_neg (not_not.mpr rfl)]
    refine ⟨rfl, fun r hr => ?_⟩
    cases hr

theorem countryWrites_aligned (ht : t.Aligned u) {writes : List CountryWrite}
    (h : t.countryWrites u = .ok writes) :
    ∀ w ∈ writes, w.updated = none ∧ ∀ r, w.created = some r → r.Aligned u := by
  intro w hw
  obtain ⟨⟨c, price⟩, -, hcollect⟩ := (Loops.mapM_ok_mem h).2 w hw
  exact collectCountryRow_aligned ht hcollect

/-- A suggestion comes with its base. -/
theorem suggestCountryRow_aligned {cp cp' : CountryPrice} (hcp : cp.Aligned u)
    (h : t.suggestCountryRow u rates cp = .ok cp') : cp'.Aligned u := by
  unfold CatalogTables.suggestCountryRow at h
  split at h
  · cases h
    exact hcp
  · split at h
    · cases h
    · split at h
      · cases h
        exact hcp
      · obtain ⟨base, hbase, h⟩ := Loops.bind_eq_ok.mp h
        cases h
        exact hbase

/-- The rows of a sweep: the suggestions for uncurated rows that differ from
what is there. -/
theorem mem_countryToUpdate {batch : List CountryPrice} (h : t.countryToUpdate u rates = .ok batch)
    {b : CountryPrice} :
    b ∈ batch ↔ ∃ r ∈ t.countryPrices, r.isCurated = false ∧
      t.suggestCountryRow u rates r = .ok b ∧ b ≠ r := by
  obtain ⟨suggested, hs, h⟩ := Loops.bind_eq_ok.mp h
  cases h
  obtain ⟨hfwd, hbwd⟩ := Loops.mapM_ok_mem hs
  rw [List.mem_filterMap]
  constructor
  · rintro ⟨x, hx, rfl⟩
    obtain ⟨r, hr, hrx⟩ := hbwd _ hx
    obtain ⟨hr, hcurated⟩ := List.mem_filter.mp hr
    obtain ⟨b', hb', hrx⟩ := Loops.bind_eq_ok.mp hrx
    by_cases hne : b' ≠ r
    · rw [if_pos hne] at hrx
      obtain rfl := Option.some.inj (Except.ok.inj hrx)
      exact ⟨r, hr, by simpa using hcurated, hb', hne⟩
    · rw [if_neg hne] at hrx
      cases hrx
  · rintro ⟨r, hr, hcurated, hb, hne⟩
    obtain ⟨x, hx, hrx⟩ := hfwd r (List.mem_filter.mpr ⟨hr, by simp [hcurated]⟩)
    refine ⟨x, hx, ?_⟩
    rw [hb] at hrx
    cases hrx
    exact if_pos hne

/-- A sweep has one row for each key. -/
theorem countryToUpdate_nodup (hc : t.Constraints) {batch : List CountryPrice}
    (h : t.countryToUpdate u rates = .ok batch) : (batch.map CountryPrice.key).Nodup := by
  suffices hmain : ∀ (found : List CountryPrice) suggested,
      found.mapM (fun cp => do
        let cp' ← t.suggestCountryRow u rates cp
        return if cp' ≠ cp then some cp' else none) = Except.ok suggested →
      ((suggested.filterMap id).map CountryPrice.key).Sublist (found.map CountryPrice.key) by
    obtain ⟨suggested, hs, h⟩ := Loops.bind_eq_ok.mp h
    cases h
    refine (hmain _ suggested hs).nodup ?_
    exact hc.uniq_country_price_country.sublist (List.filter_sublist.map _)
  intro found
  induction found with
  | nil =>
    intro suggested h
    cases h
    exact List.Sublist.refl _
  | cons cp found ih =>
    intro suggested h
    rw [List.mapM_cons] at h
    obtain ⟨x, hx, h⟩ := Loops.bind_eq_ok.mp h
    obtain ⟨xs, hxs, h⟩ := Loops.bind_eq_ok.mp h
    obtain ⟨cp', hcp', hx⟩ := Loops.bind_eq_ok.mp hx
    cases h
    cases hx
    split
    · have hkey : cp'.key = cp.key := by
        obtain ⟨sticker, base, rfl⟩ := suggestCountryRow_ok hcp'
        rfl
      show (cp'.key :: (xs.filterMap id).map CountryPrice.key).Sublist
        (cp.key :: found.map CountryPrice.key)
      rw [hkey]
      exact (ih xs hxs).cons_cons _
    · exact (ih xs hxs).cons _

/-! ### A job that nobody interrupts -/

theorem CatalogTables.sweptRow_key (batch : List CountryPrice) (r : CountryPrice) :
    (CatalogTables.sweptRow batch r).key = r.key ∧
      (CatalogTables.sweptRow batch r).stripePriceId = r.stripePriceId := by
  unfold CatalogTables.sweptRow
  split <;> exact ⟨rfl, rfl⟩

/-- The row of the batch that a sweep writes over a row. -/
theorem CatalogTables.sweptRow_of_mem {batch : List CountryPrice}
    (hb : (batch.map CountryPrice.key).Nodup)
    {b r : CountryPrice} (hmem : b ∈ batch) (hkey : r.key = b.key) :
    CatalogTables.sweptRow batch r
      = { r with stickerMinor := b.stickerMinor, baseMinor := b.baseMinor } := by
  have hu := Table.unique_some_iff.mpr hb
  have hfind :=
    (Table.find?_eq_some_iff hu (v := r.key) (a := b)).mpr ⟨hmem, congrArg some hkey.symm⟩
  unfold CatalogTables.sweptRow
  rw [show (batch.find? fun b => decide (b.key = r.key)) = some b by simpa using hfind]

/-- The seed reads and writes at once what `_seed_country_prices` does. -/
theorem seedCountryPrices_eq (t : CatalogTables) :
    seedCountryPrices u t = (do return t.writeCountryRows (← t.countryWrites u)) := rfl

/-- The rows after the sweep are the rows of the whole job. -/
theorem syncLocalizedPrices_updateStickers (hc : t.Constraints) {fetch : FxFetch} {n : Nat}
    (hrates : fetch.apiRates u = some rates) (h : syncLocalizedPrices u fetch t = .ok (t', n)) :
    ∃ batch, t.countryToUpdate u rates = .ok batch ∧
      t'.countryPrices = (t.updateStickers batch).countryPrices := by
  rcases syncLocalizedPrices_ok h with ⟨hnone, -⟩ | ⟨rates', cps, hrates', hcps, rfl⟩
  · rw [hrates] at hnone
    cases hnone
  obtain rfl := Option.some.inj (hrates.symm.trans hrates')
  have hok := (Loops.mapM_ok_mem hcps).1
  obtain ⟨suggested, hs⟩ := Loops.mapM_isOk (l := t.countryPrices.filter fun cp => !cp.isCurated)
    (f := fun cp => do
      let cp' ← t.suggestCountryRow u rates cp
      return if cp' ≠ cp then some cp' else none) (by
    intro r hr
    obtain ⟨r', -, hr'⟩ := hok r (List.mem_of_mem_filter hr)
    exact ⟨_, by rw [hr']; rfl⟩)
  have hbatch : t.countryToUpdate u rates = .ok (suggested.filterMap id) := by
    simp only [CatalogTables.countryToUpdate]
    rw [hs]
    rfl
  refine ⟨_, hbatch, Loops.mapM_ok_eq_map hcps fun r hr r' hr' => ?_⟩
  have hrow : ∀ r₀ ∈ t.countryPrices, r₀.key = r.key → r₀ = r := by
    intro r₀ hr₀ hkey
    have hu := Table.unique_some_iff.mpr hc.uniq_country_price_country
    exact hu.inj hr₀ hr (v := r.key) (congrArg some hkey) rfl
  by_cases hmem : r.isCurated = false ∧ r' ≠ r
  · -- the suggestion is written
    have hb := (mem_countryToUpdate hbatch).mpr ⟨r, hr, hmem.1, hr', hmem.2⟩
    obtain ⟨sticker, base, rfl⟩ := suggestCountryRow_ok hr'
    exact CatalogTables.sweptRow_of_mem (countryToUpdate_nodup hc hbatch) hb rfl
  · -- the row stays, and the suggestion is the row
    have hsame : r' = r := by
      by_contra hne
      have hcurated : r.isCurated = true := by simpa [hne] using hmem
      unfold CatalogTables.suggestCountryRow at hr'
      rw [if_pos hcurated] at hr'
      exact hne (Except.ok.inj hr').symm
    unfold CatalogTables.sweptRow
    split
    · rename_i b hfind
      have hkey : b.key = r.key := by simpa using List.find?_some hfind
      obtain ⟨r₀, hr₀, hcurated, hb, hne⟩ :=
        (mem_countryToUpdate hbatch).mp (List.mem_of_find?_eq_some hfind)
      obtain ⟨sticker, base, rfl⟩ := suggestCountryRow_ok hb
      obtain rfl := hrow r₀ hr₀ hkey
      rw [hb] at hr'
      exact absurd ((Except.ok.inj hr').trans hsame) hne
    · exact hsame.symm

/-! ### What the writers leave -/

/-- What a writer holds after its reads. -/
def CountryCall.Holds (u : UnicodeTables) : CountryCall → Prop
  | collected writes => ∀ w ∈ writes, w.updated = none ∧ ∀ r, w.created = some r → r.Aligned u
  | suggested batch => (∀ b ∈ batch, b.Aligned u) ∧ (batch.map CountryPrice.key).Nodup
  | minting rows | stamping _ rows => ∀ r ∈ rows, r.Aligned u
  | _ => True

theorem readFeed_holds (hc : t.Constraints) (ht : t.Aligned u) {fetch : FxFetch}
    {next : CountryCall} (hnext : next.Holds u) : (readFeed u t fetch next).Holds u := by
  unfold readFeed
  split
  · exact hnext
  · split
    · rename_i batch hbatch
      refine ⟨?_, countryToUpdate_nodup hc hbatch⟩
      intro b hb
      obtain ⟨r, hr, -, hok, -⟩ := (mem_countryToUpdate hbatch).mp hb
      exact suggestCountryRow_aligned (ht r hr) hok
    · trivial

theorem CountryJob.read_holds (hc : t.Constraints) (ht : t.Aligned u) {job : CountryJob}
    {input : CountryInput} {κ κ' : CountryCall} (h : job.read u t input κ = some κ') :
    κ'.Holds u := by
  unfold read at h
  split at h
  · -- the seed
    cases h
    split
    · rename_i writes hok
      obtain ⟨t₁, hrounds, hwrites⟩ := Loops.bind_eq_ok.mp hok
      refine countryWrites_aligned (t := t₁) ?_ hwrites
      intro r hr
      rw [foldlM_seedOne_countryPrices hrounds] at hr
      exact ht r hr
    · trivial
  · cases h
    exact readFeed_holds hc ht trivial
  · cases h
    exact readFeed_holds hc ht trivial
  · -- the rows of the Stripe sync
    cases h
    intro r hr
    exact ht r (List.mem_of_mem_filter (List.mem_mergeSort.mp hr))
  · cases h
    trivial
  · cases h
    split <;> trivial
  · cases h

/-- What a write that goes through leaves of the country rows. -/
inductive CountryWritten (u : UnicodeTables) (job : CountryJob) (κ : CountryCall)
    (t t' : CatalogTables) : Prop
  | seeded (rows : List CountryPrice) (hrows : ∀ r ∈ rows, r.Aligned u)
      (ht' : t'.countryPrices = t.countryPrices ++ rows)
  | swept (batch : List CountryPrice) (hκ : κ = .suggested batch)
      (ht' : t' = t.updateStickers batch)
  | stamped (key : PriceOwner × String) (x : String)
      (ht' : t' = t.saveCountryRow key fun r => { r with stripePriceId := some x })
  | curated (owner : PriceOwner) (country : String) (stickerMinor : Int) (row : CountryPrice)
      (hjob : job = .saveModel owner country stickerMinor) (hrow : row.Aligned u)
      (ht' : t' = t.saveCountryRow row.key fun _ => row)
  | other (ht' : t'.countryPrices = t.countryPrices)

/-- Nothing to re-align. -/
theorem map_updateBase_nil (rows : List CountryPrice) : rows.map (updateBase []) = rows :=
  List.map_id' rows

theorem CountryJob.write_ok {job : CountryJob} {input : CountryInput} {κ κ' : CountryCall}
    (hκ : κ.Holds u) (h : job.write u t input κ = some (.ok (t', κ'))) :
    CountryWritten u job κ t t' ∧ κ'.Holds u := by
  unfold write at h
  split at h
  · -- the seed
    obtain ⟨rfl, rfl⟩ := Prod.mk.inj (Except.ok.inj (Option.some.inj h))
    rename_i writes
    have hnone : writes.filterMap CountryWrite.updated = [] :=
      List.filterMap_eq_nil_iff.mpr fun w hw => (hκ w hw).1
    refine ⟨.seeded (writes.filterMap CountryWrite.created) ?_ ?_, trivial⟩
    · intro r hr
      obtain ⟨w, hw, hwr⟩ := List.mem_filterMap.mp hr
      exact (hκ w hw).2 r hwr
    · show (t.countryPrices ++ _).map (updateBase _) = _
      rw [hnone, map_updateBase_nil]
  · obtain ⟨rfl, rfl⟩ := Prod.mk.inj (Except.ok.inj (Option.some.inj h))
    exact ⟨.swept _ rfl rfl, trivial⟩
  · obtain ⟨rfl, rfl⟩ := Prod.mk.inj (Except.ok.inj (Option.some.inj h))
    exact ⟨.swept _ rfl rfl, trivial⟩
  · -- the base of a row that has been read is the one of its sticker
    rename_i cp rows
    obtain ⟨cp', hcp', heq⟩ := Loops.bind_eq_ok.mp (Option.some.inj h)
    rw [(hκ cp (List.mem_cons_self ..)).recomputeBase] at hcp'
    cases hcp'
    obtain ⟨rfl, rfl⟩ := Prod.mk.inj (Except.ok.inj heq)
    refine ⟨.other ?_, fun r hr => hκ r (List.mem_cons_of_mem _ hr)⟩
    rw [if_neg (not_not.mpr rfl)]
  · cases h
  · obtain ⟨rfl, rfl⟩ := Prod.mk.inj (Except.ok.inj (Option.some.inj h))
    refine ⟨?_, hκ⟩
    split
    · exact .other rfl
    · exact .stamped _ _ rfl
  · -- the admin
    rename_i owner country stickerMinor row
    obtain ⟨row', hrow', heq⟩ := Loops.bind_eq_ok.mp (Option.some.inj h)
    obtain ⟨rfl, rfl⟩ := Prod.mk.inj (Except.ok.inj heq)
    obtain ⟨haligned, hkey⟩ := CountryPrice.aligned_of_recomputeBase hrow'
    refine ⟨.curated owner country stickerMinor row' rfl haligned ?_, trivial⟩
    rw [hkey]
    rfl
  · obtain ⟨rfl, rfl⟩ := Prod.mk.inj (Except.ok.inj (Option.some.inj h))
    exact ⟨.other rfl, trivial⟩
  · cases h

/-- Country rows with the keys and the Stripe Prices of the old ones. -/
theorem CatalogTables.Constraints.withCountryPrices (hc : t.Constraints) {rows : List CountryPrice}
    (hkey : rows.map CountryPrice.key = t.countryPrices.map CountryPrice.key)
    (hid : rows.map CountryPrice.stripePriceId = t.countryPrices.map CountryPrice.stripePriceId) :
    ({ t with countryPrices := rows } : CatalogTables).Constraints where
  plan_pk := hc.plan_pk
  uniq_active_plan_per_context_tier_interval := hc.uniq_active_plan_per_context_tier_interval
  planPrice_pk := hc.planPrice_pk
  planPrice_plan := hc.planPrice_plan
  planPrice_stripe := hc.planPrice_stripe
  product_pk := hc.product_pk
  productPrice_pk := hc.productPrice_pk
  productPrice_product := hc.productPrice_product
  productPrice_stripe := hc.productPrice_stripe
  uniq_localized_price_currency := hc.uniq_localized_price_currency
  uniq_localized_stripe_price_id := hc.uniq_localized_stripe_price_id
  uniq_country_price_country := by
    show (rows.map CountryPrice.key).Nodup
    rw [hkey]
    exact hc.uniq_country_price_country
  uniq_country_stripe_price_id := by
    have hids : ∀ l : List CountryPrice,
        l.filterMap CountryPrice.stripePriceId
          = (l.map CountryPrice.stripePriceId).filterMap id := by
      intro l
      rw [List.filterMap_map]
      rfl
    show (rows.filterMap CountryPrice.stripePriceId).Nodup
    rw [hids, hid, ← hids]
    exact hc.uniq_country_stripe_price_id

/-- A bulk write of suggestions goes through. -/
theorem updateStickers_commit (hc : t.Constraints) (batch : List CountryPrice) :
    ∃ cat : Catalog, (t.updateStickers batch).commit = .ok cat ∧
      cat.toCatalogTables = t.updateStickers batch := by
  have h : (t.updateStickers batch).Constraints := by
    apply hc.withCountryPrices
    · rw [List.map_map]
      exact List.map_congr_left fun r _ => (CatalogTables.sweptRow_key batch r).1
    · rw [List.map_map]
      exact List.map_congr_left fun r _ => (CatalogTables.sweptRow_key batch r).2
  exact ⟨⟨_, h⟩, dif_pos h, rfl⟩

/-- Every writer keeps the bases aligned. -/
theorem CountryWritten.aligned {job : CountryJob} {κ : CountryCall} (hκ : κ.Holds u)
    (h : CountryWritten u job κ t t') (ht : t.Aligned u) : t'.Aligned u := by
  intro r hr
  cases h with
  | seeded rows hrows ht' =>
    rw [ht'] at hr
    rcases List.mem_append.mp hr with hr | hr
    · exact ht r hr
    · exact hrows r hr
  | swept batch hκ' ht' =>
    rw [hκ'] at hκ
    rw [ht'] at hr
    obtain ⟨r₀, hr₀, rfl⟩ := List.mem_map.mp hr
    unfold CatalogTables.sweptRow
    split
    · rename_i b hfind
      have hkey : b.key = r₀.key := by simpa using List.find?_some hfind
      -- the base of the suggestion, at the rate of the same country
      have hb := hκ.1 b (List.mem_of_find?_eq_some hfind)
      unfold CountryPrice.Aligned at hb ⊢
      rwa [show b.country = r₀.country from congrArg Prod.snd hkey] at hb
    · exact ht r₀ hr₀
  | stamped key x ht' =>
    rw [ht'] at hr
    rcases Table.mem_update.mp hr with ⟨hr, -⟩ | ⟨r₀, hr₀, -, rfl⟩
    · exact ht r hr
    · exact ht r₀ hr₀
  | curated owner country stickerMinor row hjob hrow ht' =>
    rw [ht'] at hr
    rcases Table.mem_update.mp hr with ⟨hr, -⟩ | ⟨r₀, hr₀, -, rfl⟩
    · exact ht r hr
    · exact hrow
  | other ht' =>
    rw [ht'] at hr
    exact ht r hr

/-! ### Steps -/

variable {jobs : ι → CountryJob}

/-- What a step can do. -/
theorem countryAct_cases {i : ι} {cat cat' : Catalog} {κ κ' : CountryCall} {input : CountryInput}
    (h : countryAct u jobs i cat κ input = some (cat', κ')) :
    (cat' = cat ∧ ((∃ e, κ' = .failed e) ∨
        (jobs i).write u cat.toCatalogTables input κ = none ∧
          (jobs i).read u cat.toCatalogTables input κ = some κ')) ∨
      (jobs i).write u cat.toCatalogTables input κ = some (.ok (cat'.toCatalogTables, κ')) := by
  unfold countryAct at h
  split at h
  · rename_i t₁ κ₁ hw
    rcases hcommit : t₁.commit with e | cat₁
    · rw [hcommit] at h
      cases h
      exact Or.inl ⟨rfl, Or.inl ⟨e, rfl⟩⟩
    · rw [hcommit] at h
      cases h
      rw [CatalogTables.commit_ok hcommit]
      exact Or.inr hw
  · cases h
    exact Or.inl ⟨rfl, Or.inl ⟨_, rfl⟩⟩
  · rename_i hw
    obtain ⟨κ₁, hread, heq⟩ := Option.map_eq_some_iff.mp h
    cases heq
    exact Or.inl ⟨rfl, Or.inr ⟨hw, hread⟩⟩

/-- A step from a sweep that has read is its bulk write. -/
theorem countryAct_suggested {i : ι} {cat cat' : Catalog} {batch : List CountryPrice}
    {κ' : CountryCall} {input : CountryInput}
    (h : countryAct u jobs i cat (.suggested batch) input = some (cat', κ')) :
    cat'.toCatalogTables = cat.updateStickers batch ∧
      ∀ owner country stickerMinor, jobs i ≠ .saveModel owner country stickerMinor := by
  obtain ⟨cat₁, hcommit, hcat₁⟩ := updateStickers_commit cat.constraints batch
  unfold countryAct at h
  rcases hjob : jobs i with ⟨plans, boosts⟩ | - | - | ⟨owner, country, sticker⟩ | tables
  · rw [hjob] at h
    rcases input <;> cases h
  · rw [hjob] at h
    rcases input with - | fetch | x
    · simp only [CountryJob.write, hcommit] at h
      cases h
      exact ⟨hcat₁, by simp⟩
    · cases h
    · cases h
  · rw [hjob] at h
    rcases input with - | fetch | x
    · simp only [CountryJob.write, hcommit] at h
      cases h
      exact ⟨hcat₁, by simp⟩
    · cases h
    · rcases x <;> cases h
  · rw [hjob] at h
    rcases input <;> cases h
  · rw [hjob] at h
    rcases input <;> cases h

/-- The bases are aligned, and so is what each writer holds. -/
abbrev CountryInv (u : UnicodeTables) : CountrySystem ι → Prop :=
  Interleaving.Inv (fun cat => cat.Aligned u) fun _ _ κ => κ.Holds u

theorem countryInv_init {cat : Catalog} (h : cat.Aligned u) : CountryInv u (countryInit ι cat) :=
  ⟨h, fun _ => trivial⟩

variable [DecidableEq ι]

theorem countryInv_step (s : CountrySystem ι) (l : ι × CountryInput) (s' : CountrySystem ι)
    (hI : CountryInv u s) (h : Interleaving.step (countryAct u jobs) s l = some s') :
    CountryInv u s' := by
  refine Interleaving.inv_step ?_ ?_ s l s' hI h
  · intro i cat κ input cat' κ' ht hκ hact
    rcases countryAct_cases hact with ⟨rfl, ⟨e, rfl⟩ | ⟨-, hread⟩⟩ | hw
    · exact ⟨ht, trivial⟩
    · exact ⟨ht, CountryJob.read_holds cat'.constraints ht hread⟩
    · obtain ⟨hwritten, hκ'⟩ := CountryJob.write_ok hκ hw
      exact ⟨hwritten.aligned hκ ht, hκ'⟩
  · intro i cat κ input cat' κ' ht hκ hact j κⱼ _ hj
    exact hj

/-- The sweep that writes over its rows leaves the curated ones exactly when it
finds them as it should. -/
theorem swept_curatedStays_iff (cat : Catalog) {batch : List CountryPrice}
    (hb : (batch.map CountryPrice.key).Nodup) :
    (∀ r ∈ cat.countryPrices, r.isCurated = true →
        ∃ r' ∈ (cat.updateStickers batch).countryPrices,
          r'.key = r.key ∧ r'.stickerMinor = r.stickerMinor) ↔
      ∀ b ∈ batch, ∀ r ∈ cat.countryPrices,
        r.key = b.key → r.isCurated = true → r.stickerMinor = b.stickerMinor := by
  have hunique : ∀ r ∈ cat.countryPrices, ∀ r₀ ∈ cat.countryPrices, r₀.key = r.key → r₀ = r := by
    intro r hr r₀ hr₀ hkey
    have hu := Table.unique_some_iff.mpr cat.constraints.uniq_country_price_country
    exact hu.inj hr₀ hr (v := r.key) (congrArg some hkey) rfl
  constructor
  · intro h b hbmem r hr hkey hcurated
    obtain ⟨r', hr', hkey', hsticker⟩ := h r hr hcurated
    obtain ⟨r₀, hr₀, rfl⟩ := List.mem_map.mp hr'
    obtain rfl := hunique r hr r₀ hr₀ ((CatalogTables.sweptRow_key batch r₀).1.symm.trans hkey')
    have hswept : (CatalogTables.sweptRow batch r₀).stickerMinor = b.stickerMinor := by
      rw [CatalogTables.sweptRow_of_mem hb hbmem hkey]
    rw [← hswept]
    exact hsticker.symm
  · intro h r hr hcurated
    refine ⟨CatalogTables.sweptRow batch r, List.mem_map.mpr ⟨r, hr, rfl⟩,
      (CatalogTables.sweptRow_key batch r).1, ?_⟩
    unfold CatalogTables.sweptRow
    split
    · rename_i b hfind
      have hkey : b.key = r.key := by simpa using List.find?_some hfind
      exact (h b (List.mem_of_find?_eq_some hfind) r hr hkey.symm hcurated).symm
    · rfl

/-- Every other write leaves the curated stickers, but the one of the admin. -/
theorem CountryWritten.curatedStays {job : CountryJob} {κ : CountryCall}
    (h : CountryWritten u job κ t t') (hκ : ∀ batch, κ ≠ .suggested batch)
    (hjob : ∀ owner country stickerMinor, job ≠ .saveModel owner country stickerMinor) :
    ∀ r ∈ t.countryPrices, ∃ r' ∈ t'.countryPrices,
      r'.key = r.key ∧ r'.stickerMinor = r.stickerMinor := by
  intro r hr
  cases h with
  | seeded rows hrows ht' =>
    rw [ht']
    exact ⟨r, List.mem_append_left _ hr, rfl, rfl⟩
  | swept batch hκ' ht' => exact absurd hκ' (hκ batch)
  | stamped key x ht' =>
    rw [ht']
    by_cases hkey : r.key = key
    · exact ⟨_, Table.mem_update.mpr (Or.inr ⟨r, hr, hkey, rfl⟩), rfl, rfl⟩
    · exact ⟨r, Table.mem_update.mpr (Or.inl ⟨hr, hkey⟩), rfl, rfl⟩
  | curated owner country stickerMinor row hjob' hrow ht' => exact absurd hjob' (hjob _ _ _)
  | other ht' =>
    rw [ht']
    exact ⟨r, hr, rfl, rfl⟩

/-- A step leaves the curated stickers exactly when its bulk write finds the
rows as it should. -/
theorem curatedStays_step (s : CountrySystem ι) (l : ι × CountryInput) (s' : CountrySystem ι)
    (hI : CountryInv u s) (h : Interleaving.step (countryAct u jobs) s l = some s') :
    CuratedStays jobs s l s' ↔ FindsUncurated s l := by
  obtain ⟨i, input⟩ := l
  obtain ⟨cat', κ', hact, rfl⟩ := Interleaving.step_eq_some h
  by_cases hκ : ∃ batch, s.procs i = .suggested batch
  · obtain ⟨batch, hbatch⟩ := hκ
    have hholds := hI.procs i
    rw [hbatch] at hact hholds
    obtain ⟨hcat', hjob⟩ := countryAct_suggested hact
    have hswept := swept_curatedStays_iff s.shared hholds.2
    constructor
    · intro hR batch' hbatch'
      cases hbatch.symm.trans hbatch'
      apply hswept.mp
      rw [← hcat']
      exact hR hjob
    · intro hC _
      show ∀ r ∈ s.shared.countryPrices, r.isCurated = true → ∃ r' ∈ cat'.countryPrices, _
      rw [hcat']
      exact hswept.mpr (hC batch hbatch)
  · -- the step is no bulk write of suggestions
    refine iff_of_true ?_ fun batch hbatch => absurd ⟨batch, hbatch⟩ hκ
    intro hjob r hr _
    rcases countryAct_cases hact with ⟨rfl, -⟩ | hw
    · exact ⟨r, hr, rfl, rfl⟩
    · have hwritten := (CountryJob.write_ok (hI.procs i) hw).1
      exact hwritten.curatedStays (fun batch hbatch => hκ ⟨batch, hbatch⟩) hjob r hr

/-- **Curated country prices are protected**, where every sweep finds its rows
uncurated. -/
theorem curated_stickers_stay_iff {cat : Catalog} (h : cat.Aligned u)
    (ls : List (ι × CountryInput)) :
    Runs.Always (Interleaving.step (countryAct u jobs)) (AlignedWhenIdle u) (countryInit ι cat) ls ∧
        Runs.EachMove (Interleaving.step (countryAct u jobs)) (CuratedStays jobs)
          (countryInit ι cat) ls ↔
      Runs.EachStep (Interleaving.step (countryAct u jobs)) FindsUncurated
        (countryInit ι cat) ls := by
  refine Runs.always_and_eachMove_iff countryInv_step ?_ (countryInv_init h) fun _ => h
  intro s l s' hI _ hstep
  rw [← curatedStays_step s l s' hI hstep]
  exact and_iff_right fun _ => (countryInv_step s l s' hI hstep).shared

/-! ### A sweep and the admin at once -/

/-- A plan with a seeded row for Germany. -/
def germanCatalog : Catalog where
  plans := [⟨1, "Personal Pro", "", .personal, .pro, .month, true⟩]
  planPrices := [⟨2, 1, "price_usd", 2000⟩]
  products := []
  productPrices := []
  localizedPrices := []
  countryPrices := [⟨.planPrice 2, "DE", "eur", 2000, 1681, false, none⟩]
  constraints := by constructor <;> decide

/-- The sweep, and an admin who sets the sticker to 19.99 EUR. -/
def sweepAndAdmin : Fin 2 → CountryJob
  | 0 => .syncLocalizedPrices
  | 1 => .saveModel (.planPrice 2) "DE" 1999

/-- The feed, with the euro at 0.9. -/
def euroFeed : FxFetch := ⟨0, some ⟨some "success", .dict [("EUR", some 0.9)]⟩⟩

theorem germanCatalog_aligned : germanCatalog.Aligned asciiTables := by
  intro r hr
  obtain rfl := List.mem_singleton.mp hr
  decide +kernel

theorem curated_stickers_stay_iff_german :
    Runs.Always (Interleaving.step (countryAct asciiTables sweepAndAdmin))
          (AlignedWhenIdle asciiTables) (countryInit (Fin 2) germanCatalog)
          [(0, .feed euroFeed), (0, .run), (1, .run), (1, .run)] ∧
        Runs.EachMove (Interleaving.step (countryAct asciiTables sweepAndAdmin))
          (CuratedStays sweepAndAdmin) (countryInit (Fin 2) germanCatalog)
          [(0, .feed euroFeed), (0, .run), (1, .run), (1, .run)] ↔
      Runs.EachStep (Interleaving.step (countryAct asciiTables sweepAndAdmin)) FindsUncurated
        (countryInit (Fin 2) germanCatalog)
        [(0, .feed euroFeed), (0, .run), (1, .run), (1, .run)] :=
  curated_stickers_stay_iff germanCatalog_aligned _

/-- The sweep reads the row and the admin curates it to 19.99 EUR; what is left
is the bulk write of the sweep. -/
def curatedMidSweep : List (Fin 2 × CountryInput) := [(0, .feed euroFeed), (1, .run), (1, .run)]

/-- The bulk write sets the curated sticker to 17.99 EUR. -/
theorem sweep_moves_curated_sticker :
    ((Runs.run (Interleaving.step (countryAct asciiTables sweepAndAdmin))
        (countryInit (Fin 2) germanCatalog) curatedMidSweep).map
          fun s => s.shared.countryPrices.map fun r => (r.stickerMinor, r.isCurated))
      = some [(1999, true)] ∧
    ((Runs.run (Interleaving.step (countryAct asciiTables sweepAndAdmin))
        (countryInit (Fin 2) germanCatalog) (curatedMidSweep ++ [(0, .run)])).map
          fun s => s.shared.countryPrices.map fun r => (r.stickerMinor, r.isCurated))
      = some [(1799, true)] ∧
    ¬ (Runs.Always (Interleaving.step (countryAct asciiTables sweepAndAdmin))
          (AlignedWhenIdle asciiTables) (countryInit (Fin 2) germanCatalog)
          (curatedMidSweep ++ [(0, .run)]) ∧
        Runs.EachMove (Interleaving.step (countryAct asciiTables sweepAndAdmin))
          (CuratedStays sweepAndAdmin) (countryInit (Fin 2) germanCatalog)
          (curatedMidSweep ++ [(0, .run)])) := by
  have hbefore : ((Runs.run (Interleaving.step (countryAct asciiTables sweepAndAdmin))
      (countryInit (Fin 2) germanCatalog) curatedMidSweep).map
        fun s => s.shared.countryPrices.map fun r => (r.stickerMinor, r.isCurated))
      = some [(1999, true)] := by decide +kernel
  have hafter : ((Runs.run (Interleaving.step (countryAct asciiTables sweepAndAdmin))
      (countryInit (Fin 2) germanCatalog) (curatedMidSweep ++ [(0, .run)])).map
        fun s => s.shared.countryPrices.map fun r => (r.stickerMinor, r.isCurated))
      = some [(1799, true)] := by decide +kernel
  refine ⟨hbefore, hafter, ?_⟩
  rintro ⟨-, hmoves⟩
  obtain ⟨s, hs, hrow⟩ := Option.map_eq_some_iff.mp hbefore
  obtain ⟨s', hs', hrow'⟩ := Option.map_eq_some_iff.mp hafter
  obtain ⟨r, hr, hsticker⟩ := List.map_eq_singleton_iff.mp hrow
  obtain ⟨r', hr', hsticker'⟩ := List.map_eq_singleton_iff.mp hrow'
  have hstep : Interleaving.step (countryAct asciiTables sweepAndAdmin) s (0, .run) = some s' := by
    rw [Runs.run_append, hs] at hs'
    simpa [Runs.run_cons] using hs'
  obtain ⟨r₁, hr₁, -, hmoved⟩ := Runs.EachMove.of_run hmoves hs hstep (by simp [sweepAndAdmin]) r
    (by rw [hr]; exact List.mem_singleton.mpr rfl) (Prod.mk.inj hsticker).2
  rw [hr', List.mem_singleton] at hr₁
  rw [hr₁, (Prod.mk.inj hsticker).1, (Prod.mk.inj hsticker').1] at hmoved
  simp at hmoved

end Saasmint
