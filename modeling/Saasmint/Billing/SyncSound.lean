/-
Saasmint/Billing/SyncSound.lean

What a completed run of `sync_stripe_catalog` leaves under the lookup keys.

Where no two rows have the same key, a round leaves the prices under the keys of
the other rows alone, and finds the price under its own key as the prefetch knew
it.  So after a run the price under the key of a row is the one with the id on the
row, and it is what was asked for (`SyncRun.offerPriced`, `SyncRun.countryPriced`).
It is active unless the run found it archived.
-/
import Saasmint.Billing.ChargedAmounts

namespace Saasmint

open PyStr Programs

/-! ### The price under a key -/

/-- The price under the key is the one with the id, and is what is asked for.  It is
active unless there was an archived one in `s₀` that the row asks for. -/
def KeyPriced (s₀ s : StripeCatalog) (spec : PriceSpec) (id : String) : Prop :=
  ∃ p, s.priceByKey spec.key = some p ∧ p.id = id ∧ p.Matches spec ∧
    (p.active = true ↔ s₀.Usable spec)

section KeyPriced

variable {s₀ s₀' s s' : StripeCatalog} {spec : PriceSpec} {id : String}

theorem KeyPriced.congr (h : KeyPriced s₀ s spec id)
    (hs : s'.coreByKey spec.key = s.coreByKey spec.key) : KeyPriced s₀ s' spec id := by
  obtain ⟨p, hp, rfl, hm, hactive⟩ := h
  have hcore : s'.coreByKey spec.key = some p.core := by
    rw [hs, StripeCatalog.coreByKey, hp]
    rfl
  obtain ⟨q, hq, hqp⟩ := StripeCatalog.coreByKey_eq_some hcore
  have hid : q.core.id = p.core.id := by rw [hqp]
  have hactiveq : q.core.active = p.core.active := by rw [hqp]
  refine ⟨q, hq, hid, (StripePrice.matches_core hqp).mpr hm, ?_⟩
  rw [← hactive]
  exact iff_of_eq (congrArg (· = true) hactiveq)

theorem KeyPriced.of_usable (h : KeyPriced s₀ s spec id)
    (hs : s₀'.coreByKey spec.key = s₀.coreByKey spec.key) : KeyPriced s₀' s spec id := by
  obtain ⟨p, hp, hid, hm, hactive⟩ := h
  exact ⟨p, hp, hid, hm, hactive.trans (StripeCatalog.usable_congr hs).symm⟩

end KeyPriced

/-! ### Rounds and keys -/

section Rounds

variable {u : UnicodeTables} {env : SyncEnv} {existing : List (String × FetchedPrice)}
  {w w' : SyncWorld}

/-- The prefetch knows the price under a key, but for what has happened to its tax
behavior since. -/
def KnowsKey (existing : List (String × FetchedPrice)) (s : StripeCatalog) (key : String) : Prop :=
  (existing.lookup key).map (fun f => f.core) = s.coreByKey key

theorem upsertPrice_upserted {key currency : String} {unitAmount : Int} {item : SoldItem}
    {id : String} (hw : w.stripe.WellFormed) (hknows : KnowsKey existing w.stripe key)
    (h : upsertPrice env existing key unitAmount currency item w = .ok id w') :
    Upserted w (item.spec key unitAmount currency) id w' :=
  wp_ok (upsertPrice_spec (E := fun _ _ => True) (fun _ _ => trivial) hw hknows) h

theorem Upserted.keyPriced {spec : PriceSpec} {id : String} (h : Upserted w spec id w') :
    KeyPriced w.stripe w'.stripe spec id := h.price

/-- The prices under the other keys stay. -/
theorem ItemRound.coreByKey_of_ne {o : Offer} {key : String} (hw : w.stripe.WellFormed)
    (hknows : KnowsKey existing w.stripe o.key) (h : ItemRound u env existing o w w')
    (hne : key ≠ o.key) : w'.stripe.coreByKey key = w.stripe.coreByKey key := by
  cases h with
  | skipped _ hstripe _ => rw [hstripe]
  | upserted w₁ w₂ a id _ hstripe₁ _ hupsert _ hstripe _ =>
    rw [← hstripe₁] at hw hknows
    rw [hstripe, ← hstripe₁]
    exact (upsertPrice_upserted hw hknows hupsert).others key hne

/-- An offer with an amount is left with the price under its key. -/
theorem ItemRound.keyPriced {o : Offer} (hw : w.stripe.WellFormed)
    (hknows : KnowsKey existing w.stripe o.key) (hsold : o.item ∈ w.tables.sold u)
    (h : ItemRound u env existing o w w') {a : Int} (ha : w'.tables.offerAmount o = some a) :
    ∃ id, w'.tables.storedId o.rowKey = some id ∧ KeyPriced w.stripe w'.stripe (o.spec a) id := by
  cases h with
  | skipped _ _ hnone => cases hnone.symm.trans ha
  | upserted w₁ w₂ a' id hfx hstripe₁ hamount hupsert htables hstripe _ =>
    rw [← hstripe₁] at hw hknows
    have hupserted := upsertPrice_upserted hw hknows hupsert
    have htables₂ := (upsertPrice_ok hupsert).tables
    have hsold₁ : o.item ∈ w₁.tables.sold u := by
      have hsame := fxFirst_sameSold (u := u) env.feed o (w.tables, w.fetches)
      rw [← hfx] at hsame
      rwa [hsame.sold]
    have heq : a' = a := by
      rw [htables, CatalogTables.offerAmount_congr (CatalogTables.unstamped_stamp _ _ _), htables₂,
        hamount] at ha
      exact Option.some.inj ha
    subst heq
    refine ⟨id, ?_, ?_⟩
    · rw [htables, htables₂, CatalogTables.storedId_stamp, if_pos]
      refine ⟨rfl, holdsKey_rowKey hsold₁ ?_⟩
      rw [hamount]
      rfl
    · rw [hstripe, ← hstripe₁]
      exact hupserted.keyPriced

/-- The key of a country row of an item. -/
def countryKey (u : UnicodeTables) (item : SoldItem) (cp : CountryPrice) : String :=
  countryLookupKey u item.baseKey cp.country

theorem CountryRound.coreByKey_of_ne {cp : CountryPrice} {item : SoldItem} {key : String}
    (hw : w.stripe.WellFormed) (hitem : w.tables.soldItem u cp.owner = some item)
    (hknows : KnowsKey existing w.stripe (countryKey u item cp))
    (h : CountryRound u env existing cp w w') (hne : key ≠ countryKey u item cp) :
    w'.stripe.coreByKey key = w.stripe.coreByKey key := by
  cases h with
  | upserted item' cp' w₁ w₂ id hitem' _ _ hstripe₁ _ hupsert _ hstripe _ =>
    obtain rfl := Option.some.inj (hitem'.symm.trans hitem)
    rw [← hstripe₁] at hw hknows
    rw [hstripe, ← hstripe₁]
    exact (upsertPrice_upserted hw hknows hupsert).others key hne

/-- What Stripe is to have for a country row of an item. -/
def countrySpec (u : UnicodeTables) (item : SoldItem) (cp : CountryPrice) : PriceSpec :=
  item.spec (countryKey u item cp) cp.baseMinor cp.currency

/-- A country row is left with its base, and with the price under its key. -/
theorem CountryRound.keyPriced {cp : CountryPrice} {item : SoldItem} (hw : w.stripe.WellFormed)
    (hitem : w.tables.soldItem u cp.owner = some item)
    (hknows : KnowsKey existing w.stripe (countryKey u item cp))
    (hrow : w.tables.countryRow cp.owner cp.country = some cp)
    (h : CountryRound u env existing cp w w') :
    ∃ cp' id, cp.recomputeBase u = .ok cp' ∧
      w'.tables.countryRow cp.owner cp.country = some { cp' with stripePriceId := some id } ∧
      KeyPriced w.stripe w'.stripe (countrySpec u item cp') id := by
  cases h with
  | upserted item' cp' w₁ w₂ id hitem' hbase htables₁ hstripe₁ _ hupsert htables hstripe _ =>
    obtain rfl := Option.some.inj (hitem'.symm.trans hitem)
    rw [← hstripe₁] at hw hknows
    have hupserted := upsertPrice_upserted hw hknows hupsert
    obtain ⟨base, -, rfl⟩ := CountryPrice.recomputeBase_spec u hbase
    refine ⟨_, id, hbase, ?_, ?_⟩
    · rw [htables, (upsertPrice_ok hupsert).tables, htables₁]
      show (Table.update CountryPrice.key cp.key _ (Table.update CountryPrice.key cp.key _
        w.tables.countryPrices)).find? (fun r => r.key = cp.key) = _
      have hrow : w.tables.countryPrices.find? (fun r => r.key = cp.key) = some cp := hrow
      rw [find?_update (by exact fun _ => rfl), find?_update (by exact fun _ => rfl), hrow]
      simp
    · rw [hstripe, ← hstripe₁]
      exact hupserted.keyPriced

/-! #### Archived prices -/

/-- No price under a key is archived. -/
def StripeCatalog.KeyedActive (s : StripeCatalog) : Prop :=
  ∀ key p, s.priceByKey key = some p → p.active = true

theorem StripeCatalog.KeyedActive.usable {s : StripeCatalog} (h : s.KeyedActive)
    (spec : PriceSpec) :
    s.Usable spec := fun p hp _ => h spec.key p hp

/-- A price that is put under its key is active. -/
theorem StripeCatalog.KeyedActive.of_keyPriced {s s' : StripeCatalog}
    {spec : PriceSpec} {id : String}
    (hs : s.KeyedActive) (hpriced : KeyPriced s s' spec id)
    (hothers : ∀ key, key ≠ spec.key → s'.coreByKey key = s.coreByKey key) : s'.KeyedActive := by
  intro key p hp
  by_cases hkey : key = spec.key
  · obtain ⟨q, hq, -, -, hactive⟩ := hpriced
    rw [hkey] at hp
    obtain rfl := Option.some.inj (hp.symm.trans hq)
    exact hactive.mpr (hs.usable spec)
  · have hcore : s.coreByKey key = some p.core := by
      rw [← hothers key hkey, StripeCatalog.coreByKey, hp]
      rfl
    obtain ⟨q, hq, hqp⟩ := StripeCatalog.coreByKey_eq_some hcore
    have hactive : q.core.active = p.core.active := by rw [hqp]
    exact hactive.symm.trans (hs key q hq)

theorem ItemRound.keyedActive {o : Offer} (hw : w.stripe.WellFormed)
    (hknows : KnowsKey existing w.stripe o.key) (h : ItemRound u env existing o w w')
    (hs : w.stripe.KeyedActive) : w'.stripe.KeyedActive := by
  cases h with
  | skipped _ hstripe _ =>
    rw [hstripe]
    exact hs
  | upserted w₁ w₂ a id _ hstripe₁ _ hupsert _ hstripe _ =>
    rw [← hstripe₁] at hw hknows hs
    have hupserted := upsertPrice_upserted hw hknows hupsert
    rw [hstripe]
    exact hs.of_keyPriced hupserted.keyPriced hupserted.others

theorem CountryRound.keyedActive {cp : CountryPrice} {item : SoldItem} (hw : w.stripe.WellFormed)
    (hitem : w.tables.soldItem u cp.owner = some item)
    (hknows : KnowsKey existing w.stripe (countryKey u item cp))
    (h : CountryRound u env existing cp w w') (hs : w.stripe.KeyedActive) :
    w'.stripe.KeyedActive := by
  cases h with
  | upserted item' cp' w₁ w₂ id hitem' _ _ hstripe₁ _ hupsert _ hstripe _ =>
    obtain rfl := Option.some.inj (hitem'.symm.trans hitem)
    rw [← hstripe₁] at hw hknows hs
    have hupserted := upsertPrice_upserted hw hknows hupsert
    rw [hstripe]
    exact hs.of_keyPriced hupserted.keyPriced hupserted.others

end Rounds

/-! ### Rows with keys of their own -/

section Apart

variable {u : UnicodeTables} {st : Settings} {t t' : CatalogTables}

/-- No two rows of a run have the same lookup key. -/
structure CatalogTables.RowsApart (u : UnicodeTables) (st : Settings)
    (t : CatalogTables) : Prop where
  offers : ((t.offers u st).map Offer.key).Nodup
  countries : ∀ cp ∈ t.activeCountryPrices, ∀ cp' ∈ t.activeCountryPrices, ∀ item item',
    t.soldItem u cp.owner = some item → t.soldItem u cp'.owner = some item' →
    countryKey u item cp = countryKey u item' cp' → cp.key = cp'.key
  apart : ∀ o ∈ t.offers u st, ∀ cp ∈ t.activeCountryPrices, ∀ item,
    t.soldItem u cp.owner = some item → countryKey u item cp ≠ o.key

theorem rowsApart_of_nodup (h : (t.rowLookupKeys u st).Nodup) : t.RowsApart u st := by
  obtain ⟨hoffers, hcountries, hdisjoint⟩ := List.nodup_append'.mp h
  have hkey : ∀ {cp : CountryPrice} {item : SoldItem}, t.soldItem u cp.owner = some item →
      ((t.soldItem u cp.owner).map fun item => countryLookupKey u item.baseKey cp.country)
        = some (countryKey u item cp) := by
    intro cp item hitem
    rw [hitem]
    rfl
  refine ⟨hoffers, fun cp hcp cp' hcp' item item' hitem hitem' heq => ?_,
    fun o ho cp hcp item hitem heq => ?_⟩
  · rw [Table.Unique.inj hcountries hcp hcp' (hkey hitem) (heq ▸ hkey hitem')]
  · refine hdisjoint (List.mem_map.mpr ⟨o, ho, rfl⟩) (List.mem_filterMap.mpr ⟨cp, hcp, ?_⟩)
    rw [← heq]
    exact hkey hitem

/-- The same rows, perhaps at other amounts. -/
structure CatalogTables.SameRows (t t' : CatalogTables) : Prop where
  sameSold : t.SameSold t'
  countryKeys : t'.countryPrices.map CountryPrice.key = t.countryPrices.map CountryPrice.key

namespace CatalogTables.SameRows

theorem refl (t : CatalogTables) : t.SameRows t := ⟨.refl t, rfl⟩

theorem trans {t'' : CatalogTables} (h : t.SameRows t') (h' : t'.SameRows t'') : t.SameRows t'' :=
  ⟨h.sameSold.trans h'.sameSold, h'.countryKeys.trans h.countryKeys⟩

theorem of_unstamped (h : t'.unstamped = t.unstamped) : t.SameRows t' where
  sameSold := .of_unstamped h
  countryKeys := by
    have hkeys : ∀ t : CatalogTables,
        t.unstamped.countryPrices.map CountryPrice.key = t.countryPrices.map CountryPrice.key := by
      intro t
      show (t.countryPrices.map CountryPrice.unstamped).map CountryPrice.key = _
      rw [List.map_map]
      rfl
    rw [← hkeys t', h, hkeys]

theorem afterFx (t : CatalogTables) (fetch : FxFetch) : t.SameRows (t.afterFx u fetch) where
  sameSold := .afterFx t fetch
  countryKeys := by
    unfold CatalogTables.afterFx
    rcases fetch.apiRates u with - | rates
    · rfl
    · show (t.countryPrices.map _).map CountryPrice.key = _
      rw [List.map_map]
      apply List.map_congr_left
      intro cp _
      obtain ⟨howner, hcountry, -⟩ := suggestCountryRow_key u t rates cp
      exact Prod.ext howner hcountry

theorem pass (t : CatalogTables) (feed : Nat → FxFetch) (fetches : Nat) (offers : List Offer) :
    t.SameRows (t.pass u feed fetches offers).tables := by
  induction offers using List.reverseRecOn with
  | nil => exact .refl t
  | append_singleton offers o ih =>
    rw [pass_concat]
    refine ih.trans ?_
    show CatalogTables.SameRows _ (fxFirst u feed o _).1
    unfold fxFirst
    split
    · exact .refl _
    · exact .afterFx _ _

/-- An active country row was there before. -/
theorem exists_activeCountryPrice (h : t.SameRows t') {cp : CountryPrice}
    (hcp : cp ∈ t'.activeCountryPrices) : ∃ cp₀ ∈ t.activeCountryPrices, cp₀.key = cp.key := by
  obtain ⟨hmem, hactive⟩ := CatalogTables.mem_activeCountryPrices.mp hcp
  have hkey : cp.key ∈ t.countryPrices.map CountryPrice.key := by
    rw [← h.countryKeys]
    exact List.mem_map_of_mem hmem
  obtain ⟨cp₀, hcp₀, hkey⟩ := List.mem_map.mp hkey
  refine ⟨cp₀, CatalogTables.mem_activeCountryPrices.mpr ⟨hcp₀, ?_⟩, hkey⟩
  rw [show cp₀.owner = cp.owner from congrArg Prod.fst hkey, ← h.sameSold.activeOwner]
  exact hactive

theorem countryKey_eq {item : SoldItem} {cp cp₀ : CountryPrice} (h : cp₀.key = cp.key) :
    countryKey u item cp₀ = countryKey u item cp := by
  unfold countryKey
  rw [show cp₀.country = cp.country from congrArg Prod.snd h]

theorem rowsApart (h : t.SameRows t') (hapart : t.RowsApart u st) : t'.RowsApart u st where
  offers := by
    rw [h.sameSold.offers]
    exact hapart.offers
  countries cp hcp cp' hcp' item item' hitem hitem' heq := by
    obtain ⟨cp₀, hcp₀, hkey⟩ := h.exists_activeCountryPrice hcp
    obtain ⟨cp₀', hcp₀', hkey'⟩ := h.exists_activeCountryPrice hcp'
    rw [h.sameSold.soldItem, ← show cp₀.owner = cp.owner from congrArg Prod.fst hkey] at hitem
    rw [h.sameSold.soldItem, ← show cp₀'.owner = cp'.owner from congrArg Prod.fst hkey'] at hitem'
    rw [← countryKey_eq hkey, ← countryKey_eq hkey'] at heq
    rw [← hkey, ← hkey', hapart.countries cp₀ hcp₀ cp₀' hcp₀' item item' hitem hitem' heq]
  apart o ho cp hcp item hitem := by
    obtain ⟨cp₀, hcp₀, hkey⟩ := h.exists_activeCountryPrice hcp
    rw [h.sameSold.offers] at ho
    rw [h.sameSold.soldItem, ← show cp₀.owner = cp.owner from congrArg Prod.fst hkey] at hitem
    rw [← countryKey_eq hkey]
    exact hapart.apart o ho cp₀ hcp₀ item hitem

end CatalogTables.SameRows

/-- The prefetch asks for the key of every country row. -/
theorem countryKey_mem_collectLookupKeys {cp : CountryPrice} {item : SoldItem}
    (hcp : cp ∈ t.activeCountryPrices) (hitem : t.soldItem u cp.owner = some item)
    (currencies : List String) : countryKey u item cp ∈ t.collectLookupKeys u currencies := by
  refine List.mem_append_right _ (List.mem_filterMap.mpr ⟨cp, hcp, ?_⟩)
  rw [hitem]
  rfl

end Apart

/-! ### The run -/

section Run

variable {u : UnicodeTables} {st : Settings} {env : SyncEnv}
  {existing : List (String × FetchedPrice)} {w w₀ w₁ w' : SyncWorld}

theorem knowsKey_of_page {keys : List String} {key : String} {s : StripeCatalog}
    (h : PageOf existing keys w.stripe) (hkey : key ∈ keys)
    (hs : s.coreByKey key = w.stripe.coreByKey key) : KnowsKey existing s key := by
  unfold KnowsKey
  rw [hs, StripeCatalog.coreByKey, ← h.fetched key hkey, Option.map_map]
  rfl

/-- After some offers of a run: the prices under their keys are theirs, and the
prices under the other keys are as the prefetch knows them. -/
structure Keyed (u : UnicodeTables) (env : SyncEnv) (existing : List (String × FetchedPrice))
    (w : SyncWorld) (done : List Offer) (w' : SyncWorld) : Prop where
  follows : Follows u env existing w done w'
  others : ∀ key, key ∉ done.map Offer.key → w'.stripe.coreByKey key = w.stripe.coreByKey key
  priced : ∀ o a, (w.tables.pass u env.feed w.fetches done).sent.lookup o = some a →
    ∃ id, w'.tables.storedId o.rowKey = some id ∧ KeyPriced w.stripe w'.stripe (o.spec a) id

/-- The key of an offer is of no offer before it. -/
theorem key_not_mem_done (hapart : w.tables.RowsApart u st) {done rest : List Offer} {o : Offer}
    (hl : w.tables.offers u st = done ++ o :: rest) : o.key ∉ done.map Offer.key := by
  have hnodup := hapart.offers
  rw [hl, List.map_append, List.map_cons, List.nodup_append'] at hnodup
  exact fun hmem => hnodup.2.2 hmem (List.mem_cons_self ..)

theorem Keyed.knowsKey (hapart : w.tables.RowsApart u st)
    (hpage : PageOf existing (w.tables.collectLookupKeys u st.billingCurrencies) w.stripe)
    {done rest : List Offer} {o : Offer} (hl : w.tables.offers u st = done ++ o :: rest)
    (h : Keyed u env existing w done w₁) : KnowsKey existing w₁.stripe o.key := by
  have ho : o ∈ w.tables.offers u st := by
    rw [hl]
    simp
  exact knowsKey_of_page hpage (key_mem_collectLookupKeys ho)
    (h.others o.key (key_not_mem_done hapart hl))

theorem Keyed.round (hw : w.stripe.WellFormed) (hapart : w.tables.RowsApart u st)
    (hpage : PageOf existing (w.tables.collectLookupKeys u st.billingCurrencies) w.stripe)
    {done rest : List Offer} {o : Offer} (hl : w.tables.offers u st = done ++ o :: rest)
    (h : Keyed u env existing w done w₁) (hround : ItemRound u env existing o w₁ w') :
    Keyed u env existing w (done ++ [o]) w' := by
  have ho : o ∈ w.tables.offers u st := by
    rw [hl]
    simp
  have hdone : ∀ o' ∈ done, o' ∈ w.tables.offers u st := by
    intro o' ho'
    rw [hl]
    exact List.mem_append_left _ ho'
  have hw₁ : w₁.stripe.WellFormed := h.follows.grows.wellFormed hw
  have hnew := key_not_mem_done hapart hl
  have hknows := h.knowsKey hapart hpage hl
  have hfollows := h.follows.round st (hpage.known hw) hdone ho hround
  refine ⟨hfollows, fun key hkey => ?_, fun o' a hsent => ?_⟩
  · rw [List.map_append, List.mem_append, not_or, List.map_singleton, List.mem_singleton] at hkey
    rw [hround.coreByKey_of_ne hw₁ hknows hkey.2]
    exact h.others key hkey.1
  · rw [pass_concat, lookup_turn] at hsent
    split at hsent
    · -- the offer of the round
      rename_i heq
      subst heq
      have hnone : (w.tables.pass u env.feed w.fetches done).sent.lookup o' = none := by
        by_contra hsome
        obtain ⟨a', ha'⟩ := Option.ne_none_iff_exists'.mp hsome
        exact hnew (List.mem_map.mpr ⟨o', mem_of_sent ha', rfl⟩)
      rw [hnone, Option.or_none, ← pass_concat,
        ← CatalogTables.offerAmount_congr hfollows.tables] at hsent
      have hsold : o'.item ∈ w₁.tables.sold u := by
        have hsame : w.tables.SameSold w₁.tables :=
          pass_sameSold.trans (.of_unstamped h.follows.tables)
        rw [hsame.sold]
        exact (mem_offers.mp ho).2
      obtain ⟨id, hid, hpriced⟩ := hround.keyPriced hw₁ hknows hsold hsent
      exact ⟨id, hid, hpriced.of_usable (h.others o'.key hnew).symm⟩
    · -- an offer of an earlier round
      rename_i hne
      obtain ⟨id, hid, hpriced⟩ := h.priced o' a hsent
      have hmem := mem_of_sent hsent
      refine ⟨id, ?_, hpriced.congr ?_⟩
      · rw [hround.storedId_of_ne]
        · exact hid
        · intro hkey
          exact hne (rowKey_inj w.catalog.constraints (hdone o' hmem) ho hkey)
      · apply hround.coreByKey_of_ne hw₁ hknows
        intro hkey
        have hkey : o'.key = o.key := hkey
        exact hnew (hkey ▸ List.mem_map_of_mem hmem)

theorem SyncRun.keyed_nil (h : SyncRun u env st existing w w₀ w₁ w') :
    Keyed u env existing w [] w₀ := by
  have htables : w₀.tables = w.tables := congrArg Catalog.toCatalogTables h.alike.catalog
  refine ⟨⟨?_, h.alike.fetches, ?_, nofun, fun _ _ => ?_⟩, fun _ _ => ?_, nofun⟩
  · rw [htables]
    rfl
  · rw [h.stripe]
    exact .refl _
  · rw [htables]
  · rw [h.stripe]

/-- **The rounds of the offers.** -/
theorem SyncRun.keyed (hw : w.stripe.WellFormed) (hapart : w.tables.RowsApart u st)
    (h : SyncRun u env st existing w w₀ w₁ w') :
    Keyed u env existing w (w.tables.offers u st) w₁ := by
  refine h.items.invariant (I := Keyed u env existing w) ?_ h.keyed_nil
  intro done o rest s s' hl hkeyed hround
  exact hkeyed.round hw hapart h.prefetch hl hround

/-! #### The country rows -/

/-- A country row that a run has left, with the price under its key. -/
def CountryPriced (u : UnicodeTables) (w₁ s : SyncWorld) (cp : CountryPrice) : Prop :=
  ∃ item cp' id, w₁.tables.soldItem u cp.owner = some item ∧ cp.recomputeBase u = .ok cp' ∧
    s.tables.countryRow cp.owner cp.country = some { cp' with stripePriceId := some id } ∧
    KeyPriced w₁.stripe s.stripe (countrySpec u item cp') id

/-- After some country rows of a run. -/
structure CountriesKeyed (u : UnicodeTables) (w₁ : SyncWorld) (done : List CountryPrice)
    (s : SyncWorld) : Prop where
  sameSold : w₁.tables.SameSold s.tables
  grows : w₁.stripe.Grows s.stripe
  others : ∀ key, (∀ cp ∈ done, ∀ item, w₁.tables.soldItem u cp.owner = some item →
    key ≠ countryKey u item cp) → s.stripe.coreByKey key = w₁.stripe.coreByKey key
  priced : ∀ cp ∈ done, CountryPriced u w₁ s cp
  rest : ∀ cp ∈ w₁.tables.activeCountryPrices, cp.key ∉ done.map CountryPrice.key →
    s.tables.countryRow cp.owner cp.country = some cp

theorem countrySpec_recomputeBase {item : SoldItem} {cp cp' : CountryPrice}
    (h : cp.recomputeBase u = .ok cp') : (countrySpec u item cp').key = countryKey u item cp := by
  obtain ⟨base, -, rfl⟩ := CountryPrice.recomputeBase_spec u h
  rfl

/-- What a round of a country row begins with. -/
structure CountryTurn (u : UnicodeTables) (existing : List (String × FetchedPrice))
    (w₁ s : SyncWorld)
    (cp : CountryPrice) (item : SoldItem) : Prop where
  sold₁ : w₁.tables.soldItem u cp.owner = some item
  sold : s.tables.soldItem u cp.owner = some item
  stays : s.stripe.coreByKey (countryKey u item cp) = w₁.stripe.coreByKey (countryKey u item cp)
  knows : KnowsKey existing s.stripe (countryKey u item cp)

section CountryTurn

variable {s s' : SyncWorld} {done rest : List CountryPrice} {cp : CountryPrice}

/-- The country rows before a row are other rows. -/
theorem countryKey_ne_done (hl : w₁.tables.activeCountryPrices = done ++ cp :: rest) :
    ∀ r ∈ done, r.key ≠ cp.key := by
  have hkeys := CatalogTables.activeCountryPrices_keys w₁.catalog.constraints
  rw [hl, List.map_append, List.map_cons, List.nodup_append'] at hkeys
  intro r hr hkey
  exact hkeys.2.2 (List.mem_map.mpr ⟨r, hr, hkey⟩) (List.mem_cons_self ..)

theorem CountriesKeyed.turn (hapart : w₁.tables.RowsApart u st)
    (hknown : ∀ cp ∈ w₁.tables.activeCountryPrices, ∀ item,
      w₁.tables.soldItem u cp.owner = some item →
      KnowsKey existing w₁.stripe (countryKey u item cp))
    (hl : w₁.tables.activeCountryPrices = done ++ cp :: rest) (h : CountriesKeyed u w₁ done s)
    (hround : CountryRound u env existing cp s s') :
    ∃ item, CountryTurn u existing w₁ s cp item := by
  have hmem : ∀ r ∈ done ++ [cp], r ∈ w₁.tables.activeCountryPrices := by
    intro r hr
    rw [hl, List.append_cons]
    exact List.mem_append_left _ hr
  obtain ⟨item, hitem⟩ : ∃ item, s.tables.soldItem u cp.owner = some item := by
    cases hround with
    | upserted item _ _ _ _ hitem _ _ _ _ _ _ _ _ => exact ⟨item, hitem⟩
  have hitem₁ : w₁.tables.soldItem u cp.owner = some item := by
    rw [← h.sameSold.soldItem]
    exact hitem
  -- the key of the row is of no row before it
  have hstays : s.stripe.coreByKey (countryKey u item cp)
      = w₁.stripe.coreByKey (countryKey u item cp) := by
    refine h.others _ fun r hr item' hitem' hkey => ?_
    exact countryKey_ne_done hl r hr (hapart.countries cp (hmem cp (by simp)) r
      (hmem r (List.mem_append_left _ hr)) item item' hitem₁ hitem' hkey).symm
  refine ⟨item, hitem₁, hitem, hstays, ?_⟩
  unfold KnowsKey
  rw [hstays]
  exact hknown cp (hmem cp (by simp)) item hitem₁

theorem CountriesKeyed.round (hw₁ : w₁.stripe.WellFormed)
    (hapart : w₁.tables.RowsApart u st)
    (hknown : ∀ cp ∈ w₁.tables.activeCountryPrices, ∀ item,
      w₁.tables.soldItem u cp.owner = some item →
      KnowsKey existing w₁.stripe (countryKey u item cp))
    (hl : w₁.tables.activeCountryPrices = done ++ cp :: rest) (h : CountriesKeyed u w₁ done s)
    (hround : CountryRound u env existing cp s s') : CountriesKeyed u w₁ (done ++ [cp]) s' := by
  obtain ⟨item, hturn⟩ := h.turn hapart hknown hl hround
  have hcp : cp ∈ w₁.tables.activeCountryPrices := by
    rw [hl]
    simp
  have hnew := countryKey_ne_done hl
  have hwₛ : s.stripe.WellFormed := h.grows.wellFormed hw₁
  refine ⟨h.sameSold.trans hround.sameSold, h.grows.trans hround.grows, fun key hkey => ?_,
    fun r hr => ?_, fun r hr hnot => ?_⟩
  · have hne : key ≠ countryKey u item cp := hkey cp (by simp) item hturn.sold₁
    rw [hround.coreByKey_of_ne hwₛ hturn.sold hturn.knows hne]
    exact h.others key fun r hr => hkey r (List.mem_append_left _ hr)
  · rcases List.mem_append.mp hr with hr | hr
    · obtain ⟨item', r', id, hitem', hbase, hrow, hpriced⟩ := h.priced r hr
      have hmem : r ∈ w₁.tables.activeCountryPrices := by
        rw [hl]
        exact List.mem_append_left _ hr
      refine ⟨item', r', id, hitem', hbase, ?_, hpriced.congr ?_⟩
      · rw [hround.countryRow_of_ne]
        · exact hrow
        · exact hnew r hr
      · apply hround.coreByKey_of_ne hwₛ hturn.sold hturn.knows
        rw [countrySpec_recomputeBase hbase]
        intro hkey
        exact hnew r hr (hapart.countries r hmem cp hcp item' item hitem' hturn.sold₁ hkey)
    · rw [List.mem_singleton.mp hr]
      have hcpₛ : s.tables.countryRow cp.owner cp.country = some cp := by
        refine h.rest cp hcp fun hmem => ?_
        obtain ⟨r, hr, hkey⟩ := List.mem_map.mp hmem
        exact hnew r hr hkey
      obtain ⟨cp', id, hbase, hrow, hpriced⟩ := hround.keyPriced hwₛ hturn.sold hturn.knows hcpₛ
      refine ⟨item, cp', id, hturn.sold₁, hbase, hrow, hpriced.of_usable ?_⟩
      rw [countrySpec_recomputeBase hbase]
      exact hturn.stays.symm
  · rw [List.map_append, List.mem_append, not_or, List.map_singleton, List.mem_singleton] at hnot
    rw [hround.countryRow_of_ne hnot.2]
    exact h.rest r hr hnot.1

end CountryTurn

/-- The tables are at the same rows when the run comes to the country rows. -/
theorem SyncRun.sameRows (hw : w.stripe.WellFormed) (h : SyncRun u env st existing w w₀ w₁ w') :
    w.tables.SameRows w₁.tables :=
  (CatalogTables.SameRows.pass _ _ _ _).trans (.of_unstamped (h.follows hw).tables)

/-- The prefetch still knows the price under the key of a country row. -/
theorem SyncRun.knowsCountry (hw : w.stripe.WellFormed) (hapart : w.tables.RowsApart u st)
    (h : SyncRun u env st existing w w₀ w₁ w') {cp : CountryPrice} {item : SoldItem}
    (hcp : cp ∈ w₁.tables.activeCountryPrices) (hitem : w₁.tables.soldItem u cp.owner = some item) :
    KnowsKey existing w₁.stripe (countryKey u item cp) ∧
      w₁.stripe.coreByKey (countryKey u item cp) = w.stripe.coreByKey (countryKey u item cp) := by
  have hrows := h.sameRows hw
  obtain ⟨cp₀, hcp₀, hkey⟩ := hrows.exists_activeCountryPrice hcp
  rw [hrows.sameSold.soldItem, ← show cp₀.owner = cp.owner from congrArg Prod.fst hkey] at hitem
  have hstays : w₁.stripe.coreByKey (countryKey u item cp)
      = w.stripe.coreByKey (countryKey u item cp) := by
    refine (h.keyed hw hapart).others _ fun hmem => ?_
    obtain ⟨o, ho, hokey⟩ := List.mem_map.mp hmem
    refine hapart.apart o ho cp₀ hcp₀ item hitem ?_
    rw [CatalogTables.SameRows.countryKey_eq hkey]
    exact hokey.symm
  refine ⟨knowsKey_of_page h.prefetch ?_ hstays, hstays⟩
  rw [← CatalogTables.SameRows.countryKey_eq hkey]
  exact countryKey_mem_collectLookupKeys hcp₀ hitem _

theorem countriesKeyed_nil (w₁ : SyncWorld) : CountriesKeyed u w₁ [] w₁ := by
  refine ⟨.refl _, .refl _, fun _ _ => rfl, nofun, fun cp hcp _ => ?_⟩
  exact (CatalogTables.countryRow_eq_some_iff w₁.catalog.constraints).mpr
    ⟨(CatalogTables.mem_activeCountryPrices.mp hcp).1, rfl, rfl⟩

/-- **The rounds of the country rows.** -/
theorem SyncRun.countriesKeyed (hw : w.stripe.WellFormed) (hapart : w.tables.RowsApart u st)
    (h : SyncRun u env st existing w w₀ w₁ w') :
    CountriesKeyed u w₁ w₁.tables.activeCountryPrices w' := by
  have hw₁ : w₁.stripe.WellFormed := (h.follows hw).grows.wellFormed hw
  refine h.countries.invariant (I := CountriesKeyed u w₁) ?_ (countriesKeyed_nil w₁)
  intro done cp rest s s' hl hkeyed hround
  exact hkeyed.round hw₁ ((h.sameRows hw).rowsApart hapart)
    (fun r hr item hitem => (h.knowsCountry hw hapart hr hitem).1) hl hround

/-- **No run archives a price under a key**, unless it is cut off. -/
theorem SyncRun.keyedActive (hw : w.stripe.WellFormed) (hapart : w.tables.RowsApart u st)
    (h : SyncRun u env st existing w w₀ w₁ w') (hs : w.stripe.KeyedActive) :
    w'.stripe.KeyedActive := by
  have hw₁ : w₁.stripe.WellFormed := (h.follows hw).grows.wellFormed hw
  have hitems := h.items.invariant
    (I := fun done s => Keyed u env existing w done s ∧ s.stripe.KeyedActive) ?_ ?_
  · have hcountries := h.countries.invariant
      (I := fun done s => CountriesKeyed u w₁ done s ∧ s.stripe.KeyedActive) ?_ ?_
    · exact hcountries.2
    · rintro done cp rest s s' hl ⟨hkeyed, hactive⟩ hround
      have hapart₁ := (h.sameRows hw).rowsApart hapart
      have hknown : ∀ cp ∈ w₁.tables.activeCountryPrices, ∀ item,
          w₁.tables.soldItem u cp.owner = some item →
          KnowsKey existing w₁.stripe (countryKey u item cp) :=
        fun r hr item hitem => (h.knowsCountry hw hapart hr hitem).1
      obtain ⟨item, hturn⟩ := hkeyed.turn hapart₁ hknown hl hround
      exact ⟨hkeyed.round hw₁ hapart₁ hknown hl hround,
        hround.keyedActive (hkeyed.grows.wellFormed hw₁) hturn.sold hturn.knows hactive⟩
    · exact ⟨countriesKeyed_nil w₁, hitems.2⟩
  · rintro done o rest s s' hl ⟨hkeyed, hactive⟩ hround
    exact ⟨hkeyed.round hw hapart h.prefetch hl hround,
      hround.keyedActive (hkeyed.follows.grows.wellFormed hw) (hkeyed.knowsKey hapart h.prefetch hl)
        hactive⟩
  · refine ⟨h.keyed_nil, ?_⟩
    rw [h.stripe]
    exact hs

/-! #### The whole run -/

/-- **What a run leaves on the row of an offer** that it has sent. -/
theorem SyncRun.offerPriced (hw : w.stripe.WellFormed) (hapart : w.tables.RowsApart u st)
    (h : SyncRun u env st existing w w₀ w₁ w') {o : Offer} {a : Int}
    (hsent : (w.pass u st env).sent.lookup o = some a) :
    ∃ id, w'.tables.storedId o.rowKey = some id ∧ KeyPriced w.stripe w'.stripe (o.spec a) id := by
  obtain ⟨id, hid, hpriced⟩ := (h.keyed hw hapart).priced o a hsent
  refine ⟨id, ?_, hpriced.congr ?_⟩
  · rw [h.countriesOnly.storedId _ (rowKey_ne_country o)]
    exact hid
  · refine (h.countriesKeyed hw hapart).others _ fun cp hcp item hitem hkey => ?_
    have ho : o ∈ w₁.tables.offers u st := by
      rw [(h.sameRows hw).sameSold.offers]
      exact mem_of_sent hsent
    exact ((h.sameRows hw).rowsApart hapart).apart o ho cp hcp item hitem hkey.symm

/-- A country row of an active owner, as its round has left it. -/
theorem SyncRun.exists_countryPriced (hw : w.stripe.WellFormed) (hapart : w.tables.RowsApart u st)
    (h : SyncRun u env st existing w w₀ w₁ w') {r : CountryPrice}
    (hr : r ∈ w'.tables.activeCountryPrices) :
    ∃ cp ∈ w₁.tables.activeCountryPrices, ∃ item cp' id,
      w₁.tables.soldItem u cp.owner = some item ∧ cp.recomputeBase u = .ok cp' ∧
      r = { cp' with stripePriceId := some id } ∧ r.owner = cp.owner ∧
      KeyPriced w₁.stripe w'.stripe (countrySpec u item cp') id := by
  have hrows : w₁.tables.SameRows w'.tables :=
    ⟨h.countriesOnly.sameSold, h.countriesOnly.countryKeys⟩
  obtain ⟨cp, hcp, hkey⟩ := hrows.exists_activeCountryPrice hr
  obtain ⟨howner, hcountry⟩ := Prod.mk.inj hkey
  obtain ⟨item, cp', id, hitem, hbase, hleft, hpriced⟩ := (h.countriesKeyed hw hapart).priced cp hcp
  rw [howner, hcountry, (CatalogTables.countryRow_eq_some_iff w'.catalog.constraints).mpr
    ⟨(CatalogTables.mem_activeCountryPrices.mp hr).1, rfl, rfl⟩] at hleft
  exact ⟨cp, hcp, item, cp', id, hitem, hbase, Option.some.inj hleft, howner.symm, hpriced⟩

/-- **What a run leaves on a country row** of an active owner. -/
theorem SyncRun.countryPriced (hw : w.stripe.WellFormed) (hapart : w.tables.RowsApart u st)
    (h : SyncRun u env st existing w w₀ w₁ w') {r : CountryPrice}
    (hr : r ∈ w'.tables.activeCountryPrices) :
    ∃ item id, w'.tables.soldItem u r.owner = some item ∧ r.stripePriceId = some id ∧ r.Aligned u ∧
      KeyPriced w.stripe w'.stripe (countrySpec u item r) id := by
  obtain ⟨cp, hcp, item, cp', id, hitem, hbase, rfl, howner, hpriced⟩ :=
    h.exists_countryPriced hw hapart hr
  have haligned := (CountryPrice.aligned_of_recomputeBase hbase).1
  refine ⟨item, id, ?_, rfl, haligned, hpriced.of_usable ?_⟩
  · rw [h.countriesOnly.sameSold.soldItem, howner]
    exact hitem
  · show w.stripe.coreByKey (countrySpec u item cp').key
        = w₁.stripe.coreByKey (countrySpec u item cp').key
    rw [countrySpec_recomputeBase hbase]
    exact (h.knowsCountry hw hapart hcp hitem).2.symm

end Run

end Saasmint
