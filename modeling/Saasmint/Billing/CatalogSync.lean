/-
Saasmint/Billing/CatalogSync.lean

When a run of `sync_stripe_catalog` with a working FX feed mirrors the catalog.

Where the feed has a rate for each billing currency, a run calls the FX job at
most once: for the first offer that has no row, after which each of them has one
(`SyncWorld.pass_eq`).  A completed run then leaves each row that it handles on an
active price that is what the row asks for, and the next run has nothing to do,
exactly if that call leaves the amounts that have been sent before it, and no
archived price under the key of a row is what the row asks for
(`catalog_sync_iff`).  A run that is cut off between the archiving of a price and
the creation of the next leaves such a price behind, and rates that have moved since
the last run move amounts that are in Stripe already (`catalog_not_synced`).
-/
import Saasmint.Billing.SettledCatalog

namespace Saasmint

open PyStr Programs

variable {u : UnicodeTables} {st : Settings}

/-! ### The bootstrap -/

/-- The feed answers with a rate for each billing currency. -/
def FxFetch.Covers (u : UnicodeTables) (st : Settings) (fetch : FxFetch) : Prop :=
  ∀ currency ∈ st.billingCurrencies, currency ≠ "usd" →
    ((fetch.apiRates u).bind (List.lookup currency)).isSome = true

namespace CatalogTables

/-- The offers before the first one that has no row. -/
def offersBeforeBootstrap (u : UnicodeTables) (st : Settings) (t : CatalogTables) : List Offer :=
  (t.offers u st).takeWhile fun o => (t.offerAmount o).isSome

/-- The tables once each offer has a row: the FX job is called if one has none. -/
def bootstrapped (u : UnicodeTables) (st : Settings) (fetch : FxFetch)
    (t : CatalogTables) : CatalogTables :=
  if ∀ o ∈ t.offers u st, (t.offerAmount o).isSome = true then t else t.afterFx u fetch

/-- The FX job leaves the amounts that have been sent when it is called. -/
def BootstrapKeeps (u : UnicodeTables) (st : Settings) (fetch : FxFetch)
    (t : CatalogTables) : Prop :=
  ∀ o ∈ t.offersBeforeBootstrap u st,
    (t.bootstrapped u st fetch).offerAmount o = t.offerAmount o

/-- What the rows ask of Stripe, the country rows once their base has been derived again. -/
def asked (u : UnicodeTables) (st : Settings) (t : CatalogTables) : List PriceSpec :=
  ((t.offers u st).filterMap fun o => (t.offerAmount o).map o.spec) ++
    t.activeCountryPrices.filterMap fun cp =>
      (t.soldItem u cp.owner).bind fun item =>
        (cp.recomputeBase u).toOption.map (countrySpec u item)

end CatalogTables

section Bootstrap

variable {t : CatalogTables} {fetch : FxFetch}

/-- The owner of an offer has a USD amount. -/
theorem exists_usdAmount (hc : t.Constraints) {o : Offer} (ho : o ∈ t.offers u st) :
    ∃ amount, t.usdAmount o.item.owner = some amount := by
  obtain ⟨price, hprice, howner⟩ :=
    holds_of_activeOwner (activeOwner_of_sold hc (mem_offers.mp ho).2)
  refine ⟨price.amount, (usdAmount_eq_some_iff hc).mpr ⟨price, ?_, howner, rfl⟩⟩
  rcases price with pp | pp
  · exact List.mem_append_left _ (List.mem_map_of_mem hprice)
  · exact List.mem_append_right _ (List.mem_map_of_mem hprice)

/-- **Once the FX job has been called**, each offer has an amount. -/
theorem FxFetch.Covers.offerAmount_afterFx (hcovers : fetch.Covers u st) (hc : t.Constraints)
    {o : Offer} (ho : o ∈ t.offers u st) : ((t.afterFx u fetch).offerAmount o).isSome = true := by
  unfold CatalogTables.offerAmount
  split
  · rfl
  · rename_i husd
    have hcurrency := (mem_offers.mp ho).1
    have hrate := hcovers o.currency hcurrency husd
    unfold CatalogTables.amounts CatalogTables.afterFx
    rcases hrates : fetch.apiRates u with - | rates
    · rw [hrates] at hrate
      cases hrate
    · rw [hrates] at hrate
      dsimp only
      rw [localizedRow_synced u rates fetch.now hc, Option.isSome_map]
      rcases t.localizedRow o.item.owner o.currency with - | r
      · obtain ⟨amount, hamount⟩ := exists_usdAmount hc ho
        dsimp only
        rw [Option.isSome_map, CatalogTables.localizedAmount, hamount, Option.bind_some, newAmount,
          if_pos ⟨st.supported _ hcurrency, husd⟩, convert, Option.isSome_map]
        exact hrate
      · rfl

/-! ### A pass with a working feed -/

variable {feed : Nat → FxFetch}

variable (u feed) in
/-- The turns of offers that have rows send the amounts of the rows. -/
theorem foldl_turn_of_isSome {p : Pass} {l : List Offer}
    (h : ∀ o ∈ l, (p.tables.offerAmount o).isSome = true) :
    (l.foldl (Pass.turn u feed) p).tables = p.tables ∧
      (l.foldl (Pass.turn u feed) p).fetches = p.fetches ∧
      ∀ o, (l.foldl (Pass.turn u feed) p).sent.lookup o
        = if o ∈ l then p.tables.offerAmount o else p.sent.lookup o := by
  induction l generalizing p with
  | nil => exact ⟨rfl, rfl, fun _ => rfl⟩
  | cons o l ih =>
    obtain ⟨hfirst, hrest⟩ := List.forall_mem_cons.mp h
    have hfx : fxFirst u feed o (p.tables, p.fetches) = (p.tables, p.fetches) := if_pos hfirst
    have htables : (p.turn u feed o).tables = p.tables := congrArg Prod.fst hfx
    have hfetches : (p.turn u feed o).fetches = p.fetches := congrArg Prod.snd hfx
    obtain ⟨ihtables, ihfetches, ihsent⟩ := ih (p := p.turn u feed o) (by rw [htables]; exact hrest)
    refine ⟨ihtables.trans htables, ihfetches.trans hfetches, fun o' => ?_⟩
    rw [List.foldl_cons, ihsent, lookup_turn, htables]
    obtain ⟨a, ha⟩ := Option.isSome_iff_exists.mp hfirst
    by_cases hmem : o' ∈ l
    · rw [if_pos hmem, if_pos (List.mem_cons_of_mem o hmem)]
    · by_cases heq : o' = o
      · subst heq
        rw [if_neg hmem, if_pos rfl, if_pos (List.mem_cons_self ..), ha]
        rfl
      · rw [if_neg hmem, if_neg heq, if_neg]
        exact fun hcons => (List.mem_cons.mp hcons).elim heq hmem

variable (u feed) in
/-- The turns from an offer without a row on, of which the first calls the FX job. -/
theorem foldl_turn_of_isNone {p : Pass} {first : Offer} {rest : List Offer}
    (hnone : p.tables.offerAmount first = none)
    (hafter : ∀ o ∈ first :: rest,
      ((p.tables.afterFx u (feed p.fetches)).offerAmount o).isSome = true) :
    ((first :: rest).foldl (Pass.turn u feed) p).tables
        = p.tables.afterFx u (feed p.fetches) ∧
      ∀ o, ((first :: rest).foldl (Pass.turn u feed) p).sent.lookup o
        = if o ∈ first :: rest then (p.tables.afterFx u (feed p.fetches)).offerAmount o
          else p.sent.lookup o := by
  have hturn : p.turn u feed first =
      Pass.turn u feed ⟨p.tables.afterFx u (feed p.fetches), p.fetches + 1, p.sent⟩ first := by
    have hfx : fxFirst u feed first (p.tables, p.fetches)
        = fxFirst u feed first (p.tables.afterFx u (feed p.fetches), p.fetches + 1) := by
      unfold fxFirst
      rw [if_pos (hafter first (List.mem_cons_self ..)), if_neg]
      simp [hnone]
    unfold Pass.turn
    rw [hfx]
  rw [List.foldl_cons, hturn, ← List.foldl_cons]
  obtain ⟨htables, -, hsent⟩ := foldl_turn_of_isSome u feed
    (p := ⟨p.tables.afterFx u (feed p.fetches), p.fetches + 1, p.sent⟩) hafter
  exact ⟨htables, hsent⟩

variable {env : SyncEnv} {w : SyncWorld}

/-- The offers, split at the first one without a row. -/
theorem offers_split (u : UnicodeTables) (st : Settings) (t : CatalogTables) :
    (∀ o ∈ t.offersBeforeBootstrap u st, (t.offerAmount o).isSome = true) ∧
      (t.offers u st = t.offersBeforeBootstrap u st ∨
        ∃ first rest, t.offers u st = t.offersBeforeBootstrap u st ++ first :: rest ∧
          t.offerAmount first = none) := by
  refine ⟨fun o ho => ?_, ?_⟩
  · exact List.mem_takeWhile_imp (p := fun o => (t.offerAmount o).isSome) ho
  · have hsplit := List.takeWhile_append_dropWhile
      (p := fun o => (t.offerAmount o).isSome) (l := t.offers u st)
    rcases hdrop : (t.offers u st).dropWhile fun o => (t.offerAmount o).isSome
      with - | ⟨first, rest⟩
    · rw [hdrop, List.append_nil] at hsplit
      exact Or.inl hsplit.symm
    · rw [hdrop] at hsplit
      refine Or.inr ⟨first, rest, hsplit.symm, ?_⟩
      have hhead := List.head_dropWhile_not (fun o => (t.offerAmount o).isSome)
        (show (t.offers u st).dropWhile (fun o => (t.offerAmount o).isSome) ≠ [] by
          rw [hdrop]
          exact List.cons_ne_nil _ _)
      simpa [hdrop] using hhead

/-- **The pass of a run with a working feed** ends with the rows of the bootstrap; an
offer is sent at the amount that it has there, unless its turn is before the
bootstrap. -/
theorem SyncWorld.pass_eq (hcovers : (env.feed w.fetches).Covers u st)
    (hoffers : (w.tables.offers u st).Nodup) :
    (w.pass u st env).tables = w.tables.bootstrapped u st (env.feed w.fetches) ∧
      ∀ o ∈ w.tables.offers u st, (w.pass u st env).sent.lookup o
        = if o ∈ w.tables.offersBeforeBootstrap u st then w.tables.offerAmount o
          else (w.tables.bootstrapped u st (env.feed w.fetches)).offerAmount o := by
  obtain ⟨hbefore, hsplit⟩ := offers_split u st w.tables
  obtain ⟨htables, hfetches, hsent⟩ := foldl_turn_of_isSome u env.feed
    (p := ⟨w.tables, w.fetches, []⟩) hbefore
  dsimp only at htables hfetches hsent
  unfold SyncWorld.pass CatalogTables.pass CatalogTables.bootstrapped
  rcases hsplit with hall | ⟨first, rest, hsplit, hnone⟩
  · -- each offer has a row, and there is no call
    rw [if_pos (by rw [hall]; exact hbefore), hall]
    refine ⟨htables, fun o ho => ?_⟩
    rw [hsent, if_pos ho, if_pos ho]
  · have hmem : ∀ o ∈ first :: rest, o ∈ w.tables.offers u st := by
      intro o ho
      rw [hsplit]
      exact List.mem_append_right _ ho
    rw [if_neg fun h => by simpa [hnone] using h first (hmem first (List.mem_cons_self ..)), hsplit,
      List.foldl_append]
    rw [hsplit, List.nodup_append'] at hoffers
    rw [← htables] at hnone
    obtain ⟨htables', hsent'⟩ := foldl_turn_of_isNone u env.feed hnone
      (by
        rw [htables, hfetches]
        exact fun o ho => hcovers.offerAmount_afterFx w.catalog.constraints (hmem o ho))
    rw [htables, hfetches] at htables' hsent'
    refine ⟨htables', fun o ho => ?_⟩
    rw [hsent']
    rcases List.mem_append.mp ho with ho | ho
    · rw [if_neg (hoffers.2.2 ho), hsent, if_pos ho, if_pos ho]
    · rw [if_pos ho, if_neg fun hbefore => hoffers.2.2 hbefore ho]

/-- **Each offer has an amount** in the end. -/
theorem FxFetch.Covers.offerAmount_bootstrapped (hcovers : fetch.Covers u st) (hc : t.Constraints)
    {o : Offer} (ho : o ∈ t.offers u st) :
    ((t.bootstrapped u st fetch).offerAmount o).isSome = true := by
  unfold CatalogTables.bootstrapped
  split
  · rename_i hall
    exact hall o ho
  · exact hcovers.offerAmount_afterFx hc ho

theorem SyncWorld.sent_isSome (hcovers : (env.feed w.fetches).Covers u st)
    (hoffers : (w.tables.offers u st).Nodup) {o : Offer} (ho : o ∈ w.tables.offers u st) :
    ((w.pass u st env).sent.lookup o).isSome = true := by
  rw [(w.pass_eq hcovers hoffers).2 o ho]
  split
  · rename_i hbefore
    exact (offers_split u st w.tables).1 o hbefore
  · exact hcovers.offerAmount_bootstrapped w.catalog.constraints ho

/-- **A run with a working feed** sends each offer, at the amount that it leaves the
offer with if the bootstrap leaves the amounts of the offers before it. -/
theorem SyncWorld.sendsAll_iff (hcovers : (env.feed w.fetches).Covers u st)
    (hoffers : (w.tables.offers u st).Nodup) :
    w.SendsAll u st env ↔ w.tables.BootstrapKeeps u st (env.feed w.fetches) := by
  obtain ⟨htables, hsent⟩ := w.pass_eq hcovers hoffers
  constructor
  · intro hsends o hbefore
    have ho : o ∈ w.tables.offers u st := (List.takeWhile_sublist _).subset hbefore
    have hkept := (hsends o ho).2
    rw [hsent o ho, if_pos hbefore, htables] at hkept
    exact hkept
  · intro hkeeps o ho
    refine ⟨w.sent_isSome hcovers hoffers ho, ?_⟩
    rw [hsent o ho, htables]
    split
    · rename_i hbefore
      exact hkeeps o hbefore
    · rfl

end Bootstrap

/-! ### What is asked -/

section Asked

variable {t t' : CatalogTables} {spec : PriceSpec}

theorem mem_asked : spec ∈ t.asked u st ↔
    (∃ o ∈ t.offers u st, ∃ a, t.offerAmount o = some a ∧ o.spec a = spec) ∨
      ∃ cp ∈ t.activeCountryPrices, ∃ item cp', t.soldItem u cp.owner = some item ∧
        cp.recomputeBase u = .ok cp' ∧ countrySpec u item cp' = spec := by
  have hok : ∀ (x : Except String CountryPrice) cp', x.toOption = some cp' ↔ x = .ok cp' := by
    rintro (e | cp) cp' <;> simp [Except.toOption]
  unfold CatalogTables.asked
  simp only [List.mem_append, List.mem_filterMap, Option.map_eq_some_iff, Option.bind_eq_some_iff,
    hok, exists_and_left]

/-- What is asked does not depend on the ids. -/
theorem mem_asked_of_unstamped (h : t'.unstamped = t.unstamped) (hspec : spec ∈ t'.asked u st) :
    spec ∈ t.asked u st := by
  have hsame := CatalogTables.SameSold.of_unstamped h
  rw [mem_asked] at hspec ⊢
  rcases hspec with ⟨o, ho, a, ha, rfl⟩ | ⟨cp, hcp, item, cp', hitem, hbase, rfl⟩
  · refine Or.inl ⟨o, ?_, a, ?_, rfl⟩
    · rw [← hsame.offers]
      exact ho
    · rw [← CatalogTables.offerAmount_congr h]
      exact ha
  · -- the row is there with another id
    obtain ⟨hmem, hactive⟩ := CatalogTables.mem_activeCountryPrices.mp hcp
    have hrows : t'.countryPrices.map CountryPrice.unstamped
        = t.countryPrices.map CountryPrice.unstamped := congrArg CatalogTables.countryPrices h
    have hunstamped : cp.unstamped ∈ t.countryPrices.map CountryPrice.unstamped := by
      rw [← hrows]
      exact List.mem_map_of_mem hmem
    obtain ⟨cp₀, hcp₀, heq⟩ := List.mem_map.mp hunstamped
    have hcp₀' : { cp₀ with stripePriceId := cp.stripePriceId } = cp :=
      congrArg (fun r : CountryPrice => { r with stripePriceId := cp.stripePriceId }) heq
    obtain ⟨base, hderive, rfl⟩ := CountryPrice.recomputeBase_spec u hbase
    rw [← hcp₀'] at hactive hitem hderive ⊢
    rw [hsame.activeOwner] at hactive
    rw [hsame.soldItem] at hitem
    refine Or.inr ⟨cp₀, CatalogTables.mem_activeCountryPrices.mpr ⟨hcp₀, hactive⟩, item,
      { cp₀ with baseMinor := base }, hitem, ?_, rfl⟩
    unfold CountryPrice.recomputeBase
    rw [hderive]
    rfl

end Asked

/-! ### What a run with a working feed leaves -/

/-- The row has the id of an active price that is what it asks for. -/
def SyncWorld.Sells (u : UnicodeTables) (w : SyncWorld) (row : CatalogRow) : Prop :=
  ∃ spec id p, w.tables.rowSpec u row = some spec ∧ row.stripePriceId = some id ∧
    w.stripe.price id = some p ∧ p.active = true ∧ p.Matches spec

/-- The rows that a run handles are sold as they are, and another run, wherever it
is cut off, creates no price, archives none and changes no row. -/
structure SyncWorld.Synced (u : UnicodeTables) (st : Settings) (w : SyncWorld) : Prop where
  sells : ∀ row, w.tables.Handled st row → w.Sells u row
  idempotent : ∀ env, (final (handle u env st) w).writes = w.writes ∧
    (final (handle u env st) w).catalog = w.catalog

/-- Nothing stands in the way of a run: the bootstrap keeps the amounts that have
been sent, and no archived price is what a row asks for. -/
structure SyncWorld.Syncable (u : UnicodeTables) (st : Settings) (fetch : FxFetch)
    (w : SyncWorld) : Prop where
  keeps : w.tables.BootstrapKeeps u st fetch
  usable : ∀ spec ∈ (w.tables.bootstrapped u st fetch).asked u st, w.stripe.Usable spec

section Synced

variable {env : SyncEnv} {existing : List (String × FetchedPrice)} {w w₀ w₁ w' : SyncWorld}
  {spec : PriceSpec}

/-- **The rows that a run leaves** ask for what the rows of the pass ask for. -/
theorem SyncRun.mem_asked_iff (hw : w.stripe.WellFormed) (hapart : w.tables.RowsApart u st)
    (h : SyncRun u env st existing w w₀ w₁ w') :
    spec ∈ (w.pass u st env).tables.asked u st ↔
      ∃ row, w'.tables.Handled st row ∧ w'.tables.rowSpec u row = some spec := by
  have hc' := w'.catalog.constraints
  have hsame := h.countriesOnly.sameSold
  have hunstamped : w₁.tables.unstamped = (w.pass u st env).tables.unstamped :=
    (h.follows hw).tables
  have hasked : spec ∈ (w.pass u st env).tables.asked u st ↔ spec ∈ w₁.tables.asked u st :=
    ⟨mem_asked_of_unstamped hunstamped.symm, mem_asked_of_unstamped hunstamped⟩
  rw [hasked, mem_asked]
  constructor
  · rintro (⟨o, ho, a, ha, rfl⟩ | ⟨cp, hcp, item, cp', hitem, hbase, rfl⟩)
    · rw [← hsame.offers] at ho
      rw [← h.countriesOnly.offerAmount] at ha
      obtain ⟨row, hrow, -, hspec⟩ := exists_row hc' ho ha
      exact ⟨row, hrow, hspec⟩
    · -- the row as its round has left it
      obtain ⟨item₁, cp₁, id, hitem₁, hbase₁, hrow, -⟩ := (h.countriesKeyed hw hapart).priced cp hcp
      obtain rfl := Option.some.inj (hitem.symm.trans hitem₁)
      obtain rfl := Except.ok.inj (hbase.symm.trans hbase₁)
      obtain ⟨hmem, howner, -⟩ := (CatalogTables.countryRow_eq_some_iff hc').mp hrow
      have howner' : (CatalogRow.country { cp' with stripePriceId := some id }).owner = cp.owner :=
        howner
      refine ⟨.country { cp' with stripePriceId := some id }, ⟨hmem, ?_, trivial⟩, ?_⟩
      · rw [howner', hsame.activeOwner]
        exact (CatalogTables.mem_activeCountryPrices.mp hcp).2
      · unfold CatalogTables.rowSpec
        rw [howner', hsame.soldItem, hitem]
        rfl
  · rintro ⟨row, hrow, hspec⟩
    by_cases hcountry : ∀ r, row ≠ .country r
    · obtain ⟨o, ho, -, hamount, hspec'⟩ := exists_offer (u := u) hc' hrow hcountry
      rw [hsame.offers] at ho
      rw [h.countriesOnly.offerAmount] at hamount
      exact Or.inl ⟨o, ho, _, hamount, Option.some.inj (hspec'.symm.trans hspec)⟩
    · obtain ⟨r, hr⟩ := not_forall.mp hcountry
      obtain rfl := not_not.mp hr
      obtain ⟨cp, hcp, item, cp', id, hitem, hbase, rfl, howner, -⟩ := h.exists_countryPriced hw
        hapart (CatalogTables.mem_activeCountryPrices.mpr ⟨hrow.holds, hrow.active⟩)
      have howner' : (CatalogRow.country { cp' with stripePriceId := some id }).owner = cp.owner :=
        howner
      refine Or.inr ⟨cp, hcp, item, cp', hitem, hbase, ?_⟩
      unfold CatalogTables.rowSpec at hspec
      rw [howner', hsame.soldItem, hitem] at hspec
      exact Option.some.inj hspec

/-- The price under a key is the one with its id. -/
theorem price_of_priceByKey {s : StripeCatalog} (hs : s.WellFormed) {key : String} {p : StripePrice}
    (h : s.priceByKey key = some p) : s.price p.id = some p :=
  (StripeCatalog.price_eq_some_iff hs).mpr
    ⟨((StripeCatalog.priceByKey_eq_some_iff hs).mp h).1, rfl⟩

/-- Where a run has sent all offers, its rows are sold as they are if no archived
price is what one asks for. -/
theorem SyncRun.sells_iff_usable (hw : w.stripe.WellFormed) (hapart : w.tables.RowsApart u st)
    (h : SyncRun u env st existing w w₀ w₁ w') (hsends : w.SendsAll u st env) :
    (∀ row, w'.tables.Handled st row → w'.Sells u row) ↔
      ∀ spec ∈ (w.pass u st env).tables.asked u st, w.stripe.Usable spec := by
  have hw' : w'.stripe.WellFormed := (h.grows hw).wellFormed hw
  constructor
  · intro hsells spec hspec
    obtain ⟨row, hrow, hrowSpec⟩ := (h.mem_asked_iff hw hapart).mp hspec
    obtain ⟨spec', id, hspec', hid, p, hp, rfl, -, hactive⟩ := h.rowPriced hw hapart hsends hrow
    obtain rfl := Option.some.inj (hrowSpec.symm.trans hspec')
    obtain ⟨-, id', q, -, hid', hq, hqactive, -⟩ := hsells row hrow
    obtain rfl := Option.some.inj (hid.symm.trans hid')
    obtain rfl := Option.some.inj ((price_of_priceByKey hw' hp).symm.trans hq)
    exact hactive.mp hqactive
  · intro husable row hrow
    obtain ⟨spec, id, hspec, hid, p, hp, rfl, hm, hactive⟩ := h.rowPriced hw hapart hsends hrow
    have hasked := (h.mem_asked_iff hw hapart).mpr ⟨row, hrow, hspec⟩
    exact ⟨spec, p.id, p, hspec, hid, price_of_priceByKey hw' hp, hactive.mpr (husable spec hasked),
      hm⟩

/-- **Rows that are sold as they are** have been sent at the amounts they are left with. -/
theorem SyncRun.sendsAll_of_sells (hw : w.stripe.WellFormed) (hapart : w.tables.RowsApart u st)
    (hcovers : (env.feed w.fetches).Covers u st) (h : SyncRun u env st existing w w₀ w₁ w')
    (hsells : ∀ row, w'.tables.Handled st row → w'.Sells u row) : w.SendsAll u st env := by
  have hw' : w'.stripe.WellFormed := (h.grows hw).wellFormed hw
  have hc' := w'.catalog.constraints
  have hoffers : (w.tables.offers u st).Nodup := List.Nodup.of_map _ hapart.offers
  intro o ho
  have hsome := w.sent_isSome hcovers hoffers ho
  refine ⟨hsome, ?_⟩
  obtain ⟨a, ha⟩ := Option.isSome_iff_exists.mp hsome
  obtain ⟨id, hid, p, hp, rfl, hm, -⟩ := h.offerPriced hw hapart ha
  obtain ⟨a', ha'⟩ := Option.isSome_iff_exists.mp
    (hcovers.offerAmount_bootstrapped w.catalog.constraints ho)
  rw [← (w.pass_eq hcovers hoffers).1] at ha'
  -- the row of the offer, and the price that is on it
  have ho' : o ∈ w'.tables.offers u st := by
    rw [(h.sameSold hw).offers]
    exact ho
  obtain ⟨row, hrow, hkey, hspec⟩ := exists_row hc' ho' ((h.offerAmount hw o).trans ha')
  obtain ⟨spec, id', q, hspec', hid', hq, -, hmq⟩ := hsells row hrow
  obtain rfl := Option.some.inj (hspec.symm.trans hspec')
  rw [← hkey, storedId_of_holds hc' hrow.holds, hid'] at hid
  obtain rfl := Option.some.inj hid
  obtain rfl := Option.some.inj ((price_of_priceByKey hw' hp).symm.trans hq)
  rw [ha, ha']
  exact congrArg some ((priceMatches_iff.mp hmq).1.symm.trans (priceMatches_iff.mp hm).1)

/-- **What a completed run leaves**, with a working feed. -/
theorem SyncRun.synced_iff (hw : w.stripe.WellFormed) (hapart : w.tables.RowsApart u st)
    (hcovers : (env.feed w.fetches).Covers u st) (h : SyncRun u env st existing w w₀ w₁ w') :
    w'.Synced u st ↔ w.Syncable u st (env.feed w.fetches) := by
  have hoffers : (w.tables.offers u st).Nodup := List.Nodup.of_map _ hapart.offers
  have hsendsAll := w.sendsAll_iff hcovers hoffers
  have htables := (w.pass_eq hcovers hoffers).1
  constructor
  · intro hsynced
    have hsends := h.sendsAll_of_sells hw hapart hcovers hsynced.sells
    have husable := (h.sells_iff_usable hw hapart hsends).mp hsynced.sells
    rw [htables] at husable
    exact ⟨hsendsAll.mp hsends, husable⟩
  · intro hsyncable
    have hsends := hsendsAll.mpr hsyncable.keeps
    refine ⟨(h.sells_iff_usable hw hapart hsends).mpr ?_, fun env' => ?_⟩
    · rw [htables]
      exact hsyncable.usable
    · have hsettled := (h.settled_iff hw hapart).mpr hsends
      have halike := wp_final_iff.mp (hsettled.quiet env' ((h.grows hw).wellFormed hw))
      exact ⟨halike.writes, halike.catalog⟩

/-- **Catalog sync**: after any history of edits, archived prices and runs, completed
or cut off, a run that completes with a working feed leaves the catalog synced
exactly if the bootstrap keeps the amounts that have been sent, and no archived
price is what a row asks for. -/
theorem catalog_sync_iff (u : UnicodeTables) (st : Settings) (hw : w.stripe.WellFormed)
    (history : List CatalogEvent) (env : SyncEnv) :
    let s := history.foldl (catalogStep u st) w
    (s.tables.rowLookupKeys u st).Nodup → (env.feed s.fetches).Covers u st →
      handle u env st s = .ok ⟨⟩ w' →
        (w'.Synced u st ↔ s.Syncable u st (env.feed s.fetches)) := by
  intro s hkeys hcovers h
  have hs : s.stripe.WellFormed := history_wellFormed hw history
  obtain ⟨existing, w₀, w₁, hrun⟩ := handle_ok hs h
  exact hrun.synced_iff hs (rowsApart_of_nodup hkeys) hcovers

end Synced

/-! ### Runs with a working feed -/

instance (s : StripeCatalog) (spec : PriceSpec) : Decidable (s.Usable spec) :=
  inferInstanceAs (Decidable (∀ p ∈ s.priceByKey spec.key,
    priceMatches p spec.unitAmount spec.currency spec.recurring = true → p.active = true))

instance (fetch : FxFetch) : Decidable (fetch.Covers u st) :=
  inferInstanceAs (Decidable (∀ currency ∈ st.billingCurrencies, currency ≠ "usd" →
    ((fetch.apiRates u).bind (List.lookup currency)).isSome = true))

instance (fetch : FxFetch) (t : CatalogTables) : Decidable (t.BootstrapKeeps u st fetch) :=
  inferInstanceAs (Decidable (∀ o ∈ t.offersBeforeBootstrap u st,
    (t.bootstrapped u st fetch).offerAmount o = t.offerAmount o))

instance (fetch : FxFetch) (w : SyncWorld) : Decidable (w.Syncable u st fetch) :=
  decidable_of_iff (w.tables.BootstrapKeeps u st fetch ∧
      ∀ spec ∈ (w.tables.bootstrapped u st fetch).asked u st, w.stripe.Usable spec)
    ⟨fun h => ⟨h.1, h.2⟩, fun h => ⟨h.keeps, h.usable⟩⟩

/-- The tables once the new plan is sold in dollars and euros, with some dollar price. -/
def soldTables (amount : Int) : CatalogTables :=
  ⟨newPlanWorld.tables.plans, [⟨2, 1, "price_0", amount⟩], [], [],
    [⟨.planPrice 2, "eur", 1799, some "price_00", 0⟩], []⟩

theorem soldTables_constraints (amount : Int) : (soldTables amount).Constraints := by
  constructor <;> simp [soldTables, newPlanWorld]

/-- The plan is sold and gets dearer, and a run is cut off once it has archived the
price that is too low. -/
def cutOffRepricing : List CatalogEvent :=
  [.syncStripeCatalog euroEnv, .edit ⟨soldTables 2999, soldTables_constraints 2999⟩,
    .syncStripeCatalog ⟨fun n => n = 10, euroEnv.feed⟩]

theorem catalog_sync_iff_cutOff :
    ∃ w', handle asciiTables euroEnv eurSettings
        (cutOffRepricing.foldl (catalogStep asciiTables eurSettings) newPlanWorld) = .ok ⟨⟩ w' ∧
      w'.Synced asciiTables eurSettings := by
  have hruns : (catalogAct asciiTables eurSettings
      (cutOffRepricing.foldl (catalogStep asciiTables eurSettings) newPlanWorld)
      (.syncStripeCatalog euroEnv)).isSome = true := by
    decide +kernel
  obtain ⟨w', hw'⟩ := Option.isSome_iff_exists.mp hruns
  have hrun := catalogAct_run hw'
  exact ⟨w', hrun, (catalog_sync_iff asciiTables eurSettings (w := newPlanWorld)
    ⟨by decide, by decide⟩ cutOffRepricing euroEnv (by decide +kernel) (by decide +kernel)
    hrun).mpr (by decide +kernel)⟩

/-- The sold plan, and one that is sold by the year and has no euro price yet. -/
def yearlyTables : CatalogTables :=
  { soldTables 1999 with
    plans := newPlanWorld.tables.plans ++
      [⟨3, "Personal Basic", "", .personal, .basic, .year, true⟩]
    planPrices := (soldTables 1999).planPrices ++
      [⟨4, 3, "price_placeholder_personal_basic_year", 19990⟩] }

theorem yearlyTables_constraints : yearlyTables.Constraints := by constructor <;> decide

/-- A run after a history completes with a working feed, and the catalog is not synced. -/
def MissesSync (u : UnicodeTables) (st : Settings) (w : SyncWorld) (history : List CatalogEvent)
    (env : SyncEnv) : Prop :=
  let s := history.foldl (catalogStep u st) w
  (s.tables.rowLookupKeys u st).Nodup ∧ (env.feed s.fetches).Covers u st ∧
    ∃ w', handle u env st s = .ok ⟨⟩ w' ∧ ¬ w'.Synced u st

theorem missesSync (u : UnicodeTables) (st : Settings) {w : SyncWorld} (hw : w.stripe.WellFormed)
    (history : List CatalogEvent) (env : SyncEnv) :
    let s := history.foldl (catalogStep u st) w
    (s.tables.rowLookupKeys u st).Nodup → (env.feed s.fetches).Covers u st →
      (catalogAct u st s (.syncStripeCatalog env)).isSome = true →
      ¬ s.Syncable u st (env.feed s.fetches) → MissesSync u st w history env := by
  intro s hkeys hcovers hruns hsyncable
  have hs : s.stripe.WellFormed := history_wellFormed hw history
  obtain ⟨w', hw'⟩ := Option.isSome_iff_exists.mp hruns
  obtain ⟨existing, w₀, w₁, hrun⟩ := handle_ok hs (catalogAct_run hw')
  refine ⟨hkeys, hcovers, w', catalogAct_run hw', fun hsynced => hsyncable ?_⟩
  exact (hrun.synced_iff hs (rowsApart_of_nodup hkeys) hcovers).mp hsynced

/-- **The catalog is not always synced**: the dearer plan is cheap again before the
next run, which keeps the archived price; and a plan by the year is added, for whose
euro price the run calls the FX job, which lowers the one that it has sent. -/
theorem catalog_not_synced :
    MissesSync asciiTables eurSettings newPlanWorld
        (cutOffRepricing ++ [.edit ⟨soldTables 1999, soldTables_constraints 1999⟩]) euroEnv ∧
      MissesSync asciiTables eurSettings newPlanWorld
        [.syncStripeCatalog euroEnv, .edit ⟨yearlyTables, yearlyTables_constraints⟩]
        ⟨fun _ => false, fun _ => ⟨1, some ⟨some "success", .dict [("EUR", some 0.8)]⟩⟩⟩ := by
  have hw : newPlanWorld.stripe.WellFormed := by decide
  constructor
  · apply missesSync _ _ hw <;> decide +kernel
  · apply missesSync _ _ hw <;> decide +kernel

end Saasmint
