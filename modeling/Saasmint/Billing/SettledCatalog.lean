/-
Saasmint/Billing/SettledCatalog.lean

The catalogs that a run of `sync_stripe_catalog` has nothing to do for.

Each row that a run handles asks for one price of Stripe (`rowSpec`).  In a
settled catalog every such row has the id of the price under its key, and the
price is what the row asks for.  A completed run leaves a settled catalog exactly
if it has sent each offer at the amount that the offer is left with
(`SyncRun.settled_iff`); a run from a settled catalog creates no price, archives no
price and changes no row, wherever it is cut off (`Settled.quiet`).  Whether the
prices are active as well depends on what was there: a run keeps a price that is
what a row asks for, archived or not.
-/
import Saasmint.Billing.SyncSound

namespace Saasmint

open PyStr Programs

/-! ### What the rows ask for -/

/-- The lookup key of a row of an item. -/
def CatalogRow.lookupKey (u : UnicodeTables) (item : SoldItem) : CatalogRow → String
  | usd _ => item.baseKey
  | localized r => Saasmint.lookupKey item.baseKey r.currency
  | country r => countryKey u item r

/-- What a row asks of Stripe. -/
def CatalogTables.rowSpec (u : UnicodeTables) (t : CatalogTables) (row : CatalogRow) :
    Option PriceSpec :=
  (t.soldItem u row.owner).map fun item =>
    item.spec (row.lookupKey u item) row.implied.1 row.implied.2

/-- Localized rows are handled in the billing currencies. -/
def CatalogRow.Billed (st : Settings) : CatalogRow → Prop
  | localized r => r.currency ∈ st.billingCurrencies ∧ r.currency ≠ "usd"
  | _ => True

/-- The rows that a run handles. -/
structure CatalogTables.Handled (st : Settings) (t : CatalogTables) (row : CatalogRow) : Prop where
  holds : t.Holds row
  active : t.activeOwner row.owner = true
  billed : row.Billed st

/-- The row has the id of the price under its key, which is what it asks for. -/
def SyncWorld.Mirrored (u : UnicodeTables) (w : SyncWorld) (row : CatalogRow) : Prop :=
  ∃ spec p, w.tables.rowSpec u row = some spec ∧ w.stripe.priceByKey spec.key = some p ∧
    p.Matches spec ∧ row.stripePriceId = some p.id

/-- Every offer has an amount, and every row that a run handles is mirrored, the
country rows at the base of their stickers. -/
structure SyncWorld.Settled (u : UnicodeTables) (st : Settings) (w : SyncWorld) : Prop where
  amounts : ∀ o ∈ w.tables.offers u st, (w.tables.offerAmount o).isSome = true
  rows : ∀ row, w.tables.Handled st row → w.Mirrored u row
  aligned : ∀ r ∈ w.tables.activeCountryPrices, r.Aligned u

variable {u : UnicodeTables} {st : Settings}

/-! ### Rows and offers -/

section Rows

variable {t : CatalogTables}

theorem soldItem_eq_some_iff (hc : t.Constraints) {owner : PriceOwner} {item : SoldItem} :
    t.soldItem u owner = some item ↔ item ∈ t.sold u ∧ item.owner = owner := by
  unfold CatalogTables.soldItem
  constructor
  · intro h
    exact ⟨List.mem_of_find?_eq_some h, by simpa using List.find?_some h⟩
  · rintro ⟨hitem, howner⟩
    rcases hfind : (t.sold u).find? fun s => s.owner = owner with - | item'
    · have hno := List.find?_eq_none.mp hfind item hitem
      simp [howner] at hno
    · have howner' : item'.owner = owner := by simpa using List.find?_some hfind
      rw [hfind, sold_owner_inj hc (List.mem_of_find?_eq_some hfind) hitem
        (howner'.trans howner.symm)]

/-- A row that a run comes to with the offers is the row of an offer. -/
theorem exists_offer (hc : t.Constraints) {row : CatalogRow} (h : t.Handled st row)
    (hcountry : ∀ r, row ≠ .country r) :
    ∃ o ∈ t.offers u st, o.rowKey = row.key ∧ t.offerAmount o = some row.implied.1 ∧
      t.rowSpec u row = some (o.spec row.implied.1) := by
  obtain ⟨price, hprice, howner⟩ := holds_of_activeOwner h.active
  obtain ⟨item, hitem, hitemOwner, hamount⟩ := exists_sold (u := u) hc hprice (howner ▸ h.active)
  have hsold : t.soldItem u row.owner = some item :=
    (soldItem_eq_some_iff hc).mpr ⟨hitem, hitemOwner.trans howner⟩
  rw [howner] at hitemOwner
  unfold CatalogTables.rowSpec
  rw [hsold]
  rcases row with price' | r | r
  · have hprice' : CatalogRow.usd price = CatalogRow.usd price' :=
      holds_key_inj hc hprice h.holds (congrArg RowKey.usd howner)
    rw [CatalogRow.usd.inj hprice'] at hamount
    exact ⟨⟨"usd", item⟩, mem_offers.mpr ⟨st.usd_mem, hitem⟩, congrArg RowKey.usd hitemOwner,
      congrArg some hamount, rfl⟩
  · obtain ⟨hcurrency, husd⟩ := h.billed
    refine ⟨⟨r.currency, item⟩, mem_offers.mpr ⟨hcurrency, hitem⟩, ?_, ?_, rfl⟩
    · unfold Offer.rowKey
      rw [if_neg husd]
      exact congrArg (RowKey.localized · r.currency) hitemOwner
    · unfold CatalogTables.offerAmount CatalogTables.amounts
      rw [if_neg husd, hitemOwner]
      show (t.localizedRow r.owner r.currency).map _ = _
      rw [(localizedRow_eq_some_iff hc).mpr ⟨h.holds, rfl, rfl⟩]
      rfl
  · exact absurd rfl (hcountry r)

/-- An offer with an amount has a row. -/
theorem exists_row (hc : t.Constraints) {o : Offer} (ho : o ∈ t.offers u st) {a : Int}
    (ha : t.offerAmount o = some a) :
    ∃ row, t.Handled st row ∧ row.key = o.rowKey ∧ t.rowSpec u row = some (o.spec a) := by
  obtain ⟨hcurrency, hitem⟩ := mem_offers.mp ho
  have hactive := activeOwner_of_sold hc hitem
  have hsold := (soldItem_eq_some_iff hc).mpr ⟨hitem, rfl⟩
  unfold CatalogTables.offerAmount CatalogTables.amounts at ha
  unfold Offer.rowKey CatalogTables.rowSpec
  split at ha
  · rename_i husd
    rw [if_pos husd]
    obtain ⟨price, hprice, howner⟩ := holds_of_activeOwner hactive
    obtain ⟨item, hitem', hitemOwner, hamount⟩ := exists_sold (u := u) hc hprice (howner ▸ hactive)
    rw [sold_owner_inj hc hitem' hitem (hitemOwner.trans howner)] at hamount
    have howner' : (CatalogRow.usd price).owner = o.item.owner := howner
    refine ⟨.usd price, ⟨hprice, howner' ▸ hactive, trivial⟩, congrArg RowKey.usd howner, ?_⟩
    rw [howner', hsold, ← Option.some.inj ha]
    show some (o.item.spec o.item.baseKey price.amount "usd")
        = some (o.item.spec o.key _ o.currency)
    rw [← hamount, husd, show o.key = lookupKey o.item.baseKey o.currency from rfl, husd]
    rfl
  · rename_i husd
    rw [if_neg husd]
    obtain ⟨r, hr, rfl⟩ := Option.map_eq_some_iff.mp ha
    obtain ⟨hmem, howner, hrcurrency⟩ := (localizedRow_eq_some_iff hc).mp hr
    have howner' : (CatalogRow.localized r).owner = o.item.owner := howner
    refine ⟨.localized r, ⟨hmem, howner' ▸ hactive, ?_⟩, ?_, ?_⟩
    · exact ⟨hrcurrency ▸ hcurrency, hrcurrency ▸ husd⟩
    · show RowKey.localized r.owner r.currency = _
      rw [howner, hrcurrency]
    · rw [howner', hsold]
      show some (o.item.spec (lookupKey o.item.baseKey r.currency) r.amountMinor r.currency) = _
      rw [hrcurrency]
      rfl

end Rows

/-! ### Nothing to do -/

section Quiet

variable {env : SyncEnv} {existing : List (String × FetchedPrice)} {w s : SyncWorld}

theorem wp_tables {Q : CatalogTables → SyncWorld → Prop} {E : String → SyncWorld → Prop} :
    wp Sync.tables Q E s ↔ Q s.tables s := Iff.rfl

/-- The price of an offer, in a settled catalog. -/
theorem SyncWorld.Settled.offer (hs : w.Settled u st) {o : Offer} (ho : o ∈ w.tables.offers u st) :
    ∃ a p, w.tables.offerAmount o = some a ∧ w.stripe.priceByKey o.key = some p ∧
      p.Matches (o.spec a) ∧ w.tables.storedId o.rowKey = some p.id := by
  obtain ⟨a, ha⟩ := Option.isSome_iff_exists.mp (hs.amounts o ho)
  obtain ⟨row, hrow, hkey, hspec⟩ := exists_row w.catalog.constraints ho ha
  obtain ⟨spec, p, hspec', hp, hm, hid⟩ := hs.rows row hrow
  obtain rfl := Option.some.inj (hspec'.symm.trans hspec)
  refine ⟨a, p, ha, hp, hm, ?_⟩
  rw [← hkey, storedId_of_holds w.catalog.constraints hrow.holds, hid]

/-- The prefetch has the price under a key. -/
theorem PageOf.lookup {keys : List String} {stripe : StripeCatalog} {key : String} {p : StripePrice}
    (h : PageOf existing keys stripe) (hkey : key ∈ keys) (hp : stripe.priceByKey key = some p) :
    ∃ f, existing.lookup key = some f ∧ f.toStripePrice = p := by
  have hfetched := h.fetched key hkey
  rw [hp] at hfetched
  exact Option.map_eq_some_iff.mp hfetched

/-- An offer with an amount needs no call of the FX job. -/
theorem unitAmountFor_quiet {item : SoldItem} {currency : String} {a : Int}
    (ha : s.tables.offerAmount ⟨currency, item⟩ = some a)
    {Q : Option Int → SyncWorld → Prop} {E : String → SyncWorld → Prop} (hQ : Q (some a) s) :
    wp (unitAmountFor u env item currency) Q E s := by
  unfold CatalogTables.offerAmount CatalogTables.amounts at ha
  unfold unitAmountFor
  dsimp only at ha
  split at ha
  · rename_i husd
    rw [if_pos husd, ha]
    exact hQ
  · rename_i husd
    obtain ⟨r, hr, rfl⟩ := Option.map_eq_some_iff.mp ha
    rw [if_neg husd, wp_bind, wp_tables, hr]
    exact hQ

/-- An id that is on the row is not written. -/
theorem writePriceId_quiet {o : Offer} {current : String}
    {Q : PUnit → SyncWorld → Prop} {E : String → SyncWorld → Prop} {id : String}
    (hcurrent : o.currency = "usd" → current = id)
    (hstored : s.tables.storedId o.rowKey = some id) (hQ : Q ⟨⟩ s) :
    wp (writePriceId env o.item.owner current id o.currency) Q E s := by
  unfold writePriceId
  unfold Offer.rowKey at hstored
  split
  · rename_i husd
    rw [if_pos (hcurrent husd).symm]
    exact hQ
  · rename_i husd
    rw [if_neg husd] at hstored
    obtain ⟨r, hr, hid⟩ := Option.bind_eq_some_iff.mp hstored
    rw [wp_bind, wp_tables, hr]
    dsimp only
    rw [if_pos hid]
    exact hQ

/-- A round of an offer of a settled catalog. -/
theorem syncItem_quiet (hs : w.Settled u st)
    (hpage : PageOf existing (w.tables.collectLookupKeys u st.billingCurrencies) w.stripe)
    {currency : String} {x : SoldItem × String}
    (ho : (⟨currency, x.1⟩ : Offer) ∈ w.tables.offers u st)
    (hx : w.tables.storedId (.usd x.1.owner) = some x.2) (h : w.Alike s) :
    wp (syncItem u env existing currency x) (fun _ s' => w.Alike s')
    (fun _ s' => w.Alike s') s := by
  obtain ⟨a, p, ha, hp, hm, hid⟩ := hs.offer ho
  obtain ⟨f, hf, rfl⟩ := hpage.lookup (key_mem_collectLookupKeys ho) hp
  have htables : ∀ {s' : SyncWorld}, w.Alike s' → s'.tables = w.tables := fun h =>
    congrArg Catalog.toCatalogTables h.catalog
  unfold syncItem
  rw [wp_bind]
  apply unitAmountFor_quiet (a := a)
  · rw [htables h]
    exact ha
  · dsimp only
    rw [wp_bind]
    apply wp_mono (upsertPrice_of_match (w := s) hf hm)
    · rintro id s₁ ⟨h₁, rfl⟩
      have h₁ := h.trans h₁
      apply writePriceId_quiet (o := ⟨currency, x.1⟩)
      · rintro rfl
        exact Option.some.inj (hx.symm.trans hid)
      · rw [htables h₁]
        exact hid
      · exact h₁
    · exact fun _ _ h₁ => h.trans h₁

/-- A round of a country row of a settled catalog. -/
theorem syncCountryRow_quiet (hs : w.Settled u st)
    (hpage : PageOf existing (w.tables.collectLookupKeys u st.billingCurrencies) w.stripe)
    {cp : CountryPrice} (hcp : cp ∈ w.tables.activeCountryPrices) (h : w.Alike s) :
    wp (syncCountryRow u env existing cp) (fun _ s' => w.Alike s') (fun _ s' => w.Alike s') s := by
  obtain ⟨hmem, hactive⟩ := CatalogTables.mem_activeCountryPrices.mp hcp
  obtain ⟨spec, p, hspec, hp, hm, hid⟩ := hs.rows (.country cp) ⟨hmem, hactive, trivial⟩
  obtain ⟨item, hitem, rfl⟩ := Option.map_eq_some_iff.mp hspec
  obtain ⟨f, hf, rfl⟩ := hpage.lookup (countryKey_mem_collectLookupKeys hcp hitem _) hp
  have hitemₛ : s.tables.soldItem u cp.owner = some item := by
    rw [show s.tables = w.tables from congrArg Catalog.toCatalogTables h.catalog]
    exact hitem
  unfold syncCountryRow
  rw [wp_bind, wp_tables, hitemₛ, (hs.aligned cp hcp).recomputeBase]
  dsimp only
  rw [if_neg (not_not.mpr rfl), wp_bind]
  apply wp_mono (upsertPrice_of_match (w := s) hf hm)
  · rintro id s₁ ⟨h₁, rfl⟩
    rw [if_pos (show cp.stripePriceId = some f.id from hid)]
    exact h.trans h₁
  · exact fun _ _ h₁ => h.trans h₁

/-- **A run from a settled catalog** changes nothing but tax behaviors and
products, however far it gets: it creates and archives no price, writes no row
and does not call the feed. -/
theorem SyncWorld.Settled.quiet (env : SyncEnv) (hw : w.stripe.WellFormed) (hs : w.Settled u st) :
    wp (handle u env st) (fun _ w' => w.Alike w') (fun _ w' => w.Alike w') w := by
  have htables : ∀ {s : SyncWorld}, w.Alike s → s.tables = w.tables := fun h =>
    congrArg Catalog.toCatalogTables h.catalog
  unfold handle
  rw [wp_bind, wp_tables, wp_bind]
  apply wp_mono (bulkFetchExisting_spec hw _)
  · rintro existing w₀ ⟨h₀, -, hpage⟩
    rw [wp_bind]
    have hitems : ∀ currency ∈ st.billingCurrencies, ∀ l : List (SoldItem × String),
        (∀ x ∈ l, x.1 ∈ w.tables.sold u ∧ w.tables.storedId (.usd x.1.owner) = some x.2) →
        ∀ {s : SyncWorld}, w.Alike s →
          wp (l.forM (syncItem u env existing currency)) (fun _ s' => w.Alike s')
            (fun _ s' => w.Alike s') s := by
      intro currency hcurrency l hl s hs'
      refine wp_forM (I := fun _ s => w.Alike s) ?_ hs'
      intro done x rest s₁ hsplit h₁
      have hx : x ∈ l := by
        rw [hsplit]
        simp
      exact syncItem_quiet hs hpage (mem_offers.mpr ⟨hcurrency, (hl x hx).1⟩) (hl x hx).2 h₁
    have hplans : ∀ x ∈ w.tables.soldPlans,
        x.1 ∈ w.tables.sold u ∧ w.tables.storedId (.usd x.1.owner) = some x.2 := fun x hx =>
      ⟨List.mem_map_of_mem (List.mem_append_left _ hx),
        CatalogTables.mem_soldPlans_id w.catalog.constraints hx⟩
    have hproducts : ∀ x ∈ w.tables.soldProducts u,
        x.1 ∈ w.tables.sold u ∧ w.tables.storedId (.usd x.1.owner) = some x.2 := fun x hx =>
      ⟨List.mem_map_of_mem (List.mem_append_right _ hx),
        CatalogTables.mem_soldProducts_id w.catalog.constraints hx⟩
    have hcurrencies : wp (st.billingCurrencies.forM fun currency => do
          syncPlans u env existing currency
          syncProducts u env existing currency)
        (fun _ s => w.Alike s) (fun _ s => w.Alike s) w₀ := by
      refine wp_forM (I := fun _ s => w.Alike s) ?_ h₀
      intro done currency rest s hl h
      have hcurrency : currency ∈ st.billingCurrencies := by
        rw [hl]
        simp
      rw [wp_bind]
      show wp (s.tables.soldPlans.forM _) _ _ s
      rw [htables h]
      apply wp_mono (hitems currency hcurrency _ hplans h)
      · intro _ s₁ h₁
        show wp ((s₁.tables.soldProducts u).forM _) _ _ s₁
        rw [htables h₁]
        exact hitems currency hcurrency _ hproducts h₁
      · exact fun _ _ h₁ => h₁
    apply wp_mono hcurrencies
    · intro _ s h
      show wp (s.tables.activeCountryPrices.forM _) _ _ s
      rw [htables h]
      refine wp_forM (I := fun _ s => w.Alike s) ?_ h
      intro done cp rest s₁ hl h₁
      exact syncCountryRow_quiet hs hpage (by rw [hl]; simp) h₁
    · exact fun _ _ h => h
  · exact fun _ _ h => h

end Quiet

/-! ### What a completed run leaves -/

/-- A settled catalog whose prices can all be bought. -/
structure SyncWorld.Sound (u : UnicodeTables) (st : Settings) (w : SyncWorld) : Prop where
  settled : w.Settled u st
  active : ∀ row spec p, w.tables.Handled st row → w.tables.rowSpec u row = some spec →
    w.stripe.priceByKey spec.key = some p → p.active = true

/-- A run sends every offer, at the amount that it leaves the offer with. -/
def SyncWorld.SendsAll (u : UnicodeTables) (st : Settings) (env : SyncEnv) (w : SyncWorld) : Prop :=
  ∀ o ∈ w.tables.offers u st, ((w.pass u st env).sent.lookup o).isSome = true ∧
    (w.pass u st env).tables.offerAmount o = (w.pass u st env).sent.lookup o

instance (env : SyncEnv) (w : SyncWorld) : Decidable (w.SendsAll u st env) :=
  inferInstanceAs (Decidable (∀ o ∈ w.tables.offers u st,
    ((w.pass u st env).sent.lookup o).isSome = true ∧
      (w.pass u st env).tables.offerAmount o = (w.pass u st env).sent.lookup o))

section Completed

variable {env : SyncEnv} {existing : List (String × FetchedPrice)} {w w₀ w₁ w' : SyncWorld}

/-- What a run that sends every offer leaves on a row. -/
theorem SyncRun.rowPriced (hw : w.stripe.WellFormed) (hapart : w.tables.RowsApart u st)
    (h : SyncRun u env st existing w w₀ w₁ w') (hsends : w.SendsAll u st env) {row : CatalogRow}
    (hrow : w'.tables.Handled st row) :
    ∃ spec id, w'.tables.rowSpec u row = some spec ∧ row.stripePriceId = some id ∧
      KeyPriced w.stripe w'.stripe spec id := by
  have hc' := w'.catalog.constraints
  by_cases hcountry : ∀ r, row ≠ .country r
  · obtain ⟨o, ho, hkey, hamount, hspec⟩ := exists_offer (u := u) hc' hrow hcountry
    rw [(h.sameSold hw).offers] at ho
    obtain ⟨hsome, hsent⟩ := hsends o ho
    have hpass : (w.pass u st env).tables.offerAmount o = some row.implied.1 :=
      (h.offerAmount hw o).symm.trans hamount
    obtain ⟨id, hid, hpriced⟩ := h.offerPriced hw hapart (hsent.symm.trans hpass)
    refine ⟨_, id, hspec, ?_, hpriced⟩
    rw [← storedId_of_holds hc' hrow.holds, ← hkey]
    exact hid
  · obtain ⟨r, hr⟩ := not_forall.mp hcountry
    obtain rfl := not_not.mp hr
    obtain ⟨item, id, hitem, hid, -, hpriced⟩ := h.countryPriced hw hapart
      (CatalogTables.mem_activeCountryPrices.mpr ⟨hrow.holds, hrow.active⟩)
    refine ⟨countrySpec u item r, id, ?_, hid, hpriced⟩
    exact Option.map_eq_some_iff.mpr ⟨item, hitem, rfl⟩

/-- A row of an offer that a run has not sent has no id from it. -/
theorem SyncRun.storedId_of_unsent (hw : w.stripe.WellFormed)
    (h : SyncRun u env st existing w w₀ w₁ w') {o : Offer} (ho : o ∈ w.tables.offers u st)
    (hunsent : (w.pass u st env).sent.lookup o = none) : w'.tables.storedId o.rowKey = none := by
  have hnone : w.tables.offerAmount o = none := by
    by_contra hsome
    exact sent_of_isSome w.catalog.constraints ho (Option.isSome_iff_ne_none.mpr hsome) hunsent
  have hkept : w'.tables.storedId o.rowKey = w.tables.storedId o.rowKey := by
    refine h.unsent hw (rowKey_ne_country o) fun o' hsent' hkey => ?_
    obtain ⟨a, ha⟩ := Option.ne_none_iff_exists'.mp hsent'
    rw [rowKey_inj w.catalog.constraints (mem_of_sent ha) ho hkey] at hsent'
    exact hsent' hunsent
  rw [hkept]
  unfold CatalogTables.offerAmount CatalogTables.amounts at hnone
  unfold Offer.rowKey
  split at hnone
  · cases hnone
  · rename_i husd
    rw [if_neg husd]
    show (w.tables.localizedRow o.item.owner o.currency).bind _ = none
    rw [Option.map_eq_none_iff.mp hnone]
    rfl

/-- A settled catalog after a run shows that the run has sent every offer. -/
theorem SyncRun.sendsAll (hw : w.stripe.WellFormed) (hapart : w.tables.RowsApart u st)
    (h : SyncRun u env st existing w w₀ w₁ w') (hs : w'.Settled u st) : w.SendsAll u st env := by
  intro o ho
  have ho' : o ∈ w'.tables.offers u st := by
    rw [(h.sameSold hw).offers]
    exact ho
  obtain ⟨a, p, ha, hp, hm, hid⟩ := hs.offer ho'
  have hpass : (w.pass u st env).tables.offerAmount o = some a :=
    (h.offerAmount hw o).symm.trans ha
  rcases hsent : (w.pass u st env).sent.lookup o with - | a'
  · rw [h.storedId_of_unsent hw ho hsent] at hid
    cases hid
  · refine ⟨rfl, ?_⟩
    obtain ⟨id, -, q, hq, -, hmq, -⟩ := h.offerPriced hw hapart hsent
    -- the price under the key has the amount that was sent, and the one of the row
    obtain rfl := Option.some.inj (hp.symm.trans hq)
    rw [hpass]
    exact congrArg some ((priceMatches_iff.mp hm).1.symm.trans (priceMatches_iff.mp hmq).1)

/-- A run leaves a settled catalog exactly if it has sent every offer at the amount
that it leaves the offer with. -/
theorem SyncRun.settled_iff (hw : w.stripe.WellFormed) (hapart : w.tables.RowsApart u st)
    (h : SyncRun u env st existing w w₀ w₁ w') : w'.Settled u st ↔ w.SendsAll u st env := by
  refine ⟨h.sendsAll hw hapart, fun hsends => ⟨fun o ho => ?_, fun row hrow => ?_, fun r hr => ?_⟩⟩
  · rw [(h.sameSold hw).offers] at ho
    obtain ⟨hsome, hsent⟩ := hsends o ho
    rw [h.offerAmount hw o]
    exact (congrArg Option.isSome hsent).trans hsome
  · obtain ⟨spec, id, hspec, hid, p, hp, rfl, hm, -⟩ := h.rowPriced hw hapart hsends hrow
    exact ⟨spec, p, hspec, hp, hm, hid⟩
  · obtain ⟨-, -, -, -, haligned, -⟩ := h.countryPriced hw hapart hr
    exact haligned

/-- Its prices can all be bought if no archived price under the key of a row was
what the row asks for. -/
theorem SyncRun.sound_iff (hw : w.stripe.WellFormed) (hapart : w.tables.RowsApart u st)
    (h : SyncRun u env st existing w w₀ w₁ w') :
    w'.Sound u st ↔ w.SendsAll u st env ∧ ∀ row spec, w'.tables.Handled st row →
      w'.tables.rowSpec u row = some spec → w.stripe.Usable spec := by
  have hactive : w.SendsAll u st env → ∀ row spec p, w'.tables.Handled st row →
      w'.tables.rowSpec u row = some spec → w'.stripe.priceByKey spec.key = some p →
      (p.active = true ↔ w.stripe.Usable spec) := by
    intro hsends row spec p hrow hspec hp
    obtain ⟨spec', id, hspec', -, q, hq, -, -, hactive⟩ := h.rowPriced hw hapart hsends hrow
    obtain rfl := Option.some.inj (hspec.symm.trans hspec')
    obtain rfl := Option.some.inj (hp.symm.trans hq)
    exact hactive
  constructor
  · intro hsound
    have hsends := h.sendsAll hw hapart hsound.settled
    refine ⟨hsends, fun row spec hrow hspec => ?_⟩
    obtain ⟨spec', p, hspec', hp, -, -⟩ := hsound.settled.rows row hrow
    obtain rfl := Option.some.inj (hspec.symm.trans hspec')
    exact (hactive hsends row spec p hrow hspec hp).mp (hsound.active row spec p hrow hspec hp)
  · rintro ⟨hsends, husable⟩
    refine ⟨(h.settled_iff hw hapart).mpr hsends, fun row spec p hrow hspec hp => ?_⟩
    exact (hactive hsends row spec p hrow hspec hp).mpr (husable row spec hrow hspec)

end Completed

/-! ### Histories -/

/-- What happens to the catalog and to Stripe. -/
inductive CatalogEvent
  | edit (catalog : Catalog)
  /-- An operator archives a price. -/
  | archive (id : String)
  /-- A run of `sync_stripe_catalog`, completed or cut off. -/
  | syncStripeCatalog (env : SyncEnv)

def catalogStep (u : UnicodeTables) (st : Settings) (w : SyncWorld) : CatalogEvent → SyncWorld
  | .edit catalog => w.withCatalog catalog
  | .archive id => { w with stripe := w.stripe.modifyPrice id fun p => { p with active := false } }
  | .syncStripeCatalog env => final (handle u env st) w

section Histories

variable {w w' : SyncWorld}

theorem catalogStep_wellFormed (hw : w.stripe.WellFormed) (e : CatalogEvent) :
    (catalogStep u st w e).stripe.WellFormed := by
  rcases e with catalog | id | env
  · exact hw
  · exact StripeInvariant.wellFormed.modifyPrice w.stripe id _ (fun _ => ⟨rfl, rfl, rfl, rfl⟩)
      (fun _ => rfl) hw
  · exact (keeps_handle StripeInvariant.wellFormed).final (m := handle u env st) hw

theorem history_wellFormed (hw : w.stripe.WellFormed) (history : List CatalogEvent) :
    (history.foldl (catalogStep u st) w).stripe.WellFormed := by
  induction history generalizing w with
  | nil => exact hw
  | cons e history ih => exact ih (catalogStep_wellFormed hw e)

/-- **After any history** of edits, archived prices and runs, completed or cut off,
a run that completes leaves a sound catalog exactly if it sends every offer and
finds no archived price that a row asks for. -/
theorem sound_after_history (u : UnicodeTables) (st : Settings) (hw : w.stripe.WellFormed)
    (history : List CatalogEvent) (env : SyncEnv) :
    let s := history.foldl (catalogStep u st) w
    (s.tables.rowLookupKeys u st).Nodup → handle u env st s = .ok ⟨⟩ w' →
      (w'.Sound u st ↔ s.SendsAll u st env ∧ ∀ row spec, w'.tables.Handled st row →
        w'.tables.rowSpec u row = some spec → s.stripe.Usable spec) := by
  intro s hkeys h
  have hs : s.stripe.WellFormed := history_wellFormed hw history
  obtain ⟨existing, w₀, w₁, hrun⟩ := handle_ok hs h
  exact hrun.sound_iff hs (rowsApart_of_nodup hkeys)

/-- **The run after it** changes nothing: where a completed run has sent every offer,
the next one creates and archives no price, writes no row and does not call the
feed, wherever it is cut off. -/
theorem quiet_after_history (u : UnicodeTables) (st : Settings) (hw : w.stripe.WellFormed)
    (history : List CatalogEvent) (env : SyncEnv) :
    let s := history.foldl (catalogStep u st) w
    (s.tables.rowLookupKeys u st).Nodup → handle u env st s = .ok ⟨⟩ w' → s.SendsAll u st env →
      ∀ env', w'.Alike (final (handle u env' st) w') := by
  intro s hkeys h hsends env'
  have hs : s.stripe.WellFormed := history_wellFormed hw history
  obtain ⟨existing, w₀, w₁, hrun⟩ := handle_ok hs h
  have hsettled := (hrun.settled_iff hs (rowsApart_of_nodup hkeys)).mpr hsends
  exact wp_final_iff.mp (hsettled.quiet env' ((hrun.grows hs).wellFormed hs))

end Histories

/-! ### Runs that complete -/

/-- An edit of the catalog, or a run of the command. -/
inductive CatalogJob
  | edit (catalog : Catalog)
  | syncStripeCatalog (env : SyncEnv)

/-- A job that completes. -/
def catalogAct (u : UnicodeTables) (st : Settings) (w : SyncWorld) : CatalogJob → Option SyncWorld
  | .edit catalog => some (w.withCatalog catalog)
  | .syncStripeCatalog env =>
    match handle u env st w with
    | .ok _ w' => some w'
    | .error _ _ => none

/-- A run finds no lookup key on two rows. -/
def FindsDistinct (u : UnicodeTables) (st : Settings) (w : SyncWorld) : CatalogJob → Prop
  | .edit _ => True
  | .syncStripeCatalog _ => (w.tables.rowLookupKeys u st).Nodup

/-- A run leaves a sound catalog exactly if it sends every offer. -/
def SoundIfSent (u : UnicodeTables) (st : Settings) (w : SyncWorld) (job : CatalogJob)
    (w' : SyncWorld) : Prop :=
  match job with
  | .edit _ => True
  | .syncStripeCatalog env => w'.Sound u st ↔ w.SendsAll u st env

theorem catalogAct_run {env : SyncEnv} {w w' : SyncWorld}
    (h : catalogAct u st w (.syncStripeCatalog env) = some w') : handle u env st w = .ok ⟨⟩ w' := by
  unfold catalogAct at h
  dsimp only at h
  split at h
  · cases h
    assumption
  · cases h

instance (w : SyncWorld) : ∀ job, Decidable (FindsDistinct u st w job)
  | .edit _ => isTrue trivial
  | .syncStripeCatalog _ => inferInstanceAs (Decidable (w.tables.rowLookupKeys u st).Nodup)

/-- **Where every run completes**, no price under a key is ever archived, and each
run leaves a sound catalog exactly if it sends every offer. -/
theorem sound_runs (u : UnicodeTables) (st : Settings) {w : SyncWorld} (hw : w.stripe.WellFormed)
    (hs : w.stripe.KeyedActive) (jobs : List CatalogJob)
    (hkeys : Runs.EachStep (catalogAct u st) (FindsDistinct u st) w jobs) :
    Runs.Always (catalogAct u st) (fun w => w.stripe.KeyedActive) w jobs ∧
      Runs.EachMove (catalogAct u st) (SoundIfSent u st) w jobs := by
  refine Runs.always_and_eachMove_of_eachStep (I := fun w => w.stripe.WellFormed) ?_ ?_ hw hs hkeys
  · rintro w (catalog | env) w' hw h
    · cases h
      exact hw
    · have hkept := (keeps_handle StripeInvariant.wellFormed).final (m := handle u env st) hw
      unfold final at hkept
      rwa [catalogAct_run h] at hkept
  · rintro w (catalog | env) w' hw hs h hdistinct
    · cases h
      exact ⟨hs, trivial⟩
    · have hapart := rowsApart_of_nodup hdistinct
      obtain ⟨existing, w₀, w₁, hrun⟩ := handle_ok hw (catalogAct_run h)
      refine ⟨hrun.keyedActive hw hapart hs, (hrun.sound_iff hw hapart).trans ?_⟩
      exact and_iff_left fun _ spec _ _ => hs.usable spec

/-! ### A new plan -/

/-- A run that is cut off before it writes the id of its first price. -/
def cutOffEnv : SyncEnv where
  fails n := n = 3
  feed _ := euroFeed

/-- The plan is new, and two runs are cut off before one completes. -/
def cutOffWorld : SyncWorld :=
  [.syncStripeCatalog cutOffEnv, .syncStripeCatalog ⟨fun n => n = 5, cutOffEnv.feed⟩].foldl
    (catalogStep asciiTables eurSettings) newPlanWorld

/-- The run that completes keeps the price that the first one has made. -/
theorem cutOffWorld_completes : (catalogAct asciiTables eurSettings cutOffWorld
    (.syncStripeCatalog euroEnv)).isSome = true := by
  decide +kernel

theorem sound_after_history_cutOff :
    ∃ w', handle asciiTables euroEnv eurSettings cutOffWorld = .ok ⟨⟩ w' ∧
      (w'.Sound asciiTables eurSettings ↔ cutOffWorld.SendsAll asciiTables eurSettings euroEnv ∧
        ∀ row spec, w'.tables.Handled eurSettings row →
          w'.tables.rowSpec asciiTables row = some spec → cutOffWorld.stripe.Usable spec) := by
  obtain ⟨w', hw'⟩ := Option.isSome_iff_exists.mp cutOffWorld_completes
  have hrun := catalogAct_run hw'
  exact ⟨w', hrun, sound_after_history asciiTables eurSettings (w := newPlanWorld)
    ⟨by decide, by decide⟩ _ euroEnv (by decide +kernel) hrun⟩

theorem quiet_after_history_cutOff :
    ∃ w', handle asciiTables euroEnv eurSettings cutOffWorld = .ok ⟨⟩ w' ∧
      ∀ env', w'.Alike (final (handle asciiTables env' eurSettings) w') := by
  obtain ⟨w', hw'⟩ := Option.isSome_iff_exists.mp cutOffWorld_completes
  have hrun := catalogAct_run hw'
  exact ⟨w', hrun, quiet_after_history asciiTables eurSettings (w := newPlanWorld)
    ⟨by decide, by decide⟩ _ euroEnv (by decide +kernel) hrun (by decide +kernel)⟩

theorem sound_runs_newPlan :
    Runs.Always (catalogAct asciiTables eurSettings) (fun w => w.stripe.KeyedActive) newPlanWorld
        [.syncStripeCatalog euroEnv, .edit newPlanWorld.catalog, .syncStripeCatalog calm] ∧
      Runs.EachMove (catalogAct asciiTables eurSettings) (SoundIfSent asciiTables eurSettings)
        newPlanWorld
        [.syncStripeCatalog euroEnv, .edit newPlanWorld.catalog, .syncStripeCatalog calm] :=
  sound_runs asciiTables eurSettings ⟨by decide, by decide⟩ (fun _ _ h => by cases h) _
    (by decide +kernel)

end Saasmint
