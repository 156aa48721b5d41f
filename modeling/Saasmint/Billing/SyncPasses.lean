/-
Saasmint/Billing/SyncPasses.lean

The amounts that a run of `sync_stripe_catalog` sends to Stripe.

They do not depend on Stripe: a pass over the offers (`CatalogTables.pass`) calls
the FX job where an offer has no row yet and notes the amount that each offer
has at its turn.  The rounds of a run follow the pass (`Follows`, `follows`): the
tables are those of the pass but for the ids, and each offer that was sent has on
its row the id of a price of that amount.
-/
import Saasmint.Billing.SyncRounds

namespace Saasmint

open PyStr Programs

/-! ### The pass -/

/-- A pass: the tables, the calls of the feed so far, and the amounts sent, the
last one first. -/
structure Pass where
  tables : CatalogTables
  fetches : Nat
  sent : List (Offer × Int)

/-- The turn of an offer. -/
def Pass.turn (u : UnicodeTables) (feed : Nat → FxFetch) (p : Pass) (o : Offer) : Pass :=
  let s := fxFirst u feed o (p.tables, p.fetches)
  ⟨s.1, s.2, (s.1.offerAmount o).elim p.sent fun unitAmount => (o, unitAmount) :: p.sent⟩

/-- The pass over some offers. -/
def CatalogTables.pass (u : UnicodeTables) (feed : Nat → FxFetch) (fetches : Nat)
    (t : CatalogTables) (offers : List Offer) : Pass :=
  offers.foldl (Pass.turn u feed) ⟨t, fetches, []⟩

/-- The amounts that a run sends: the pass over its offers. -/
def SyncWorld.pass (u : UnicodeTables) (st : Settings) (env : SyncEnv) (w : SyncWorld) : Pass :=
  w.tables.pass u env.feed w.fetches (w.tables.offers u st)

/-- No amount is moved once it has been sent, by a call of the FX job for another
offer of the same run. -/
def SyncWorld.SentStays (u : UnicodeTables) (st : Settings) (env : SyncEnv)
    (w : SyncWorld) : Prop :=
  ∀ o ∈ w.tables.offers u st, ((w.pass u st env).sent.lookup o).isSome = true →
    (w.pass u st env).tables.offerAmount o = (w.pass u st env).sent.lookup o

instance (u : UnicodeTables) (st : Settings) (env : SyncEnv) (w : SyncWorld) :
    Decidable (w.SentStays u st env) :=
  inferInstanceAs (Decidable (∀ o ∈ w.tables.offers u st,
    ((w.pass u st env).sent.lookup o).isSome = true →
      (w.pass u st env).tables.offerAmount o = (w.pass u st env).sent.lookup o))

section Pass

variable {u : UnicodeTables} {feed : Nat → FxFetch} {fetches : Nat} {t t' : CatalogTables}
  {o : Offer} {offers : List Offer}

theorem pass_concat (t : CatalogTables) (offers : List Offer) (o : Offer) :
    t.pass u feed fetches (offers ++ [o]) = (t.pass u feed fetches offers).turn u feed o :=
  List.foldl_concat ..

theorem pass_constraints (hc : t.Constraints) :
    (t.pass u feed fetches offers).tables.Constraints := by
  induction offers using List.reverseRecOn with
  | nil => exact hc
  | append_singleton offers o ih =>
    rw [pass_concat]
    exact fxFirst_constraints ih

theorem pass_sameSold : t.SameSold (t.pass u feed fetches offers).tables := by
  induction offers using List.reverseRecOn with
  | nil => exact .refl t
  | append_singleton offers o ih =>
    rw [pass_concat]
    exact ih.trans (fxFirst_sameSold feed o (_, _))

/-- A turn sends the amount that there is. -/
theorem lookup_turn (p : Pass) (o o' : Offer) :
    (p.turn u feed o).sent.lookup o' = if o' = o then
      ((p.turn u feed o).tables.offerAmount o).or (p.sent.lookup o) else p.sent.lookup o' := by
  unfold Pass.turn
  dsimp only
  rcases (fxFirst u feed o (p.tables, p.fetches)).1.offerAmount o with - | a
  · split
    · rename_i heq
      rw [heq]
      rfl
    · rfl
  · rw [Option.elim_some, List.lookup_cons]
    split
    · rename_i hbeq
      rw [if_pos (by simpa using hbeq)]
      rfl
    · rename_i hbeq
      rw [if_neg (by simpa using hbeq)]

/-- What was sent was on offer. -/
theorem mem_of_sent {unitAmount : Int}
    (h : (t.pass u feed fetches offers).sent.lookup o = some unitAmount) : o ∈ offers := by
  induction offers using List.reverseRecOn with
  | nil => cases h
  | append_singleton offers o' ih =>
    rw [pass_concat, lookup_turn] at h
    rw [List.mem_append, List.mem_singleton]
    split at h
    · exact Or.inr ‹_›
    · exact Or.inl (ih h)

/-- A USD amount is sent as it is. -/
theorem sent_usd (ho : o ∈ offers) (husd : o.currency = "usd") :
    (t.pass u feed fetches offers).sent.lookup o = some o.item.amount := by
  induction offers using List.reverseRecOn with
  | nil => cases ho
  | append_singleton offers o' ih =>
    rw [List.mem_append, List.mem_singleton] at ho
    rw [pass_concat, lookup_turn]
    split
    · rename_i heq
      subst heq
      rw [CatalogTables.offerAmount, if_pos husd]
      rfl
    · exact ih (ho.resolve_right ‹_›)

/-- A row that there is stays. -/
theorem offerAmount_fxFirst (hc : t.Constraints) {o o' : Offer} {n : Nat}
    (h : (t.offerAmount o').isSome = true) :
    ((fxFirst u feed o (t, n)).1.offerAmount o').isSome = true := by
  unfold fxFirst
  split
  · exact h
  · unfold CatalogTables.offerAmount at h ⊢
    split
    · rfl
    · rename_i husd
      rw [if_neg husd] at h
      unfold CatalogTables.amounts CatalogTables.afterFx at *
      rw [Option.isSome_map] at h ⊢
      split
      · exact h
      · rw [localizedRow_synced u _ _ hc]
        obtain ⟨r, hr⟩ := Option.isSome_iff_exists.mp h
        rw [hr]
        rfl

theorem offerAmount_pass (hc : t.Constraints) (h : (t.offerAmount o).isSome = true) :
    ((t.pass u feed fetches offers).tables.offerAmount o).isSome = true := by
  induction offers using List.reverseRecOn with
  | nil => exact h
  | append_singleton offers o' ih =>
    rw [pass_concat]
    exact offerAmount_fxFirst (pass_constraints hc) ih

/-- An offer that has a row is sent. -/
theorem sent_of_isSome (hc : t.Constraints) (ho : o ∈ offers)
    (h : (t.offerAmount o).isSome = true) :
    (t.pass u feed fetches offers).sent.lookup o ≠ none := by
  induction offers using List.reverseRecOn with
  | nil => cases ho
  | append_singleton offers o' ih =>
    rw [List.mem_append, List.mem_singleton] at ho
    rw [pass_concat, lookup_turn]
    split
    · rename_i heq
      subst heq
      have hamount : ((t.pass u feed fetches (offers ++ [o])).tables.offerAmount o).isSome = true :=
        offerAmount_pass hc h
      rw [pass_concat] at hamount
      obtain ⟨a, ha⟩ := Option.isSome_iff_exists.mp hamount
      rw [ha]
      exact Option.some_ne_none a
    · exact ih (ho.resolve_right ‹_›)

/-- A pass does not look at the ids. -/
theorem fxFirst_congr (feed : Nat → FxFetch) (o : Offer) {s s' : CatalogTables × Nat}
    (ht : s'.1.unstamped = s.1.unstamped) (hn : s'.2 = s.2) :
    (fxFirst u feed o s').1.unstamped = (fxFirst u feed o s).1.unstamped ∧
      (fxFirst u feed o s').2 = (fxFirst u feed o s).2 := by
  unfold fxFirst
  rw [CatalogTables.offerAmount_congr ht]
  split
  · exact ⟨ht, hn⟩
  · rw [hn]
    exact ⟨CatalogTables.afterFx_congr ht _, rfl⟩

end Pass

/-! ### Rows of offers -/

section Offers

variable {u : UnicodeTables} {t : CatalogTables} {st : Settings}

theorem mem_offers {o : Offer} :
    o ∈ t.offers u st ↔ o.currency ∈ st.billingCurrencies ∧ o.item ∈ t.sold u := by
  unfold CatalogTables.offers
  rw [List.mem_flatMap]
  constructor
  · rintro ⟨currency, hcurrency, ho⟩
    obtain ⟨item, hitem, rfl⟩ := List.mem_map.mp ho
    exact ⟨hcurrency, hitem⟩
  · intro ⟨hcurrency, hitem⟩
    exact ⟨o.currency, hcurrency, List.mem_map.mpr ⟨o.item, hitem, rfl⟩⟩

/-- What is sold has its own price. -/
theorem sold_owner_inj (hc : t.Constraints) {s s' : SoldItem} (hs : s ∈ t.sold u)
    (hs' : s' ∈ t.sold u) (h : s.owner = s'.owner) : s = s' := by
  have hnodup : ((t.sold u).map SoldItem.owner).Nodup := by
    unfold CatalogTables.sold
    rw [List.map_map, List.map_append, List.nodup_append']
    refine ⟨CatalogTables.soldPlans_owners hc, CatalogTables.soldProducts_owners hc, ?_⟩
    intro owner howner howner'
    obtain ⟨x, hx, rfl⟩ := List.mem_map.mp howner
    obtain ⟨x', hx', heq⟩ := List.mem_map.mp howner'
    obtain ⟨plan, -, hplan⟩ := List.mem_filterMap.mp hx
    obtain ⟨pp, -, rfl⟩ := Option.map_eq_some_iff.mp hplan
    obtain ⟨product, -, hproduct⟩ := List.mem_filterMap.mp hx'
    obtain ⟨pp', -, rfl⟩ := Option.map_eq_some_iff.mp hproduct
    cases heq
  exact List.inj_on_of_nodup_map hnodup hs hs' h

/-- Different offers have different rows. -/
theorem rowKey_inj (hc : t.Constraints) {o o' : Offer} (ho : o ∈ t.offers u st)
    (ho' : o' ∈ t.offers u st) (h : o.rowKey = o'.rowKey) : o = o' := by
  have hsold := (mem_offers.mp ho).2
  have hsold' := (mem_offers.mp ho').2
  rcases o with ⟨currency, item⟩
  rcases o' with ⟨currency', item'⟩
  unfold Offer.rowKey at h
  dsimp only at h hsold hsold'
  split at h <;> split at h
  · rename_i husd husd'
    rw [husd, husd', sold_owner_inj hc hsold hsold' (RowKey.usd.inj h)]
  · cases h
  · cases h
  · obtain ⟨howner, rfl⟩ := RowKey.localized.inj h
    rw [sold_owner_inj hc hsold hsold' howner]

end Offers

/-! ### The rounds follow the pass -/

section Follows

variable {existing : List (String × FetchedPrice)} {s s' s'' : StripeCatalog} {spec : PriceSpec}
  {id : String}

theorem UpsertedAs.of_grows (hs : s.Grows s') (h : UpsertedAs existing s' spec id) :
    UpsertedAs existing s spec id := by
  cases h with
  | kept f hf hm hid => exact .kept f hf hm hid
  | created hmiss hnew =>
    refine .created hmiss fun p hp hpid => ?_
    obtain ⟨p', hp', hterms⟩ := hs.prices p hp
    exact hnew p' hp' (hterms.id.trans hpid)

/-- The price with an id is one that a row asked for. -/
def PricedAs (s : StripeCatalog) (id : String) (spec : PriceSpec) : Prop :=
  ∃ p ∈ s.prices, p.id = id ∧ p.Matches spec

theorem PricedAs.grows (hs : s.Grows s') (h : PricedAs s id spec) : PricedAs s' id spec := by
  obtain ⟨p, hp, hid, hm⟩ := h
  obtain ⟨p', hp', hterms⟩ := hs.prices p hp
  exact ⟨p', hp', hterms.id.trans hid, hterms.matches_iff.mpr hm⟩

/-- After some offers of a run that began in `w`. -/
structure Follows (u : UnicodeTables) (env : SyncEnv) (existing : List (String × FetchedPrice))
    (w : SyncWorld) (done : List Offer) (w' : SyncWorld) : Prop where
  tables : w'.tables.unstamped
    = (w.tables.pass u env.feed w.fetches done).tables.unstamped
  fetches : w'.fetches = (w.tables.pass u env.feed w.fetches done).fetches
  grows : w.stripe.Grows w'.stripe
  sent : ∀ o unitAmount, (w.tables.pass u env.feed w.fetches done).sent.lookup o = some unitAmount →
    ∃ id, w'.tables.storedId o.rowKey = some id ∧
      UpsertedAs existing w.stripe (o.spec unitAmount) id ∧
      PricedAs w'.stripe id (o.spec unitAmount)
  unsent : ∀ key, (∀ o, (w.tables.pass u env.feed w.fetches done).sent.lookup o ≠ none →
    o.rowKey ≠ key) → w'.tables.storedId key = w.tables.storedId key

variable {u : UnicodeTables} {env : SyncEnv} {st : Settings} {w w₁ w' : SyncWorld}

theorem PageOf.known {keys : List String} (hs : s.WellFormed) (h : PageOf existing keys s) :
    Known existing s := by
  intro key f hf
  obtain ⟨l₁, l₂, rfl, -⟩ := List.lookup_eq_some_iff.mp hf
  have hprice := h.sound key f (by simp)
  exact ⟨_, ((StripeCatalog.priceByKey_eq_some_iff hs).mp hprice).1, rfl, rfl, rfl, rfl⟩

/-- One round follows one turn. -/
theorem Follows.round (st : Settings) {done : List Offer} {o : Offer}
    (hknown : Known existing w.stripe)
    (hdone : ∀ o' ∈ done, o' ∈ w.tables.offers u st) (ho : o ∈ w.tables.offers u st)
    (h : Follows u env existing w done w₁) (hround : ItemRound u env existing o w₁ w') :
    Follows u env existing w (done ++ [o]) w' := by
  set p := w.tables.pass u env.feed w.fetches done with hp
  obtain ⟨hfx₁, hfx₂⟩ : (fxFirst u env.feed o (w₁.tables, w₁.fetches)).1.unstamped
        = (fxFirst u env.feed o (p.tables, p.fetches)).1.unstamped ∧
      (fxFirst u env.feed o (w₁.tables, w₁.fetches)).2
        = (fxFirst u env.feed o (p.tables, p.fetches)).2 :=
    fxFirst_congr env.feed o h.tables h.fetches
  have hsame : w.tables.SameSold w₁.tables :=
    pass_sameSold.trans (CatalogTables.SameSold.of_unstamped h.tables)
  have hturn : w.tables.pass u env.feed w.fetches (done ++ [o]) = p.turn u env.feed o :=
    pass_concat _ _ _
  have hgrows := h.grows.trans hround.grows
  cases hround with
  | skipped hfx hstripe hnone =>
    rw [← hfx] at hfx₁ hfx₂
    have hsent : (p.turn u env.feed o).sent = p.sent := by
      unfold Pass.turn
      dsimp only
      rw [← CatalogTables.offerAmount_congr hfx₁, hnone]
      rfl
    have hstored : ∀ key, w'.tables.storedId key = w₁.tables.storedId key := by
      intro key
      have hkey := fxFirst_storedId (u := u) env.feed o
        (s := (w₁.tables, w₁.fetches)) w₁.catalog.constraints key
      rwa [← hfx] at hkey
    constructor
    · rw [hturn]
      exact hfx₁
    · rw [hturn]
      exact hfx₂
    · exact hgrows
    · rw [hturn, hsent, hstripe]
      intro o' unitAmount hsent'
      rw [hstored]
      exact h.sent o' unitAmount hsent'
    · rw [hturn, hsent]
      intro key hkey
      rw [hstored]
      exact h.unsent key hkey
  | upserted w₂ w₃ a id hfx hstripe₁ hamount hupsert htables hstripe hfetches =>
    rw [← hfx] at hfx₁ hfx₂
    have hstep := upsertPrice_ok hupsert
    have hround : ItemRound u env existing o w₁ w' :=
      .upserted w₂ w₃ a id hfx hstripe₁ hamount hupsert htables hstripe hfetches
    have hamount' : (p.turn u env.feed o).tables.offerAmount o = some a := by
      rw [← hamount]
      exact (CatalogTables.offerAmount_congr hfx₁ o).symm
    have hsold : o.item ∈ w₂.tables.sold u := by
      have hsame₂ := hsame.trans (fxFirst_sameSold (u := u) env.feed o (w₁.tables, w₁.fetches))
      rw [← hfx] at hsame₂
      rw [hsame₂.sold]
      exact (mem_offers.mp ho).2
    have hstored : w'.tables.storedId o.rowKey = some id := by
      rw [htables, hstep.tables, CatalogTables.storedId_stamp, if_pos]
      refine ⟨rfl, holdsKey_rowKey hsold ?_⟩
      rw [hamount]
      rfl
    constructor
    · rw [hturn, htables, CatalogTables.unstamped_stamp, hstep.tables]
      exact hfx₁
    · rw [hturn, hfetches, hstep.fetches]
      exact hfx₂
    · exact hgrows
    · rw [hturn]
      intro o' unitAmount hsent
      rw [lookup_turn] at hsent
      split at hsent
      · rename_i heq
        subst heq
        rw [hamount'] at hsent
        cases hsent
        refine ⟨id, hstored, ?_, ?_⟩
        · apply hstep.returned.of_grows
          rw [hstripe₁]
          exact h.grows
        · rw [hstripe]
          apply hstep.price
          rw [hstripe₁]
          exact hknown.grows h.grows
      · -- another row that was sent keeps its id
        rename_i hne
        obtain ⟨id', hid', hupserted, hpriced⟩ := h.sent o' unitAmount hsent
        refine ⟨id', ?_, hupserted, hpriced.grows hround.grows⟩
        rw [hround.storedId_of_ne]
        · exact hid'
        · intro hkey
          exact hne (rowKey_inj w.catalog.constraints (hdone o' (mem_of_sent hsent)) ho hkey)
    · rw [hturn]
      intro key hkey
      have hne : o.rowKey ≠ key := by
        apply hkey
        rw [lookup_turn, if_pos rfl, hamount']
        exact Option.some_ne_none a
      rw [hround.storedId_of_ne hne.symm]
      apply h.unsent
      intro o' hsent
      apply hkey
      rw [lookup_turn]
      split
      · rw [hamount']
        exact Option.some_ne_none a
      · exact hsent

/-- **The rounds follow the pass.** -/
theorem SyncRun.follows {w₀ : SyncWorld} (hw : w.stripe.WellFormed)
    (h : SyncRun u env st existing w w₀ w₁ w') :
    Follows u env existing w (w.tables.offers u st) w₁ := by
  refine h.items.invariant (I := Follows u env existing w) ?_ ?_
  · intro done o rest s s' hl hfollows hround
    refine hfollows.round st (h.prefetch.known hw) (fun o' ho' => ?_) ?_ hround
    · rw [hl]
      exact List.mem_append_left _ ho'
    · rw [hl]
      simp
  · have htables : w₀.tables = w.tables := congrArg Catalog.toCatalogTables h.alike.catalog
    refine ⟨?_, h.alike.fetches, ?_, nofun, fun _ _ => ?_⟩
    · rw [htables]
      rfl
    · rw [h.stripe]
      exact .refl _
    · rw [htables]

theorem SyncRun.countriesOnly {w₀ : SyncWorld} (h : SyncRun u env st existing w w₀ w₁ w') :
    CountriesOnly w₁ w' := countriesOnly_of_through h.countries

theorem SyncRun.sameSold {w₀ : SyncWorld} (hw : w.stripe.WellFormed)
    (h : SyncRun u env st existing w w₀ w₁ w') : w.tables.SameSold w'.tables :=
  (pass_sameSold.trans (.of_unstamped (h.follows hw).tables)).trans h.countriesOnly.sameSold

theorem SyncRun.grows {w₀ : SyncWorld} (hw : w.stripe.WellFormed)
    (h : SyncRun u env st existing w w₀ w₁ w') : w.stripe.Grows w'.stripe :=
  (h.follows hw).grows.trans h.countriesOnly.grows

theorem rowKey_ne_country (o : Offer) (owner : PriceOwner) (country : String) :
    o.rowKey ≠ .country owner country := by
  unfold Offer.rowKey
  intro h
  split at h
  · cases h
  · cases h

/-- What a run leaves on the row of an offer that it has sent. -/
theorem SyncRun.sent {w₀ : SyncWorld} (hw : w.stripe.WellFormed)
    (h : SyncRun u env st existing w w₀ w₁ w') {o : Offer} {unitAmount : Int}
    (hsent : (w.tables.pass u env.feed w.fetches (w.tables.offers u st)).sent.lookup o
      = some unitAmount) :
    ∃ id, w'.tables.storedId o.rowKey = some id ∧
      UpsertedAs existing w.stripe (o.spec unitAmount) id ∧
      PricedAs w'.stripe id (o.spec unitAmount) := by
  obtain ⟨id, hid, hupserted, hpriced⟩ := (h.follows hw).sent o unitAmount hsent
  refine ⟨id, ?_, hupserted, hpriced.grows h.countriesOnly.grows⟩
  rw [h.countriesOnly.storedId _ (rowKey_ne_country o)]
  exact hid

/-- A row that no offer sent keeps its id. -/
theorem SyncRun.unsent {w₀ : SyncWorld} (hw : w.stripe.WellFormed)
    (h : SyncRun u env st existing w w₀ w₁ w') {key : RowKey}
    (hcountry : ∀ owner country, key ≠ .country owner country)
    (hkey : ∀ o, (w.tables.pass u env.feed w.fetches (w.tables.offers u st)).sent.lookup o ≠ none →
      o.rowKey ≠ key) : w'.tables.storedId key = w.tables.storedId key := by
  rw [h.countriesOnly.storedId _ hcountry]
  exact (h.follows hw).unsent key hkey

theorem SyncRun.offerAmount {w₀ : SyncWorld} (hw : w.stripe.WellFormed)
    (h : SyncRun u env st existing w w₀ w₁ w') (o : Offer) :
    w'.tables.offerAmount o
      = (w.tables.pass u env.feed w.fetches (w.tables.offers u st)).tables.offerAmount o := by
  rw [h.countriesOnly.offerAmount, CatalogTables.offerAmount_congr (h.follows hw).tables]

/-- A country row that a run has left, with a price at its base. -/
def CountryMinted (u : UnicodeTables) (t : CatalogTables) (w' : SyncWorld)
    (cp : CountryPrice) : Prop :=
  ∃ item cp' id, t.soldItem u cp.owner = some item ∧ cp.recomputeBase u = .ok cp' ∧
    w'.tables.countryRow cp.owner cp.country = some { cp' with stripePriceId := some id } ∧
    PricedAs w'.stripe id
      ⟨countryLookupKey u item.baseKey cp.country, cp'.baseMinor, cp.currency, item.recurring⟩

/-- Every country row of an active owner is minted. -/
theorem SyncRun.countryMinted {w₀ : SyncWorld} (hw : w.stripe.WellFormed)
    (h : SyncRun u env st existing w w₀ w₁ w') :
    ∀ cp ∈ w₁.tables.activeCountryPrices, CountryMinted u w₁.tables w' cp := by
  have hc₁ := w₁.catalog.constraints
  have hknown : Known existing w₁.stripe := (h.prefetch.known hw).grows (h.follows hw).grows
  have hkeys := CatalogTables.activeCountryPrices_keys hc₁
  have hchain := h.countries.invariant
    (I := fun done s => w₁.tables.SameSold s.tables ∧ w₁.stripe.Grows s.stripe ∧
      (∀ cp ∈ done, CountryMinted u w₁.tables s cp) ∧
      ∀ cp ∈ w₁.tables.activeCountryPrices, cp.key ∉ done.map CountryPrice.key →
        s.tables.countryRow cp.owner cp.country = some cp) ?_ ?_
  · exact hchain.2.2.1
  · rintro done cp rest s s' hl ⟨hsame, hgrows, hdone, hrest⟩ hround
    have hcp : cp ∈ w₁.tables.activeCountryPrices := by
      rw [hl]
      simp
    rw [hl, List.map_append, List.map_cons, List.nodup_append'] at hkeys
    have hnew : cp.key ∉ done.map CountryPrice.key :=
      fun hmem => hkeys.2.2 hmem (List.mem_cons_self ..)
    refine ⟨hsame.trans hround.sameSold, hgrows.trans hround.grows, fun r hr => ?_,
      fun r hr hnot => ?_⟩
    · rcases List.mem_append.mp hr with hr | hr
      · obtain ⟨item, r', id, hitem, hbase, hrow, hpriced⟩ := hdone r hr
        refine ⟨item, r', id, hitem, hbase, ?_, hpriced.grows hround.grows⟩
        rw [hround.countryRow_of_ne]
        · exact hrow
        · exact fun hkey => hnew (List.mem_map.mpr ⟨r, hr, hkey⟩)
      · rw [List.mem_singleton.mp hr]
        have hstamped := hround.stamped (hrest cp hcp hnew) (hknown.grows hgrows)
        rw [hsame.soldItem] at hstamped
        exact hstamped
    · rw [List.map_append, List.mem_append, not_or, List.map_singleton, List.mem_singleton] at hnot
      rw [hround.countryRow_of_ne hnot.2]
      exact hrest r hr hnot.1
  · refine ⟨.refl _, .refl _, ?_, ?_⟩
    · intro cp hcp
      cases hcp
    · intro cp hcp _
      exact (CatalogTables.countryRow_eq_some_iff hc₁).mpr
        ⟨(CatalogTables.mem_activeCountryPrices.mp hcp).1, rfl, rfl⟩

/-- The prefetch knows the price under the key of an offer. -/
theorem key_mem_collectLookupKeys {t : CatalogTables} {o : Offer} (ho : o ∈ t.offers u st) :
    o.key ∈ t.collectLookupKeys u st.billingCurrencies := by
  obtain ⟨hcurrency, hsold⟩ := mem_offers.mp ho
  unfold CatalogTables.collectLookupKeys
  obtain ⟨x, hx, hitem⟩ := List.mem_map.mp hsold
  unfold Offer.key
  rw [← hitem]
  rcases List.mem_append.mp hx with hx | hx
  · obtain ⟨plan, hplan, hx⟩ := List.mem_filterMap.mp hx
    obtain ⟨pp, -, rfl⟩ := Option.map_eq_some_iff.mp hx
    apply List.mem_append_left
    apply List.mem_append_left
    exact List.mem_flatMap.mpr ⟨plan, hplan, List.mem_map.mpr ⟨o.currency, hcurrency, rfl⟩⟩
  · obtain ⟨product, hproduct, hx⟩ := List.mem_filterMap.mp hx
    obtain ⟨pp, -, rfl⟩ := Option.map_eq_some_iff.mp hx
    apply List.mem_append_left
    apply List.mem_append_right
    exact List.mem_flatMap.mpr ⟨product, hproduct, List.mem_map.mpr ⟨o.currency, hcurrency, rfl⟩⟩

/-- Which of the prices that there were a row gets. -/
theorem UpsertedAs.id_eq_iff {x : String}
    (hfetched : (existing.lookup spec.key).map FetchedPrice.toStripePrice = s.priceByKey spec.key)
    (h : UpsertedAs existing s spec id) (hx : ∃ p ∈ s.prices, p.id = x) :
    id = x ↔ ∃ p, s.priceByKey spec.key = some p ∧ p.id = x ∧ p.Matches spec := by
  cases h with
  | kept f hf hm hid =>
    rw [hf] at hfetched
    constructor
    · rintro rfl
      exact ⟨f.toStripePrice, hfetched.symm, hid.symm, hm⟩
    · rintro ⟨p, hp, rfl, -⟩
      rw [hid, Option.some.inj (hp.symm.trans hfetched.symm)]
  | created hmiss hnew =>
    constructor
    · rintro rfl
      obtain ⟨p, hp, hpid⟩ := hx
      exact absurd hpid (hnew p hp)
    · rintro ⟨p, hp, -, hm⟩
      rw [hp] at hfetched
      obtain ⟨f, hf, rfl⟩ := Option.map_eq_some_iff.mp hfetched
      exact absurd hm (hmiss f hf)

end Follows

end Saasmint
