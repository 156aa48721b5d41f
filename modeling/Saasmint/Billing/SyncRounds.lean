/-
Saasmint/Billing/SyncRounds.lean

What the rounds of `sync_stripe_catalog` do, one offer or one country row at a
time.

A round is told the prices by a prefetch that may be stale by then.  All the
same the id that it writes is that of the prefetched price, if that is a match,
and else a new one (`UpsertedAs`); the Stripe Prices all stay, under their terms
(`StripeCatalog.Grows`).  In the tables a round stamps its own row, after the FX
job where that row was missing (`syncItem_ok`).
-/
import Saasmint.Billing.SyncRows

namespace Saasmint

open PyStr Programs

/-! ### Stripe only grows -/

/-- The price under its terms, which Stripe never changes. -/
structure StripePrice.SameTerms (p p' : StripePrice) : Prop where
  id : p'.id = p.id
  unitAmount : p'.unitAmount = p.unitAmount
  currency : p'.currency = p.currency
  recurring : p'.recurring = p.recurring

theorem StripePrice.SameTerms.matches_iff {p p' : StripePrice} (h : p.SameTerms p')
    {spec : PriceSpec} : p'.Matches spec ↔ p.Matches spec := by
  unfold StripePrice.Matches
  rw [priceMatches_iff, priceMatches_iff, h.unitAmount, h.currency, h.recurring]

/-- The prices are still there, under their terms. -/
structure StripeCatalog.Grows (s s' : StripeCatalog) : Prop where
  wellFormed : s.WellFormed → s'.WellFormed
  prices : ∀ p ∈ s.prices, ∃ p' ∈ s'.prices, p.SameTerms p'

namespace StripeCatalog.Grows

variable {s s' s'' : StripeCatalog}

theorem refl (s : StripeCatalog) : s.Grows s where
  wellFormed := id
  prices p hp := ⟨p, hp, rfl, rfl, rfl, rfl⟩

theorem of_prices (h : s'.prices = s.prices) : s.Grows s' where
  wellFormed hs := ⟨by rw [h]; exact hs.ids, by rw [h]; exact hs.keys⟩
  prices p hp := ⟨p, by rwa [h], rfl, rfl, rfl, rfl⟩

theorem trans (h : s.Grows s') (h' : s'.Grows s'') : s.Grows s'' where
  wellFormed := h'.wellFormed ∘ h.wellFormed
  prices p hp := by
    obtain ⟨p', hp', hterms⟩ := h.prices p hp
    obtain ⟨p'', hp'', hterms'⟩ := h'.prices p' hp'
    exact ⟨p'', hp'', hterms'.id.trans hterms.id, hterms'.unitAmount.trans hterms.unitAmount,
      hterms'.currency.trans hterms.currency, hterms'.recurring.trans hterms.recurring⟩

/-- An UPDATE that leaves the terms and the lookup key. -/
theorem modifyPrice (s : StripeCatalog) (id : String) {f : StripePrice → StripePrice}
    (hterms : ∀ p : StripePrice, p.SameTerms (f p)) (hkey : ∀ p, (f p).lookupKey = p.lookupKey) :
    s.Grows (s.modifyPrice id f) where
  wellFormed hs := hs.modifyPrice id (fun p => (hterms p).id) hkey
  prices p hp := by
    by_cases hid : p.id = id
    · exact ⟨f p, Table.mem_update.mpr (Or.inr ⟨p, hp, hid, rfl⟩), hterms p⟩
    · exact ⟨p, Table.mem_update.mpr (Or.inl ⟨hp, hid⟩), rfl, rfl, rfl, rfl⟩

theorem createPrice {p : StripePrice} {key : String} (hid : p.id ∉ s.prices.map StripePrice.id)
    (hkey : p.lookupKey = some key) : s.Grows (s.createPrice p) where
  wellFormed hs := hs.createPrice hid hkey
  prices q hq := by
    refine ⟨released p.lookupKey q, List.mem_append_left _ (List.mem_map_of_mem hq), ?_⟩
    unfold released
    split
    · exact ⟨rfl, rfl, rfl, rfl⟩
    · exact ⟨rfl, rfl, rfl, rfl⟩

end StripeCatalog.Grows

/-! ### What every run keeps -/

/-- A property of the prices that no call to Stripe breaks. -/
structure StripeInvariant (P : StripeCatalog → Prop) : Prop where
  of_prices : ∀ s s' : StripeCatalog, s'.prices = s.prices → P s → P s'
  modifyPrice : ∀ (s : StripeCatalog) (id : String) (f : StripePrice → StripePrice),
    (∀ p : StripePrice, p.SameTerms (f p)) → (∀ p, (f p).lookupKey = p.lookupKey) → P s →
    P (s.modifyPrice id f)
  createPrice : ∀ (s : StripeCatalog) (p : StripePrice),
    p.id = newObjectId "price_" (s.prices.map StripePrice.id) → p.lookupKey.isSome = true → P s →
    P (s.createPrice p)

section Keeps

variable {u : UnicodeTables} {env : SyncEnv} {st : Settings}
    {existing : List (String × FetchedPrice)}
  {P : StripeCatalog → Prop}

theorem StripeInvariant.wellFormed : StripeInvariant StripeCatalog.WellFormed where
  of_prices _ _ h hs := ⟨by rw [h]; exact hs.ids, by rw [h]; exact hs.keys⟩
  modifyPrice _ id _ hterms hkey hs := hs.modifyPrice id (fun p => (hterms p).id) hkey
  createPrice s p hid hkey hs := by
    obtain ⟨key, hkey⟩ := Option.isSome_iff_exists.mp hkey
    exact hs.createPrice (hid ▸ StripeCatalog.newObjectId_not_mem _ _) hkey

/-- A call or a save that leaves the prices. -/
theorem keeps_stripe {α : Type} {m : Sync α} (hP : StripeInvariant P)
    (hm : ∀ w, wp m (fun _ w' => w'.stripe.prices = w.stripe.prices)
      (fun _ w' => w'.stripe.prices = w.stripe.prices) w) :
    Keeps (fun w : SyncWorld => P w.stripe) m := by
  intro w hw
  exact wp_mono (hm w) (fun _ w' h => hP.of_prices _ _ h hw) fun _ w' h => hP.of_prices _ _ h hw

theorem keeps_tables (hP : StripeInvariant P) :
    Keeps (fun w : SyncWorld => P w.stripe) Sync.tables :=
  keeps_stripe hP fun _ => rfl

theorem keeps_save (hP : StripeInvariant P) (f : CatalogTables → CatalogTables) :
    Keeps (fun w : SyncWorld => P w.stripe) (Sync.save env f) := by
  apply keeps_stripe hP
  intro w
  unfold wp Sync.save
  dsimp only
  split_ifs
  · rfl
  · rcases CatalogTables.commit (f w.tables) with e | catalog <;> rfl

theorem keeps_runSyncLocalizedPrices (hP : StripeInvariant P) :
    Keeps (fun w : SyncWorld => P w.stripe) (Sync.runSyncLocalizedPrices u env) := by
  apply keeps_stripe hP
  intro w
  unfold wp Sync.runSyncLocalizedPrices
  dsimp only
  rcases syncLocalizedPrices u (env.feed w.fetches) w.tables with e | ⟨t, n⟩
  · rfl
  · dsimp only
    rcases t.commit with e | catalog <;> rfl

theorem keeps_priceCreate (hP : StripeInvariant P) (key : String) (unitAmount : Int)
    (currency : String) (recurring : Option PlanInterval) (product : String) :
    Keeps (fun w : SyncWorld => P w.stripe)
      (Sync.priceCreate env key unitAmount currency recurring product) := by
  intro w hw
  show wp (Sync.call env _ >>= fun _ => pure _) _ _ w
  rw [wp_bind]
  apply Sync.wp_call
  · exact hP.createPrice w.stripe _ rfl rfl hw
  · exact hw

theorem keeps_upsertPrice (hP : StripeInvariant P) (key : String) (unitAmount : Int)
    (currency : String) (item : SoldItem) :
    Keeps (fun w : SyncWorld => P w.stripe)
      (upsertPrice env existing key unitAmount currency item) := by
  have hmodify : ∀ id f, Keeps (fun w : SyncWorld => P w.stripe) (Sync.productModify env id f) :=
    fun id f => Sync.keeps_call (fun _ h => h) fun w h => hP.of_prices w.stripe _ rfl h
  have hproduct : ∀ product, Keeps (fun w : SyncWorld => P w.stripe)
      (syncStripeProduct env product item) := by
    rintro (p | id)
    · exact Keeps.ite (hmodify _ _) (Keeps.pure _)
    · exact Keeps.ite (hmodify _ _) (Keeps.pure _)
  unfold upsertPrice
  split
  · split
    · refine (hproduct _).bind fun _ => Keeps.bind ?_ fun _ => Keeps.pure _
      unfold ensureTaxBehavior
      refine Keeps.ite (Sync.keeps_call (fun _ h => h) fun w h => ?_) (Keeps.pure _)
      exact hP.modifyPrice w.stripe _ _ (fun _ => ⟨rfl, rfl, rfl, rfl⟩) (fun _ => rfl) h
    · refine Keeps.bind (Sync.keeps_call (fun _ h => h) fun w h => ?_) fun _ =>
        (hproduct _).bind fun _ => keeps_priceCreate hP _ _ _ _ _
      exact hP.modifyPrice w.stripe _ _ (fun _ => ⟨rfl, rfl, rfl, rfl⟩) (fun _ => rfl) h
  · refine Keeps.bind ?_ fun _ => keeps_priceCreate hP _ _ _ _ _
    intro w hw
    show wp (Sync.call env _ >>= fun _ => pure _) _ _ w
    rw [wp_bind]
    apply Sync.wp_call
    · exact hP.of_prices w.stripe _ rfl hw
    · exact hw

theorem keeps_syncItem (hP : StripeInvariant P) (currency : String) (x : SoldItem × String) :
    Keeps (fun w : SyncWorld => P w.stripe) (syncItem u env existing currency x) := by
  refine Keeps.bind ?_ fun r => ?_
  · unfold unitAmountFor
    refine Keeps.ite (Keeps.pure _) ((keeps_tables hP).bind fun t => ?_)
    split
    · exact Keeps.pure _
    · exact (keeps_runSyncLocalizedPrices hP).bind fun _ => (keeps_tables hP).bind fun _ =>
        Keeps.pure _
  · split
    · exact Keeps.pure _
    · refine (keeps_upsertPrice hP _ _ _ _).bind fun id => ?_
      unfold writePriceId
      refine Keeps.ite (Keeps.ite (Keeps.pure _) (keeps_save hP _))
        ((keeps_tables hP).bind fun t => ?_)
      split
      · exact Keeps.pure _
      · exact Keeps.ite (Keeps.pure _) (keeps_save hP _)

theorem keeps_syncCountryRow (hP : StripeInvariant P) (cp : CountryPrice) :
    Keeps (fun w : SyncWorld => P w.stripe) (syncCountryRow u env existing cp) := by
  refine (keeps_tables hP).bind fun t => ?_
  split
  · exact Keeps.throw _
  · exact Keeps.throw _
  · rename_i item cp' _ _
    have hupsert : Keeps (fun w : SyncWorld => P w.stripe) (do
        let id ← upsertPrice env existing (countryLookupKey u item.baseKey cp.country) cp'.baseMinor
          cp.currency item
        if cp.stripePriceId = some id then pure ⟨⟩
        else Sync.save env fun t => t.stamp (.country cp.owner cp.country) id) :=
      (keeps_upsertPrice hP _ _ _ _).bind fun id => Keeps.ite (Keeps.pure _) (keeps_save hP _)
    exact Keeps.ite ((keeps_save hP _).bind fun _ => hupsert) hupsert

/-- **No run breaks it**, wherever it is cut off. -/
theorem keeps_handle (hP : StripeInvariant P) :
    Keeps (fun w : SyncWorld => P w.stripe) (handle u env st) := by
  refine (keeps_tables hP).bind fun t => Keeps.bind ?_ fun existing => Keeps.bind ?_ fun _ => ?_
  · apply Keeps.foldlM
    intro result batch _
    refine Keeps.bind ?_ fun _ => Keeps.pure _
    apply keeps_stripe hP
    intro w
    show wp (Sync.call env id >>= fun _ => _) _ _ w
    rw [wp_bind]
    apply Sync.wp_call
    · rfl
    · rfl
  · apply Keeps.forM
    intro currency _
    exact ((keeps_tables hP).bind fun t => Keeps.forM fun x _ =>
      keeps_syncItem hP _ x).bind fun _ =>
      (keeps_tables hP).bind fun t => Keeps.forM fun x _ => keeps_syncItem hP _ x
  · exact (keeps_tables hP).bind fun t => Keeps.forM fun cp _ => keeps_syncCountryRow hP cp

end Keeps

/-! ### The id that an upsert returns -/

/-- What the prefetch knows are prices that there are. -/
def Known (existing : List (String × FetchedPrice)) (s : StripeCatalog) : Prop :=
  ∀ key f, existing.lookup key = some f → ∃ p ∈ s.prices, f.toStripePrice.SameTerms p

theorem Known.grows {existing : List (String × FetchedPrice)} {s s' : StripeCatalog}
    (h : Known existing s) (hs : s.Grows s') : Known existing s' := by
  intro key f hf
  obtain ⟨p, hp, hterms⟩ := h key f hf
  obtain ⟨p', hp', hterms'⟩ := hs.prices p hp
  exact ⟨p', hp', hterms'.id.trans hterms.id, hterms'.unitAmount.trans hterms.unitAmount,
    hterms'.currency.trans hterms.currency, hterms'.recurring.trans hterms.recurring⟩

/-- The prefetched price is kept if it is a match, and replaced by a new one if not. -/
inductive UpsertedAs (existing : List (String × FetchedPrice)) (s : StripeCatalog)
    (spec : PriceSpec) (id : String) : Prop
  | kept (f : FetchedPrice) (hf : existing.lookup spec.key = some f) (hm : f.Matches spec)
      (hid : id = f.id)
  | created (hmiss : ∀ f, existing.lookup spec.key = some f → ¬ f.Matches spec)
      (hnew : ∀ p ∈ s.prices, p.id ≠ id)

/-- What an upsert does, whatever has happened since the prefetch. -/
structure UpsertStep (existing : List (String × FetchedPrice)) (w : SyncWorld) (spec : PriceSpec)
    (id : String) (w' : SyncWorld) : Prop where
  catalog : w'.catalog = w.catalog
  fetches : w'.fetches = w.fetches
  grows : w.stripe.Grows w'.stripe
  returned : UpsertedAs existing w.stripe spec id
  price : Known existing w.stripe → ∃ p ∈ w'.stripe.prices, p.id = id ∧ p.Matches spec

section Upsert

variable {env : SyncEnv} {w : SyncWorld} {existing : List (String × FetchedPrice)} {item : SoldItem}
  {key currency : String} {unitAmount : Int} {E : String → SyncWorld → Prop}

/-- The world is the same but for Stripe, which has grown. -/
structure SyncWorld.StripeGrows (w w' : SyncWorld) : Prop where
  catalog : w'.catalog = w.catalog
  fetches : w'.fetches = w.fetches
  grows : w.stripe.Grows w'.stripe

theorem SyncWorld.StripeGrows.trans {w w' w'' : SyncWorld} (h : w.StripeGrows w')
    (h' : w'.StripeGrows w'') : w.StripeGrows w'' :=
  ⟨h'.catalog.trans h.catalog, h'.fetches.trans h.fetches, h.grows.trans h'.grows⟩

/-- A call that lets Stripe grow. -/
theorem keeps_stripeGrows {f : SyncWorld → SyncWorld} (hf : ∀ w : SyncWorld, w.StripeGrows (f w))
    (w : SyncWorld) : Keeps w.StripeGrows (Sync.call env f) := by
  apply Sync.keeps_call
  · exact fun _ h => ⟨h.catalog, h.fetches, h.grows⟩
  · exact fun w₁ h => h.trans (hf w₁)

theorem syncStripeProduct_grows (product : ProductRef) (w : SyncWorld) :
    Keeps w.StripeGrows (syncStripeProduct env product item) := by
  have hmodify : ∀ id f, Keeps w.StripeGrows (Sync.productModify env id f) := by
    intro id f
    apply keeps_stripeGrows
    exact fun _ => ⟨rfl, rfl, .of_prices rfl⟩
  rcases product with p | id
  · exact Keeps.ite (hmodify _ _) (Keeps.pure _)
  · exact Keeps.ite (hmodify _ _) (Keeps.pure _)

theorem ensureTaxBehavior_grows (price : FetchedPrice) (w : SyncWorld) :
    Keeps w.StripeGrows (ensureTaxBehavior env price) := by
  unfold ensureTaxBehavior
  split
  · apply keeps_stripeGrows
    exact fun w => ⟨rfl, rfl, .modifyPrice w.stripe _ (fun _ => ⟨rfl, rfl, rfl, rfl⟩) fun _ => rfl⟩
  · exact Keeps.pure _

theorem priceArchive_grows (id : String) (w : SyncWorld) :
    Keeps w.StripeGrows (Sync.priceArchive env id) := by
  apply keeps_stripeGrows
  exact fun w => ⟨rfl, rfl, .modifyPrice w.stripe id (fun _ => ⟨rfl, rfl, rfl, rfl⟩) fun _ => rfl⟩

/-- A new price, where the prefetch knows no match. -/
theorem priceCreate_step (spec : PriceSpec) (hE : ∀ e w', E e w') {w₁ : SyncWorld}
    (hw₁ : w.StripeGrows w₁)
    (hmiss : ∀ f, existing.lookup spec.key = some f → ¬ f.Matches spec) (product : String) :
    wp (Sync.priceCreate env spec.key spec.unitAmount spec.currency spec.recurring product)
      (fun id w' => UpsertStep existing w spec id w') E w₁ := by
  set p : StripePrice := ⟨newObjectId "price_" (w₁.stripe.prices.map StripePrice.id), product,
    spec.unitAmount, spec.currency, spec.recurring, some spec.key, .exclusive, true⟩ with hp
  have hid : p.id ∉ w₁.stripe.prices.map StripePrice.id := StripeCatalog.newObjectId_not_mem _ _
  show wp (Sync.call env _ >>= fun _ => pure p.id) _ _ w₁
  rw [wp_bind]
  apply Sync.wp_call
  · refine ⟨hw₁.catalog, hw₁.fetches, hw₁.grows.trans (.createPrice hid rfl), ?_, ?_⟩
    · refine .created hmiss fun q hq hqid => ?_
      -- the price is still there when the new one gets its id
      obtain ⟨q', hq', hterms⟩ := hw₁.grows.prices q hq
      exact hid (List.mem_map.mpr ⟨q', hq', hterms.id.trans hqid⟩)
    · exact fun _ => ⟨p, List.mem_append_right _ (List.mem_singleton.mpr rfl), rfl,
        priceMatches_iff.mpr ⟨rfl, rfl, rfl⟩⟩
  · exact hE _ _

/-- **The upsert**, with a prefetch that may be stale. -/
theorem upsertPrice_step (hE : ∀ e w', E e w') :
    wp (upsertPrice env existing key unitAmount currency item)
      (fun id w' => UpsertStep existing w (item.spec key unitAmount currency) id w') E w := by
  have hrefl : w.StripeGrows w := ⟨rfl, rfl, .refl _⟩
  unfold upsertPrice
  rcases hf : existing.lookup key with - | f
  · -- nothing under the key
    dsimp only
    rw [wp_bind]
    show wp (Sync.call env _ >>= fun _ => pure _) _ _ w
    rw [wp_bind]
    apply Sync.wp_call
    · rw [wp_pure]
      apply priceCreate_step (item.spec key unitAmount currency) hE
      · exact ⟨rfl, rfl, .of_prices rfl⟩
      · intro f' hf'
        cases hf.symm.trans hf'
    · exact hE _ _
  · dsimp only
    by_cases hm : f.Matches (item.spec key unitAmount currency)
    · rw [if_pos (c := priceMatches f.toStripePrice unitAmount currency item.recurring = true) hm,
        wp_bind]
      apply wp_mono (syncStripeProduct_grows _ w w hrefl)
      · intro _ w₁ h₁
        rw [wp_bind]
        apply wp_mono (ensureTaxBehavior_grows f w w₁ h₁)
        · intro _ w₂ h₂
          refine ⟨h₂.catalog, h₂.fetches, h₂.grows, .kept f hf hm rfl, fun hknown => ?_⟩
          obtain ⟨p, hp, hterms⟩ := hknown key f hf
          obtain ⟨p', hp', hterms'⟩ := h₂.grows.prices p hp
          exact ⟨p', hp', hterms'.id.trans hterms.id,
            hterms'.matches_iff.mpr (hterms.matches_iff.mpr hm)⟩
        · exact fun _ _ _ => hE _ _
      · exact fun _ _ _ => hE _ _
    · rw [if_neg (c := priceMatches f.toStripePrice unitAmount currency item.recurring = true) hm,
        wp_bind]
      apply wp_mono (priceArchive_grows f.id w w hrefl)
      · intro _ w₁ h₁
        rw [wp_bind]
        apply wp_mono (syncStripeProduct_grows _ w w₁ h₁)
        · intro _ w₂ h₂
          apply priceCreate_step (item.spec key unitAmount currency) hE h₂
          intro f' hf'
          obtain rfl := Option.some.inj (hf.symm.trans hf')
          exact hm
        · exact fun _ _ _ => hE _ _
      · exact fun _ _ _ => hE _ _

theorem UpsertStep.tables {spec : PriceSpec} {id : String} {w' : SyncWorld}
    (h : UpsertStep existing w spec id w') : w'.tables = w.tables := by
  show w'.catalog.toCatalogTables = w.catalog.toCatalogTables
  rw [h.catalog]

theorem upsertPrice_ok {id : String} {w' : SyncWorld}
    (h : upsertPrice env existing key unitAmount currency item w = .ok id w') :
    UpsertStep existing w (item.spec key unitAmount currency) id w' :=
  wp_ok (E := fun _ _ => True) (upsertPrice_step fun _ _ => trivial) h

end Upsert

/-! ### What is sold stays -/

/-- The same plans and products are sold, at the same USD amounts. -/
structure CatalogTables.SameSold (t t' : CatalogTables) : Prop where
  plans : t'.plans = t.plans
  planPrices : t'.planPrices.map PlanPrice.unstamped = t.planPrices.map PlanPrice.unstamped
  products : t'.products = t.products
  productPrices :
    t'.productPrices.map ProductPrice.unstamped = t.productPrices.map ProductPrice.unstamped

namespace CatalogTables.SameSold

variable {u : UnicodeTables} {t t' t'' : CatalogTables}

theorem refl (t : CatalogTables) : t.SameSold t := ⟨rfl, rfl, rfl, rfl⟩

theorem trans (h : t.SameSold t') (h' : t'.SameSold t'') : t.SameSold t'' :=
  ⟨h'.plans.trans h.plans, h'.planPrices.trans h.planPrices, h'.products.trans h.products,
    h'.productPrices.trans h.productPrices⟩

theorem symm (h : t.SameSold t') : t'.SameSold t :=
  ⟨h.plans.symm, h.planPrices.symm, h.products.symm, h.productPrices.symm⟩

theorem of_unstamped (h : t'.unstamped = t.unstamped) : t.SameSold t' where
  plans := show t'.unstamped.plans = t.unstamped.plans by rw [h]
  planPrices := congrArg CatalogTables.planPrices h
  products := show t'.unstamped.products = t.unstamped.products by rw [h]
  productPrices := congrArg CatalogTables.productPrices h

theorem stamp (t : CatalogTables) (key : RowKey) (id : String) : t.SameSold (t.stamp key id) :=
  of_unstamped (unstamped_stamp t key id)

theorem afterFx (t : CatalogTables) (fetch : FxFetch) : t.SameSold (t.afterFx u fetch) := by
  unfold CatalogTables.afterFx
  split
  · exact refl t
  · exact ⟨rfl, rfl, rfl, rfl⟩

/-- The tables of the other but for the localized and the country rows. -/
theorem unstamped_eq (h : t.SameSold t') :
    t'.unstamped = { t.unstamped with
      localizedPrices := t'.unstamped.localizedPrices
      countryPrices := t'.unstamped.countryPrices } := by
  unfold unstamped
  rw [h.plans, h.planPrices, h.products, h.productPrices]

theorem soldPlans (h : t.SameSold t') : t'.soldPlans.map Prod.fst = t.soldPlans.map Prod.fst := by
  rw [← soldPlans_unstamped, h.unstamped_eq, ← @soldPlans_unstamped t]
  rfl

theorem soldProducts (h : t.SameSold t') :
    (t'.soldProducts u).map Prod.fst = (t.soldProducts u).map Prod.fst := by
  rw [← soldProducts_unstamped, h.unstamped_eq, ← @soldProducts_unstamped u t]
  rfl

theorem sold (h : t.SameSold t') : t'.sold u = t.sold u := by
  unfold CatalogTables.sold
  rw [List.map_append, List.map_append, h.soldPlans, h.soldProducts]

theorem offers (h : t.SameSold t') (st : Settings) : t'.offers u st = t.offers u st := by
  unfold CatalogTables.offers
  rw [h.sold]

theorem soldItem (h : t.SameSold t') (owner : PriceOwner) :
    t'.soldItem u owner = t.soldItem u owner := by
  unfold CatalogTables.soldItem
  rw [h.sold]

theorem activeOwner (h : t.SameSold t') (owner : PriceOwner) :
    t'.activeOwner owner = t.activeOwner owner := by
  rw [← activeOwner_unstamped, h.unstamped_eq, ← @activeOwner_unstamped t]
  rfl

end CatalogTables.SameSold

/-! ### Rounds -/

/-- The FX job is called for an offer without a row. -/
def fxFirst (u : UnicodeTables) (feed : Nat → FxFetch) (o : Offer) (s : CatalogTables × Nat) :
    CatalogTables × Nat :=
  if (s.1.offerAmount o).isSome then s else (s.1.afterFx u (feed s.2), s.2 + 1)

section Rounds

variable (u : UnicodeTables) (env : SyncEnv) (existing : List (String × FetchedPrice))

/-- One offer: once it has an amount, a price is found or made for it, and its
id goes on the row. -/
inductive ItemRound (o : Offer) (w w' : SyncWorld) : Prop
  | skipped
      (hfx : (w'.tables, w'.fetches) = fxFirst u env.feed o (w.tables, w.fetches))
      (hstripe : w'.stripe = w.stripe)
      (hnone : w'.tables.offerAmount o = none)
  | upserted (w₁ w₂ : SyncWorld) (unitAmount : Int) (id : String)
      (hfx : (w₁.tables, w₁.fetches) = fxFirst u env.feed o (w.tables, w.fetches))
      (hstripe₁ : w₁.stripe = w.stripe)
      (hamount : w₁.tables.offerAmount o = some unitAmount)
      (hupsert : upsertPrice env existing o.key unitAmount o.currency o.item w₁ = .ok id w₂)
      (htables : w'.tables = w₂.tables.stamp o.rowKey id)
      (hstripe : w'.stripe = w₂.stripe)
      (hfetches : w'.fetches = w₂.fetches)

/-- One country row, as it was read: its base is derived again, and a price is
found or made for it. -/
inductive CountryRound (cp : CountryPrice) (w w' : SyncWorld) : Prop
  | upserted (item : SoldItem) (cp' : CountryPrice) (w₁ w₂ : SyncWorld) (id : String)
      (hitem : w.tables.soldItem u cp.owner = some item)
      (hbase : cp.recomputeBase u = .ok cp')
      (htables₁ : w₁.tables
        = w.tables.saveCountryRow cp.key fun r => { r with baseMinor := cp'.baseMinor })
      (hstripe₁ : w₁.stripe = w.stripe)
      (hfetches₁ : w₁.fetches = w.fetches)
      (hupsert : upsertPrice env existing (countryLookupKey u item.baseKey cp.country) cp'.baseMinor
        cp.currency item w₁ = .ok id w₂)
      (htables : w'.tables = w₂.tables.stamp (.country cp.owner cp.country) id)
      (hstripe : w'.stripe = w₂.stripe)
      (hfetches : w'.fetches = w₂.fetches)

end Rounds

/-! ### The rounds of the loops -/

section Loops

variable {u : UnicodeTables} {env : SyncEnv} {existing : List (String × FetchedPrice)}
  {w w' w₁ w₂ : SyncWorld} {item : SoldItem} {currency : String}

theorem save_ok {f : CatalogTables → CatalogTables} (h : Sync.save env f w = .ok ⟨⟩ w') :
    w'.tables = f w.tables ∧ w'.stripe = w.stripe ∧ w'.fetches = w.fetches := by
  unfold Sync.save at h
  dsimp only at h
  split at h
  · cases h
  · split at h
    · rename_i catalog hcommit
      cases h
      exact ⟨CatalogTables.commit_ok hcommit, rfl, rfl⟩
    · cases h

theorem runSyncLocalizedPrices_ok (h : Sync.runSyncLocalizedPrices u env w = .ok ⟨⟩ w') :
    w'.tables = w.tables.afterFx u (env.feed w.fetches) ∧ w'.fetches = w.fetches + 1 ∧
      w'.stripe = w.stripe := by
  unfold Sync.runSyncLocalizedPrices at h
  dsimp only at h
  split at h
  · cases h
  · rename_i t n hjob
    split at h
    · rename_i catalog hcommit
      cases h
      refine ⟨?_, rfl, rfl⟩
      show catalog.toCatalogTables = _
      rw [CatalogTables.commit_ok hcommit]
      exact CatalogTables.eq_afterFx w.catalog.constraints hjob
    · cases h

/-- `_unit_amount_for` returns the amount that there is once it is done. -/
theorem unitAmountFor_ok {r : Option Int} (h : unitAmountFor u env item currency w = .ok r w₁) :
    (w₁.tables, w₁.fetches) = fxFirst u env.feed ⟨currency, item⟩ (w.tables, w.fetches) ∧
      w₁.stripe = w.stripe ∧ r = w₁.tables.offerAmount ⟨currency, item⟩ := by
  unfold unitAmountFor at h
  unfold fxFirst CatalogTables.offerAmount
  dsimp only
  split at h
  · rename_i husd
    cases h
    rw [if_pos husd]
    exact ⟨(if_pos rfl).symm, rfl, rfl⟩
  · rename_i husd
    rw [if_neg husd, if_neg husd]
    obtain ⟨t, w₀, ht, h⟩ := bind_eq_ok h
    cases ht
    unfold CatalogTables.amounts
    rcases hrow : w.tables.localizedRow item.owner currency with - | r₀
    · rw [hrow] at h
      obtain ⟨_, w₀, hjob, h⟩ := bind_eq_ok h
      obtain ⟨htables, hfetches, hstripe⟩ := runSyncLocalizedPrices_ok hjob
      obtain ⟨t, w₀', ht, h⟩ := bind_eq_ok h
      cases ht
      cases h
      exact ⟨by rw [htables, hfetches]; rfl, hstripe, rfl⟩
    · rw [hrow] at h
      cases h
      rw [hrow]
      exact ⟨rfl, rfl, rfl⟩

/-- `_write_price_id` puts the id on the row. -/
theorem writePriceId_ok {o : Offer} {current id : String}
    (hcurrent : o.currency = "usd" → w.tables.storedId (.usd o.item.owner) = some current)
    (hamount : (w.tables.offerAmount o).isSome = true)
    (h : writePriceId env o.item.owner current id o.currency w = .ok ⟨⟩ w') :
    w'.tables = w.tables.stamp o.rowKey id ∧ w'.stripe = w.stripe ∧ w'.fetches = w.fetches := by
  unfold writePriceId at h
  unfold Offer.rowKey
  split at h
  · rename_i husd
    rw [if_pos husd]
    split at h
    · rename_i hid
      cases h
      have hstored := hcurrent husd
      rw [← hid] at hstored
      exact ⟨(CatalogTables.stamp_of_storedId w.catalog.constraints hstored).symm, rfl, rfl⟩
    · exact save_ok h
  · rename_i husd
    rw [if_neg husd]
    obtain ⟨t, w₀, ht, h⟩ := bind_eq_ok h
    cases ht
    unfold CatalogTables.offerAmount CatalogTables.amounts at hamount
    rw [if_neg husd, Option.isSome_map] at hamount
    obtain ⟨r, hr⟩ := Option.isSome_iff_exists.mp hamount
    rw [hr] at h
    dsimp only at h
    split at h
    · rename_i hid
      cases h
      have hstored : w.tables.storedId (.localized o.item.owner o.currency) = some id := by
        unfold CatalogTables.storedId
        dsimp only
        rw [hr]
        exact hid
      exact ⟨(CatalogTables.stamp_of_storedId w.catalog.constraints hstored).symm, rfl, rfl⟩
    · exact save_ok h

/-! #### The FX job, if it is called -/

theorem fxFirst_constraints {feed : Nat → FxFetch} {o : Offer} {s : CatalogTables × Nat}
    (hc : s.1.Constraints) :
    (fxFirst u feed o s).1.Constraints := by
  unfold fxFirst
  split
  · exact hc
  · exact CatalogTables.afterFx_constraints hc _

theorem fxFirst_storedId (feed : Nat → FxFetch) (o : Offer) {s : CatalogTables × Nat}
    (hc : s.1.Constraints) (key : RowKey) : (fxFirst u feed o s).1.storedId key
      = s.1.storedId key := by
  unfold fxFirst
  split
  · rfl
  · exact CatalogTables.storedId_afterFx hc _ key

theorem fxFirst_sameSold (feed : Nat → FxFetch) (o : Offer) (s : CatalogTables × Nat) :
    s.1.SameSold (fxFirst u feed o s).1 := by
  unfold fxFirst
  split
  · exact .refl _
  · exact .afterFx _ _

/-! #### What a round of an offer does -/

/-- A row that has an amount can be stamped. -/
theorem holdsKey_rowKey {t : CatalogTables} {o : Offer} (hsold : o.item ∈ t.sold u)
    (h : (t.offerAmount o).isSome = true) : t.holdsKey o.rowKey = true := by
  unfold CatalogTables.offerAmount at h
  unfold Offer.rowKey
  split
  · rename_i husd
    obtain ⟨x, hx, hitem⟩ := List.mem_map.mp hsold
    rcases List.mem_append.mp hx with hx | hx
    · obtain ⟨plan, -, hplan⟩ := List.mem_filterMap.mp hx
      obtain ⟨pp, hpp, rfl⟩ := Option.map_eq_some_iff.mp hplan
      rw [← hitem]
      exact List.find?_isSome.mpr ⟨pp, List.mem_of_find?_eq_some hpp, by simp⟩
    · obtain ⟨product, -, hproduct⟩ := List.mem_filterMap.mp hx
      obtain ⟨pp, hpp, rfl⟩ := Option.map_eq_some_iff.mp hproduct
      rw [← hitem]
      exact List.find?_isSome.mpr ⟨pp, List.mem_of_find?_eq_some hpp, by simp⟩
  · rename_i husd
    rw [if_neg husd] at h
    unfold CatalogTables.amounts at h
    rwa [Option.isSome_map] at h

theorem ItemRound.sameSold {o : Offer} (h : ItemRound u env existing o w w') :
    w.tables.SameSold w'.tables := by
  have hsame := fxFirst_sameSold (u := u) env.feed o (w.tables, w.fetches)
  cases h with
  | skipped hfx _ _ =>
    rwa [← hfx] at hsame
  | upserted w₁ w₂ a id hfx _ _ hupsert htables _ _ =>
    rw [← hfx] at hsame
    rw [htables, (upsertPrice_ok hupsert).tables]
    exact hsame.trans (.stamp _ _ _)

/-- The other rows keep their ids. -/
theorem ItemRound.storedId_of_ne {o : Offer} {key : RowKey} (h : ItemRound u env existing o w w')
    (hne : key ≠ o.rowKey) : w'.tables.storedId key = w.tables.storedId key := by
  have hstored := fxFirst_storedId (u := u) env.feed o (s := (w.tables, w.fetches))
    w.catalog.constraints key
  cases h with
  | skipped hfx _ _ =>
    rwa [← hfx] at hstored
  | upserted w₁ w₂ a id hfx _ _ hupsert htables _ _ =>
    rw [← hfx] at hstored
    rw [htables, (upsertPrice_ok hupsert).tables, CatalogTables.storedId_stamp,
      if_neg fun hkey => hne hkey.1]
    exact hstored

/-- Stripe grows. -/
theorem ItemRound.grows {o : Offer} (h : ItemRound u env existing o w w') :
    w.stripe.Grows w'.stripe := by
  cases h with
  | skipped _ hstripe _ =>
    rw [hstripe]
    exact .refl _
  | upserted w₁ w₂ a id _ hstripe₁ _ hupsert _ hstripe _ =>
    rw [hstripe, ← hstripe₁]
    exact (upsertPrice_ok hupsert).grows

/-- **A round of `_sync_plans` or `_sync_products`.** -/
theorem syncItem_ok {x : SoldItem × String}
    (hx : w.tables.storedId (.usd x.1.owner) = some x.2)
    (h : syncItem u env existing currency x w = .ok ⟨⟩ w') :
    ItemRound u env existing ⟨currency, x.1⟩ w w' := by
  obtain ⟨r, w₁, hamount, h⟩ := bind_eq_ok h
  obtain ⟨hfx, hstripe₁, rfl⟩ := unitAmountFor_ok hamount
  rcases ha : w₁.tables.offerAmount ⟨currency, x.1⟩ with - | a
  · rw [ha] at h
    cases h
    exact .skipped hfx hstripe₁ ha
  · rw [ha] at h
    obtain ⟨id, w₂, hupsert, h⟩ := bind_eq_ok h
    have hstep := upsertPrice_ok hupsert
    have hcurrent : w₂.tables.storedId (.usd x.1.owner) = some x.2 := by
      rw [hstep.tables, ← hx]
      have hstored := fxFirst_storedId (u := u) env.feed ⟨currency, x.1⟩
        (s := (w.tables, w.fetches)) w.catalog.constraints (.usd x.1.owner)
      rwa [← hfx] at hstored
    have hsome : (w₂.tables.offerAmount ⟨currency, x.1⟩).isSome = true := by
      rw [hstep.tables, ha]
      rfl
    obtain ⟨htables, hstripe, hfetches⟩ := writePriceId_ok (o := ⟨currency, x.1⟩)
      (fun _ => hcurrent) hsome h
    exact .upserted w₁ w₂ a id hfx hstripe₁ ha hupsert htables hstripe hfetches

/-! #### The loop over what is sold -/

namespace CatalogTables

variable {t : CatalogTables}

theorem mem_soldPlans_id (hc : t.Constraints) {x : SoldItem × String} (hx : x ∈ t.soldPlans) :
    t.storedId (.usd x.1.owner) = some x.2 := by
  obtain ⟨plan, -, hplan⟩ := List.mem_filterMap.mp hx
  obtain ⟨pp, hpp, rfl⟩ := Option.map_eq_some_iff.mp hplan
  have hfind := (Table.find?_eq_some_iff (Table.unique_some_iff.mpr hc.planPrice_pk) (v := pp.id)
    (a := pp)).mpr ⟨List.mem_of_find?_eq_some hpp, rfl⟩
  simp only [Option.some.injEq] at hfind
  show (t.planPrices.find? fun pp' => pp'.id = pp.id).map _ = _
  rw [hfind]
  rfl

theorem mem_soldProducts_id (hc : t.Constraints) {x : SoldItem × String}
    (hx : x ∈ t.soldProducts u) : t.storedId (.usd x.1.owner) = some x.2 := by
  obtain ⟨product, -, hproduct⟩ := List.mem_filterMap.mp hx
  obtain ⟨pp, hpp, rfl⟩ := Option.map_eq_some_iff.mp hproduct
  have hfind := (Table.find?_eq_some_iff (Table.unique_some_iff.mpr hc.productPrice_pk)
    (v := pp.id) (a := pp)).mpr ⟨List.mem_of_find?_eq_some hpp, rfl⟩
  simp only [Option.some.injEq] at hfind
  show (t.productPrices.find? fun pp' => pp'.id = pp.id).map _ = _
  rw [hfind]
  rfl

/-- Different owners of the rows found for different rows. -/
theorem owners_nodup {π ω : Type*} {l : List π} {rows : List ω} {id : π → UUID}
    (ownerId : ω → UUID) {rowId : ω → UUID} {f : ω → PriceOwner}
    (hf : ∀ r r', f r = f r' → rowId r = rowId r') (hl : (l.map id).Nodup)
    (hrows : (rows.map rowId).Nodup) :
    (l.filterMap fun p => (rows.find? fun r => ownerId r = id p).map f).Nodup := by
  have hpairwise := List.pairwise_map.mp hl
  apply List.pairwise_filterMap.mpr
  refine hpairwise.imp fun {p p'} hne owner howner owner' howner' heq => ?_
  obtain ⟨r, hr, rfl⟩ := Option.map_eq_some_iff.mp howner
  obtain ⟨r', hr', rfl⟩ := Option.map_eq_some_iff.mp howner'
  have hrr' : r = r' := (Table.unique_some_iff.mpr hrows).inj (List.mem_of_find?_eq_some hr)
    (List.mem_of_find?_eq_some hr') rfl (congrArg some (hf r r' heq).symm)
  have hid : ownerId r = id p := by simpa using List.find?_some hr
  have hid' : ownerId r' = id p' := by simpa using List.find?_some hr'
  rw [hrr', hid'] at hid
  exact hne hid.symm

theorem soldPlans_owners (hc : t.Constraints) : (t.soldPlans.map fun x => x.1.owner).Nodup := by
  have hplans : (t.activePlans.map Plan.id).Nodup :=
    (List.Sublist.map Plan.id List.filter_sublist).nodup hc.plan_pk
  have howners := owners_nodup PlanPrice.planId (f := fun pp => .planPrice pp.id)
    (fun _ _ h => PriceOwner.planPrice.inj h) hplans hc.planPrice_pk
  unfold soldPlans
  rw [List.map_filterMap]
  simp only [Option.map_map, Function.comp_def]
  exact howners

theorem soldProducts_owners (hc : t.Constraints) :
    ((t.soldProducts u).map fun x => x.1.owner).Nodup := by
  have hproducts : (t.activeProducts.map Product.id).Nodup :=
    (List.Sublist.map Product.id List.filter_sublist).nodup hc.product_pk
  have howners := owners_nodup ProductPrice.productId
    (f := fun pp => .productPrice pp.id) (fun _ _ h => PriceOwner.productPrice.inj h) hproducts
    hc.productPrice_pk
  unfold soldProducts
  rw [List.map_filterMap]
  simp only [Option.map_map, Function.comp_def]
  exact howners

end CatalogTables

/-- A loop over plans or products is a chain of rounds. -/
theorem syncItems_ok {l : List (SoldItem × String)}
    (hids : ∀ x ∈ l, w.tables.storedId (.usd x.1.owner) = some x.2)
    (howners : (l.map fun x => x.1.owner).Nodup)
    (h : l.forM (syncItem u env existing currency) w = .ok ⟨⟩ w') :
    Through (ItemRound u env existing) ((l.map Prod.fst).map (Offer.mk currency)) w w' := by
  rw [List.map_map]
  refine ((forM_eq_ok h).rounds (g := fun x : SoldItem × String => Offer.mk currency x.1)
    (I := fun rest s => (∀ x ∈ rest, s.tables.storedId (.usd x.1.owner) = some x.2) ∧
      (rest.map fun x => x.1.owner).Nodup) ?_ ⟨hids, howners⟩).1
  rintro x rest s s' ⟨hids, howners⟩ hround
  have hitem := syncItem_ok (hids x (List.mem_cons_self ..)) hround
  rw [List.map_cons, List.nodup_cons] at howners
  refine ⟨hitem, fun y hy => ?_, howners.2⟩
  rw [hitem.storedId_of_ne]
  · exact hids y (List.mem_cons_of_mem _ hy)
  · -- the row of another owner
    unfold Offer.rowKey
    split
    · intro howner
      have howner : y.1.owner = x.1.owner := RowKey.usd.inj howner
      exact howners.1 (List.mem_map.mpr ⟨y, hy, howner⟩)
    · exact nofun

theorem sameSold_of_through {l : List Offer} (h : Through (ItemRound u env existing) l w w') :
    w.tables.SameSold w'.tables := by
  induction h with
  | nil => exact .refl _
  | cons hround _ ih => exact hround.sameSold.trans ih

/-! #### The loop over the country rows -/

namespace CatalogTables

variable {t : CatalogTables}

theorem countryRow_saveCountryRow_of_ne {key : PriceOwner × String}
    {f : CountryPrice → CountryPrice} (hf : ∀ r, (f r).key = r.key) {owner : PriceOwner}
    {country : String} (hne : (owner, country) ≠ key) :
    (t.saveCountryRow key f).countryRow owner country = t.countryRow owner country := by
  show (Table.update CountryPrice.key key f t.countryPrices).find?
    (fun r => r.key = (owner, country)) = _
  rw [find?_update hf]
  simp only [if_neg hne, Option.map_id']
  rfl

theorem SameSold.saveCountryRow (t : CatalogTables) (key : PriceOwner × String)
    (f : CountryPrice → CountryPrice) : t.SameSold (t.saveCountryRow key f) := ⟨rfl, rfl, rfl, rfl⟩

theorem countryRow_eq_some_iff (hc : t.Constraints) {owner : PriceOwner} {country : String}
    {r : CountryPrice} :
    t.countryRow owner country = some r ↔
      r ∈ t.countryPrices ∧ r.owner = owner ∧ r.country = country := by
  have hu := Table.unique_some_iff.mpr hc.uniq_country_price_country
  have hfind := Table.find?_eq_some_iff hu (v := (owner, country)) (a := r)
  simpa [countryRow, Prod.mk.injEq] using hfind

theorem mem_activeCountryPrices {r : CountryPrice} :
    r ∈ t.activeCountryPrices ↔ r ∈ t.countryPrices ∧ t.activeOwner r.owner = true := by
  unfold activeCountryPrices
  rw [List.mem_mergeSort, List.mem_filter]

theorem activeCountryPrices_keys (hc : t.Constraints) :
    (t.activeCountryPrices.map CountryPrice.key).Nodup := by
  unfold activeCountryPrices
  rw [((List.mergeSort_perm _ _).map CountryPrice.key).nodup_iff]
  exact (List.Sublist.map _ List.filter_sublist).nodup hc.uniq_country_price_country

/-- A write of the base that is there. -/
theorem saveCountryRow_of_base (hc : t.Constraints) {cp : CountryPrice}
    (hrow : t.countryRow cp.owner cp.country = some cp) :
    t.saveCountryRow cp.key (fun r => { r with baseMinor := cp.baseMinor }) = t := by
  have hupdate : Table.update CountryPrice.key cp.key
      (fun r => { r with baseMinor := cp.baseMinor }) t.countryPrices = t.countryPrices := by
    apply update_eq_self hc.uniq_country_price_country
    intro r hr
    have hr : t.countryRow cp.owner cp.country = some r := hr
    cases hrow.symm.trans hr
    rfl
  unfold saveCountryRow
  rw [hupdate]

end CatalogTables

theorem CountryRound.sameSold {cp : CountryPrice} (h : CountryRound u env existing cp w w') :
    w.tables.SameSold w'.tables := by
  cases h with
  | upserted item cp' w₁ w₂ id _ _ htables₁ _ _ hupsert htables _ _ =>
    rw [htables, (upsertPrice_ok hupsert).tables, htables₁]
    exact (CatalogTables.SameSold.saveCountryRow _ _ _).trans (.stamp _ _ _)

theorem CountryRound.grows {cp : CountryPrice} (h : CountryRound u env existing cp w w') :
    w.stripe.Grows w'.stripe := by
  cases h with
  | upserted item cp' w₁ w₂ id _ _ _ hstripe₁ _ hupsert _ hstripe _ =>
    rw [hstripe, ← hstripe₁]
    exact (upsertPrice_ok hupsert).grows

/-- A write of a base leaves the ids. -/
theorem storedId_saveBase (t : CatalogTables) (k : PriceOwner × String) (base : Int)
    (key : RowKey) :
    (t.saveCountryRow k fun r => { r with baseMinor := base }).storedId key = t.storedId key := by
  rcases key with (k' | k') | ⟨owner, currency⟩ | ⟨owner, country⟩
  · rfl
  · rfl
  · rfl
  · show ((Table.update CountryPrice.key k _ t.countryPrices).find?
      fun r => r.key = (owner, country)).bind _ = _
    rw [find?_update (by exact fun _ => rfl)]
    show _ = (t.countryPrices.find? fun r => r.key = (owner, country)).bind _
    rcases t.countryPrices.find? _ with - | r
    · rfl
    · rw [Option.map_some, Option.bind_some, Option.bind_some]
      split <;> rfl

/-- The other rows keep their ids. -/
theorem CountryRound.storedId_of_ne {cp : CountryPrice} {key : RowKey}
    (h : CountryRound u env existing cp w w') (hne : key ≠ .country cp.owner cp.country) :
    w'.tables.storedId key = w.tables.storedId key := by
  cases h with
  | upserted item cp' w₁ w₂ id _ _ htables₁ _ _ hupsert htables _ _ =>
    rw [htables, (upsertPrice_ok hupsert).tables, htables₁, CatalogTables.storedId_stamp,
      if_neg fun hkey => hne hkey.1, storedId_saveBase]

/-- The localized rows stay. -/
theorem CountryRound.localizedPrices {cp : CountryPrice} (h : CountryRound u env existing cp w w') :
    w'.tables.localizedPrices = w.tables.localizedPrices := by
  cases h with
  | upserted item cp' w₁ w₂ id _ _ htables₁ _ _ hupsert htables _ _ =>
    rw [htables, (upsertPrice_ok hupsert).tables, htables₁]
    rfl

/-- No country row comes or goes. -/
theorem CountryRound.countryKeys {cp : CountryPrice} (h : CountryRound u env existing cp w w') :
    w'.tables.countryPrices.map CountryPrice.key = w.tables.countryPrices.map CountryPrice.key := by
  cases h with
  | upserted item cp' w₁ w₂ id _ _ htables₁ _ _ hupsert htables _ _ =>
    rw [htables, (upsertPrice_ok hupsert).tables, htables₁]
    exact (map_update CountryPrice.key (cp.owner, cp.country)
        (fun r => { r with stripePriceId := some id }) CountryPrice.key (fun _ => rfl) _).trans
      (map_update CountryPrice.key cp.key (fun r => { r with baseMinor := cp'.baseMinor })
        CountryPrice.key (fun _ => rfl) _)

/-- What the loop over the country rows leaves alone. -/
structure CountriesOnly (w w' : SyncWorld) : Prop where
  sameSold : w.tables.SameSold w'.tables
  grows : w.stripe.Grows w'.stripe
  localizedPrices : w'.tables.localizedPrices = w.tables.localizedPrices
  countryKeys :
    w'.tables.countryPrices.map CountryPrice.key = w.tables.countryPrices.map CountryPrice.key
  storedId : ∀ key, (∀ owner country, key ≠ .country owner country) →
    w'.tables.storedId key = w.tables.storedId key

theorem countriesOnly_of_through {l : List CountryPrice}
    (h : Through (CountryRound u env existing) l w w') : CountriesOnly w w' := by
  induction h with
  | nil => exact ⟨.refl _, .refl _, rfl, rfl, fun _ _ => rfl⟩
  | cons hround _ ih =>
    refine ⟨hround.sameSold.trans ih.sameSold, hround.grows.trans ih.grows,
      ih.localizedPrices.trans hround.localizedPrices, ih.countryKeys.trans hround.countryKeys,
      fun key hkey => ?_⟩
    exact (ih.storedId key hkey).trans (hround.storedId_of_ne (hkey _ _))

theorem CountriesOnly.offerAmount (h : CountriesOnly w w') (o : Offer) :
    w'.tables.offerAmount o = w.tables.offerAmount o := by
  unfold CatalogTables.offerAmount CatalogTables.amounts CatalogTables.localizedRow
  rw [h.localizedPrices]

/-- The other country rows stay. -/
theorem CountryRound.countryRow_of_ne {cp : CountryPrice} (h : CountryRound u env existing cp w w')
    {owner : PriceOwner} {country : String} (hne : (owner, country) ≠ cp.key) :
    w'.tables.countryRow owner country = w.tables.countryRow owner country := by
  cases h with
  | upserted item cp' w₁ w₂ id _ _ htables₁ _ _ hupsert htables _ _ =>
    rw [htables, (upsertPrice_ok hupsert).tables, htables₁]
    show ((CatalogTables.saveCountryRow _ _ _).saveCountryRow cp.key _).countryRow owner country = _
    rw [CatalogTables.countryRow_saveCountryRow_of_ne (by exact fun _ => rfl) hne,
      CatalogTables.countryRow_saveCountryRow_of_ne (by exact fun _ => rfl) hne]

/-- The row is left with its base and its id, which is that of a price at the base. -/
theorem CountryRound.stamped {cp : CountryPrice} (h : CountryRound u env existing cp w w')
    (hrow : w.tables.countryRow cp.owner cp.country = some cp) (hknown : Known existing w.stripe) :
    ∃ item cp' id, w.tables.soldItem u cp.owner = some item ∧ cp.recomputeBase u = .ok cp' ∧
      w'.tables.countryRow cp.owner cp.country = some { cp' with stripePriceId := some id } ∧
      ∃ p ∈ w'.stripe.prices, p.id = id ∧
        p.Matches ⟨countryLookupKey u item.baseKey cp.country, cp'.baseMinor, cp.currency,
          item.recurring⟩ := by
  cases h with
  | upserted item cp' w₁ w₂ id hitem hbase htables₁ hstripe₁ _ hupsert htables hstripe _ =>
    have hstep := upsertPrice_ok hupsert
    refine ⟨item, cp', id, hitem, hbase, ?_, ?_⟩
    · obtain ⟨base, -, rfl⟩ := CountryPrice.recomputeBase_spec u hbase
      rw [htables, hstep.tables, htables₁]
      show (Table.update CountryPrice.key cp.key _ (Table.update CountryPrice.key cp.key _
        w.tables.countryPrices)).find? (fun r => r.key = cp.key) = _
      have hrow : w.tables.countryPrices.find? (fun r => r.key = cp.key) = some cp := hrow
      rw [find?_update (by exact fun _ => rfl), find?_update (by exact fun _ => rfl), hrow]
      simp
    · rw [hstripe]
      apply hstep.price
      rwa [hstripe₁]

/-- **A round of `_sync_country_prices`.** -/
theorem syncCountryRow_ok {cp : CountryPrice}
    (hrow : w.tables.countryRow cp.owner cp.country = some cp)
    (h : syncCountryRow u env existing cp w = .ok ⟨⟩ w') :
    CountryRound u env existing cp w w' := by
  obtain ⟨t, w₀, ht, h⟩ := bind_eq_ok h
  cases ht
  rcases hitem : w.tables.soldItem u cp.owner with - | item
  · rw [hitem] at h
    cases h
  · rcases hbase : cp.recomputeBase u with e | cp'
    · rw [hitem, hbase] at h
      cases h
    · rw [hitem, hbase] at h
      -- the base is on the row, whether it was written or not
      have hsaved : ∃ w₁, (w₁.tables
            = w.tables.saveCountryRow cp.key fun r => { r with baseMinor := cp'.baseMinor }) ∧
          w₁.stripe = w.stripe ∧ w₁.fetches = w.fetches ∧
          (upsertPrice env existing (countryLookupKey u item.baseKey cp.country) cp'.baseMinor
              cp.currency item >>= fun id =>
            if cp.stripePriceId = some id then pure ⟨⟩
            else Sync.save env fun t => t.stamp (.country cp.owner cp.country) id) w₁
              = .ok ⟨⟩ w' := by
        dsimp only at h
        split at h
        · obtain ⟨_, w₁, hsave, h⟩ := bind_eq_ok h
          obtain ⟨htables, hstripe, hfetches⟩ := save_ok hsave
          exact ⟨w₁, htables, hstripe, hfetches, h⟩
        · rename_i hsame
          rw [← not_not.mp hsame]
          rw [← not_not.mp hsame] at h
          exact ⟨w, (CatalogTables.saveCountryRow_of_base w.catalog.constraints hrow).symm, rfl,
            rfl, h⟩
      obtain ⟨w₁, htables₁, hstripe₁, hfetches₁, h⟩ := hsaved
      obtain ⟨id, w₂, hupsert, h⟩ := bind_eq_ok h
      have htables₂ := (upsertPrice_ok hupsert).tables
      have hwrite : w'.tables = w₂.tables.stamp (.country cp.owner cp.country) id ∧
          w'.stripe = w₂.stripe ∧ w'.fetches = w₂.fetches := by
        split at h
        · rename_i hid
          cases h
          refine ⟨(CatalogTables.stamp_of_storedId w'.catalog.constraints ?_).symm, rfl, rfl⟩
          show w'.tables.storedId _ = _
          rw [htables₂, htables₁, ← hid]
          have hfind := @find?_update CountryPrice _ _ CountryPrice.key cp.key cp.key
            (fun r => { r with baseMinor := cp'.baseMinor }) (fun _ => rfl) w.tables.countryPrices
          have hrow : w.tables.countryPrices.find? (fun r => r.key = cp.key) = some cp := hrow
          rw [hrow] at hfind
          show ((Table.update CountryPrice.key cp.key _ w.tables.countryPrices).find?
            fun r => r.key = cp.key).bind _ = _
          rw [hfind]
          simp
        · exact save_ok h
      obtain ⟨htables, hstripe, hfetches⟩ := hwrite
      exact .upserted item cp' w₁ w₂ id hitem hbase htables₁ hstripe₁ hfetches₁ hupsert htables
        hstripe hfetches

/-- A loop over country rows is a chain of rounds. -/
theorem syncCountryPrices_ok (h : syncCountryPrices u env existing w = .ok ⟨⟩ w') :
    Through (CountryRound u env existing) w.tables.activeCountryPrices w w' := by
  obtain ⟨t, w₀, ht, h⟩ := bind_eq_ok h
  cases ht
  have hc := w.catalog.constraints
  have hrows : ∀ cp ∈ w.tables.activeCountryPrices,
      w.tables.countryRow cp.owner cp.country = some cp := by
    intro cp hcp
    exact (CatalogTables.countryRow_eq_some_iff hc).mpr
      ⟨(CatalogTables.mem_activeCountryPrices.mp hcp).1, rfl, rfl⟩
  have hchain := (forM_eq_ok h).rounds (S := CountryRound u env existing) (g := id)
    (I := fun rest s => (∀ cp ∈ rest, s.tables.countryRow cp.owner cp.country = some cp) ∧
      (rest.map CountryPrice.key).Nodup) ?_ ⟨hrows, CatalogTables.activeCountryPrices_keys hc⟩
  · rw [List.map_id] at hchain
    exact hchain.1
  rintro cp rest s s' ⟨hrows, hkeys⟩ hround
  have hcountry := syncCountryRow_ok (hrows cp (List.mem_cons_self ..)) hround
  rw [List.map_cons, List.nodup_cons] at hkeys
  refine ⟨hcountry, fun r hr => ?_, hkeys.2⟩
  rw [hcountry.countryRow_of_ne]
  · exact hrows r (List.mem_cons_of_mem _ hr)
  · intro hkey
    exact hkeys.1 (List.mem_map.mpr ⟨r, hr, hkey⟩)

/-- A currency is a chain of rounds, over the plans and then the products. -/
theorem syncCurrency_ok
    (h : (syncPlans u env existing currency >>= fun _ => syncProducts u env existing currency) w
      = .ok ⟨⟩ w') :
    Through (ItemRound u env existing) ((w.tables.sold u).map (Offer.mk currency)) w w' := by
  obtain ⟨_, w₁, hplans, hproducts⟩ := bind_eq_ok h
  obtain ⟨t, w₀, ht, hplans⟩ := bind_eq_ok hplans
  cases ht
  obtain ⟨t, w₀, ht, hproducts⟩ := bind_eq_ok hproducts
  cases ht
  have hplans := syncItems_ok (fun _ hx => CatalogTables.mem_soldPlans_id w.catalog.constraints hx)
    (CatalogTables.soldPlans_owners w.catalog.constraints) hplans
  have hproducts := syncItems_ok
    (fun _ hx => CatalogTables.mem_soldProducts_id w₁.catalog.constraints hx)
    (CatalogTables.soldProducts_owners w₁.catalog.constraints) hproducts
  rw [(sameSold_of_through hplans).soldProducts] at hproducts
  unfold CatalogTables.sold
  rw [List.map_append, List.map_append]
  exact hplans.append hproducts

end Loops

/-- What a run of the command is made of: the prefetch, a round for each offer
and a round for each country row. -/
structure SyncRun (u : UnicodeTables) (env : SyncEnv) (st : Settings)
    (existing : List (String × FetchedPrice)) (w w₀ w₁ w' : SyncWorld) : Prop where
  alike : w.Alike w₀
  stripe : w₀.stripe = w.stripe
  prefetch : PageOf existing (w.tables.collectLookupKeys u st.billingCurrencies) w.stripe
  items : Through (ItemRound u env existing) (w.tables.offers u st) w₀ w₁
  countries : Through (CountryRound u env existing) w₁.tables.activeCountryPrices w₁ w'

/-- **A run that returns has gone through all its rounds.** -/
theorem handle_ok {u : UnicodeTables} {env : SyncEnv} {st : Settings} {w w' : SyncWorld}
    (hw : w.stripe.WellFormed) (h : handle u env st w = .ok ⟨⟩ w') :
    ∃ existing w₀ w₁, SyncRun u env st existing w w₀ w₁ w' := by
  obtain ⟨t, w₀, ht, h⟩ := bind_eq_ok h
  cases ht
  obtain ⟨existing, w₀, hfetch, h⟩ := bind_eq_ok h
  obtain ⟨halike, hstripe, hpage⟩ := wp_ok (bulkFetchExisting_spec hw _) hfetch
  obtain ⟨_, w₁, hitems, hcountries⟩ := bind_eq_ok h
  refine ⟨existing, w₀, w₁, halike, hstripe, hpage, ?_, syncCountryPrices_ok hcountries⟩
  have htables : w₀.tables = w.tables := congrArg Catalog.toCatalogTables halike.catalog
  have hcurrencies := (forM_eq_ok hitems).rounds (g := id)
    (S := fun currency => Through (ItemRound u env existing)
      ((w.tables.sold u).map (Offer.mk currency)))
    (I := fun _ s => w.tables.SameSold s.tables) ?_ (htables ▸ .refl _)
  · rw [List.map_id] at hcurrencies
    exact hcurrencies.1.flatMap
  intro currency rest s s' hsame hround
  have hchain := syncCurrency_ok hround
  rw [hsame.sold] at hchain
  exact ⟨hchain, hsame.trans (sameSold_of_through hchain)⟩

end Saasmint
