/-
Saasmint/Billing/SeedCatalog.lean

The seed of the catalog (`seed_catalog`), which every deploy runs in one
transaction: plans and products are created where they are missing, the USD
amount of an existing price is set to the one of the release, and the bases of
the launch countries are re-aligned to the VAT table.

The seed moves amounts and keeps the Stripe Price ids that the prices carry
(`seedCatalog_rewrites`).
-/
import Saasmint.Billing.LocalizedPrices

namespace Saasmint

open PyStr

variable (u : UnicodeTables)

/-! ### The catalog of a release -/

/-- `_PlanSpec`. -/
structure PlanSpec where
  name : String
  description : String
  context : PlanContext
  tier : PlanTier
  interval : PlanInterval
  amount : Int
  deriving DecidableEq, Repr

/-- A boost product: its name, credits and amount. -/
structure BoostSpec where
  name : String
  credits : Int
  amount : Int
  deriving DecidableEq, Repr

def PlanSpec.placeholderPriceId (spec : PlanSpec) : String :=
  "price_placeholder_" ++ (spec.context.value ++ "_" ++ spec.tier.value ++ "_"
    ++ spec.interval.value)

def BoostSpec.placeholderPriceId (spec : BoostSpec) : String :=
  "price_placeholder_" ++ ("boost_" ++ toString spec.credits)

/-! ### Plans and products -/

section Seed

variable {ω π κ : Type} [DecidableEq κ]

/-- `get_or_create`: the table and the row. -/
def getOrCreate (key : ω → κ) (k : κ) (new : ω) (rows : List ω) : Except String (List ω × ω) :=
  match rows.filter fun r => key r = k with
  | [] => .ok (rows ++ [new], new)
  | [row] => .ok (rows, row)
  | _ => .error "get() returned more than one row"

/-- Create the price of an owner, or set its amount where it has drifted. -/
def seedAmount (ownerId : π → UUID) (amount : π → Int) (setAmount : Int → π → π) (owner : UUID)
    (new : π) (target : Int) (rows : List π) : List π :=
  match rows.find? fun r => ownerId r = owner with
  | none => rows ++ [new]
  | some r => if amount r ≠ target then Table.update ownerId owner (setAmount target) rows else rows

end Seed

def PlanPrice.withAmount (amount : Int) (pp : PlanPrice) : PlanPrice := { pp with amount }

def ProductPrice.withAmount (amount : Int) (pp : ProductPrice) : ProductPrice := { pp with amount }

def Price.withAmount (amount : Int) : Price → Price
  | plan pp => .plan (pp.withAmount amount)
  | product pp => .product (pp.withAmount amount)

/-- One round of `_seed_plans`. -/
def seedPlan (t : CatalogTables) (spec : PlanSpec) : Except String CatalogTables := do
  let (plans, plan) ← getOrCreate (fun p : Plan => (p.context, p.tier, p.interval))
    (spec.context, spec.tier, spec.interval)
    ⟨t.newId, spec.name, spec.description, spec.context, spec.tier, spec.interval, true⟩ t.plans
  let t := { t with plans := plans }
  return { t with
    planPrices := seedAmount PlanPrice.planId PlanPrice.amount PlanPrice.withAmount plan.id
      ⟨t.newId, plan.id, spec.placeholderPriceId, spec.amount⟩ spec.amount t.planPrices }

/-- One round of `_seed_products`. -/
def seedProduct (t : CatalogTables) (spec : BoostSpec) : Except String CatalogTables := do
  let (products, product) ← getOrCreate Product.name spec.name
    ⟨t.newId, spec.name, spec.credits, true⟩ t.products
  let t := { t with products := products }
  return { t with
    productPrices := seedAmount ProductPrice.productId ProductPrice.amount ProductPrice.withAmount
      product.id ⟨t.newId, product.id, spec.placeholderPriceId, spec.amount⟩ spec.amount
      t.productPrices }

/-- What the seed goes through: the plans, then the products. -/
inductive SeedSpec
  | plan (spec : PlanSpec)
  | boost (spec : BoostSpec)
  deriving DecidableEq, Repr

def SeedSpec.amount : SeedSpec → Int
  | plan spec => spec.amount
  | boost spec => spec.amount

def seedOne (t : CatalogTables) : SeedSpec → Except String CatalogTables
  | .plan spec => seedPlan t spec
  | .boost spec => seedProduct t spec

/-! ### Country rows -/

/-- A write of one country row. -/
inductive CountryWrite
  | create (row : CountryPrice)
  | update (row : CountryPrice)
  | skip
  deriving DecidableEq

namespace CountryWrite

def created : CountryWrite → Option CountryPrice
  | create row => some row
  | _ => none

def updated : CountryWrite → Option CountryPrice
  | update row => some row
  | _ => none

end CountryWrite

/-- The row of an owner in a country, minted or not. -/
def CatalogTables.countryRow (t : CatalogTables) (owner : PriceOwner) (country : String) :
    Option CountryPrice :=
  t.countryPrices.find? fun r => (r.owner, r.country) = (owner, country)

/-- `_collect_country_row`. -/
def collectCountryRow (t : CatalogTables) (country currency : String) (price : Price) :
    Except String CountryWrite :=
  match t.countryRow price.owner country with
  | none => do
    let base ← deriveBase price.amount (standardVatRate u country)
    return .create ⟨price.owner, country, currency, price.amount, base, false, none⟩
  | some existing => do
    let realigned ← existing.recomputeBase u
    return if existing.baseMinor ≠ realigned.baseMinor then .update realigned else .skip

/-- `bulk_update` of `base_minor`. -/
def updateBase (batch : List CountryPrice) (r : CountryPrice) : CountryPrice :=
  match batch.find? fun b => (b.owner, b.country) = (r.owner, r.country) with
  | some b => { r with baseMinor := b.baseMinor }
  | none => r

/-- `_seed_country_prices`. -/
def seedCountryPrices (t : CatalogTables) : Except String CatalogTables := do
  let pairs := countryCurrency.flatMap fun c => t.prices.map fun price => (c, price)
  let writes ← pairs.mapM fun (c, price) => collectCountryRow u t c.1 c.2 price
  let rows := t.countryPrices ++ writes.filterMap CountryWrite.created
  return { t with countryPrices := rows.map (updateBase (writes.filterMap CountryWrite.updated)) }

/-- `seed_catalog`, for the plans and products of a release. -/
def seedCatalog (plans : List PlanSpec) (boosts : List BoostSpec) (cat : Catalog) :
    Except String Catalog := do
  let t ← (plans.map SeedSpec.plan ++ boosts.map SeedSpec.boost).foldlM seedOne cat.toCatalogTables
  let t ← seedCountryPrices u t
  t.commit

/-! ### What the seed leaves -/

section Seed

variable {ω π κ : Type} [DecidableEq κ] {key : ω → κ} {k : κ} {id : ω → UUID} {new owner : ω}
  {owners owners' : List ω} {ownerId : π → UUID} {prices : List π}

omit [DecidableEq κ] in
theorem nodup_map_append {f : π → UUID} {l : List π} {a : π} (h : (l.map f).Nodup)
    (ha : ∀ b ∈ l, f b ≠ f a) : ((l ++ [a]).map f).Nodup := by
  rw [List.map_append, List.nodup_append']
  refine ⟨h, List.nodup_singleton _, fun x hx hy => ?_⟩
  obtain ⟨b, hb, rfl⟩ := List.mem_map.mp hx
  exact ha b hb (List.mem_singleton.mp hy)

/-- The row that `get_or_create` returns is the only one with the key. -/
theorem getOrCreate_ok (h : getOrCreate key k new owners = .ok (owners', owner)) :
    (owners' = owners ∧ owner ∈ owners ∧ key owner = k ∧ ∀ r ∈ owners, key r = k → r = owner) ∨
      (owners' = owners ++ [new] ∧ owner = new ∧ ∀ r ∈ owners, key r ≠ k) := by
  unfold getOrCreate at h
  split at h
  case h_1 e =>
    cases h
    refine Or.inr ⟨rfl, rfl, fun r hr hk => ?_⟩
    have := List.filter_eq_nil_iff.mp e r hr
    simp [hk] at this
  case h_2 row e =>
    cases h
    have hmem : ∀ r, (r ∈ owners ∧ key r = k) ↔ r = owner := by
      intro r
      have hfilter : r ∈ owners.filter (fun r => decide (key r = k)) ↔ r ∈ owners ∧ key r = k := by
        simp
      rw [e, List.mem_singleton] at hfilter
      exact hfilter.symm
    exact Or.inl ⟨rfl, ((hmem owner).mpr rfl).1, ((hmem owner).mpr rfl).2,
      fun r hr hk => (hmem r).mp ⟨hr, hk⟩⟩
  case h_3 => cases h

theorem getOrCreate_subset (h : getOrCreate key k new owners = .ok (owners', owner)) :
    owners ⊆ owners' := by
  rcases getOrCreate_ok h with ⟨rfl, -⟩ | ⟨rfl, -⟩
  · exact List.Subset.refl _
  · exact List.subset_append_left _ _

/-- The prices of the owner that `get_or_create` returns are those of an owner
with the key. -/
theorem getOrCreate_prices (h : getOrCreate key k new owners = .ok (owners', owner))
    (hfresh : ∀ pp ∈ prices, ownerId pp ≠ id new) {pp : π} (hpp : pp ∈ prices) :
    ownerId pp = id owner ↔ ∃ p ∈ owners, id p = ownerId pp ∧ key p = k := by
  rcases getOrCreate_ok h with ⟨-, hmem, hk, huniq⟩ | ⟨-, rfl, hnone⟩
  · constructor
    · intro e
      exact ⟨owner, hmem, e.symm, hk⟩
    · rintro ⟨p, hp, hid, hpk⟩
      rw [← hid, huniq p hp hpk]
  · constructor
    · intro e
      exact absurd e (hfresh pp hpp)
    · rintro ⟨p, hp, -, hpk⟩
      exact absurd hpk (hnone p hp)

/-- A new owner is the owner of no existing price. -/
theorem getOrCreate_owners (h : getOrCreate key k new owners = .ok (owners', owner))
    (hfresh : ∀ pp ∈ prices, ownerId pp ≠ id new) {pp : π} (hpp : pp ∈ prices) (P : ω → Prop) :
    (∃ p ∈ owners', id p = ownerId pp ∧ P p) ↔ ∃ p ∈ owners, id p = ownerId pp ∧ P p := by
  rcases getOrCreate_ok h with ⟨rfl, -⟩ | ⟨rfl, -⟩
  · exact Iff.rfl
  · constructor
    · rintro ⟨p, hp, hid, hP⟩
      rcases List.mem_append.mp hp with hp | hp
      · exact ⟨p, hp, hid, hP⟩
      · obtain rfl := List.mem_singleton.mp hp
        exact absurd hid.symm (hfresh pp hpp)
    · rintro ⟨p, hp, hid, hP⟩
      exact ⟨p, List.mem_append_left _ hp, hid, hP⟩

variable {amount : π → Int} {setAmount : Int → π → π} {target : Int} {newPrice : π}

omit [DecidableEq κ] in
/-- The prices after a round: those of the owner with the amount of the
release, and a new one where the owner had none. -/
theorem mem_seedAmount {o : UUID} (hset : ∀ r, amount r = target → setAmount target r = r)
    (hu : (prices.map ownerId).Nodup) {r' : π} :
    r' ∈ seedAmount ownerId amount setAmount o newPrice target prices ↔
      (∃ r ∈ prices, r' = if ownerId r = o then setAmount target r else r) ∨
        ((∀ r ∈ prices, ownerId r ≠ o) ∧ r' = newPrice) := by
  unfold seedAmount
  split
  case h_1 e =>
    have hnone : ∀ r ∈ prices, ownerId r ≠ o := by simpa using List.find?_eq_none.mp e
    rw [List.mem_append, List.mem_singleton]
    constructor
    · rintro (h | rfl)
      · exact Or.inl ⟨r', h, by rw [if_neg (hnone r' h)]⟩
      · exact Or.inr ⟨hnone, rfl⟩
    · rintro (⟨r, hr, rfl⟩ | ⟨-, rfl⟩)
      · rw [if_neg (hnone r hr)]
        exact Or.inl hr
      · exact Or.inr rfl
  case h_2 r₀ e =>
    have hr₀ := List.mem_of_find?_eq_some e
    have ho : ownerId r₀ = o := by simpa using List.find?_some e
    have hsome : ¬ ∀ r ∈ prices, ownerId r ≠ o := fun h => h r₀ hr₀ ho
    simp only [hsome, false_and, or_false]
    split
    · -- the amount has drifted
      rw [Table.mem_update]
      constructor
      · rintro (⟨hr, hne⟩ | ⟨r, hr, ho', rfl⟩)
        · exact ⟨r', hr, by rw [if_neg hne]⟩
        · exact ⟨r, hr, by rw [if_pos ho']⟩
      · rintro ⟨r, hr, rfl⟩
        split
        · exact Or.inr ⟨r, hr, ‹_›, rfl⟩
        · exact Or.inl ⟨hr, ‹_›⟩
    · -- the owner has one price, which has the amount already
      have heq : ∀ r ∈ prices, (if ownerId r = o then setAmount target r else r) = r := by
        intro r hr
        split
        · have hu' := Table.unique_some_iff.mpr hu
          obtain rfl := hu'.inj hr hr₀ (v := o) (by simpa using ‹ownerId r = o›) (by simpa using ho)
          exact hset r (not_not.mp ‹_›)
        · rfl
      constructor
      · intro h
        exact ⟨r', h, (heq r' h).symm⟩
      · rintro ⟨r, hr, rfl⟩
        rw [heq r hr]
        exact hr

omit [DecidableEq κ] in
theorem seedAmount_nodup {o : UUID} (hset : ∀ a r, ownerId (setAmount a r) = ownerId r)
    (hnew : ownerId newPrice = o) (hu : (prices.map ownerId).Nodup) :
    ((seedAmount ownerId amount setAmount o newPrice target prices).map ownerId).Nodup := by
  unfold seedAmount
  split
  case h_1 e =>
    have hnone : ∀ r ∈ prices, ownerId r ≠ o := by simpa using List.find?_eq_none.mp e
    exact nodup_map_append hu fun b hb => by rw [hnew]; exact hnone b hb
  case h_2 =>
    split
    · have hmap : (Table.update ownerId o (setAmount target) prices).map ownerId
          = prices.map ownerId := by
        rw [Table.update, List.map_map]
        refine List.map_congr_left fun r _ => ?_
        simp only [Function.comp_apply]
        split
        · exact hset _ _
        · rfl
      rwa [hmap]
    · exact hu

variable (id ownerId amount setAmount target newPrice) in
/-- The prices after a round, by the owners before it. -/
theorem mem_seeded (h : getOrCreate key k new owners = .ok (owners', owner))
    (hfresh : ∀ pp ∈ prices, ownerId pp ≠ id new)
    (hset : ∀ r, amount r = target → setAmount target r = r) (hu : (prices.map ownerId).Nodup)
    (r' : π) :
    r' ∈ seedAmount ownerId amount setAmount (id owner) newPrice target prices ↔
      (∃ r ∈ prices, r' = if owners.any (fun p => id p = ownerId r && key p = k)
        then setAmount target r else r) ∨
        ((∀ r ∈ prices, ownerId r ≠ id owner) ∧ r' = newPrice) := by
  have howner : ∀ r ∈ prices, (ownerId r = id owner ↔
      owners.any (fun p => id p = ownerId r && key p = k) = true) := by
    intro r hr
    rw [getOrCreate_prices h hfresh hr]
    simp
  have himage : (∃ r ∈ prices, r' = if ownerId r = id owner then setAmount target r else r) ↔
      ∃ r ∈ prices, r' = if owners.any (fun p => id p = ownerId r && key p = k)
        then setAmount target r else r := by
    apply exists_congr
    intro r
    apply and_congr_right
    intro hr
    rw [if_congr (howner r hr) rfl rfl]
  rw [mem_seedAmount hset hu, himage]

/-- Which prices have an active owner, before and after a round. -/
theorem any_active_seeded {prices' : List π} {priceId : π → UUID} {active : ω → Bool} {f : π → π}
    (hf : ∀ pp, priceId (f pp) = priceId pp ∧ ownerId (f pp) = ownerId pp) {k : UUID}
    (hold : ∀ pp ∈ prices, f pp ∈ prices')
    (hnew : ∀ pp' ∈ prices', (∃ pp ∈ prices, pp' = f pp) ∨ priceId pp' ≠ k)
    (howners : ∀ pp ∈ prices, (∃ p ∈ owners', id p = ownerId pp ∧ active p = true) ↔
      ∃ p ∈ owners, id p = ownerId pp ∧ active p = true) :
    (prices'.any fun pp => priceId pp = k && owners'.any fun p => id p = ownerId pp && active p)
      = prices.any fun pp => priceId pp = k && owners.any fun p =>
        id p = ownerId pp && active p := by
  rw [Bool.eq_iff_iff]
  simp only [List.any_eq_true, Bool.and_eq_true, decide_eq_true_eq]
  constructor
  · rintro ⟨pp', hpp', hk, hactive⟩
    rcases hnew pp' hpp' with ⟨pp, hpp, rfl⟩ | hne
    · rw [(hf pp).1] at hk
      rw [(hf pp).2] at hactive
      exact ⟨pp, hpp, hk, (howners pp hpp).mp hactive⟩
    · exact absurd hk hne
  · rintro ⟨pp, hpp, hk, hactive⟩
    refine ⟨f pp, hold pp hpp, (hf pp).1.trans hk, ?_⟩
    rw [(hf pp).2]
    exact (howners pp hpp).mpr hactive

end Seed

/-- The price is one of the plan or product that the entry describes. -/
def SeedSpec.prices (t : CatalogTables) : SeedSpec → Price → Bool
  | .plan spec, .plan pp => t.plans.any fun p =>
      p.id = pp.planId &&
        (p.context, p.tier, p.interval) = (spec.context, spec.tier, spec.interval)
  | .boost spec, .product pp => t.products.any fun p => p.id = pp.productId && p.name = spec.name
  | _, _ => false

/-- A row after one round. -/
def seededRow (t : CatalogTables) (spec : SeedSpec) : CatalogRow → CatalogRow
  | .usd price => .usd (if spec.prices t price then price.withAmount spec.amount else price)
  | row => row

variable {u} {t t' : CatalogTables} {spec : SeedSpec}

@[simp] theorem Price.withAmount_owner (amount : Int) (price : Price) :
    (price.withAmount amount).owner = price.owner := by
  cases price <;> rfl

@[simp] theorem Price.withAmount_stripePriceId (amount : Int) (price : Price) :
    (price.withAmount amount).stripePriceId = price.stripePriceId := by
  cases price <;> rfl

@[simp] theorem Price.withAmount_amount (amount : Int) (price : Price) :
    (price.withAmount amount).amount = amount := by
  cases price <;> rfl

theorem Price.withAmount_withAmount (a b : Int) (price : Price) :
    (price.withAmount a).withAmount b = price.withAmount b := by
  cases price <;> rfl

theorem seededRow_key (row : CatalogRow) : (seededRow t spec row).key = row.key := by
  rcases row with price | r | r
  · unfold seededRow CatalogRow.key
    dsimp only
    split <;> simp
  · rfl
  · rfl

theorem seededRow_stripePriceId (row : CatalogRow) :
    (seededRow t spec row).stripePriceId = row.stripePriceId := by
  rcases row with price | r | r
  · unfold seededRow CatalogRow.stripePriceId
    dsimp only
    split <;> simp
  · rfl
  · rfl

theorem newId_not_mem (t : CatalogTables) : t.newId ∉ t.ids := Table.freshKey_not_mem _

theorem owner_mem_ids {row : CatalogRow} (h : t.Holds row) : row.owner.id ∈ t.ids := by
  unfold CatalogTables.ids
  rcases row with (pp | pp) | r | r
  · have : pp.id ∈ t.planPrices.flatMap fun pp => [pp.id, pp.planId] :=
      List.mem_flatMap.mpr ⟨pp, h, by simp⟩
    simp_all [CatalogRow.owner, Price.owner, PriceOwner.id]
  · have : pp.id ∈ t.productPrices.flatMap fun pp => [pp.id, pp.productId] :=
      List.mem_flatMap.mpr ⟨pp, h, by simp⟩
    simp_all [CatalogRow.owner, Price.owner, PriceOwner.id]
  · exact List.mem_append_left _ (List.mem_append_right _ (List.mem_map.mpr ⟨r, h, rfl⟩))
  · exact List.mem_append_right _ (List.mem_map.mpr ⟨r, h, rfl⟩)

theorem planId_mem_ids {pp : PlanPrice} (h : pp ∈ t.planPrices) : pp.planId ∈ t.ids := by
  have : pp.planId ∈ t.planPrices.flatMap fun pp => [pp.id, pp.planId] :=
    List.mem_flatMap.mpr ⟨pp, h, by simp⟩
  simp_all [CatalogTables.ids]

theorem productId_mem_ids {pp : ProductPrice} (h : pp ∈ t.productPrices) :
    pp.productId ∈ t.ids := by
  have : pp.productId ∈ t.productPrices.flatMap fun pp => [pp.id, pp.productId] :=
    List.mem_flatMap.mpr ⟨pp, h, by simp⟩
  simp_all [CatalogTables.ids]

theorem isPlaceholder_append (s : String) : isPlaceholder ("price_placeholder_" ++ s) = true := by
  unfold isPlaceholder
  rw [String.toList_append, List.isPrefixOf_iff_prefix]
  exact List.prefix_append _ _

/-! ### The seed as a rewriting -/

/-- An owner has one price. -/
structure CatalogTables.OnePrice (t : CatalogTables) : Prop where
  plan : (t.planPrices.map PlanPrice.planId).Nodup
  product : (t.productPrices.map ProductPrice.productId).Nodup

theorem CatalogTables.Constraints.onePrice (hc : t.Constraints) : t.OnePrice :=
  ⟨hc.planPrice_plan, hc.productPrice_product⟩

theorem newId_ne_owner {row : CatalogRow} {t₁ : CatalogTables} (hids : t.ids ⊆ t₁.ids)
    (h : t.Holds row) : t₁.newId ≠ row.owner.id :=
  fun heq => newId_not_mem t₁ (heq ▸ hids (owner_mem_ids h))

/-- **One round of the seed** rewrites the amount of one price, or adds a price
without an id. -/
theorem seedPlan_rewrites (ht : t.OnePrice) {spec : PlanSpec} (h : seedPlan t spec = .ok t') :
    t.Rewrites t' (seededRow t (.plan spec)) ∧ t'.OnePrice := by
  obtain ⟨⟨plans, plan⟩, hget, h⟩ := Loops.bind_eq_ok.mp h
  cases h
  set t₁ : CatalogTables := { t with plans := plans } with ht₁
  have hfresh : ∀ pp ∈ t.planPrices, pp.planId ≠ t.newId :=
    fun pp hpp heq => newId_not_mem t (heq ▸ planId_mem_ids hpp)
  have hids : t.ids ⊆ t₁.ids := by
    intro x
    have hx := List.map_subset Plan.id (getOrCreate_subset hget) (a := x)
    simp only [CatalogTables.ids, List.mem_append]
    tauto
  have hmem := mem_seeded Plan.id PlanPrice.planId PlanPrice.amount PlanPrice.withAmount spec.amount
    ⟨t₁.newId, plan.id, spec.placeholderPriceId, spec.amount⟩ hget hfresh
    (fun r hr => by rw [← hr]; rfl) ht.plan
  set f : PlanPrice → PlanPrice := fun pp => if t.plans.any (fun p => p.id = pp.planId &&
    (p.context, p.tier, p.interval) = (spec.context, spec.tier, spec.interval))
    then pp.withAmount spec.amount else pp with hf
  have hrow : ∀ pp, seededRow t (.plan spec) (.usd (.plan pp)) = .usd (.plan (f pp)) := by
    intro pp
    show CatalogRow.usd
        (if t.plans.any _ = true then .plan (pp.withAmount spec.amount) else .plan pp)
      = .usd (.plan (if t.plans.any _ = true then _ else _))
    split <;> rfl
  refine ⟨⟨seededRow_key, seededRow_stripePriceId, ?_, ?_, ?_⟩, ?_, ht.product⟩
  · rintro ((pp | pp) | r | r) hrow'
    · rw [hrow]
      exact (hmem _).mpr (Or.inl ⟨pp, hrow', rfl⟩)
    · exact hrow'
    · exact hrow'
    · exact hrow'
  · rintro ((pp | pp) | r | r) hrow'
    · rcases (hmem pp).mp hrow' with ⟨pp₀, hpp₀, rfl⟩ | ⟨-, rfl⟩
      · exact Or.inl ⟨.usd (.plan pp₀), hpp₀, (hrow pp₀).symm⟩
      · refine Or.inr fun x hx => ?_
        cases hx
        exact isPlaceholder_append _
    · exact Or.inl ⟨.usd (.product pp), hrow', rfl⟩
    · exact Or.inl ⟨.localized r, hrow', rfl⟩
    · exact Or.inl ⟨.country r, hrow', rfl⟩
  · intro row hrow'
    have hne := newId_ne_owner hids hrow'
    generalize row.owner = owner at hne ⊢
    rcases owner with k | k
    · refine any_active_seeded (f := f) (fun pp => ?_) ?_ ?_ ?_
      · rw [hf]
        dsimp only
        split <;> exact ⟨rfl, rfl⟩
      · exact fun pp hpp => (hmem _).mpr (Or.inl ⟨pp, hpp, rfl⟩)
      · intro pp' hpp'
        rcases (hmem pp').mp hpp' with ⟨pp, hpp, rfl⟩ | ⟨-, rfl⟩
        · exact Or.inl ⟨pp, hpp, rfl⟩
        · exact Or.inr hne
      · exact fun pp hpp => getOrCreate_owners hget hfresh hpp fun p => p.isActive = true
    · rfl
  · exact seedAmount_nodup (fun _ _ => rfl) rfl ht.plan

theorem seedProduct_rewrites (ht : t.OnePrice) {spec : BoostSpec}
    (h : seedProduct t spec = .ok t') :
    t.Rewrites t' (seededRow t (.boost spec)) ∧ t'.OnePrice := by
  obtain ⟨⟨products, product⟩, hget, h⟩ := Loops.bind_eq_ok.mp h
  cases h
  set t₁ : CatalogTables := { t with products := products } with ht₁
  have hfresh : ∀ pp ∈ t.productPrices, pp.productId ≠ t.newId :=
    fun pp hpp heq => newId_not_mem t (heq ▸ productId_mem_ids hpp)
  have hids : t.ids ⊆ t₁.ids := by
    intro x
    have hx := List.map_subset Product.id (getOrCreate_subset hget) (a := x)
    simp only [CatalogTables.ids, List.mem_append]
    tauto
  have hmem := mem_seeded Product.id ProductPrice.productId ProductPrice.amount
    ProductPrice.withAmount spec.amount
    ⟨t₁.newId, product.id, spec.placeholderPriceId, spec.amount⟩ hget hfresh
    (fun r hr => by rw [← hr]; rfl) ht.product
  set f : ProductPrice → ProductPrice := fun pp =>
    if t.products.any (fun p => p.id = pp.productId && p.name = spec.name)
      then pp.withAmount spec.amount else pp with hf
  have hrow : ∀ pp, seededRow t (.boost spec) (.usd (.product pp)) = .usd (.product (f pp)) := by
    intro pp
    show CatalogRow.usd
        (if t.products.any _ = true then .product (pp.withAmount spec.amount) else .product pp)
      = .usd (.product (if t.products.any _ = true then _ else _))
    split <;> rfl
  refine ⟨⟨seededRow_key, seededRow_stripePriceId, ?_, ?_, ?_⟩, ht.plan, ?_⟩
  · rintro ((pp | pp) | r | r) hrow'
    · exact hrow'
    · rw [hrow]
      exact (hmem _).mpr (Or.inl ⟨pp, hrow', rfl⟩)
    · exact hrow'
    · exact hrow'
  · rintro ((pp | pp) | r | r) hrow'
    · exact Or.inl ⟨.usd (.plan pp), hrow', rfl⟩
    · rcases (hmem pp).mp hrow' with ⟨pp₀, hpp₀, rfl⟩ | ⟨-, rfl⟩
      · exact Or.inl ⟨.usd (.product pp₀), hpp₀, (hrow pp₀).symm⟩
      · refine Or.inr fun x hx => ?_
        cases hx
        exact isPlaceholder_append _
    · exact Or.inl ⟨.localized r, hrow', rfl⟩
    · exact Or.inl ⟨.country r, hrow', rfl⟩
  · intro row hrow'
    have hne := newId_ne_owner hids hrow'
    generalize row.owner = owner at hne ⊢
    rcases owner with k | k
    · rfl
    · refine any_active_seeded (f := f) (fun pp => ?_) ?_ ?_ ?_
      · rw [hf]
        dsimp only
        split <;> exact ⟨rfl, rfl⟩
      · exact fun pp hpp => (hmem _).mpr (Or.inl ⟨pp, hpp, rfl⟩)
      · intro pp' hpp'
        rcases (hmem pp').mp hpp' with ⟨pp, hpp, rfl⟩ | ⟨-, rfl⟩
        · exact Or.inl ⟨pp, hpp, rfl⟩
        · exact Or.inr hne
      · exact fun pp hpp => getOrCreate_owners hget hfresh hpp fun p => p.isActive = true
  · exact seedAmount_nodup (fun _ _ => rfl) rfl ht.product

theorem seedOne_rewrites (ht : t.OnePrice) (h : seedOne t spec = .ok t') :
    t.Rewrites t' (seededRow t spec) ∧ t'.OnePrice := by
  rcases spec with spec | spec
  · exact seedPlan_rewrites ht h
  · exact seedProduct_rewrites ht h

/-- The rounds leave the country rows. -/
theorem seedOne_countryPrices (h : seedOne t spec = .ok t') :
    t'.countryPrices = t.countryPrices := by
  rcases spec with spec | spec
  · obtain ⟨⟨plans, plan⟩, -, h⟩ := Loops.bind_eq_ok.mp h
    cases h
    rfl
  · obtain ⟨⟨products, product⟩, -, h⟩ := Loops.bind_eq_ok.mp h
    cases h
    rfl

theorem foldlM_seedOne_countryPrices {specs : List SeedSpec} (h : specs.foldlM seedOne t = .ok t') :
    t'.countryPrices = t.countryPrices := by
  refine Loops.foldlM_invariant (I := fun _ s => s.countryPrices = t.countryPrices) ?_ rfl h
  intro done spec rest s s' _ hs hstep
  rw [seedOne_countryPrices hstep, hs]

@[simp] theorem SeedSpec.prices_withAmount (amount : Int) (price : Price) :
    spec.prices t (price.withAmount amount) = spec.prices t price := by
  rcases spec with spec | spec <;> rcases price with pp | pp <;> rfl

/-- No round makes an entry price another of the prices that there are: a new plan or product
has none of them. -/
theorem seedOne_prices (h : seedOne t spec = .ok t') {price : Price} (hprice : t.Holds (.usd price))
    (s : SeedSpec) : s.prices t' price = s.prices t price := by
  rcases spec with spec | spec
  · obtain ⟨⟨plans, plan⟩, hget, h⟩ := Loops.bind_eq_ok.mp h
    cases h
    have hfresh : ∀ pp ∈ t.planPrices, pp.planId ≠ t.newId :=
      fun pp hpp heq => newId_not_mem t (heq ▸ planId_mem_ids hpp)
    rcases s with s | s <;> rcases price with pp | pp
    · have howners : (∃ p ∈ plans, p.id = pp.planId ∧
            (p.context, p.tier, p.interval) = (s.context, s.tier, s.interval)) ↔
          ∃ p ∈ t.plans, p.id = pp.planId ∧
            (p.context, p.tier, p.interval) = (s.context, s.tier, s.interval) :=
        getOrCreate_owners hget hfresh hprice _
      rw [Bool.eq_iff_iff]
      simpa [SeedSpec.prices] using howners
    · rfl
    · rfl
    · rfl
  · obtain ⟨⟨products, product⟩, hget, h⟩ := Loops.bind_eq_ok.mp h
    cases h
    have hfresh : ∀ pp ∈ t.productPrices, pp.productId ≠ t.newId :=
      fun pp hpp heq => newId_not_mem t (heq ▸ productId_mem_ids hpp)
    rcases s with s | s <;> rcases price with pp | pp
    · rfl
    · rfl
    · rfl
    · have howners : (∃ p ∈ products, p.id = pp.productId ∧ p.name = s.name) ↔
          ∃ p ∈ t.products, p.id = pp.productId ∧ p.name = s.name :=
        getOrCreate_owners hget hfresh hprice _
      rw [Bool.eq_iff_iff]
      simpa [SeedSpec.prices] using howners

/-- The amount of a release for a price: that of its last entry for the plan or product. -/
def CatalogTables.releaseAmount (t : CatalogTables) (specs : List SeedSpec) (price : Price) :
    Option Int :=
  (specs.reverse.find? fun spec => spec.prices t price).map SeedSpec.amount

/-- A price after the rounds of some entries. -/
def CatalogTables.atRelease (t : CatalogTables) (specs : List SeedSpec) (price : Price) : Price :=
  (t.releaseAmount specs price).elim price fun amount => price.withAmount amount

@[simp] theorem atRelease_owner (specs : List SeedSpec) (price : Price) :
    (t.atRelease specs price).owner = price.owner := by
  unfold CatalogTables.atRelease
  cases t.releaseAmount specs price <;> simp

@[simp] theorem atRelease_stripePriceId (specs : List SeedSpec) (price : Price) :
    (t.atRelease specs price).stripePriceId = price.stripePriceId := by
  unfold CatalogTables.atRelease
  cases t.releaseAmount specs price <;> simp

theorem atRelease_amount (specs : List SeedSpec) (price : Price) :
    (t.atRelease specs price).amount = (t.releaseAmount specs price).getD price.amount := by
  unfold CatalogTables.atRelease
  cases t.releaseAmount specs price <;> simp

@[simp] theorem prices_atRelease (specs : List SeedSpec) (price : Price) :
    spec.prices t' (t.atRelease specs price) = spec.prices t' price := by
  unfold CatalogTables.atRelease
  cases t.releaseAmount specs price <;> simp

/-- One more round. -/
theorem atRelease_concat (done : List SeedSpec) (price : Price) :
    t.atRelease (done ++ [spec]) price =
      if spec.prices t price then price.withAmount spec.amount else t.atRelease done price := by
  unfold CatalogTables.atRelease CatalogTables.releaseAmount
  rw [List.reverse_append, List.reverse_singleton, List.singleton_append, List.find?_cons]
  rcases spec.prices t price <;> rfl

theorem withAmount_atRelease (specs : List SeedSpec) (price : Price) (amount : Int) :
    (t.atRelease specs price).withAmount amount = price.withAmount amount := by
  unfold CatalogTables.atRelease
  rcases t.releaseAmount specs price with - | amount'
  · rfl
  · exact Price.withAmount_withAmount amount' amount price

/-- A row after the rounds of some entries. -/
def CatalogTables.rowAtRelease (t : CatalogTables) (specs : List SeedSpec) : CatalogRow → CatalogRow
  | .usd price => .usd (t.atRelease specs price)
  | row => row

theorem rowAtRelease_key (specs : List SeedSpec) (row : CatalogRow) :
    (t.rowAtRelease specs row).key = row.key := by
  rcases row with price | r | r
  · exact congrArg RowKey.usd (atRelease_owner specs price)
  · rfl
  · rfl

theorem rowAtRelease_stripePriceId (specs : List SeedSpec) (row : CatalogRow) :
    (t.rowAtRelease specs row).stripePriceId = row.stripePriceId := by
  rcases row with price | r | r
  · exact congrArg some (atRelease_stripePriceId specs price)
  · rfl
  · rfl

/-- **The rounds of the seed** give each price the amount of the release. -/
theorem foldlM_seedOne_rewrites (ht : t.OnePrice) {specs : List SeedSpec}
    (h : specs.foldlM seedOne t = .ok t') : t.Rewrites t' (t.rowAtRelease specs) := by
  refine (Loops.foldlM_invariant (I := fun done s => t.Rewrites s (t.rowAtRelease done) ∧
    s.OnePrice ∧ ∀ price, t.Holds (.usd price) →
      ∀ spec : SeedSpec, spec.prices s price = spec.prices t price)
    ?_ ⟨?_, ht, fun _ _ _ => rfl⟩ h).1
  · rintro done spec rest s s' - ⟨hg, hs, hsame⟩ hround
    obtain ⟨hrewrites, hs'⟩ := seedOne_rewrites hs hround
    refine ⟨(hg.trans hrewrites).congr (rowAtRelease_key _) (rowAtRelease_stripePriceId _) ?_,
      hs', ?_⟩
    · rintro (price | r | r) hrow
      · unfold CatalogTables.rowAtRelease seededRow
        dsimp only
        rw [atRelease_concat, prices_atRelease, hsame price hrow, withAmount_atRelease]
      · rfl
      · rfl
    · intro price hprice spec'
      -- the price that the rounds so far have left
      have hnext := seedOne_prices hround (hg.old (.usd price) hprice) spec'
      rw [prices_atRelease, prices_atRelease] at hnext
      exact hnext.trans (hsame price hprice spec')
  · exact (CatalogTables.Rewrites.refl t).congr (rowAtRelease_key _) (rowAtRelease_stripePriceId _)
      fun row _ => by cases row <;> rfl

/-! ### The country rows after the seed -/

theorem mem_pairs {c : String × String} {price : Price} :
    (c, price) ∈ (countryCurrency.flatMap fun c => t.prices.map fun price => (c, price)) ↔
      c ∈ countryCurrency ∧ price ∈ t.prices := by
  simp [List.mem_flatMap]

theorem usdAmount_isSome {owner : PriceOwner} :
    (t.usdAmount owner).isSome = true ↔ ∃ price ∈ t.prices, price.owner = owner := by
  unfold CatalogTables.usdAmount
  simp

/-- What the seed collects for a row that there is: the row with its base derived again, where
that is another one. -/
theorem collectCountryRow_existing {country currency : String} {price : Price}
    {existing : CountryPrice} {w : CountryWrite}
    (hrow : t.countryRow price.owner country = some existing)
    (h : collectCountryRow u t country currency price = .ok w) :
    ∃ realigned, existing.recomputeBase u = .ok realigned ∧
      w = if existing.baseMinor ≠ realigned.baseMinor then .update realigned else .skip := by
  unfold collectCountryRow at h
  rw [hrow] at h
  obtain ⟨realigned, hbase, h⟩ := Loops.bind_eq_ok.mp h
  cases h
  exact ⟨realigned, hbase, rfl⟩

/-- What it collects where there is none. -/
theorem collectCountryRow_new {country currency : String} {price : Price} {w : CountryWrite}
    (hrow : t.countryRow price.owner country = none)
    (h : collectCountryRow u t country currency price = .ok w) :
    ∃ row, w = .create row ∧ row.stripePriceId = none := by
  unfold collectCountryRow at h
  rw [hrow] at h
  obtain ⟨base, -, h⟩ := Loops.bind_eq_ok.mp h
  cases h
  exact ⟨_, rfl, rfl⟩

/-- `bulk_update` writes the base only. -/
theorem updateBase_eq (batch : List CountryPrice) (r : CountryPrice) :
    ∃ base, updateBase batch r = { r with baseMinor := base } := by
  unfold updateBase
  split
  · exact ⟨_, rfl⟩
  · exact ⟨r.baseMinor, rfl⟩

/-- A country row after the seed: in a launch country its base is derived again. -/
def CatalogTables.realigned (u : UnicodeTables) (t : CatalogTables) (r : CountryPrice) :
    CountryPrice :=
  if r.country ∈ countryCurrency.map Prod.fst ∧ (t.usdAmount r.owner).isSome = true then
    (r.recomputeBase u).toOption.getD r
  else r

theorem realigned_eq (t : CatalogTables) (r : CountryPrice) :
    ∃ base, t.realigned u r = { r with baseMinor := base } := by
  unfold CatalogTables.realigned
  split
  · rcases hbase : r.recomputeBase u with e | r'
    · exact ⟨r.baseMinor, rfl⟩
    · obtain ⟨base, -, rfl⟩ := CountryPrice.recomputeBase_spec u hbase
      exact ⟨base, rfl⟩
  · exact ⟨r.baseMinor, rfl⟩

section Realigned

variable {writes : List CountryWrite}
  (hwrites : (countryCurrency.flatMap fun c => t.prices.map fun price => (c, price)).mapM
    (fun (c, price) => collectCountryRow u t c.1 c.2 price) = .ok writes)
include hwrites

/-- The row of the batch that has the key of an existing row is that row, re-aligned. -/
theorem mem_batch {r b : CountryPrice} (hr : t.countryRow r.owner r.country = some r)
    (hb : b ∈ writes.filterMap CountryWrite.updated)
    (hkey : (b.owner, b.country) = (r.owner, r.country)) :
    r.recomputeBase u = .ok b ∧ r.country ∈ countryCurrency.map Prod.fst ∧
      (t.usdAmount r.owner).isSome = true := by
  obtain ⟨w, hw, hupdated⟩ := List.mem_filterMap.mp hb
  obtain ⟨⟨c, price⟩, hpair, hcollect⟩ := (Loops.mapM_ok_mem hwrites).2 w hw
  obtain ⟨hc, hprice⟩ := mem_pairs.mp hpair
  rcases hfind : t.countryRow price.owner c.1 with - | existing
  · obtain ⟨row, rfl, -⟩ := collectCountryRow_new hfind hcollect
    cases hupdated
  · obtain ⟨realigned, hbase, rfl⟩ := collectCountryRow_existing hfind hcollect
    have hkey' := List.find?_some hfind
    simp only [Prod.mk.injEq, decide_eq_true_eq] at hkey hkey'
    split at hupdated <;> cases hupdated
    obtain ⟨base, -, rfl⟩ := CountryPrice.recomputeBase_spec u hbase
    rw [← hkey'.1, ← hkey'.2, hkey.1, hkey.2, hr] at hfind
    obtain rfl := Option.some.inj hfind
    refine ⟨hbase, ?_, usdAmount_isSome.mpr ⟨price, hprice, hkey'.1.symm⟩⟩
    rw [hkey'.2]
    exact List.mem_map_of_mem hc

/-- The base of a row that the seed visits can be derived. -/
theorem recomputeBase_eq_realigned {r : CountryPrice}
    (hr : t.countryRow r.owner r.country = some r)
    (hlaunch : r.country ∈ countryCurrency.map Prod.fst)
    (hpriced : (t.usdAmount r.owner).isSome = true) :
    r.recomputeBase u = .ok (t.realigned u r) := by
  obtain ⟨c, hc, hcountry⟩ := List.mem_map.mp hlaunch
  obtain ⟨price, hprice, howner⟩ := usdAmount_isSome.mp hpriced
  obtain ⟨w, -, hcollect⟩ :=
    (Loops.mapM_ok_mem hwrites).1 (c, price) (mem_pairs.mpr ⟨hc, hprice⟩)
  rw [← howner, ← hcountry] at hr
  obtain ⟨realigned, hbase, -⟩ := collectCountryRow_existing hr hcollect
  unfold CatalogTables.realigned
  rw [if_pos ⟨hlaunch, hpriced⟩, hbase]
  rfl

/-- What `bulk_update` leaves of an existing row. -/
theorem updateBase_eq_realigned {r : CountryPrice}
    (hr : t.countryRow r.owner r.country = some r) :
    updateBase (writes.filterMap CountryWrite.updated) r = t.realigned u r := by
  unfold updateBase CatalogTables.realigned
  split
  · rename_i b hfind
    obtain ⟨hbase, hlaunch, hpriced⟩ := mem_batch hwrites hr (List.mem_of_find?_eq_some hfind)
      (by simpa using List.find?_some hfind)
    rw [if_pos ⟨hlaunch, hpriced⟩, hbase]
    obtain ⟨base, -, rfl⟩ := CountryPrice.recomputeBase_spec u hbase
    rfl
  · rename_i hfind
    split
    · rename_i hlaunch
      obtain ⟨c, hc, hcountry⟩ := List.mem_map.mp hlaunch.1
      obtain ⟨price, hprice, howner⟩ := usdAmount_isSome.mp hlaunch.2
      obtain ⟨w, hw, hcollect⟩ :=
        (Loops.mapM_ok_mem hwrites).1 (c, price) (mem_pairs.mpr ⟨hc, hprice⟩)
      rw [← howner, ← hcountry] at hr
      obtain ⟨realigned, hbase, rfl⟩ := collectCountryRow_existing hr hcollect
      obtain ⟨base, -, rfl⟩ := CountryPrice.recomputeBase_spec u hbase
      rw [hbase]
      have hsame : r.baseMinor = base := by
        by_contra hne
        rw [if_pos hne] at hw
        have hnone := List.find?_eq_none.mp hfind _ (List.mem_filterMap.mpr ⟨_, hw, rfl⟩)
        exact hnone (decide_eq_true rfl)
      exact congrArg (fun base => { r with baseMinor := base }) hsame
    · rfl

end Realigned

/-- The new country rows have no Stripe Price, and the others keep theirs. -/
theorem seedCountryPrices_rewrites
    (hrows : ∀ r ∈ t.countryPrices, t.countryRow r.owner r.country = some r)
    (h : seedCountryPrices u t = .ok t') :
    t.Rewrites t' (CatalogRow.mapCountry (t.realigned u)) ∧
    ∀ r ∈ t.countryPrices, r.country ∈ countryCurrency.map Prod.fst →
      (t.usdAmount r.owner).isSome = true → r.recomputeBase u = .ok (t.realigned u r) := by
  obtain ⟨writes, hwrites, h⟩ := Loops.bind_eq_ok.mp h
  cases h
  refine ⟨?_, fun r hr => recomputeBase_eq_realigned hwrites (hrows r hr)⟩
  refine rewrites_mapCountry (fun r => ?_) (fun r hr => ?_) fun r' hr' => ?_
  · obtain ⟨base, hr⟩ := realigned_eq (u := u) t r
    rw [hr]
    exact ⟨rfl, rfl, rfl⟩
  · rw [← updateBase_eq_realigned hwrites (hrows r hr)]
    exact List.mem_map.mpr ⟨r, List.mem_append_left _ hr, rfl⟩
  · obtain ⟨r, hr, rfl⟩ := List.mem_map.mp hr'
    rcases List.mem_append.mp hr with hr | hr
    · exact Or.inl ⟨r, hr, updateBase_eq_realigned hwrites (hrows r hr)⟩
    · refine Or.inr fun x hx => ?_
      obtain ⟨w, hw, hcreated⟩ := List.mem_filterMap.mp hr
      obtain ⟨⟨c, price⟩, -, hcollect⟩ := (Loops.mapM_ok_mem hwrites).2 w hw
      obtain ⟨base, hbase⟩ := updateBase_eq (writes.filterMap CountryWrite.updated) r
      have hx : (updateBase (writes.filterMap CountryWrite.updated) r).stripePriceId = some x := hx
      rw [hbase] at hx
      rcases hfind : t.countryRow price.owner c.1 with - | existing
      · obtain ⟨row, rfl, hnone⟩ := collectCountryRow_new hfind hcollect
        cases hcreated
        cases hnone.symm.trans hx
      · obtain ⟨realigned, -, rfl⟩ := collectCountryRow_existing hfind hcollect
        split at hcreated <;> cases hcreated

/-- **The seed rewrites amounts only**: the rounds the USD amounts, and the tables that they
leave the bases of the country rows. -/
theorem seedCatalog_rewrites {plans : List PlanSpec} {boosts : List BoostSpec} {cat cat' : Catalog}
    (h : seedCatalog u plans boosts cat = .ok cat') :
    let specs := plans.map SeedSpec.plan ++ boosts.map SeedSpec.boost
    ∃ t₁, cat.Rewrites t₁ (cat.rowAtRelease specs) ∧
      (cat.Rewrites cat'.toCatalogTables fun row =>
        (cat.rowAtRelease specs row).mapCountry (t₁.realigned u)) ∧
      ∀ r ∈ cat.countryPrices, r.country ∈ countryCurrency.map Prod.fst →
        (t₁.usdAmount r.owner).isSome = true → r.recomputeBase u = .ok (t₁.realigned u r) := by
  obtain ⟨t₁, hspecs, h⟩ := Loops.bind_eq_ok.mp h
  obtain ⟨t₂, hcountries, hcommit⟩ := Loops.bind_eq_ok.mp h
  have hrounds := foldlM_seedOne_rewrites cat.constraints.onePrice hspecs
  have hcountryRows := foldlM_seedOne_countryPrices hspecs
  have hrows : ∀ r ∈ t₁.countryPrices, t₁.countryRow r.owner r.country = some r := by
    intro r hr
    unfold CatalogTables.countryRow
    rw [hcountryRows] at hr ⊢
    have hu := Table.unique_some_iff.mpr cat.constraints.uniq_country_price_country
    have hfind := (Table.find?_eq_some_iff hu (v := (r.owner, r.country)) (a := r)).mpr ⟨hr, rfl⟩
    simpa using hfind
  obtain ⟨hrealigns, hderived⟩ := seedCountryPrices_rewrites hrows hcountries
  rw [hcountryRows] at hderived
  refine ⟨t₁, hrounds, ?_, hderived⟩
  rw [CatalogTables.commit_ok hcommit]
  exact hrounds.trans hrealigns

/-- A plan keeps its price, whatever it costs. -/
theorem seedCatalog_planPrices {plans : List PlanSpec} {boosts : List BoostSpec}
    {cat cat' : Catalog}
    (h : seedCatalog u plans boosts cat = .ok cat') {pp : PlanPrice} (hpp : pp ∈ cat.planPrices) :
    ∃ amount, pp.withAmount amount ∈ cat'.planPrices := by
  obtain ⟨t₁, -, hrewrites, -⟩ := seedCatalog_rewrites h
  have hold : cat'.Holds (.usd (cat.atRelease _ (.plan pp))) := hrewrites.old (.usd (.plan pp)) hpp
  unfold CatalogTables.atRelease at hold
  generalize cat.releaseAmount _ (.plan pp) = amount at hold
  rcases amount with - | amount
  · exact ⟨pp.amount, hold⟩
  · exact ⟨amount, hold⟩

end Saasmint
