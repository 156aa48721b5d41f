/-
Saasmint/Billing/StripeSync.lean

`sync_stripe_catalog`: the prices of what is sold, mirrored to Stripe.

A run fetches the Stripe Prices under all its lookup keys, archived ones too,
and then goes through the rows: a price that matches is kept, one that does not
is archived, and a new one takes its lookup key; the id goes on the row.  Each
call to Stripe and each write to the database may raise, which ends the run
where it is; what has been done stays.  Where a localized row is missing, the
run calls the FX job, which writes all of them.

What is only printed is left out, and so is the metadata of prices, which
nobody reads.
-/
import Saasmint.Billing.LocalizedPrices
import Saasmint.Billing.CuratedPrices
import Saasmint.Lib.Programs

namespace Saasmint

open PyStr

variable (u : UnicodeTables)

/-! ### Stripe -/

inductive TaxBehavior
  | unspecified | exclusive | inclusive
  deriving DecidableEq, Repr

structure StripePrice where
  id : String
  product : String
  unitAmount : Int
  currency : String
  /-- The interval of a recurring price. -/
  recurring : Option PlanInterval
  lookupKey : Option String
  taxBehavior : TaxBehavior
  active : Bool
  deriving DecidableEq, Repr

structure StripeProduct where
  id : String
  name : String
  description : Option String
  metadata : List (String × String)
  deriving DecidableEq, Repr

/-- The prices and products of the Stripe account. -/
structure StripeCatalog where
  prices : List StripePrice
  products : List StripeProduct
  deriving DecidableEq, Repr

/-- An id that no object has. -/
def newObjectId (kind : String) (ids : List String) : String :=
  kind ++ String.ofList
  (List.replicate (Table.freshKey (ids.map fun x => x.length - kind.length)) '0')

/-- `{**a, **b}`. -/
def dictMerge (a b : List (String × String)) : List (String × String) :=
  (a.map fun e => (e.1, (b.lookup e.1).getD e.2)) ++ b.filter fun e => (a.lookup e.1).isNone

namespace StripeCatalog

variable (s : StripeCatalog)

def price (id : String) : Option StripePrice := s.prices.find? fun p => p.id = id

def priceByKey (key : String) : Option StripePrice := s.prices.find? fun p => p.lookupKey = some key

def product (id : String) : Option StripeProduct := s.products.find? fun p => p.id = id

/-- An UPDATE of one price. -/
def modifyPrice (id : String) (f : StripePrice → StripePrice) : StripeCatalog :=
  { s with prices := Table.update StripePrice.id id f s.prices }

/-- `Price.create` with `transfer_lookup_key`. -/
def createPrice (p : StripePrice) : StripeCatalog :=
  { s with
    prices := (s.prices.map fun q =>
      if q.lookupKey = p.lookupKey then { q with lookupKey := none } else q) ++ [p] }

def createProduct (p : StripeProduct) : StripeCatalog := { s with products := s.products ++ [p] }

def modifyProduct (id : String) (f : StripeProduct → StripeProduct) : StripeCatalog :=
  { s with products := Table.update StripeProduct.id id f s.products }

end StripeCatalog

/-- `price.product`, expanded or not. -/
inductive ProductRef
  | object (p : StripeProduct)
  | id (s : String)
  deriving DecidableEq, Repr

/-- A price as `Price.list` returns it. -/
structure FetchedPrice extends StripePrice where
  productRef : ProductRef
  deriving DecidableEq, Repr

/-! ### What is sold -/

/-- A plan or a product with its price, as a round reads it. -/
structure SoldItem where
  owner : PriceOwner
  amount : Int
  baseKey : String
  recurring : Option PlanInterval
  name : String
  description : Option String
  metadata : List (String × String)
  deriving DecidableEq, Repr

/-- `_slug`. -/
def slug (value : String) : String :=
  let words := splitChars (fun c => !(c.isLower || c.isDigit)) (lower u value).toList
  "_".intercalate ((words.filter fun w => !w.isEmpty).map String.ofList)

/-- `_plan_lookup_key` and `_product_lookup_key` for USD. -/
def Plan.baseKey (plan : Plan) : String :=
  "plan_" ++ plan.context.value ++ "_" ++ plan.tier.name ++ "_" ++ plan.interval.value

def Product.baseKey (product : Product) : String := "product_" ++ slug u product.name

/-- The lookup key for a currency. -/
def lookupKey (base currency : String) : String :=
  if currency = "usd" then base else base ++ "_" ++ currency

/-- `_country_lookup_key`. -/
def countryLookupKey (base country : String) : String := base ++ "_c_" ++ lower u country

def Plan.item (plan : Plan) (pp : PlanPrice) : SoldItem where
  owner := .planPrice pp.id
  amount := pp.amount
  baseKey := plan.baseKey
  recurring := some plan.interval
  name := plan.name
  description := if plan.description = "" then none else some plan.description
  metadata := [("local_plan_id", toString plan.id), ("kind", "plan")]

def Product.item (product : Product) (pp : ProductPrice) : SoldItem where
  owner := .productPrice pp.id
  amount := pp.amount
  baseKey := product.baseKey u
  recurring := none
  name := product.name
  description := some (toString product.credits ++ " credits")
  metadata := [("local_product_id", toString product.id), ("kind", "product")]

namespace CatalogTables

variable (t : CatalogTables)

def activePlans : List Plan := t.plans.filter Plan.isActive

def activeProducts : List Product := t.products.filter Product.isActive

/-- The active plans that have a price, each with the Stripe Price id on it. -/
def soldPlans : List (SoldItem × String) :=
  t.activePlans.filterMap fun plan =>
    (t.planPrices.find? fun pp => pp.planId = plan.id).map fun pp =>
      (plan.item pp, pp.stripePriceId)

def soldProducts : List (SoldItem × String) :=
  t.activeProducts.filterMap fun product =>
    (t.productPrices.find? fun pp => pp.productId = product.id).map fun pp =>
      (product.item u pp, pp.stripePriceId)

def sold : List SoldItem := (t.soldPlans ++ t.soldProducts u).map Prod.fst

/-- The plan or product that owns a row. -/
def soldItem (owner : PriceOwner) : Option SoldItem := (t.sold u).find? fun s => s.owner = owner

/-- `_collect_lookup_keys`. -/
def collectLookupKeys (currencies : List String) : List String :=
  (t.activePlans.flatMap fun plan => currencies.map (lookupKey plan.baseKey)) ++
    (t.activeProducts.flatMap fun product => currencies.map (lookupKey (product.baseKey u))) ++
    t.activeCountryPrices.filterMap fun cp =>
      (t.soldItem u cp.owner).map fun s => countryLookupKey u s.baseKey cp.country

/-- A write of the Stripe Price id of one row. -/
def stamp (key : RowKey) (id : String) : CatalogTables :=
  match key with
  | .usd (.planPrice k) => { t with
      planPrices :=
        Table.update PlanPrice.id k (fun pp => { pp with stripePriceId := id }) t.planPrices }
  | .usd (.productPrice k) => { t with
      productPrices := Table.update ProductPrice.id k (fun pp => { pp with stripePriceId := id })
        t.productPrices }
  | .localized owner currency => { t with
      localizedPrices := Table.update (fun r : LocalizedPrice => (r.owner, r.currency))
        (owner, currency) (fun r => { r with stripePriceId := some id }) t.localizedPrices }
  | .country owner country =>
    t.saveCountryRow (owner, country) fun r => { r with stripePriceId := some id }

end CatalogTables

/-! ### Calls and writes -/

inductive PriceWrite
  | created (id : String)
  | archived (id : String)
  deriving DecidableEq, Repr

/-- The database, Stripe, and the prices that have been created and archived. -/
structure SyncWorld where
  catalog : Catalog
  stripe : StripeCatalog
  writes : List PriceWrite
  fetches : Nat
  clock : Nat

abbrev SyncWorld.tables (w : SyncWorld) : CatalogTables := w.catalog.toCatalogTables

/-- The world with another catalog. -/
def SyncWorld.withCatalog (w : SyncWorld) (catalog : Catalog) : SyncWorld := { w with catalog }

/-- What a run meets: which of its calls and writes raise, and what the feed answers. -/
structure SyncEnv where
  fails : Nat → Bool
  feed : Nat → FxFetch

abbrev Sync := EStateM String SyncWorld

variable (env : SyncEnv)

namespace Sync

def tables : Sync CatalogTables := fun w => .ok w.tables w

/-- A call to Stripe. -/
def call (f : SyncWorld → SyncWorld) : Sync PUnit := fun w =>
  let w' := { w with clock := w.clock + 1 }
  if env.fails w.clock then .error "StripeError" w' else .ok ⟨⟩ (f w')

/-- A save. -/
def save (f : CatalogTables → CatalogTables) : Sync PUnit := fun w =>
  let w' := { w with clock := w.clock + 1 }
  if env.fails w.clock then .error "OperationalError" w'
  else match (f w.tables).commit with
    | .ok catalog => .ok ⟨⟩ { w' with catalog }
    | .error e => .error e w'

/-- `Price.list` for at most ten lookup keys, with the products. -/
def priceList (keys : List String) : Sync (List FetchedPrice) := do
  call env id
  let w ← get
  return ((w.stripe.prices.filter fun p => keys.any fun key => p.lookupKey = some key).take 10).map
    fun p => ⟨p, (w.stripe.product p.product).elim (.id p.product) .object⟩

def priceCreate (key : String) (unitAmount : Int) (currency : String)
    (recurring : Option PlanInterval) (product : String) : Sync String := do
  let w ← get
  let id := newObjectId "price_" (w.stripe.prices.map StripePrice.id)
  call env fun w => { w with
    stripe := w.stripe.createPrice
      ⟨id, product, unitAmount, currency, recurring, some key, .exclusive, true⟩
    writes := w.writes ++ [.created id] }
  return id

def priceArchive (id : String) : Sync PUnit :=
  call env fun w => { w with
    stripe := w.stripe.modifyPrice id fun p => { p with active := false }
    writes := w.writes ++ [.archived id] }

def priceTaxBehavior (id : String) : Sync PUnit :=
  call env fun w => { w with
    stripe := w.stripe.modifyPrice id fun p => { p with taxBehavior := .exclusive } }

def productCreate (item : SoldItem) : Sync String := do
  let w ← get
  let id := newObjectId "prod_" (w.stripe.products.map StripeProduct.id)
  call env fun w => { w with
    stripe := w.stripe.createProduct ⟨id, item.name, item.description, item.metadata⟩ }
  return id

def productModify (id : String) (f : StripeProduct → StripeProduct) : Sync PUnit :=
  call env fun w => { w with stripe := w.stripe.modifyProduct id f }

/-- The FX job, called inline. -/
def runSyncLocalizedPrices : Sync PUnit := fun w =>
  let w' := { w with clock := w.clock + 1, fetches := w.fetches + 1 }
  match syncLocalizedPrices u (env.feed w.fetches) w.tables with
  | .error e => .error e w'
  | .ok (t, _) => match t.commit with
    | .ok catalog => .ok ⟨⟩ { w' with catalog }
    | .error e => .error e w'

end Sync

open Sync

/-! ### The command -/

/-- The batches of `range(0, len(lookup_keys), 10)`. -/
def batches (keys : List String) : List (List String) :=
  (List.range ((keys.length + 9) / 10)).map fun i => (keys.drop (10 * i)).take 10

/-- `_bulk_fetch_existing`. -/
def bulkFetchExisting (keys : List String) : Sync (List (String × FetchedPrice)) :=
  (batches keys).foldlM (fun result batch => do
    let page ← priceList env batch
    return (page.filterMap fun price => price.lookupKey.map fun key => (key, price)) ++ result) []

/-- `_price_matches`. -/
def priceMatches (price : StripePrice) (unitAmount : Int) (currency : String)
    (recurring : Option PlanInterval) : Bool :=
  if price.unitAmount ≠ unitAmount || price.currency ≠ currency then false
  else match recurring, price.recurring with
    | none, current => current.isNone
    | some _, none => false
    | some interval, some current => current = interval

/-- `_sync_stripe_product`. -/
def syncStripeProduct (product : ProductRef) (item : SoldItem) : Sync PUnit :=
  let (id, existingName, existingDescription, existingMetadata) :=
    match product with
    | .object p => (p.id, some p.name, p.description, p.metadata)
    | .id s => (s, none, none, [])
  let name := existingName.bind fun n => if n ≠ item.name then some item.name else none
  let description := item.description.filter fun d => existingDescription ≠ some d
  let merged := dictMerge existingMetadata item.metadata
  let metadata := if merged ≠ existingMetadata then some merged else none
  if name.isSome || description.isSome || metadata.isSome then
    productModify env id fun p =>
      { p with name := name.getD p.name, description := description.or p.description,
               metadata := dictMerge p.metadata (metadata.getD []) }
  else pure ⟨⟩

/-- `_ensure_tax_behavior`. -/
def ensureTaxBehavior (price : FetchedPrice) : Sync PUnit :=
  if price.taxBehavior = .unspecified then priceTaxBehavior env price.id else pure ⟨⟩

/-- `_upsert_price`. -/
def upsertPrice (existingPrices : List (String × FetchedPrice)) (key : String) (unitAmount : Int)
    (currency : String) (item : SoldItem) : Sync String :=
  match existingPrices.lookup key with
  | some current =>
    if priceMatches current.toStripePrice unitAmount currency item.recurring then do
      syncStripeProduct env current.productRef item
      ensureTaxBehavior env current
      return current.id
    else do
      priceArchive env current.id
      syncStripeProduct env (.id current.product) item
      priceCreate env key unitAmount currency item.recurring current.product
  | none => do
    let product ← productCreate env item
    priceCreate env key unitAmount currency item.recurring product

/-- `_unit_amount_for`. -/
def unitAmountFor (item : SoldItem) (currency : String) : Sync (Option Int) :=
  if currency = "usd" then return some item.amount
  else do
    let t ← tables
    match t.localizedRow item.owner currency with
    | some r => return some r.amountMinor
    | none =>
      runSyncLocalizedPrices u env
      let t ← tables
      return (t.localizedRow item.owner currency).map LocalizedPrice.amountMinor

/-- `_write_price_id`; `current` is the id on the USD row, as it was read. -/
def writePriceId (owner : PriceOwner) (current newPriceId currency : String) : Sync PUnit :=
  if currency = "usd" then
    if newPriceId = current then pure ⟨⟩
    else save env fun t => t.stamp (.usd owner) newPriceId
  else do
    let t ← tables
    match t.localizedRow owner currency with
    | none => pure ⟨⟩
    | some r =>
      if r.stripePriceId = some newPriceId then pure ⟨⟩
      else save env fun t => t.stamp (.localized owner currency) newPriceId

/-- One plan or product in a currency. -/
def syncItem (existingPrices : List (String × FetchedPrice)) (currency : String)
    (x : SoldItem × String) : Sync PUnit := do
  match ← unitAmountFor u env x.1 currency with
  | none => pure ⟨⟩
  | some unitAmount =>
    let id ← upsertPrice env existingPrices (lookupKey x.1.baseKey currency) unitAmount currency x.1
    writePriceId env x.1.owner x.2 id currency

/-- `_sync_plans`. -/
def syncPlans (existingPrices : List (String × FetchedPrice)) (currency : String) :
    Sync PUnit := do
  let t ← tables
  t.soldPlans.forM (syncItem u env existingPrices currency)

/-- `_sync_products`. -/
def syncProducts (existingPrices : List (String × FetchedPrice)) (currency : String) :
    Sync PUnit := do
  let t ← tables
  (t.soldProducts u).forM (syncItem u env existingPrices currency)

/-- A row of `_sync_country_prices`, with its owner. -/
def syncCountryRow (existingPrices : List (String × FetchedPrice)) (cp : CountryPrice) :
    Sync PUnit := do
  let t ← tables
  match t.soldItem u cp.owner, cp.recomputeBase u with
  | none, _ => throw "'NoneType' object has no attribute 'name'"
  | _, .error e => throw e
  | some item, .ok cp' =>
    if cp.baseMinor ≠ cp'.baseMinor then
      save env fun t => t.saveCountryRow cp.key fun r => { r with baseMinor := cp'.baseMinor }
    let id ← upsertPrice env existingPrices
        (countryLookupKey u item.baseKey cp.country) cp'.baseMinor
      cp.currency item
    if cp.stripePriceId = some id then pure ⟨⟩
    else save env fun t => t.stamp (.country cp.owner cp.country) id

/-- `_sync_country_prices`. -/
def syncCountryPrices (existingPrices : List (String × FetchedPrice)) : Sync PUnit := do
  let t ← tables
  t.activeCountryPrices.forM (syncCountryRow u env existingPrices)

/-- `Command.handle`. -/
def handle (st : Settings) : Sync PUnit := do
  let t ← tables
  let existingPrices ← bulkFetchExisting env (t.collectLookupKeys u st.billingCurrencies)
  st.billingCurrencies.forM fun currency => do
    syncPlans u env existingPrices currency
    syncProducts u env existingPrices currency
  syncCountryPrices u env existingPrices

end Saasmint
