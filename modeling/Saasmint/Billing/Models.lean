/-
Saasmint/Billing/Models.lean

The rows of the billing tables (apps/billing/models.py and the domain models
of saasmint_core/domain/subscription.py) and the constraints that the
database enforces on the price catalog.

Columns that no modelled function reads or writes (row ids of localized and
country prices, audit timestamps, trial and livemode flags of customers) are
left out.  Where the source has a pair of nullable foreign keys under an XOR
check constraint, the model has one sum type, so that a row without an owner
or with two cannot be built.
-/
import Mathlib.Data.List.Nodup

namespace Saasmint

/-- Primary keys. -/
abbrev UUID := Nat

/-- An aware UTC datetime, as seconds since the Unix epoch. -/
abbrev Timestamp := Int

inductive PlanContext
  | personal | team
  deriving DecidableEq, Repr

inductive PlanInterval
  | month | year
  deriving DecidableEq, Repr

inductive PlanTier
  | free | basic | pro
  deriving DecidableEq, Repr

/-- The wire values, and the lower-case name of a tier, which is stored as a number. -/
def PlanContext.value : PlanContext → String
  | personal => "personal"
  | team => "team"

def PlanInterval.value : PlanInterval → String
  | month => "month"
  | year => "year"

def PlanTier.value : PlanTier → String
  | free => "1"
  | basic => "2"
  | pro => "3"

def PlanTier.name : PlanTier → String
  | free => "free"
  | basic => "basic"
  | pro => "pro"

inductive SubscriptionStatus
  | active | trialing | pastDue | canceled | incomplete | incompleteExpired | paused | unpaid
  deriving DecidableEq, Repr

/-- The wire value of a status. -/
def SubscriptionStatus.value : SubscriptionStatus → String
  | active => "active"
  | trialing => "trialing"
  | pastDue => "past_due"
  | canceled => "canceled"
  | incomplete => "incomplete"
  | incompleteExpired => "incomplete_expired"
  | paused => "paused"
  | unpaid => "unpaid"

/-- `SubscriptionStatus(value)`; `none` is the `ValueError`. -/
def SubscriptionStatus.ofValue (s : String) : Option SubscriptionStatus :=
  [active, trialing, pastDue, canceled, incomplete, incompleteExpired, paused, unpaid].find?
    fun st => st.value = s

@[simp] theorem SubscriptionStatus.ofValue_value (st : SubscriptionStatus) :
    ofValue st.value = some st := by
  cases st <;> decide

/-- `ACTIVE_SUBSCRIPTION_STATUSES`. -/
def SubscriptionStatus.isActive : SubscriptionStatus → Bool
  | active | trialing | pastDue => true
  | _ => false

structure Plan where
  id : UUID
  name : String
  description : String
  context : PlanContext
  tier : PlanTier
  interval : PlanInterval
  isActive : Bool
  deriving DecidableEq, Repr

/-- The USD price of a plan; `amount` is in cents. -/
structure PlanPrice where
  id : UUID
  planId : UUID
  stripePriceId : String
  amount : Int
  deriving DecidableEq, Repr

structure Product where
  id : UUID
  name : String
  credits : Int
  isActive : Bool
  deriving DecidableEq, Repr

structure ProductPrice where
  id : UUID
  productId : UUID
  stripePriceId : String
  amount : Int
  deriving DecidableEq, Repr

/-- Exactly one of `plan_price` and `product_price`. -/
inductive PriceOwner
  | planPrice (id : UUID)
  | productPrice (id : UUID)
  deriving DecidableEq, Repr

/-- The price of an owner in one non-USD currency, derived from the FX feed. -/
structure LocalizedPrice where
  owner : PriceOwner
  currency : String
  amountMinor : Int
  stripePriceId : Option String
  syncedAt : Timestamp
  deriving DecidableEq, Repr

/-- The tax-inclusive price of an owner in one country. -/
structure CountryPrice where
  owner : PriceOwner
  country : String
  currency : String
  stickerMinor : Int
  baseMinor : Int
  isCurated : Bool
  stripePriceId : Option String
  deriving DecidableEq, Repr

/-- Exactly one of `user` and `org`. -/
inductive Owner
  | user (id : UUID)
  | org (id : UUID)
  deriving DecidableEq, Repr

/-- The `user_id` column. -/
def Owner.userId : Owner → Option UUID
  | user id => some id
  | org _ => none

/-- The `org_id` column. -/
def Owner.orgId : Owner → Option UUID
  | user _ => none
  | org id => some id

structure StripeCustomer where
  id : UUID
  stripeId : String
  owner : Owner
  deriving DecidableEq, Repr

/-- The local mirror of a Stripe subscription. -/
structure Subscription where
  id : UUID
  stripeId : Option String
  stripeCustomerId : Option UUID
  userId : Option UUID
  status : SubscriptionStatus
  planId : UUID
  seatLimit : Int
  trialEndsAt : Option Timestamp
  currentPeriodStart : Timestamp
  currentPeriodEnd : Timestamp
  canceledAt : Option Timestamp
  cancelAt : Option Timestamp
  scheduledPlanId : Option UUID
  scheduledChangeAt : Option Timestamp
  currency : String
  createdAt : Timestamp
  deriving DecidableEq, Repr

/-! ### The price catalog -/

/-- The six catalog tables. -/
structure CatalogTables where
  plans : List Plan
  planPrices : List PlanPrice
  products : List Product
  productPrices : List ProductPrice
  localizedPrices : List LocalizedPrice
  countryPrices : List CountryPrice
  deriving DecidableEq, Repr

/-- The keys and constraints declared on the catalog tables. -/
structure CatalogTables.Constraints (t : CatalogTables) : Prop where
  plan_pk : (t.plans.map Plan.id).Nodup
  uniq_active_plan_per_context_tier_interval :
    ((t.plans.filter Plan.isActive).map fun p => (p.context, p.tier, p.interval)).Nodup
  planPrice_pk : (t.planPrices.map PlanPrice.id).Nodup
  planPrice_plan : (t.planPrices.map PlanPrice.planId).Nodup
  planPrice_stripe : (t.planPrices.map PlanPrice.stripePriceId).Nodup
  product_pk : (t.products.map Product.id).Nodup
  productPrice_pk : (t.productPrices.map ProductPrice.id).Nodup
  productPrice_product : (t.productPrices.map ProductPrice.productId).Nodup
  productPrice_stripe : (t.productPrices.map ProductPrice.stripePriceId).Nodup
  uniq_localized_price_currency :
    (t.localizedPrices.map fun r => (r.owner, r.currency)).Nodup
  uniq_localized_stripe_price_id :
    (t.localizedPrices.filterMap LocalizedPrice.stripePriceId).Nodup
  uniq_country_price_country :
    (t.countryPrices.map fun r => (r.owner, r.country)).Nodup
  uniq_country_stripe_price_id :
    (t.countryPrices.filterMap CountryPrice.stripePriceId).Nodup

/-- A catalog state: tables that meet their constraints. -/
structure Catalog extends CatalogTables where
  constraints : toCatalogTables.Constraints

/-- Every Stripe price id stored anywhere in the catalog. -/
def CatalogTables.storedPriceIds (t : CatalogTables) : List String :=
  t.planPrices.map PlanPrice.stripePriceId
    ++ t.productPrices.map ProductPrice.stripePriceId
    ++ t.localizedPrices.filterMap LocalizedPrice.stripePriceId
    ++ t.countryPrices.filterMap CountryPrice.stripePriceId

/-- `DjangoPlanRepository.get_price_by_stripe_id`. -/
def CatalogTables.getPriceByStripeId (t : CatalogTables) (stripePriceId : String) :
    Option PlanPrice :=
  t.planPrices.find? fun pp => pp.stripePriceId = stripePriceId

end Saasmint
