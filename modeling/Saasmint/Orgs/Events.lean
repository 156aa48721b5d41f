/-
Saasmint/Orgs/Events.lean

The processing of a stored Stripe event as a whole: the dispatch of
saasmint_core/services/webhooks.py and the callbacks it makes into the apps,
`on_team_checkout_completed` (apps/orgs/services.py) above all.

The world of an event is the database, what Stripe holds, the tasks that were
enqueued and the calls that were made.  A handler that raises keeps what it has
committed by then: the organization of a team checkout stays when the eager
sync of its subscription fails.
-/
import Saasmint.Billing.Credits
import Saasmint.Billing.Lifecycle
import Saasmint.Orgs.Services

namespace Saasmint

open Programs PyStr

variable {p : Platform}

/-! ### The database -/

/-- The tables of organizations and of billing together. -/
structure Store (p : Platform) where
  org : OrgDb p
  catalog : CatalogTables
  uniq_stripe_id : Table.Unique Subscription.stripeId org.subscriptions

namespace Store

/-- What the billing services see. -/
def billing (s : Store p) : BillingDb where
  catalog := s.catalog
  customers := s.org.customers
  subscriptions := ⟨s.org.subscriptions, s.org.constraints.subscription_pk, s.uniq_stripe_id⟩

/-- The tables after a billing service has written its rows. -/
def withSubscriptions (s : Store p) (tbl : SubscriptionTable) : Store p where
  org :=
    { s.org.toOrgTables with
      subscriptions := tbl.rows
      constraints := { s.org.constraints with subscription_pk := tbl.pk } }
  catalog := s.catalog
  uniq_stripe_id := tbl.uniq_stripe_id

/-- The database takes tables that meet the constraints; `none` is the
`IntegrityError`. -/
def commit (s : Store p) (t : OrgTables) : Option (Store p) :=
  if h : t.Constraints p ∧ Table.Unique Subscription.stripeId t.subscriptions then
    some ⟨⟨t, h.1⟩, s.catalog, h.2⟩
  else none

variable {s s' : Store p}

@[simp] theorem withSubscriptions_billing (tbl : SubscriptionTable) :
    (s.withSubscriptions tbl).billing = { s.billing with subscriptions := tbl } := rfl

theorem commit_eq_some {t : OrgTables} (h : s.commit t = some s') :
    s'.org.toOrgTables = t ∧ s'.catalog = s.catalog := by
  unfold commit at h
  split at h
  · cases h
    exact ⟨rfl, rfl⟩
  · cases h

end Store

/-! ### The world -/

/-- The database with the ledger, the tasks that were enqueued, and Stripe. -/
structure AppWorld (p : Platform) where
  store : Store p
  ledger : List CreditTransaction
  balances : List CreditBalance
  /-- The organizations that a deletion task was enqueued for. -/
  orgDeletions : List UUID
  stripe : String → Option StripeSubscription
  issued : List IssuedCall

/-- What the processing of an event raises. -/
inductive AppError
  | userDoesNotExist
  | integrityError
  /-- A text is too long for its column. -/
  | dataError
  | stripeError
  | webhook (e : WebhookError)
  | service (e : ServiceError)
  /-- A grant of credits fails. -/
  | grantError
  deriving DecidableEq, Repr

/-- The exceptions that `process_stripe_webhook` retries. -/
def AppError.isRetried : AppError → Bool
  | stripeError | service .stripe => true
  | _ => false

abbrev App (p : Platform) := EStateM AppError (AppWorld p)

namespace AppWorld

/-- What the billing services see of the world. -/
def billing (w : AppWorld p) : BillingWorld := ⟨w.stripe, w.store.billing, w.issued⟩

/-- The world after a billing service. -/
def afterBilling (w : AppWorld p) (b : BillingWorld) : AppWorld p :=
  { w with
    store := w.store.withSubscriptions b.db.subscriptions
    stripe := b.stripe
    issued := b.issued }

/-- What the credit services see of the world. -/
def credits (w : AppWorld p) : CreditDb where
  products := w.store.catalog.products
  users := w.store.org.users.map User.id
  orgs := w.store.org.orgs.map Org.id
  ledger := w.ledger
  balances := w.balances

end AppWorld

/-! ### Team checkouts -/

/-- The inserts of `_create_org_with_owner`. -/
def insertOrgForCheckout (user : UUID) (orgName slug stripeCustomerId : String) : App p PUnit :=
  fun w =>
    if maxOrgText < orgName.length ∨ maxOrgText < slug.length then .error .dataError w
    else
      match w.store.commit (w.store.org.insertOrg user orgName slug stripeCustomerId) with
      | none => .error .integrityError w
      | some store => .ok ⟨⟩ { w with store }

/-- The slug that `_create_org_with_owner` picks. -/
def AppWorld.slugFor (w : AppWorld p) (orgName : String) : String :=
  generateUniqueSlug p.slugify (w.store.org.orgs.map Org.slug) orgName

/-- `_create_org_with_owner`. -/
def createOrgForCheckout (user : UUID) (orgName stripeCustomerId : String) : App p PUnit := fun w =>
  if w.store.org.alreadyCreated stripeCustomerId user then .ok ⟨⟩ w
  else insertOrgForCheckout user orgName (w.slugFor orgName) stripeCustomerId w

variable (u : UnicodeTables) (sb : StripeBehaviour) (now : Timestamp)
  (retrieve : String → Option SubscriptionData)

/-- A sync of raw subscription data into the store. -/
def syncIntoStore (d : SubscriptionData) : App p PUnit := fun w =>
  match syncSubscriptionFromData u w.store.billing now d with
  | .error e => .error (.webhook e) w
  | .ok db => .ok ⟨⟩ { w with store := w.store.withSubscriptions db.subscriptions }

/-- `_persist_team_subscription`, where `retrieve` is `Subscription.retrieve`. -/
def persistTeamSubscription (subscriptionId : String) : App p PUnit :=
  match retrieve subscriptionId with
  | none => throw .stripeError
  | some d => syncIntoStore u now d

/-- `_schedule_personal_cancel_at_period_end`. -/
def schedulePersonalCancelAtPeriodEnd (user : UUID) : App p PUnit := fun w =>
  match w.store.org.customers.find? fun c => c.owner = .user user with
  | none => .ok ⟨⟩ w
  | some customer =>
    match cancelSubscription sb now customer.id true w.billing with
    | .ok _ b => .ok ⟨⟩ (w.afterBilling b)
    -- a customer without an active subscription
    | .error (.subscriptionNotFound _) b => .ok ⟨⟩ (w.afterBilling b)
    | .error e b => .error (.service e) (w.afterBilling b)

/-- `User.objects.aget(id=user_id)`. -/
def requireUser (user : UUID) : App p PUnit := fun w =>
  if w.store.org.users.any fun x => x.id = user then .ok ⟨⟩ w else .error .userDoesNotExist w

/-- `on_team_checkout_completed`. -/
def onTeamCheckoutCompleted (user : UUID) (orgName stripeCustomerId : String)
    (subscriptionId : Option String) (keepPersonal : Bool) : App p PUnit := do
  requireUser user
  createOrgForCheckout user orgName stripeCustomerId
  match subscriptionId with
  | none => pure ⟨⟩
  | some sid => persistTeamSubscription u now retrieve sid
  if keepPersonal then pure ⟨⟩ else schedulePersonalCancelAtPeriodEnd sb now user

/-! ### Events -/

/-- `on_product_checkout_completed`, when no other grant is under way. -/
def grantForSession (sessionId : String) (productId userId : UUID) (orgId : Option UUID) :
    App p PUnit := fun w =>
  match onProductCheckoutCompleted w.credits sessionId productId userId orgId with
  | .skip => .ok ⟨⟩ w
  | .raise => .error .grantError w
  | .grant g =>
    if !g.fits then .error .grantError w
    else if w.credits.hasSession g.sessionId then .ok ⟨⟩ w
    else
      let balance := (w.credits.balanceOf g.owner).getD 0 + g.amount
      if 0 ≤ balance ∧ balance ≤ maxInteger then
        let db := w.credits.apply g balance (w.credits.balanceOf g.owner).isNone
        .ok ⟨⟩ { w with ledger := db.ledger, balances := db.balances }
      else .error .grantError w

/-- A callback of the dispatch. -/
def Callback.run : Callback → App p PUnit
  | onTeamCheckoutCompleted user orgName stripeCustomerId _ subscriptionId keepPersonal =>
    Saasmint.onTeamCheckoutCompleted u sb now retrieve user orgName stripeCustomerId subscriptionId
      keepPersonal
  | onOrgSubscriptionCanceled org =>
    -- `delete_org_on_subscription_cancel` only enqueues the task
    modify fun w => { w with orgDeletions := w.orgDeletions ++ [org] }
  | onProductCheckoutCompleted sessionId productId userId orgId =>
    grantForSession sessionId productId userId orgId

/-- The callbacks of an event, in order. -/
def runCallbacks : List Callback → App p PUnit
  | [] => pure ⟨⟩
  | call :: calls => do
    call.run u sb now retrieve
    runCallbacks calls

/-- The part of `process_stored_event` that changes data. -/
def processEvent (event : Event) : App p PUnit := fun w =>
  match dispatch u w.store.billing now event with
  | .error e => .error (.webhook e) w
  | .ok (db, calls) =>
    runCallbacks u sb now retrieve calls
      { w with store := w.store.withSubscriptions db.subscriptions }

end Saasmint
