/-
Saasmint/Billing/Webhooks.lean

The dispatch of Stripe events to their handlers
(saasmint_core/services/webhooks.py).

Payloads are records of the keys the handlers read.  A key read with `.get`
is an `Option`, where a missing key and a null are the same; the two period
keys, whose type the code checks itself, are `PeriodField`s.  A handler
returns the database it leaves and the callbacks it makes into the apps layer,
or the exception it raises.

Each handler of subscriptions and schedules has one specification lemma that
says which row it leaves under the Stripe id and that nothing else changes
(`syncSubscriptionFromData_spec`, `onSubscriptionDeleted_spec`,
`onSubscriptionScheduleUpserted_spec`, `onSubscriptionScheduleCleared_spec`).
-/
import Saasmint.Billing.Repositories
import Saasmint.Lib.PyStr

namespace Saasmint

open PyStr

variable (u : UnicodeTables)

/-- The exceptions of the handlers. -/
inductive WebhookError
  /-- `WebhookDataError(message)`, a permanent failure. -/
  | webhookData (message : String)
  | valueError
  | indexError
  | integrityError
  deriving DecidableEq, Repr

/-! ### Payloads -/

/-- The value of a period key. -/
inductive PeriodField
  | missing
  | null
  | int (epoch : Int)
  /-- A value of another JSON type. -/
  | other
  deriving DecidableEq, Repr

/-- `item.get(key, sub.get(key))`. -/
def PeriodField.orDefault : PeriodField → PeriodField → PeriodField
  | missing, missing => null
  | missing, d => d
  | f, _ => f

structure SubscriptionItem where
  priceId : String
  priceCurrency : Option String
  quantity : Option Int
  currentPeriodStart : PeriodField
  currentPeriodEnd : PeriodField
  deriving DecidableEq, Repr

/-- A Stripe subscription, the object of `customer.subscription.*` events. -/
structure SubscriptionData where
  id : String
  customer : String
  status : String
  items : List SubscriptionItem
  currency : Option String
  trialEnd : Option Timestamp
  canceledAt : Option Timestamp
  cancelAt : Option Timestamp
  currentPeriodStart : PeriodField
  currentPeriodEnd : PeriodField
  deriving DecidableEq, Repr

/-- The `price` of a phase item: an id, or an expanded object with its id. -/
inductive PhasePrice
  | ref (price : Option String)
  | expanded (id : Option String)
  deriving DecidableEq, Repr

structure SchedulePhase where
  items : List PhasePrice
  startDate : Option Timestamp
  endDate : Option Timestamp
  deriving DecidableEq, Repr

/-- A Stripe subscription schedule. -/
structure ScheduleData where
  subscription : Option String
  phases : List SchedulePhase
  deriving DecidableEq, Repr

/-- The metadata that the checkout views put on a session. -/
structure SessionMetadata where
  orgName : Option String
  keepPersonalSubscription : Option String
  productId : Option String
  orgId : Option String
  deriving DecidableEq, Repr

/-- A Stripe checkout session. -/
structure SessionData where
  id : Option String
  mode : Option String
  metadata : SessionMetadata
  clientReferenceId : Option String
  customer : Option String
  subscription : Option String
  livemode : Bool
  deriving DecidableEq, Repr

/-- Stripe events by type. -/
inductive Event
  | checkoutSessionCompleted (session : SessionData)
  | customerSubscriptionCreated (sub : SubscriptionData)
  | customerSubscriptionUpdated (sub : SubscriptionData)
  | customerSubscriptionDeleted (sub : SubscriptionData)
  | subscriptionScheduleCreated (schedule : ScheduleData)
  | subscriptionScheduleUpdated (schedule : ScheduleData)
  | subscriptionScheduleReleased (schedule : ScheduleData)
  | subscriptionScheduleCanceled (schedule : ScheduleData)
  | subscriptionScheduleAborted (schedule : ScheduleData)
  | invoicePaymentSucceeded
  | invoicePaymentFailed
  | unhandled (type : String)
  deriving DecidableEq, Repr

/-- A call of one of the callbacks of `WebhookRepos`. -/
inductive Callback
  | onTeamCheckoutCompleted (userId : UUID) (orgName stripeCustomerId : String)
      (livemode : Bool) (subscriptionId : Option String) (keepPersonal : Bool)
  | onOrgSubscriptionCanceled (orgId : UUID)
  | onProductCheckoutCompleted (sessionId : String) (productId userId : UUID)
      (orgId : Option UUID)
  deriving DecidableEq, Repr

/-! ### Subscription sync -/

/-- `_extract_period_window`. -/
def extractPeriodWindow (d : SubscriptionData) (item : SubscriptionItem) :
    Except WebhookError (Timestamp × Timestamp) :=
  let periodStart := item.currentPeriodStart.orDefault d.currentPeriodStart
  let periodEnd := item.currentPeriodEnd.orDefault d.currentPeriodEnd
  if periodStart = .null ∨ periodEnd = .null then
    .error (.webhookData s!"Subscription {d.id} missing current_period_start/end")
  else match periodStart, periodEnd with
    | .int s, .int e => .ok (s, e)
    | _, _ => .error (.webhookData s!"Subscription {d.id} has non-integer current_period_start/end")

/-- `int(item.get("quantity") or 1)`. -/
def SubscriptionItem.seats (item : SubscriptionItem) : Int :=
  match item.quantity with
  | none => 1
  | some q => if q = 0 then 1 else q

/-- The columns of a row that a sync takes from the payload. -/
structure Mirrored where
  status : SubscriptionStatus
  planId : UUID
  seatLimit : Int
  trialEndsAt : Option Timestamp
  currentPeriodStart : Timestamp
  currentPeriodEnd : Timestamp
  canceledAt : Option Timestamp
  cancelAt : Option Timestamp
  currency : String
  deriving DecidableEq, Repr

/-- What the payload says, once its plan and period are known. -/
def SubscriptionData.mirrored (d : SubscriptionData) (item : SubscriptionItem)
    (status : SubscriptionStatus) (planId : UUID) (periodStart periodEnd : Timestamp) :
    Mirrored where
  status := status
  planId := planId
  seatLimit := item.seats
  trialEndsAt := d.trialEnd
  currentPeriodStart := periodStart
  currentPeriodEnd := periodEnd
  canceledAt := d.canceledAt
  cancelAt := d.cancelAt
  currency := lower u ((orElse d.currency (orElse item.priceCurrency (some "usd"))).getD "usd")

/-- The row of a Stripe subscription with these columns: the key, the pending
change and the creation time come from the existing row. -/
def Mirrored.toRow (m : Mirrored) (stripeId : String) (customer : StripeCustomer)
    (existing : Option Subscription) (uuid : UUID) (now : Timestamp) : Subscription where
  id := (existing.map Subscription.id).getD uuid
  stripeId := some stripeId
  stripeCustomerId := some customer.id
  userId := customer.owner.userId
  status := m.status
  planId := m.planId
  seatLimit := m.seatLimit
  trialEndsAt := m.trialEndsAt
  currentPeriodStart := m.currentPeriodStart
  currentPeriodEnd := m.currentPeriodEnd
  canceledAt := m.canceledAt
  cancelAt := m.cancelAt
  scheduledPlanId := existing.bind Subscription.scheduledPlanId
  scheduledChangeAt := existing.bind Subscription.scheduledChangeAt
  currency := m.currency
  createdAt := (existing.map Subscription.createdAt).getD now

/-- `_build_subscription_row`. -/
def buildSubscriptionRow (d : SubscriptionData) (item : SubscriptionItem)
    (customer : StripeCustomer) (planId : UUID) (periodStart periodEnd : Timestamp)
    (existing : Option Subscription) (uuid : UUID) (now : Timestamp) :
    Except WebhookError Subscription :=
  match SubscriptionStatus.ofValue d.status with
  | none => .error .valueError
  | some status =>
    .ok ((d.mirrored u item status planId periodStart periodEnd).toRow d.id customer existing
      uuid now)

/-- The row that a sync builds from what it has loaded. -/
def syncRow (db : BillingDb) (now : Timestamp) (d : SubscriptionData)
    (existing : Option Subscription) : Except WebhookError Subscription :=
  match d.items with
  | [] => .error .indexError
  | item :: _ => do
    let (periodStart, periodEnd) ← extractPeriodWindow d item
    match db.getCustomerByStripeId d.customer with
    | none => .error (.webhookData s!"Unknown customer {d.customer}")
    | some customer =>
      match db.catalog.getPriceByStripeId item.priceId with
      | none => .error (.webhookData s!"Unknown price {item.priceId}")
      | some planPrice =>
        buildSubscriptionRow u d item customer planPrice.planId periodStart periodEnd existing
          db.subscriptions.uuid4 now

/-- `await subscriptions.save(row)`. -/
def BillingDb.saveSubscription (db : BillingDb) (now : Timestamp) (s : Subscription) :
    Except WebhookError BillingDb :=
  match db.subscriptions.save now s with
  | none => .error .integrityError
  | some subs => .ok { db with subscriptions := subs }

/-- `sync_subscription_from_data`. -/
def syncSubscriptionFromData (db : BillingDb) (now : Timestamp) (d : SubscriptionData) :
    Except WebhookError BillingDb := do
  let row ← syncRow u db now d (db.subscriptions.getByStripeId d.id)
  db.saveSubscription now row

/-! ### Deletion and schedules -/

/-- The update of `_on_subscription_deleted`. -/
def Subscription.markCanceled (s : Subscription) (now : Timestamp) : Subscription :=
  { s with status := .canceled, canceledAt := some now }

/-- The callback made when a team subscription is deleted. -/
def orgCanceledCallbacks (db : BillingDb) (existing : Subscription) : List Callback :=
  if existing.userId.isSome then []
  else
    let customer := existing.stripeCustomerId.bind db.getCustomerById
    match customer.bind fun c => c.owner.orgId with
    | some orgId => [.onOrgSubscriptionCanceled orgId]
    | none => []

/-- `_on_subscription_deleted`. -/
def onSubscriptionDeleted (db : BillingDb) (now : Timestamp) (d : SubscriptionData) :
    Except WebhookError (BillingDb × List Callback) :=
  match db.subscriptions.getByStripeId d.id with
  | none => .ok (db, [])
  | some existing => do
    let db' ← db.saveSubscription now (existing.markCanceled now)
    return (db', orgCanceledCallbacks db existing)

/-- The id of a phase item's price. -/
def PhasePrice.priceId : PhasePrice → Option String
  | ref price => price
  | expanded id => id

/-- A timestamp that is neither missing nor zero. -/
def truthyTimestamp (ts : Option Timestamp) : Option Timestamp := ts.filter (· ≠ 0)

/-- `_parse_schedule_pending_change`: the price of the second phase, and where
the first one ends. -/
def parseSchedulePendingChange (d : ScheduleData) : Option (String × Timestamp) :=
  match d.phases with
  | currentPhase :: nextPhase :: _ =>
    match nextPhase.items with
    | [] => none
    | price :: _ =>
      match price.priceId.filter (· ≠ "") with
      | none => none
      | some nextPriceId =>
        let changeAt := (truthyTimestamp currentPhase.endDate).or nextPhase.startDate
        changeAt.map fun ts => (nextPriceId, ts)
  | _ => none

/-- The update of the schedule handlers. -/
def Subscription.withPending (s : Subscription) (planId : Option UUID)
    (changeAt : Option Timestamp) : Subscription :=
  { s with scheduledPlanId := planId, scheduledChangeAt := changeAt }

/-- The change that a schedule announces for a subscription: its id, and the
plan and time, where the schedule has both and the price is known. -/
def announcedChange (db : BillingDb) (d : ScheduleData) : Option (UUID × Timestamp) :=
  (parseSchedulePendingChange d).bind fun (nextPriceId, changeAt) =>
    (db.catalog.getPriceByStripeId nextPriceId).map fun pp => (pp.planId, changeAt)

/-- `_on_subscription_schedule_upserted`. -/
def onSubscriptionScheduleUpserted (db : BillingDb) (now : Timestamp) (d : ScheduleData) :
    Except WebhookError BillingDb :=
  match d.subscription.filter (· ≠ "") with
  | none => .ok db
  | some stripeSubId =>
    match announcedChange db d with
    | none => .ok db
    | some (planId, changeAt) =>
      match db.subscriptions.getByStripeId stripeSubId with
      | none => .ok db
      | some existing =>
        if existing.scheduledPlanId = some planId ∧ existing.scheduledChangeAt = some changeAt then
          .ok db
        else
          db.saveSubscription now (existing.withPending (some planId) (some changeAt))

/-- `_on_subscription_schedule_cleared`. -/
def onSubscriptionScheduleCleared (db : BillingDb) (now : Timestamp) (d : ScheduleData) :
    Except WebhookError BillingDb :=
  match d.subscription.filter (· ≠ "") with
  | none => .ok db
  | some stripeSubId =>
    match db.subscriptions.getByStripeId stripeSubId with
    | none => .ok db
    | some existing =>
      if existing.scheduledPlanId = none ∧ existing.scheduledChangeAt = none then .ok db
      else db.saveSubscription now (existing.withPending none none)

/-! ### Checkout sessions -/

/-- `_on_product_checkout_completed`: what it passes to its callback. -/
def productCheckoutCallbacks (d : SessionData) : List Callback :=
  match d.id.filter (· ≠ ""), d.metadata.productId.filter (· ≠ ""),
      d.clientReferenceId.filter (· ≠ "") with
  | some sessionId, some productRef, some clientRef =>
    match uuidOfText productRef, uuidOfText clientRef with
    | some productId, some userId =>
      match d.metadata.orgId.filter (· ≠ "") with
      | none => [.onProductCheckoutCompleted sessionId productId userId none]
      | some orgRef =>
        match uuidOfText orgRef with
        | some orgId => [.onProductCheckoutCompleted sessionId productId userId (some orgId)]
        | none => []
    | _, _ => []
  | _, _, _ => []

/-- `_on_checkout_completed`: what it passes to its callback. -/
def checkoutCallbacks (d : SessionData) : Except WebhookError (List Callback) :=
  if d.mode = some "payment" then .ok (productCheckoutCallbacks d)
  else
    match d.metadata.orgName.filter (· ≠ ""), d.clientReferenceId.filter (· ≠ "") with
    | some orgName, some clientRef =>
      match uuidOfText clientRef with
      | none => .error .valueError
      | some userId =>
        match d.customer.filter (· ≠ "") with
        | none => .ok []
        | some stripeCustomerId =>
          .ok [.onTeamCheckoutCompleted userId orgName stripeCustomerId d.livemode
            d.subscription (d.metadata.keepPersonalSubscription = some "true")]
    | _, _ => .ok []

/-! ### Dispatch -/

/-- `_dispatch`, with every callback registered. -/
def dispatch (db : BillingDb) (now : Timestamp) :
    Event → Except WebhookError (BillingDb × List Callback)
  | .checkoutSessionCompleted d => (checkoutCallbacks d).map fun calls => (db, calls)
  | .customerSubscriptionCreated d | .customerSubscriptionUpdated d =>
    (syncSubscriptionFromData u db now d).map fun db' => (db', [])
  | .customerSubscriptionDeleted d => onSubscriptionDeleted db now d
  | .subscriptionScheduleCreated d | .subscriptionScheduleUpdated d =>
    (onSubscriptionScheduleUpserted db now d).map fun db' => (db', [])
  | .subscriptionScheduleReleased d | .subscriptionScheduleCanceled d
  | .subscriptionScheduleAborted d =>
    (onSubscriptionScheduleCleared db now d).map fun db' => (db', [])
  | .invoicePaymentSucceeded | .invoicePaymentFailed | .unhandled _ => .ok (db, [])

/-! ### What a sync writes -/

/-- The customer and the columns that a sync of `d` writes, when it does not
raise. -/
def syncedFields (db : BillingDb) (d : SubscriptionData) : Option (StripeCustomer × Mirrored) := do
  let item ← d.items.head?
  let (periodStart, periodEnd) ← (extractPeriodWindow d item).toOption
  let customer ← db.getCustomerByStripeId d.customer
  let planPrice ← db.catalog.getPriceByStripeId item.priceId
  let status ← SubscriptionStatus.ofValue d.status
  return (customer, d.mirrored u item status planPrice.planId periodStart periodEnd)

/-- The columns of a row that a sync writes from the payload. -/
def Subscription.mirrored (s : Subscription) : Mirrored where
  status := s.status
  planId := s.planId
  seatLimit := s.seatLimit
  trialEndsAt := s.trialEndsAt
  currentPeriodStart := s.currentPeriodStart
  currentPeriodEnd := s.currentPeriodEnd
  canceledAt := s.canceledAt
  cancelAt := s.cancelAt
  currency := s.currency

variable {u} {db db' : BillingDb} {now : Timestamp}

/-- A sync builds a row exactly when the payload and the lookups give it its
columns; the pending change is that of the existing row. -/
theorem syncRow_ok_iff {d : SubscriptionData} {existing : Option Subscription}
    {row : Subscription} :
    syncRow u db now d existing = .ok row ↔
      ∃ customer m, syncedFields u db d = some (customer, m) ∧
        row = m.toRow d.id customer existing db.subscriptions.uuid4 now := by
  unfold syncRow syncedFields
  rcases hitems : d.items with - | ⟨item, items⟩
  · simp
  rcases hwindow : extractPeriodWindow d item with e | ⟨periodStart, periodEnd⟩
  · simp [hwindow, bind, Except.bind, Except.toOption]
  rcases hcustomer : db.getCustomerByStripeId d.customer with - | customer
  · simp [hwindow, bind, Except.bind, Except.toOption]
  rcases hprice : db.catalog.getPriceByStripeId item.priceId with - | planPrice
  · simp [hwindow, hprice, bind, Except.bind, Except.toOption]
  rcases hstatus : SubscriptionStatus.ofValue d.status with - | status
  · simp [hwindow, hprice, hstatus, bind, Except.bind, Except.toOption, buildSubscriptionRow]
  · simp [hwindow, hprice, hstatus, bind, Except.bind, Except.toOption, buildSubscriptionRow,
      eq_comm]

/-! ### Handler specifications -/

/-- `db'` is `db` with `row` under the Stripe id `sid`. -/
structure BillingDb.Sets (db : BillingDb) (sid : String) (row : Subscription)
    (db' : BillingDb) : Prop where
  catalog : db'.catalog = db.catalog
  customers : db'.customers = db.customers
  found : db'.subscriptions.getByStripeId sid = some row
  others : ∀ other, other ≠ sid →
    db'.subscriptions.getByStripeId other = db.subscriptions.getByStripeId other

theorem BillingDb.Sets.refl {sid : String} {row : Subscription}
    (h : db.subscriptions.getByStripeId sid = some row) : db.Sets sid row db :=
  ⟨rfl, rfl, h, fun _ _ => rfl⟩

variable (now) in
/-- Saving an update of the row that was read under a Stripe id. -/
theorem saveSubscription_existing {sid : String} {existing : Subscription} (row : Subscription)
    (h : db.subscriptions.getByStripeId sid = some existing) (hid : row.id = existing.id)
    (hsid : row.stripeId = existing.stripeId) (hcreated : row.createdAt = existing.createdAt) :
    ∃ db', db.saveSubscription now row = .ok db' ∧ db.Sets sid row db' := by
  have hrow : row.stripeId = some sid :=
    hsid.trans (SubscriptionTable.getByStripeId_eq_some_iff.mp h).2
  obtain ⟨tbl', hsave, hfound, hothers⟩ :=
    SubscriptionTable.save_existing now h hid hrow
  have hover : SubscriptionTable.overwrite row existing = row := by
    rw [SubscriptionTable.overwrite, ← hcreated]
  refine ⟨{ db with subscriptions := tbl' }, by simp [BillingDb.saveSubscription, hsave], ?_⟩
  exact ⟨rfl, rfl, hover ▸ hfound, hothers⟩

variable (now) in
/-- **Sync.**  When the payload and the lookups give a sync its columns, it
succeeds and writes the row with these columns. -/
theorem syncSubscriptionFromData_spec {d : SubscriptionData} {customer : StripeCustomer}
    {m : Mirrored} (h : syncedFields u db d = some (customer, m)) :
    ∃ db', syncSubscriptionFromData u db now d = .ok db' ∧
      db.Sets d.id (m.toRow d.id customer (db.subscriptions.getByStripeId d.id)
        db.subscriptions.uuid4 now) db' := by
  have hrow : syncRow u db now d (db.subscriptions.getByStripeId d.id) = .ok _ :=
    syncRow_ok_iff.mpr ⟨customer, m, h, rfl⟩
  simp only [syncSubscriptionFromData, hrow, bind, Except.bind]
  rcases hex : db.subscriptions.getByStripeId d.id with - | existing
  · obtain ⟨tbl', hsave, hfound, hothers⟩ := SubscriptionTable.save_first now
      (s := m.toRow d.id customer none db.subscriptions.uuid4 now) hex rfl rfl
    refine ⟨{ db with subscriptions := tbl' }, by simp [BillingDb.saveSubscription, hsave], ?_⟩
    exact ⟨rfl, rfl, hfound, hothers⟩
  · have hsid := (SubscriptionTable.getByStripeId_eq_some_iff.mp hex).2
    exact saveSubscription_existing now _ hex rfl hsid.symm rfl

/-- A sync that succeeds had its columns. -/
theorem syncedFields_of_ok {d : SubscriptionData}
    (h : syncSubscriptionFromData u db now d = .ok db') :
    ∃ customer m, syncedFields u db d = some (customer, m) := by
  unfold syncSubscriptionFromData at h
  rcases e : syncRow u db now d (db.subscriptions.getByStripeId d.id) with err | row
  · rw [e] at h
    cases h
  · obtain ⟨customer, m, hm, -⟩ := syncRow_ok_iff.mp e
    exact ⟨customer, m, hm⟩

variable (db now) in
/-- **Deletion** marks the row, if there is one, and changes nothing else. -/
theorem onSubscriptionDeleted_spec (d : SubscriptionData) :
    ∃ db' calls, onSubscriptionDeleted db now d = .ok (db', calls) ∧
      match db.subscriptions.getByStripeId d.id with
      | none => db' = db
      | some existing => db.Sets d.id (existing.markCanceled now) db' := by
  unfold onSubscriptionDeleted
  rcases hex : db.subscriptions.getByStripeId d.id with - | existing
  · exact ⟨db, [], rfl, rfl⟩
  · obtain ⟨db', hsave, hsets⟩ :=
      saveSubscription_existing now (existing.markCanceled now) hex rfl rfl rfl
    refine ⟨db', orgCanceledCallbacks db existing, ?_, hsets⟩
    simp [hsave, bind, Except.bind, pure, Except.pure]

variable (db now) in
/-- **Schedule upserts** write the announced change into the row, if there are
both, and change nothing else. -/
theorem onSubscriptionScheduleUpserted_spec {d : ScheduleData} {sid : String}
    (hsid : d.subscription = some sid) (hne : sid ≠ "") :
    ∃ db', onSubscriptionScheduleUpserted db now d = .ok db' ∧
      match announcedChange db d, db.subscriptions.getByStripeId sid with
      | some (planId, changeAt), some existing =>
        db.Sets sid (existing.withPending (some planId) (some changeAt)) db'
      | _, _ => db' = db := by
  have hf : d.subscription.filter (fun x => decide (x ≠ "")) = some sid := by
    rw [hsid]
    exact Option.filter_some_pos (by simpa using hne)
  unfold onSubscriptionScheduleUpserted
  rw [hf]
  rcases announcedChange db d with - | ⟨planId, changeAt⟩
  · exact ⟨db, rfl, rfl⟩
  rcases hex : db.subscriptions.getByStripeId sid with - | existing
  · exact ⟨db, by simp [hex], rfl⟩
  · simp only [hex]
    split
    case isTrue h => exact ⟨db, rfl, .refl (h.1 ▸ h.2 ▸ hex)⟩
    case isFalse h =>
      exact saveSubscription_existing now _ hex rfl rfl rfl

variable (db now) in
/-- **Schedule clears** remove the pending change of the row, if there is one,
and change nothing else. -/
theorem onSubscriptionScheduleCleared_spec {d : ScheduleData} {sid : String}
    (hsid : d.subscription = some sid) (hne : sid ≠ "") :
    ∃ db', onSubscriptionScheduleCleared db now d = .ok db' ∧
      match db.subscriptions.getByStripeId sid with
      | none => db' = db
      | some existing =>
        db.Sets sid (existing.withPending none none) db' := by
  have hf : d.subscription.filter (fun x => decide (x ≠ "")) = some sid := by
    rw [hsid]
    exact Option.filter_some_pos (by simpa using hne)
  unfold onSubscriptionScheduleCleared
  rw [hf]
  rcases hex : db.subscriptions.getByStripeId sid with - | existing
  · exact ⟨db, by simp [hex], rfl⟩
  · simp only [hex]
    split
    case isTrue h => exact ⟨db, rfl, .refl (h.1 ▸ h.2 ▸ hex)⟩
    case isFalse h =>
      exact saveSubscription_existing now _ hex rfl rfl rfl

/-! ### A sample subscription -/

/-- One plan price and one customer. -/
def sampleDb : BillingDb where
  catalog :=
    { plans := [], planPrices := [⟨2, 1, "price_usd", 1999⟩], products := [],
      productPrices := [], localizedPrices := [], countryPrices := [] }
  customers := [⟨3, "cus_1", .user 4⟩]
  subscriptions := .empty

def sampleSnapshot (status : String) (canceledAt : Option Timestamp) : SubscriptionData where
  id := "sub_1"
  customer := "cus_1"
  status := status
  items := [⟨"price_usd", some "usd", some 1, .int 100, .int 200⟩]
  currency := some "usd"
  trialEnd := none
  canceledAt := canceledAt
  cancelAt := none
  currentPeriodStart := .missing
  currentPeriodEnd := .missing

/-- A schedule that moves the subscription to the plan at time 200. -/
def sampleSchedule : ScheduleData :=
  ⟨some "sub_1", [⟨[], none, some 200⟩, ⟨[.ref (some "price_usd")], some 200, none⟩]⟩

end Saasmint
