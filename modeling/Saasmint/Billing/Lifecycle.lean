/-
Saasmint/Billing/Lifecycle.lean

The services that change a paid subscription: cancel, resume and release
(saasmint_core/services/billing.py), plan and seat changes
(saasmint_core/services/subscriptions.py).

Each of them works on the latest active row of a customer or on a Stripe id,
calls Stripe and, except for plan changes, mirrors the answer into the row.

A plan change to a lower price is meant to become a schedule.  It asks the
current price for its currency with `get` and raises there, before any call
(`scheduleDowngradeAtPeriodEnd_raises`).
-/
import Saasmint.Billing.StripeApi

namespace Saasmint

open Programs PyStr

variable (u : UnicodeTables) (sb : StripeBehaviour) (now : Timestamp)

/-! ### Rows -/

/-- `get_active_for_customer`: of several active rows the latest. -/
def BillingDb.getActiveForCustomer (db : BillingDb) (stripeCustomerId : UUID) :
    Option Subscription :=
  Table.latest? Subscription.createdAt (db.subscriptions.rows.filter fun s =>
    s.stripeCustomerId = some stripeCustomerId && s.status.isActive)

/-- The active row of a customer and its Stripe id, where it has one. -/
def BillingDb.activeRow (db : BillingDb) (stripeCustomerId : UUID) :
    Option (Subscription × String) :=
  (db.getActiveForCustomer stripeCustomerId).bind fun active =>
    active.stripeId.map fun sid => (active, sid)

theorem BillingDb.activeRow_stripeId {db : BillingDb} {stripeCustomerId : UUID}
    {active : Subscription} {sid : String}
    (h : db.activeRow stripeCustomerId = some (active, sid)) : active.stripeId = some sid := by
  obtain ⟨row, -, hrow⟩ := Option.bind_eq_some_iff.mp h
  obtain ⟨id, hid, heq⟩ := Option.map_eq_some_iff.mp hrow
  obtain ⟨rfl, rfl⟩ := Prod.mk.inj heq
  exact hid

/-- Load the active row, or raise. -/
def loadActive (stripeCustomerId : UUID) (e : ServiceError) : Service (Subscription × String) :=
  fun w =>
    match w.db.activeRow stripeCustomerId with
    | none => .error e w
    | some active => .ok active w

/-- `subscription_repo.save`. -/
def saveRow (row : Subscription) : Service PUnit := fun w =>
  match w.db.saveSubscription now row with
  | .error _ => .error .integrityError w
  | .ok db => .ok ⟨⟩ { w with db }

/-- `_mirror_cancel_state_from_stripe`. -/
def mirrorCancelStateFromStripe (active : Subscription) (stripeSub : StripeSubscription) :
    Service PUnit :=
  saveRow now (active.mirrorCancelState stripeSub.cancelState)

section Rules

variable {now} {w : BillingWorld} {E : ServiceError → BillingWorld → Prop}

theorem wp_loadActive {stripeCustomerId : UUID} {e : ServiceError}
    {Q : Subscription × String → BillingWorld → Prop} :
    wp (loadActive stripeCustomerId e) Q E w ↔
      match w.db.activeRow stripeCustomerId with
      | none => E e w
      | some active => Q active w := by
  unfold wp loadActive
  rcases w.db.activeRow stripeCustomerId with - | active <;> rfl

theorem wp_saveRow {row : Subscription} {Q : PUnit → BillingWorld → Prop} :
    wp (saveRow now row) Q E w ↔
      match w.db.saveSubscription now row with
      | .error _ => E .integrityError w
      | .ok db => Q ⟨⟩ { w with db } := by
  unfold wp saveRow
  rcases w.db.saveSubscription now row with e | db <;> rfl

theorem wp_saveRow_of_ok {row : Subscription} {db : BillingDb} {Q : PUnit → BillingWorld → Prop}
    (h : w.db.saveSubscription now row = .ok db) :
    wp (saveRow now row) Q E w ↔ Q ⟨⟩ { w with db } := by
  rw [wp_saveRow, h]

end Rules

/-! ### Cancel, resume, release -/

/-- `_release_pending_schedule`. -/
def releasePendingSchedule (sid : String) : Service PUnit := do
  let sub ← Stripe.subscriptionRetrieve sb sid
  match sub.schedule with
  | none => return
  | some ref =>
    let schedule ← Stripe.scheduleRetrieve sb sid ref.id
    -- released, canceled and completed schedules are terminal
    if schedule.isLive then
      let _ ← Stripe.scheduleRelease sb sid schedule.id
      return
    else return

/-- `cancel_subscription`. -/
def cancelSubscription (stripeCustomerId : UUID) (atPeriodEnd : Bool) : Service PUnit := do
  let (active, sid) ← loadActive stripeCustomerId
    (.subscriptionNotFound "No active subscription found to cancel.")
  -- without a mirrored change Stripe is not asked for a schedule
  if active.scheduledPlanId.isSome then releasePendingSchedule sb sid
  if atPeriodEnd then
    let stripeSub ← Stripe.subscriptionModifyCancelAt sb sid "min_period_end"
    mirrorCancelStateFromStripe now active stripeSub
  else
    let stripeSub ← Stripe.subscriptionCancel sb sid
    mirrorCancelStateFromStripe now active stripeSub

/-- `resume_subscription`. -/
def resumeSubscription (stripeCustomerId : UUID) : Service PUnit := do
  let (active, sid) ← loadActive stripeCustomerId
    (.subscriptionNotFound "No active subscription found to resume.")
  let stripeSub ← Stripe.subscriptionModifyCancelAt sb sid ""
  mirrorCancelStateFromStripe now active stripeSub

/-- `release_pending_schedule_for_customer`. -/
def releasePendingScheduleForCustomer (stripeCustomerId : UUID) : Service PUnit := do
  let (active, sid) ← loadActive stripeCustomerId
    (.subscriptionNotFound "No active subscription found.")
  releasePendingSchedule sb sid
  if active.scheduledPlanId.isSome || active.scheduledChangeAt.isSome then
    saveRow now (active.withPending none none)

/-! ### Seats -/

/-- The Stripe calls of a seat change, and its mirror. -/
def changeSeats (active : Subscription) (sid : String) (quantity : Int) : Service PUnit := do
  let sub ← Stripe.subscriptionRetrieve sb sid
  match sub.item.quantity with
  | none => throw .typeError
  | some currentQuantity =>
    let proration := if quantity > currentQuantity then "create_prorations" else "none"
    let _ ← Stripe.subscriptionModifyItem sb sid sub.item.id none quantity proration
    if active.seatLimit ≠ quantity then saveRow now { active with seatLimit := quantity }

/-- `update_seat_count`. -/
def updateSeatCount (active : Subscription) (quantity : Int) : Service PUnit :=
  if quantity < 1 then throw (.valueError "Seat count must be at least 1")
  else
    match active.stripeId with
    | none => throw (.valueError "Subscription has no stripe_id; cannot update seat count")
    | some sid => changeSeats sb now active sid quantity

theorem updateSeatCount_eq {active : Subscription} {sid : String} {quantity : Int}
    (hsid : active.stripeId = some sid) (hquantity : 1 ≤ quantity) :
    updateSeatCount sb now active quantity = changeSeats sb now active sid quantity := by
  have hq : ¬ quantity < 1 := by omega
  rw [updateSeatCount, if_neg hq, hsid]

/-! ### Plans -/

/-- A Stripe Price with the plan that it is the price of. -/
structure PlanPriceRef where
  priceId : String
  planId : UUID
  deriving DecidableEq, Repr

/-- `_read_period_field`: from the item first, then from the subscription;
`none` is the `ValueError`. -/
def readPeriodField (item sub : PeriodField) : Option Timestamp :=
  match item, sub with
  | .int t, _ => some t
  | .other, _ => none
  | _, .int t => some t
  | _, _ => none

def periodFieldMissing (sid field : String) : ServiceError :=
  .valueError ("Subscription " ++ sid ++ " missing integer " ++ field ++
    "; cannot schedule a deferred downgrade")

/-- The two phases of a deferred downgrade. -/
def downgradePhases (sub : StripeSubscription) (new : PlanPriceRef) (quantity : Int)
    (periodStart periodEnd : Timestamp) : List StripePhase :=
  [{ priceId := sub.item.priceId, planId := sub.item.planId, quantity,
     startDate := some periodStart, endDate := some periodEnd },
   { priceId := new.priceId, planId := new.planId, quantity,
     startDate := some periodEnd, endDate := none }]

/-- The id of the schedule that pins `sub`, made from it where there is none. -/
def scheduleIdFor (sid : String) (sub : StripeSubscription) : Service String := do
  match sub.schedule with
  | some schedule => return schedule.id
  | none =>
    let created ← Stripe.scheduleCreate sb sid
    match created.schedule with
    | some schedule => return schedule.id
    | none => throw .stripe

/-- `_schedule_downgrade_at_period_end`; `sub["id"]` is `sid`. -/
def scheduleDowngradeAtPeriodEnd (sid : String) (sub : StripeSubscription)
    (new : PlanPriceRef) (quantity : Int) : Service PUnit := do
  match readPeriodField sub.item.currentPeriodEnd sub.currentPeriodEnd with
  | none => throw (periodFieldMissing sid "current_period_end")
  | some periodEnd =>
    match readPeriodField sub.item.currentPeriodStart sub.currentPeriodStart with
    | none => throw (periodFieldMissing sid "current_period_start")
    | some periodStart =>
      -- the price of the item is a `StripeObject`, so that this raises
      let currency : Option String ← Stripe.objectGet "currency"
      let currentCurrency := lower u (currency.getD "")
      let newPrice ← Stripe.priceRetrieve sb new.priceId
      let newCurrency := lower u (newPrice.currency.getD "")
      if currentCurrency ≠ "" ∧ newCurrency ≠ "" ∧ currentCurrency ≠ newCurrency then
        throw (.valueError ("Cannot schedule downgrade: subscription is in "
          ++ upper u currentCurrency ++ " but new price is in " ++ upper u newCurrency
          ++ ". Stripe pins subscription currency for life."))
      let scheduleId ← scheduleIdFor sb sid sub
      let _ ← Stripe.scheduleModify sb sid scheduleId
        (downgradePhases sub new quantity periodStart periodEnd)

section Raises

variable {sid : String} {sub : StripeSubscription} {new : PlanPriceRef} {quantity : Int}
  {w : BillingWorld}

/-- With a period to put it off to, a deferred downgrade fails at the currency. -/
theorem scheduleDowngradeAtPeriodEnd_of_window {periodStart periodEnd : Timestamp}
    (hend : readPeriodField sub.item.currentPeriodEnd sub.currentPeriodEnd = some periodEnd)
    (hstart : readPeriodField sub.item.currentPeriodStart sub.currentPeriodStart
      = some periodStart) :
    scheduleDowngradeAtPeriodEnd u sb sid sub new quantity w
      = .error (.attributeError "get") w := by
  unfold scheduleDowngradeAtPeriodEnd
  rw [hend, hstart]
  rfl

/-- **A deferred downgrade raises**, without a call. -/
theorem scheduleDowngradeAtPeriodEnd_raises :
    ∃ e, scheduleDowngradeAtPeriodEnd u sb sid sub new quantity w = .error e w ∧
      (e = .attributeError "get" ∨ ∃ message, e = .valueError message) := by
  rcases hend : readPeriodField sub.item.currentPeriodEnd sub.currentPeriodEnd with - | periodEnd
  · refine ⟨periodFieldMissing sid "current_period_end", ?_, Or.inr ⟨_, rfl⟩⟩
    rw [scheduleDowngradeAtPeriodEnd, hend]
    rfl
  rcases hstart : readPeriodField sub.item.currentPeriodStart sub.currentPeriodStart
    with - | periodStart
  · refine ⟨periodFieldMissing sid "current_period_start", ?_, Or.inr ⟨_, rfl⟩⟩
    rw [scheduleDowngradeAtPeriodEnd, hend, hstart]
    rfl
  · exact ⟨_, scheduleDowngradeAtPeriodEnd_of_window u sb hend hstart, Or.inl rfl⟩

/-- So what holds of every exception in the state before it holds after it. -/
theorem wp_scheduleDowngradeAtPeriodEnd {Q : PUnit → BillingWorld → Prop}
    {E : ServiceError → BillingWorld → Prop} (hE : ∀ e, E e w) :
    wp (scheduleDowngradeAtPeriodEnd u sb sid sub new quantity) Q E w := by
  obtain ⟨e, hrun, -⟩ : ∃ e, scheduleDowngradeAtPeriodEnd u sb sid sub new quantity w
      = .error e w ∧ _ := scheduleDowngradeAtPeriodEnd_raises u sb
  unfold wp
  rw [hrun]
  exact hE e

end Raises

/-- The item id that an immediate change addresses: that of the subscription
as it is after its schedule was released. -/
def releasedItemId (sub : StripeSubscription) (sid itemId : String) : Service String := do
  match sub.schedule with
  | none => return itemId
  | some schedule =>
    let _ ← Stripe.scheduleRelease sb sid schedule.id
    let sub ← Stripe.subscriptionRetrieve sb sid
    return sub.item.id

/-- `_apply_immediate_plan_change`. -/
def applyImmediatePlanChange (sub : StripeSubscription) (sid itemId : String)
    (new : PlanPriceRef) (prorate : Bool) (quantity : Int) : Service PUnit := do
  let itemId ← releasedItemId sb sub sid itemId
  let proration := if prorate then "create_prorations" else "none"
  let _ ← Stripe.subscriptionModifyItem sb sid itemId (some (new.priceId, new.planId)) quantity
    proration

/-- The new price costs less than the current one, where both are known. -/
def isDowngrade (sub : StripeSubscription) (newPriceAmount : Option Int) : Bool :=
  match newPriceAmount, (sb.price sub.item.priceId).unitAmount with
  | some new, some current => new < current
  | _, _ => false

/-- `change_plan`. -/
def changePlan (sid : String) (new : PlanPriceRef) (newPriceAmount : Option Int)
    (prorate : Bool) (quantity : Option Int) : Service PUnit := do
  let sub ← Stripe.subscriptionRetrieve sb sid
  -- Stripe takes a missing quantity for 1, so it is always passed on
  let quantity := quantity.getD (sub.item.quantity.getD 1)
  if isDowngrade sb sub newPriceAmount then
    scheduleDowngradeAtPeriodEnd u sb sid sub new quantity
  else
    applyImmediatePlanChange sb sub sid sub.item.id new prorate quantity

/-! ### Properties that the calls keep -/

/-- The property survives every such call about `sid`. -/
structure KeptBySuch (C : StripeCall → Prop) (P : BillingWorld → Prop) (sid : String) : Prop where
  record : ∀ w call, C call → P w → P (w.record call)
  setStripe : ∀ w sub, P w → P (w.setStripe sid sub)

theorem BillingWorld.Issued.kept (w : BillingWorld) (C : StripeCall → Prop) (sid : String) :
    KeptBySuch C (w.Issued C) sid where
  record _ _ hcall h := h.record hcall
  setStripe _ _ h := h.setStripe _ _

namespace KeptBySuch

variable {u sb} {C : StripeCall → Prop} {P : BillingWorld → Prop} {sid : String}

theorem issue (h : KeptBySuch C P sid) {call : StripeCall} (hcall : C call) :
    Keeps P (Stripe.issue sb call) :=
  Stripe.keeps_issue fun w => h.record w call hcall

theorem change (h : KeptBySuch C P sid) {call : StripeCall} (hcall : C call)
    (f : Nat → StripeSubscription → StripeSubscription) : Keeps P (Stripe.change sb sid call f) :=
  Stripe.keeps_change (fun w => h.record w call hcall) h.setStripe

theorem lookup (other : String) : Keeps P (Stripe.lookup other) := by
  intro w hw
  rw [Stripe.wp_lookup]
  rcases w.stripe other with - | sub <;> exact hw

theorem subscriptionRetrieve (h : KeptBySuch C P sid) (hretrieve : C (.subscriptionRetrieve sid)) :
    Keeps P (Stripe.subscriptionRetrieve sb sid) := .bind (h.issue hretrieve) fun _ => lookup sid

/-- The subscription is read again after its schedule is released. -/
theorem releasedItemId (h : KeptBySuch C P sid) (hrelease : ∀ id, C (.scheduleRelease sid id))
    (hretrieve : C (.subscriptionRetrieve sid)) (sub : StripeSubscription) (itemId : String) :
    Keeps P (releasedItemId sb sub sid itemId) := by
  unfold Saasmint.releasedItemId
  split
  · exact .pure _
  · exact .bind (h.change (hrelease _) _) fun _ =>
      .bind (h.subscriptionRetrieve hretrieve) fun _ => .pure _

end KeptBySuch

/-- The property survives every call about `sid`. -/
structure KeptByCalls (P : BillingWorld → Prop) (sid : String) : Prop where
  record : ∀ w call, P w → P (w.record call)
  setStripe : ∀ w sub, P w → P (w.setStripe sid sub)

namespace KeptByCalls

variable {u sb} {P : BillingWorld → Prop} {sid : String}

theorem such (h : KeptByCalls P sid) : KeptBySuch (fun _ => True) P sid where
  record w call _ := h.record w call
  setStripe := h.setStripe

theorem change (h : KeptByCalls P sid) (call : StripeCall)
    (f : Nat → StripeSubscription → StripeSubscription) : Keeps P (Stripe.change sb sid call f) :=
  h.such.change trivial f

theorem subscriptionRetrieve (h : KeptByCalls P sid) :
    Keeps P (Stripe.subscriptionRetrieve sb sid) := h.such.subscriptionRetrieve trivial

theorem releasePendingSchedule (h : KeptByCalls P sid) :
    Keeps P (releasePendingSchedule sb sid) := by
  apply Keeps.bind h.subscriptionRetrieve
  intro sub
  rcases sub.schedule with - | ref
  · exact .pure _
  have hattached : Keeps P (Stripe.attached sid ref.id) := by
    apply Keeps.bind (KeptBySuch.lookup sid)
    intro sub
    rcases sub.schedule with - | schedule
    · exact .throw _
    · dsimp only
      split
      · exact .pure _
      · exact .throw _
  apply Keeps.bind (.bind (h.such.issue trivial) fun _ => hattached)
  intro schedule
  split
  · exact .bind (h.change _ _) fun _ => .pure _
  · exact .pure _

theorem changePlan (h : KeptByCalls P sid) (new : PlanPriceRef) (newPriceAmount : Option Int)
    (prorate : Bool) (quantity : Option Int) :
    Keeps P (changePlan u sb sid new newPriceAmount prorate quantity) := by
  apply Keeps.bind h.subscriptionRetrieve
  intro sub
  dsimp only
  split
  · exact fun _ hw => wp_scheduleDowngradeAtPeriodEnd u sb fun _ => hw
  · exact .bind (h.such.releasedItemId (fun _ => trivial) trivial sub _) fun _ =>
      .bind (h.change _ _) fun _ => .pure _

end KeptByCalls

end Saasmint
