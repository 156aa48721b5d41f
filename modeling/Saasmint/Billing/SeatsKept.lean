/-
Saasmint/Billing/SeatsKept.lean

The items of a subscription after a plan change
(saasmint_core/services/subscriptions.py), at any later time.

Stripe bills the items of the phase in force where a live schedule is attached,
and those of the subscription where none is (`StripeSubscription.at`).  A plan
change at once gives its quantity, the one asked for or else the current one, to
the subscription and leaves no schedule.  One to a lower price is meant to carry
it in both phases of a schedule, and raises: so a plan change keeps the seats
exactly when it is not one of these (`plan_change_seats_iff`).
-/
import Saasmint.Billing.PlanScope

namespace Saasmint

open Programs PyStr

variable {u : UnicodeTables} {sb : StripeBehaviour} {w : BillingWorld} {sid : String}
  {sub : StripeSubscription}

/-! ### What Stripe bills -/

/-- The phase in force at a time: of those that have begun, the last. -/
def StripeSchedule.phaseAt (s : StripeSchedule) (t : Timestamp) : Option StripePhase :=
  (s.phases.filter fun ph => ph.startDate.all (· ≤ t)).getLast?

/-- The subscription at a time, if nothing else changes it: in the phase in
force of its live schedule. -/
def StripeSubscription.at (sub : StripeSubscription) (t : Timestamp) : StripeSubscription :=
  match (sub.schedule.filter StripeSchedule.isLive).bind fun s => s.phaseAt t with
  | some ph => sub.enter ph false
  | none => sub

/-- The prices billed, with their quantities. -/
def StripeSubscription.items (sub : StripeSubscription) : List (String × Int) :=
  (sub.item.priceId, sub.item.quantity.getD 1) :: sub.otherItems

/-- Without a schedule the subscription stays as it is. -/
theorem at_of_schedule_none (h : sub.schedule = none) (t : Timestamp) : sub.at t = sub := by
  unfold StripeSubscription.at
  simp [h]

/-! ### Plan changes -/

/-- A change at once leaves the new price with the quantity, next to the other
items, and no schedule. -/
theorem applyImmediatePlanChange_leaves {itemId : String} {new : PlanPriceRef} {prorate : Bool}
    {quantity : Int} (hsub : w.stripe sid = some sub) :
    wp (applyImmediatePlanChange sb sub sid itemId new prorate quantity)
      (fun _ w' => w'.stripe sid = some { sub with
        item := Stripe.itemUpdate sub.item (some (new.priceId, new.planId)) quantity
        schedule := none })
      (fun e _ => e = .stripe) w := by
  have hreleased : wp (releasedItemId sb sub sid itemId)
      (fun _ w' => w'.stripe sid = some { sub with schedule := none })
      (fun e _ => e = .stripe) w := by
    unfold releasedItemId
    rcases hsch : sub.schedule with - | s
    · show w.stripe sid = _
      rw [hsub, ← hsch]
    · -- the subscription is read again after the release
      simp only [wp_bind, wp_pure]
      apply Stripe.wp_change_of rfl
      intro n sub' hsub'
      obtain rfl := Option.some.inj (hsub.symm.trans hsub')
      apply Stripe.wp_subscriptionRetrieve_of rfl
      intro sub' _
      exact BillingWorld.setStripe_self ..
  rw [applyImmediatePlanChange, wp_bind]
  apply wp_mono hreleased
  · intro itemId' w' hsub'
    rw [wp_bind]
    apply Stripe.wp_change_of rfl
    intro n sub'' hsub''
    obtain rfl := Option.some.inj (hsub'.symm.trans hsub'')
    exact BillingWorld.setStripe_self ..
  · exact fun _ _ h => h

/-- What a plan change that applies at once leaves at Stripe. -/
theorem changePlan_at_once_leaves {new : PlanPriceRef} {newPriceAmount : Option Int}
    {prorate : Bool}
    {quantity : Option Int} (hsub : w.stripe sid = some sub)
    (hdown : isDowngrade sb sub newPriceAmount = false) :
    wp (changePlan u sb sid new newPriceAmount prorate quantity)
      (fun _ w' => w'.stripe sid = some { sub with
        item := Stripe.itemUpdate sub.item (some (new.priceId, new.planId))
          (quantity.getD (sub.item.quantity.getD 1))
        schedule := none })
      (fun e _ => e = .stripe) w := by
  rw [changePlan, wp_bind]
  apply Stripe.wp_subscriptionRetrieve_of rfl
  intro sub' hsub'
  obtain rfl := Option.some.inj (hsub.symm.trans hsub')
  simp only [hdown, Bool.false_eq_true, if_false]
  exact applyImmediatePlanChange_leaves hsub

/-- What a change at once is to leave: the new price with the seats, for good, next
to the other items. -/
def ChangedAtOnce (sub sub' : StripeSubscription) (new : PlanPriceRef) (seats : Int) : Prop :=
  ∀ t, (sub'.at t).items = (new.priceId, seats) :: sub.otherItems

/-- What a change at the end of the period is to leave: the price, the other items
and the period up to then, with the seats where no quantity was asked for, and
the new price with the seats from then on. -/
structure ChangedAtPeriodEnd (sub sub' : StripeSubscription) (new : PlanPriceRef)
    (quantity : Option Int) (seats : Int) (periodStart periodEnd : Timestamp) : Prop where
  before : ∀ t, periodStart ≤ t → t < periodEnd →
    (sub'.at t).item = { sub.item with quantity := (sub'.at t).item.quantity } ∧
      (sub'.at t).otherItems = sub.otherItems ∧
      (sub'.at t).currentPeriodStart = sub.currentPeriodStart ∧
      (sub'.at t).currentPeriodEnd = sub.currentPeriodEnd ∧
      (quantity = none → (sub'.at t).item.quantity.getD 1 = seats)
  after : ∀ t, periodEnd ≤ t →
    (sub'.at t).item.priceId = new.priceId ∧ (sub'.at t).item.quantity.getD 1 = seats

/-- What a plan change is to do with the seats, the quantity asked for or else the
current one, if Stripe does not refuse it and there is a period to put it off
to. -/
def KeepsSeats (u : UnicodeTables) (sb : StripeBehaviour) (w : BillingWorld) (sid : String)
    (sub : StripeSubscription) (new : PlanPriceRef) (newPriceAmount : Option Int) (prorate : Bool)
    (quantity : Option Int) : Prop :=
  let seats := quantity.getD (sub.item.quantity.getD 1)
  wp (changePlan u sb sid new newPriceAmount prorate quantity)
    (fun _ w' => ∃ sub', w'.stripe sid = some sub' ∧
      (isDowngrade sb sub newPriceAmount = false → ChangedAtOnce sub sub' new seats) ∧
      (isDowngrade sb sub newPriceAmount = true → ∃ periodStart periodEnd,
        readPeriodField sub.item.currentPeriodStart sub.currentPeriodStart = some periodStart ∧
        readPeriodField sub.item.currentPeriodEnd sub.currentPeriodEnd = some periodEnd ∧
        ChangedAtPeriodEnd sub sub' new quantity seats periodStart periodEnd))
    (fun e _ => e = .stripe ∨ ∃ message, e = .valueError message) w

/-- The subscription has a period to put a change off to. -/
def StripeSubscription.hasPeriod (sub : StripeSubscription) : Prop :=
  (readPeriodField sub.item.currentPeriodEnd sub.currentPeriodEnd).isSome = true ∧
    (readPeriodField sub.item.currentPeriodStart sub.currentPeriodStart).isSome = true

/-- The new price is given, and is lower than that of the item. -/
def Cheaper (sb : StripeBehaviour) (sub : StripeSubscription)
    (newPriceAmount : Option Int) : Prop :=
  ∃ amount paid, newPriceAmount = some amount ∧
    (sb.price sub.item.priceId).unitAmount = some paid ∧ amount < paid

theorem isDowngrade_iff_cheaper {newPriceAmount : Option Int} :
    isDowngrade sb sub newPriceAmount = true ↔ Cheaper sb sub newPriceAmount := by
  unfold isDowngrade Cheaper
  rcases newPriceAmount with - | amount
  · simp
  · rcases (sb.price sub.item.priceId).unitAmount with - | paid
    · simp
    · simp

/-- **A plan change keeps the seats** exactly when it is not one to a lower price,
of a subscription that Stripe retrieves and that has a period to put the change
off to. -/
theorem plan_change_seats_iff {new : PlanPriceRef} {newPriceAmount : Option Int} {prorate : Bool}
    {quantity : Option Int} (hsub : w.stripe sid = some sub) :
    KeepsSeats u sb w sid sub new newPriceAmount prorate quantity ↔
      ¬ (Cheaper sb sub newPriceAmount ∧ sub.hasPeriod ∧ sb.fails w.issued.length = false) := by
  unfold KeepsSeats
  rcases hdown : isDowngrade sb sub newPriceAmount with - | -
  · -- at once
    refine iff_of_true ?_ ?_
    · apply wp_mono (changePlan_at_once_leaves hsub hdown)
      · intro _ w' hsub'
        refine ⟨_, hsub', fun _ t => ?_, fun h => by cases h⟩
        rw [at_of_schedule_none rfl]
        rfl
      · exact fun _ _ h => Or.inl h
    · rintro ⟨hcheaper, -⟩
      rw [isDowngrade_iff_cheaper.mpr hcheaper] at hdown
      cases hdown
  · -- at the end of the period
    have hcheaper := isDowngrade_iff_cheaper.mp hdown
    simp only [changePlan, wp_bind, Stripe.wp_subscriptionRetrieve, hsub, hdown, if_true, hcheaper,
      true_and]
    rcases hfails : sb.fails w.issued.length with - | -
    · simp only [Bool.false_eq_true, if_false, and_true]
      rcases hend : readPeriodField sub.item.currentPeriodEnd sub.currentPeriodEnd
        with - | periodEnd
      · refine iff_of_true ?_ (by simp [StripeSubscription.hasPeriod, hend])
        unfold scheduleDowngradeAtPeriodEnd
        rw [hend]
        exact Or.inr ⟨_, rfl⟩
      rcases hstart : readPeriodField sub.item.currentPeriodStart sub.currentPeriodStart
        with - | periodStart
      · refine iff_of_true ?_ (by simp [StripeSubscription.hasPeriod, hstart])
        unfold scheduleDowngradeAtPeriodEnd
        rw [hend, hstart]
        exact Or.inr ⟨_, rfl⟩
      · refine iff_of_false ?_ (by simp [StripeSubscription.hasPeriod, hend, hstart])
        unfold wp
        rw [scheduleDowngradeAtPeriodEnd_of_window u sb hend hstart]
        rintro (h | ⟨message, h⟩)
        · cases h
        · cases h
    · simp

/-- A change to a price that costs the same, three seats asked for on a
subscription under a schedule. -/
theorem plan_change_seats_iff_sample :
    KeepsSeats asciiTables sampleBehaviour pinnedWorld "sub_1"
      { sampleStripeSubscription with schedule := some liveSchedule } ⟨"price_basic", 5⟩ (some 1999)
      true (some 3) := by
  have hsub : pinnedWorld.stripe "sub_1"
      = some { sampleStripeSubscription with schedule := some liveSchedule } := rfl
  refine (plan_change_seats_iff hsub).mpr ?_
  rintro ⟨⟨amount, paid, hamount, hpaid, hlt⟩, -⟩
  obtain rfl := Option.some.inj hamount
  obtain rfl := Option.some.inj hpaid
  exact absurd hlt (by decide)

/-- The change to 9.99 USD raises, and leaves the subscription on 19.99 USD. -/
theorem cheaper_change_raises :
    changePlan asciiTables sampleBehaviour "sub_1" ⟨"price_basic", 5⟩ (some 999) true none
        sampleWorld
      = .error (.attributeError "get") (sampleWorld.record (.subscriptionRetrieve "sub_1")) ∧
      ¬ KeepsSeats asciiTables sampleBehaviour sampleWorld "sub_1" sampleStripeSubscription
        ⟨"price_basic", 5⟩ (some 999) true none := by
  refine ⟨rfl, ?_⟩
  rintro (h | ⟨message, h⟩)
  · cases h
  · cases h

end Saasmint
