/-
Saasmint/Billing/StripeApi.lean

Stripe as the subscription services see it
(saasmint_core/services/billing.py and subscriptions.py): subscriptions with
the item that the services work on, any further items and an optional attached
schedule, and the calls that read and change them.

What Stripe decides on its own is a `StripeBehaviour`: which calls raise, what a
cancellation leaves, the phase that a schedule is in, the ids and the price
objects it gives out.  A subscription under a schedule has the items of the
phase in force.  Every call is recorded in `issued` before it is answered, with
whether a live schedule was attached to its subscription at that moment.  A
schedule is addressed together with the subscription that it manages.

Ids are never empty at Stripe, so that `if sub.schedule` asks whether there is
one.  What a call returns is a `StripeObject`, which can be indexed but is no
`dict`: asked for `get` it raises (`objectGet`).
-/
import Saasmint.Billing.MirrorRace
import Saasmint.Lib.Programs

namespace Saasmint

open Programs

/-! ### Objects -/

inductive ScheduleStatus
  | notStarted | active | completed | released | canceled
  deriving DecidableEq, Repr

/-- A phase of a schedule: the first price and its quantity, from one time to
another, and the prices and quantities of further items.  `planId` is the plan
that the first price belongs to. -/
structure StripePhase where
  priceId : String
  planId : UUID
  quantity : Int
  startDate : Option Timestamp
  endDate : Option Timestamp
  otherItems : List (String × Int) := []
  deriving DecidableEq, Repr

structure StripeSchedule where
  id : String
  status : ScheduleStatus
  phases : List StripePhase
  deriving DecidableEq, Repr

/-- `status in ("not_started", "active")`: the schedule owns its subscription. -/
def StripeSchedule.isLive (s : StripeSchedule) : Bool :=
  s.status = .notStarted || s.status = .active

/-- The first item of a subscription.  `planId` is the plan that its price belongs to,
which the services do not read. -/
structure StripeItem where
  id : String
  priceId : String
  planId : UUID
  quantity : Option Int
  currentPeriodStart : PeriodField
  currentPeriodEnd : PeriodField
  deriving DecidableEq, Repr

/-- A subscription, under the id that it is retrieved by.  The services sell one
item and read no other. -/
structure StripeSubscription where
  status : SubscriptionStatus
  item : StripeItem
  cancelAt : Option Timestamp
  canceledAt : Option Timestamp
  currentPeriodStart : PeriodField
  currentPeriodEnd : PeriodField
  schedule : Option StripeSchedule
  otherItems : List (String × Int) := []
  deriving DecidableEq, Repr

/-- The subscription in a phase of its schedule. -/
def StripeSubscription.enter (sub : StripeSubscription) (ph : StripePhase) (released : Bool) :
    StripeSubscription :=
  { sub with
    item := { sub.item with
      priceId := ph.priceId, planId := ph.planId, quantity := some ph.quantity }
    otherItems := ph.otherItems
    schedule := if released then none else sub.schedule }

/-- What the response says about cancellation. -/
def StripeSubscription.cancelState (s : StripeSubscription) : StripeCancelState :=
  ⟨s.cancelAt, s.canceledAt, some s.status.value⟩

/-- A live schedule is attached. -/
def StripeSubscription.pinned (s : StripeSubscription) : Bool :=
  s.schedule.any StripeSchedule.isLive

/-- A price object. -/
structure StripePriceObject where
  unitAmount : Option Int
  currency : Option String
  deriving DecidableEq, Repr

/-! ### Calls -/

inductive StripeCall
  | subscriptionRetrieve (sid : String)
  | subscriptionModifyCancelAt (sid cancelAt : String)
  /-- `price` is left out where the item keeps its price. -/
  | subscriptionModifyItem (sid itemId : String) (price : Option String) (quantity : Int)
      (proration : String)
  | subscriptionCancel (sid : String)
  | scheduleRetrieve (sid id : String)
  | scheduleRelease (sid id : String)
  | scheduleCreate (sid : String)
  | scheduleModify (sid id : String) (phases : List StripePhase)
  | priceRetrieve (id : String)
  deriving DecidableEq, Repr

/-- The subscription that a call is about. -/
def StripeCall.subscription : StripeCall → Option String
  | subscriptionRetrieve sid | subscriptionModifyCancelAt sid _
  | subscriptionModifyItem sid _ _ _ _ | subscriptionCancel sid | scheduleRetrieve sid _
  | scheduleRelease sid _ | scheduleCreate sid | scheduleModify sid _ _ => some sid
  | priceRetrieve _ => none

/-- `Subscription.modify` and `Subscription.cancel`. -/
def StripeCall.isDirect : StripeCall → Bool
  | subscriptionModifyCancelAt .. | subscriptionModifyItem .. | subscriptionCancel _ => true
  | _ => false

structure IssuedCall where
  call : StripeCall
  pinned : Bool
  deriving DecidableEq, Repr

/-- What Stripe decides.  Calls are counted from the start of the run. -/
structure StripeBehaviour where
  /-- The n-th call raises `StripeError`. -/
  fails : Nat → Bool
  /-- What the n-th call leaves, if it sets or clears a cancellation. -/
  status : Nat → SubscriptionStatus
  cancelAt : Nat → Option Timestamp
  canceledAt : Nat → Option Timestamp
  /-- The id of the schedule that the n-th call creates. -/
  scheduleId : Nat → String
  /-- The phase that is in force when the n-th call gives a schedule its phases. -/
  inForce : Nat → List StripePhase → Option StripePhase
  price : String → StripePriceObject

/-- Stripe, the database, and the calls so far. -/
structure BillingWorld where
  stripe : String → Option StripeSubscription
  db : BillingDb
  issued : List IssuedCall

/-- A live schedule is attached to the subscription. -/
def BillingWorld.pinned (w : BillingWorld) (sid : String) : Bool :=
  (w.stripe sid).any StripeSubscription.pinned

/-- What a service raises. -/
inductive ServiceError
  | stripe
  | subscriptionNotFound (message : String)
  | valueError (message : String)
  | typeError
  | attributeError (name : String)
  | integrityError
  /-- The 404s and 400s of the views. -/
  | notFound (message : String)
  | validation (field : Option String) (message : String)
  | permissionDenied (message : String)
  | seatsBelowMemberCount
  | orgAlreadyOwned
  deriving DecidableEq, Repr

/-- A service: it reads and writes the world, and may raise. -/
abbrev Service := EStateM ServiceError BillingWorld

/-- The world after a call was issued. -/
def BillingWorld.record (w : BillingWorld) (call : StripeCall) : BillingWorld :=
  { w with issued := w.issued ++ [⟨call, call.subscription.any w.pinned⟩] }

@[simp] theorem BillingWorld.record_stripe (w : BillingWorld) (call : StripeCall) :
    (w.record call).stripe = w.stripe := rfl

@[simp] theorem BillingWorld.record_db (w : BillingWorld) (call : StripeCall) :
    (w.record call).db = w.db := rfl

/-- Change a subscription at Stripe. -/
def BillingWorld.setStripe (w : BillingWorld) (sid : String) (sub : StripeSubscription) :
    BillingWorld :=
  { w with stripe := Function.update w.stripe sid (some sub) }

@[simp] theorem BillingWorld.setStripe_self (w : BillingWorld) (sid : String)
    (sub : StripeSubscription) : (w.setStripe sid sub).stripe sid = some sub :=
  Function.update_self ..

theorem BillingWorld.setStripe_of_ne {sid other : String} (h : other ≠ sid) (w : BillingWorld)
    (sub : StripeSubscription) : (w.setStripe sid sub).stripe other = w.stripe other :=
  Function.update_of_ne h ..

@[simp] theorem BillingWorld.setStripe_db (w : BillingWorld) (sid : String)
    (sub : StripeSubscription) : (w.setStripe sid sub).db = w.db := rfl

/-- The calls issued from `w` to `w'` satisfy `P`. -/
structure BillingWorld.Issued (P : StripeCall → Prop) (w w' : BillingWorld) : Prop where
  length : w.issued.length ≤ w'.issued.length
  calls : ∀ c ∈ w'.issued.drop w.issued.length, P c.call

theorem BillingWorld.drop_record {w w' : BillingWorld} (h : w.issued.length ≤ w'.issued.length)
    (call : StripeCall) :
    (w'.record call).issued.drop w.issued.length
      = w'.issued.drop w.issued.length ++ [⟨call, call.subscription.any w'.pinned⟩] := by
  show (w'.issued ++ _).drop _ = _
  rw [List.drop_append_of_le_length h]

namespace BillingWorld.Issued

variable {P : StripeCall → Prop} {w w' : BillingWorld}

theorem refl : w.Issued P w where
  length := le_refl _
  calls := by simp

theorem record (h : w.Issued P w') {call : StripeCall} (hcall : P call) :
    w.Issued P (w'.record call) where
  length := by
    show _ ≤ (w'.issued ++ _).length
    rw [List.length_append]
    exact le_add_right h.length
  calls := by
    intro c hc
    rw [drop_record h.length, List.mem_append, List.mem_singleton] at hc
    rcases hc with hc | rfl
    · exact h.calls c hc
    · exact hcall

/-- The call is one of those issued. -/
theorem mem_record (h : w.Issued P w') (call : StripeCall) :
    ⟨call, call.subscription.any w'.pinned⟩ ∈ (w'.record call).issued.drop w.issued.length := by
  rw [drop_record h.length]
  exact List.mem_append_right _ (List.mem_singleton.mpr rfl)

theorem setStripe (h : w.Issued P w') (sid : String) (sub : StripeSubscription) :
    w.Issued P (w'.setStripe sid sub) := ⟨h.length, h.calls⟩

end BillingWorld.Issued

namespace Stripe

variable (sb : StripeBehaviour)

/-- Issue a call; the result is its number. -/
def issue (call : StripeCall) : Service Nat := fun w =>
  if sb.fails w.issued.length then .error .stripe (w.record call)
  else .ok w.issued.length (w.record call)

/-- The subscription that a call is about; Stripe raises if there is none. -/
def lookup (sid : String) : Service StripeSubscription := fun w =>
  match w.stripe sid with
  | none => .error .stripe w
  | some sub => .ok sub w

/-- A call that changes a subscription. -/
def change (sid : String) (call : StripeCall)
    (f : Nat → StripeSubscription → StripeSubscription) : Service StripeSubscription := do
  let n ← issue sb call
  let sub ← lookup sid
  modify fun w => w.setStripe sid (f n sub)
  return f n sub

def subscriptionRetrieve (sid : String) : Service StripeSubscription := do
  let _ ← issue sb (.subscriptionRetrieve sid)
  lookup sid

/-- Status and cancellation after the n-th call. -/
def setCancelState (n : Nat) (sub : StripeSubscription) : StripeSubscription :=
  { sub with status := sb.status n, cancelAt := sb.cancelAt n, canceledAt := sb.canceledAt n }

/-- `stripe.Subscription.modify(sid, cancel_at=...)`. -/
def subscriptionModifyCancelAt (sid cancelAt : String) : Service StripeSubscription :=
  change sb sid (.subscriptionModifyCancelAt sid cancelAt) (setCancelState sb)

/-- `stripe.Subscription.cancel(sid)`. -/
def subscriptionCancel (sid : String) : Service StripeSubscription :=
  change sb sid (.subscriptionCancel sid) (setCancelState sb)

/-- An item with a new quantity and, where there is one, a new price. -/
def itemUpdate (item : StripeItem) (price : Option (String × UUID))
    (quantity : Int) : StripeItem :=
  { item with
    priceId := (price.map Prod.fst).getD item.priceId
    planId := (price.map Prod.snd).getD item.planId
    quantity := some quantity }

/-- `stripe.Subscription.modify(sid, items=[...], proration_behavior=...)`; the
plan comes with the price. -/
def subscriptionModifyItem (sid itemId : String) (price : Option (String × UUID))
    (quantity : Int) (proration : String) : Service StripeSubscription :=
  change sb sid (.subscriptionModifyItem sid itemId (price.map Prod.fst) quantity proration)
    fun _ sub => { sub with item := itemUpdate sub.item price quantity }

/-- The schedule that is attached to a subscription; Stripe raises if it is not
`id`. -/
def attached (sid id : String) : Service StripeSchedule := do
  let sub ← lookup sid
  match sub.schedule with
  | none => throw .stripe
  | some schedule => if schedule.id = id then return schedule else throw .stripe

def scheduleRetrieve (sid id : String) : Service StripeSchedule := do
  let _ ← issue sb (.scheduleRetrieve sid id)
  attached sid id

/-- Releasing a schedule detaches it and leaves the rest of the subscription. -/
def scheduleRelease (sid id : String) : Service StripeSubscription :=
  change sb sid (.scheduleRelease sid id) fun _ sub => { sub with schedule := none }

/-- The schedule that Stripe makes of a subscription: its current state as the
only phase. -/
def fromSubscription (id : String) (sub : StripeSubscription) : StripeSchedule where
  id := id
  status := .active
  phases := [{
    priceId := sub.item.priceId
    planId := sub.item.planId
    quantity := sub.item.quantity.getD 1
    startDate := none
    endDate := none
    otherItems := sub.otherItems }]

/-- `stripe.SubscriptionSchedule.create(from_subscription=sid)`. -/
def scheduleCreate (sid : String) : Service StripeSubscription :=
  change sb sid (.scheduleCreate sid) fun n sub =>
    { sub with schedule := some (fromSubscription (sb.scheduleId n) sub) }

/-- The subscription with new phases in its schedule, in the one of them that is
in force. -/
def withPhases (n : Nat) (phases : List StripePhase) (sub : StripeSubscription) :
    StripeSubscription :=
  let sub := { sub with schedule := sub.schedule.map fun s => { s with phases } }
  match sb.inForce n phases with
  | some ph => sub.enter ph false
  | none => sub

/-- `stripe.SubscriptionSchedule.modify(id, end_behavior="release", phases=...)`. -/
def scheduleModify (sid id : String) (phases : List StripePhase) : Service StripeSubscription :=
  change sb sid (.scheduleModify sid id phases) fun n => withPhases sb n phases

/-- `obj.get(key)` of a `StripeObject`: no object of Stripe has an attribute `get`. -/
def objectGet {α : Type} (_key : String) : Service α := throw (.attributeError "get")

def priceRetrieve (id : String) : Service StripePriceObject := do
  let _ ← issue sb (.priceRetrieve id)
  return sb.price id

/-! ### Rules -/

variable {sb} {α : Type} {Q : α → BillingWorld → Prop} {E : ServiceError → BillingWorld → Prop}
  {w : BillingWorld}

theorem wp_issue {call : StripeCall} {Q : Nat → BillingWorld → Prop} :
    wp (issue sb call) Q E w ↔
      if sb.fails w.issued.length then E .stripe (w.record call)
      else Q w.issued.length (w.record call) := by
  unfold wp issue
  split_ifs <;> rfl

theorem wp_lookup {sid : String} {Q : StripeSubscription → BillingWorld → Prop} :
    wp (lookup sid) Q E w ↔
      match w.stripe sid with
      | none => E .stripe w
      | some sub => Q sub w := by
  unfold wp lookup
  rcases w.stripe sid with - | sub <;> rfl

/-- A retrieve answers with the subscription, if it answers. -/
theorem wp_subscriptionRetrieve {sid : String} {Q : StripeSubscription → BillingWorld → Prop} :
    wp (subscriptionRetrieve sb sid) Q E w ↔
      if sb.fails w.issued.length then E .stripe (w.record (.subscriptionRetrieve sid))
      else match w.stripe sid with
        | none => E .stripe (w.record (.subscriptionRetrieve sid))
        | some sub => Q sub (w.record (.subscriptionRetrieve sid)) := by
  simp only [subscriptionRetrieve, wp_bind, wp_issue, wp_lookup, BillingWorld.record_stripe]

/-- A change answers with the changed subscription, if it answers. -/
theorem wp_change {sid : String} {call : StripeCall}
    {f : Nat → StripeSubscription → StripeSubscription}
    {Q : StripeSubscription → BillingWorld → Prop} :
    wp (change sb sid call f) Q E w ↔
      if sb.fails w.issued.length then E .stripe (w.record call)
      else match w.stripe sid with
        | none => E .stripe (w.record call)
        | some sub =>
          Q (f w.issued.length sub)
            ((w.record call).setStripe sid (f w.issued.length sub)) := by
  simp only [change, wp_bind, wp_issue, wp_lookup, wp_modify, wp_pure,
    BillingWorld.record_stripe]

/-- What is proved of both answers of a retrieve holds after it. -/
theorem wp_subscriptionRetrieve_of {sid : String} {Q : StripeSubscription → BillingWorld → Prop}
    (hE : E .stripe (w.record (.subscriptionRetrieve sid)))
    (hQ : ∀ sub, w.stripe sid = some sub → Q sub (w.record (.subscriptionRetrieve sid))) :
    wp (subscriptionRetrieve sb sid) Q E w := by
  rw [wp_subscriptionRetrieve]
  split_ifs
  · exact hE
  · rcases hsub : w.stripe sid with - | sub
    · exact hE
    · exact hQ sub hsub

/-- What is proved of both answers of a change holds after it. -/
theorem wp_change_of {sid : String} {call : StripeCall}
    {f : Nat → StripeSubscription → StripeSubscription}
    {Q : StripeSubscription → BillingWorld → Prop} (hE : E .stripe (w.record call))
    (hQ : ∀ n sub, w.stripe sid = some sub →
      Q (f n sub) ((w.record call).setStripe sid (f n sub))) :
    wp (change sb sid call f) Q E w := by
  rw [wp_change]
  split_ifs
  · exact hE
  · rcases hsub : w.stripe sid with - | sub
    · exact hE
    · exact hQ _ sub hsub

/-- What a record keeps, a call that changes nothing keeps. -/
theorem keeps_issue {P : BillingWorld → Prop} {call : StripeCall}
    (hrec : ∀ w, P w → P (w.record call)) : Keeps P (issue sb call) := by
  intro w hw
  rw [wp_issue]
  split
  · exact hrec w hw
  · exact hrec w hw

/-- What a record and a change of the subscription keep, the call keeps. -/
theorem keeps_change {P : BillingWorld → Prop} {sid : String} {call : StripeCall}
    {f : Nat → StripeSubscription → StripeSubscription} (hrec : ∀ w, P w → P (w.record call))
    (hset : ∀ w sub, P w → P (w.setStripe sid sub)) : Keeps P (change sb sid call f) := by
  intro w hw
  apply wp_change_of (hrec w hw)
  exact fun n sub _ => hset _ _ (hrec w hw)

end Stripe

end Saasmint
