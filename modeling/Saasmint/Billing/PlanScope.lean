/-
Saasmint/Billing/PlanScope.lean

The plans of a customer's subscriptions over any sequence of PATCHes.

Personal plans belong to users and have one seat, team plans belong to
organizations.  A PATCH checks the seats against the plan, but it compares the
context of a new plan with nothing.  So the plan and the quantity that are
installed at Stripe, and those of the phases of a schedule that is there, keep to
the customer exactly when each PATCH that succeeds names a plan of its customer's
scope, or none (`plans_fit_iff`).

Between the PATCHes Stripe sends events about the subscription as it is, which
are processed at any later time, and enters the phases of its schedule.  The
catalog stays as it is.
-/
import Saasmint.Billing.PlanChange
import Saasmint.Billing.ReadYourWrites
import Saasmint.Lib.Loops

namespace Saasmint

open Programs PyStr

variable (u : UnicodeTables) (sb : StripeBehaviour) (now : Timestamp)

/-! ### Plans that fit -/

/-- The context of the plans that a customer buys. -/
def StripeCustomer.scope (c : StripeCustomer) : PlanContext :=
  match c.owner with
  | .user _ => .personal
  | .org _ => .team

/-- The plan is one of the scope, and a personal one has one seat. -/
def FitsScope (t : CatalogTables) (scope : PlanContext) (planId : UUID) (quantity : Int) : Prop :=
  t.planContext planId = some scope ∧ (scope = .personal → quantity = 1)

/-- The plan and the quantity of the item fit, and those of every phase that is
to come. -/
structure StripeSubscription.Fits (t : CatalogTables) (scope : PlanContext)
    (sub : StripeSubscription) : Prop where
  item : FitsScope t scope sub.item.planId (sub.item.quantity.getD 1)
  phases : ∀ s, sub.schedule = some s → ∀ ph ∈ s.phases, FitsScope t scope ph.planId ph.quantity

/-- The world, and the items that Stripe has sent events about. -/
structure ScopeState where
  world : BillingWorld
  sent : List (String × StripeItem)

/-- The row of a subscription, the subscription at Stripe and its events fit. -/
structure SubscriptionFits (w : BillingWorld) (sent : List (String × StripeItem))
    (scope : PlanContext) (sid : String) (row : Subscription) : Prop where
  row : FitsScope w.db.catalog scope row.planId row.seatLimit
  stripe : ∀ sub, w.stripe sid = some sub → sub.Fits w.db.catalog scope
  sent : ∀ item, (sid, item) ∈ sent →
    FitsScope w.db.catalog scope item.planId (item.quantity.getD 1)

/-- Every subscription fits the scope of its customer. -/
def PlansFit (s : ScopeState) : Prop :=
  ∀ c ∈ s.world.db.customers, ∀ sid row, s.world.db.subscriptions.getByStripeId sid = some row →
    row.stripeCustomerId = some c.id → SubscriptionFits s.world s.sent c.scope sid row

/-! ### Runs -/

inductive ScopeStep
  | patch (members : List OrgMember) (user : UUID) (context : Option String)
      (data : UpdateSubscription) (now : Timestamp)
  /-- Stripe sends an event about a subscription as it is now. -/
  | send (sid : String)
  /-- A sent event is processed: a sync writes its columns into the row. -/
  | deliver (sid : String) (item : StripeItem) (m : Mirrored) (now : Timestamp)
  /-- Stripe enters a phase of the schedule, and may release it. -/
  | enterPhase (sid : String) (ph : StripePhase) (released : Bool)
  deriving DecidableEq, Repr

/-- The update that a sync makes of an existing row. -/
def Mirrored.update (m : Mirrored) (row : Subscription) : Subscription :=
  { row with
    status := m.status
    planId := m.planId
    seatLimit := m.seatLimit
    trialEndsAt := m.trialEndsAt
    currentPeriodStart := m.currentPeriodStart
    currentPeriodEnd := m.currentPeriodEnd
    canceledAt := m.canceledAt
    cancelAt := m.cancelAt
    currency := m.currency }

def scopeStep (s : ScopeState) : ScopeStep → Option ScopeState
  | .patch members user context data now =>
    some { s with world := final (patchSubscription u sb now members user context data) s.world }
  | .send sid =>
    (s.world.stripe sid).map fun sub => { s with sent := (sid, sub.item) :: s.sent }
  | .deliver sid item m now =>
    if (sid, item) ∈ s.sent ∧ m.planId = item.planId ∧ m.seatLimit = item.seats then
      (s.world.db.subscriptions.getByStripeId sid).map fun row =>
        { s with world := final (saveRow now (m.update row)) s.world }
    else none
  | .enterPhase sid ph released =>
    (s.world.stripe sid).bind fun sub =>
      if sub.schedule.any (fun schedule => ph ∈ schedule.phases) then
        some { s with world := s.world.setStripe sid (sub.enter ph released) }
      else none

/-- The customer that a PATCH is about. -/
def patchCustomer (db : BillingDb) (members : List OrgMember) (user : UUID)
    (context : Option String) : Option StripeCustomer :=
  (resolveMutationContext members user context).toOption.bind (db.resolveBillingCustomer user)

/-- The plan that a PATCH names. -/
def UpdateSubscription.namedPlan (t : CatalogTables) (data : UpdateSubscription) : Option UUID :=
  data.planPriceId.bind fun planPriceId => (activePlanPrice t planPriceId).toOption.map Prod.snd

/-- A plan that is named is one of the scope of the customer. -/
def NamesOwnScope (db : BillingDb) (members : List OrgMember) (user : UUID)
    (context : Option String) (data : UpdateSubscription) : Prop :=
  ∀ customer planId, patchCustomer db members user context = some customer →
    data.namedPlan db.catalog = some planId →
    db.catalog.planContext planId = some customer.scope

/-- A PATCH that succeeds names no plan of another scope. -/
def StaysInScope (s : ScopeState) : ScopeStep → Prop
  | .patch members user context data now =>
    ∀ w', patchSubscription u sb now members user context data s.world = .ok ⟨⟩ w' →
      NamesOwnScope s.world.db members user context data
  | _ => True

variable {u sb now} {w w' : BillingWorld} {sid : String} {row : Subscription}
  {t : CatalogTables} {scope : PlanContext} {sent : List (String × StripeItem)}

/-! ### What a service touches -/

/-- Only the subscription `sid` and its row have changed. -/
structure OnlyTouches (sid : String) (w w' : BillingWorld) : Prop where
  catalog : w'.db.catalog = w.db.catalog
  customers : w'.db.customers = w.db.customers
  rows : ∀ other, other ≠ sid →
    w'.db.subscriptions.getByStripeId other = w.db.subscriptions.getByStripeId other
  stripe : ∀ other, other ≠ sid → w'.stripe other = w.stripe other

/-- Where only one subscription has changed, all fit exactly when it does. -/
theorem plansFit_iff_touched {s : ScopeState} {c : StripeCustomer} {row' : Subscription}
    (h : PlansFit s) (hc : c ∈ s.world.db.customers)
    (hrow : s.world.db.subscriptions.getByStripeId sid = some row)
    (hcust : row.stripeCustomerId = some c.id) (ht : OnlyTouches sid s.world w')
    (hrow' : w'.db.subscriptions.getByStripeId sid = some row')
    (hcust' : row'.stripeCustomerId = row.stripeCustomerId) :
    PlansFit { s with world := w' } ↔ SubscriptionFits w' s.sent c.scope sid row' := by
  constructor
  · intro h'
    exact h' c (ht.customers ▸ hc) sid row' hrow' (hcust'.trans hcust)
  · intro h' c₂ hc₂ sid₂ row₂ hrow₂ hcust₂
    have hc₂' : c₂ ∈ s.world.db.customers := ht.customers ▸ hc₂
    by_cases hs : sid₂ = sid
    · -- customers under one id have one scope
      subst hs
      obtain rfl := Option.some.inj (hrow'.symm.trans hrow₂)
      have hfit := (h c hc sid₂ row hrow hcust).row.1
      have hfit₂ := (h c₂ hc₂' sid₂ row hrow (hcust'.symm.trans hcust₂)).row.1
      have hscope : c.scope = c₂.scope := Option.some.inj (hfit.symm.trans hfit₂)
      exact hscope ▸ h'
    · have hold := h c₂ hc₂' sid₂ row₂ ((ht.rows sid₂ hs).symm.trans hrow₂) hcust₂
      exact
        { row := ht.catalog ▸ hold.row
          stripe := fun sub hsub =>
            ht.catalog ▸ hold.stripe sub ((ht.stripe sid₂ hs).symm.trans hsub)
          sent := fun item hitem => ht.catalog ▸ hold.sent item hitem }

/-- The database is as it was, and so is Stripe but for a subscription that
still fits. -/
structure StillFits (w : BillingWorld) (scope : PlanContext) (sid : String)
    (w' : BillingWorld) : Prop where
  db : w'.db = w.db
  others : ∀ other, other ≠ sid → w'.stripe other = w.stripe other
  fits : ∀ sub, w'.stripe sid = some sub → sub.Fits w.db.catalog scope

theorem StillFits.onlyTouches (h : StillFits w scope sid w') : OnlyTouches sid w w' :=
  ⟨by rw [h.db], by rw [h.db], fun _ _ => by rw [h.db], h.others⟩

/-- Changing the subscription into one that fits. -/
theorem StillFits.setStripe (h : StillFits w scope sid w') {sub : StripeSubscription}
    (hsub : sub.Fits w.db.catalog scope) : StillFits w scope sid (w'.setStripe sid sub) where
  db := h.db
  others other hne := (w'.setStripe_of_ne hne sub).trans (h.others other hne)
  fits sub' hsub' := by
    rw [BillingWorld.setStripe_self] at hsub'
    exact Option.some.inj hsub' ▸ hsub

theorem StillFits.record (h : StillFits w scope sid w') (call : StripeCall) :
    StillFits w scope sid (w'.record call) := ⟨h.db, h.others, h.fits⟩

theorem keepsFit_issue {call : StripeCall} :
    Keeps (StillFits w scope sid) (Stripe.issue sb call) := by
  intro w' hw
  rw [Stripe.wp_issue]
  split_ifs <;> exact hw.record call

theorem keepsFit_retrieve :
    Keeps (StillFits w scope sid) (Stripe.subscriptionRetrieve sb sid) := fun _ hw =>
  Stripe.wp_subscriptionRetrieve_of (hw.record _) fun _ _ => hw.record _

/-- A change that keeps what fits. -/
theorem keepsFit_change {call : StripeCall} {f : Nat → StripeSubscription → StripeSubscription}
    (hf : ∀ n sub, sub.Fits w.db.catalog scope → (f n sub).Fits w.db.catalog scope) :
    Keeps (StillFits w scope sid) (Stripe.change sb sid call f) := fun _ hw =>
  Stripe.wp_change_of (hw.record _) fun n sub hsub =>
    (hw.record _).setStripe (hf n sub (hw.fits sub hsub))

/-- Without its schedule, a subscription that fits still does. -/
theorem StripeSubscription.Fits.release {sub : StripeSubscription} (h : sub.Fits t scope) :
    StripeSubscription.Fits t scope { sub with schedule := none } :=
  ⟨h.item, fun _ hs => by cases hs⟩

/-! ### Plan changes -/

/-- What a change of the subscription to a plan leaves: it fits exactly when the
plan is one of the scope. -/
def InstallsPlan (w : BillingWorld) (scope : PlanContext) (sid : String) (planId : UUID)
    (w' : BillingWorld) : Prop :=
  w'.db = w.db ∧ (∀ other, other ≠ sid → w'.stripe other = w.stripe other) ∧
    ∃ sub, w'.stripe sid = some sub ∧
      (sub.Fits w.db.catalog scope ↔ w.db.catalog.planContext planId = some scope)

/-- The item that an immediate change addresses is one of a subscription that
fits. -/
theorem keepsFit_releasedItemId {sub : StripeSubscription} {itemId : String} :
    Keeps (StillFits w scope sid) (releasedItemId sb sub sid itemId) := by
  unfold releasedItemId
  split
  · exact .pure _
  · exact .bind (keepsFit_change fun _ _ h => h.release) fun _ =>
      .bind keepsFit_retrieve fun _ => .pure _

/-- A plan change at once. -/
theorem applyImmediatePlanChange_installs {sub : StripeSubscription} {itemId : String}
    {new : PlanPriceRef} {prorate : Bool} {quantity : Int} (h : StillFits w scope sid w')
    (hitem : w.db.catalog.planContext new.planId = some scope →
      scope = .personal → quantity = 1) :
    wp (applyImmediatePlanChange sb sub sid itemId new prorate quantity)
      (fun _ w'' => InstallsPlan w scope sid new.planId w'')
      (fun _ w'' => StillFits w scope sid w'') w' := by
  rw [applyImmediatePlanChange, wp_bind]
  refine wp_mono (keepsFit_releasedItemId w' h) ?_ fun _ _ h => h
  intro itemId' w₁ h₁
  rw [wp_bind]
  refine Stripe.wp_change_of (h₁.record _) fun n sub₁ hsub₁ => ?_
  refine ⟨h₁.db, fun other hne =>
    (BillingWorld.setStripe_of_ne hne _ _).trans (h₁.others other hne),
    _, BillingWorld.setStripe_self .., ?_⟩
  constructor
  · exact fun hf => hf.item.1
  · exact fun hnew => ⟨⟨hnew, hitem hnew⟩, (h₁.fits sub₁ hsub₁).phases⟩

/-- **Plan changes** install the plan with a quantity that fits the scope: the
named one, or the one that the subscription has. -/
theorem changePlan_installs {new : PlanPriceRef} {newPriceAmount : Option Int} {prorate : Bool}
    {quantity : Option Int} (h : StillFits w scope sid w)
    (hquantity : ∀ q, quantity = some q → w.db.catalog.planContext new.planId = some scope →
      scope = .personal → q = 1) :
    wp (changePlan u sb sid new newPriceAmount prorate quantity)
      (fun _ w' => InstallsPlan w scope sid new.planId w')
      (fun _ w' => StillFits w scope sid w') w := by
  rw [changePlan, wp_bind]
  refine Stripe.wp_subscriptionRetrieve_of (h.record _) fun sub hsub => ?_
  have hitem : w.db.catalog.planContext new.planId = some scope → scope = .personal →
      quantity.getD (sub.item.quantity.getD 1) = 1 := by
    rcases quantity with - | q
    · exact fun _ => (h.fits sub hsub).item.2
    · exact hquantity q rfl
  dsimp only
  split
  · -- a change that is to be put off raises
    exact wp_scheduleDowngradeAtPeriodEnd u sb fun _ => h.record _
  · exact applyImmediatePlanChange_installs (h.record _) hitem

/-! ### Seats and cancellation -/

/-- The subscription and its row have changed, and still fit. -/
structure FitsAfter (w : BillingWorld) (scope : PlanContext) (sid : String) (row : Subscription)
    (w' : BillingWorld) : Prop where
  touched : OnlyTouches sid w w'
  row : ∃ row', w'.db.subscriptions.getByStripeId sid = some row' ∧
    row'.stripeCustomerId = row.stripeCustomerId ∧
    FitsScope w.db.catalog scope row'.planId row'.seatLimit
  stripe : ∀ sub, w'.stripe sid = some sub → sub.Fits w.db.catalog scope

theorem StillFits.fitsAfter (h : StillFits w scope sid w')
    (hrow : w.db.subscriptions.getByStripeId sid = some row)
    (hfit : FitsScope w.db.catalog scope row.planId row.seatLimit) :
    FitsAfter w scope sid row w' :=
  ⟨h.onlyTouches, ⟨row, by rw [h.db]; exact hrow, rfl, hfit⟩, h.fits⟩

/-- Saving an update of the row that fits. -/
theorem saveRow_fitsAfter {new : Subscription} (h : StillFits w scope sid w')
    (hrow : w.db.subscriptions.getByStripeId sid = some row) (hid : new.id = row.id)
    (hsid : new.stripeId = row.stripeId) (hcreated : new.createdAt = row.createdAt)
    (hcust : new.stripeCustomerId = row.stripeCustomerId)
    (hfit : FitsScope w.db.catalog scope new.planId new.seatLimit) :
    wp (saveRow now new) (fun _ w'' => FitsAfter w scope sid row w'')
      (fun _ w'' => FitsAfter w scope sid row w'') w' := by
  have hrow' : w'.db.subscriptions.getByStripeId sid = some row := by rw [h.db]; exact hrow
  refine wp_mono (saveRow_spec new hrow' hid hsid hcreated) ?_ fun _ _ h => h.elim
  rintro - w'' ⟨hstripe, hsets⟩
  refine ⟨⟨?_, ?_, ?_, ?_⟩, ⟨new, hsets.found, hcust, hfit⟩, ?_⟩
  · rw [hsets.catalog, h.db]
  · rw [hsets.customers, h.db]
  · exact fun other hne => (hsets.others other hne).trans (by rw [h.db])
  · exact fun other hne => (congrFun hstripe other).trans (h.others other hne)
  · exact fun sub hsub => h.fits sub (hstripe ▸ hsub)

/-- A mirrored change of the cancellation. -/
theorem mirroredCall_fitsAfter {call : StripeCall} (h : StillFits w scope sid w')
    (hrow : w.db.subscriptions.getByStripeId sid = some row)
    (hfit : FitsScope w.db.catalog scope row.planId row.seatLimit) :
    wp (Stripe.change sb sid call (Stripe.setCancelState sb)
      >>= mirrorCancelStateFromStripe now row)
      (fun _ w'' => FitsAfter w scope sid row w'') (fun _ w'' => FitsAfter w scope sid row w'')
      w' := by
  rw [wp_bind]
  refine Stripe.wp_change_of ((h.record _).fitsAfter hrow hfit) fun n sub hsub => ?_
  have h₁ : StillFits w scope sid
      ((w'.record call).setStripe sid (Stripe.setCancelState sb n sub)) :=
    (h.record _).setStripe ⟨(h.fits sub hsub).item, (h.fits sub hsub).phases⟩
  exact saveRow_fitsAfter h₁ hrow rfl rfl rfl rfl hfit

theorem keepsFit_releasePendingSchedule :
    Keeps (StillFits w scope sid) (releasePendingSchedule sb sid) := by
  refine .bind keepsFit_retrieve fun sub => ?_
  split
  · exact .pure _
  refine .bind (.bind keepsFit_issue fun _ => .bind ?_ fun sub => ?_) fun schedule => ?_
  · intro w' hw
    rw [Stripe.wp_lookup]
    rcases w'.stripe sid with - | sub <;> exact hw
  · split
    · exact .throw _
    · split
      · exact .pure _
      · exact .throw _
  · split
    · exact .bind (keepsFit_change fun _ _ h => h.release) fun _ => .pure _
    · exact .pure _

/-- The cancel toggle. -/
theorem applyCancelToggle_fitsAfter {c : StripeCustomer} {cancelAtPeriodEnd : Bool}
    (h : StillFits w scope sid w) (hact : w.db.activeRow c.id = some (row, sid))
    (hfit : FitsScope w.db.catalog scope row.planId row.seatLimit) :
    wp (applyCancelToggle sb now c cancelAtPeriodEnd)
      (fun _ w' => FitsAfter w scope sid row w') (fun _ w' => FitsAfter w scope sid row w') w := by
  have hrow := activeRow_found hact
  unfold applyCancelToggle
  split
  · rw [cancelSubscription, wp_bind, wp_loadActive, hact]
    simp only [if_true]
    split
    · -- the schedule is released first
      rw [wp_bind]
      refine wp_mono (keepsFit_releasePendingSchedule w h) ?_ fun _ w' hw =>
        hw.fitsAfter hrow hfit
      exact fun _ w' hw => mirroredCall_fitsAfter hw hrow hfit
    · exact mirroredCall_fitsAfter h hrow hfit
  · rw [resumeSubscription, wp_bind, wp_loadActive, hact]
    exact mirroredCall_fitsAfter h hrow hfit

/-- A seat change to a quantity that fits the scope. -/
theorem updateSeatCount_fitsAfter {quantity : Int} (h : StillFits w scope sid w)
    (hrow : w.db.subscriptions.getByStripeId sid = some row)
    (hfit : FitsScope w.db.catalog scope row.planId row.seatLimit)
    (hquantity : scope = .personal → quantity = 1) :
    wp (updateSeatCount sb now row quantity)
      (fun _ w' => FitsAfter w scope sid row w') (fun _ w' => FitsAfter w scope sid row w') w := by
  have hsame := h.fitsAfter hrow hfit
  have hsid : row.stripeId = some sid := (SubscriptionTable.getByStripeId_eq_some_iff.mp hrow).2
  by_cases hq : quantity < 1
  · rw [updateSeatCount, if_pos hq]
    exact hsame
  rw [updateSeatCount_eq sb now hsid (by omega), changeSeats, wp_bind]
  refine Stripe.wp_subscriptionRetrieve_of ((h.record _).fitsAfter hrow hfit) fun sub hsub => ?_
  split
  · exact (h.record _).fitsAfter hrow hfit
  rw [wp_bind]
  refine Stripe.wp_change_of (((h.record _).record _).fitsAfter hrow hfit) fun n sub' hsub' => ?_
  have hsub'' := h.fits sub' hsub'
  have hnew : StripeSubscription.Fits w.db.catalog scope
      { sub' with item := Stripe.itemUpdate sub'.item none quantity } :=
    ⟨⟨hsub''.item.1, hquantity⟩, hsub''.phases⟩
  split
  · exact saveRow_fitsAfter (((h.record _).record _).setStripe hnew) hrow rfl rfl rfl rfl
      ⟨hfit.1, hquantity⟩
  · exact (((h.record _).record _).setStripe hnew).fitsAfter hrow hfit

/-! ### The PATCH -/

theorem quantity_of_validated {quantity : Int} {x : PUnit}
    (h : validateQuantityForContext .personal quantity = .ok x) : quantity = 1 := by
  by_contra hq
  simp [validateQuantityForContext, hq] at h

/-- The price that a PATCH works with is the active one that it names, and the
seats that are named with it fit its plan. -/
theorem planPriceOf_ok {data : UpdateSubscription} {planPrice : Option (LoadedPrice × UUID)}
    (h : planPriceOf t data = .ok planPrice) :
    data.namedPlan t = planPrice.map Prod.snd ∧
      ∀ pp q, planPrice = some pp → data.seatLimit = some q →
        t.planContext pp.2 = some .personal → q = 1 := by
  unfold planPriceOf at h
  unfold UpdateSubscription.namedPlan
  rcases hid : data.planPriceId with - | planPriceId
  · rw [hid] at h
    cases h
    exact ⟨rfl, by simp⟩
  rw [hid] at h
  obtain ⟨pp, hpp, h⟩ := Loops.bind_eq_ok.mp h
  rcases hseat : data.seatLimit with - | q
  · rw [hseat] at h
    cases h
    exact ⟨by simp [hpp, Except.toOption], by simp⟩
  · rw [hseat] at h
    obtain ⟨context, hcontext, h⟩ := Loops.bind_eq_ok.mp h
    obtain ⟨x, hvalid, h⟩ := Loops.bind_eq_ok.mp h
    cases h
    refine ⟨by simp [hpp, Except.toOption], ?_⟩
    rintro _ _ ⟨⟩ ⟨⟩ hpersonal
    obtain rfl := Option.some.inj ((require_eq_ok.mp hcontext).symm.trans hpersonal)
    exact quantity_of_validated hvalid

/-- The customer of a request is one of the table. -/
theorem mem_of_resolveBillingCustomer {db : BillingDb} {user : UUID} {c : StripeCustomer}
    {resolved : PlanContext × Option UUID} (h : db.resolveBillingCustomer user resolved = some c) :
    c ∈ db.customers := by
  unfold BillingDb.resolveBillingCustomer at h
  split at h
  · exact List.mem_of_find?_eq_some h
  · cases h
  · exact List.mem_of_find?_eq_some h

theorem activeRow_customer {db : BillingDb} {cid : UUID}
    (h : db.activeRow cid = some (row, sid)) : row.stripeCustomerId = some cid := by
  obtain ⟨active, hact, hrow⟩ := Option.bind_eq_some_iff.mp h
  obtain ⟨id, hid, heq⟩ := Option.map_eq_some_iff.mp hrow
  obtain ⟨rfl, rfl⟩ := Prod.mk.inj heq
  have hmem := (List.mem_filter.mp (Table.mem_of_latest? hact)).2
  simp only [Bool.and_eq_true, decide_eq_true_eq] at hmem
  exact hmem.1

/-- The toggle is sent alone. -/
theorem namedPlan_of_toggle {data : UpdateSubscription} {x : PUnit}
    (h : data.validate = .ok x) (hcancel : data.cancelAtPeriodEnd.isSome = true) :
    data.namedPlan t = none := by
  have hid : data.planPriceId = none := by
    by_contra hne
    obtain ⟨planPriceId, hid⟩ := Option.ne_none_iff_exists'.mp hne
    unfold UpdateSubscription.validate at h
    simp only [hid, hcancel] at h
    split_ifs at h
    simp_all
  rw [UpdateSubscription.namedPlan, hid]
  rfl

theorem plansFit_of_fitsAfter {s : ScopeState} {c : StripeCustomer} (h : PlansFit s)
    (hc : c ∈ s.world.db.customers)
    (hrow : s.world.db.subscriptions.getByStripeId sid = some row)
    (hcust : row.stripeCustomerId = some c.id) (hw : FitsAfter s.world c.scope sid row w') :
    PlansFit { s with world := w' } := by
  obtain ⟨row', hrow', hcust', hfit⟩ := hw.row
  refine (plansFit_iff_touched h hc hrow hcust hw.touched hrow' hcust').mpr ?_
  have hcat := hw.touched.catalog
  exact
    { row := hcat ▸ hfit
      stripe := fun sub hsub => hcat ▸ hw.stripe sub hsub
      sent := fun item hitem => hcat ▸ (h c hc sid row hrow hcust).sent item hitem }

/-- After a plan was installed, all fit exactly when it is one of the scope. -/
theorem plansFit_of_installsPlan {s : ScopeState} {c : StripeCustomer} {planId : UUID}
    (h : PlansFit s) (hc : c ∈ s.world.db.customers)
    (hrow : s.world.db.subscriptions.getByStripeId sid = some row)
    (hcust : row.stripeCustomerId = some c.id)
    (hw : InstallsPlan s.world c.scope sid planId w') :
    PlansFit { s with world := w' } ↔
      s.world.db.catalog.planContext planId = some c.scope := by
  obtain ⟨hdb, hothers, sub, hsub, hiff⟩ := hw
  have htouched : OnlyTouches sid s.world w' :=
    ⟨by rw [hdb], by rw [hdb], fun _ _ => by rw [hdb], hothers⟩
  rw [plansFit_iff_touched h hc hrow hcust htouched (hdb ▸ hrow) rfl, ← hiff]
  have hold := h c hc sid row hrow hcust
  constructor
  · intro hf
    exact hdb ▸ hf.stripe sub hsub
  · intro hf
    refine ⟨hdb ▸ hold.row, fun sub' hsub' => ?_, fun item hitem => hdb ▸ hold.sent item hitem⟩
    obtain rfl := Option.some.inj (hsub.symm.trans hsub')
    exact hdb ▸ hf

/-- **A PATCH.**  If it succeeds, all plans fit exactly when it named none of
another scope; if it raises, they do. -/
theorem patchSubscription_fits {s : ScopeState} {members : List OrgMember} {user : UUID}
    {context : Option String} {data : UpdateSubscription} (h : PlansFit s) :
    wp (patchSubscription u sb now members user context data)
      (fun _ w' => PlansFit { s with world := w' } ↔
        NamesOwnScope s.world.db members user context data)
      (fun _ w' => PlansFit { s with world := w' }) s.world := by
  rw [patchSubscription, wp_bind]
  refine wp_check_of (fun _ => h) fun _ hvalid => ?_
  rw [wp_bind]
  refine wp_check_of (fun _ => h) fun resolved hresolved => ?_
  rw [wp_bind, wp_get, wp_bind]
  refine wp_check_of (fun _ => h) fun planPrice hplanPrice => ?_
  rw [wp_bind]
  refine wp_check_of (fun _ => h) fun c hcustomer => ?_
  rw [wp_bind, wp_loadActive]
  rcases hact : s.world.db.activeRow c.id with - | ⟨row, sid⟩
  · exact h
  -- the subscription that the request is about, and that it fits
  have hc := mem_of_resolveBillingCustomer (require_eq_ok.mp hcustomer)
  have hrow := activeRow_found hact
  have hcust := activeRow_customer hact
  have hfits := h c hc sid row hrow hcust
  have hstill : StillFits s.world c.scope sid s.world := ⟨rfl, fun _ _ => rfl, hfits.stripe⟩
  obtain ⟨hnamed, hquantity⟩ := planPriceOf_ok hplanPrice
  have hcustomer' : patchCustomer s.world.db members user context = some c := by
    simp [patchCustomer, hresolved, Except.toOption, require_eq_ok.mp hcustomer]
  have hnames : NamesOwnScope s.world.db members user context data ↔
      ∀ planId, planPrice.map Prod.snd = some planId →
        s.world.db.catalog.planContext planId = some c.scope := by
    constructor
    · exact fun hn planId hp => hn c planId hcustomer' (hnamed.trans hp)
    · intro hn customer planId hcu hp
      obtain rfl := Option.some.inj (hcustomer'.symm.trans hcu)
      exact hn planId (hnamed.symm.trans hp)
  have hafter : ∀ w', FitsAfter s.world c.scope sid row w' → PlansFit { s with world := w' } :=
    fun w' hw => plansFit_of_fitsAfter h hc hrow hcust hw
  simp only
  split
  case h_1 cancelAtPeriodEnd hcancel =>
    -- a toggle names no plan
    have hnone := namedPlan_of_toggle (t := s.world.db.catalog) hvalid (by rw [hcancel]; rfl)
    refine wp_mono (applyCancelToggle_fitsAfter hstill hact hfits.row)
      (fun _ w' hw => iff_of_true (hafter w' hw) ?_) fun _ w' hw => hafter w' hw
    simp [hnames, ← hnamed, hnone]
  case h_2 planPrice hcancel =>
    rw [applyPlanChange, wp_bind, wp_get, wp_bind]
    refine wp_check_of (fun _ => h) fun price _ => ?_
    rw [wp_bind]
    refine wp_check_of (fun _ => h) fun _ _ => ?_
    refine wp_mono (changePlan_installs hstill fun q hq hscope hpersonal => ?_) (fun _ w' hw => ?_)
      fun _ w' hw => hafter w' (hw.fitsAfter hrow hfits.row)
    · exact hquantity planPrice q rfl hq (hpersonal ▸ hscope)
    · rw [plansFit_of_installsPlan h hc hrow hcust hw, hnames]
      simp
  case h_3 seatLimit hcancel hseat =>
    rw [applySeatOnly, wp_bind, wp_get, wp_bind]
    refine wp_check_of (fun _ => h) fun rowContext hcontext => ?_
    rw [wp_bind]
    refine wp_check_of (fun _ => h) fun _ hseats => ?_
    rw [wp_bind]
    refine wp_check_of (fun _ => h) fun _ _ => ?_
    have hscope : c.scope = rowContext :=
      Option.some.inj (hfits.row.1.symm.trans (require_eq_ok.mp hcontext))
    refine wp_mono (updateSeatCount_fitsAfter hstill hrow hfits.row fun hpersonal => ?_)
      (fun _ w' hw => iff_of_true (hafter w' hw) ?_) fun _ w' hw => hafter w' hw
    · rw [← hscope, hpersonal] at hseats
      exact quantity_of_validated hseats
    · simp [hnames]
  case h_4 =>
    refine iff_of_true h ?_
    simp [hnames]

/-! ### Runs that stay in scope -/

theorem seats_of_getD {item : StripeItem} (h : item.quantity.getD 1 = 1) : item.seats = 1 := by
  unfold StripeItem.seats
  rcases e : item.quantity with - | q
  · rfl
  · rw [e, Option.getD_some] at h
    subst h
    rfl

/-- Processing an event that Stripe has sent. -/
theorem plansFit_deliver {s : ScopeState} {item : StripeItem} {m : Mirrored} (h : PlansFit s)
    (hsent : (sid, item) ∈ s.sent) (hplan : m.planId = item.planId)
    (hseats : m.seatLimit = item.seats)
    (hrow : s.world.db.subscriptions.getByStripeId sid = some row) :
    PlansFit { s with world := final (saveRow now (m.update row)) s.world } := by
  refine wp_final_iff (P := fun w' => PlansFit { s with world := w' }) |>.mp ?_
  refine wp_mono (saveRow_spec (m.update row) hrow rfl rfl rfl) ?_ fun _ _ h => h.elim
  rintro - w' ⟨hstripe, hsets⟩ c hc sid₂ row₂ hrow₂ hcust₂
  have hc' : c ∈ s.world.db.customers := hsets.customers ▸ hc
  have hcat := hsets.catalog
  by_cases hs : sid₂ = sid
  · subst hs
    obtain rfl := Option.some.inj (hsets.found.symm.trans hrow₂)
    have hold := h c hc' sid₂ row hrow hcust₂
    have hitem := hold.sent item hsent
    refine ⟨hcat ▸ ⟨?_, fun hpersonal => ?_⟩, fun sub hsub => ?_, fun i hi => hcat ▸ hold.sent i hi⟩
    · show s.world.db.catalog.planContext m.planId = some c.scope
      rw [hplan]
      exact hitem.1
    · show m.seatLimit = 1
      rw [hseats]
      exact seats_of_getD (hitem.2 hpersonal)
    · exact hcat ▸ hold.stripe sub (hstripe ▸ hsub)
  · have hold := h c hc' sid₂ row₂ ((hsets.others sid₂ hs).symm.trans hrow₂) hcust₂
    exact ⟨hcat ▸ hold.row, fun sub hsub => hcat ▸ hold.stripe sub (hstripe ▸ hsub),
      fun i hi => hcat ▸ hold.sent i hi⟩

/-- Entering a phase of the schedule. -/
theorem plansFit_enterPhase {s : ScopeState} {sub : StripeSubscription} {ph : StripePhase}
    {schedule : StripeSchedule} {released : Bool} (h : PlansFit s)
    (hsub : s.world.stripe sid = some sub) (hsch : sub.schedule = some schedule)
    (hph : ph ∈ schedule.phases) :
    PlansFit { s with world := s.world.setStripe sid (sub.enter ph released) } := by
  intro c hc sid₂ row₂ hrow₂ hcust₂
  have hold := h c hc sid₂ row₂ hrow₂ hcust₂
  refine ⟨hold.row, fun sub' hsub' => ?_, hold.sent⟩
  by_cases hs : sid₂ = sid
  · subst hs
    rw [BillingWorld.setStripe_self] at hsub'
    obtain rfl := Option.some.inj hsub'
    have hfit := hold.stripe sub hsub
    refine ⟨hfit.phases schedule hsch ph hph, fun s' hs' => ?_⟩
    have hs'' : (if released then none else sub.schedule) = some s' := hs'
    split at hs''
    · cases hs''
    · exact hfit.phases s' hs''
  · exact hold.stripe sub' ((BillingWorld.setStripe_of_ne hs _ _).symm.trans hsub')

/-- A step keeps all plans fitting exactly when it stays in the scope of its
customer. -/
theorem plansFit_step (s : ScopeState) (a : ScopeStep) (s' : ScopeState) (h : PlansFit s)
    (hs : scopeStep u sb s a = some s') : PlansFit s' ↔ StaysInScope u sb s a := by
  cases a with
  | patch members user context data now =>
    obtain rfl := Option.some.inj hs
    have hwp : wp (patchSubscription u sb now members user context data) _ _ s.world :=
      patchSubscription_fits h
    unfold wp at hwp
    unfold StaysInScope final
    rcases e : patchSubscription u sb now members user context data s.world with ⟨x, w'⟩ | ⟨err, w'⟩
    · rw [e] at hwp
      exact hwp.trans ⟨fun hn _ _ => hn, fun hn => hn w' e⟩
    · rw [e] at hwp
      refine iff_of_true hwp fun w'' h' => ?_
      rw [e] at h'
      cases h'
  | send sid =>
    obtain ⟨sub, hsub, rfl⟩ := Option.map_eq_some_iff.mp hs
    refine iff_of_true (fun c hc sid₂ row₂ hrow₂ hcust₂ => ?_) trivial
    have hold := h c hc sid₂ row₂ hrow₂ hcust₂
    refine ⟨hold.row, hold.stripe, fun item hitem => ?_⟩
    rcases List.mem_cons.mp hitem with heq | hitem
    · obtain ⟨rfl, rfl⟩ := Prod.mk.inj heq
      exact (hold.stripe sub hsub).item
    · exact hold.sent item hitem
  | deliver sid item m now =>
    simp only [scopeStep] at hs
    split at hs
    case isTrue hguard =>
      obtain ⟨row, hrow, rfl⟩ := Option.map_eq_some_iff.mp hs
      exact iff_of_true (plansFit_deliver h hguard.1 hguard.2.1 hguard.2.2 hrow) trivial
    case isFalse => cases hs
  | enterPhase sid ph released =>
    obtain ⟨sub, hsub, hif⟩ := Option.bind_eq_some_iff.mp hs
    split at hif
    case isTrue hguard =>
      cases hif
      obtain ⟨schedule, hsch, hph⟩ := (Option.any_eq_true _ _).mp hguard
      refine iff_of_true (plansFit_enterPhase h hsub hsch ?_) trivial
      simpa using hph
    case isFalse => cases hif

/-- **Plan context follows customer scope.**  Over any sequence of PATCHes,
events and schedule phases, the plan and the quantity of every subscription
keep to its customer exactly when each PATCH that succeeds names a plan of its
customer's scope, or none. -/
theorem plans_fit_iff {s : ScopeState} (h : PlansFit s) (as : List ScopeStep) :
    Runs.Always (scopeStep u sb) PlansFit s as ↔
      Runs.EachStep (scopeStep u sb) (StaysInScope u sb) s as :=
  Runs.always_iff_eachStep (I := fun _ => True) (fun _ _ _ _ _ => trivial)
    (fun s a s' _ h hs => plansFit_step s a s' h hs) trivial h

/-! ### A personal customer and a team plan -/

/-- A user on the personal plan, and a dearer team plan. -/
def samplePlans : BillingDb where
  catalog :=
    { plans := [⟨1, "Pro", "", .personal, .pro, .month, true⟩,
        ⟨5, "Team Pro", "", .team, .pro, .month, true⟩]
      planPrices := [⟨2, 1, "price_usd", 1999⟩, ⟨6, 5, "price_team", 2999⟩]
      products := [], productPrices := [], localizedPrices := [], countryPrices := [] }
  customers := [⟨3, "cus_1", .user 4⟩]
  subscriptions := sampleRowDb.subscriptions

def sampleScopeState : ScopeState := ⟨{ sampleWorld with db := samplePlans }, []⟩

theorem sampleScopeState_fits : PlansFit sampleScopeState := by
  intro c hc sid row hrow hcust
  obtain rfl := List.mem_singleton.mp hc
  obtain rfl := List.mem_singleton.mp (SubscriptionTable.getByStripeId_eq_some_iff.mp hrow).1
  refine ⟨⟨by decide, fun _ => rfl⟩, fun sub hsub => ?_, fun item hitem => by cases hitem⟩
  have hsub' : (if sid = "sub_1" then some sampleStripeSubscription else none) = some sub := hsub
  split at hsub'
  · cases hsub'
    exact ⟨⟨by decide, fun _ => rfl⟩, fun s hs => by cases hs⟩
  · cases hsub'

/-- The PATCH to the team plan. -/
def sampleTeamPatch : UpdateSubscription := ⟨some 6, true, none, none⟩

theorem plans_fit_iff_sample :
    Runs.Always (scopeStep asciiTables sampleBehaviour) PlansFit sampleScopeState
        [.patch [] 4 none ⟨some 2, true, some 1, none⟩ 120, .send "sub_1"] ↔
      Runs.EachStep (scopeStep asciiTables sampleBehaviour)
        (StaysInScope asciiTables sampleBehaviour) sampleScopeState
        [.patch [] 4 none ⟨some 2, true, some 1, none⟩ 120, .send "sub_1"] :=
  plans_fit_iff sampleScopeState_fits _

/-- The PATCH succeeds and puts the personal customer on the team plan. -/
theorem patch_leaves_scope :
    PlansFit sampleScopeState ∧
    ∃ w', patchSubscription asciiTables sampleBehaviour 120 [] 4 none sampleTeamPatch
        sampleScopeState.world = .ok ⟨⟩ w' ∧
      (w'.stripe "sub_1").map (fun sub => sub.item.planId) = some 5 ∧
      w'.db.catalog.planContext 5 = some .team ∧
      ¬ PlansFit { sampleScopeState with world := w' } := by
  have hok := eq_ok_final (m := patchSubscription asciiTables sampleBehaviour 120 [] 4 none
    sampleTeamPatch) (w := sampleScopeState.world) (by decide)
  refine ⟨sampleScopeState_fits, _, hok, by decide, by decide, fun h => ?_⟩
  have hnames := (wp_ok (patchSubscription_fits sampleScopeState_fits) hok).mp h
  have hteam : some PlanContext.team = some .personal :=
    hnames ⟨3, "cus_1", .user 4⟩ 5 (by decide) (by decide)
  cases hteam

end Saasmint
