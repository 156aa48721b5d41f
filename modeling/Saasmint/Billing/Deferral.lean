/-
Saasmint/Billing/Deferral.lean

Whether a switch of plans is put off: what the plan card says
(renderPlanUpgradeCta.tsx) and what the PATCH does (apps/billing/views.py with
saasmint_core/services/subscriptions.py).

The card compares the USD amounts of the two plans in the catalog.  The server
compares the target's amount in the currency of the subscription with the
amount that the subscription was bought at, and a switch that is to be put off
raises.  So a PATCH that succeeds has applied the switch at once, and the card
is right about it exactly when it does not show it as deferred
(`flag_takes_effect_iff`): in USD, when the target does not cost an amount from
the one paid up to the one of today.
-/
import Saasmint.Billing.PendingChange
import Saasmint.Billing.PlanScope

namespace Saasmint

open Programs PyStr

variable {u : UnicodeTables} {sb : StripeBehaviour} {now : Timestamp} {w : BillingWorld}
  {sid : String} {sub : StripeSubscription}

/-! ### The card -/

/-- `plan.price?.amount`: the amount of a plan, in USD cents. -/
def CatalogTables.planAmount (t : CatalogTables) (planId : UUID) : Option Int :=
  (t.planPrices.find? fun pp => pp.planId = planId).map PlanPrice.amount

/-- `isDeferred` of `renderChangePlanCta`. -/
def isDeferred (targetAmount : Int) (currentAmount : Option Int) : Bool :=
  targetAmount < currentAmount.getD 0

/-! ### The switch -/

/-- A schedule was given phases between `w` and `w'`. -/
def BillingWorld.SwitchScheduled (w w' : BillingWorld) : Prop :=
  ∃ c ∈ w'.issued.drop w.issued.length, ∃ s id phases, c.call = .scheduleModify s id phases

/-- A subscription was given a price between `w` and `w'`. -/
def BillingWorld.SwitchApplied (w w' : BillingWorld) : Prop :=
  ∃ c ∈ w'.issued.drop w.issued.length, ∃ s id price quantity proration,
    c.call = .subscriptionModifyItem s id (some price) quantity proration

/-- The switch was scheduled and not applied, or applied and not scheduled. -/
structure TakesEffect (deferred : Bool) (w w' : BillingWorld) : Prop where
  scheduled : w.SwitchScheduled w' ↔ deferred = true
  applied : w.SwitchApplied w' ↔ deferred = false

/-- A switch takes effect in one way. -/
theorem TakesEffect.iff_of_applied {deferred : Bool} {w' : BillingWorld}
    (h : TakesEffect false w w') : TakesEffect deferred w w' ↔ deferred = false := by
  constructor
  · exact fun h' => h'.applied.mp (h.applied.mpr rfl)
  · rintro rfl
    exact h

/-- No call gives a schedule phases. -/
def KeepsPhases (call : StripeCall) : Prop :=
  ∀ s id phases, call ≠ .scheduleModify s id phases

/-- Releasing a schedule gives it no phases. -/
theorem keeps_releasedItemId_issued {w₀ : BillingWorld} {itemId : String} :
    Keeps (w₀.Issued KeepsPhases) (releasedItemId sb sub sid itemId) := by
  apply (BillingWorld.Issued.kept w₀ KeepsPhases sid).releasedItemId
  · rintro id s id' phases ⟨⟩
  · rintro s id phases ⟨⟩

/-- A change at once gives no schedule phases and, if it returns, gives the
subscription the price. -/
theorem applyImmediatePlanChange_applies {w₀ : BillingWorld} {itemId : String}
    {new : PlanPriceRef} {prorate : Bool} {quantity : Int} (h : w₀.Issued KeepsPhases w) :
    wp (applyImmediatePlanChange sb sub sid itemId new prorate quantity)
      (fun _ w' => w₀.SwitchApplied w' ∧ w₀.Issued KeepsPhases w') (fun _ _ => True) w := by
  rw [applyImmediatePlanChange, wp_bind]
  apply wp_mono (keeps_releasedItemId_issued w h)
  · intro itemId' w' h'
    rw [wp_bind]
    apply Stripe.wp_change_of trivial
    intro n sub' _
    refine ⟨⟨_, h'.mem_record _, _, _, _, _, _, rfl⟩, ?_⟩
    apply (h'.record _).setStripe
    rintro s id phases ⟨⟩
  · exact fun _ _ _ => trivial

/-- **A plan change that returns was applied at once.** -/
theorem changePlan_takesEffect {new : PlanPriceRef} {newPriceAmount : Option Int} {prorate : Bool}
    {quantity : Option Int} :
    wp (changePlan u sb sid new newPriceAmount prorate quantity)
      (fun _ w' => TakesEffect false w w') (fun _ _ => True) w := by
  have hretrieve : w.Issued KeepsPhases (w.record (.subscriptionRetrieve sid)) := by
    apply BillingWorld.Issued.refl.record
    rintro s id phases ⟨⟩
  rw [changePlan, wp_bind]
  apply Stripe.wp_subscriptionRetrieve_of trivial
  intro sub _
  dsimp only
  split
  · -- one that is to be put off raises
    exact wp_scheduleDowngradeAtPeriodEnd u sb fun _ => trivial
  · apply wp_mono (applyImmediatePlanChange_applies hretrieve)
    · rintro - w' ⟨happlied, hphases⟩
      refine ⟨iff_of_false ?_ (by decide), iff_of_true happlied rfl⟩
      rintro ⟨c, hc, s, id, phases, hcall⟩
      exact hphases.calls c hc s id phases hcall
    · exact fun _ _ h => h

/-! ### The PATCH -/

/-- A PATCH that names a plan and succeeds has changed the plan of the active
subscription at once. -/
theorem patchSubscription_changesPlan {members : List OrgMember} {user planPriceId : UUID}
    {context : Option String} {resolved : PlanContext × Option UUID} {customer : StripeCustomer}
    {row : Subscription} {target : LoadedPrice × UUID} {seatLimit : Option Int} {prorate : Bool}
    (hresolved : resolveMutationContext members user context = .ok resolved)
    (hcustomer : w.db.resolveBillingCustomer user resolved = some customer)
    (hactive : w.db.activeRow customer.id = some (row, sid))
    (htarget : activePlanPrice w.db.catalog planPriceId = .ok target) :
    wp (patchSubscription u sb now members user context
        ⟨some planPriceId, prorate, seatLimit, none⟩)
      (fun _ w' => TakesEffect false w w') (fun _ _ => True) w := by
  rw [patchSubscription, wp_bind]
  apply wp_check_of (fun _ => trivial)
  intro _ _
  rw [wp_bind]
  apply wp_check_of (fun _ => trivial)
  intro resolved' hresolved'
  obtain rfl := Except.ok.inj (hresolved.symm.trans hresolved')
  rw [wp_bind, wp_get, wp_bind]
  apply wp_check_of (fun _ => trivial)
  intro planPrice hplanPrice
  -- the price named is the target's
  have hnamed : planPrice = some target := by
    obtain ⟨target', htarget', hplanPrice⟩ := Loops.bind_eq_ok.mp hplanPrice
    obtain rfl := Except.ok.inj (htarget.symm.trans htarget')
    cases seatLimit with
    | none => exact (Except.ok.inj hplanPrice).symm
    | some quantity =>
      obtain ⟨_, -, hplanPrice⟩ := Loops.bind_eq_ok.mp hplanPrice
      obtain ⟨_, -, hplanPrice⟩ := Loops.bind_eq_ok.mp hplanPrice
      exact (Except.ok.inj hplanPrice).symm
  subst hnamed
  rw [wp_bind]
  apply wp_check_of (fun _ => trivial)
  intro customer' hcustomer'
  obtain rfl := Option.some.inj (hcustomer.symm.trans (require_eq_ok.mp hcustomer'))
  rw [wp_bind, wp_loadActive, hactive]
  show wp (applyPlanChange u sb members row sid target seatLimit prorate resolved.2) _ _ w
  rw [applyPlanChange, wp_bind, wp_get, wp_bind]
  apply wp_check_of (fun _ => trivial)
  intro price _
  rw [wp_bind]
  apply wp_check_of (fun _ => trivial)
  intro _ _
  exact changePlan_takesEffect

/-- **The flag on the plan card is right** about a PATCH that succeeds exactly when
the target costs no less than the current plan does in the catalog. -/
theorem flag_takes_effect_iff {members : List OrgMember} {user planPriceId : UUID}
    {context : Option String} {resolved : PlanContext × Option UUID} {customer : StripeCustomer}
    {row : Subscription} {target : LoadedPrice × UUID} {seatLimit : Option Int} {prorate : Bool}
    {w' : BillingWorld} (hresolved : resolveMutationContext members user context = .ok resolved)
    (hcustomer : w.db.resolveBillingCustomer user resolved = some customer)
    (hactive : w.db.activeRow customer.id = some (row, sid))
    (htarget : activePlanPrice w.db.catalog planPriceId = .ok target)
    (hrun : patchSubscription u sb now members user context
      ⟨some planPriceId, prorate, seatLimit, none⟩ w = .ok ⟨⟩ w') :
    TakesEffect (isDeferred target.1.price.amount (w.db.catalog.planAmount row.planId)) w w' ↔
      (w.db.catalog.planAmount row.planId).getD 0 ≤ target.1.price.amount := by
  have hpatch : wp (patchSubscription u sb now members user context
      ⟨some planPriceId, prorate, seatLimit, none⟩) _ _ w :=
    patchSubscription_changesPlan hresolved hcustomer hactive htarget
  have happlied := wp_ok hpatch hrun
  rw [happlied.iff_of_applied, isDeferred, decide_eq_false_iff_not, not_lt]

/-! ### A plan that costs more than it did -/

/-- The plan of the sample subscription, bought at 19.99 USD, costs 25 USD now;
the other one costs 20 or 30. -/
def raisedCatalog (target : Int) : CatalogTables where
  plans :=
    [⟨1, "Pro", "", .personal, .pro, .month, true⟩,
     ⟨5, "Basic", "", .personal, .basic, .month, true⟩]
  planPrices := [⟨2, 1, "price_usd_2", 2500⟩, ⟨6, 5, "price_basic", target⟩]
  products := []
  productPrices := []
  localizedPrices := []
  countryPrices := []

def raisedWorld (target : Int) : BillingWorld :=
  { sampleWorld with db := { sampleRowDb with catalog := raisedCatalog target } }

/-- A plan at 30 USD is shown as switched to at once, and it is. -/
theorem flag_takes_effect_iff_dearer :
    ∃ w', patchSubscription asciiTables sampleBehaviour 120 [] 4 none ⟨some 6, true, none, none⟩
        (raisedWorld 3000) = .ok ⟨⟩ w' ∧
      TakesEffect (isDeferred 3000 ((raisedCatalog 3000).planAmount 1)) (raisedWorld 3000) w' := by
  have hrun := eq_ok_final (m := patchSubscription asciiTables sampleBehaviour 120 [] 4 none
    ⟨some 6, true, none, none⟩) (w := raisedWorld 3000) (by decide)
  have hactive : (raisedWorld 3000).db.activeRow 3 = some (sampleRow, "sub_1") := rfl
  have htarget : activePlanPrice (raisedWorld 3000).db.catalog 6
      = .ok (⟨.plan ⟨6, 5, "price_basic", 3000⟩, none⟩, 5) := rfl
  have hcustomer : (raisedWorld 3000).db.resolveBillingCustomer 4 (.personal, none)
      = some ⟨3, "cus_1", .user 4⟩ := rfl
  exact ⟨_, hrun, (flag_takes_effect_iff rfl hcustomer hactive htarget hrun).mpr (by decide)⟩

/-- The card of a plan at 20 USD says that the switch waits for the end of the
period, and it is charged at once. -/
theorem deferred_on_the_card_applied_at_once :
    isDeferred 2000 ((raisedCatalog 2000).planAmount 1) = true ∧
    ∃ w', patchSubscription asciiTables sampleBehaviour 120 [] 4 none ⟨some 6, true, none, none⟩
        (raisedWorld 2000) = .ok ⟨⟩ w' ∧
      w'.issued.map IssuedCall.call = [.subscriptionRetrieve "sub_1",
        .subscriptionModifyItem "sub_1" "si_1" (some "price_basic") 1 "create_prorations"] ∧
      ¬ TakesEffect (isDeferred 2000 ((raisedCatalog 2000).planAmount 1))
      (raisedWorld 2000) w' := by
  refine ⟨by decide, _, eq_ok_final (by decide), by decide, ?_⟩
  intro h
  obtain ⟨c, hc, s, id, phases, hcall⟩ := h.scheduled.mpr (by decide)
  have hcalls : c.call ∈ [StripeCall.subscriptionRetrieve "sub_1",
      .subscriptionModifyItem "sub_1" "si_1" (some "price_basic") 1 "create_prorations"] :=
    List.mem_map_of_mem (f := IssuedCall.call) hc
  rw [hcall] at hcalls
  simp at hcalls

end Saasmint
