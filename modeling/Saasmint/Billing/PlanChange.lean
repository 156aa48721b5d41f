/-
Saasmint/Billing/PlanChange.lean

The PATCH of a subscription (`SubscriptionView.patch` in apps/billing/views.py):
which customer it is about, its checks, and the plan and quantity it installs at
Stripe.

Refusals of the framework (the type of a field, a missing row of a foreign key)
are not modelled, nor is the response.
-/
import Saasmint.Billing.Lifecycle
import Saasmint.Billing.Pricing
import Saasmint.Orgs.Models

namespace Saasmint

open Programs PyStr

variable (u : UnicodeTables) (sb : StripeBehaviour) (now : Timestamp)

/-! ### The request -/

/-- The body of the PATCH. -/
structure UpdateSubscription where
  planPriceId : Option UUID
  prorate : Bool
  seatLimit : Option Int
  cancelAtPeriodEnd : Option Bool
  deriving DecidableEq, Repr

/-- `UpdateSubscriptionSerializer`. -/
def UpdateSubscription.validate (data : UpdateSubscription) : Except ServiceError PUnit :=
  let hasPlanChange := data.planPriceId.isSome || data.seatLimit.isSome
  let hasCancelToggle := data.cancelAtPeriodEnd.isSome
  if data.seatLimit.any (· < 1) then
    .error (.validation (some "seat_limit") "Ensure this value is greater than or equal to 1.")
  else if data.seatLimit.any (· > 10000) then
    .error (.validation (some "seat_limit") "Ensure this value is less than or equal to 10000.")
  else if !hasPlanChange && !hasCancelToggle then
    .error (.validation none
      "At least one of 'plan_price_id', 'seat_limit', or 'cancel_at_period_end' is required.")
  else if hasCancelToggle && hasPlanChange then
    .error (.validation none
      "'cancel_at_period_end' cannot be combined with 'plan_price_id' or 'seat_limit'.")
  else .ok ⟨⟩

/-- `_validate_subscription_context`. -/
def validateSubscriptionContext (value : Option String) :
    Except ServiceError (Option PlanContext) :=
  match value with
  | none | some "" => .ok none
  | some "team" => .ok (some .team)
  | some "personal" => .ok (some .personal)
  | some _ => .error (.validation (some "context") "Must be 'personal' or 'team'.")

/-- `_require_billing_authority`: the organization, if the context is a team. -/
def requireBillingAuthority (members : List OrgMember) (user : UUID) :
    PlanContext → Except ServiceError (Option UUID)
  | .personal => .ok none
  | .team =>
    match (members.filter fun m => m.user = user ∧ m.isBilling = true).argmin OrgMember.id with
    | none =>
      .error (.permissionDenied "Only billing members can modify the team subscription.")
    | some m => .ok (some m.org)

/-- `_resolve_mutation_context`. -/
def resolveMutationContext (members : List OrgMember) (user : UUID) (context : Option String) :
    Except ServiceError (PlanContext × Option UUID) := do
  match ← validateSubscriptionContext context with
  | some explicit => return (explicit, ← requireBillingAuthority members user explicit)
  | none =>
    match (members.filter fun m => m.user = user).argmin OrgMember.id with
    | none => return (.personal, none)
    | some m =>
      if m.isBilling then return (.team, some m.org)
      else throw (.permissionDenied "Only billing members can modify the team subscription.")

/-- `_resolve_billing_customer`, where a team context comes with its
organization. -/
def BillingDb.resolveBillingCustomer (db : BillingDb) (user : UUID) :
    PlanContext × Option UUID → Option StripeCustomer
  | (.team, some org) => db.customers.find? fun c => c.owner = .org org
  | (.team, none) => none
  | (.personal, _) => db.customers.find? fun c => c.owner = .user user

/-! ### Checks -/

/-- The context of a plan. -/
def CatalogTables.planContext (t : CatalogTables) (planId : UUID) : Option PlanContext :=
  (t.plans.find? fun p => p.id = planId).map Plan.context

/-- `MIN_TEAM_SEATS`. -/
def minTeamSeats : Int := 1

/-- `_validate_quantity_for_context`. -/
def validateQuantityForContext (context : PlanContext) (quantity : Int) :
    Except ServiceError PUnit :=
  match context with
  | .personal =>
    if quantity ≠ 1 then
      .error (.validation none "Personal plans do not support multiple seats.")
    else .ok ⟨⟩
  | .team =>
    if quantity < minTeamSeats then
      .error (.validation none "Team plans require at least 1 seats.")
    else .ok ⟨⟩

/-- `_reject_seat_limit_below_member_count`. -/
def rejectSeatLimitBelowMemberCount (members : List OrgMember) (org : UUID) (seatLimit : Int) :
    Except ServiceError PUnit :=
  if seatLimit < (members.filter fun m => m.org = org).length then .error .seatsBelowMemberCount
  else .ok ⟨⟩

/-- The member count of a request for an organization that names seats. -/
def checkMemberCount (members : List OrgMember) (org : Option UUID) (seatLimit : Option Int) :
    Except ServiceError PUnit :=
  match org, seatLimit with
  | some org, some seatLimit => rejectSeatLimitBelowMemberCount members org seatLimit
  | _, _ => .ok ⟨⟩

/-- A check, as a step of a service. -/
def check {α : Type} (x : Except ServiceError α) : Service α := fun w =>
  match x with
  | .error e => .error e w
  | .ok a => .ok a w

/-- A `ValidationError` of the price resolvers, as the view raises it. -/
def priceCheck {α : Type} (x : Except ValidationError α) : Except ServiceError α :=
  x.mapError fun e => .validation (some e.field) e.message

/-- A row of a foreign key; `none` is `DoesNotExist`. -/
def require {α : Type} (x : Option α) (e : ServiceError) : Except ServiceError α :=
  match x with
  | none => .error e
  | some a => .ok a

theorem wp_check {α : Type} {w : BillingWorld} {x : Except ServiceError α}
    {Q : α → BillingWorld → Prop} {E : ServiceError → BillingWorld → Prop} :
    wp (check x) Q E w ↔
      match x with
      | .error e => E e w
      | .ok a => Q a w := by
  unfold wp check
  rcases x with e | a <;> rfl

/-- What is proved of both results of a check holds after it. -/
theorem wp_check_of {α : Type} {w : BillingWorld} {x : Except ServiceError α}
    {Q : α → BillingWorld → Prop} {E : ServiceError → BillingWorld → Prop} (hE : ∀ e, E e w)
    (hQ : ∀ a, x = .ok a → Q a w) :
    wp (check x) Q E w := by
  rw [wp_check]
  rcases h : x with e | a
  · exact hE e
  · exact hQ a h

theorem require_eq_ok {α : Type} {x : Option α} {e : ServiceError} {a : α} :
    require x e = .ok a ↔ x = some a := by
  cases x <;> simp [require]

/-! ### The view -/

/-- `_get_active_plan_price`, with the plan of the price. -/
def activePlanPrice (t : CatalogTables) (planPriceId : UUID) :
    Except ServiceError (LoadedPrice × UUID) :=
  match getActivePlanPrice t planPriceId none with
  | some ⟨.plan pp, rows⟩ => .ok (⟨.plan pp, rows⟩, pp.planId)
  | _ => .error (.notFound "Invalid plan price.")

/-- `_apply_plan_change`. -/
def applyPlanChange (members : List OrgMember) (sub : Subscription) (sid : String)
    (planPrice : LoadedPrice × UUID) (seatLimit : Option Int) (prorate : Bool)
    (org : Option UUID) : Service PUnit := do
  let w ← get
  let (newPriceId, newPriceAmount) ←
    check (priceCheck (resolvePlanChangePrice w.db.catalog planPrice.1 sub.currency))
  check (checkMemberCount members org seatLimit)
  changePlan u sb sid ⟨newPriceId, planPrice.2⟩ (some newPriceAmount) prorate seatLimit

/-- `_apply_seat_only`. -/
def applySeatOnly (members : List OrgMember) (sub : Subscription) (seatLimit : Int)
    (org : Option UUID) : Service PUnit := do
  let w ← get
  let context ← check (require (w.db.catalog.planContext sub.planId)
    (.notFound "Plan matching query does not exist."))
  check (validateQuantityForContext context seatLimit)
  check (checkMemberCount members org (some seatLimit))
  updateSeatCount sb now sub seatLimit

/-- `_apply_cancel_toggle`. -/
def applyCancelToggle (customer : StripeCustomer) (cancelAtPeriodEnd : Bool) : Service PUnit :=
  if cancelAtPeriodEnd then cancelSubscription sb now customer.id true
  else resumeSubscription sb now customer.id

/-- The named price, and the check of its plan against the named seats. -/
def planPriceOf (t : CatalogTables) (data : UpdateSubscription) :
    Except ServiceError (Option (LoadedPrice × UUID)) := do
  match data.planPriceId with
  | none => return none
  | some planPriceId =>
    let planPrice ← activePlanPrice t planPriceId
    match data.seatLimit with
    | none => return some planPrice
    | some seatLimit =>
      -- `_validate_quantity_for_plan`
      let context ← require (t.planContext planPrice.2)
        (.notFound "Plan matching query does not exist.")
      validateQuantityForContext context seatLimit
      return some planPrice

/-- `SubscriptionView.patch`, until the response. -/
def patchSubscription (members : List OrgMember) (user : UUID) (context : Option String)
    (data : UpdateSubscription) : Service PUnit := do
  check data.validate
  let resolved ← check (resolveMutationContext members user context)
  let w ← get
  let planPrice ← check (planPriceOf w.db.catalog data)
  let customer ← check (require (w.db.resolveBillingCustomer user resolved)
    (.notFound "No Stripe customer found."))
  let (sub, sid) ← loadActive customer.id (.notFound "No active subscription found.")
  match data.cancelAtPeriodEnd, planPrice, data.seatLimit with
  | some cancelAtPeriodEnd, _, _ => applyCancelToggle sb now customer cancelAtPeriodEnd
  | none, some planPrice, seatLimit =>
    applyPlanChange u sb members sub sid planPrice seatLimit data.prorate resolved.2
  | none, none, some seatLimit => applySeatOnly sb now members sub seatLimit resolved.2
  | none, none, none => return

end Saasmint
