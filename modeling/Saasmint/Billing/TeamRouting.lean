/-
Saasmint/Billing/TeamRouting.lean

The organization that a billing request of a user is routed to, where the user
belongs to several.

The listing, the default context, the check of `is_billing` and the purchase of
credits each look up a membership of their own: the first of the user, or the
first of the user with `is_billing`.  `first()` orders by the primary key, which
is a random UUID, so that any membership may be the first.  The requests are
routed to the organization that gives the authority exactly when every
membership that gives some is the first one of the user
(`routesTeams_iff`).
-/
import Saasmint.Billing.CheckoutSessions
import Saasmint.Billing.PlanScope

namespace Saasmint

open Programs PyStr

/-! ### Listing and refetch -/

/-- The customer of a row. -/
def BillingDb.customerOf (db : BillingDb) (row : Subscription) : Option StripeCustomer :=
  row.stripeCustomerId.bind db.getCustomerById

/-- `_get_active_subscriptions_for_user`. -/
def BillingDb.getActiveSubscriptionsForUser (db : BillingDb) (members : List OrgMember)
    (user : UUID) : List Subscription :=
  let base := db.subscriptions.rows.filter fun s => s.status.isActive
  let membership := (members.filter fun m => m.user = user).argmin OrgMember.id
  let teamSub := membership.bind fun m => Table.latest? Subscription.createdAt
    (base.filter fun s => (db.customerOf s).any fun c => c.owner = .org m.org)
  let latestPersonal := Table.latest? Subscription.createdAt
    (base.filter fun s =>
      s.userId = some user || (db.customerOf s).any fun c => c.owner = .user user)
  teamSub.toList ++ (latestPersonal.filter fun s => teamSub.all fun team => s.id ≠ team.id).toList

/-- `_refetch_subscription_after_mutation`. -/
def BillingDb.refetchSubscriptionAfterMutation (db : BillingDb) (members : List OrgMember)
    (user : UUID) (context : PlanContext) : Except ServiceError Subscription :=
  let subs := db.getActiveSubscriptionsForUser members user
  let ofOrg (s : Subscription) : Bool := (db.customerOf s).any fun c => c.owner.orgId.isSome
  require
    (match context with
    | .team => subs.find? ofOrg
    | .personal => subs.find? fun s => !ofOrg s)
    (.notFound "No active subscription found.")

/-! ### The mutations -/

/-- `_get_customer_and_paid_subscription`. -/
def getCustomerAndPaidSubscription (user : UUID) (resolved : PlanContext × Option UUID) :
    Service (StripeCustomer × Subscription × String) := do
  let w ← get
  let customer ← check (require (w.db.resolveBillingCustomer user resolved)
    (.notFound "No Stripe customer found."))
  let active ← loadActive customer.id (.notFound "No active subscription found.")
  return (customer, active)

section Views

variable (sb : StripeBehaviour) (now : Timestamp) (members : List OrgMember) (user : UUID)
  (context : Option String)

/-- `SubscriptionView.delete`, until the notice. -/
def SubscriptionView.delete : Service PUnit := do
  let resolved ← check (resolveMutationContext members user context)
  let paid ← getCustomerAndPaidSubscription user resolved
  cancelSubscription sb now paid.1.id true

/-- `ScheduledChangeView.delete`. -/
def ScheduledChangeView.delete : Service PUnit := do
  let resolved ← check (resolveMutationContext members user context)
  let paid ← getCustomerAndPaidSubscription user resolved
  releasePendingScheduleForCustomer sb now paid.1.id

end Views

/-- The requests that change a subscription. -/
inductive SubscriptionMutation
  | patch (data : UpdateSubscription)
  | delete
  | deleteScheduledChange
  deriving DecidableEq, Repr

def SubscriptionMutation.run (u : UnicodeTables) (sb : StripeBehaviour) (now : Timestamp)
    (members : List OrgMember) (user : UUID) (context : Option String) :
    SubscriptionMutation → Service PUnit
  | patch data => patchSubscription u sb now members user context data
  | delete => SubscriptionView.delete sb now members user context
  | deleteScheduledChange => ScheduledChangeView.delete sb now members user context

/-- A request with this context is about this subscription. -/
structure ActsOn (db : BillingDb) (members : List OrgMember) (user : UUID)
    (context : Option String) (resolved : PlanContext × Option UUID) (c : StripeCustomer)
    (row : Subscription) (sid : String) : Prop where
  routed : resolveMutationContext members user context = .ok resolved
  customer : db.resolveBillingCustomer user resolved = some c
  active : db.activeRow c.id = some (row, sid)

/-! ### Routing -/

/-- The user has `is_billing` in the organization. -/
def BillsFor (members : List OrgMember) (user org : UUID) : Prop :=
  ∃ m ∈ members, m.user = user ∧ m.isBilling = true ∧ m.org = org

def Owns (members : List OrgMember) (user org : UUID) : Prop :=
  ∃ m ∈ members, m.user = user ∧ m.role = .owner ∧ m.org = org

/-- The organization has an active subscription. -/
def BillingDb.HasTeamSubscription (db : BillingDb) (org : UUID) : Prop :=
  ∃ c ∈ db.customers, c.owner = .org org ∧ ∃ row sid, db.activeRow c.id = some (row, sid)

/-- The subscription is the user's, or that of an organization in which the user
has `is_billing`. -/
def BillingDb.MayMutate (db : BillingDb) (members : List OrgMember) (user : UUID)
    (sid : String) : Prop :=
  ∃ c ∈ db.customers, ∃ row, db.subscriptions.getByStripeId sid = some row ∧
    row.stripeCustomerId = some c.id ∧
    (c.owner = .user user ∨ ∃ org, c.owner = .org org ∧ BillsFor members user org)

/-- Only subscriptions in `P` have changed, and their rows. -/
def BillingWorld.ChangesOnly (w : BillingWorld) (P : String → Prop) (w' : BillingWorld) : Prop :=
  ∀ sid, ¬ P sid → w'.stripe sid = w.stripe sid ∧
    w'.db.subscriptions.getByStripeId sid = w.db.subscriptions.getByStripeId sid

/-- **The routing of a user's requests.** -/
structure RoutesTeams (w : BillingWorld) (members : List OrgMember) (user : UUID) : Prop where
  /-- The authority, the subscription that is changed and the one that is
  returned are of one organization, whatever the change has written. -/
  one_org : ∀ context org c row sid,
    ActsOn w.db members user context (.team, some org) c row sid →
      BillsFor members user org ∧ c.owner = .org org ∧
      ∀ db' : BillingDb, db'.customers = w.db.customers → ∀ row' sid',
        db'.activeRow c.id = some (row', sid') →
        db'.refetchSubscriptionAfterMutation members user .team = .ok row'
  /-- Leaving the context out is naming the one that it defaults to. -/
  default_context : ∀ resolved, resolveMutationContext members user none = .ok resolved →
    resolveMutationContext members user (some resolved.1.value) = .ok resolved
  /-- Who has `is_billing` is not refused. -/
  billing_member : ∀ m ∈ members, m.user = user → m.isBilling = true →
    w.db.HasTeamSubscription m.org → ∀ context, context = none ∨ context = some "team" →
      resolveMutationContext members user context = .ok (.team, some m.org)
  /-- An owner is not refused. -/
  owner : ∀ m ∈ members, m.user = user → m.role = .owner →
    ∀ context, context = none ∨ context = some .team →
      resolveProductPurchaseContext members user context = .ok (some m.org)
  /-- Nobody else changes a subscription. -/
  mutates_own : ∀ u sb now (mutation : SubscriptionMutation) context,
    wp (mutation.run u sb now members user context)
      (fun _ w' => w.ChangesOnly (w.db.MayMutate members user) w')
      (fun _ w' => w.ChangesOnly (w.db.MayMutate members user) w') w
  /-- Nobody else buys for an organization. -/
  purchases_own : ∀ context org,
    resolveProductPurchaseContext members user context = .ok (some org) → Owns members user org

/-- Every membership that gives an authority is the first of the user. -/
def AuthorityFirst (db : BillingDb) (members : List OrgMember) (user : UUID) : Prop :=
  ∀ m ∈ members, m.user = user →
    (m.isBilling = true ∧ db.HasTeamSubscription m.org) ∨ m.role = .owner →
    ∀ m' ∈ members, m'.user = user → m.id ≤ m'.id

/-- The unique columns that the lookups rely on. -/
structure RoutingConstraints (db : BillingDb) (members : List OrgMember) : Prop where
  member_pk : Table.Unique (fun m => some m.id) members
  org_members_org_user_uniq : Table.Unique (fun m => some (m.org, m.user)) members
  customer_pk : Table.Unique (fun c => some c.id) db.customers
  customer_owner : Table.Unique (fun c => some c.owner) db.customers

variable {u : UnicodeTables} {sb : StripeBehaviour} {now : Timestamp} {w w' : BillingWorld}
  {sid : String} {row : Subscription} {db : BillingDb} {members : List OrgMember} {user : UUID}

/-! ### What a mutation changes -/

/-- The database is as it was, and Stripe but for `sid`. -/
def BillingWorld.StripeOnly (w : BillingWorld) (sid : String) (w' : BillingWorld) : Prop :=
  w'.db = w.db ∧ ∀ other, other ≠ sid → w'.stripe other = w.stripe other

theorem stripeOnly_kept : KeptByCalls (w.StripeOnly sid) sid where
  record _ _ h := h
  setStripe w₁ sub h :=
    ⟨h.1, fun other hne => (w₁.setStripe_of_ne hne sub).trans (h.2 other hne)⟩

theorem BillingWorld.ChangesOnly.refl {P : String → Prop} : w.ChangesOnly P w :=
  fun _ _ => ⟨rfl, rfl⟩

theorem BillingWorld.ChangesOnly.of_only {P : String → Prop} (h : w.ChangesOnly (· = sid) w')
    (hsid : P sid) : w.ChangesOnly P w' :=
  fun other hother => h other fun heq => hother (heq ▸ hsid)

theorem BillingWorld.StripeOnly.changesOnly (h : w.StripeOnly sid w') :
    w.ChangesOnly (· = sid) w' :=
  fun other hne => ⟨h.2 other hne, by rw [h.1]⟩

/-- Saving an update of the row of `sid`. -/
theorem saveRow_changesOnly {new : Subscription} (h : w.StripeOnly sid w')
    (hrow : w.db.subscriptions.getByStripeId sid = some row) (hid : new.id = row.id)
    (hsid : new.stripeId = row.stripeId) (hcreated : new.createdAt = row.createdAt) :
    wp (saveRow now new) (fun _ w'' => w.ChangesOnly (· = sid) w'')
      (fun _ w'' => w.ChangesOnly (· = sid) w'') w' := by
  have hrow' : w'.db.subscriptions.getByStripeId sid = some row := by rw [h.1]; exact hrow
  apply wp_mono (saveRow_spec new hrow' hid hsid hcreated)
  · rintro - w'' ⟨hstripe, hsets⟩ other hne
    constructor
    · rw [hstripe]
      exact h.2 other hne
    · rw [hsets.others other hne, h.1]
  · exact fun _ _ h => h.elim

/-- A service whose calls are about `sid`, and a mirror of the answer. -/
theorem call_changesOnly {α : Type} {m : Service α} {f : α → Service PUnit}
    (hm : Keeps (w.StripeOnly sid) m)
    (hf : ∀ a w', w.StripeOnly sid w' → wp (f a) (fun _ w'' => w.ChangesOnly (· = sid) w'')
      (fun _ w'' => w.ChangesOnly (· = sid) w'') w')
    (h : w.StripeOnly sid w') :
    wp (m >>= f) (fun _ w'' => w.ChangesOnly (· = sid) w'')
      (fun _ w'' => w.ChangesOnly (· = sid) w'') w' := by
  rw [wp_bind]
  apply wp_mono (hm w' h)
  · exact fun a w'' h' => hf a w'' h'
  · exact fun _ w'' h' => h'.changesOnly

theorem mirroredCall_changesOnly {call : StripeCall}
    (hrow : w.db.subscriptions.getByStripeId sid = some row) (h : w.StripeOnly sid w') :
    wp (Stripe.change sb sid call (Stripe.setCancelState sb)
      >>= mirrorCancelStateFromStripe now row)
      (fun _ w'' => w.ChangesOnly (· = sid) w'') (fun _ w'' => w.ChangesOnly (· = sid) w'') w' := by
  apply call_changesOnly (stripeOnly_kept.change _ _) ?_ h
  exact fun sub w'' h' => saveRow_changesOnly h' hrow rfl rfl rfl

variable {c : StripeCustomer}

theorem cancelSubscription_changesOnly (hact : w.db.activeRow c.id = some (row, sid))
    (atPeriodEnd : Bool) :
    wp (cancelSubscription sb now c.id atPeriodEnd) (fun _ w' => w.ChangesOnly (· = sid) w')
      (fun _ w' => w.ChangesOnly (· = sid) w') w := by
  have hrow := activeRow_found hact
  have hmirror : ∀ w', w.StripeOnly sid w' →
      wp (if atPeriodEnd = true then
          Stripe.subscriptionModifyCancelAt sb sid "min_period_end" >>=
            mirrorCancelStateFromStripe now row
        else Stripe.subscriptionCancel sb sid >>= mirrorCancelStateFromStripe now row)
        (fun _ w' => w.ChangesOnly (· = sid) w') (fun _ w' => w.ChangesOnly (· = sid) w') w' := by
    intro w' h
    split
    · exact mirroredCall_changesOnly hrow h
    · exact mirroredCall_changesOnly hrow h
  rw [cancelSubscription, wp_bind, wp_loadActive, hact]
  dsimp only
  split
  · -- a pending change is released before the cancel
    exact call_changesOnly stripeOnly_kept.releasePendingSchedule (fun _ => hmirror)
      ⟨rfl, fun _ _ => rfl⟩
  · exact hmirror w ⟨rfl, fun _ _ => rfl⟩

theorem resumeSubscription_changesOnly (hact : w.db.activeRow c.id = some (row, sid)) :
    wp (resumeSubscription sb now c.id) (fun _ w' => w.ChangesOnly (· = sid) w')
      (fun _ w' => w.ChangesOnly (· = sid) w') w := by
  rw [resumeSubscription, wp_bind, wp_loadActive, hact]
  exact mirroredCall_changesOnly (activeRow_found hact) ⟨rfl, fun _ _ => rfl⟩

theorem releasePendingScheduleForCustomer_changesOnly
    (hact : w.db.activeRow c.id = some (row, sid)) :
    wp (releasePendingScheduleForCustomer sb now c.id) (fun _ w' => w.ChangesOnly (· = sid) w')
      (fun _ w' => w.ChangesOnly (· = sid) w') w := by
  rw [releasePendingScheduleForCustomer, wp_bind, wp_loadActive, hact]
  apply call_changesOnly stripeOnly_kept.releasePendingSchedule ?_ ⟨rfl, fun _ _ => rfl⟩
  intro _ w' h
  split
  · exact saveRow_changesOnly h (activeRow_found hact) rfl rfl rfl
  · exact h.changesOnly

theorem updateSeatCount_changesOnly {quantity : Int}
    (hrow : w.db.subscriptions.getByStripeId sid = some row) :
    wp (updateSeatCount sb now row quantity) (fun _ w' => w.ChangesOnly (· = sid) w')
      (fun _ w' => w.ChangesOnly (· = sid) w') w := by
  have hsid : row.stripeId = some sid := (SubscriptionTable.getByStripeId_eq_some_iff.mp hrow).2
  by_cases hq : quantity < 1
  · rw [updateSeatCount, if_pos hq]
    exact .refl
  rw [updateSeatCount_eq sb now hsid (by omega)]
  apply call_changesOnly stripeOnly_kept.subscriptionRetrieve ?_ ⟨rfl, fun _ _ => rfl⟩
  intro sub w' h
  split
  · exact h.changesOnly
  apply call_changesOnly (stripeOnly_kept.change _ _) ?_ h
  intro _ w'' h'
  split
  · exact saveRow_changesOnly h' hrow rfl rfl rfl
  · exact h'.changesOnly

/-- The rest of a PATCH, once its subscription is found. -/
theorem patchSubscription_changesOnly {context : Option String} {data : UpdateSubscription}
    {P : String → Prop}
    (hP : ∀ resolved c row sid, ActsOn w.db members user context resolved c row sid → P sid) :
    wp (patchSubscription u sb now members user context data)
      (fun _ w' => w.ChangesOnly P w') (fun _ w' => w.ChangesOnly P w') w := by
  have hsame : w.ChangesOnly P w := .refl
  rw [patchSubscription, wp_bind]
  apply wp_check_of (fun _ => hsame)
  intro _ _
  rw [wp_bind]
  apply wp_check_of (fun _ => hsame)
  intro resolved hresolved
  rw [wp_bind, wp_get, wp_bind]
  apply wp_check_of (fun _ => hsame)
  intro planPrice _
  rw [wp_bind]
  apply wp_check_of (fun _ => hsame)
  intro c hcustomer
  rw [wp_bind, wp_loadActive]
  rcases hact : w.db.activeRow c.id with - | ⟨row, sid⟩
  · exact hsame
  have hsid : P sid := hP resolved c row sid ⟨hresolved, require_eq_ok.mp hcustomer, hact⟩
  suffices hrest : wp _ (fun _ w' => w.ChangesOnly (· = sid) w')
      (fun _ w' => w.ChangesOnly (· = sid) w') w from
    wp_mono hrest (fun _ _ h => h.of_only hsid) fun _ _ h => h.of_only hsid
  dsimp only
  split
  · -- the toggle
    unfold applyCancelToggle
    split
    · exact cancelSubscription_changesOnly hact true
    · exact resumeSubscription_changesOnly hact
  · -- the plan
    rw [applyPlanChange, wp_bind, wp_get, wp_bind]
    apply wp_check_of fun _ => .refl
    intro price _
    rw [wp_bind]
    apply wp_check_of fun _ => .refl
    intro _ _
    apply wp_mono (stripeOnly_kept.changePlan _ _ _ _ w ⟨rfl, fun _ _ => rfl⟩)
    · exact fun _ _ h => h.changesOnly
    · exact fun _ _ h => h.changesOnly
  · -- the seats
    rw [applySeatOnly, wp_bind, wp_get, wp_bind]
    apply wp_check_of fun _ => .refl
    intro _ _
    rw [wp_bind]
    apply wp_check_of fun _ => .refl
    intro _ _
    rw [wp_bind]
    apply wp_check_of fun _ => .refl
    exact fun _ _ => updateSeatCount_changesOnly (activeRow_found hact)
  · exact .refl

/-- A request that resolves its context, finds its subscription, and runs a
service on the customer. -/
theorem paid_changesOnly {context : Option String} {m : StripeCustomer → Service PUnit}
    {P : String → Prop}
    (hm : ∀ c row sid, w.db.activeRow c.id = some (row, sid) →
      wp (m c) (fun _ w' => w.ChangesOnly (· = sid) w') (fun _ w' => w.ChangesOnly (· = sid) w') w)
    (hP : ∀ resolved c row sid, ActsOn w.db members user context resolved c row sid → P sid) :
    wp (do
        let resolved ← check (resolveMutationContext members user context)
        let paid ← getCustomerAndPaidSubscription user resolved
        m paid.1)
      (fun _ w' => w.ChangesOnly P w') (fun _ w' => w.ChangesOnly P w') w := by
  have hsame : w.ChangesOnly P w := .refl
  rw [wp_bind]
  apply wp_check_of (fun _ => hsame)
  intro resolved hresolved
  rw [wp_bind, getCustomerAndPaidSubscription, wp_bind, wp_get, wp_bind]
  apply wp_check_of (fun _ => hsame)
  intro c hcustomer
  rw [wp_bind, wp_loadActive]
  rcases hact : w.db.activeRow c.id with - | ⟨row, sid⟩
  · exact hsame
  have hsid : P sid := hP resolved c row sid ⟨hresolved, require_eq_ok.mp hcustomer, hact⟩
  show wp (m c) _ _ w
  exact wp_mono (hm c row sid hact) (fun _ _ h => h.of_only hsid) fun _ _ h => h.of_only hsid

/-- **A mutation changes the subscription that its context resolves to and no
other.** -/
theorem SubscriptionMutation.run_changesOnly (mutation : SubscriptionMutation)
    {context : Option String} {P : String → Prop}
    (hP : ∀ resolved c row sid, ActsOn w.db members user context resolved c row sid → P sid) :
    wp (mutation.run u sb now members user context)
      (fun _ w' => w.ChangesOnly P w') (fun _ w' => w.ChangesOnly P w') w := by
  cases mutation with
  | patch data => exact patchSubscription_changesOnly hP
  | delete =>
    apply paid_changesOnly (m := fun c => cancelSubscription sb now c.id true) ?_ hP
    exact fun c row sid hact => cancelSubscription_changesOnly hact true
  | deleteScheduledChange =>
    apply paid_changesOnly (m := fun c => releasePendingScheduleForCustomer sb now c.id) ?_ hP
    exact fun c row sid hact => releasePendingScheduleForCustomer_changesOnly hact

/-! ### Authority -/

/-- A team context comes with an organization in which the user has
`is_billing`. -/
theorem billsFor_of_resolve {context : Option String} {resolved : PlanContext × Option UUID}
    (h : resolveMutationContext members user context = .ok resolved) :
    (resolved.1 = .personal ∧ resolved.2 = none) ∨
      ∃ org, resolved = (.team, some org) ∧ BillsFor members user org := by
  obtain ⟨explicit, -, h⟩ := Loops.bind_eq_ok.mp h
  cases explicit with
  | some context =>
    obtain ⟨org, horg, h⟩ := Loops.bind_eq_ok.mp h
    cases h
    cases context with
    | personal =>
      cases horg
      exact Or.inl ⟨rfl, rfl⟩
    | team =>
      dsimp only [requireBillingAuthority] at horg
      split at horg
      · cases horg
      · rename_i m hm
        cases horg
        obtain ⟨hmem, hp⟩ := List.mem_filter.mp (List.argmin_mem hm)
        obtain ⟨huser, hbilling⟩ := of_decide_eq_true hp
        exact Or.inr ⟨m.org, rfl, m, hmem, huser, hbilling, rfl⟩
  | none =>
    dsimp only at h
    split at h
    · cases h
      exact Or.inl ⟨rfl, rfl⟩
    · rename_i m hm
      obtain ⟨hmem, huser⟩ := List.mem_filter.mp (List.argmin_mem hm)
      split at h
      · rename_i hbilling
        cases h
        exact Or.inr ⟨m.org, rfl, m, hmem, of_decide_eq_true huser, hbilling, rfl⟩
      · cases h

theorem owner_of_resolveBillingCustomer {org : UUID}
    (h : db.resolveBillingCustomer user (.team, some org) = some c) : c.owner = .org org := by
  have hfind : (db.customers.find? fun c => c.owner = .org org) = some c := h
  simpa using List.find?_some hfind

/-- The subscription that a mutation is about is one that the user may change. -/
theorem ActsOn.mayMutate {context : Option String} {resolved : PlanContext × Option UUID}
    (h : ActsOn db members user context resolved c row sid) : db.MayMutate members user sid := by
  refine ⟨c, mem_of_resolveBillingCustomer h.customer, row, activeRow_found h.active,
    activeRow_customer h.active, ?_⟩
  have hcustomer := h.customer
  rcases billsFor_of_resolve h.routed with ⟨hpersonal, -⟩ | ⟨org, rfl, hbills⟩
  · left
    obtain ⟨context, org⟩ := resolved
    obtain rfl : context = .personal := hpersonal
    have hfind : (db.customers.find? fun c => c.owner = .user user) = some c := hcustomer
    simpa using List.find?_some hfind
  · exact Or.inr ⟨org, owner_of_resolveBillingCustomer hcustomer, hbills⟩

/-! ### The first membership -/

variable {m : OrgMember}

/-- The lookup of any membership finds the first one. -/
theorem first_membership (hc : RoutingConstraints db members) (hm : m ∈ members)
    (huser : m.user = user) (hfirst : ∀ m' ∈ members, m'.user = user → m.id ≤ m'.id) :
    (members.filter fun m => m.user = user).argmin OrgMember.id = some m := by
  apply (Table.argmin_filter_eq_some_iff hc.member_pk).mpr
  refine ⟨hm, decide_eq_true huser, fun m' hm' hu => ?_⟩
  exact hfirst m' hm' (of_decide_eq_true hu)

/-- The lookup of a membership with `is_billing` finds it if it is the first. -/
theorem first_billing_membership (hc : RoutingConstraints db members) (hm : m ∈ members)
    (huser : m.user = user) (hbilling : m.isBilling = true)
    (hfirst : ∀ m' ∈ members, m'.user = user → m.id ≤ m'.id) :
    (members.filter fun m => m.user = user ∧ m.isBilling = true).argmin OrgMember.id = some m := by
  apply (Table.argmin_filter_eq_some_iff hc.member_pk).mpr
  refine ⟨hm, decide_eq_true ⟨huser, hbilling⟩, fun m' hm' hu => ?_⟩
  exact hfirst m' hm' (of_decide_eq_true hu).1

/-- Without a context the first membership decides. -/
theorem resolveMutationContext_none :
    resolveMutationContext members user none
      = ((members.filter fun m => m.user = user).argmin OrgMember.id).elim
          (.ok (.personal, none)) fun m =>
            if m.isBilling then .ok (.team, some m.org)
            else .error
              (.permissionDenied "Only billing members can modify the team subscription.") := by
  have hcontext : validateSubscriptionContext none = .ok none := rfl
  unfold resolveMutationContext
  rw [hcontext]
  cases (members.filter fun m => m.user = user).argmin OrgMember.id with
  | none => rfl
  | some m => rfl

/-- A first membership with `is_billing` is what a mutation is routed to. -/
theorem resolve_of_first (hc : RoutingConstraints db members) (hm : m ∈ members)
    (huser : m.user = user) (hbilling : m.isBilling = true)
    (hfirst : ∀ m' ∈ members, m'.user = user → m.id ≤ m'.id) {context : Option String}
    (hcontext : context = none ∨ context = some "team") :
    resolveMutationContext members user context = .ok (.team, some m.org) := by
  rcases hcontext with rfl | rfl
  · rw [resolveMutationContext_none, first_membership hc hm huser hfirst, Option.elim_some,
      if_pos hbilling]
  · show (requireBillingAuthority members user .team).map _ = _
    rw [requireBillingAuthority, first_billing_membership hc hm huser hbilling hfirst]
    rfl

theorem billsFor_of_team {context : Option String} {org : UUID}
    (h : resolveMutationContext members user context = .ok (.team, some org)) :
    BillsFor members user org := by
  rcases billsFor_of_resolve h with ⟨hpersonal, -⟩ | ⟨org', heq, hbills⟩
  · cases hpersonal
  · cases heq
    exact hbills

/-- The owner's membership, if it is the first, is what a purchase is routed to. -/
theorem purchase_of_first (hc : RoutingConstraints db members) (hm : m ∈ members)
    (huser : m.user = user) (howner : m.role = .owner)
    (hfirst : ∀ m' ∈ members, m'.user = user → m.id ≤ m'.id) {context : Option PlanContext}
    (hcontext : context = none ∨ context = some .team) :
    resolveProductPurchaseContext members user context = .ok (some m.org) := by
  unfold resolveProductPurchaseContext
  dsimp only
  rw [first_membership hc hm huser hfirst]
  rcases hcontext with rfl | rfl
  · show (if m.role ≠ .owner then _ else _) = _
    rw [if_neg (not_not.mpr howner)]
  · show (if m.role ≠ .owner then _ else _) = _
    rw [if_neg (not_not.mpr howner)]

/-- What a request without a context is routed to, where it is a team, is the
first membership. -/
theorem first_of_default (hc : RoutingConstraints db members) (hm : m ∈ members)
    (huser : m.user = user)
    (h : ∃ m₀, (members.filter fun m => m.user = user).argmin OrgMember.id = some m₀ ∧
      m₀.org = m.org) :
    ∀ m' ∈ members, m'.user = user → m.id ≤ m'.id := by
  obtain ⟨m₀, hfirst, horg⟩ := h
  obtain ⟨hm₀, huser₀, hle⟩ := (Table.argmin_filter_eq_some_iff hc.member_pk).mp hfirst
  have huser₀ : m₀.user = user := of_decide_eq_true huser₀
  have hkey : (m₀.org, m₀.user) = (m.org, m.user) := by rw [horg, huser₀, huser]
  obtain rfl : m₀ = m := hc.org_members_org_user_uniq.inj hm₀ hm (congrArg some hkey) rfl
  exact fun m' hm' hu => hle m' hm' (decide_eq_true hu)

theorem first_of_resolve {org : UUID}
    (h : resolveMutationContext members user none = .ok (.team, some org)) :
    ∃ m₀, (members.filter fun m => m.user = user).argmin OrgMember.id = some m₀ ∧
      m₀.isBilling = true ∧ m₀.org = org := by
  rw [resolveMutationContext_none] at h
  rcases hfirst : (members.filter fun m => m.user = user).argmin OrgMember.id with - | m₀
  · rw [hfirst] at h
    cases h
  · rw [hfirst, Option.elim_some] at h
    split at h
    · rename_i hbilling
      cases h
      exact ⟨m₀, hfirst, hbilling, rfl⟩
    · cases h

theorem first_of_purchase {org : UUID}
    (h : resolveProductPurchaseContext members user (some .team) = .ok (some org)) :
    ∃ m₀, (members.filter fun m => m.user = user).argmin OrgMember.id = some m₀ ∧
      m₀.org = org := by
  unfold resolveProductPurchaseContext at h
  dsimp only [Option.getD_some] at h
  split at h
  · cases h
  · rename_i m₀ hfirst
    split at h
    · cases h
    · cases h
      exact ⟨m₀, hfirst, rfl⟩

/-! ### The refetch -/

/-- A row is of the customer's owner exactly when it is of the customer. -/
theorem customerOf_any_iff (hc : RoutingConstraints db members) (hmem : c ∈ db.customers)
    (s : Subscription) :
    ((db.customerOf s).any fun c' => c'.owner = c.owner) = true
      ↔ s.stripeCustomerId = some c.id := by
  have hfind : ∀ id c', db.getCustomerById id = some c' ↔
      c' ∈ db.customers ∧ some c'.id = some id := by
    intro id c'
    have := Table.find?_eq_some_iff (v := id) (a := c') hc.customer_pk
    simpa [BillingDb.getCustomerById] using this
  constructor
  · intro h
    obtain ⟨c', hc', howner⟩ := (Option.any_eq_true _ _).mp h
    have howner : c'.owner = c.owner := of_decide_eq_true howner
    obtain ⟨id, hid, hc'⟩ := Option.bind_eq_some_iff.mp hc'
    obtain ⟨hmem', hid'⟩ := (hfind id c').mp hc'
    obtain rfl : c' = c := hc.customer_owner.inj hmem' hmem (congrArg some howner) rfl
    rw [hid, hid']
  · intro h
    have : db.customerOf s = some c := by
      rw [BillingDb.customerOf, h]
      exact (hfind c.id c).mpr ⟨hmem, rfl⟩
    rw [this]
    simp

/-- **The refetch.**  Where the first membership of the user is in the
organization of the customer, the team subscription that is returned is the
customer's active one. -/
theorem refetch_of_first (hc : RoutingConstraints db members) (hmem : c ∈ db.customers)
    (hfirst : (members.filter fun m => m.user = user).argmin OrgMember.id = some m)
    (howner : c.owner = .org m.org) (hactive : db.activeRow c.id = some (row, sid)) :
    db.refetchSubscriptionAfterMutation members user .team = .ok row := by
  have hofOrg : ∀ s : Subscription, s.stripeCustomerId = some c.id →
      ((db.customerOf s).any fun c => c.owner.orgId.isSome) = true := by
    intro s hs
    obtain ⟨c', hc', howner'⟩ := (Option.any_eq_true _ _).mp ((customerOf_any_iff hc hmem s).mpr hs)
    have howner' : c'.owner = c.owner := of_decide_eq_true howner'
    rw [hc', Option.any_some, howner', howner]
    rfl
  -- the rows of the organization are those of its customer
  have hrows : ((db.subscriptions.rows.filter fun s => s.status.isActive).filter fun s =>
      (db.customerOf s).any fun c => c.owner = .org m.org)
      = db.subscriptions.rows.filter fun s =>
        s.stripeCustomerId = some c.id && s.status.isActive := by
    rw [List.filter_filter]
    apply List.filter_congr
    intro s _
    have := customerOf_any_iff hc hmem s
    rw [howner] at this
    rw [Bool.eq_iff_iff, Bool.and_eq_true, Bool.and_eq_true, this, decide_eq_true_iff]
  obtain ⟨active, hlatest, hrow⟩ := Option.bind_eq_some_iff.mp hactive
  obtain ⟨id, hid, heq⟩ := Option.map_eq_some_iff.mp hrow
  obtain ⟨rfl, rfl⟩ := Prod.mk.inj heq
  have hlatest : Table.latest? Subscription.createdAt (db.subscriptions.rows.filter fun s =>
    s.stripeCustomerId = some c.id && s.status.isActive) = some active := hlatest
  obtain ⟨rest, hteam⟩ : ∃ rest, db.getActiveSubscriptionsForUser members user
    = active :: rest := by
    unfold BillingDb.getActiveSubscriptionsForUser
    dsimp only
    rw [hfirst, Option.bind_some, hrows, hlatest]
    exact ⟨_, rfl⟩
  unfold BillingDb.refetchSubscriptionAfterMutation
  dsimp only
  rw [hteam, List.find?_cons, hofOrg active (activeRow_customer hactive)]
  rfl

/-! ### When requests are routed right -/

/-- The default context names the same subscription. -/
theorem resolve_default (hc : RoutingConstraints db members)
    {resolved : PlanContext × Option UUID}
    (h : resolveMutationContext members user none = .ok resolved) :
    resolveMutationContext members user (some resolved.1.value) = .ok resolved := by
  rcases billsFor_of_resolve h with ⟨hpersonal, hnone⟩ | ⟨org, rfl, -⟩
  · obtain ⟨context, org⟩ := resolved
    obtain rfl : context = .personal := hpersonal
    obtain rfl : org = none := hnone
    rfl
  · obtain ⟨m, hfirst, hbilling, rfl⟩ := first_of_resolve h
    obtain ⟨hm, huser, hle⟩ := (Table.argmin_filter_eq_some_iff hc.member_pk).mp hfirst
    apply resolve_of_first hc hm (of_decide_eq_true huser) hbilling ?_ (Or.inr rfl)
    exact fun m' hm' hu => hle m' hm' (decide_eq_true hu)

/-- **Requests are routed to the organization that gives the authority exactly
when every membership that gives some is the first of the user.** -/
theorem routesTeams_iff (hc : RoutingConstraints w.db members) :
    RoutesTeams w members user ↔ AuthorityFirst w.db members user := by
  constructor
  · intro h m hm huser hauthority
    apply first_of_default hc hm huser
    rcases hauthority with ⟨hbilling, hteam⟩ | howner
    · obtain ⟨m₀, hfirst, -, horg⟩ :=
        first_of_resolve (h.billing_member m hm huser hbilling hteam none (Or.inl rfl))
      exact ⟨m₀, hfirst, horg⟩
    · exact first_of_purchase (h.owner m hm huser howner (some .team) (Or.inr rfl))
  · intro h
    constructor
    · intro context org c row sid hacts
      have hbills := billsFor_of_team hacts.routed
      have howner := owner_of_resolveBillingCustomer hacts.customer
      have hmem := mem_of_resolveBillingCustomer hacts.customer
      refine ⟨hbills, howner, fun db' hcustomers row' sid' hactive => ?_⟩
      -- the organization has a subscription, so the membership is the first
      obtain ⟨m, hm, huser, hbilling, rfl⟩ := hbills
      have hteam : w.db.HasTeamSubscription m.org := ⟨c, hmem, howner, row, sid, hacts.active⟩
      have hfirst := h m hm huser (Or.inl ⟨hbilling, hteam⟩)
      have hc' : RoutingConstraints db' members :=
        ⟨hc.member_pk, hc.org_members_org_user_uniq, hcustomers ▸ hc.customer_pk,
          hcustomers ▸ hc.customer_owner⟩
      exact refetch_of_first hc' (hcustomers ▸ hmem) (first_membership hc hm huser hfirst) howner
        hactive
    · exact fun resolved => resolve_default hc
    · intro m hm huser hbilling hteam context hcontext
      exact resolve_of_first hc hm huser hbilling (h m hm huser (Or.inl ⟨hbilling, hteam⟩)) hcontext
    · intro m hm huser howner context hcontext
      exact purchase_of_first hc hm huser howner (h m hm huser (Or.inr howner)) hcontext
    · intro u sb now mutation context
      exact mutation.run_changesOnly fun _ _ _ _ hacts => hacts.mayMutate
    · exact fun context org => mem_of_resolveProductPurchaseContext

/-! ### A member who owns another organization -/

/-- The row of a team subscription names no user. -/
def teamRow : Subscription := { sampleRow with userId := none }

/-- The sample subscription, on the customer of organization 9. -/
def teamWorld : BillingWorld :=
  { sampleWorld with
    db := { sampleRowDb with
      customers := [⟨3, "cus_1", .org 9⟩]
      subscriptions := ⟨[teamRow], by decide, by decide⟩ } }

/-- User 4 owns organization 9, and is a member of organization 8. -/
def ownerFirst : List OrgMember := [⟨1, 9, 4, .owner, true⟩, ⟨2, 8, 4, .member, false⟩]

/-- The same memberships, under other ids. -/
def memberFirst : List OrgMember := [⟨1, 8, 4, .member, false⟩, ⟨2, 9, 4, .owner, true⟩]

theorem teamWorld_constraints (members : List OrgMember)
    (h : members = ownerFirst ∨ members = memberFirst) :
    RoutingConstraints teamWorld.db members := by
  rcases h with rfl | rfl
  · exact ⟨by decide, by decide, by decide, by decide⟩
  · exact ⟨by decide, by decide, by decide, by decide⟩

theorem routesTeams_iff_ownerFirst :
    RoutesTeams teamWorld ownerFirst 4 ↔ AuthorityFirst teamWorld.db ownerFirst 4 :=
  routesTeams_iff (teamWorld_constraints ownerFirst (Or.inl rfl))

/-- The owner with `is_billing` of an organization with an active subscription
is refused without a context and for credits; with the context the cancellation
is scheduled, and the response is a 404. -/
theorem owner_refused_elsewhere :
    teamWorld.db.HasTeamSubscription 9 ∧
    resolveMutationContext memberFirst 4 none = .error
      (.permissionDenied "Only billing members can modify the team subscription.") ∧
    (∃ w', patchSubscription asciiTables sampleBehaviour 120 memberFirst 4 (some "team")
        ⟨none, true, none, some true⟩ teamWorld = .ok ⟨⟩ w' ∧
      w'.issued.map IssuedCall.call = [.subscriptionModifyCancelAt "sub_1" "min_period_end"] ∧
      w'.db.refetchSubscriptionAfterMutation memberFirst 4 .team
        = .error (.notFound "No active subscription found.")) ∧
    resolveProductPurchaseContext memberFirst 4 (some .team) = .error
      (.permissionDenied "Only the org owner can purchase credits for the team.") ∧
    ¬ RoutesTeams teamWorld memberFirst 4 := by
  have hteam : teamWorld.db.HasTeamSubscription 9 :=
    ⟨⟨3, "cus_1", .org 9⟩, by decide, rfl, teamRow, "sub_1", rfl⟩
  refine ⟨hteam, rfl, ⟨_, eq_ok_final (by decide), by decide, by decide⟩, rfl, fun h => ?_⟩
  have hrouted :=
    h.billing_member ⟨2, 9, 4, .owner, true⟩ (by decide) rfl rfl hteam none (Or.inl rfl)
  cases hrouted

end Saasmint
