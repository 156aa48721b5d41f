/-
Saasmint/Orgs/TeamCheckout.lean

The team checkout and the events of the subscription that it pays for.

Stripe may deliver the created and updated events of a team subscription before
the checkout that makes its customer known.  They fail for good; the checkout
retrieves the subscription as it is by then, and each later event writes its own
version.  So the row is always at least as new as the last event that was
processed (`TeamInv`), and at the end it is the newest version
(`team_checkout_iff`), provided that the organization can be stored: a slug
that is made unique by a suffix can be too long for its column.
-/
import Saasmint.Orgs.Events
import Saasmint.Billing.Delivery
import Saasmint.Billing.PinnedCalls
import Saasmint.Lib.Loops
import Saasmint.Lib.Runs

namespace Saasmint

open Programs PyStr

variable {p : Platform} (u : UnicodeTables)

/-! ### Rows -/

/-- Customers and subscriptions refer to rows that are there. -/
structure OrgTables.Linked (t : OrgTables) : Prop where
  customer_org : ∀ c ∈ t.customers, ∀ k, c.owner = .org k → ∃ o ∈ t.orgs, o.id = k
  subscription_customer : ∀ s ∈ t.subscriptions, ∀ k, s.stripeCustomerId = some k →
    ∃ c ∈ t.customers, c.id = k

/-- The rows of a checkout meet the constraints when the buyer owns no
organization, the customer is unknown and the slug is free. -/
theorem OrgTables.Constraints.insertOrg {t : OrgTables} (h : t.Constraints p)
    (hcustomers : ∀ c ∈ t.customers, ∀ k, c.owner = .org k → ∃ o ∈ t.orgs, o.id = k)
    {user : UUID} {name slug stripeCustomerId : String} (huser : ∃ x ∈ t.users, x.id = user)
    (howns : ∀ m ∈ t.members, m.ownedBy ≠ some user)
    (hunknown : ∀ c ∈ t.customers, c.stripeId ≠ stripeCustomerId)
    (hslug : slug ∉ t.orgs.map Org.slug) :
    (t.insertOrg user name slug stripeCustomerId).Constraints p := by
  have happend {α κ : Type} {g : α → Option κ} {l : List α} {new : α} (hl : Table.Unique g l)
      {v : κ} (hnew : g new = some v) (hfree : ∀ b ∈ l, g b ≠ some v) :
      Table.Unique g (l ++ [new]) :=
    Table.unique_append hl fun b hb w hw => by
      obtain rfl := Option.some.inj (hnew.symm.trans hw)
      exact hfree b hb
  -- keys from `nextKey` on are free
  have hne {k : UUID} (hk : k < t.nextKey) (n : Nat) : some k ≠ some (t.nextKey + n) := fun he =>
    absurd (Option.some.inj he) (Nat.ne_of_lt (Nat.lt_of_lt_of_le hk (Nat.le_add_right ..)))
  have hlt {k : UUID} (hk : k < t.nextKey) : k < t.nextKey + 3 := Nat.lt_add_right 3 hk
  have horg : ∀ o ∈ t.orgs, o.id ≠ t.nextKey := fun o ho => Nat.ne_of_lt (h.new_org o ho)
  refine { h with
    org_pk := happend h.org_pk rfl fun b hb => hne (h.new_org b hb) 0
    org_slug := happend h.org_slug rfl fun b hb hs =>
      hslug (List.mem_map.mpr ⟨b, hb, Option.some.inj hs⟩)
    member_pk := happend h.member_pk rfl fun b hb => hne (h.new_member b hb) 1
    org_members_org_user_uniq := happend h.org_members_org_user_uniq rfl fun b hb hs => ?membership
    uniq_org_owner_per_user := happend h.uniq_org_owner_per_user (if_pos rfl) howns
    ck_org_owner_must_be_billing := ?billing
    customer_pk := happend h.customer_pk rfl fun b hb => hne (h.new_customer b hb) 2
    customer_stripe_id := happend h.customer_stripe_id rfl fun b hb hs =>
      hunknown b hb (Option.some.inj hs)
    customer_owner := happend h.customer_owner rfl fun b hb hs => ?owner
    member_org := ?memberOrg
    member_user := ?memberUser
    created_by := ?createdBy
    invitation_org := ?invitation
    new_user := fun x hx => hlt (h.new_user x hx)
    new_org := ?newOrg
    new_member := ?newMember
    new_invitation := fun i hi => hlt (h.new_invitation i hi)
    new_customer := ?newCustomer }
  case membership =>
    obtain ⟨o, ho, hid⟩ := h.member_org b hb
    exact horg o ho (hid.trans (congrArg Prod.fst (Option.some.inj hs)))
  case owner =>
    obtain ⟨o, ho, hid⟩ := hcustomers b hb _ (Option.some.inj hs)
    exact horg o ho hid
  all_goals intro x hx
  case invitation =>
    obtain ⟨o, ho, hid⟩ := h.invitation_org x hx
    exact ⟨o, List.mem_append_left _ ho, hid⟩
  all_goals rcases List.mem_append.mp hx with hx | hx
  case billing.inl => exact h.ck_org_owner_must_be_billing x hx
  case billing.inr =>
    rw [List.mem_singleton.mp hx]
    exact fun _ => rfl
  case memberOrg.inl =>
    obtain ⟨o, ho, hid⟩ := h.member_org x hx
    exact ⟨o, List.mem_append_left _ ho, hid⟩
  case memberOrg.inr =>
    rw [List.mem_singleton.mp hx]
    exact ⟨_, List.mem_append_right _ (List.mem_singleton.mpr rfl), rfl⟩
  case memberUser.inl => exact h.member_user x hx
  case memberUser.inr =>
    rw [List.mem_singleton.mp hx]
    exact huser
  case createdBy.inl => exact h.created_by x hx
  case createdBy.inr =>
    rw [List.mem_singleton.mp hx]
    rintro k ⟨⟩
    exact huser
  case newOrg.inl => exact hlt (h.new_org x hx)
  case newMember.inl => exact hlt (h.new_member x hx)
  case newCustomer.inl => exact hlt (h.new_customer x hx)
  case newOrg.inr =>
    rw [List.mem_singleton.mp hx]
    exact Nat.lt_add_of_pos_right (by decide)
  case newMember.inr =>
    rw [List.mem_singleton.mp hx]
    exact Nat.add_lt_add_left (by decide : 1 < 3) t.nextKey
  case newCustomer.inr =>
    rw [List.mem_singleton.mp hx]
    exact Nat.add_lt_add_left (by decide : 2 < 3) t.nextKey

/-! ### The purchase -/

/-- The columns that a sync of `d` writes once its customer is known. -/
def SubscriptionData.fieldsIn (catalog : CatalogTables) (d : SubscriptionData) :
    Option Mirrored := do
  let item ← d.items.head?
  let (periodStart, periodEnd) ← (extractPeriodWindow d item).toOption
  let planPrice ← catalog.getPriceByStripeId item.priceId
  let status ← SubscriptionStatus.ofValue d.status
  return d.mirrored u item status planPrice.planId periodStart periodEnd

theorem syncedFields_eq (db : BillingDb) (d : SubscriptionData) :
    syncedFields u db d = (db.getCustomerByStripeId d.customer).bind fun c =>
      (d.fieldsIn u db.catalog).map fun m => (c, m) := by
  unfold syncedFields SubscriptionData.fieldsIn
  rcases d.items.head? with - | item
  · simp
  rcases hwindow : (extractPeriodWindow d item).toOption with - | window
  · simp [hwindow]
  rcases db.getCustomerByStripeId d.customer with - | customer
  · simp [hwindow]
  rcases hprice : db.catalog.getPriceByStripeId item.priceId with - | planPrice
  · simp [hwindow, hprice]
  rcases SubscriptionStatus.ofValue d.status with - | status <;> simp [hwindow, hprice]

/-- A version of the subscription `sid` of the customer `stripeCustomerId`, whose
price is one of the catalog, with the columns that it stands for. -/
structure TeamVersion (catalog : CatalogTables) (sid stripeCustomerId : String) where
  data : SubscriptionData
  fields : Mirrored
  id_eq : data.id = sid
  customer_eq : data.customer = stripeCustomerId
  known : data.fieldsIn u catalog = some fields

/-- A paid team checkout: its session, and the versions of its subscription in
order. -/
structure TeamPurchase (catalog : CatalogTables) where
  user : UUID
  orgName : String
  stripeCustomerId : String
  sid : String
  keepPersonal : Bool
  session : SessionData
  session_callbacks : checkoutCallbacks session = .ok [.onTeamCheckoutCompleted user orgName
    stripeCustomerId session.livemode (some sid) keepPersonal]
  versions : List (TeamVersion u catalog sid stripeCustomerId)
  versions_ne : versions ≠ []

variable {u} {catalog : CatalogTables} (b : TeamPurchase u catalog)

/-- The event of a version. -/
def TeamVersion.event {sid cus : String} (v : TeamVersion u catalog sid cus) (created : Bool) :
    Event :=
  if created then .customerSubscriptionCreated v.data else .customerSubscriptionUpdated v.data

/-- Before the first event: the buyer has an account and owns no organization,
and the customer is unknown. -/
structure TeamPurchase.Starts (w : AppWorld p) : Prop where
  catalog_eq : w.store.catalog = catalog
  linked : w.store.org.Linked
  user_exists : ∃ x ∈ w.store.org.users, x.id = b.user
  owns_no_org : ∀ m ∈ w.store.org.members, m.ownedBy ≠ some b.user
  unknown : ∀ c ∈ w.store.org.customers, c.stripeId ≠ b.stripeCustomerId

/-- The organization of the checkout has a slug that fits its column, and so
does its name. -/
def TeamPurchase.Fits (w : AppWorld p) : Prop :=
  b.orgName.length ≤ maxOrgText ∧ (w.slugFor b.orgName).length ≤ maxOrgText

/-! ### Schedules -/

/-- What has been processed: so many events of the subscription, and the checkout
or not yet. -/
structure TeamState (p : Platform) where
  world : AppWorld p
  processed : Nat
  checkedOut : Bool

def TeamState.init (w : AppWorld p) : TeamState p := ⟨w, 0, false⟩

inductive TeamStep
  /-- The event of the next version. -/
  | subscriptionEvent (created : Bool) (now : Timestamp)
  /-- The checkout event, for the first time or again, with the version that
  Stripe has by then. -/
  | checkout (current : Nat) (now : Timestamp)
  deriving DecidableEq, Repr

variable (sb : StripeBehaviour)

/-- Events are processed one at a time; one that fails is not processed again,
except that the checkout may be. -/
def teamStep (s : TeamState p) : TeamStep → Option (TeamState p)
  | .subscriptionEvent created now =>
    b.versions[s.processed]?.map fun v =>
      { s with
        world := final (processEvent u sb now (fun _ => none) (v.event created)) s.world
        processed := s.processed + 1 }
  | .checkout current now =>
    -- Stripe has every version whose event it has delivered
    if s.processed ≤ current + 1 then
      b.versions[current]?.map fun v =>
        { s with
          world := final (processEvent u sb now (fun id => if id = b.sid then some v.data else none)
            (.checkoutSessionCompleted b.session)) s.world
          checkedOut := true }
    else none

/-- The rows that the checkout has added to those of `w₀`. -/
structure TeamPurchase.Rows (w₀ w : Store p) (org : Org) (owner : OrgMember)
    (customer : StripeCustomer) : Prop where
  catalog : w.catalog = w₀.catalog
  users : w.org.users = w₀.org.users
  orgs : w.org.orgs = w₀.org.orgs ++ [org]
  members : w.org.members = w₀.org.members ++ [owner]
  customers : w.org.customers = w₀.org.customers ++ [customer]
  org_name : org.name = b.orgName
  owner_org : owner.org = org.id
  owner_user : owner.user = b.user
  owner_role : owner.role = .owner
  customer_stripeId : customer.stripeId = b.stripeCustomerId
  customer_owner : customer.owner = .org org.id
  subscriptions : ∀ s ∈ w.org.subscriptions, s.stripeCustomerId = some customer.id →
    s.stripeId = some b.sid

/-- The row of the subscription, on the customer, with these columns. -/
def TeamPurchase.HasRow (w : Store p) (customer : StripeCustomer) (m : Mirrored) : Prop :=
  ∃ row ∈ w.org.subscriptions, row.stripeId = some b.sid ∧
    row.stripeCustomerId = some customer.id ∧ row.mirrored = m

/-- There is one new organization, with its owner and its customer, and one
subscription row on that customer, which has these columns. -/
def TeamPurchase.Settled (w₀ w : Store p) (m : Mirrored) : Prop :=
  ∃ org owner customer row, b.Rows w₀ w org owner customer ∧
    w.org.subscriptions.filter (fun s => s.stripeCustomerId = some customer.id) = [row] ∧
    row.stripeId = some b.sid ∧ row.mirrored = m

/-! ### One sync -/

variable {b} {sb}

/-- The rows of a sync that succeeds are old or of its subscription. -/
theorem syncSubscriptionFromData_rows {db db' : BillingDb} {now : Timestamp}
    {d : SubscriptionData} (h : syncSubscriptionFromData u db now d = .ok db') :
    ∀ r ∈ db'.subscriptions.rows, r ∈ db.subscriptions.rows ∨ r.stripeId = some d.id := by
  unfold syncSubscriptionFromData at h
  obtain ⟨row, hrow, hsave⟩ := Loops.bind_eq_ok.mp h
  obtain ⟨customer, m, -, rfl⟩ := syncRow_ok_iff.mp hrow
  unfold BillingDb.saveSubscription at hsave
  split at hsave
  · cases hsave
  · rename_i tbl' htbl
    cases hsave
    intro r hr
    rcases (SubscriptionTable.mem_save htbl).mp hr with ⟨hr, -⟩ | ⟨a, -, -, rfl⟩ | ⟨-, rfl⟩
    · exact Or.inl hr
    · exact Or.inr rfl
    · exact Or.inr rfl

/-- **A sync of a version**, once the organization is there, gives the
subscription the columns of that version. -/
theorem syncIntoStore_rows {w₀ : Store p} {w : AppWorld p} {org : Org} {owner : OrgMember}
    {customer : StripeCustomer} (hcatalog : w₀.catalog = catalog)
    (h : b.Rows w₀ w.store org owner customer)
    (v : TeamVersion u catalog b.sid b.stripeCustomerId) (now : Timestamp) :
    ∃ w', syncIntoStore u now v.data w = .ok ⟨⟩ w' ∧ b.Rows w₀ w'.store org owner customer ∧
      b.HasRow w'.store customer v.fields := by
  have hcustomer : w.store.billing.getCustomerByStripeId v.data.customer = some customer := by
    have hmem : customer ∈ w.store.org.customers := by
      rw [h.customers]
      exact List.mem_append_right _ (List.mem_singleton.mpr rfl)
    have hfind := Table.find?_eq_some_iff (v := v.data.customer) (a := customer)
      w.store.org.constraints.customer_stripe_id
    simp only [Option.some.injEq] at hfind
    exact hfind.mpr ⟨hmem, h.customer_stripeId.trans v.customer_eq.symm⟩
  have hfields : syncedFields u w.store.billing v.data = some (customer, v.fields) := by
    have hknown : v.data.fieldsIn u w.store.billing.catalog = some v.fields := by
      rw [show w.store.billing.catalog = catalog from h.catalog.trans hcatalog]
      exact v.known
    rw [syncedFields_eq, hcustomer, Option.bind_some, hknown, Option.map_some]
  obtain ⟨db', hok, hsets⟩ := syncSubscriptionFromData_spec now hfields
  rw [v.id_eq] at hsets
  obtain ⟨hmem, hsid⟩ := SubscriptionTable.getByStripeId_eq_some_iff.mp hsets.found
  refine ⟨{ w with store := w.store.withSubscriptions db'.subscriptions }, by
    simp [syncIntoStore, hok], { h with subscriptions := fun s hs hcus => ?_ },
    ⟨_, hmem, hsid, rfl, rfl⟩⟩
  rcases syncSubscriptionFromData_rows hok s hs with hold | hnew
  · exact h.subscriptions s hold hcus
  · exact hnew.trans (congrArg some v.id_eq)

/-! ### The personal subscription -/

/-- A service that writes only rows of the customer `cid`. -/
structure RowsOf (cid : UUID) (db db' : BillingDb) : Prop where
  catalog : db'.catalog = db.catalog
  customers : db'.customers = db.customers
  rows : ∀ r : Subscription, r.stripeCustomerId ≠ some cid →
    (r ∈ db'.subscriptions.rows ↔ r ∈ db.subscriptions.rows)

theorem RowsOf.refl (cid : UUID) (db : BillingDb) : RowsOf cid db db :=
  ⟨rfl, rfl, fun _ _ => Iff.rfl⟩

/-- Saving an update of a row of the customer. -/
theorem saveSubscription_rowsOf {cid : UUID} {db db' : BillingDb} {now : Timestamp}
    {row new : Subscription} (hrow : row ∈ db.subscriptions.rows)
    (hcid : row.stripeCustomerId = some cid) (hid : new.id = row.id)
    (hnew : new.stripeCustomerId = some cid) (h : db.saveSubscription now new = .ok db') :
    RowsOf cid db db' := by
  unfold BillingDb.saveSubscription at h
  split at h
  · cases h
  · rename_i tbl' htbl
    cases h
    refine ⟨rfl, rfl, fun r hr => (SubscriptionTable.mem_save htbl).trans ?_⟩
    constructor
    · rintro (⟨hmem, -⟩ | ⟨a, -, -, rfl⟩ | ⟨-, rfl⟩)
      · exact hmem
      · exact absurd hnew hr
      · exact absurd hnew hr
    · refine fun hmem => Or.inl ⟨hmem, fun hrid => hr ?_⟩
      rw [db.subscriptions.pk.inj hmem hrow (congrArg some (hrid.trans hid)) rfl]
      exact hcid

theorem releasePendingSchedule_db {sid : String} (w : BillingWorld) :
    wp (releasePendingSchedule sb sid) (fun _ w' => w'.db = w.db) (fun _ w' => w'.db = w.db) w := by
  rw [releasePendingSchedule, wp_bind]
  refine Stripe.wp_subscriptionRetrieve_of rfl fun sub hsub => ?_
  rcases hsch : sub.schedule with - | ref
  · exact rfl
  simp only [Stripe.scheduleRetrieve, Stripe.attached, wp_bind, Stripe.wp_issue,
    Stripe.wp_lookup, BillingWorld.record_stripe, hsub, hsch, if_true, wp_pure]
  split
  · rfl
  · split
    · rw [Stripe.scheduleRelease, wp_bind]
      exact Stripe.wp_change_of rfl fun n sub' _ => rfl
    · rfl

/-- A call that sets the cancellation of a row's subscription, and its mirror. -/
theorem mirroredCall_rowsOf {cid : UUID} {now : Timestamp} {row : Subscription} {sid : String}
    {call : StripeCall} {db : BillingDb} (hrow : row ∈ db.subscriptions.rows)
    (hcid : row.stripeCustomerId = some cid) {w : BillingWorld} (hw : w.db = db) :
    wp (Stripe.change sb sid call (Stripe.setCancelState sb)
      >>= mirrorCancelStateFromStripe now row)
      (fun _ w' => RowsOf cid db w'.db) (fun _ w' => RowsOf cid db w'.db) w := by
  subst hw
  rw [wp_bind]
  refine Stripe.wp_change_of (.refl _ _) fun n sub _ => ?_
  simp only [mirrorCancelStateFromStripe, wp_saveRow, BillingWorld.setStripe_db,
    BillingWorld.record_db]
  rcases hsave : w.db.saveSubscription now (row.mirrorCancelState _) with e | db'
  · exact .refl _ _
  · have hnew : (row.mirrorCancelState (Stripe.setCancelState sb n sub).cancelState).id
        = row.id := rfl
    exact saveSubscription_rowsOf hrow hcid hnew hcid hsave

variable (sb) in
/-- **A cancellation** writes only rows of its customer. -/
theorem cancelSubscription_rowsOf (cid : UUID) (now : Timestamp) (atPeriodEnd : Bool)
    (w : BillingWorld) :
    wp (cancelSubscription sb now cid atPeriodEnd) (fun _ w' => RowsOf cid w.db w'.db)
      (fun _ w' => RowsOf cid w.db w'.db) w := by
  rw [cancelSubscription, wp_bind, wp_loadActive]
  rcases hact : w.db.activeRow cid with - | ⟨active, sid⟩
  · exact .refl _ _
  obtain ⟨row, hlatest, hrow⟩ := Option.bind_eq_some_iff.mp hact
  obtain ⟨id, -, heq⟩ := Option.map_eq_some_iff.mp hrow
  obtain ⟨rfl, rfl⟩ := Prod.mk.inj heq
  obtain ⟨hmem, hcond⟩ := List.mem_filter.mp (Table.mem_of_latest? hlatest)
  have hcid : row.stripeCustomerId = some cid := by simpa using (Bool.and_eq_true_iff.mp hcond).1
  have hcall : ∀ w', w'.db = w.db →
      wp (if atPeriodEnd = true then
            Stripe.subscriptionModifyCancelAt sb id "min_period_end" >>=
              mirrorCancelStateFromStripe now row
          else Stripe.subscriptionCancel sb id >>= mirrorCancelStateFromStripe now row)
        (fun _ w' => RowsOf cid w.db w'.db) (fun _ w' => RowsOf cid w.db w'.db) w' := by
    intro w' hw'
    split
    · exact mirroredCall_rowsOf hmem hcid hw'
    · exact mirroredCall_rowsOf hmem hcid hw'
  rcases hpend : row.scheduledPlanId with - | planId
  · simp only [hpend]
    exact hcall w rfl
  · -- the release comes first
    simp only [hpend, Option.isSome_some, if_true, wp_bind]
    refine wp_mono (releasePendingSchedule_db w) (fun _ w' hw' => hcall w' hw') fun _ w' hw' => ?_
    rw [hw']
    exact .refl _ _

/-- The cancellation of the buyer's personal subscription leaves the rows of
the checkout as they are. -/
theorem schedulePersonalCancel_rows {w₀ : Store p} {w : AppWorld p} {org : Org}
    {owner : OrgMember} {customer : StripeCustomer} {m : Mirrored}
    (h : b.Rows w₀ w.store org owner customer) (hrow : b.HasRow w.store customer m)
    (now : Timestamp) (user : UUID) :
    wp (schedulePersonalCancelAtPeriodEnd sb now user)
      (fun _ w' => b.Rows w₀ w'.store org owner customer ∧ b.HasRow w'.store customer m)
      (fun _ w' => b.Rows w₀ w'.store org owner customer ∧ b.HasRow w'.store customer m) w := by
  unfold wp schedulePersonalCancelAtPeriodEnd
  rcases hfind : w.store.org.customers.find? fun c =>
    decide (c.owner = .user user) with - | personal
  · simp only [hfind]
    exact ⟨h, hrow⟩
  have hmem := List.mem_of_find?_eq_some hfind
  have howner : personal.owner = .user user := by simpa using List.find?_some hfind
  have hne : customer.id ≠ personal.id := by
    intro hid
    have hcus : customer ∈ w.store.org.customers := by
      rw [h.customers]
      exact List.mem_append_right _ (List.mem_singleton.mpr rfl)
    have heq := w.store.org.constraints.customer_pk.inj hcus hmem (congrArg some hid) rfl
    have howner' := h.customer_owner
    rw [heq, howner] at howner'
    cases howner'
  -- however the cancellation ends, it has only written rows of the buyer
  have hafter : ∀ bw : BillingWorld, RowsOf personal.id w.billing.db bw.db →
      b.Rows w₀ (w.afterBilling bw).store org owner customer ∧
        b.HasRow (w.afterBilling bw).store customer m := by
    intro bw hbw
    have hrows : ∀ r : Subscription, r.stripeCustomerId = some customer.id →
        (r ∈ bw.db.subscriptions.rows ↔ r ∈ w.store.org.subscriptions) := fun r hr =>
      hbw.rows r fun hr' => hne (Option.some.inj (hr.symm.trans hr'))
    refine ⟨{ h with subscriptions := fun s hs hcus =>
      h.subscriptions s ((hrows s hcus).mp hs) hcus }, ?_⟩
    obtain ⟨row, hrow, hsid, hcus, hm⟩ := hrow
    exact ⟨row, (hrows row hcus).mpr hrow, hsid, hcus, hm⟩
  have hcancel := cancelSubscription_rowsOf sb personal.id now true w.billing
  unfold wp at hcancel
  simp only [hfind]
  rcases hrun : cancelSubscription sb now personal.id true w.billing with ⟨a, bw⟩ | ⟨e, bw⟩ <;>
    rw [hrun] at hcancel
  · exact hafter bw hcancel
  · cases e <;> exact hafter bw hcancel

/-! ### One checkout -/

section Checkout

variable {w₀ w : AppWorld p} {now : Timestamp} {retrieve : String → Option SubscriptionData}

theorem TeamPurchase.Starts.not_alreadyCreated (hs : b.Starts w₀) :
    w₀.store.org.alreadyCreated b.stripeCustomerId b.user = false := by
  have hnone : (w₀.store.org.customers.find? fun c => c.stripeId = b.stripeCustomerId) = none :=
    List.find?_eq_none.mpr fun c hc hid => hs.unknown c hc (by simpa using hid)
  rw [OrgTables.alreadyCreated, hnone]
  rfl

/-- The inserts of an organization whose rows meet the constraints. -/
theorem insertOrgForCheckout_ok {user : UUID} {orgName slug stripeCustomerId : String}
    (hname : orgName.length ≤ maxOrgText) (hslug : slug.length ≤ maxOrgText)
    (hconstraints : (w.store.org.insertOrg user orgName slug stripeCustomerId).Constraints p) :
    insertOrgForCheckout user orgName slug stripeCustomerId w = .ok ⟨⟩
      { w with store := ⟨⟨_, hconstraints⟩, w.store.catalog, w.store.uniq_stripe_id⟩ } := by
  unfold insertOrgForCheckout Store.commit
  rw [if_neg (by omega), dif_pos ⟨hconstraints, w.store.uniq_stripe_id⟩]

/-- The first checkout inserts the organization, if its texts fit. -/
theorem createOrg_first (hs : b.Starts w₀) (hfits : b.Fits w₀) (hw : w.store = w₀.store) :
    ∃ w' org owner customer,
      createOrgForCheckout b.user b.orgName b.stripeCustomerId w = .ok ⟨⟩ w' ∧
        b.Rows w₀.store w'.store org owner customer := by
  obtain ⟨store, ledger, balances, orgDeletions, stripe, issued⟩ := w
  obtain rfl : store = w₀.store := hw
  have hconstraints : (w₀.store.org.insertOrg b.user b.orgName (w₀.slugFor b.orgName)
      b.stripeCustomerId).Constraints p :=
    w₀.store.org.constraints.insertOrg hs.linked.customer_org hs.user_exists hs.owns_no_org
    hs.unknown (generateUniqueSlug_not_mem p.slugify _ b.orgName)
  refine ⟨⟨⟨⟨_, hconstraints⟩, w₀.store.catalog, w₀.store.uniq_stripe_id⟩, ledger, balances,
    orgDeletions, stripe, issued⟩, _, _, _, ?_,
    ⟨rfl, rfl, rfl, rfl, rfl, rfl, rfl, rfl, rfl, rfl, rfl, ?_⟩⟩
  · unfold createOrgForCheckout
    rw [hs.not_alreadyCreated, if_neg (by decide)]
    exact insertOrgForCheckout_ok
      (w := ⟨w₀.store, ledger, balances, orgDeletions, stripe, issued⟩) hfits.1 hfits.2 hconstraints
  · -- nothing refers to the new customer yet
    intro s hsub hcus
    obtain ⟨c, hc, hid⟩ := hs.linked.subscription_customer s hsub _ hcus
    have hlt := w₀.store.org.constraints.new_customer c hc
    rw [hid] at hlt
    exact absurd hlt (Nat.not_lt.mpr (Nat.le_add_right ..))

theorem createOrg_too_long (hs : b.Starts w₀) (hfits : ¬ b.Fits w₀) (hw : w.store = w₀.store) :
    createOrgForCheckout b.user b.orgName b.stripeCustomerId w = .error .dataError w := by
  obtain ⟨store, ledger, balances, orgDeletions, stripe, issued⟩ := w
  obtain rfl : store = w₀.store := hw
  have hlong : maxOrgText < b.orgName.length ∨ maxOrgText < (w₀.slugFor b.orgName).length := by
    unfold TeamPurchase.Fits at hfits
    omega
  unfold createOrgForCheckout
  rw [hs.not_alreadyCreated, if_neg (by decide)]
  exact if_pos hlong

/-- A checkout that is processed again finds the organization. -/
theorem createOrg_again {org : Org} {owner : OrgMember} {customer : StripeCustomer}
    (h : b.Rows w₀.store w.store org owner customer) :
    createOrgForCheckout b.user b.orgName b.stripeCustomerId w = .ok ⟨⟩ w := by
  have hcreated : w.store.org.alreadyCreated b.stripeCustomerId b.user = true := by
    rw [OrgDb.alreadyCreated_iff]
    refine ⟨customer, ?_, h.customer_stripeId, org.id, h.customer_owner, ⟨org, ?_, rfl⟩, owner, ?_,
      h.owner_org, h.owner_user⟩
    · rw [h.customers]
      exact List.mem_append_right _ (List.mem_singleton.mpr rfl)
    · rw [h.orgs]
      exact List.mem_append_right _ (List.mem_singleton.mpr rfl)
    · rw [h.members]
      exact List.mem_append_right _ (List.mem_singleton.mpr rfl)
  unfold createOrgForCheckout
  exact if_pos hcreated

/-- The rows of the checkout, with a row of the version `k` or a newer one. -/
def TeamPurchase.Has (b : TeamPurchase u catalog) (w₀ w : Store p) (m : Mirrored) : Prop :=
  ∃ org owner customer, b.Rows w₀ w org owner customer ∧ b.HasRow w customer m

variable (sb now) in
/-- The part of a checkout after its organization. -/
theorem checkout_rest {org : Org} {owner : OrgMember} {customer : StripeCustomer}
    (hs : b.Starts w₀) (h : b.Rows w₀.store w.store org owner customer)
    (v : TeamVersion u catalog b.sid b.stripeCustomerId) (hv : retrieve b.sid = some v.data) :
    wp (do
        persistTeamSubscription u now retrieve b.sid
        if b.keepPersonal then pure ⟨⟩ else schedulePersonalCancelAtPeriodEnd sb now b.user)
      (fun _ w' => b.Has w₀.store w'.store v.fields)
      (fun _ w' => b.Has w₀.store w'.store v.fields) w := by
  obtain ⟨w', hok, hrows, hrow⟩ := syncIntoStore_rows hs.catalog_eq h v now
  rw [wp_bind]
  unfold wp persistTeamSubscription
  rw [hv]
  simp only [hok]
  show wp (if b.keepPersonal then pure ⟨⟩ else schedulePersonalCancelAtPeriodEnd sb now b.user)
    (fun _ w' => b.Has w₀.store w'.store v.fields)
    (fun _ w' => b.Has w₀.store w'.store v.fields) w'
  split
  · exact ⟨org, owner, customer, hrows, hrow⟩
  · exact wp_mono (schedulePersonalCancel_rows hrows hrow now b.user)
      (fun _ _ h => ⟨org, owner, customer, h⟩) fun _ _ h => ⟨org, owner, customer, h⟩

/-- The checkout event runs its callback. -/
theorem processEvent_checkout (w : AppWorld p) :
    processEvent u sb now retrieve (.checkoutSessionCompleted b.session) w =
      onTeamCheckoutCompleted u sb now retrieve b.user b.orgName b.stripeCustomerId (some b.sid)
        b.keepPersonal w := by
  have hdispatch : dispatch u w.store.billing now (.checkoutSessionCompleted b.session)
      = .ok (w.store.billing, [.onTeamCheckoutCompleted b.user b.orgName b.stripeCustomerId
          b.session.livemode (some b.sid) b.keepPersonal]) := by
    rw [dispatch, b.session_callbacks]
    rfl
  unfold processEvent
  rw [hdispatch]
  show runCallbacks u sb now retrieve _ w = _
  rw [runCallbacks, runCallbacks, bind_pure_unit]
  rfl

variable (sb now) in
/-- **A checkout.**  Where the organization is there, or can be created, it ends
with the rows of the checkout and the version that it retrieved. -/
theorem checkout_spec (hs : b.Starts w₀)
    (h : (w.store = w₀.store ∧ b.Fits w₀) ∨
      ∃ org owner customer, b.Rows w₀.store w.store org owner customer)
    (v : TeamVersion u catalog b.sid b.stripeCustomerId) (hv : retrieve b.sid = some v.data) :
    b.Has w₀.store
      (final (processEvent u sb now retrieve (.checkoutSessionCompleted b.session)) w).store
      v.fields := by
  have huser : requireUser b.user w = .ok ⟨⟩ w := by
    have husers : w.store.org.users = w₀.store.org.users := by
      rcases h with ⟨hw, -⟩ | ⟨_, _, _, h⟩
      · rw [hw]
      · exact h.users
    obtain ⟨x, hx, hid⟩ := hs.user_exists
    refine if_pos (List.any_eq_true.mpr ⟨x, ?_, by simpa using hid⟩)
    rw [husers]
    exact hx
  have hcreate : ∃ w' org owner customer,
      createOrgForCheckout b.user b.orgName b.stripeCustomerId w = .ok ⟨⟩ w' ∧
        b.Rows w₀.store w'.store org owner customer := by
    rcases h with ⟨hw, hfits⟩ | ⟨org, owner, customer, h⟩
    · exact createOrg_first hs hfits hw
    · exact ⟨w, org, owner, customer, createOrg_again h, h⟩
  obtain ⟨w', org, owner, customer, hcreate, hrows⟩ := hcreate
  have hwp := checkout_rest sb now hs hrows v hv
  rw [wp_final_iff (P := fun w' : AppWorld p => b.Has w₀.store w'.store v.fields)] at hwp
  have hrun : processEvent u sb now retrieve (.checkoutSessionCompleted b.session) w
      = (do
        persistTeamSubscription u now retrieve b.sid
        if b.keepPersonal then pure ⟨⟩ else schedulePersonalCancelAtPeriodEnd sb now b.user :
          App p PUnit) w' := by
    rw [processEvent_checkout, onTeamCheckoutCompleted]
    show EStateM.bind _ _ w = _
    unfold EStateM.bind
    rw [huser]
    show EStateM.bind _ _ w = _
    unfold EStateM.bind
    rw [hcreate]
  unfold final
  rw [hrun]
  exact hwp

/-- A checkout whose organization cannot be stored changes nothing. -/
theorem checkout_too_long (hs : b.Starts w₀) (hfits : ¬ b.Fits w₀) (hw : w.store = w₀.store) :
    (final (processEvent u sb now retrieve (.checkoutSessionCompleted b.session)) w).store
      = w₀.store := by
  have huser : requireUser b.user w = .ok ⟨⟩ w := by
    obtain ⟨x, hx, hid⟩ := hs.user_exists
    refine if_pos (List.any_eq_true.mpr ⟨x, ?_, by simpa using hid⟩)
    rw [hw]
    exact hx
  have hrun : processEvent u sb now retrieve (.checkoutSessionCompleted b.session) w
      = .error .dataError w := by
    rw [processEvent_checkout, onTeamCheckoutCompleted]
    show EStateM.bind _ _ w = _
    unfold EStateM.bind
    rw [huser]
    show EStateM.bind _ _ w = _
    unfold EStateM.bind
    rw [createOrg_too_long hs hfits hw]
  unfold final
  rw [hrun]
  exact hw

end Checkout

/-! ### Runs -/

/-- An event of the subscription is a sync of its data. -/
theorem processEvent_version {sid cus : String} (v : TeamVersion u catalog sid cus)
    (created : Bool) (now : Timestamp) (retrieve : String → Option SubscriptionData)
    (w : AppWorld p) :
    final (processEvent u sb now retrieve (v.event created)) w
      = final (syncIntoStore u now v.data) w := by
  have hdispatch : dispatch u w.store.billing now (v.event created)
      = (syncSubscriptionFromData u w.store.billing now v.data).map fun db' => (db', []) := by
    cases created <;> rfl
  unfold final processEvent syncIntoStore
  rw [hdispatch]
  rcases syncSubscriptionFromData u w.store.billing now v.data with e | db' <;> rfl

/-- An event of an unknown customer changes nothing. -/
theorem version_unknown {w₀ w : AppWorld p} (hs : b.Starts w₀) (hw : w.store = w₀.store)
    (v : TeamVersion u catalog b.sid b.stripeCustomerId) (now : Timestamp) :
    (final (syncIntoStore u now v.data) w).store = w₀.store := by
  unfold final syncIntoStore
  rcases hsync : syncSubscriptionFromData u w.store.billing now v.data with e | db'
  · exact hw
  · obtain ⟨customer, m, hm⟩ := syncedFields_of_ok hsync
    rw [syncedFields_eq] at hm
    obtain ⟨c, hc, -⟩ := Option.bind_eq_some_iff.mp hm
    rw [hw] at hc
    have hid : c.stripeId = v.data.customer := by simpa using List.find?_some hc
    exact absurd (hid.trans v.customer_eq) (hs.unknown c (List.mem_of_find?_eq_some hc))

/-- Before the checkout nothing has changed, and it changes nothing where its
organization does not fit.  After it, the row is at least as new as the last
event that was processed. -/
structure TeamInv (b : TeamPurchase u catalog) (w₀ : AppWorld p) (s : TeamState p) : Prop where
  store : (s.world.store = w₀.store ∧ (b.Fits w₀ → s.checkedOut = false)) ∨
    (b.Fits w₀ ∧ ∃ (k : Nat) (v : TeamVersion u catalog b.sid b.stripeCustomerId),
      b.versions[k]? = some v ∧ s.processed ≤ k + 1 ∧ b.Has w₀.store s.world.store v.fields)

/-- **One step.** -/
theorem teamInv_step {w₀ : AppWorld p} (hs : b.Starts w₀) (s : TeamState p) (a : TeamStep)
    (s' : TeamState p) (hI : TeamInv b w₀ s) (h : teamStep b sb s a = some s') :
    TeamInv b w₀ s' := by
  cases a with
  | subscriptionEvent created now =>
    obtain ⟨v, hv, rfl⟩ := Option.map_eq_some_iff.mp h
    refine ⟨?_⟩
    simp only [processEvent_version]
    rcases hI.store with ⟨hw, hbefore⟩ | ⟨hfits, k, v', hv', hk, org, owner, customer, hrows, hrow⟩
    · exact Or.inl ⟨version_unknown hs hw v now, hbefore⟩
    · obtain ⟨w', hok, hrows', hrow'⟩ := syncIntoStore_rows hs.catalog_eq hrows v now
      have hfinal : final (syncIntoStore u now v.data) s.world = w' := by
        unfold final
        rw [hok]
      rw [hfinal]
      exact Or.inr ⟨hfits, s.processed, v, hv, le_rfl, org, owner, customer, hrows', hrow'⟩
  | checkout current now =>
    by_cases hcurrent : s.processed ≤ current + 1
    case neg =>
      rw [teamStep, if_neg hcurrent] at h
      cases h
    case pos =>
      rw [teamStep, if_pos hcurrent] at h
      obtain ⟨v, hv, rfl⟩ := Option.map_eq_some_iff.mp h
      refine ⟨?_⟩
      have hspec : (s.world.store = w₀.store ∧ b.Fits w₀) ∨
            (∃ org owner customer, b.Rows w₀.store s.world.store org owner customer) →
          b.Has w₀.store (final (processEvent u sb now
            (fun id => if id = b.sid then some v.data else none)
            (.checkoutSessionCompleted b.session)) s.world).store v.fields :=
        fun hready => checkout_spec sb now hs hready v (if_pos rfl)
      rcases hI.store with ⟨hw, -⟩ | ⟨hfits, k, v', -, -, org, owner, customer, hrows, -⟩
      · by_cases hfits : b.Fits w₀
        · exact Or.inr ⟨hfits, current, v, hv, hcurrent, hspec (Or.inl ⟨hw, hfits⟩)⟩
        · exact Or.inl ⟨checkout_too_long hs hfits hw, fun h => absurd h hfits⟩
      · exact Or.inr ⟨hfits, current, v, hv, hcurrent, hspec (Or.inr ⟨org, owner, customer, hrows⟩)⟩

/-- The row is the only one of its customer. -/
theorem TeamPurchase.Has.settled {w₀ w : Store p} {m : Mirrored} (h : b.Has w₀ w m) :
    b.Settled w₀ w m := by
  obtain ⟨org, owner, customer, hrows, row, hmem, hsid, hcus, hm⟩ := h
  refine ⟨org, owner, customer, row, hrows, ?_, hsid, hm⟩
  have honly : ∀ s ∈ w.org.subscriptions, s.stripeCustomerId = some customer.id →
      s.stripeId = some b.sid := hrows.subscriptions
  rw [← Table.filter_eq_singleton w.uniq_stripe_id hmem hsid]
  refine List.filter_congr fun s hs => decide_eq_decide.mpr ⟨honly s hs, fun h => ?_⟩
  rw [w.uniq_stripe_id.inj hs hmem h hsid]
  exact hcus

theorem teamInv_run {w₀ : AppWorld p} (hs : b.Starts w₀) {steps : List TeamStep}
    {t : TeamState p} (hr : Runs.run (teamStep b sb) (.init w₀) steps = some t) : TeamInv b w₀ t :=
  (Runs.always_of_invariant (teamInv_step hs) ⟨Or.inl ⟨rfl, fun _ => rfl⟩⟩ steps).last hr

/-- Where the organization does not fit, there is none. -/
theorem TeamInv.not_settled {w₀ : AppWorld p} {s : TeamState p} (hI : TeamInv b w₀ s)
    (hfits : ¬ b.Fits w₀) (m : Mirrored) : ¬ b.Settled w₀.store s.world.store m := by
  rcases hI.store with ⟨hw, -⟩ | ⟨h, -⟩
  · rintro ⟨org, owner, customer, row, hrows, -⟩
    have horgs := hrows.orgs
    rw [hw] at horgs
    simp at horgs
  · exact absurd h hfits

/-- **The team checkout closes the race.**  After every event of the subscription
and the checkout, in whatever position, there is the organization with its owner
and its customer and one row with the columns of the newest version, exactly
when the name and the slug of the organization fit their columns. -/
theorem team_checkout_iff {w₀ : AppWorld p} (hs : b.Starts w₀) {steps : List TeamStep}
    {t : TeamState p} (hr : Runs.run (teamStep b sb) (.init w₀) steps = some t)
    (hall : t.processed = b.versions.length) (hcheckout : t.checkedOut = true) :
    b.Settled w₀.store t.world.store (b.versions.getLast b.versions_ne).fields ↔ b.Fits w₀ := by
  refine ⟨fun h => ?_, fun hfits => ?_⟩
  · by_contra hfits
    exact (teamInv_run hs hr).not_settled hfits _ h
  rcases (teamInv_run hs hr).store with ⟨-, hbefore⟩ | ⟨-, k, v, hv, hk, hhas⟩
  · rw [hbefore hfits] at hcheckout
    cases hcheckout
  · -- the row is not older than the newest version
    have hlast : b.versions.getLast b.versions_ne = v := by
      have hlt := (List.getElem?_eq_some_iff.mp hv).1
      have hkl : k = b.versions.length - 1 := by omega
      rw [← Option.some.injEq, ← List.getLast?_eq_some_getLast,
        List.getLast?_eq_getElem?, ← hkl, hv]
    rw [hlast]
    exact hhas.settled

/-! ### A checkout that comes second -/

/-- The created version of a subscription, and its only one. -/
def sampleTeamVersion : TeamVersion asciiTables sampleDb.catalog "sub_1" "cus_1" where
  data := sampleActive.data
  fields := sampleActive.fields
  id_eq := sampleActive.id_eq
  customer_eq := rfl
  known := sampleActive.known

/-- User 4 buys a team subscription. -/
def samplePurchase (orgName : String) (hname : orgName ≠ "") :
    TeamPurchase asciiTables sampleDb.catalog where
  user := 4
  orgName := orgName
  stripeCustomerId := "cus_1"
  sid := "sub_1"
  keepPersonal := false
  session :=
    { id := some "cs_1", mode := some "subscription"
      metadata := ⟨some orgName, some "false", none, none⟩
      clientReferenceId := some "00000000000000000000000000000004"
      customer := some "cus_1", subscription := some "sub_1", livemode := true }
  session_callbacks := by
    have hid : uuidOfText "00000000000000000000000000000004" = some 4 := by decide +kernel
    simp [checkoutCallbacks, Option.filter_some, hname, hid]
  versions := [sampleTeamVersion]
  versions_ne := by simp

/-- One user without an organization, and an organization with this slug. -/
def sampleTeamTables (slug : String) : OrgTables where
  users := [⟨4, "ada@x"⟩]
  orgs := [{ id := 5, name := slug, slug, createdBy := none }]
  members := []
  invitations := []
  customers := []
  subscriptions := []
  nextKey := 6

def sampleTeamWorld (slug : String) : AppWorld wordPlatform where
  store :=
    { org := ⟨sampleTeamTables slug, by constructor <;> simp [sampleTeamTables, Table.Unique]⟩
      catalog := sampleDb.catalog
      uniq_stripe_id := by simp [sampleTeamTables, Table.Unique] }
  ledger := []
  balances := []
  orgDeletions := []
  stripe := fun _ => none
  issued := []

theorem sampleTeamWorld_starts (slug orgName : String) (hname : orgName ≠ "") :
    (samplePurchase orgName hname).Starts (sampleTeamWorld slug) where
  catalog_eq := rfl
  linked := ⟨fun _ h => (by cases h), fun _ h => (by cases h)⟩
  user_exists := ⟨⟨4, "ada@x"⟩, List.mem_singleton.mpr rfl, rfl⟩
  owns_no_org _ h := by cases h
  unknown _ h := by cases h

/-- The created event is dropped, and the checkout makes up for it. -/
def sampleTeamSteps : List TeamStep := [.subscriptionEvent true 100, .checkout 0 110]

theorem run_sampleTeamSteps (slug orgName : String) (hname : orgName ≠ "") :
    ∃ t, Runs.run (teamStep (samplePurchase orgName hname) sampleBehaviour)
        (.init (sampleTeamWorld slug)) sampleTeamSteps = some t ∧
      t.processed = 1 ∧ t.checkedOut = true :=
  ⟨_, rfl, rfl, rfl⟩

theorem team_checkout_iff_sample :
    ∃ t, Runs.run (teamStep (samplePurchase "acme" (by decide)) sampleBehaviour)
        (.init (sampleTeamWorld "acme")) sampleTeamSteps = some t ∧
      ((samplePurchase "acme" (by decide)).Settled (sampleTeamWorld "acme").store t.world.store
          sampleTeamVersion.fields ↔
        (samplePurchase "acme" (by decide)).Fits (sampleTeamWorld "acme")) := by
  obtain ⟨t, hr, hall, hcheckout⟩ := run_sampleTeamSteps "acme" "acme" (by decide)
  exact ⟨t, hr, team_checkout_iff (sampleTeamWorld_starts "acme" "acme" (by decide)) hr hall
    hcheckout⟩

/-- A name of 255 letters, which is its own slug. -/
def sampleLongName : String := String.ofList (List.replicate 255 'a')

theorem sampleLongName_ne : sampleLongName ≠ "" := by decide +kernel

theorem length_replicate (n : Nat) : (String.ofList (List.replicate n 'a')).length = n := by
  rw [String.length_ofList, List.length_replicate]

theorem slugBase_replicate {n : Nat} (hn : 2 ≤ n) :
    slugBase wordPlatform.slugify (String.ofList (List.replicate n 'a'))
      = String.ofList (List.replicate n 'a') := by
  have hlower : Char.toLower 'a' = 'a' := by decide
  have hslug : wordPlatform.slugify (String.ofList (List.replicate n 'a'))
      = String.ofList (List.replicate n 'a') := by
    simp only [wordPlatform, PyStr.asciiLower, String.toList_ofList, List.map_replicate, hlower]
  refine slugBase_of_text hslug ?_ ?_ (by rwa [List.length_replicate])
  · intro c hc
    rw [List.eq_of_mem_replicate hc]
    decide
  · intro c hc
    rw [List.eq_of_mem_replicate hc]
    decide

/-- The slug that is taken gets a suffix, and is too long then: the buyer has
paid and gets no organization. -/
theorem long_slug_loses_checkout :
    ∃ t, Runs.run (teamStep (samplePurchase sampleLongName sampleLongName_ne) sampleBehaviour)
        (.init (sampleTeamWorld sampleLongName)) sampleTeamSteps = some t ∧
      t.processed = 1 ∧ t.checkedOut = true ∧
      ¬ (samplePurchase sampleLongName sampleLongName_ne).Settled
        (sampleTeamWorld sampleLongName).store t.world.store sampleTeamVersion.fields := by
  have hbase : slugBase wordPlatform.slugify sampleLongName = sampleLongName :=
    slugBase_replicate (by decide)
  have hfits : ¬ (samplePurchase sampleLongName sampleLongName_ne).Fits
      (sampleTeamWorld sampleLongName) := by
    rintro ⟨-, hslug⟩
    have htaken : slugBase wordPlatform.slugify sampleLongName ∈ [sampleLongName] := by
      rw [hbase]
      exact List.mem_singleton.mpr rfl
    obtain ⟨k, -, hk, -⟩ := generateUniqueSlug_of_taken htaken
    have hlong := length_suffixedSlug sampleLongName (k + 2)
    have hname : sampleLongName.length = 255 := length_replicate 255
    change (generateUniqueSlug wordPlatform.slugify [sampleLongName] sampleLongName).length
      ≤ maxOrgText at hslug
    rw [hk, hbase] at hslug
    unfold maxOrgText at hslug
    omega
  have hstarts := sampleTeamWorld_starts sampleLongName sampleLongName sampleLongName_ne
  obtain ⟨t, hr, hall, hcheckout⟩ :=
    run_sampleTeamSteps sampleLongName sampleLongName sampleLongName_ne
  exact ⟨t, hr, hall, hcheckout, (teamInv_run hstarts hr).not_settled hfits _⟩

end Saasmint
