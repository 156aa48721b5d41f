/-
Saasmint/Orgs/CheckoutRuns.lean

Any number of paid team checkouts at once: the tasks of their events, which
take turns, are retried under the policy of `process_stripe_webhook` and may be
run again, and organizations that are deleted in between.

The organization of a checkout, its owner and its customer are inserted in one
transaction, so that there are never partial rows.  But a constraint that
refuses the insert fails the event for good, although the session is paid for,
and a checkout that runs again after its organization was deleted does not find
the customer any more, and inserts another one.  `checkouts_served_iff` says
exactly which runs serve every session.
-/
import Mathlib.Data.Fintype.Basic
import Saasmint.Billing.FirstSync
import Saasmint.Orgs.OrphanBilling
import Saasmint.Orgs.TeamCheckout

namespace Saasmint

open Programs PyStr

variable {p : Platform}

/-! ### Tasks -/

/-- What the event of a completed team session passes on. -/
structure CheckoutSession where
  user : UUID
  orgName : String
  stripeCustomerId : String
  subscriptionId : String
  keepPersonal : Bool
  deriving DecidableEq, Repr

/-- The paid sessions.  Each has a Stripe customer of its own. -/
structure PaidSessions (ι : Type*) where
  session : ι → CheckoutSession
  customer_injective : Function.Injective fun i => (session i).stripeCustomerId

/-- Where the task of a checkout is, after some number of retries. -/
inductive CheckoutTask
  | waiting (retries : Nat)
  | userLoaded (retries : Nat)
  | slugged (slug : String) (retries : Nat)
  | orgReady (retries : Nat)
  | persisted (retries : Nat)
  | processed
  | failed
  deriving DecidableEq, Repr

namespace CheckoutTask

/-- A run of the task has raised: it is retried, or its event has failed. -/
def afterError (retries : Nat) (isRetried : Bool) : CheckoutTask :=
  if isRetried && retries < maxRetries then waiting (retries + 1) else failed

/-- The retries of a task that is not settled. -/
def retries? : CheckoutTask → Option Nat
  | waiting n | userLoaded n | slugged _ n | orgReady n | persisted n => some n
  | processed | failed => none

/-- The task is settled, or has gone on after its organization. -/
def pastOrg : CheckoutTask → Bool
  | waiting _ | userLoaded _ | slugged _ _ => false
  | _ => true

end CheckoutTask

inductive CheckoutStep (ι : Type*)
  | loadUser (i : ι)
  /-- The look at the customer, and the scan for a slug: no other task inserts this
  customer, so that nothing matters that comes between the two. -/
  | scan (i : ι)
  | insert (i : ι)
  /-- The eager sync, with what `Subscription.retrieve` answers. -/
  | persist (i : ι) (retrieved : Option SubscriptionData) (now : Timestamp)
  | cancelPersonal (i : ι) (now : Timestamp)
  /-- The task loses its connection to the database. -/
  | connectionError (i : ι)
  /-- The task of a settled event runs again. -/
  | replay (i : ι)
  /-- Another event syncs a subscription. -/
  | sync (d : SubscriptionData) (now : Timestamp)
  /-- The subscription of the session ends at Stripe. -/
  | ended (i : ι)
  | deleteOrg (org : UUID)

/-- The world and the tasks, with a record of the run: the tasks that were
processed, those that have inserted an organization after that, and the
subscriptions that were cancelled. -/
structure CheckoutState (p : Platform) (ι : Type*) where
  world : AppWorld p
  tasks : ι → CheckoutTask
  handled : ι → Bool
  remade : List ι
  cancelled : List String

/-- What `_delete_org_db_only` leaves. -/
def Store.deleteOrg (s : Store p) (org : UUID) : Store p where
  org := s.org.eraseOrgs [org] (s.org.deletableUserIds [org])
  catalog := s.catalog
  uniq_stripe_id := s.uniq_stripe_id.of_sublist
    ((List.filter_sublist.trans List.filter_sublist).trans List.filter_sublist)

variable {ι : Type*} [DecidableEq ι]

namespace CheckoutState

def setTask (s : CheckoutState p ι) (i : ι) (task : CheckoutTask) : CheckoutState p ι :=
  { s with
    tasks := Function.update s.tasks i task
    handled := if task = .processed then Function.update s.handled i true else s.handled }

/-- The task `i` runs a part of its handler. -/
def advance (s : CheckoutState p ι) (i : ι) (retries : Nat) (m : App p PUnit)
    (next : CheckoutTask) : CheckoutState p ι :=
  match m s.world with
  | .ok _ world => { s with world }.setTask i next
  | .error e world => { s with world }.setTask i (.afterError retries e.isRetried)

end CheckoutState

variable (u : UnicodeTables) (sb : StripeBehaviour) (sessions : PaidSessions ι)

/-- A step of a task, or of something else. -/
def checkoutStep (s : CheckoutState p ι) : CheckoutStep ι → Option (CheckoutState p ι)
  | .loadUser i =>
    match s.tasks i with
    | .waiting retries =>
      some (s.advance i retries (requireUser (sessions.session i).user) (.userLoaded retries))
    | _ => none
  | .scan i =>
    match s.tasks i with
    | .userLoaded retries =>
      let x := sessions.session i
      some (s.setTask i (if s.world.store.org.alreadyCreated x.stripeCustomerId x.user
        then .orgReady retries else .slugged (s.world.slugFor x.orgName) retries))
    | _ => none
  | .insert i =>
    match s.tasks i with
    | .slugged slug retries =>
      let x := sessions.session i
      let s' := s.advance i retries
        (insertOrgForCheckout x.user x.orgName slug x.stripeCustomerId) (.orgReady retries)
      some (if s'.tasks i = .orgReady retries && s.handled i
        then { s' with remade := s.remade ++ [i] } else s')
    | _ => none
  | .persist i retrieved now =>
    match s.tasks i with
    | .orgReady retries =>
      let x := sessions.session i
      -- Stripe answers with the subscription that was asked for
      if retrieved.all fun d => d.id = x.subscriptionId && d.customer = x.stripeCustomerId then
        some (s.advance i retries
          (persistTeamSubscription u now (fun _ => retrieved) x.subscriptionId)
          (.persisted retries))
      else none
    | _ => none
  | .cancelPersonal i now =>
    match s.tasks i with
    | .persisted retries =>
      some (if (sessions.session i).keepPersonal then s.setTask i .processed
        else s.advance i retries
          (schedulePersonalCancelAtPeriodEnd sb now (sessions.session i).user) .processed)
    | _ => none
  | .connectionError i => (s.tasks i).retries?.map fun retries =>
      s.setTask i (.afterError retries true)
  | .replay i => if (s.tasks i).retries? = none then some (s.setTask i (.waiting 0)) else none
  | .sync d now => some { s with world := final (syncIntoStore u now d) s.world }
  | .ended i => some { s with cancelled := s.cancelled ++ [(sessions.session i).subscriptionId] }
  | .deleteOrg org =>
    some { s with
      world := { s.world with store := s.world.store.deleteOrg org }
      cancelled := s.cancelled ++ s.world.store.org.pendingStripeSubIds [org] }

def CheckoutState.init (ι : Type*) (w : AppWorld p) : CheckoutState p ι :=
  ⟨w, fun _ => .waiting 0, fun _ => false, [], []⟩

/-! ### What is claimed -/

/-- An organization with this Stripe customer and an owner. -/
structure OrgTables.HasOrg (t : OrgTables) (stripeCustomerId : String) (org : UUID) : Prop where
  org_exists : ∃ o ∈ t.orgs, o.id = org
  has_customer : ∃ c ∈ t.customers, c.stripeId = stripeCustomerId ∧ c.owner = .org org
  has_owner : ∃ m ∈ t.members, m.org = org ∧ m.role = .owner

/-- Every session that is settled, or whose task has gone on after its
organization, has exactly one organization, or was cancelled.  There are no
partial rows, and no task that was processed has made another organization. -/
structure CheckoutsServed (start : OrgTables) (s : CheckoutState p ι) : Prop where
  served : ∀ i, (s.tasks i).pastOrg = true →
    (sessions.session i).subscriptionId ∈ s.cancelled ∨
      ∃! org, s.world.store.org.HasOrg (sessions.session i).stripeCustomerId org
  complete : ∀ o ∈ s.world.store.org.orgs, o.id ∈ start.orgs.map Org.id ∨
    ∃ i, s.world.store.org.HasOrg (sessions.session i).stripeCustomerId o.id
  not_remade : s.remade = []

/-- No constraint refuses the organization of a session under this slug. -/
structure Insertable (t : OrgTables) (x : CheckoutSession) (slug : String) : Prop where
  user : ∃ a ∈ t.users, a.id = x.user
  owns_no_org : ∀ m ∈ t.members, m.ownedBy ≠ some x.user
  slug_free : slug ∉ t.orgs.map Org.slug
  name_fits : x.orgName.length ≤ maxOrgText
  slug_fits : slug.length ≤ maxOrgText

instance (t : OrgTables) (x : CheckoutSession) (slug : String) : Decidable (Insertable t x slug) :=
  decidable_of_iff ((∃ a ∈ t.users, a.id = x.user) ∧ (∀ m ∈ t.members, m.ownedBy ≠ some x.user) ∧
      slug ∉ t.orgs.map Org.slug ∧ x.orgName.length ≤ maxOrgText ∧ slug.length ≤ maxOrgText)
    ⟨fun ⟨hu, hm, hs, hn, hl⟩ => ⟨hu, hm, hs, hn, hl⟩,
      fun ⟨hu, hm, hs, hn, hl⟩ => ⟨hu, hm, hs, hn, hl⟩⟩

/-- The customer of the session is there, or its subscription was cancelled. -/
def CheckoutState.Safe (s : CheckoutState p ι) (i : ι) : Prop :=
  (sessions.session i).subscriptionId ∈ s.cancelled ∨
    ∃ c ∈ s.world.store.org.customers, c.stripeId = (sessions.session i).stripeCustomerId

instance (s : CheckoutState p ι) (i : ι) : Decidable (s.Safe sessions i) :=
  inferInstanceAs (Decidable (_ ∨ _))

/-- A step that keeps every session served. -/
def KeepsServed (s : CheckoutState p ι) : CheckoutStep ι → Prop
  -- the buyer has an account
  | .loadUser i => (∃ a ∈ s.world.store.org.users, a.id = (sessions.session i).user) ∨
      s.Safe sessions i
  -- no constraint refuses the insert, which is the first
  | .insert i => ∀ slug retries, s.tasks i = .slugged slug retries →
      (Insertable s.world.store.org.toOrgTables (sessions.session i) slug → s.handled i = false) ∧
      (¬ Insertable s.world.store.org.toOrgTables (sessions.session i) slug →
        (sessions.session i).subscriptionId ∈ s.cancelled)
  -- there is a retry left
  | .connectionError i => (∀ retries, (s.tasks i).retries? = some retries → retries < maxRetries) ∨
      s.Safe sessions i
  -- the subscription is handed over
  | .deleteOrg org => ∀ i, (s.tasks i).pastOrg = true →
      (∃ c ∈ s.world.store.org.customers,
        c.stripeId = (sessions.session i).stripeCustomerId ∧ c.owner = .org org) →
      (sessions.session i).subscriptionId ∈
        s.cancelled ++ s.world.store.org.pendingStripeSubIds [org]
  | _ => True

instance [Fintype ι] (s : CheckoutState p ι) :
    ∀ step, Decidable (KeepsServed sessions s step)
  | .loadUser _ => inferInstanceAs (Decidable (_ ∨ _))
  | .insert i =>
    match h : s.tasks i with
    | .slugged slug _ =>
      decidable_of_iff
        ((Insertable s.world.store.org.toOrgTables (sessions.session i) slug →
            s.handled i = false) ∧
          (¬ Insertable s.world.store.org.toOrgTables (sessions.session i) slug →
            (sessions.session i).subscriptionId ∈ s.cancelled)) (by
        constructor
        · intro hC slug' retries htask
          obtain ⟨rfl, -⟩ := CheckoutTask.slugged.inj (h.symm.trans htask)
          exact hC
        · exact fun hC => hC slug _ h)
    | .waiting _ | .userLoaded _ | .orgReady _ | .persisted _ | .processed | .failed =>
      isTrue fun _ _ htask => by rw [h] at htask; cases htask
  | .connectionError i => inferInstanceAs (Decidable ((∀ r ∈ (s.tasks i).retries?, _) ∨ _))
  | .deleteOrg _ => inferInstanceAs (Decidable (∀ i, _ → _ → _))
  | .scan _ | .persist _ _ _ | .cancelPersonal _ _ | .replay _ | .sync _ _ | .ended _ =>
    isTrue trivial

/-! ### Rows -/

/-- The rows of users, organizations, members and customers are the same. -/
structure OrgTables.SameOrgs (t t' : OrgTables) : Prop where
  users : t'.users = t.users
  orgs : t'.orgs = t.orgs
  members : t'.members = t.members
  customers : t'.customers = t.customers

section Handlers

variable {u} {sb} {w : AppWorld p} {now : Timestamp}

theorem syncIntoStore_sameOrgs {d : SubscriptionData} :
    wp (syncIntoStore u now d) (fun _ w' => w.store.org.SameOrgs w'.store.org.toOrgTables)
      (fun _ w' => w.store.org.SameOrgs w'.store.org.toOrgTables) w := by
  unfold wp syncIntoStore
  rcases syncSubscriptionFromData u w.store.billing now d with e | db
  · exact ⟨rfl, rfl, rfl, rfl⟩
  · exact ⟨rfl, rfl, rfl, rfl⟩

variable (u now) in
theorem persistTeamSubscription_sameOrgs (retrieved : Option SubscriptionData) (sid : String) :
    wp (persistTeamSubscription u now (fun _ => retrieved) sid)
      (fun _ w' => w.store.org.SameOrgs w'.store.org.toOrgTables)
      (fun _ w' => w.store.org.SameOrgs w'.store.org.toOrgTables) w := by
  cases retrieved with
  | none => exact ⟨rfl, rfl, rfl, rfl⟩
  | some d => exact syncIntoStore_sameOrgs

variable (sb now) in
theorem schedulePersonalCancel_sameOrgs (user : UUID) :
    wp (schedulePersonalCancelAtPeriodEnd sb now user)
      (fun _ w' => w.store.org.SameOrgs w'.store.org.toOrgTables)
      (fun _ w' => w.store.org.SameOrgs w'.store.org.toOrgTables) w := by
  unfold wp schedulePersonalCancelAtPeriodEnd
  rcases hfind : w.store.org.customers.find? fun c =>
    decide (c.owner = .user user) with - | personal
  · simp only [hfind]
    exact ⟨rfl, rfl, rfl, rfl⟩
  · simp only [hfind]
    rcases cancelSubscription sb now personal.id true w.billing with ⟨a, bw⟩ | ⟨e, bw⟩
    · exact ⟨rfl, rfl, rfl, rfl⟩
    · cases e <;> exact ⟨rfl, rfl, rfl, rfl⟩

/-- **The insert** goes through exactly when no constraint refuses it. -/
theorem insertOrgForCheckout_cases {x : CheckoutSession} (slug : String)
    (hcustomers : ∀ c ∈ w.store.org.customers, ∀ k, c.owner = .org k →
      ∃ o ∈ w.store.org.orgs, o.id = k)
    (hunknown : ∀ c ∈ w.store.org.customers, c.stripeId ≠ x.stripeCustomerId) :
    (Insertable w.store.org.toOrgTables x slug ∧ ∃ w',
      insertOrgForCheckout x.user x.orgName slug x.stripeCustomerId w = .ok ⟨⟩ w' ∧
        w'.store.org.toOrgTables
          = w.store.org.insertOrg x.user x.orgName slug x.stripeCustomerId) ∨
    (¬ Insertable w.store.org.toOrgTables x slug ∧ ∃ e,
      insertOrgForCheckout x.user x.orgName slug x.stripeCustomerId w = .error e w ∧
        e.isRetried = false) := by
  by_cases hlong : maxOrgText < x.orgName.length ∨ maxOrgText < slug.length
  · refine Or.inr ⟨fun h => ?_, .dataError, if_pos hlong, rfl⟩
    have := h.name_fits
    have := h.slug_fits
    omega
  by_cases hc : (w.store.org.insertOrg x.user x.orgName slug x.stripeCustomerId).Constraints p
  · refine Or.inl ⟨?_, _, insertOrgForCheckout_ok (by omega) (by omega) hc, rfl⟩
    have hmember :
        (⟨w.store.org.nextKey + 1, w.store.org.nextKey, x.user, .owner, true⟩ : OrgMember)
        ∈ (w.store.org.insertOrg x.user x.orgName slug x.stripeCustomerId).members :=
      List.mem_append_right _ (List.mem_singleton.mpr rfl)
    refine ⟨hc.member_user _ hmember, fun m hm howned => ?_, fun hslug => ?_, by omega, by omega⟩
    · -- an owner row that is there already would be the new one
      have heq := hc.uniq_org_owner_per_user.inj (List.mem_append_left _ hm) hmember howned rfl
      have hlt := w.store.org.constraints.new_member m hm
      rw [heq] at hlt
      exact absurd hlt (Nat.not_lt.mpr (Nat.le_add_right ..))
    · obtain ⟨o, ho, hid⟩ := List.mem_map.mp hslug
      have heq := hc.org_slug.inj (List.mem_append_left _ ho)
        (List.mem_append_right _ (List.mem_singleton.mpr rfl)) (congrArg some hid) rfl
      have hlt := w.store.org.constraints.new_org o ho
      rw [heq] at hlt
      exact absurd hlt (Nat.lt_irrefl _)
  · refine Or.inr ⟨fun h => hc ?_, .integrityError, ?_, rfl⟩
    · exact w.store.org.constraints.insertOrg hcustomers h.user h.owns_no_org hunknown h.slug_free
    · unfold insertOrgForCheckout Store.commit
      rw [if_neg hlong, dif_neg fun h => hc h.1]

end Handlers

section Deletion

variable {s : Store p} {org : UUID}

theorem Store.mem_deleteOrg_customers {c : StripeCustomer} {k : UUID} (hc : c.owner = .org k) :
    c ∈ (s.deleteOrg org).org.customers ↔ c ∈ s.org.customers ∧ k ≠ org := by
  show c ∈ List.filter _ (List.filter _ _) ↔ _
  rw [List.mem_filter, List.mem_filter]
  show (c ∈ s.org.customers ∧ _) ∧ _ ↔ _
  simp [hc, Owner.userId, Owner.orgId]

theorem Store.mem_of_mem_deleteOrg {c : StripeCustomer}
    (hc : c ∈ (s.deleteOrg org).org.customers) : c ∈ s.org.customers :=
  (List.filter_sublist.trans List.filter_sublist).subset hc

/-- The members of other organizations stay. -/
theorem Store.mem_deleteOrg_members {m : OrgMember} (hm : m ∈ s.org.members) (hne : m.org ≠ org) :
    m ∈ (s.deleteOrg org).org.members := by
  refine (OrgDb.mem_eraseOrgs s.org).mpr ⟨hm, fun hdel => ?_, by simpa using hne⟩
  exact hne (List.mem_singleton.mp (OrgTables.mem_of_deletable [org] hm hdel))

theorem Store.mem_deleteOrg_orgs {o : Org} : o ∈ (s.deleteOrg org).org.orgs ↔
    ∃ o₀ ∈ s.org.orgs, o₀.id ≠ org ∧ o =
      { o₀ with createdBy := o₀.createdBy.filter (· ∉ s.org.deletableUserIds [org]) } := by
  refine (OrgDb.mem_eraseOrgs_orgs s.org).trans ?_
  simp only [List.mem_singleton, ne_eq]

/-- Other organizations stay, with their customer and their owner. -/
theorem Store.hasOrg_deleteOrg {stripeCustomerId : String} {k : UUID} (hne : k ≠ org)
    (h : s.org.HasOrg stripeCustomerId k) : (s.deleteOrg org).org.HasOrg stripeCustomerId k := by
  obtain ⟨⟨o, ho, hid⟩, ⟨c, hc, hcid, howner⟩, m, hm, hmorg, hrole⟩ := h
  refine ⟨⟨_, mem_deleteOrg_orgs.mpr ⟨o, ho, hid ▸ hne, rfl⟩, hid⟩,
    ⟨c, (mem_deleteOrg_customers howner).mpr ⟨hc, hne⟩, hcid, howner⟩,
    ⟨m, mem_deleteOrg_members hm (hmorg ▸ hne), hmorg, hrole⟩⟩

end Deletion

/-! ### One step -/

variable {u} {sb} {sessions} {start : OrgTables}

/-- The customer of a session is on an organization that the buyer owns. -/
structure CheckoutsInv (sessions : PaidSessions ι) (start : OrgTables) (s : CheckoutState p ι) :
    Prop where
  customer_org : ∀ c ∈ s.world.store.org.customers, ∀ k, c.owner = .org k →
    ∃ o ∈ s.world.store.org.orgs, o.id = k
  owned : ∀ i, ∀ c ∈ s.world.store.org.customers,
    c.stripeId = (sessions.session i).stripeCustomerId → ∃ k, c.owner = .org k ∧
      ∃ m ∈ s.world.store.org.members, m.org = k ∧ m.user = (sessions.session i).user ∧
        m.role = .owner
  complete : ∀ o ∈ s.world.store.org.orgs, o.id ∈ start.orgs.map Org.id ∨
    ∃ i, s.world.store.org.HasOrg (sessions.session i).stripeCustomerId o.id
  unknown : ∀ i slug n, s.tasks i = .slugged slug n →
    ∀ c ∈ s.world.store.org.customers, c.stripeId ≠ (sessions.session i).stripeCustomerId

omit [DecidableEq ι] in
/-- A session has exactly one organization when its customer is there. -/
theorem CheckoutsInv.existsUnique_iff {s : CheckoutState p ι} (hI : CheckoutsInv sessions start s)
    (i : ι) : (∃! org, s.world.store.org.HasOrg (sessions.session i).stripeCustomerId org) ↔
      ∃ c ∈ s.world.store.org.customers,
        c.stripeId = (sessions.session i).stripeCustomerId := by
  constructor
  · rintro ⟨org, ⟨-, ⟨c, hc, hid, -⟩, -⟩, -⟩
    exact ⟨c, hc, hid⟩
  · rintro ⟨c, hc, hid⟩
    obtain ⟨k, howner, m, hm, hmorg, -, hrole⟩ := hI.owned i c hc hid
    refine ⟨k, ⟨hI.customer_org c hc k howner, ⟨c, hc, hid, howner⟩, m, hm, hmorg, hrole⟩, ?_⟩
    -- the Stripe id is unique
    rintro k' ⟨-, ⟨c', hc', hid', howner'⟩, -⟩
    obtain rfl := s.world.store.org.constraints.customer_stripe_id.inj hc' hc (congrArg some hid')
      (congrArg some hid)
    exact Owner.org.inj (howner'.symm.trans howner)

omit [DecidableEq ι] in
theorem CheckoutsInv.served_iff {s : CheckoutState p ι} (hI : CheckoutsInv sessions start s) :
    CheckoutsServed sessions start s ↔
      (∀ i, (s.tasks i).pastOrg = true → s.Safe sessions i) ∧ s.remade = [] := by
  constructor
  · intro h
    exact ⟨fun i hi => (h.served i hi).imp_right (hI.existsUnique_iff i).mp, h.not_remade⟩
  · rintro ⟨hsafe, hremade⟩
    exact ⟨fun i hi => (hsafe i hi).imp_right (hI.existsUnique_iff i).mpr, hI.complete, hremade⟩

/-- A step that only moves the task of `i` on, to `task`. -/
structure Moves (s s' : CheckoutState p ι) (i : ι) (task : CheckoutTask) : Prop where
  rows : s.world.store.org.SameOrgs s'.world.store.org.toOrgTables
  tasks : s'.tasks = Function.update s.tasks i task
  remade : s'.remade = s.remade
  cancelled : s'.cancelled = s.cancelled

section Moves

variable {s s' : CheckoutState p ι} {i : ι} {task : CheckoutTask}

omit [DecidableEq ι] in
/-- What is said of the rows is left by a step that writes none of them. -/
theorem CheckoutsInv.of_sameOrgs (hI : CheckoutsInv sessions start s)
    (h : s.world.store.org.SameOrgs s'.world.store.org.toOrgTables)
    (hslugged : ∀ i slug n, s'.tasks i = .slugged slug n →
      ∀ c ∈ s.world.store.org.customers, c.stripeId ≠ (sessions.session i).stripeCustomerId) :
    CheckoutsInv sessions start s' := by
  obtain ⟨-, horgs, hmembers, hcustomers⟩ := h
  have hhas : ∀ {cus k}, s.world.store.org.HasOrg cus k → s'.world.store.org.HasOrg cus k :=
    fun ⟨ho, hc, hm⟩ => ⟨horgs ▸ ho, hcustomers ▸ hc, hmembers ▸ hm⟩
  refine ⟨?_, ?_, ?_, ?_⟩
  · rw [hcustomers, horgs]
    exact hI.customer_org
  · rw [hcustomers, hmembers]
    exact hI.owned
  · rw [horgs]
    exact fun o ho => (hI.complete o ho).imp_right fun ⟨i, hi⟩ => ⟨i, hhas hi⟩
  · rw [hcustomers]
    exact hslugged

/-- The step keeps the invariant, unless it scans while the customer is there. -/
theorem Moves.inv (hm : Moves s s' i task) (hI : CheckoutsInv sessions start s)
    (hslugged : ∀ slug n, task = .slugged slug n →
      ∀ c ∈ s.world.store.org.customers, c.stripeId ≠ (sessions.session i).stripeCustomerId) :
    CheckoutsInv sessions start s' := by
  refine hI.of_sameOrgs hm.rows fun j slug n hj => ?_
  rw [hm.tasks] at hj
  by_cases hji : j = i
  · subst hji
    rw [Function.update_self] at hj
    exact hslugged slug n hj
  · rw [Function.update_of_ne hji] at hj
    exact hI.unknown j slug n hj

/-- Every session is still served exactly when the one that goes on is. -/
theorem Moves.served_iff (hm : Moves s s' i task) (hI : CheckoutsInv sessions start s)
    (hI' : CheckoutsInv sessions start s') (hP : CheckoutsServed sessions start s) :
    CheckoutsServed sessions start s' ↔
      (task.pastOrg = true → s.Safe sessions i) := by
  have hsafe : ∀ j, s'.Safe sessions j ↔ s.Safe sessions j := fun j => by
    unfold CheckoutState.Safe
    rw [hm.rows.customers, hm.cancelled]
  obtain ⟨hbefore, hremade⟩ := hI.served_iff.mp hP
  rw [hI'.served_iff, hm.tasks, hm.remade]
  constructor
  · intro h htask
    exact (hsafe i).mp (h.1 i (by rwa [Function.update_self]))
  · refine fun h => ⟨fun j hj => (hsafe j).mpr ?_, hremade⟩
    by_cases hji : j = i
    · subst hji
      rw [Function.update_self] at hj
      exact h hj
    · rw [Function.update_of_ne hji] at hj
      exact hbefore j hj

theorem moves_setTask : Moves s (s.setTask i task) i task := ⟨⟨rfl, rfl, rfl, rfl⟩, rfl, rfl, rfl⟩

/-- A part of the handler that writes none of these rows. -/
theorem advance_moves (retries : Nat) {m : App p PUnit} (next : CheckoutTask)
    (h : wp m (fun _ w' => s.world.store.org.SameOrgs w'.store.org.toOrgTables)
      (fun _ w' => s.world.store.org.SameOrgs w'.store.org.toOrgTables) s.world) :
    ∃ task, (task = next ∨ ∃ b, task = .afterError retries b) ∧
      Moves s (s.advance i retries m next) i task := by
  unfold CheckoutState.advance
  unfold wp at h
  rcases hrun : m s.world with ⟨a, w'⟩ | ⟨e, w'⟩ <;> rw [hrun] at h
  · exact ⟨next, Or.inl rfl, h, rfl, rfl, rfl⟩
  · exact ⟨_, Or.inr ⟨_, rfl⟩, h, rfl, rfl, rfl⟩

theorem afterError_ne_slugged (retries : Nat) (b : Bool) (slug : String) (n : Nat) :
    CheckoutTask.afterError retries b ≠ .slugged slug n := by
  unfold CheckoutTask.afterError
  split <;> exact CheckoutTask.noConfusion

end Moves

/-- A step that inserts the organization of `i`. -/
structure Inserts (sessions : PaidSessions ι) (s s' : CheckoutState p ι) (i : ι) (slug : String)
    (retries : Nat) : Prop where
  slugged : s.tasks i = .slugged slug retries
  insertable : Insertable s.world.store.org.toOrgTables (sessions.session i) slug
  rows : s'.world.store.org.toOrgTables = s.world.store.org.insertOrg (sessions.session i).user
    (sessions.session i).orgName slug (sessions.session i).stripeCustomerId
  tasks : s'.tasks = Function.update s.tasks i (.orgReady retries)
  remade : s'.remade = if s.handled i then s.remade ++ [i] else s.remade
  cancelled : s'.cancelled = s.cancelled

/-- A step that leaves the tasks and these rows alone. -/
structure Background (s s' : CheckoutState p ι) : Prop where
  rows : s.world.store.org.SameOrgs s'.world.store.org.toOrgTables
  tasks : s'.tasks = s.tasks
  remade : s'.remade = s.remade
  cancelled : s.cancelled ⊆ s'.cancelled

/-- What a step does: it moves one task on, safely or not, inserts an organization,
leaves everything alone, or deletes an organization. -/
inductive StepEffect (sessions : PaidSessions ι) (start : OrgTables) (s : CheckoutState p ι) :
    CheckoutStep ι → CheckoutState p ι → Prop
  | moves {a s' i task} (hm : Moves s s' i task)
      (hslugged : ∀ slug n, task = .slugged slug n →
        ∀ c ∈ s.world.store.org.customers, c.stripeId ≠ (sessions.session i).stripeCustomerId)
      (hkeeps : CheckoutsServed sessions start s →
        (KeepsServed sessions s a ↔ (task.pastOrg = true → s.Safe sessions i))) :
      StepEffect sessions start s a s'
  | inserts {s' i slug retries} (hi : Inserts sessions s s' i slug retries) :
      StepEffect sessions start s (.insert i) s'
  | background {a s'} (hb : Background s s') (hkeeps : KeepsServed sessions s a) :
      StepEffect sessions start s a s'
  | deletes (org : UUID) :
      StepEffect sessions start s (.deleteOrg org)
        { s with
          world := { s.world with store := s.world.store.deleteOrg org }
          cancelled := s.cancelled ++ s.world.store.org.pendingStripeSubIds [org] }

section Effects

variable {s s' : CheckoutState p ι} {i : ι}

/-- A task that goes on, after its organization was there, is safe already. -/
theorem StepEffect.of_moves {a : CheckoutStep ι} {task : CheckoutTask} (hm : Moves s s' i task)
    (hI : CheckoutsInv sessions start s) (hpast : (s.tasks i).pastOrg = true)
    (hslugged : ∀ slug n, task ≠ .slugged slug n) (hkeeps : KeepsServed sessions s a) :
    StepEffect sessions start s a s' :=
  .moves hm (fun slug n h => absurd h (hslugged slug n)) fun hP =>
    iff_of_true hkeeps fun _ => (hI.served_iff.mp hP).1 i hpast

theorem loadUser_effect {retries : Nat} :
    StepEffect sessions start s (.loadUser i)
      (s.advance i retries (requireUser (sessions.session i).user) (.userLoaded retries)) := by
  unfold CheckoutState.advance requireUser
  by_cases huser : (s.world.store.org.users.any fun x => x.id = (sessions.session i).user) = true
  · rw [if_pos huser]
    refine .moves moves_setTask (fun slug n h => by cases h) fun _ => iff_of_true (Or.inl ?_) ?_
    · simpa using huser
    · exact fun h => by cases h
  · rw [if_neg huser]
    have hfailed : CheckoutTask.afterError retries AppError.userDoesNotExist.isRetried
        = .failed := rfl
    dsimp only
    rw [hfailed]
    refine .moves moves_setTask (fun slug n h => by cases h) fun _ => ?_
    have hnone : ¬ ∃ a ∈ s.world.store.org.users, a.id = (sessions.session i).user := by
      simpa using huser
    exact ⟨fun h _ => h.resolve_left hnone, fun h => Or.inr (h rfl)⟩

omit [DecidableEq ι] in
/-- The look at the customer finds what is there. -/
theorem alreadyCreated_iff (hI : CheckoutsInv sessions start s) :
    s.world.store.org.alreadyCreated (sessions.session i).stripeCustomerId (sessions.session i).user
        = true ↔
      ∃ c ∈ s.world.store.org.customers, c.stripeId = (sessions.session i).stripeCustomerId := by
  rw [OrgDb.alreadyCreated_iff]
  constructor
  · rintro ⟨c, hc, hid, -⟩
    exact ⟨c, hc, hid⟩
  · rintro ⟨c, hc, hid⟩
    obtain ⟨k, howner, m, hm, hmorg, hmuser, -⟩ := hI.owned i c hc hid
    exact ⟨c, hc, hid, k, howner, hI.customer_org c hc k howner, m, hm, hmorg, hmuser⟩

theorem scan_effect (hI : CheckoutsInv sessions start s) {retries : Nat} :
    StepEffect sessions start s (.scan i)
      (s.setTask i (if s.world.store.org.alreadyCreated (sessions.session i).stripeCustomerId
        (sessions.session i).user then .orgReady retries
        else .slugged (s.world.slugFor (sessions.session i).orgName) retries)) := by
  by_cases hready : s.world.store.org.alreadyCreated (sessions.session i).stripeCustomerId
      (sessions.session i).user = true
  · rw [if_pos hready]
    refine .moves moves_setTask (fun slug n h => by cases h) fun _ =>
      iff_of_true trivial fun _ => ?_
    exact Or.inr ((alreadyCreated_iff hI).mp hready)
  · rw [if_neg hready]
    refine .moves moves_setTask (fun slug n _ c hc hid => ?_) fun _ => iff_of_true trivial ?_
    · exact hready ((alreadyCreated_iff hI).mpr ⟨c, hc, hid⟩)
    · exact fun h => by cases h

theorem insert_effect (hI : CheckoutsInv sessions start s) {slug : String} {retries : Nat}
    (htask : s.tasks i = .slugged slug retries) {s₁ : CheckoutState p ι}
    (hs₁ : s₁ = s.advance i retries (insertOrgForCheckout (sessions.session i).user
      (sessions.session i).orgName slug (sessions.session i).stripeCustomerId)
      (.orgReady retries)) :
    StepEffect sessions start s (.insert i)
      (if s₁.tasks i = .orgReady retries && s.handled i then { s₁ with remade := s.remade ++ [i] }
        else s₁) := by
  have hunknown := hI.unknown i slug retries htask
  unfold CheckoutState.advance at hs₁
  rcases insertOrgForCheckout_cases (w := s.world) slug hI.customer_org hunknown with
    ⟨hinsertable, w', hok, hrows⟩ | ⟨hrefused, e, herror, hfatal⟩
  · rw [hok] at hs₁
    have hready : s₁.tasks i = .orgReady retries := by
      rw [hs₁]
      exact Function.update_self ..
    refine .inserts (?_ : Inserts sessions s _ i slug retries)
    rw [hready, decide_eq_true rfl, Bool.true_and, hs₁]
    rcases hhandled : s.handled i with - | -
    · exact ⟨htask, hinsertable, hrows, rfl, by rw [hhandled]; rfl, rfl⟩
    · exact ⟨htask, hinsertable, hrows, rfl, by rw [hhandled]; rfl, rfl⟩
  · have hs₁ : s₁ = s.setTask i .failed := by
      rw [hs₁, herror]
      dsimp only
      rw [hfatal]
      rfl
    have hfailed : s₁.tasks i = .failed := by
      rw [hs₁]
      exact Function.update_self ..
    rw [hfailed, if_neg (by simp), hs₁]
    refine .moves moves_setTask (fun slug n h => by cases h) fun _ => ⟨fun h _ => ?_, fun h => ?_⟩
    · exact Or.inl ((h slug retries htask).2 hrefused)
    · intro slug' retries' htask'
      obtain ⟨rfl, rfl⟩ := CheckoutTask.slugged.inj (htask.symm.trans htask')
      refine ⟨fun hins => absurd hins hrefused, fun _ => (h rfl).resolve_right ?_⟩
      rintro ⟨c, hc, hid⟩
      exact hunknown c hc hid

/-- **What a step does.** -/
theorem checkoutStep_effect {a : CheckoutStep ι} (hI : CheckoutsInv sessions start s)
    (h : checkoutStep u sb sessions s a = some s') : StepEffect sessions start s a s' := by
  cases a with
  | loadUser i =>
    simp only [checkoutStep] at h
    split at h <;> cases h
    exact loadUser_effect
  | scan i =>
    simp only [checkoutStep] at h
    split at h <;> cases h
    exact scan_effect hI
  | insert i =>
    simp only [checkoutStep] at h
    split at h <;> cases h
    case h_1 slug n htask => exact insert_effect hI htask rfl
  | persist i retrieved now =>
    simp only [checkoutStep] at h
    split at h
    case h_1 n htask =>
      split at h <;> cases h
      -- the eager sync may fail, but it leaves the organizations
      obtain ⟨task, hor, hm⟩ := advance_moves (s := s) (i := i) n (.persisted n)
        (persistTeamSubscription_sameOrgs u now retrieved (sessions.session i).subscriptionId)
      refine .of_moves hm hI (by rw [htask]; rfl) ?_ trivial
      rcases hor with rfl | ⟨b, rfl⟩
      · exact fun _ _ => CheckoutTask.noConfusion
      · exact afterError_ne_slugged n b
    case h_2 => cases h
  | cancelPersonal i now =>
    simp only [checkoutStep] at h
    split at h
    case h_1 n htask =>
      have hpast : (s.tasks i).pastOrg = true := by
        rw [htask]
        rfl
      split at h <;> cases h
      · -- the buyer keeps the personal subscription
        exact .of_moves moves_setTask hI hpast (fun _ _ => CheckoutTask.noConfusion) trivial
      · obtain ⟨task, hor, hm⟩ := advance_moves (s := s) (i := i) n .processed
          (schedulePersonalCancel_sameOrgs sb now (sessions.session i).user)
        refine .of_moves hm hI hpast ?_ trivial
        rcases hor with rfl | ⟨b, rfl⟩
        · exact fun _ _ => CheckoutTask.noConfusion
        · exact afterError_ne_slugged n b
    case h_2 => cases h
  | connectionError i =>
    obtain ⟨n, hn, rfl⟩ := Option.map_eq_some_iff.mp h
    refine .moves moves_setTask (fun _ _ h => absurd h (afterError_ne_slugged _ _ _ _))
      fun _ => ?_
    -- the task fails for good only with its last retry
    simp only [KeepsServed, CheckoutTask.afterError, hn, Option.some.injEq, forall_eq',
      Bool.true_and, decide_eq_true_eq]
    split
    case isTrue hlt => exact iff_of_true (Or.inl hlt) fun h => by cases h
    case isFalse hlt => exact ⟨fun h _ => h.resolve_left hlt, fun h => Or.inr (h rfl)⟩
  | replay i =>
    simp only [checkoutStep] at h
    split at h
    case isTrue =>
      cases h
      refine .moves moves_setTask (fun slug n h => by cases h) fun _ => iff_of_true trivial ?_
      exact fun h => by cases h
    case isFalse => cases h
  | sync d now =>
    cases h
    exact .background ⟨wp_final_iff.mp syncIntoStore_sameOrgs, rfl, rfl, List.Subset.refl _⟩ trivial
  | ended i =>
    cases h
    exact .background ⟨⟨rfl, rfl, rfl, rfl⟩, rfl, rfl, List.subset_append_left ..⟩ trivial
  | deleteOrg org =>
    cases h
    exact .deletes org

end Effects

section Inserts

variable {s s' : CheckoutState p ι} {i : ι} {slug : String} {retries : Nat}

/-- The rows of an insert, each with what it is for. -/
theorem Inserts.inv (h : Inserts sessions s s' i slug retries)
    (hI : CheckoutsInv sessions start s) : CheckoutsInv sessions start s' := by
  have horgs := congrArg OrgTables.orgs h.rows
  have hmembers := congrArg OrgTables.members h.rows
  have hcustomers := congrArg OrgTables.customers h.rows
  have hold : ∀ {cus k}, s.world.store.org.HasOrg cus k → s'.world.store.org.HasOrg cus k := by
    rintro cus k ⟨⟨o, ho, hid⟩, ⟨c, hc, hcus⟩, m, hm, hmorg⟩
    exact ⟨⟨o, horgs ▸ List.mem_append_left _ ho, hid⟩,
      ⟨c, hcustomers ▸ List.mem_append_left _ hc, hcus⟩, m,
      hmembers ▸ List.mem_append_left _ hm, hmorg⟩
  have hnewOrg : (⟨s.world.store.org.nextKey, (sessions.session i).orgName, slug,
      some (sessions.session i).user⟩ : Org) ∈ s'.world.store.org.orgs :=
    horgs ▸ List.mem_append_right _ (List.mem_singleton.mpr rfl)
  have hnewMember : (⟨s.world.store.org.nextKey + 1, s.world.store.org.nextKey,
      (sessions.session i).user, .owner, true⟩ : OrgMember) ∈ s'.world.store.org.members :=
    hmembers ▸ List.mem_append_right _ (List.mem_singleton.mpr rfl)
  have hnewCustomer : (⟨s.world.store.org.nextKey + 2, (sessions.session i).stripeCustomerId,
      .org s.world.store.org.nextKey⟩ : StripeCustomer) ∈ s'.world.store.org.customers :=
    hcustomers ▸ List.mem_append_right _ (List.mem_singleton.mpr rfl)
  refine ⟨fun c hc k howner => ?_, fun j c hc hid => ?_, fun o ho => ?_,
    fun j slug' n hj c hc => ?_⟩
  · rw [hcustomers] at hc
    rcases List.mem_append.mp hc with hc | hc
    · obtain ⟨o, ho, hid⟩ := hI.customer_org c hc k howner
      exact ⟨o, horgs ▸ List.mem_append_left _ ho, hid⟩
    · rw [List.mem_singleton.mp hc] at howner
      exact ⟨_, hnewOrg, Owner.org.inj howner⟩
  · rw [hcustomers] at hc
    rcases List.mem_append.mp hc with hc | hc
    · obtain ⟨k, howner, m, hm, hrest⟩ := hI.owned j c hc hid
      exact ⟨k, howner, m, hmembers ▸ List.mem_append_left _ hm, hrest⟩
    · rw [List.mem_singleton.mp hc] at hid ⊢
      -- the customer is of this session only
      obtain rfl := sessions.customer_injective hid
      exact ⟨_, rfl, _, hnewMember, rfl, rfl, rfl⟩
  · rw [horgs] at ho
    rcases List.mem_append.mp ho with ho | ho
    · exact (hI.complete o ho).imp_right fun ⟨j, hj⟩ => ⟨j, hold hj⟩
    · rw [List.mem_singleton.mp ho]
      exact Or.inr ⟨i, ⟨_, hnewOrg, rfl⟩, ⟨_, hnewCustomer, rfl, rfl⟩, _, hnewMember, rfl, rfl⟩
  · rw [h.tasks] at hj
    by_cases hji : j = i
    · subst hji
      rw [Function.update_self] at hj
      cases hj
    · rw [Function.update_of_ne hji] at hj
      rw [hcustomers] at hc
      rcases List.mem_append.mp hc with hc | hc
      · exact hI.unknown j slug' n hj c hc
      · rw [List.mem_singleton.mp hc]
        exact fun hid => hji (sessions.customer_injective hid).symm

/-- ... and serves every session when the task was not processed before. -/
theorem Inserts.served_iff (h : Inserts sessions s s' i slug retries)
    (hI : CheckoutsInv sessions start s) (hP : CheckoutsServed sessions start s) :
    CheckoutsServed sessions start s' ↔ KeepsServed sessions s (.insert i) := by
  obtain ⟨hsafe, hremade⟩ := hI.served_iff.mp hP
  have hcustomers := congrArg OrgTables.customers h.rows
  have hkeeps : KeepsServed sessions s (.insert i) ↔ s.handled i = false := by
    constructor
    · exact fun hk => (hk slug retries h.slugged).1 h.insertable
    · intro hk slug' retries' htask
      obtain ⟨rfl, rfl⟩ := CheckoutTask.slugged.inj (h.slugged.symm.trans htask)
      exact ⟨fun _ => hk, fun hnot => absurd h.insertable hnot⟩
  have hsafe' : ∀ j, (s'.tasks j).pastOrg = true → s'.Safe sessions j := by
    intro j hj
    by_cases hji : j = i
    · subst hji
      refine Or.inr ⟨⟨s.world.store.org.nextKey + 2, (sessions.session j).stripeCustomerId,
        .org s.world.store.org.nextKey⟩, ?_, rfl⟩
      rw [hcustomers]
      exact List.mem_append_right _ (List.mem_singleton.mpr rfl)
    · rw [h.tasks, Function.update_of_ne hji] at hj
      rcases hsafe j hj with hcancelled | ⟨c, hc, hid⟩
      · exact Or.inl (h.cancelled ▸ hcancelled)
      · exact Or.inr ⟨c, hcustomers ▸ List.mem_append_left _ hc, hid⟩
  rw [(h.inv hI).served_iff, hkeeps, h.remade, hremade, and_iff_right hsafe']
  rcases s.handled i with - | - <;> simp

end Inserts

section Deletes

variable {s : CheckoutState p ι} {org : UUID}

/-- The state after the deletion of an organization. -/
abbrev CheckoutState.afterDelete (s : CheckoutState p ι) (org : UUID) : CheckoutState p ι :=
  { s with
    world := { s.world with store := s.world.store.deleteOrg org }
    cancelled := s.cancelled ++ s.world.store.org.pendingStripeSubIds [org] }

omit [DecidableEq ι] in
theorem CheckoutsInv.afterDelete (hI : CheckoutsInv sessions start s) :
    CheckoutsInv sessions start (s.afterDelete org) := by
  refine ⟨fun c hc k howner => ?_, fun i c hc hid => ?_, fun o ho => ?_, fun i slug n hi c hc => ?_⟩
  · obtain ⟨hc, hne⟩ := (Store.mem_deleteOrg_customers howner).mp hc
    obtain ⟨o, ho, hid⟩ := hI.customer_org c hc k howner
    exact ⟨_, Store.mem_deleteOrg_orgs.mpr ⟨o, ho, hid ▸ hne, rfl⟩, hid⟩
  · obtain ⟨k, howner, m, hm, hmorg, hrest⟩ := hI.owned i c (Store.mem_of_mem_deleteOrg hc) hid
    obtain ⟨-, hne⟩ := (Store.mem_deleteOrg_customers howner).mp hc
    exact ⟨k, howner, m, Store.mem_deleteOrg_members hm (hmorg ▸ hne), hmorg, hrest⟩
  · obtain ⟨o₀, ho₀, hne, rfl⟩ := Store.mem_deleteOrg_orgs.mp ho
    exact (hI.complete o₀ ho₀).imp_right fun ⟨i, hi⟩ => ⟨i, Store.hasOrg_deleteOrg hne hi⟩
  · exact hI.unknown i slug n hi c (Store.mem_of_mem_deleteOrg hc)

omit [DecidableEq ι] in
theorem CheckoutsInv.served_afterDelete (hI : CheckoutsInv sessions start s)
    (hP : CheckoutsServed sessions start s) :
    CheckoutsServed sessions start (s.afterDelete org) ↔
      KeepsServed sessions s (.deleteOrg org) := by
  obtain ⟨hsafe, hremade⟩ := hI.served_iff.mp hP
  rw [hI.afterDelete.served_iff, and_iff_left hremade]
  constructor
  · rintro h i hi ⟨c, hc, hid, howner⟩
    refine (h i hi).resolve_right ?_
    rintro ⟨c', hc', hid'⟩
    obtain rfl := s.world.store.org.constraints.customer_stripe_id.inj
      (Store.mem_of_mem_deleteOrg hc') hc (congrArg some hid') (congrArg some hid)
    exact ((Store.mem_deleteOrg_customers howner).mp hc').2 rfl
  · intro h i hi
    rcases hsafe i hi with hcancelled | ⟨c, hc, hid⟩
    · exact Or.inl (List.mem_append_left _ hcancelled)
    · obtain ⟨k, howner, -⟩ := hI.owned i c hc hid
      by_cases hk : k = org
      · exact Or.inl (h i hi ⟨c, hc, hid, hk ▸ howner⟩)
      · exact Or.inr ⟨c, (Store.mem_deleteOrg_customers howner).mpr ⟨hc, hk⟩, hid⟩

end Deletes

/-! ### Runs -/

section Runs

variable {s s' : CheckoutState p ι} {a : CheckoutStep ι}

omit [DecidableEq ι] in
theorem Background.inv (h : Background s s') (hI : CheckoutsInv sessions start s) :
    CheckoutsInv sessions start s' :=
  hI.of_sameOrgs h.rows fun i slug n hi => hI.unknown i slug n (h.tasks ▸ hi)

omit [DecidableEq ι] in
theorem Background.served (h : Background s s') (hI : CheckoutsInv sessions start s)
    (hP : CheckoutsServed sessions start s) : CheckoutsServed sessions start s' := by
  obtain ⟨hsafe, hremade⟩ := hI.served_iff.mp hP
  refine (h.inv hI).served_iff.mpr ⟨fun i hi => ?_, h.remade.trans hremade⟩
  rw [h.tasks] at hi
  rcases hsafe i hi with hcancelled | hknown
  · exact Or.inl (h.cancelled hcancelled)
  · exact Or.inr (h.rows.customers ▸ hknown)

theorem checkoutStep_inv (hI : CheckoutsInv sessions start s)
    (h : checkoutStep u sb sessions s a = some s') : CheckoutsInv sessions start s' := by
  rcases checkoutStep_effect hI h with ⟨hm, hslugged, -⟩ | hi | ⟨hb, -⟩ | org
  · exact hm.inv hI hslugged
  · exact hi.inv hI
  · exact hb.inv hI
  · exact hI.afterDelete

theorem checkoutStep_served_iff (hI : CheckoutsInv sessions start s)
    (hP : CheckoutsServed sessions start s) (h : checkoutStep u sb sessions s a = some s') :
    CheckoutsServed sessions start s' ↔ KeepsServed sessions s a := by
  rcases checkoutStep_effect hI h with ⟨hm, hslugged, hkeeps⟩ | hi | ⟨hb, hkeeps⟩ | org
  · rw [hkeeps hP]
    exact hm.served_iff hI (hm.inv hI hslugged) hP
  · exact hi.served_iff hI hP
  · exact iff_of_true (hb.served hI hP) hkeeps
  · exact hI.served_afterDelete hP

end Runs

/-- Before the first event: no session's customer is known, and customers are on
organizations that are there. -/
structure CheckoutsStart (sessions : PaidSessions ι) (w : AppWorld p) : Prop where
  customer_org : ∀ c ∈ w.store.org.customers, ∀ k, c.owner = .org k →
    ∃ o ∈ w.store.org.orgs, o.id = k
  unknown : ∀ i, ∀ c ∈ w.store.org.customers, c.stripeId ≠ (sessions.session i).stripeCustomerId

omit [DecidableEq ι] in
theorem CheckoutsStart.inv {w : AppWorld p} (h : CheckoutsStart sessions w) :
    CheckoutsInv sessions w.store.org.toOrgTables (.init ι w) where
  customer_org := h.customer_org
  owned i c hc hid := absurd hid (h.unknown i c hc)
  complete o ho := Or.inl (List.mem_map.mpr ⟨o, ho, rfl⟩)
  unknown _ _ _ hi := by cases hi

/-- **Every session is served**, throughout a run of the tasks, exactly when each
buyer has an account when the task looks it up, each insert goes through and is
the first of its session, no loss of the connection outlasts the retries, and
no organization is deleted whose subscription is not handed over. -/
theorem checkouts_served_iff {w : AppWorld p} (h : CheckoutsStart sessions w)
    (steps : List (CheckoutStep ι)) :
    Runs.Always (checkoutStep u sb sessions) (CheckoutsServed sessions w.store.org.toOrgTables)
        (.init ι w) steps ↔
      Runs.EachStep (checkoutStep u sb sessions) (KeepsServed sessions) (.init ι w) steps := by
  refine Runs.always_iff_eachStep (fun _ _ _ => checkoutStep_inv)
    (fun _ _ _ hI hP hs => checkoutStep_served_iff hI hP hs) h.inv ?_
  exact h.inv.served_iff.mpr ⟨fun i hi => (by cases hi), rfl⟩

/-! ### Two buyers -/

/-- Users 4 and 6 have paid for teams of the same name. -/
def twoBuyers : PaidSessions Bool where
  session
    | false => ⟨4, "beta", "cus_1", "sub_1", true⟩
    | true => ⟨6, "beta", "cus_2", "sub_2", false⟩
  customer_injective := by
    rintro (- | -) (- | -) h
    · rfl
    · exact absurd h (by decide)
    · exact absurd h (by decide)
    · rfl

def twoBuyersTables : OrgTables :=
  { sampleTeamTables "acme" with users := [⟨4, "ada@x"⟩, ⟨6, "bob@x"⟩], nextKey := 7 }

theorem twoBuyersTables_constraints : twoBuyersTables.Constraints wordPlatform := by
  constructor <;> simp [twoBuyersTables, sampleTeamTables, Table.Unique]
  decide

theorem twoBuyersTables_uniq_stripe_id :
    Table.Unique Subscription.stripeId twoBuyersTables.subscriptions := List.nodup_nil

def twoBuyersWorld : AppWorld wordPlatform :=
  { sampleTeamWorld "acme" with
    store :=
      { org := ⟨twoBuyersTables, twoBuyersTables_constraints⟩
        catalog := sampleDb.catalog
        uniq_stripe_id := twoBuyersTables_uniq_stripe_id } }

theorem twoBuyers_start : CheckoutsStart twoBuyers twoBuyersWorld :=
  ⟨fun _ h => (by cases h), fun _ _ h => (by cases h)⟩

/-- The second task loses its connection after the scan and finds the slug taken
when it scans again; then Stripe does not answer it, and it finds its organization
when it is retried.  The event of the first one is sent twice. -/
def twoBuyersSteps : List (CheckoutStep Bool) :=
  [.loadUser false, .loadUser true, .scan false, .scan true, .insert false, .connectionError true,
    .loadUser true, .scan true, .persist false (some sampleTeamVersion.data) 100, .insert true,
    .cancelPersonal false 100, .persist true none 100, .loadUser true, .scan true,
    .persist true (some { sampleTeamVersion.data with id := "sub_2", customer := "cus_2" }) 110,
    .cancelPersonal true 110, .replay false, .loadUser false, .scan false]

theorem checkouts_served_iff_twoBuyers :
    ∃ t, Runs.run (checkoutStep asciiTables sampleBehaviour twoBuyers)
          (.init Bool twoBuyersWorld) twoBuyersSteps = some t ∧
      t.world.store.org.orgs.map Org.slug = ["acme", "beta", "beta-2"] ∧
      CheckoutsServed twoBuyers twoBuyersWorld.store.org.toOrgTables t := by
  have hrun : ((Runs.run (checkoutStep asciiTables sampleBehaviour twoBuyers)
      (.init Bool twoBuyersWorld) twoBuyersSteps).map fun t =>
        t.world.store.org.orgs.map Org.slug) = some ["acme", "beta", "beta-2"] := by
    decide +kernel
  obtain ⟨t, ht, hslugs⟩ := Option.map_eq_some_iff.mp hrun
  have hkeeps : Runs.EachStep (checkoutStep asciiTables sampleBehaviour twoBuyers)
      (KeepsServed twoBuyers) (.init Bool twoBuyersWorld) twoBuyersSteps := by
    decide +kernel
  exact ⟨t, ht, hslugs, ((checkouts_served_iff twoBuyers_start twoBuyersSteps).mpr hkeeps).last ht⟩

/-! ### Two sessions of one user -/

/-- User 4 has paid for two teams. -/
def sampleSessions : PaidSessions Bool where
  session
    | false => ⟨4, "beta", "cus_1", "sub_1", true⟩
    | true => ⟨4, "gamma", "cus_2", "sub_2", true⟩
  customer_injective := by
    rintro (- | -) (- | -) h
    · rfl
    · exact absurd h (by decide)
    · exact absurd h (by decide)
    · rfl

/-- Both events are processed, one after the other. -/
def sampleCheckoutSteps : List (CheckoutStep Bool) :=
  [.loadUser false, .scan false, .insert false, .persist false (some sampleTeamVersion.data) 100,
    .cancelPersonal false 100, .loadUser true, .scan true, .insert true]

/-- The second insert would make user 4 the owner of two organizations.  Its event
has failed for good, and its subscription goes on without an organization. -/
theorem second_checkout_lost :
    ¬ Runs.Always (checkoutStep asciiTables sampleBehaviour sampleSessions)
        (CheckoutsServed sampleSessions (sampleTeamWorld "acme").store.org.toOrgTables)
        (.init Bool (sampleTeamWorld "acme")) sampleCheckoutSteps := by
  intro h
  have hrun : (Runs.run (checkoutStep asciiTables sampleBehaviour sampleSessions)
      (.init Bool (sampleTeamWorld "acme")) sampleCheckoutSteps).any (fun t =>
        t.tasks true = .failed && t.cancelled = [] &&
          t.world.store.org.customers.all fun c => c.stripeId != "cus_2") = true := by
    decide +kernel
  obtain ⟨t, ht, hend⟩ := Option.any_eq_true _ _ |>.mp hrun
  simp only [Bool.and_eq_true, decide_eq_true_eq, List.all_eq_true, bne_iff_ne] at hend
  obtain ⟨⟨hfailed, hcancelled⟩, hnone⟩ := hend
  rcases (h.last ht).served true (by rw [hfailed]; rfl) with hin | ⟨org, ⟨-, ⟨c, hc, hid, -⟩, -⟩, -⟩
  · rw [hcancelled] at hin
    cases hin
  · exact hnone c hc hid

end Saasmint
