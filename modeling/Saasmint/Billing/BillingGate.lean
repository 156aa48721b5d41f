/-
Saasmint/Billing/BillingGate.lean

The gate of the app's billing actions (`assertCanManageBilling` in
src/app/actions/billing.ts) against the backend that it stands before.

An action first lists the subscriptions and the first page of members of the
first organization, and decides whether the user may manage the subscription of
the context.  Then it sends the request, which the backend routes by lookups of
its own.  The gate orders the organizations by name and the members by the time
they joined, and sees one page of each; the backend takes the membership with
the least id.  The two are about one subscription, and the gate refuses nobody
whom the backend serves, exactly when a membership with `is_billing` is the
first of the user and on the page (`gateFits_iff`).
-/
import Mathlib.Data.List.Sort
import Saasmint.Billing.TeamRouting

namespace Saasmint

open Programs PyStr

/-! ### The lists that the app reads -/

/-- `_DEFAULT_PAGE_SIZE`. -/
def defaultPageSize : Nat := 50

/-- What the reads of an action depend on, beside the tables: the order of the
names in the database, the times at which the members joined, and which of the
reads are answered. -/
structure AppReads where
  orgs : List Org
  nameBefore : String → String → Bool
  joinedAt : OrgMember → Timestamp
  /-- The cookie has an access token that names the user. -/
  session : Bool
  subscriptionsAnswered : Bool
  orgsAnswered : Bool
  membersAnswered : Bool

/-- Every read is answered. -/
structure AppReads.Answered (f : AppReads) : Prop where
  session : f.session = true
  subscriptions : f.subscriptionsAnswered = true
  orgs : f.orgsAnswered = true
  members : f.membersAnswered = true

/-- `OrgListView`, the first page. -/
def AppReads.orgList (f : AppReads) (members : List OrgMember) (user : UUID) : List Org :=
  ((f.orgs.filter fun o => members.any fun m => m.org = o.id ∧ m.user = user).insertionSort
    fun a b => f.nameBefore a.name b.name = true).take defaultPageSize

/-- `OrgMemberListView`, the first page. -/
def AppReads.memberList (f : AppReads) (members : List OrgMember) (org : UUID) :
    List OrgMember :=
  ((members.filter fun m => m.org = org).insertionSort
    fun a b => f.joinedAt a ≤ f.joinedAt b).take defaultPageSize

/-- `getUserOrgs`: a failed read is an empty list. -/
def AppReads.getUserOrgs (f : AppReads) (members : List OrgMember) (user : UUID) : List Org :=
  if f.orgsAnswered then f.orgList members user else []

/-- `getOrgMembers`: a failed read is an empty list. -/
def AppReads.getOrgMembers (f : AppReads) (members : List OrgMember) (org : UUID) :
    List OrgMember :=
  if f.membersAnswered then f.memberList members org else []

/-! ### The gate -/

def findPersonalSubscription (t : CatalogTables) (subscriptions : List Subscription) :
    Option Subscription :=
  subscriptions.find? fun s => t.planContext s.planId = some .personal

def findTeamSubscription (t : CatalogTables) (subscriptions : List Subscription) :
    Option Subscription :=
  subscriptions.find? fun s => t.planContext s.planId = some .team

def AppReads.canManageBilling (f : AppReads) (t : CatalogTables) (members : List OrgMember)
    (user : UUID) (subscription : Subscription) : Bool :=
  if t.planContext subscription.planId = some .personal then true
  else
    match (f.getUserOrgs members user).head? with
    | none => false
    | some org => ((f.getOrgMembers members org.id).find? fun m => m.user = user).any (·.isBilling)

/-- The errors of the gate, by their codes. -/
inductive GateError
  | unanswered | noSession | contextRequired | noSubscription | notBillingMember
  deriving DecidableEq, Repr

/-- The subscription of the context; without one, the only one there is. -/
def chosenSubscription (t : CatalogTables) (subscriptions : List Subscription) :
    Option PlanContext → Except GateError (Option Subscription)
  | some .personal => .ok (findPersonalSubscription t subscriptions)
  | some .team => .ok (findTeamSubscription t subscriptions)
  | none => if subscriptions.length > 1 then .error .contextRequired else .ok subscriptions.head?

/-- `assertCanManageBilling`. -/
def AppReads.assertCanManageBilling (f : AppReads) (db : BillingDb) (members : List OrgMember)
    (user : UUID) (context : Option PlanContext) : Except GateError Subscription := do
  if !f.subscriptionsAnswered then throw .unanswered
  if !f.session then throw .noSession
  match ← chosenSubscription db.catalog (db.getActiveSubscriptionsForUser members user) context with
  | none => throw .noSubscription
  | some s =>
    if f.canManageBilling db.catalog members user s then return s
    else throw .notBillingMember

/-- **The gate and the backend agree.** -/
structure GateFits (f : AppReads) (w : BillingWorld) (members : List OrgMember)
    (user : UUID) : Prop where
  /-- A request that the gate lets through changes the subscription that the gate
  has looked at and no other. -/
  changes : ∀ context s, f.assertCanManageBilling w.db members user context = .ok s →
    ∀ u sb now (mutation : SubscriptionMutation),
      wp (mutation.run u sb now members user (context.map PlanContext.value))
        (fun _ w' => w.ChangesOnly (fun sid => s.stripeId = some sid) w')
        (fun _ w' => w.ChangesOnly (fun sid => s.stripeId = some sid) w') w
  /-- Where the backend has a subscription to change, the gate lets through. -/
  serves : ∀ context resolved c row sid,
    ActsOn w.db members user (some (PlanContext.value context)) resolved c row sid →
      f.assertCanManageBilling w.db members user (some context) = .ok row

/-- The membership with `is_billing` that the backend takes, where its
organization has a subscription, is the first of the user, and one with
`is_billing` is on the page that the gate reads. -/
def AppReads.ShowsBilling (f : AppReads) (db : BillingDb) (members : List OrgMember)
    (user : UUID) : Prop :=
  ∀ m, (members.filter fun m => m.user = user ∧ m.isBilling = true).argmin OrgMember.id = some m →
    db.HasTeamSubscription m.org →
    (members.filter fun m => m.user = user).argmin OrgMember.id = some m ∧
      ∃ org, (f.orgList members user).head? = some org ∧
        ∃ m' ∈ f.memberList members org.id, m'.user = user ∧ m'.isBilling = true

/-- The rows are on the customers whose plans they have. -/
structure BillingDb.RowsFit (db : BillingDb) : Prop where
  plan : ∀ c ∈ db.customers, ∀ row ∈ db.subscriptions.rows, row.stripeCustomerId = some c.id →
    db.catalog.planContext row.planId = some c.scope
  user : ∀ row ∈ db.subscriptions.rows, ∀ user, row.userId = some user →
    ∃ c ∈ db.customers, c.owner = .user user ∧ row.stripeCustomerId = some c.id

variable {f : AppReads} {w : BillingWorld} {db : BillingDb} {members : List OrgMember}
  {user : UUID} {sid : String} {row : Subscription} {c : StripeCustomer} {m : OrgMember}
  {owner : Owner}

/-! ### The listing -/

/-- The team subscription of the listing. -/
def BillingDb.teamSub (db : BillingDb) (members : List OrgMember) (user : UUID) :
    Option Subscription :=
  ((members.filter fun m => m.user = user).argmin OrgMember.id).bind fun m =>
    Table.latest? Subscription.createdAt
      ((db.subscriptions.rows.filter fun s => s.status.isActive).filter fun s =>
        (db.customerOf s).any fun c => c.owner = .org m.org)

/-- The personal subscription of the listing. -/
def BillingDb.latestPersonal (db : BillingDb) (user : UUID) : Option Subscription :=
  Table.latest? Subscription.createdAt
    ((db.subscriptions.rows.filter fun s => s.status.isActive).filter fun s =>
      s.userId = some user || (db.customerOf s).any fun c => c.owner = .user user)

theorem getActiveSubscriptionsForUser_eq :
    db.getActiveSubscriptionsForUser members user
      = (db.teamSub members user).toList ++
        ((db.latestPersonal user).filter fun s =>
          (db.teamSub members user).all fun team => s.id ≠ team.id).toList := rfl

/-- The latest of the rows that are the customer's. -/
theorem latest_of_customer {p : Subscription → Bool}
    (hp : ∀ s ∈ db.subscriptions.rows, p s = true ↔ s.stripeCustomerId = some c.id) :
    Table.latest? Subscription.createdAt
        ((db.subscriptions.rows.filter fun s => s.status.isActive).filter p)
      = db.getActiveForCustomer c.id := by
  unfold BillingDb.getActiveForCustomer
  rw [List.filter_filter]
  congr 1
  apply List.filter_congr
  intro s hs
  rw [Bool.eq_iff_iff, Bool.and_eq_true, Bool.and_eq_true, decide_eq_true_iff, hp s hs]

theorem getActive_of_activeRow (h : db.activeRow c.id = some (row, sid)) :
    db.getActiveForCustomer c.id = some row := by
  obtain ⟨active, hlatest, hrow⟩ := Option.bind_eq_some_iff.mp h
  obtain ⟨id, -, heq⟩ := Option.map_eq_some_iff.mp hrow
  rw [hlatest, (Prod.mk.inj heq).1]

/-- A customer found by its owner. -/
theorem customer_of_owner (hc : RoutingConstraints db members) :
    (db.customers.find? fun c => c.owner = owner) = some c
      ↔ c ∈ db.customers ∧ c.owner = owner := by
  have := Table.find?_eq_some_iff (v := owner) (a := c) hc.customer_owner
  simpa using this

/-- Where the first membership of the user is in the organization of the
customer, its active row is listed as the team's. -/
theorem teamSub_of_first (hc : RoutingConstraints db members) (hmem : c ∈ db.customers)
    (hfirst : (members.filter fun m => m.user = user).argmin OrgMember.id = some m)
    (howner : c.owner = .org m.org) : db.teamSub members user = db.getActiveForCustomer c.id := by
  rw [BillingDb.teamSub, hfirst, Option.bind_some]
  apply latest_of_customer
  intro s _
  rw [← howner]
  exact customerOf_any_iff hc hmem s

/-- The personal subscription of the listing is the active row of the user's
customer. -/
theorem latestPersonal_eq (hc : RoutingConstraints db members) (hfit : db.RowsFit)
    (hmem : c ∈ db.customers) (howner : c.owner = .user user) :
    db.latestPersonal user = db.getActiveForCustomer c.id := by
  apply latest_of_customer
  intro s hs
  have hcustomer := customerOf_any_iff hc hmem s
  rw [howner] at hcustomer
  rw [Bool.or_eq_true, decide_eq_true_iff, hcustomer]
  constructor
  · rintro (huser | h)
    · obtain ⟨c', hmem', howner', hid⟩ := hfit.user s hs user huser
      obtain rfl : c' = c :=
        hc.customer_owner.inj hmem' hmem (congrArg some (howner'.trans howner.symm)) rfl
      exact hid
    · exact h
  · exact Or.inr

theorem customerOf_eq_some (h : (db.customerOf row).any (fun c => c.owner = owner) = true) :
    ∃ c ∈ db.customers, c.owner = owner ∧ row.stripeCustomerId = some c.id := by
  obtain ⟨c, hc, howner⟩ := (Option.any_eq_true _ _).mp h
  obtain ⟨id, hid, hfind⟩ := Option.bind_eq_some_iff.mp hc
  obtain rfl : c.id = id := by simpa using List.find?_some hfind
  exact ⟨c, List.mem_of_find?_eq_some hfind, of_decide_eq_true howner, hid⟩

/-- The team subscription is on the customer of the first organization. -/
theorem teamSub_spec (h : db.teamSub members user = some row) :
    ∃ m, (members.filter fun m => m.user = user).argmin OrgMember.id = some m ∧
      ∃ c ∈ db.customers, c.owner = .org m.org ∧ row.stripeCustomerId = some c.id ∧
        row ∈ db.subscriptions.rows := by
  obtain ⟨m, hfirst, hlatest⟩ := Option.bind_eq_some_iff.mp h
  obtain ⟨hactive, howner⟩ := List.mem_filter.mp (Table.mem_of_latest? hlatest)
  obtain ⟨c, hc, hcowner, hid⟩ := customerOf_eq_some howner
  exact ⟨m, hfirst, c, hc, hcowner, hid, (List.mem_filter.mp hactive).1⟩

/-- The personal subscription is on the customer of the user. -/
theorem latestPersonal_spec (hfit : db.RowsFit) (h : db.latestPersonal user = some row) :
    ∃ c ∈ db.customers, c.owner = .user user ∧ row.stripeCustomerId = some c.id ∧
      row ∈ db.subscriptions.rows := by
  obtain ⟨hactive, howner⟩ := List.mem_filter.mp (Table.mem_of_latest? h)
  have hrow := (List.mem_filter.mp hactive).1
  rcases (Bool.or_eq_true _ _).mp howner with huser | howner
  · obtain ⟨c, hc, hcowner, hid⟩ := hfit.user row hrow user (of_decide_eq_true huser)
    exact ⟨c, hc, hcowner, hid, hrow⟩
  · obtain ⟨c, hc, hcowner, hid⟩ := customerOf_eq_some howner
    exact ⟨c, hc, hcowner, hid, hrow⟩

theorem teamSub_context (hfit : db.RowsFit) (h : db.teamSub members user = some row) :
    db.catalog.planContext row.planId = some .team := by
  obtain ⟨m, -, c, hc, howner, hid, hrow⟩ := teamSub_spec h
  have := hfit.plan c hc row hrow hid
  rwa [StripeCustomer.scope, howner] at this

theorem latestPersonal_context (hfit : db.RowsFit) (h : db.latestPersonal user = some row) :
    db.catalog.planContext row.planId = some .personal := by
  obtain ⟨c, hc, howner, hid, hrow⟩ := latestPersonal_spec hfit h
  have := hfit.plan c hc row hrow hid
  rwa [StripeCustomer.scope, howner] at this

/-- The listing is the two subscriptions. -/
theorem listing_eq (hfit : db.RowsFit) :
    db.getActiveSubscriptionsForUser members user
      = (db.teamSub members user).toList ++ (db.latestPersonal user).toList := by
  rw [getActiveSubscriptionsForUser_eq]
  congr 2
  rcases hs : db.latestPersonal user with - | s
  · rfl
  apply Option.filter_some_pos
  rw [Option.all_eq_true]
  intro team hteam
  apply decide_eq_true
  intro hid
  -- a row is not of both contexts
  obtain ⟨-, -, -, -, -, -, hrow⟩ := teamSub_spec hteam
  obtain ⟨-, -, -, -, hrow'⟩ := latestPersonal_spec hfit hs
  obtain rfl : s = team := db.subscriptions.pk.inj hrow' hrow (congrArg some hid) rfl
  have := (latestPersonal_context hfit hs).symm.trans (teamSub_context hfit hteam)
  cases this

theorem findTeam_listing (hfit : db.RowsFit) :
    findTeamSubscription db.catalog (db.getActiveSubscriptionsForUser members user)
      = db.teamSub members user := by
  rw [listing_eq hfit, findTeamSubscription, List.find?_append]
  have hpersonal : (db.latestPersonal user).toList.find?
      (fun s => db.catalog.planContext s.planId = some .team) = none := by
    rw [List.find?_eq_none]
    intro s hs
    rw [latestPersonal_context hfit (Option.mem_toList.mp hs)]
    decide
  rw [hpersonal, Option.or_none]
  rcases h : db.teamSub members user with - | s
  · rfl
  · rw [Option.toList_some, List.find?_singleton, teamSub_context hfit h]
    rfl

theorem findPersonal_listing (hfit : db.RowsFit) :
    findPersonalSubscription db.catalog (db.getActiveSubscriptionsForUser members user)
      = db.latestPersonal user := by
  rw [listing_eq hfit, findPersonalSubscription, List.find?_append]
  have hteam : (db.teamSub members user).toList.find?
      (fun s => db.catalog.planContext s.planId = some .personal) = none := by
    rw [List.find?_eq_none]
    intro s hs
    rw [teamSub_context hfit (Option.mem_toList.mp hs)]
    decide
  rw [hteam, Option.none_or]
  rcases h : db.latestPersonal user with - | s
  · rfl
  · rw [Option.toList_some, List.find?_singleton, latestPersonal_context hfit h]
    rfl

/-! ### What the gate lets through -/

theorem assertCanManageBilling_eq_ok {context : Option PlanContext} :
    f.assertCanManageBilling db members user context = .ok row ↔
      f.subscriptionsAnswered = true ∧ f.session = true ∧
      chosenSubscription db.catalog (db.getActiveSubscriptionsForUser members user) context
        = .ok (some row) ∧
      f.canManageBilling db.catalog members user row = true := by
  unfold AppReads.assertCanManageBilling
  constructor
  · intro h
    cases hanswered : f.subscriptionsAnswered with
    | false =>
      rw [hanswered] at h
      cases h
    | true =>
      cases hsession : f.session with
      | false =>
        rw [hanswered, hsession] at h
        cases h
      | true =>
        rw [hanswered, hsession] at h
        obtain ⟨chosen, hchosen, h⟩ := Loops.bind_eq_ok.mp h
        cases chosen with
        | none => cases h
        | some s =>
          dsimp only at h
          split at h
          · rename_i hmanage
            cases h
            exact ⟨rfl, rfl, hchosen, hmanage⟩
          · cases h
  · rintro ⟨hanswered, hsession, hchosen, hmanage⟩
    rw [hanswered, hsession]
    apply Loops.bind_eq_ok.mpr
    refine ⟨some row, hchosen, ?_⟩
    dsimp only
    rw [if_pos hmanage]
    rfl

theorem mem_memberList {org : UUID} (h : m ∈ f.memberList members org) :
    m ∈ members ∧ m.org = org := by
  have hsorted := List.mem_of_mem_take h
  obtain ⟨hm, horg⟩ := List.mem_filter.mp ((List.mem_insertionSort _).mp hsorted)
  exact ⟨hm, of_decide_eq_true horg⟩

/-- A personal subscription is managed by its owner. -/
theorem canManageBilling_personal (h : db.catalog.planContext row.planId = some .personal) :
    f.canManageBilling db.catalog members user row = true := if_pos h

/-- A team subscription is managed by who is on the page with `is_billing`. -/
theorem canManageBilling_team (hc : RoutingConstraints db members) (hf : f.Answered)
    (h : db.catalog.planContext row.planId = some .team) :
    f.canManageBilling db.catalog members user row = true ↔
      ∃ org, (f.orgList members user).head? = some org ∧
        ∃ m ∈ f.memberList members org.id, m.user = user ∧ m.isBilling = true := by
  have hpersonal : ¬ db.catalog.planContext row.planId = some .personal := by
    rw [h]
    decide
  unfold AppReads.canManageBilling AppReads.getUserOrgs AppReads.getOrgMembers
  rw [if_neg hpersonal, if_pos hf.orgs]
  rcases hhead : (f.orgList members user).head? with - | org
  · constructor
    · intro h
      cases h
    · rintro ⟨_, ⟨⟩, _⟩
  show ((if f.membersAnswered = true then f.memberList members org.id else []).find? _).any _ = true
    ↔ _
  rw [if_pos hf.members, Option.any_eq_true]
  constructor
  · rintro ⟨me, hme, hbilling⟩
    exact ⟨org, rfl, me, List.mem_of_find?_eq_some hme,
      by simpa using List.find?_some hme, hbilling⟩
  · rintro ⟨_, ⟨⟩, m, hm, huser, hbilling⟩
    -- the user has one membership in the organization
    have hfound : ((f.memberList members org.id).find? fun m => m.user = user).isSome = true :=
      List.find?_isSome.mpr ⟨m, hm, decide_eq_true huser⟩
    obtain ⟨me, hme⟩ := Option.isSome_iff_exists.mp hfound
    have huser' : me.user = user := by simpa using List.find?_some hme
    obtain ⟨hmem, horg⟩ := mem_memberList hm
    obtain ⟨hmem', horg'⟩ := mem_memberList (List.mem_of_find?_eq_some hme)
    have hkey : (me.org, me.user) = (m.org, m.user) := by rw [horg, horg', huser, huser']
    obtain rfl := hc.org_members_org_user_uniq.inj hmem' hmem (congrArg some hkey) rfl
    exact ⟨me, hme, hbilling⟩

/-! ### The gate against the backend -/

/-- What a personal request is about is the listed personal subscription. -/
theorem latestPersonal_of_actsOn (hc : RoutingConstraints db members) (hfit : db.RowsFit)
    {context : Option String} {org : Option UUID}
    (h : ActsOn db members user context (.personal, org) c row sid) :
    db.latestPersonal user = some row := by
  obtain ⟨hmem, howner⟩ := (customer_of_owner hc).mp h.customer
  rw [latestPersonal_eq hc hfit hmem howner]
  exact getActive_of_activeRow h.active

/-- What a team request is about is the listed team subscription, where the
membership is the first. -/
theorem teamSub_of_actsOn (hc : RoutingConstraints db members) {context : Option String}
    (h : ActsOn db members user context (.team, some m.org) c row sid)
    (hfirst : (members.filter fun m => m.user = user).argmin OrgMember.id = some m) :
    db.teamSub members user = some row := by
  obtain ⟨hmem, howner⟩ := (customer_of_owner hc).mp h.customer
  rw [teamSub_of_first hc hmem hfirst howner]
  exact getActive_of_activeRow h.active

/-- An explicit team context takes a membership with `is_billing`. -/
theorem billing_of_resolve_team {resolved : PlanContext × Option UUID}
    (h : resolveMutationContext members user (some "team") = .ok resolved) :
    ∃ m, (members.filter fun m => m.user = user ∧ m.isBilling = true).argmin OrgMember.id = some m ∧
      resolved = (.team, some m.org) := by
  have h : (requireBillingAuthority members user .team).map (fun org => (PlanContext.team, org))
    = .ok resolved := h
  unfold requireBillingAuthority at h
  dsimp only at h
  split at h
  · cases h
  · rename_i m hm
    cases h
    exact ⟨m, hm, rfl⟩

theorem resolve_team
    (h : (members.filter fun m => m.user = user ∧ m.isBilling = true).argmin OrgMember.id
      = some m) :
    resolveMutationContext members user (some "team") = .ok (.team, some m.org) := by
  show (requireBillingAuthority members user .team).map _ = _
  rw [requireBillingAuthority, h]
  rfl

/-- Who has a membership is not routed to a personal subscription by default. -/
theorem first_eq_none_of_personal {org : Option UUID}
    (h : resolveMutationContext members user none = .ok (.personal, org)) :
    (members.filter fun m => m.user = user).argmin OrgMember.id = none := by
  rw [resolveMutationContext_none] at h
  rcases hfirst : (members.filter fun m => m.user = user).argmin OrgMember.id with - | m
  · exact hfirst
  · rw [hfirst, Option.elim_some] at h
    split at h
    · cases h
    · cases h

/-- **The gate has looked at what the request changes.** -/
theorem admitted_eq (hc : RoutingConstraints db members) (hfit : db.RowsFit)
    (hshows : f.ShowsBilling db members user) {context : Option PlanContext}
    {resolved : PlanContext × Option UUID} {s : Subscription}
    (hgate : f.assertCanManageBilling db members user context = .ok s)
    (h : ActsOn db members user (context.map PlanContext.value) resolved c row sid) : row = s := by
  obtain ⟨-, -, hchosen, -⟩ := assertCanManageBilling_eq_ok.mp hgate
  rcases context with - | context
  · -- the only subscription that is listed
    have hlisted : ∀ listed, db.getActiveSubscriptionsForUser members user = row :: listed →
        row = s := by
      intro listed heq
      rw [heq, chosenSubscription] at hchosen
      split at hchosen
      · cases hchosen
      · cases hchosen
        rfl
    rcases billsFor_of_resolve h.routed with ⟨hpersonal, hnone⟩ | ⟨org, rfl, -⟩
    · obtain ⟨context, org⟩ := resolved
      obtain rfl : context = .personal := hpersonal
      have hrow := latestPersonal_of_actsOn hc hfit h
      have hteam : db.teamSub members user = none := by
        rw [BillingDb.teamSub, first_eq_none_of_personal h.routed]
        rfl
      apply hlisted []
      rw [listing_eq hfit, hteam, hrow]
      rfl
    · obtain ⟨m, hfirst, -, rfl⟩ := first_of_resolve h.routed
      apply hlisted (db.latestPersonal user).toList
      rw [listing_eq hfit, teamSub_of_actsOn hc h hfirst]
      rfl
  · cases context with
    | personal =>
      obtain ⟨context, org⟩ := resolved
      have hrouted : (Except.ok (PlanContext.personal, none) : Except ServiceError _)
        = .ok (context, org) := h.routed
      cases hrouted
      rw [chosenSubscription, findPersonal_listing hfit,
        latestPersonal_of_actsOn hc hfit h] at hchosen
      cases hchosen
      rfl
    | team =>
      obtain ⟨m, hm, rfl⟩ := billing_of_resolve_team h.routed
      obtain ⟨hmem, howner⟩ := (customer_of_owner hc).mp h.customer
      obtain ⟨hfirst, -⟩ := hshows m hm ⟨c, hmem, howner, row, sid, h.active⟩
      rw [chosenSubscription, findTeam_listing hfit, teamSub_of_actsOn hc h hfirst] at hchosen
      cases hchosen
      rfl

/-- **The billing actions of the app and the backend agree exactly when a page
shows the membership with `is_billing`, which is the first of the user.** -/
theorem gateFits_iff (hc : RoutingConstraints w.db members) (hfit : w.db.RowsFit)
    (hf : f.Answered) : GateFits f w members user ↔ f.ShowsBilling w.db members user := by
  constructor
  · intro h m hm hteam
    obtain ⟨c, hmem, howner, row, sid, hactive⟩ := hteam
    have hacts : ActsOn w.db members user (some "team") (.team, some m.org) c row sid :=
      ⟨resolve_team hm, (customer_of_owner hc).mpr ⟨hmem, howner⟩, hactive⟩
    obtain ⟨-, -, hchosen, hmanage⟩ :=
      assertCanManageBilling_eq_ok.mp (h.serves .team _ _ _ _ hacts)
    rw [chosenSubscription, findTeam_listing hfit] at hchosen
    have hteam : w.db.teamSub members user = some row := Except.ok.inj hchosen
    refine ⟨?_, (canManageBilling_team hc hf (teamSub_context hfit hteam)).mp hmanage⟩
    -- the row is on one customer, so the memberships are in one organization
    obtain ⟨m₀, hfirst, c₀, hmem₀, howner₀, hid₀, -⟩ := teamSub_spec hteam
    have hid : some c₀.id = some c.id := hid₀.symm.trans (activeRow_customer hactive)
    obtain rfl : c₀ = c := hc.customer_pk.inj hmem₀ hmem hid rfl
    have horg : m₀.org = m.org := Owner.org.inj (howner₀.symm.trans howner)
    obtain ⟨hm₀, huser₀⟩ := List.mem_filter.mp (List.argmin_mem hfirst)
    obtain ⟨hm₁, huser₁⟩ := List.mem_filter.mp (List.argmin_mem hm)
    have hkey : (m₀.org, m₀.user) = (m.org, m.user) := by
      rw [horg, of_decide_eq_true huser₀, (of_decide_eq_true huser₁).1]
    obtain rfl := hc.org_members_org_user_uniq.inj hm₀ hm₁ (congrArg some hkey) rfl
    exact hfirst
  · intro hshows
    constructor
    · intro context s hgate u sb now mutation
      apply mutation.run_changesOnly
      intro resolved c row sid hacts
      rw [← admitted_eq hc hfit hshows hgate hacts]
      exact (SubscriptionTable.getByStripeId_eq_some_iff.mp (activeRow_found hacts.active)).2
    · intro context resolved c row sid hacts
      apply assertCanManageBilling_eq_ok.mpr
      refine ⟨hf.subscriptions, hf.session, ?_⟩
      cases context with
      | personal =>
        obtain ⟨context, org⟩ := resolved
        have hrouted : (Except.ok (PlanContext.personal, none) : Except ServiceError _)
          = .ok (context, org) := hacts.routed
        cases hrouted
        have hrow := latestPersonal_of_actsOn hc hfit hacts
        rw [chosenSubscription, findPersonal_listing hfit, hrow]
        exact ⟨rfl, canManageBilling_personal (latestPersonal_context hfit hrow)⟩
      | team =>
        obtain ⟨m, hm, rfl⟩ := billing_of_resolve_team hacts.routed
        obtain ⟨hmem, howner⟩ := (customer_of_owner hc).mp hacts.customer
        obtain ⟨hfirst, hshown⟩ := hshows m hm ⟨c, hmem, howner, row, sid, hacts.active⟩
        have hrow := teamSub_of_actsOn hc hacts hfirst
        rw [chosenSubscription, findTeam_listing hfit, hrow]
        exact ⟨rfl, (canManageBilling_team hc hf (teamSub_context hfit hrow)).mpr hshown⟩

/-! ### An owner who joined late -/

/-- Organization 9 with fifty-one members, of whom user 4 has `is_billing` and
joined as number `joined`. -/
def largeTeam (joined : Nat) : List OrgMember :=
  (List.range 51).map fun n =>
    if n = joined then ⟨n + 1, 9, 4, .owner, true⟩ else ⟨n + 1, 9, n + 100, .member, false⟩

/-- The members joined in the order of their ids, and every read is answered. -/
def answeredReads : AppReads where
  orgs := [⟨9, "Org", "org", none⟩]
  nameBefore a b := a.length ≤ b.length
  joinedAt m := m.id
  session := true
  subscriptionsAnswered := true
  orgsAnswered := true
  membersAnswered := true

/-- The sample team subscription, on a team plan. -/
def teamPlanWorld : BillingWorld :=
  { teamWorld with
    db := { teamWorld.db with
      catalog := { teamWorld.db.catalog with
        plans := [⟨1, "Team", "", .team, .pro, .month, true⟩] } } }

/-- The gate and the backend agree on the fiftieth to join, who is on the page,
and not on the one after. -/
theorem gateFits_iff_late :
    GateFits answeredReads teamPlanWorld (largeTeam 49) 4 ∧
      ¬ GateFits answeredReads teamPlanWorld (largeTeam 50) 4 := by
  have hfit : teamPlanWorld.db.RowsFit := ⟨by decide, by decide⟩
  constructor
  · refine (gateFits_iff ⟨by decide, by decide, by decide, by decide⟩ hfit
      ⟨rfl, rfl, rfl, rfl⟩).mpr fun m hm _ => ?_
    have hbilling : ((largeTeam 49).filter fun m => m.user = 4 ∧ m.isBilling = true).argmin
        OrgMember.id = some ⟨50, 9, 4, .owner, true⟩ := by decide +kernel
    obtain rfl := Option.some.inj (hbilling.symm.trans hm)
    exact ⟨by decide +kernel, ⟨9, "Org", "org", none⟩, by decide +kernel,
      ⟨50, 9, 4, .owner, true⟩, by decide +kernel, rfl, rfl⟩
  · intro h
    have hshows := (gateFits_iff ⟨by decide, by decide, by decide, by decide⟩ hfit
      ⟨rfl, rfl, rfl, rfl⟩).mp h
    obtain ⟨-, org, hhead, hmember⟩ := hshows ⟨51, 9, 4, .owner, true⟩ (by decide +kernel)
      ⟨⟨3, "cus_1", .org 9⟩, by decide, rfl, teamRow, "sub_1", rfl⟩
    have horg : (answeredReads.orgList (largeTeam 50) 4).head?
        = some ⟨9, "Org", "org", none⟩ := by decide +kernel
    obtain rfl := Option.some.inj (horg.symm.trans hhead)
    revert hmember
    decide +kernel

/-- The owner who was the last of fifty-one to join is refused by the gate, and
not by the backend. -/
example :
    answeredReads.assertCanManageBilling teamPlanWorld.db (largeTeam 50) 4 (some .team)
      = .error .notBillingMember ∧
    answeredReads.assertCanManageBilling teamPlanWorld.db (largeTeam 49) 4 (some .team)
      = .ok teamRow ∧
    resolveMutationContext (largeTeam 50) 4 (some "team") = .ok (.team, some 9) := by
  decide +kernel

end Saasmint
