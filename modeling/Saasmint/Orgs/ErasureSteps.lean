/-
Saasmint/Orgs/ErasureSteps.lean

`AccountView.delete` step by step (`delete_account` of
saasmint_core/services/gdpr.py, with the pre-delete hook): the calls of Stripe, each
commit, and the task that is enqueued for the subscriptions of the organizations
that go.  Any of them may fail; the user then repeats the request.

The deletion goes through five stages of the tables, and a request that finds them
at a later stage has nothing left to do for the earlier ones (`eraseAccount_*`).
-/
import Saasmint.Lib.Attempts
import Saasmint.Orgs.Erasure
import Saasmint.Orgs.OrphanBilling

namespace Saasmint

open Programs Attempts

variable {p : Platform}

/-! ### Reads -/

namespace OrgTables

variable (t : OrgTables) (user : UUID)

/-- `get_by_user_id` of the customers. -/
def customerByUserId : Option StripeCustomer := t.customers.find? fun c => c.owner = .user user

/-- `get_active_for_user`: the newest row by `user_id` or, where that is newer, the
newest row of the customer. -/
def getActiveForUser : Option Subscription :=
  let byUser := Table.latest? Subscription.createdAt
    (t.subscriptions.filter fun s => s.status.isActive && s.userId = some user)
  let byCustomer := Table.latest? Subscription.createdAt (t.activeSubsOf (.user user))
  match byUser, byCustomer with
  | some s, some s' => some (if s.createdAt < s'.createdAt then s' else s)
  | none, s' => s'
  | s, none => s

/-- The subscription that `delete_account` cancels at Stripe. -/
def activeStripeId : Option String := (t.getActiveForUser user).bind Subscription.stripeId

end OrgTables

/-! ### Steps -/

/-- What can fail. -/
inductive ErasureStep
  | cancelSubscription
  | deleteStripeCustomer
  | deleteCustomer
  | deleteOrgs
  | enqueue
  | deleteMemberships
  | deleteUser
  deriving DecidableEq, Repr

/-- The database, what Stripe has cancelled and deleted, and the batches that
`cancel_stripe_subs_task` was enqueued with. -/
structure ErasureWorld (p : Platform) where
  db : OrgDb p
  canceled : List String
  deletedCustomers : List String
  batches : List (List String)

abbrev Erasing (p : Platform) := Attempt ErasureStep OrgError (ErasureWorld p)

namespace ErasureWorld

/-- `Subscription.cancel`; `none` is `resource_missing`. -/
def cancelSubscription (w : ErasureWorld p) (id : String) : Option (ErasureWorld p) :=
  if id ∈ w.canceled then none else some { w with canceled := w.canceled ++ [id] }

/-- `Customer.delete`.  The subscriptions that Stripe has for the customer, which
`owned` says, are cancelled with it. -/
def deleteStripeCustomer (owned : String → List String) (w : ErasureWorld p) (customer : String) :
    Option (ErasureWorld p) :=
  if customer ∈ w.deletedCustomers then none
  else some { w with
    canceled := w.canceled ++ owned customer
    deletedCustomers := w.deletedCustomers ++ [customer] }

/-- `_stripe_request`, which ignores `resource_missing`. -/
def stripeRequest (call : ErasureWorld p → Option (ErasureWorld p)) (w : ErasureWorld p) :
    ErasureWorld p :=
  (call w).getD w

def HandedOver (w : ErasureWorld p) (id : String) : Prop := ∃ batch ∈ w.batches, id ∈ batch

/-- The subscription is cancelled, or handed over to be. -/
def Reached (w : ErasureWorld p) (id : String) : Prop := id ∈ w.canceled ∨ w.HandedOver id

end ErasureWorld

/-! ### The request -/

namespace Erasing

variable (owned : String → List String) (o : ErasureStep → Outcome)

def cancelActive (activeSub : Option Subscription) : Erasing p PUnit :=
  match activeSub.bind Subscription.stripeId with
  | none => pure ⟨⟩
  | some id => perform o .cancelSubscription (.stripeRequest fun w => w.cancelSubscription id)

def deleteCustomer : Option StripeCustomer → Erasing p PUnit
  | none => pure ⟨⟩
  | some customer => do
    perform o .deleteStripeCustomer
      (.stripeRequest fun w => w.deleteStripeCustomer owned customer.stripeId)
    perform o .deleteCustomer fun w => { w with db := w.db.deleteCustomer customer.id }

/-- `delete_orgs_created_by_user`. -/
def deleteOrgsCreatedByUser (user : UUID) : Erasing p PUnit := do
  let db := (← get).db
  let orgIds := db.orgsCreatedBy user
  if orgIds = [] then pure ⟨⟩
  else do
    let pending := db.pendingStripeSubIds orgIds
    perform o .deleteOrgs fun w =>
      { w with db := w.db.eraseOrgs orgIds (w.db.deletableUserIds orgIds) }
    if pending = [] then pure ⟨⟩
    else perform o .enqueue fun w => { w with batches := w.batches ++ [pending] }

/-- `_pre_delete`. -/
def preDelete (user : UUID) : Erasing p PUnit := do
  deleteOrgsCreatedByUser o user
  perform o .deleteMemberships fun w => { w with db := w.db.deleteMemberships user }

/-- `delete_account`. -/
def deleteAccount (user : UUID) : Erasing p PUnit := do
  let db := (← get).db
  if db.users.any fun u => u.id = user then do
    cancelActive o (db.getActiveForUser user)
    deleteCustomer owned o (db.customerByUserId user)
    preDelete o user
    perform o .deleteUser fun w => { w with db := w.db.deleteUsers [user] }
  else throw (.raised .userNotFound)

/-- The request when nothing fails. -/
def uninterrupted (user : UUID) (w : ErasureWorld p) : ErasureWorld p :=
  final (deleteAccount owned smooth user) w

/-- Attempts with these outcomes, and then one in which nothing fails. -/
def resumed (user : UUID) (os : List (ErasureStep → Outcome)) (w : ErasureWorld p) :
    ErasureWorld p :=
  uninterrupted owned user (repeated (fun o => deleteAccount owned o user) os w)

end Erasing

/-! ### What is claimed -/

/-- The tables without the customer of the user, and without the organizations that
the user created. -/
def OrgDb.withoutOrgs (db : OrgDb p) (user : UUID) : OrgDb p :=
  (db.deleteCustomerOf user).deleteOrgsCreatedByUser user

/-- The first commit of the request. -/
def OrgTables.firstCommit (t : OrgTables) (user : UUID) : ErasureStep :=
  if (t.customerByUserId user).isSome then .deleteCustomer
  else if t.orgsCreatedBy user = [] then .deleteMemberships
  else .deleteOrgs

/-- An attempt has ended before its first commit. -/
def EndsBefore (o : ErasureStep → Outcome) (firstCommit : ErasureStep) :
    Stop ErasureStep OrgError → Prop
  | .raised _ => True
  | .step k => k = .cancelSubscription ∨ k = .deleteStripeCustomer ∨
      k = firstCommit ∧ o k = .failed

/-- The subscription is cancelled before the first commit, if not earlier. -/
def CancelsFirst (owned : String → List String) (w : ErasureWorld p) (user : UUID) (id : String) :
    Prop :=
  id ∈ w.canceled ∨ w.db.activeStripeId user = some id ∨
    ∃ customer, w.db.customerByUserId user = some customer ∧
      customer.stripeId ∉ w.deletedCustomers ∧ id ∈ owned customer.stripeId

/-- What is handed over with the organizations, and what a request cancels that finds
the rows of the customer gone, or those of the organizations as well. -/
def ReachedLater (db : OrgDb p) (user : UUID) (id : String) : Prop :=
  id ∈ db.pendingStripeSubIds (db.orgsCreatedBy user) ∨
    (db.deleteCustomerOf user).activeStripeId user = some id ∨
    (db.withoutOrgs user).activeStripeId user = some id

/-- Nothing is left to be cancelled after the first commit. -/
def AllCanceledFirst (owned : String → List String) (w : ErasureWorld p) (user : UUID) : Prop :=
  ∀ id, ReachedLater w.db user id → CancelsFirst owned w user id

/-! ### Stages of the tables -/

namespace OrgDb

variable {db : OrgDb p} {user : UUID}

/-- What the deletion of an account leaves. -/
def eraseAccount (db : OrgDb p) (user : UUID) : OrgDb p :=
  ((db.withoutOrgs user).deleteMemberships user).deleteUsers [user]

theorem any_users_iff :
    (db.users.any fun u => u.id = user) = true ↔ ∃ u ∈ db.users, u.id = user := by
  simp

theorem deleteAccount_eq_ok (huser : ∃ u ∈ db.users, u.id = user) :
    db.deleteAccount user = .ok (db.eraseAccount user) :=
  if_pos (any_users_iff.mpr huser)

theorem not_mem_eraseAccount (db : OrgDb p) (user : UUID) :
    ¬ ∃ u ∈ (db.eraseAccount user).users, u.id = user := by
  rintro ⟨u, hu, hid⟩
  have := (List.mem_filter.mp hu).2
  simp [hid] at this

/-! A stage that has been reached is left as it is. -/

theorem deleteCustomerOf_eq_self (h : db.customerByUserId user = none) :
    db.deleteCustomerOf user = db := by
  have hnone : db.customerOf user = none := by
    show (db.customerByUserId user).map _ = none
    rw [h]
    rfl
  unfold deleteCustomerOf
  rw [hnone]

theorem deleteOrgsCreatedByUser_eq_self (h : db.orgsCreatedBy user = []) :
    db.deleteOrgsCreatedByUser user = db := by
  unfold deleteOrgsCreatedByUser
  rw [h]

theorem deleteOrgsCreatedByUser_of_ne_nil (h : db.orgsCreatedBy user ≠ []) :
    db.deleteOrgsCreatedByUser user =
      db.eraseOrgs (db.orgsCreatedBy user) (db.deletableUserIds (db.orgsCreatedBy user)) := by
  unfold deleteOrgsCreatedByUser
  split
  · exact absurd ‹_› h
  · rfl

theorem deleteMemberships_eq_self (h : ∀ m ∈ db.members, m.user ≠ user) :
    db.deleteMemberships user = db := by
  apply eq_of_tables
  show { db.toOrgTables with members := db.members.filter fun m => m.user ≠ user } = db.toOrgTables
  rw [List.filter_eq_self.mpr fun m hm => decide_eq_true (h m hm)]

theorem deleteCustomerOf_some {customer : StripeCustomer}
    (h : db.customerByUserId user = some customer) :
    db.deleteCustomerOf user = db.deleteCustomer customer.id := by
  have hsome : db.customerOf user = some customer.id := by
    show (db.customerByUserId user).map _ = _
    rw [h]
    rfl
  unfold deleteCustomerOf
  rw [hsome]

/-- The customer of a user is the only one with this owner. -/
theorem customerByUserId_deleteCustomerOf :
    (db.deleteCustomerOf user).customerByUserId user = none := by
  rcases h : db.customerByUserId user with - | customer
  · rw [deleteCustomerOf_eq_self h, h]
  · rw [deleteCustomerOf_some h]
    have howner : customer.owner = .user user := by simpa using List.find?_some h
    apply List.find?_eq_none.mpr
    intro c hc hcowner
    obtain ⟨hc, hid⟩ := List.mem_filter.mp hc
    obtain rfl := db.constraints.customer_owner.inj hc (List.mem_of_find?_eq_some h)
      (congrArg some (of_decide_eq_true hcowner)) (congrArg some howner)
    simp at hid

theorem deleteOrgsCreatedByUser_customers :
    ∀ c ∈ (db.deleteOrgsCreatedByUser user).customers, c ∈ db.customers := by
  unfold deleteOrgsCreatedByUser
  split
  · exact fun c hc => hc
  · intro c hc
    exact (List.mem_filter.mp (List.mem_filter.mp hc).1).1

theorem customerByUserId_deleteOrgsCreatedByUser (h : db.customerByUserId user = none) :
    (db.deleteOrgsCreatedByUser user).customerByUserId user = none := by
  apply List.find?_eq_none.mpr
  intro c hc
  exact List.find?_eq_none.mp h c (deleteOrgsCreatedByUser_customers c hc)

theorem orgsCreatedBy_deleteCustomerOf :
    (db.deleteCustomerOf user).orgsCreatedBy user = db.orgsCreatedBy user := by
  unfold OrgTables.orgsCreatedBy
  rw [deleteCustomerOf_orgs]

/-- No organization is left that the user created. -/
theorem orgsCreatedBy_deleteOrgsCreatedByUser :
    (db.deleteOrgsCreatedByUser user).orgsCreatedBy user = [] := by
  apply List.eq_nil_iff_forall_not_mem.mpr
  intro k hk
  obtain ⟨o, ho, hcreated, rfl⟩ := OrgTables.mem_orgsCreatedBy.mp hk
  unfold deleteOrgsCreatedByUser at ho
  split at ho
  case h_1 hnone =>
    have := OrgTables.mem_orgsCreatedBy.mpr ⟨o, ho, hcreated, rfl⟩
    rw [hnone] at this
    cases this
  case h_2 =>
    obtain ⟨o₀, ho₀, hid, rfl⟩ := (mem_eraseOrgs_orgs db).mp ho
    obtain ⟨hcreated, -⟩ := Option.filter_eq_some_iff.mp hcreated
    exact hid (OrgTables.mem_orgsCreatedBy.mpr ⟨o₀, ho₀, hcreated, rfl⟩)

theorem deleteCustomerOf_users : (db.deleteCustomerOf user).users = db.users := by
  unfold deleteCustomerOf
  split <;> rfl

theorem customerByUserId_withoutOrgs : (db.withoutOrgs user).customerByUserId user = none :=
  customerByUserId_deleteOrgsCreatedByUser customerByUserId_deleteCustomerOf

theorem orgsCreatedBy_withoutOrgs : (db.withoutOrgs user).orgsCreatedBy user = [] :=
  orgsCreatedBy_deleteOrgsCreatedByUser

theorem withoutOrgs_eq_self (hcustomer : db.customerByUserId user = none)
    (horgs : db.orgsCreatedBy user = []) : db.withoutOrgs user = db := by
  unfold withoutOrgs
  rw [deleteCustomerOf_eq_self hcustomer, deleteOrgsCreatedByUser_eq_self horgs]

/-! Every stage leads to the same end. -/

theorem withoutOrgs_deleteCustomerOf :
    (db.deleteCustomerOf user).withoutOrgs user = db.withoutOrgs user := by
  unfold withoutOrgs
  rw [deleteCustomerOf_eq_self customerByUserId_deleteCustomerOf]

theorem eraseAccount_deleteCustomerOf :
    (db.deleteCustomerOf user).eraseAccount user = db.eraseAccount user := by
  unfold eraseAccount
  rw [withoutOrgs_deleteCustomerOf]

theorem eraseAccount_withoutOrgs :
    (db.withoutOrgs user).eraseAccount user = db.eraseAccount user := by
  unfold eraseAccount
  rw [withoutOrgs_eq_self customerByUserId_withoutOrgs orgsCreatedBy_withoutOrgs]

theorem eraseAccount_deleteMemberships :
    ((db.withoutOrgs user).deleteMemberships user).eraseAccount user = db.eraseAccount user := by
  have hcustomer : ((db.withoutOrgs user).deleteMemberships user).customerByUserId user = none :=
    @customerByUserId_withoutOrgs p db user
  have horgs : ((db.withoutOrgs user).deleteMemberships user).orgsCreatedBy user = [] :=
    @orgsCreatedBy_withoutOrgs p db user
  show ((OrgDb.withoutOrgs _ user).deleteMemberships user).deleteUsers [user] = _
  rw [withoutOrgs_eq_self hcustomer horgs]
  show OrgDb.deleteUsers _ _ = OrgDb.deleteUsers _ _
  rw [deleteMemberships_eq_self]
  intro m hm
  exact (OrgTables.mem_deleteMemberships.mp hm).2

/-! ### The account that goes with its organizations -/

/-- Its subscriptions have gone with it. -/
theorem userId_ne_of_gone (huser : ∃ u ∈ db.users, u.id = user)
    (hgone : ¬ ∃ u ∈ (db.withoutOrgs user).users, u.id = user) :
    ∀ s ∈ (db.withoutOrgs user).subscriptions, s.userId ≠ some user := by
  obtain ⟨u, hu, hid⟩ := huser
  have hu : u ∈ (db.deleteCustomerOf user).users := by
    rw [deleteCustomerOf_users]
    exact hu
  intro s hs hsu
  apply hgone
  unfold withoutOrgs at hs ⊢
  by_cases horgs : (db.deleteCustomerOf user).orgsCreatedBy user = []
  · rw [deleteOrgsCreatedByUser_eq_self horgs]
    exact ⟨u, hu, hid⟩
  · rw [deleteOrgsCreatedByUser_of_ne_nil horgs] at hs ⊢
    -- a subscription of the user is left, so the user is
    have hnot := (Bool.or_eq_false_iff.mp (OrgTables.mem_eraseOrgs_subscriptions.mp hs).2).1
    rw [hsu] at hnot
    refine ⟨u, List.mem_filter.mpr ⟨hu, ?_⟩, hid⟩
    rw [hid]
    simpa using hnot

theorem owner_ne_of_customerByUserId (h : db.customerByUserId user = none) :
    ∀ c ∈ db.customers, c.owner ≠ .user user := by
  intro c hc howner
  exact List.find?_eq_none.mp h c hc (decide_eq_true howner)

theorem getActiveForUser_eq_none (h : db.customerByUserId user = none)
    (hsubs : ∀ s ∈ db.subscriptions, s.userId ≠ some user) : db.getActiveForUser user = none := by
  have hbyUser :
      (db.subscriptions.filter fun s => s.status.isActive && s.userId = some user) = [] := by
    apply List.filter_eq_nil_iff.mpr
    intro s hs hactive
    exact hsubs s hs (of_decide_eq_true (Bool.and_eq_true_iff.mp hactive).2)
  have hbyCustomer : db.activeSubsOf (.user user) = [] := by
    apply List.filter_eq_nil_iff.mpr
    intro s _ hactive
    obtain ⟨c, hc, heq⟩ := List.any_eq_true.mp (Bool.and_eq_true_iff.mp hactive).2
    exact owner_ne_of_customerByUserId h c hc (of_decide_eq_true heq).2
  unfold OrgTables.getActiveForUser
  rw [hbyUser, hbyCustomer]
  rfl

/-- Of an account that is gone, with its customer and its subscriptions, nothing is
left to delete. -/
theorem deleteUsers_eq_self (hgone : ¬ ∃ u ∈ db.users, u.id = user)
    (h : db.customerByUserId user = none)
    (hsubs : ∀ s ∈ db.subscriptions, s.userId ≠ some user) : db.deleteUsers [user] = db := by
  have hcustomers : ∀ c ∈ db.customers,
      (c.owner.userId.any fun k => decide (k ∈ [user])) = false := by
    intro c hc
    have howner := owner_ne_of_customerByUserId h c hc
    cases hc' : c.owner with
    | user k =>
      rw [hc'] at howner
      simpa [Owner.userId] using fun hk => howner (congrArg Owner.user hk)
    | org k => rfl
  apply eq_of_tables
  show OrgTables.mk _ _ _ _ _ _ _ = OrgTables.mk _ _ _ _ _ _ _
  -- users, organizations, members, customers and subscriptions
  congr 1
  · apply List.filter_eq_self.mpr
    intro u hu
    simpa using fun hid => hgone ⟨u, hu, hid⟩
  · apply (List.map_congr_left fun o ho => ?_).trans (List.map_id _)
    have hcreated : o.createdBy.filter (fun k => decide (k ∉ [user])) = o.createdBy := by
      rcases hk : o.createdBy with - | k
      · rfl
      · have hne : k ≠ user := by
          rintro rfl
          exact hgone (db.constraints.created_by o ho k hk)
        exact Option.filter_some_pos (by simpa using hne)
    rw [hcreated]
    rfl
  · apply List.filter_eq_self.mpr
    intro m hm
    have hne : m.user ≠ user := by
      rintro rfl
      exact hgone (db.constraints.member_user m hm)
    simpa using hne
  · apply List.filter_eq_self.mpr
    intro c hc
    show (!(c.owner.userId.any _)) = true
    rw [hcustomers c hc]
    rfl
  · apply (List.filter_eq_self.mpr ?_).trans (List.filter_eq_self.mpr ?_)
    · intro s hs
      have := hsubs s (List.mem_filter.mp hs).1
      rcases hk : s.userId with - | k
      · rfl
      · rw [hk] at this
        simpa using fun hid => this (congrArg some hid)
    · intro s _
      have hnone : (db.customers.any fun c => (c.owner.userId.any fun k => decide (k ∈ [user])) &&
          decide (s.stripeCustomerId = some c.id)) = false := by
        apply List.any_eq_false.mpr
        intro c hc
        rw [hcustomers c hc]
        exact Bool.false_ne_true
      rw [hnone]
      rfl

theorem eraseAccount_of_gone (huser : ∃ u ∈ db.users, u.id = user)
    (hgone : ¬ ∃ u ∈ (db.withoutOrgs user).users, u.id = user) :
    (db.withoutOrgs user).deleteMemberships user = db.withoutOrgs user ∧
      db.eraseAccount user = db.withoutOrgs user := by
  have hmembers : (db.withoutOrgs user).deleteMemberships user = db.withoutOrgs user := by
    apply deleteMemberships_eq_self
    intro m hm hid
    exact hgone (hid ▸ (db.withoutOrgs user).constraints.member_user m hm)
  refine ⟨hmembers, ?_⟩
  unfold eraseAccount
  rw [hmembers]
  exact deleteUsers_eq_self hgone customerByUserId_withoutOrgs (userId_ne_of_gone huser hgone)

/-! ### The batch -/

/-- The customer of a user has no subscription of an organization. -/
theorem pendingStripeSubIds_deleteCustomerOf {orgIds : List UUID} :
    (db.deleteCustomerOf user).pendingStripeSubIds orgIds = db.pendingStripeSubIds orgIds := by
  rcases h : db.customerByUserId user with - | customer
  · rw [deleteCustomerOf_eq_self h]
  · rw [deleteCustomerOf_some h]
    have howner : customer.owner = .user user := by simpa using List.find?_some h
    have hactive : ∀ org, (db.deleteCustomer customer.id).activeSubsOf (.org org)
        = db.activeSubsOf (.org org) := by
      intro org
      show List.filter _ (List.filter _ db.subscriptions) = List.filter _ _
      rw [List.filter_filter]
      apply List.filter_congr
      intro s _
      rw [Bool.eq_iff_iff]
      simp only [OrgTables.isActiveFor, deleteCustomer, OrgTables.deleteCustomers, List.any_filter,
        Bool.and_eq_true, List.any_eq_true, decide_eq_true_eq, Bool.not_eq_true',
        decide_eq_false_iff_not, List.any_eq_false, not_and]
      constructor
      · rintro ⟨⟨hstatus, c, hc, -, hs⟩, -⟩
        exact ⟨hstatus, c, hc, hs⟩
      · rintro ⟨hstatus, c, hc, hsc, hco⟩
        have hne : c.id ≠ customer.id := by
          intro hid
          obtain rfl := db.constraints.customer_pk.inj hc (List.mem_of_find?_eq_some h)
            (congrArg some hid) rfl
          cases howner.symm.trans hco
        refine ⟨⟨hstatus, c, hc, hne, hsc, hco⟩, fun c' _ hid hsc' => hne ?_⟩
        rw [← hid]
        exact Option.some.inj (hsc.symm.trans hsc')
    unfold OrgTables.pendingStripeSubIds OrgTables.getActiveStripeSub
    simp only [hactive]

end OrgDb

end Saasmint
