/-
Saasmint/Orgs/OrphanBilling.lean

What is handed over to `cancel_stripe_subs_task` when organizations and
accounts are deleted (apps/orgs/services.py, apps/orgs/tasks.py, and the removal
of a member in apps/orgs/views.py).

A deletion takes the rows of its organizations and of the accounts that go with
them.  What it hands over is at most one subscription of each organization, the
newest of those that are active: a subscription that is unpaid, paused or
incomplete, a second one, and whatever an account had on its own, keeps billing
without a row.  `no_orphans_iff` says exactly which deletions are safe.  Nothing
is handed over by a deletion that is rolled back, and the task attempts its
whole batch.

A batch counts as handed over once the hook of its commit has run.  That the
broker takes the task is assumed: where `.delay` raises, the rows are gone and the
batch is lost, whatever the subscriptions (`ErasureSteps` has that failure).
-/
import Saasmint.Lib.Transactions
import Saasmint.Orgs.Events

namespace Saasmint

open Programs Transactions

variable {p : Platform}

/-- The subscription can still bill, or come back. -/
def SubscriptionStatus.canRevive : SubscriptionStatus → Bool
  | canceled | incompleteExpired => false
  | _ => true

/-! ### Reads -/

namespace OrgTables

variable (t : OrgTables)

/-- `_get_active_stripe_sub`. -/
def getActiveStripeSub (org : UUID) : Option Subscription :=
  Table.latest? Subscription.createdAt
    ((t.activeSubsOf (.org org)).filter fun s => s.stripeId.isSome)

/-- `pending_stripe_sub_ids`: of the active rows of a batch of organizations, the
newest of each. -/
def pendingStripeSubIds (orgIds : List UUID) : List String :=
  orgIds.filterMap fun org => (t.getActiveStripeSub org).bind Subscription.stripeId

/-- The row goes when these organizations and accounts go. -/
def goesWith (orgIds userIds : List UUID) (s : Subscription) : Bool :=
  s.userId.any (· ∈ userIds) ||
    t.customers.any fun c => s.stripeCustomerId = some c.id &&
      (c.owner.userId.any (· ∈ userIds) || c.owner.orgId.any (· ∈ orgIds))

end OrgTables

namespace OrgDb

/-- The `DELETE` of all memberships in a batch of organizations. -/
def deleteMembersOf (db : OrgDb p) (orgIds : List UUID) : OrgDb p :=
  ⟨{ db.toOrgTables with members := db.members.filter fun m => m.org ∉ orgIds },
    db.constraints.of_delete (List.Sublist.refl _) (List.Sublist.refl _) List.filter_sublist
      (List.Sublist.refl _) (List.Sublist.refl _) (List.Sublist.refl _) rfl
      (fun m hm => db.constraints.member_org m (List.mem_filter.mp hm).1)
      (fun m hm => db.constraints.member_user m (List.mem_filter.mp hm).1)
      db.constraints.created_by db.constraints.invitation_org⟩

theorem eq_of_tables {db db' : OrgDb p} (h : db.toOrgTables = db'.toOrgTables) : db = db' := by
  cases db
  cases db'
  cases h
  rfl

def cancelInvitations (db : OrgDb p) (orgIds : List UUID) : OrgDb p :=
  ⟨db.toOrgTables.cancelInvitations orgIds, db.constraints.cancelInvitations orgIds⟩

def deleteOrgs (db : OrgDb p) (orgIds : List UUID) : OrgDb p :=
  ⟨db.toOrgTables.deleteOrgs orgIds, db.constraints.deleteOrgs orgIds⟩

end OrgDb

/-! ### Deletions -/

/-- What a deletion raises, apart from failures of the database. -/
inductive DeletionError
  | refused (e : OrgError)
  /-- The transaction that the deletion is part of fails later. -/
  | caller
  deriving DecidableEq, Repr

/-- A service on the tables.  A hook is a batch of Stripe ids that
`cancel_stripe_subs_task` is enqueued with. -/
abbrev Deletion (p : Platform) := Program (OrgDb p) (List String) DeletionError

/-- The transaction of `_delete_org_db_only` and of `delete_orgs_created_by_user`. -/
def deleteOrgsDbOnly (orgIds : List UUID) : Deletion p PUnit := atomic do
  execute fun db => db.cancelInvitations orgIds
  execute fun db => db.deleteUsers (db.deletableUserIds orgIds)
  execute fun db => db.deleteMembersOf orgIds
  execute fun db => db.deleteOrgs orgIds

/-- `delete_org`. -/
def deleteOrg (org : UUID) : Deletion p PUnit := do
  let activeSub ← query fun db => db.getActiveStripeSub org
  deleteOrgsDbOnly [org]
  match activeSub.bind Subscription.stripeId with
  | none => pure ⟨⟩
  | some id => onCommit [id]

/-- `delete_orgs_created_by_user`. -/
def deleteOrgsCreatedByUser (user : UUID) : Deletion p PUnit := do
  let orgIds ← query fun db => db.orgsCreatedBy user
  if orgIds = [] then pure ⟨⟩
  else
    let pending ← query fun db => db.pendingStripeSubIds orgIds
    deleteOrgsDbOnly orgIds
    if pending = [] then pure ⟨⟩ else onCommit pending

/-- `delete_org_on_subscription_cancel_task`. -/
def deleteOrgOnSubscriptionCancel (org : UUID) : Deletion p PUnit := do
  let found ← query fun db => db.orgs.any fun o => o.id = org
  if found then deleteOrgsDbOnly [org] else pure ⟨⟩

/-- The checks of `OrgMemberDetailView.delete`. -/
def OrgTables.removableMember (t : OrgTables) (caller org member : UUID) :
    Except OrgError OrgMember := do
  let callerMember ← t.getOrgAndMember caller org adminOrAbove
  match t.getMember org member with
  | none => .error .notFound
  | some target =>
    if target.role = .owner then .error .insufficientPermission
    else do
      checkCanManageMember callerMember.role target.role
      return target

/-- `OrgMemberDetailView.delete`. -/
def removeMember (caller org member : UUID) : Deletion p PUnit := do
  let target ← query fun db => db.removableMember caller org member
  match target with
  | .error e => raise (.refused e)
  | .ok target => atomic (execute fun db => db.deleteUsers [target.user])

/-- The paths that delete organizations and accounts. -/
inductive DeletionPath
  | deleteOrg (org : UUID)
  | deleteOrgsCreatedByUser (user : UUID)
  | deleteOrgOnSubscriptionCancel (org : UUID)
  | removeMember (caller org member : UUID)
  deriving DecidableEq, Repr

/-- The transaction that a deletion is part of, if any. -/
inductive CallerBlock
  | none
  | commits
  | fails
  deriving DecidableEq, Repr

namespace DeletionPath

def program : DeletionPath → Deletion p PUnit
  | deleteOrg org => Saasmint.deleteOrg org
  | deleteOrgsCreatedByUser user => Saasmint.deleteOrgsCreatedByUser user
  | deleteOrgOnSubscriptionCancel org => Saasmint.deleteOrgOnSubscriptionCancel org
  | removeMember caller org member => Saasmint.removeMember caller org member

def run (path : DeletionPath) : CallerBlock → Deletion p PUnit
  | .none => path.program
  | .commits => atomic path.program
  | .fails => atomic do
    path.program
    raise .caller

variable (t : OrgTables)

/-- The organizations that a deletion takes. -/
def orgIds : DeletionPath → List UUID
  | deleteOrg org => [org]
  | deleteOrgsCreatedByUser user => t.orgsCreatedBy user
  | deleteOrgOnSubscriptionCancel org => if t.orgs.any fun o => o.id = org then [org] else []
  | removeMember _ _ _ => []

/-- The accounts that a deletion takes. -/
def userIds : DeletionPath → List UUID
  | removeMember caller org member =>
    (t.removableMember caller org member).toOption.toList.map OrgMember.user
  | path => t.deletableUserIds (path.orgIds t)

/-- The organizations whose subscription a deletion hands over. -/
def cancelledOrgIds : DeletionPath → List UUID
  | deleteOrg org => [org]
  | deleteOrgsCreatedByUser user => t.orgsCreatedBy user
  | _ => []

/-- No task is enqueued with an empty batch. -/
def batch : List String → List (List String)
  | [] => []
  | pending => [pending]

/-- The batches that a deletion hands over. -/
def batches (path : DeletionPath) : List (List String) :=
  batch (t.pendingStripeSubIds (path.cancelledOrgIds t))

end DeletionPath

/-! ### The task -/

/-- How a call of `Subscription.cancel` fails. -/
inductive CancelFailure
  | resourceMissing
  | invalidRequest
  | stripeError
  deriving DecidableEq, Repr

/-- What a run of the task has done. -/
structure CancelRun where
  attempted : List String
  failures : List CancelFailure
  deriving DecidableEq, Repr

/-- One round of the loop.  Whether a call fails depends on the calls before. -/
def cancelOne (answer : List String → String → Option CancelFailure) (r : CancelRun) (id : String) :
    CancelRun :=
  match answer r.attempted id with
  | none | some .resourceMissing => { r with attempted := r.attempted ++ [id] }
  | some e => ⟨r.attempted ++ [id], r.failures ++ [e]⟩

/-- `cancel_stripe_subs_task`: the first failure, if any, is raised at the end. -/
def cancelStripeSubs (answer : List String → String → Option CancelFailure) (ids : List String) :
    CancelRun × Option CancelFailure :=
  let r := ids.foldl (cancelOne answer) ⟨[], []⟩
  (r, r.failures.head?)

/-! ### What is claimed -/

/-- **No orphan billing**, for a deletion from this state of the database. -/
structure NoOrphans (db : Store p) (path : DeletionPath) : Prop where
  /-- A subscription that can still bill is handed over when its row goes. -/
  handed_over : ∀ block fails c,
    path.run block (.start db.org fails) = .ok ⟨⟩ c →
      ∀ s ∈ db.org.subscriptions, s ∉ c.data.subscriptions → s.status.canRevive = true →
        ∀ id, s.stripeId = some id → ∃ batch ∈ c.ran, id ∈ batch
  /-- A deletion that fails hands nothing over, and deletes nothing. -/
  rolled_back : ∀ block fails e c,
    path.run block (.start db.org fails) = .error e c →
      c.ran = [] ∧ c.data = db.org
  /-- Each id of a batch is attempted. -/
  attempted : ∀ answer ids, (cancelStripeSubs answer ids).1.attempted = ids

/-- Each subscription that can still bill, and whose row goes, is the newest
active one of an organization whose subscription is handed over. -/
def HandsOverAll (db : Store p) (path : DeletionPath) : Prop :=
  ∀ s ∈ db.org.subscriptions, s.stripeId.isSome = true → s.status.canRevive = true →
    db.org.goesWith (path.orgIds db.org.toOrgTables) (path.userIds db.org.toOrgTables) s = true →
      ∃ org ∈ path.cancelledOrgIds db.org.toOrgTables, db.org.getActiveStripeSub org = some s

/-! ### Rows -/

theorem OrgTables.mem_deleteCustomers {t : OrgTables} {gone : StripeCustomer → Bool}
    {s : Subscription} : s ∈ (t.deleteCustomers gone).subscriptions ↔ s ∈ t.subscriptions ∧
      (t.customers.any fun c => gone c && s.stripeCustomerId = some c.id) = false := by
  simp only [deleteCustomers, List.mem_filter, Bool.not_eq_true']

@[simp] theorem any_orgId_nil (c : StripeCustomer) :
    (c.owner.orgId.any fun k => decide (k ∈ ([] : List UUID))) = false := by
  cases c.owner <;> simp [Owner.orgId]

/-- The rows that a deletion of accounts leaves. -/
theorem OrgTables.mem_deleteUsers_subscriptions {t : OrgTables} {userIds : List UUID}
    {s : Subscription} : s ∈ (t.deleteUsers userIds).subscriptions ↔
      s ∈ t.subscriptions ∧ t.goesWith [] userIds s = false := by
  show s ∈ List.filter _ _ ↔ _
  rw [List.mem_filter, mem_deleteCustomers, and_assoc]
  refine and_congr_right fun _ => ?_
  rw [goesWith, Bool.or_eq_false_iff, Bool.not_eq_true', and_comm]
  refine and_congr_right fun _ => ?_
  simp only [any_orgId_nil, Bool.or_false, Bool.and_comm]

/-- The rows that the deletion of organizations and accounts leaves. -/
theorem OrgTables.mem_eraseOrgs_subscriptions {db : OrgDb p} {orgIds userIds : List UUID}
    {s : Subscription} : s ∈ (db.eraseOrgs orgIds userIds).subscriptions ↔
      s ∈ db.subscriptions ∧ db.goesWith orgIds userIds s = false := by
  have hcustomers : ((db.toOrgTables.cancelInvitations orgIds).deleteUsers userIds).customers
      = db.customers.filter fun c => !(c.owner.userId.any (· ∈ userIds)) := rfl
  show s ∈ ((_ : OrgTables).deleteCustomers _).subscriptions ↔ _
  rw [mem_deleteCustomers, hcustomers, mem_deleteUsers_subscriptions, and_assoc, List.any_filter]
  refine and_congr_right fun _ => ?_
  show db.goesWith [] userIds s = false ∧ _ ↔ _
  simp only [goesWith, any_orgId_nil, Bool.or_false, Bool.or_eq_false_iff, and_assoc]
  refine and_congr_right fun _ => ?_
  -- a customer that goes with its account does not go with an organization
  simp only [List.any_eq_false, ← forall_and]
  refine forall_congr' fun c => ?_
  rcases (c.owner.userId.any fun k => decide (k ∈ userIds)) with - | -
  · simp [and_comm]
  · simp

theorem OrgTables.goesWith_nil {t : OrgTables} {s : Subscription} : t.goesWith [] [] s = false := by
  simp [goesWith]

/-! ### What a deletion does -/

section Specs

variable {c : Connection (OrgDb p) (List String)}

/-- The block of a deletion, as one write. -/
theorem wp_deleteOrgsDbOnly {orgIds : List UUID}
    {Q : PUnit → Connection (OrgDb p) (List String) → Prop}
    {E : Failure DeletionError → Connection (OrgDb p) (List String) → Prop}
    (hhooks : c.inBlock = false → c.hooks = [])
    (hfail : ∀ n, (∃ k, c.fails k = true) → E .database { c with statements := n })
    (hok : ∀ n, Q ⟨⟩ { c with
      data := c.data.eraseOrgs orgIds (c.data.deletableUserIds orgIds), statements := n }) :
    wp (deleteOrgsDbOnly orgIds) Q E c := by
  have hdata : (((c.data.cancelInvitations orgIds).deleteUsers
      ((c.data.cancelInvitations orgIds).deletableUserIds orgIds)).deleteMembersOf
      orgIds).deleteOrgs
        orgIds = c.data.eraseOrgs orgIds (c.data.deletableUserIds orgIds) := by
    refine OrgDb.eq_of_tables ?_
    have hmembers : ∀ l : List OrgMember, (l.filter fun m => m.org ∉ orgIds).filter
        (fun m => m.org ∉ orgIds) = l.filter fun m => m.org ∉ orgIds := fun l => by
      rw [List.filter_filter]
      simp only [Bool.and_self]
    show OrgTables.mk _ _ (List.filter _ (List.filter _ _)) _ _ _ _ = _
    rw [hmembers]
    rfl
  unfold deleteOrgsDbOnly
  apply wp_atomic
  simp only [wp_bind]
  refine wp_execute (fun n h => hfail n ⟨_, h⟩) fun n => ?_
  refine wp_execute (fun n h => hfail n ⟨_, h⟩) fun n => ?_
  refine wp_execute (fun n h => hfail n ⟨_, h⟩) fun n => ?_
  refine wp_execute (fun n h => hfail n ⟨_, h⟩) fun n => ?_
  show Q ⟨⟩ (c.leave { c with
      inBlock := true
      data := (((c.data.cancelInvitations orgIds).deleteUsers
        ((c.data.cancelInvitations orgIds).deletableUserIds orgIds)).deleteMembersOf
          orgIds).deleteOrgs orgIds
      statements := n })
  rw [hdata, Connection.leave_write hhooks]
  exact hok n

variable {path : DeletionPath}

/-- A deletion that has gone through. -/
structure DeletionPath.Done (path : DeletionPath) (c c' : Connection (OrgDb p) (List String)) :
    Prop where
  rows : ∀ s, s ∈ c'.data.subscriptions ↔ s ∈ c.data.subscriptions ∧
    c.data.goesWith (path.orgIds c.data.toOrgTables) (path.userIds c.data.toOrgTables) s = false
  rest : ∃ n, c' = Connection.register { c with data := c'.data, statements := n }
    (path.batches c.data.toOrgTables)

/-- A deletion that has raised. -/
structure DeletionPath.Raised (path : DeletionPath) (c c' : Connection (OrgDb p) (List String)) :
    Prop where
  unchanged : ∃ n, c' = { c with statements := n }
  reason : (∃ k, c.fails k = true) ∨
    path.orgIds c.data.toOrgTables = [] ∧ path.userIds c.data.toOrgTables = []

namespace DeletionPath

/-- A deletion of organizations has gone through when their rows are gone and the
batches are registered. -/
theorem done_of_erase {n : Nat} {orgIds : List UUID} {bs : List (List String)}
    (horgs : path.orgIds c.data.toOrgTables = orgIds)
    (husers : path.userIds c.data.toOrgTables = c.data.deletableUserIds orgIds)
    (hbatches : path.batches c.data.toOrgTables = bs) :
    path.Done c (Connection.register { c with
      data := c.data.eraseOrgs orgIds (c.data.deletableUserIds orgIds), statements := n } bs) := by
  refine ⟨fun s => ?_, n, ?_⟩
  · rw [Connection.register_data, horgs, husers]
    exact OrgTables.mem_eraseOrgs_subscriptions
  · rw [Connection.register_data, hbatches]

/-- A deletion of nothing. -/
theorem done_of_nothing {n : Nat} (horgs : path.orgIds c.data.toOrgTables = [])
    (husers : path.userIds c.data.toOrgTables = [])
    (hbatches : path.batches c.data.toOrgTables = []) :
    path.Done c { c with statements := n } := by
  refine ⟨fun s => ?_, n, ?_⟩
  · rw [horgs, husers, OrgTables.goesWith_nil]
    exact (and_iff_left rfl).symm
  · rw [hbatches, Connection.register_nil]

theorem deletableUserIds_nil (t : OrgTables) : t.deletableUserIds [] = [] := by
  simp [OrgTables.deletableUserIds]

theorem batches_deleteOrg (t : OrgTables) (org : UUID) : (deleteOrg org).batches t =
    ((t.getActiveStripeSub org).bind Subscription.stripeId).toList.map fun id => [id] := by
  unfold batches OrgTables.pendingStripeSubIds cancelledOrgIds
  rcases h : (t.getActiveStripeSub org).bind Subscription.stripeId with - | id <;> simp [h, batch]

/-- **What each path does.** -/
theorem program_spec (hhooks : c.inBlock = false → c.hooks = []) :
    wp path.program (fun _ c' => path.Done c c') (fun _ c' => path.Raised c c') c := by
  have hdb : ∀ n, (∃ k, c.fails k = true) → path.Raised c { c with statements := n } :=
    fun n h => ⟨⟨n, rfl⟩, Or.inl h⟩
  cases path with
  | deleteOrg org =>
    unfold program Saasmint.deleteOrg
    simp only [wp_bind]
    refine wp_query (fun n h => hdb n ⟨_, h⟩) fun n => ?_
    refine wp_deleteOrgsDbOnly hhooks (fun n h => hdb n h) fun n => ?_
    -- what is handed over was read before the rows went
    have hdone := done_of_erase (c := c) (n := n) rfl rfl (batches_deleteOrg _ org)
    rcases h : (c.data.getActiveStripeSub org).bind Subscription.stripeId with - | id <;>
      rw [h] at hdone
    · rw [Option.toList_none, List.map_nil, Connection.register_nil] at hdone
      exact hdone
    · exact hdone
  | deleteOrgsCreatedByUser user =>
    unfold program Saasmint.deleteOrgsCreatedByUser
    simp only [wp_bind]
    refine wp_query (fun n h => hdb n ⟨_, h⟩) fun n => ?_
    by_cases hnone : c.data.orgsCreatedBy user = []
    · -- a user who has created nothing: the function returns early
      rw [if_pos hnone]
      refine done_of_nothing hnone ?_ ?_
      · show OrgTables.deletableUserIds _ (c.data.orgsCreatedBy user) = []
        rw [hnone, deletableUserIds_nil]
      · show batch (c.data.pendingStripeSubIds (c.data.orgsCreatedBy user)) = []
        rw [hnone]
        rfl
    · rw [if_neg hnone]
      simp only [wp_bind]
      refine wp_query (fun n h => hdb n ⟨_, h⟩) fun n => ?_
      refine wp_deleteOrgsDbOnly hhooks (fun n h => hdb n h) fun n => ?_
      have hdone : (deleteOrgsCreatedByUser user).Done c (Connection.register { c with
          data := c.data.eraseOrgs (c.data.orgsCreatedBy user)
            (c.data.deletableUserIds (c.data.orgsCreatedBy user))
          statements := n } (batch (c.data.pendingStripeSubIds (c.data.orgsCreatedBy user)))) :=
        done_of_erase rfl rfl rfl
      show wp (if c.data.pendingStripeSubIds (c.data.orgsCreatedBy user) = [] then _ else _) _ _ _
      rcases h : c.data.pendingStripeSubIds (c.data.orgsCreatedBy user) with - | ⟨id, ids⟩ <;>
        rw [h] at hdone
      · rw [batch, Connection.register_nil] at hdone
        exact hdone
      · exact hdone
  | deleteOrgOnSubscriptionCancel org =>
    unfold program Saasmint.deleteOrgOnSubscriptionCancel
    simp only [wp_bind]
    refine wp_query (fun n h => hdb n ⟨_, h⟩) fun n => ?_
    split
    case isTrue hfound =>
      refine wp_deleteOrgsDbOnly hhooks (fun n h => hdb n h) fun n => ?_
      have horgs : (deleteOrgOnSubscriptionCancel org).orgIds c.data.toOrgTables = [org] :=
        if_pos hfound
      have hdone := done_of_erase (c := c) (n := n) horgs
        (show OrgTables.deletableUserIds _ (orgIds _ _) = _ by rw [horgs]) rfl
      rw [show (deleteOrgOnSubscriptionCancel org).batches c.data.toOrgTables = [] from rfl,
        Connection.register_nil] at hdone
      exact hdone
    case isFalse hfound =>
      -- the organization is gone already
      have horgs : (deleteOrgOnSubscriptionCancel org).orgIds c.data.toOrgTables = [] :=
        if_neg hfound
      refine done_of_nothing horgs ?_ rfl
      show OrgTables.deletableUserIds _ (orgIds _ _) = []
      rw [horgs, deletableUserIds_nil]
  | removeMember caller org member =>
    unfold program Saasmint.removeMember
    simp only [wp_bind]
    refine wp_query (fun n h => hdb n ⟨_, h⟩) fun n => ?_
    rcases h : c.data.removableMember caller org member with e | target
    · -- the caller may not remove the member
      refine ⟨⟨n, rfl⟩, Or.inr ⟨rfl, ?_⟩⟩
      show List.map _ (Except.toOption _).toList = []
      rw [h]
      rfl
    · refine wp_atomic (wp_execute (fun n h => hdb n ⟨_, h⟩) fun n => ?_)
      have husers : (removeMember caller org member).userIds c.data.toOrgTables
          = [target.user] := by
        show List.map _ (Except.toOption _).toList = _
        rw [h]
        rfl
      show Done _ c (c.leave { c with
        inBlock := true, data := c.data.deleteUsers [target.user], statements := n })
      rw [Connection.leave_write hhooks]
      refine ⟨fun s => ?_, n, ?_⟩
      · rw [husers]
        exact OrgTables.mem_deleteUsers_subscriptions
      · exact Connection.register_nil.symm

/-- ... as part of a transaction of the caller, or of none. -/
theorem run_spec (path : DeletionPath) (block : CallerBlock) (hblock : c.inBlock = false)
    (hhooks : c.hooks = []) :
    wp (path.run block) (fun _ c' => path.Done c c')
      (fun _ c' => (∃ n, c' = { c with statements := n }) ∧
        (block = .none → path.Raised c c')) c := by
  cases block with
  | none =>
    refine wp_mono (program_spec fun _ => hhooks) (fun _ _ h => h) fun _ c' h => ?_
    exact ⟨h.unchanged, fun _ => h⟩
  | commits =>
    refine wp_atomic (wp_mono (program_spec fun h => by cases h) (fun _ c' h => ?_)
      fun _ c' h => ?_)
    · obtain ⟨hrows, n, hrest⟩ := h
      have hleave : c.leave c' = Connection.register { c with data := c'.data, statements := n }
          (path.batches c.data.toOrgTables) := by
        rw [← Connection.leave_register hblock hhooks, ← hrest]
      have hdata : (c.leave c').data = c'.data := by
        rw [hleave, Connection.register_data]
      exact ⟨hdata ▸ hrows, n, hdata ▸ hleave⟩
    · exact ⟨⟨_, rfl⟩, fun h => by cases h⟩
  | fails =>
    refine wp_atomic ?_
    rw [wp_bind]
    refine wp_mono (program_spec fun h => by cases h) (fun _ c' h => ?_) fun _ c' h => ?_
    · exact ⟨⟨_, rfl⟩, fun h => by cases h⟩
    · exact ⟨⟨_, rfl⟩, fun h => by cases h⟩

end DeletionPath

end Specs

/-! ### The task -/

theorem cancelOne_attempted (answer : List String → String → Option CancelFailure) (r : CancelRun)
    (id : String) : (cancelOne answer r id).attempted = r.attempted ++ [id] := by
  unfold cancelOne
  split <;> rfl

/-- Whichever calls fail, each id is attempted. -/
theorem cancelStripeSubs_attempted (answer : List String → String → Option CancelFailure)
    (ids : List String) : (cancelStripeSubs answer ids).1.attempted = ids := by
  have hfold : ∀ r : CancelRun, (ids.foldl (cancelOne answer) r).attempted
      = r.attempted ++ ids := by
    induction ids with
    | nil => exact fun r => (List.append_nil _).symm
    | cons id ids ih =>
      intro r
      rw [List.foldl_cons, ih, cancelOne_attempted, List.append_assoc, List.singleton_append]
  exact (hfold _).trans (List.nil_append _)

/-! ### The deletions that are safe -/

/-- What is handed over is the newest active row of each organization. -/
theorem mem_batches {t : OrgTables} {path : DeletionPath} {id : String} :
    (∃ batch ∈ path.batches t, id ∈ batch) ↔
      ∃ org ∈ path.cancelledOrgIds t, ∃ s, t.getActiveStripeSub org = some s ∧
        s.stripeId = some id := by
  have hbatch : ∀ ids : List String, (∃ batch ∈ DeletionPath.batch ids, id ∈ batch) ↔ id ∈ ids := by
    intro ids
    cases ids <;> simp [DeletionPath.batch]
  unfold DeletionPath.batches OrgTables.pendingStripeSubIds
  rw [hbatch, List.mem_filterMap]
  simp only [Option.bind_eq_some_iff]

theorem getActiveStripeSub_mem {t : OrgTables} {org : UUID} {s : Subscription}
    (h : t.getActiveStripeSub org = some s) : s ∈ t.subscriptions :=
  (List.mem_filter.mp (List.mem_filter.mp (Table.mem_of_latest? h)).1).1

/-- The row of a Stripe id is the only one. -/
theorem eq_of_stripeId (db : Store p) {s s' : Subscription} (hs : s ∈ db.org.subscriptions)
    (hs' : s' ∈ db.org.subscriptions) {id : String} (hid : s.stripeId = some id)
    (hid' : s'.stripeId = some id) : s = s' :=
  db.uniq_stripe_id.inj hs hs' hid hid'

section Runs

variable {db : Store p} {path : DeletionPath} {block : CallerBlock} {fails : Nat → Bool}

/-- What a deletion that goes through leaves, and hands over. -/
theorem run_ok {c : Connection (OrgDb p) (List String)}
    (h : path.run block (.start db.org fails) = .ok ⟨⟩ c) :
    (∀ s, s ∈ c.data.subscriptions ↔ s ∈ db.org.subscriptions ∧ db.org.goesWith
      (path.orgIds db.org.toOrgTables) (path.userIds db.org.toOrgTables) s = false) ∧
      c.ran = path.batches db.org.toOrgTables := by
  obtain ⟨hrows, n, hrest⟩ := wp_ok (DeletionPath.run_spec path block rfl rfl) h
  refine ⟨hrows, ?_⟩
  rw [hrest]
  exact List.nil_append _

/-- A deletion that raises has done nothing. -/
theorem run_error {e : Failure DeletionError} {c : Connection (OrgDb p) (List String)}
    (h : path.run block (.start db.org fails) = .error e c) :
    (c.ran = [] ∧ c.data = db.org) ∧
      (block = .none → path.Raised (Connection.start db.org fails) c) := by
  have hspec := DeletionPath.run_spec path block (c := Connection.start db.org fails) rfl rfl
  unfold wp at hspec
  rw [h] at hspec
  obtain ⟨⟨n, rfl⟩, hraised⟩ := hspec
  exact ⟨⟨rfl, rfl⟩, hraised⟩

end Runs

/-- The deletion that nothing interrupts decides. -/
theorem handsOverAll_of_noOrphans {db : Store p} {path : DeletionPath} (h : NoOrphans db path) :
    HandsOverAll db path := by
  intro s hs hstripe hrevive hgoes
  obtain ⟨id, hid⟩ := Option.isSome_iff_exists.mp hstripe
  rcases hrun : path.run .none (.start db.org fun _ => false) with ⟨⟨⟩, c⟩ | ⟨e, c⟩
  · obtain ⟨hrows, hran⟩ := run_ok hrun
    have hgone : s ∉ c.data.subscriptions := fun hleft => by
      rw [((hrows s).mp hleft).2] at hgoes
      cases hgoes
    have hbatch := h.handed_over _ _ c hrun s hs hgone hrevive id hid
    rw [hran] at hbatch
    obtain ⟨org, horg, s', hs', hid'⟩ := mem_batches.mp hbatch
    rw [eq_of_stripeId db hs (getActiveStripeSub_mem hs') hid hid']
    exact ⟨org, horg, hs'⟩
  · rcases ((run_error hrun).2 rfl).reason with ⟨k, hk⟩ | ⟨horgs, husers⟩
    · cases hk
    · have horgs : path.orgIds db.org.toOrgTables = [] := horgs
      have husers : path.userIds db.org.toOrgTables = [] := husers
      rw [horgs, husers, OrgTables.goesWith_nil] at hgoes
      cases hgoes

/-- **A deletion leaves no orphans** exactly when the newest active subscriptions of
the organizations that it cancels are all that could still bill. -/
theorem no_orphans_iff (db : Store p) (path : DeletionPath) :
    NoOrphans db path ↔ HandsOverAll db path := by
  refine ⟨handsOverAll_of_noOrphans, fun h => ?_⟩
  refine ⟨fun block fails c hrun s hs hgone hrevive id hid => ?_, fun block fails e c hrun => ?_,
    cancelStripeSubs_attempted⟩
  · obtain ⟨hrows, hran⟩ := run_ok hrun
    have hgoes : db.org.goesWith (path.orgIds db.org.toOrgTables)
        (path.userIds db.org.toOrgTables) s = true := by
      by_contra hstays
      exact hgone ((hrows s).mpr ⟨hs, by simpa using hstays⟩)
    obtain ⟨org, horg, hactive⟩ := h s hs (Option.isSome_iff_exists.mpr ⟨id, hid⟩) hrevive hgoes
    rw [hran]
    exact mem_batches.mpr ⟨org, horg, s, hactive, hid⟩
  · exact (run_error hrun).1

/-! ### An unpaid subscription -/

/-- Organization 1 has this one subscription, and its owner, user 5, another on
their own. -/
def sampleOrphanTables (status personal : SubscriptionStatus) : OrgTables where
  users := [⟨5, "ada@x"⟩]
  orgs := [{ id := 1, name := "acme", slug := "acme", createdBy := some 5 }]
  members := [{ id := 2, org := 1, user := 5, role := .owner, isBilling := true }]
  invitations := []
  customers := [{ id := 3, stripeId := "cus_1", owner := .org 1 },
    { id := 4, stripeId := "cus_2", owner := .user 5 }]
  subscriptions :=
    [{ id := 1, stripeId := some "sub_1", stripeCustomerId := some 3, userId := none, status
       planId := 1, seatLimit := 1, trialEndsAt := none, currentPeriodStart := 0
       currentPeriodEnd := 1, canceledAt := none, cancelAt := none, scheduledPlanId := none
       scheduledChangeAt := none, currency := "usd", createdAt := 0 },
     { id := 2, stripeId := some "sub_2", stripeCustomerId := some 4, userId := some 5
       status := personal, planId := 1, seatLimit := 1, trialEndsAt := none
       currentPeriodStart := 0, currentPeriodEnd := 1, canceledAt := none, cancelAt := none
       scheduledPlanId := none, scheduledChangeAt := none, currency := "usd", createdAt := 0 }]
  nextKey := 6

def sampleOrphanStore (status personal : SubscriptionStatus) : Store wordPlatform where
  org := ⟨sampleOrphanTables status personal, by
    constructor <;> simp [sampleOrphanTables, Table.Unique, OrgMember.ownedBy]⟩
  catalog := sampleDb.catalog
  uniq_stripe_id := by simp [sampleOrphanTables, Table.Unique]

/-- Stripe goes on with an unpaid subscription, but the deletion of its organization
does not hand it over, and neither is that of an account that goes with it. -/
theorem unpaid_subscriptions_orphaned :
    ¬ NoOrphans (sampleOrphanStore .unpaid .canceled) (.deleteOrg 1) ∧
      ¬ NoOrphans (sampleOrphanStore .active .unpaid) (.deleteOrgsCreatedByUser 5) := by
  refine ⟨fun h => ?_, fun h => ?_⟩
  · have hsafe := handsOverAll_of_noOrphans h
    revert hsafe
    unfold HandsOverAll
    decide +kernel
  · have hsafe := handsOverAll_of_noOrphans h
    revert hsafe
    unfold HandsOverAll
    decide +kernel

end Saasmint
