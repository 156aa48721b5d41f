/-
Saasmint/Orgs/Models.lean

The tables of organizations, memberships, invitations and accounts
(apps/orgs/models.py, apps/users/models.py) with the constraints that their
writers can run into.

A write goes through `OrgDb.commit`, which takes the new tables or raises
`IntegrityError`; a deletion with its cascade keeps every constraint
(`OrgTables.Constraints.of_delete`) and needs no check.  Keys are given out in
order, so that a key is never used again after its row is gone, as with
`uuid4`.
-/
import Saasmint.Billing.Models
import Saasmint.Lib.PyStr
import Saasmint.Lib.Table

namespace Saasmint

/-- Text functions of the web framework and of the database. -/
structure Platform where
  /-- `slugify`. -/
  slugify : String → String
  /-- `BaseUserManager.normalize_email`. -/
  normalizeEmail : String → String
  /-- `LOWER`, of the unique index on emails. -/
  lower : String → String
  /-- `UPPER`, of the lookup `email__iexact`. -/
  upper : String → String

/-- The text functions on lower-case words. -/
def wordPlatform : Platform where
  slugify := PyStr.asciiLower
  normalizeEmail := id
  lower := PyStr.asciiLower
  upper s := String.ofList (s.toList.map Char.toUpper)

inductive OrgRole
  | owner | admin | member
  deriving DecidableEq, Repr

/-- `ORG_ROLE_RANK`. -/
def OrgRole.rank : OrgRole → Nat
  | owner => 3
  | admin => 2
  | member => 1

/-- The roles that an invitation or a member PATCH can carry. -/
inductive AssignableRole
  | admin | member
  deriving DecidableEq, Repr

def AssignableRole.toRole : AssignableRole → OrgRole
  | admin => .admin
  | member => .member

@[simp] theorem AssignableRole.toRole_ne_owner (r : AssignableRole) : r.toRole ≠ .owner := by
  cases r <;> decide

inductive InvitationStatus
  | pending | accepted | expired | cancelled | declined
  deriving DecidableEq, Repr

structure User where
  id : UUID
  email : String
  deriving DecidableEq, Repr

/-- `max_length` of the name and the slug of an organization. -/
def maxOrgText : Nat := 255

structure Org where
  id : UUID
  name : String
  slug : String
  /-- `on_delete=SET_NULL`. -/
  createdBy : Option UUID
  deriving DecidableEq, Repr

structure OrgMember where
  id : UUID
  org : UUID
  user : UUID
  role : OrgRole
  isBilling : Bool
  deriving DecidableEq, Repr

structure Invitation where
  id : UUID
  org : UUID
  email : String
  role : AssignableRole
  token : String
  status : InvitationStatus
  expiresAt : Timestamp
  deriving DecidableEq, Repr

/-- The column under `uniq_org_owner_per_user`. -/
def OrgMember.ownedBy (m : OrgMember) : Option UUID := if m.role = .owner then some m.user else none

/-- The columns under `idx_invitations_org_email_pending`. -/
def Invitation.pendingFor (i : Invitation) : Option (UUID × String) :=
  if i.status = .pending then some (i.org, i.email) else none

structure OrgTables where
  users : List User
  orgs : List Org
  members : List OrgMember
  invitations : List Invitation
  customers : List StripeCustomer
  subscriptions : List Subscription
  /-- The next key of `uuid4`. -/
  nextKey : UUID
  deriving DecidableEq, Repr

/-- Keys and constraints, and that the next key is new. -/
structure OrgTables.Constraints (p : Platform) (t : OrgTables) : Prop where
  user_pk : Table.Unique (fun u => some u.id) t.users
  uniq_users_lower_email : Table.Unique (fun u => some (p.lower u.email)) t.users
  org_pk : Table.Unique (fun o => some o.id) t.orgs
  org_slug : Table.Unique (fun o => some o.slug) t.orgs
  member_pk : Table.Unique (fun m => some m.id) t.members
  org_members_org_user_uniq : Table.Unique (fun m => some (m.org, m.user)) t.members
  uniq_org_owner_per_user : Table.Unique OrgMember.ownedBy t.members
  ck_org_owner_must_be_billing : ∀ m ∈ t.members, m.role = .owner → m.isBilling = true
  invitation_pk : Table.Unique (fun i => some i.id) t.invitations
  invitation_token : Table.Unique (fun i => some i.token) t.invitations
  idx_invitations_org_email_pending : Table.Unique Invitation.pendingFor t.invitations
  customer_pk : Table.Unique (fun c => some c.id) t.customers
  customer_stripe_id : Table.Unique (fun c => some c.stripeId) t.customers
  customer_owner : Table.Unique (fun c => some c.owner) t.customers
  subscription_pk : Table.Unique (fun s => some s.id) t.subscriptions
  member_org : ∀ m ∈ t.members, ∃ o ∈ t.orgs, o.id = m.org
  member_user : ∀ m ∈ t.members, ∃ u ∈ t.users, u.id = m.user
  created_by : ∀ o ∈ t.orgs, ∀ k ∈ o.createdBy, ∃ u ∈ t.users, u.id = k
  invitation_org : ∀ i ∈ t.invitations, ∃ o ∈ t.orgs, o.id = i.org
  new_user : ∀ u ∈ t.users, u.id < t.nextKey
  new_org : ∀ o ∈ t.orgs, o.id < t.nextKey
  new_member : ∀ m ∈ t.members, m.id < t.nextKey
  new_invitation : ∀ i ∈ t.invitations, i.id < t.nextKey
  new_customer : ∀ c ∈ t.customers, c.id < t.nextKey

instance (p : Platform) (t : OrgTables) : Decidable (t.Constraints p) :=
  decidable_of_iff
    ((Table.Unique (fun u => some u.id) t.users ∧
      Table.Unique (fun u => some (p.lower u.email)) t.users ∧
      Table.Unique (fun o => some o.id) t.orgs ∧
      Table.Unique (fun o => some o.slug) t.orgs) ∧
     (Table.Unique (fun m => some m.id) t.members ∧
      Table.Unique (fun m => some (m.org, m.user)) t.members ∧
      Table.Unique OrgMember.ownedBy t.members ∧
      (∀ m ∈ t.members, m.role = .owner → m.isBilling = true)) ∧
     (Table.Unique (fun i => some i.id) t.invitations ∧
      Table.Unique (fun i => some i.token) t.invitations ∧
      Table.Unique Invitation.pendingFor t.invitations) ∧
     (Table.Unique (fun c => some c.id) t.customers ∧
      Table.Unique (fun c => some c.stripeId) t.customers ∧
      Table.Unique (fun c => some c.owner) t.customers ∧
      Table.Unique (fun s => some s.id) t.subscriptions) ∧
     ((∀ m ∈ t.members, ∃ o ∈ t.orgs, o.id = m.org) ∧
      (∀ m ∈ t.members, ∃ u ∈ t.users, u.id = m.user) ∧
      (∀ o ∈ t.orgs, ∀ k ∈ o.createdBy, ∃ u ∈ t.users, u.id = k) ∧
      (∀ i ∈ t.invitations, ∃ o ∈ t.orgs, o.id = i.org)) ∧
     (∀ u ∈ t.users, u.id < t.nextKey) ∧ (∀ o ∈ t.orgs, o.id < t.nextKey) ∧
     (∀ m ∈ t.members, m.id < t.nextKey) ∧ (∀ i ∈ t.invitations, i.id < t.nextKey) ∧
     ∀ c ∈ t.customers, c.id < t.nextKey)
    ⟨fun ⟨⟨u₁, u₂, o₁, o₂⟩, ⟨m₁, m₂, m₃, m₄⟩, ⟨i₁, i₂, i₃⟩, ⟨c₁, c₂, c₃, s₁⟩, ⟨f₁, f₂, f₃, f₄⟩,
        n₁, n₂, n₃, n₄, n₅⟩ =>
      ⟨u₁, u₂, o₁, o₂, m₁, m₂, m₃, m₄, i₁, i₂, i₃, c₁, c₂, c₃, s₁, f₁, f₂, f₃, f₄,
        n₁, n₂, n₃, n₄, n₅⟩,
     fun ⟨u₁, u₂, o₁, o₂, m₁, m₂, m₃, m₄, i₁, i₂, i₃, c₁, c₂, c₃, s₁, f₁, f₂, f₃, f₄,
        n₁, n₂, n₃, n₄, n₅⟩ =>
      ⟨⟨u₁, u₂, o₁, o₂⟩, ⟨m₁, m₂, m₃, m₄⟩, ⟨i₁, i₂, i₃⟩, ⟨c₁, c₂, c₃, s₁⟩, ⟨f₁, f₂, f₃, f₄⟩,
        n₁, n₂, n₃, n₄, n₅⟩⟩

/-- A state of the database: tables that meet their constraints. -/
structure OrgDb (p : Platform) extends OrgTables where
  constraints : toOrgTables.Constraints p

/-- What a request is refused with, or fails with. -/
inductive OrgError
  | orgNotFound
  | insufficientPermission
  /-- 404 of `get_object_or_404`. -/
  | notFound
  | userNotFound
  | seatLimitReached
  | invitationExpired
  | invitationEmailExists
  | invitationPendingExists
  /-- The body of the request is refused. -/
  | validationError
  | seatsBelowMemberCount
  | integrityError
  /-- `save(update_fields=...)` that affects no row. -/
  | databaseError
  /-- A text is too long for its column. -/
  | dataError
  deriving DecidableEq, Repr

variable {p : Platform}

/-- The database takes tables that meet the constraints. -/
def OrgDb.commit (p : Platform) (t : OrgTables) : Except OrgError (OrgDb p) :=
  if h : t.Constraints p then .ok ⟨t, h⟩ else .error .integrityError

theorem OrgDb.commit_eq_ok {t : OrgTables} {db : OrgDb p} :
    OrgDb.commit p t = .ok db ↔ db.toOrgTables = t := by
  unfold commit
  constructor
  · intro h
    split at h
    · cases h
      rfl
    · cases h
  · rintro rfl
    exact dif_pos db.constraints

/-! ### Deletions -/

/-- Tables with rows removed, where nothing that is left refers to a row that
is gone. -/
theorem OrgTables.Constraints.of_delete {t t' : OrgTables} (h : t.Constraints p)
    (husers : t'.users.Sublist t.users)
    (horgs : (t'.orgs.map fun o => (o.id, o.slug)).Sublist (t.orgs.map fun o => (o.id, o.slug)))
    (hmembers : t'.members.Sublist t.members)
    (hinvitations : t'.invitations.Sublist t.invitations)
    (hcustomers : t'.customers.Sublist t.customers)
    (hsubscriptions : t'.subscriptions.Sublist t.subscriptions) (hkey : t'.nextKey = t.nextKey)
    (member_org : ∀ m ∈ t'.members, ∃ o ∈ t'.orgs, o.id = m.org)
    (member_user : ∀ m ∈ t'.members, ∃ u ∈ t'.users, u.id = m.user)
    (created_by : ∀ o ∈ t'.orgs, ∀ k ∈ o.createdBy, ∃ u ∈ t'.users, u.id = k)
    (invitation_org : ∀ i ∈ t'.invitations, ∃ o ∈ t'.orgs, o.id = i.org) :
    t'.Constraints p where
  user_pk := h.user_pk.of_sublist husers
  uniq_users_lower_email := h.uniq_users_lower_email.of_sublist husers
  org_pk := by
    have := horgs.map Prod.fst
    simp only [List.map_map] at this
    exact Table.unique_some_iff.mpr ((Table.unique_some_iff.mp h.org_pk).sublist this)
  org_slug := by
    have := horgs.map Prod.snd
    simp only [List.map_map] at this
    exact Table.unique_some_iff.mpr ((Table.unique_some_iff.mp h.org_slug).sublist this)
  member_pk := h.member_pk.of_sublist hmembers
  org_members_org_user_uniq := h.org_members_org_user_uniq.of_sublist hmembers
  uniq_org_owner_per_user := h.uniq_org_owner_per_user.of_sublist hmembers
  ck_org_owner_must_be_billing m hm := h.ck_org_owner_must_be_billing m (hmembers.subset hm)
  invitation_pk := h.invitation_pk.of_sublist hinvitations
  invitation_token := h.invitation_token.of_sublist hinvitations
  idx_invitations_org_email_pending :=
    h.idx_invitations_org_email_pending.of_sublist hinvitations
  customer_pk := h.customer_pk.of_sublist hcustomers
  customer_stripe_id := h.customer_stripe_id.of_sublist hcustomers
  customer_owner := h.customer_owner.of_sublist hcustomers
  subscription_pk := h.subscription_pk.of_sublist hsubscriptions
  member_org := member_org
  member_user := member_user
  created_by := created_by
  invitation_org := invitation_org
  new_user u hu := hkey ▸ h.new_user u (husers.subset hu)
  new_org o ho := by
    have : (o.id, o.slug) ∈ t.orgs.map fun o => (o.id, o.slug) :=
      horgs.subset (List.mem_map.mpr ⟨o, ho, rfl⟩)
    obtain ⟨o', ho', heq⟩ := List.mem_map.mp this
    rw [hkey, ← (Prod.mk.inj heq).1]
    exact h.new_org o' ho'
  new_member m hm := hkey ▸ h.new_member m (hmembers.subset hm)
  new_invitation i hi := hkey ▸ h.new_invitation i (hinvitations.subset hi)
  new_customer c hc := hkey ▸ h.new_customer c (hcustomers.subset hc)

end Saasmint
