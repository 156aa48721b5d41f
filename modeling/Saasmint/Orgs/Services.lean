/-
Saasmint/Orgs/Services.lean

The reads and writes that the requests on organizations are made of
(apps/orgs/services.py, apps/orgs/views.py, saasmint_core/services/orgs.py).

A read is a function of the tables, a write one from database states to
database states or errors, and each write here is one statement or one
transaction of the source: what a request does between them is up to the
modules that interleave requests.
-/
import Mathlib.Data.List.MinMax
import Saasmint.Lib.Loops
import Saasmint.Orgs.Models

namespace Saasmint

variable {p : Platform}

/-! ### Permissions -/

/-- `_ADMIN_OR_ABOVE` and `_OWNER_ONLY`. -/
def adminOrAbove : List OrgRole := [.owner, .admin]

def ownerOnly : List OrgRole := [.owner]

/-- `check_can_manage_member`. -/
def checkCanManageMember (callerRole targetRole : OrgRole) : Except OrgError Unit :=
  if callerRole.rank ≤ targetRole.rank then .error .insufficientPermission else .ok ()

/-- `check_can_assign_role`. -/
def checkCanAssignRole (callerRole newRole : OrgRole) : Except OrgError Unit :=
  if callerRole.rank ≤ newRole.rank then .error .insufficientPermission else .ok ()

/-! ### Reads -/

namespace OrgTables

variable (t : OrgTables)

def getMember (org user : UUID) : Option OrgMember :=
  t.members.find? fun m => m.org = org ∧ m.user = user

/-- `_get_org_and_member`. -/
def getOrgAndMember (user org : UUID) (allowedRoles : List OrgRole) : Except OrgError OrgMember :=
  match t.getMember org user with
  | none =>
    if t.orgs.any fun o => o.id = org then .error .insufficientPermission else .error .orgNotFound
  | some m => if m.role ∈ allowedRoles then .ok m else .error .insufficientPermission

/-- The pending invitation of a token. -/
def getPendingInvitation (token : String) : Option Invitation :=
  t.invitations.find? fun i => i.token = token ∧ i.status = .pending

def emailIsRegistered (p : Platform) (email : String) : Bool :=
  t.users.any fun u => p.upper u.email = p.upper email

/-- The customer of an account. -/
def customerOf (user : UUID) : Option UUID :=
  (t.customers.find? fun c => c.owner = .user user).map StripeCustomer.id

/-- The subscription is active and of a customer with the given owner. -/
def isActiveFor (owner : Owner) (s : Subscription) : Bool :=
  s.status.isActive && t.customers.any fun c => s.stripeCustomerId = some c.id ∧ c.owner = owner

def activeSubsOf (owner : Owner) : List Subscription := t.subscriptions.filter (t.isActiveFor owner)

/-- The row that `lock_active_team_sub` reads; `first()` orders by primary key. -/
def activeTeamSub (org : UUID) : Option Subscription :=
  (t.activeSubsOf (.org org)).argmin Subscription.id

def memberCount (org : UUID) : Int := (t.members.filter fun m => m.org = org).length

/-- `_personal_subs_outer_ref_qs` has a row for the user. -/
def hasPersonalSub (user : UUID) : Bool :=
  (t.activeSubsOf (.user user)).any fun s => s.userId = some user

/-- The organizations that `delete_orgs_created_by_user` collects. -/
def orgsCreatedBy (user : UUID) : List UUID :=
  (t.orgs.filter fun o => o.createdBy = some user).map Org.id

/-- The members of a batch of organizations who have no membership outside it
and no personal subscription. -/
def deletableUserIds (orgIds : List UUID) : List UUID :=
  (t.members.filter fun m =>
    m.org ∈ orgIds && !(t.members.any fun m' => m'.user = m.user ∧ m'.org ∉ orgIds)
      && !t.hasPersonalSub m.user).map OrgMember.user

end OrgTables

/-- Users are only deleted with organizations that hold all their memberships. -/
theorem OrgTables.mem_of_deletable {t : OrgTables} (orgIds : List UUID) {m : OrgMember}
    (hm : m ∈ t.members) (h : m.user ∈ t.deletableUserIds orgIds) : m.org ∈ orgIds := by
  obtain ⟨m', hm', huser⟩ := List.mem_map.mp h
  have hdel := (List.mem_filter.mp hm').2
  simp only [Bool.and_eq_true, Bool.not_eq_true', List.any_eq_false, decide_eq_true_eq, not_and,
    not_not] at hdel
  exact hdel.1.2 m hm huser.symm

/-! ### Slugs -/

/-- The base of a slug. -/
def slugBase (slugify : String → String) (name : String) : String :=
  let allowed (c : Char) : Bool :=
    ('a' ≤ c && c ≤ 'z') || ('0' ≤ c && c ≤ '9') || c = '-'
  let isHyphen (c : Char) : Bool := c = '-'
  let chars := (slugify name).toList.filter allowed
  let base := ((chars.dropWhile isHyphen).reverse.dropWhile isHyphen).reverse
  if base.length < 2 then "org" else String.ofList base

def suffixedSlug (base : String) (suffix : Nat) : String := base ++ "-" ++ toString suffix

/-- `generate_unique_slug`, where `taken` are the slugs in use.  The loop tries
the suffixes 2, 3, ...; one of the first `taken.length + 1` is free. -/
def generateUniqueSlug (slugify : String → String) (taken : List String) (name : String) :
    String :=
  let base := slugBase slugify name
  if base ∉ taken then base
  else
    match (List.range (taken.length + 1)).find? fun k => suffixedSlug base (k + 2) ∉ taken with
    | some k => suffixedSlug base (k + 2)
    | none => base

theorem dropWhile_of_forall {p : Char → Bool} {cs : List Char} (h : ∀ c ∈ cs, p c = false) :
    cs.dropWhile p = cs := by
  cases cs with
  | nil => rfl
  | cons c cs =>
    rw [List.dropWhile_cons, h c (List.mem_cons_self ..)]
    rfl

/-- Nothing is cut from letters and digits. -/
theorem slugBase_of_text {slugify : String → String} {name : String} {cs : List Char}
    (hslug : slugify name = String.ofList cs)
    (htext : ∀ c ∈ cs, (('a' ≤ c && c ≤ 'z') || ('0' ≤ c && c ≤ '9')) = true)
    (hhyphen : ∀ c ∈ cs, c ≠ '-') (hlength : 2 ≤ cs.length) :
    slugBase slugify name = String.ofList cs := by
  have hallowed : ∀ c ∈ cs, (('a' ≤ c && c ≤ 'z') || ('0' ≤ c && c ≤ '9') || c = '-') = true := by
    intro c hc
    rw [Bool.or_eq_true]
    exact Or.inl (htext c hc)
  have hcut : ∀ c ∈ cs, decide (c = '-') = false := fun c hc => decide_eq_false (hhyphen c hc)
  unfold slugBase
  simp only [hslug, String.toList_ofList, List.filter_eq_self.mpr hallowed]
  rw [dropWhile_of_forall hcut, dropWhile_of_forall fun c hc => hcut c (List.mem_reverse.mp hc),
    List.reverse_reverse, if_neg (by omega)]

theorem suffixedSlug_injective (base : String) : Function.Injective (suffixedSlug base) := by
  intro m n h
  have hl := congrArg String.toList h
  simp only [suffixedSlug, String.toList_append, List.append_assoc, List.append_cancel_left_eq]
    at hl
  have hd := congrArg (fun l => Nat.ofDigitChars 10 l 0) hl
  simpa [Nat.toString_eq_repr, Nat.repr, Nat.ofDigitChars_ten_toDigits] using hd

/-- Where its base is taken, the slug has the first free suffix. -/
theorem generateUniqueSlug_of_taken {slugify : String → String} {taken : List String}
    {name : String} (h : slugBase slugify name ∈ taken) :
    ∃ k ≤ taken.length,
      generateUniqueSlug slugify taken name = suffixedSlug (slugBase slugify name) (k + 2) ∧
        suffixedSlug (slugBase slugify name) (k + 2) ∉ taken ∧
        ∀ j < k, suffixedSlug (slugBase slugify name) (j + 2) ∈ taken := by
  have hinj : Function.Injective fun k => suffixedSlug (slugBase slugify name) (k + 2) :=
    fun a b hab => Nat.add_right_cancel (suffixedSlug_injective _ hab)
  obtain ⟨n, hn, hfree⟩ := Loops.exists_not_mem hinj taken
  unfold generateUniqueSlug
  simp only [h, not_true_eq_false, if_false]
  rcases e : (List.range (taken.length + 1)).find? fun k =>
      decide (suffixedSlug (slugBase slugify name) (k + 2) ∉ taken) with - | k
  · have := List.find?_range_eq_none.mp e n (by omega)
    simp only [decide_not, Bool.not_not, decide_eq_true_eq] at this
    exact absurd this hfree
  · obtain ⟨hk, hrange, hbefore⟩ := List.find?_range_eq_some.mp e
    rw [List.mem_range] at hrange
    refine ⟨k, by omega, rfl, by simpa using hk, fun j hj => ?_⟩
    simpa using hbefore j hj

/-- Where its base is free, the slug is the base. -/
theorem generateUniqueSlug_of_free {slugify : String → String} {taken : List String}
    {name : String} (h : slugBase slugify name ∉ taken) :
    generateUniqueSlug slugify taken name = slugBase slugify name := by
  simp [generateUniqueSlug, h]

/-- The slug is free at the time of the scan. -/
theorem generateUniqueSlug_not_mem (slugify : String → String) (taken : List String)
    (name : String) : generateUniqueSlug slugify taken name ∉ taken := by
  by_cases h : slugBase slugify name ∈ taken
  · obtain ⟨k, -, heq, hfree, -⟩ := generateUniqueSlug_of_taken h
    rw [heq]
    exact hfree
  · rw [generateUniqueSlug_of_free h]
    exact h

/-- A suffix has at least two characters. -/
theorem length_suffixedSlug (base : String) (k : Nat) :
    base.length + 2 ≤ (suffixedSlug base k).length := by
  have hdigits : 0 < (toString k).length := Nat.length_repr_pos
  have hhyphen : ("-" : String).length = 1 := rfl
  simp only [suffixedSlug, String.length_append]
  omega

/-! ### Writes of one row -/

/-- The fields of a member that `save(update_fields=...)` names. -/
structure MemberFields where
  role : Option OrgRole := none
  isBilling : Option Bool := none
  deriving DecidableEq, Repr

def MemberFields.apply (f : MemberFields) (m : OrgMember) : OrgMember :=
  { m with role := f.role.getD m.role, isBilling := f.isBilling.getD m.isBilling }

def OrgTables.updateMember (t : OrgTables) (id : UUID) (f : MemberFields) : OrgTables :=
  { t with members := Table.update OrgMember.id id f.apply t.members }

def OrgTables.updateInvitation (t : OrgTables) (id : UUID) (status : InvitationStatus) :
    OrgTables :=
  { t with
    invitations := Table.update Invitation.id id (fun i => { i with status }) t.invitations }

namespace OrgDb

/-- `member.save(update_fields=...)`. -/
def saveMember (db : OrgDb p) (id : UUID) (f : MemberFields) : Except OrgError (OrgDb p) :=
  if db.members.any fun m => m.id = id then commit p (db.updateMember id f)
  else .error .databaseError

/-- `invitation.save(update_fields=["status"])`. -/
def saveInvitation (db : OrgDb p) (id : UUID) (status : InvitationStatus) :
    Except OrgError (OrgDb p) :=
  if db.invitations.any fun i => i.id = id then commit p (db.updateInvitation id status)
  else .error .databaseError

/-- The transaction of an ownership transfer. -/
def transferOwnership (db : OrgDb p) (callerId targetId : UUID) : Except OrgError (OrgDb p) := do
  let db ← db.saveMember targetId { role := some .owner, isBilling := some true }
  db.saveMember callerId { role := some .admin, isBilling := some false }

end OrgDb

/-! ### Creations -/

/-- The short-circuit of `_create_org_with_owner` for a webhook that is
delivered again. -/
def OrgTables.alreadyCreated (t : OrgTables) (stripeCustomerId : String) (user : UUID) : Bool :=
  (t.customers.find? fun c => c.stripeId = stripeCustomerId).any fun c =>
    c.owner.orgId.any fun org =>
      (t.orgs.any fun o => o.id = org) && (t.getMember org user).isSome

/-- The customer is there, on an organization that is there, with the user as a member. -/
theorem OrgDb.alreadyCreated_iff {db : OrgDb p} {stripeCustomerId : String} {user : UUID} :
    db.alreadyCreated stripeCustomerId user = true ↔
      ∃ c ∈ db.customers, c.stripeId = stripeCustomerId ∧ ∃ k, c.owner = .org k ∧
        (∃ o ∈ db.orgs, o.id = k) ∧ ∃ m ∈ db.members, m.org = k ∧ m.user = user := by
  have hfind : ∀ c, (db.customers.find? fun c => decide (c.stripeId = stripeCustomerId)) = some c ↔
      c ∈ db.customers ∧ c.stripeId = stripeCustomerId := fun c => by
    have := Table.find?_eq_some_iff (v := stripeCustomerId) (a := c)
      db.constraints.customer_stripe_id
    simpa only [Option.some.injEq] using this
  unfold OrgTables.alreadyCreated
  rw [Option.any_eq_true]
  constructor
  · rintro ⟨c, hc, howner⟩
    obtain ⟨hmem, hid⟩ := (hfind c).mp hc
    obtain ⟨k, hk, hrest⟩ := (Option.any_eq_true _ _).mp howner
    obtain ⟨horg, hmember⟩ := Bool.and_eq_true_iff.mp hrest
    obtain ⟨m, hm, hboth⟩ := List.find?_isSome.mp hmember
    refine ⟨c, hmem, hid, k, ?_, by simpa using horg, m, hm, by simpa using hboth⟩
    rcases howner' : c.owner with x | x <;> rw [howner'] at hk <;> cases hk
    rfl
  · rintro ⟨c, hmem, hid, k, howner, ⟨o, ho, hok⟩, m, hm, hmorg, hmuser⟩
    refine ⟨c, (hfind c).mpr ⟨hmem, hid⟩, ?_⟩
    have horg : (db.orgs.any fun o => decide (o.id = k)) = true :=
      List.any_eq_true.mpr ⟨o, ho, by simpa using hok⟩
    have hmember : (db.getMember k user).isSome = true :=
      List.find?_isSome.mpr ⟨m, hm, by simp [hmorg, hmuser]⟩
    rw [howner]
    exact Bool.and_eq_true_iff.mpr ⟨horg, hmember⟩

/-- The rows that `_create_org_with_owner` inserts. -/
def OrgTables.insertOrg (t : OrgTables) (user : UUID) (name slug stripeCustomerId : String) :
    OrgTables :=
  let org := t.nextKey
  { t with
    orgs := t.orgs ++ [{ id := org, name, slug, createdBy := some user }]
    members := t.members ++
      [{ id := org + 1, org, user, role := .owner, isBilling := true }]
    customers := t.customers ++
      [{ id := org + 2, stripeId := stripeCustomerId, owner := .org org }]
    nextKey := t.nextKey + 3 }

/-- The rows that `accept_invitation` writes. -/
def OrgTables.insertInvitee (p : Platform) (t : OrgTables) (inv : Invitation) : OrgTables :=
  let user := t.nextKey
  { t.updateInvitation inv.id .accepted with
    users := t.users ++ [{ id := user, email := p.normalizeEmail inv.email }]
    members := t.members ++
      [{ id := user + 1, org := inv.org, user, role := inv.role.toRole, isBilling := false }]
    nextKey := t.nextKey + 2 }

namespace OrgDb

/-- The inserts of `_create_org_with_owner`. -/
def createOrgWithOwner (db : OrgDb p) (user : UUID) (name slug stripeCustomerId : String) :
    Except OrgError (OrgDb p) :=
  if maxOrgText < name.length ∨ maxOrgText < slug.length then .error .dataError
  else commit p (db.insertOrg user name slug stripeCustomerId)

theorem createOrgWithOwner_ok {db db' : OrgDb p} {user : UUID} {name slug stripeCustomerId : String}
    (h : db.createOrgWithOwner user name slug stripeCustomerId = .ok db') :
    db'.toOrgTables = db.insertOrg user name slug stripeCustomerId := by
  unfold createOrgWithOwner at h
  split at h
  · cases h
  · exact commit_eq_ok.mp h

/-- The writes of `accept_invitation`, once there is a seat. -/
def admitInvitee (db : OrgDb p) (inv : Invitation) : Except OrgError (OrgDb p) :=
  if db.invitations.any fun i => i.id = inv.id then commit p (db.insertInvitee p inv)
  else .error .databaseError

/-- The seat check of `accept_invitation`. -/
def seatForInvitee (t : OrgTables) (org : UUID) : Bool :=
  (t.activeTeamSub org).all fun sub => t.memberCount org + 1 ≤ sub.seatLimit

/-- The transaction of `accept_invitation`. -/
def acceptInvitation (db : OrgDb p) (inv : Invitation) : Except OrgError (OrgDb p) :=
  if seatForInvitee db.toOrgTables inv.org then db.admitInvitee inv else .error .seatLimitReached

end OrgDb

/-! ### Deletions -/

namespace OrgTables

variable (t : OrgTables)

/-- Delete customers, and their subscriptions with them. -/
def deleteCustomers (gone : StripeCustomer → Bool) : OrgTables :=
  { t with
    customers := t.customers.filter fun c => !gone c
    subscriptions := t.subscriptions.filter fun s =>
      !(t.customers.any fun c => gone c && s.stripeCustomerId = some c.id) }

/-- Delete users: memberships, the customer and subscriptions go with them, and
`created_by` becomes NULL. -/
def deleteUsers (ids : List UUID) : OrgTables :=
  let t := t.deleteCustomers fun c => c.owner.userId.any (· ∈ ids)
  { t with
    users := t.users.filter fun u => u.id ∉ ids
    orgs := t.orgs.map fun o => { o with createdBy := o.createdBy.filter (· ∉ ids) }
    members := t.members.filter fun m => m.user ∉ ids
    subscriptions := t.subscriptions.filter fun s => !(s.userId.any (· ∈ ids)) }

/-- `OrgMember.objects.filter(user_id=...).delete()`. -/
def deleteMemberships (user : UUID) : OrgTables :=
  { t with members := t.members.filter fun m => m.user ≠ user }

/-- Delete organizations: memberships, invitations and the customer go with them. -/
def deleteOrgs (ids : List UUID) : OrgTables :=
  let t := t.deleteCustomers fun c => c.owner.orgId.any (· ∈ ids)
  { t with
    orgs := t.orgs.filter fun o => o.id ∉ ids
    members := t.members.filter fun m => m.org ∉ ids
    invitations := t.invitations.filter fun i => i.org ∉ ids }

/-- Cancel the pending invitations to a batch of organizations. -/
def cancelInvitations (orgIds : List UUID) : OrgTables :=
  { t with
    invitations := t.invitations.map fun i =>
      if i.org ∈ orgIds ∧ i.status = .pending then { i with status := .cancelled } else i }

variable {t} {m : OrgMember}

@[simp] theorem mem_deleteUsers {ids : List UUID} :
    m ∈ (t.deleteUsers ids).members ↔ m ∈ t.members ∧ m.user ∉ ids := by
  simp [deleteUsers, deleteCustomers]

@[simp] theorem mem_deleteMemberships {user : UUID} :
    m ∈ (t.deleteMemberships user).members ↔ m ∈ t.members ∧ m.user ≠ user := by
  simp [deleteMemberships]

@[simp] theorem mem_deleteOrgs {ids : List UUID} :
    m ∈ (t.deleteOrgs ids).members ↔ m ∈ t.members ∧ m.org ∉ ids := by
  simp [deleteOrgs, deleteCustomers]

theorem mem_deleteUsers_orgs {ids : List UUID} {o : Org} :
    o ∈ (t.deleteUsers ids).orgs ↔
      ∃ o₀ ∈ t.orgs, o = { o₀ with createdBy := o₀.createdBy.filter (· ∉ ids) } := by
  simp [deleteUsers, deleteCustomers, eq_comm]

@[simp] theorem mem_deleteOrgs_orgs {ids : List UUID} {o : Org} :
    o ∈ (t.deleteOrgs ids).orgs ↔ o ∈ t.orgs ∧ o.id ∉ ids := by
  simp [deleteOrgs, deleteCustomers]

end OrgTables

namespace OrgTables.Constraints

variable {t : OrgTables}

theorem deleteCustomers (h : t.Constraints p) (gone : StripeCustomer → Bool) :
    (t.deleteCustomers gone).Constraints p :=
  h.of_delete (List.Sublist.refl _) (List.Sublist.refl _) (List.Sublist.refl _)
    (List.Sublist.refl _) List.filter_sublist List.filter_sublist rfl h.member_org h.member_user
    h.created_by h.invitation_org

theorem deleteUsers (h : t.Constraints p) (ids : List UUID) :
    (t.deleteUsers ids).Constraints p := by
  have hleft : ∀ k, k ∉ ids → (∃ u ∈ t.users, u.id = k) →
      ∃ u ∈ (t.deleteUsers ids).users, u.id = k := by
    rintro k hk ⟨u, hu, rfl⟩
    exact ⟨u, List.mem_filter.mpr ⟨hu, by simpa using hk⟩, rfl⟩
  refine h.of_delete List.filter_sublist ?_ List.filter_sublist (List.Sublist.refl _)
    List.filter_sublist (List.filter_sublist.trans List.filter_sublist) rfl ?_ ?_ ?_ ?_
  · simp [OrgTables.deleteUsers, OrgTables.deleteCustomers, Function.comp_def]
  · intro m hm
    obtain ⟨o, ho, hid⟩ := h.member_org m (List.mem_filter.mp hm).1
    exact ⟨_, List.mem_map.mpr ⟨o, ho, rfl⟩, hid⟩
  · intro m hm
    obtain ⟨hm, huser⟩ := List.mem_filter.mp hm
    exact hleft m.user (by simpa using huser) (h.member_user m hm)
  · intro o ho k hk
    obtain ⟨o₀, ho₀, rfl⟩ := List.mem_map.mp ho
    obtain ⟨hk, hids⟩ := Option.mem_filter_iff.mp hk
    exact hleft k (by simpa using hids) (h.created_by o₀ ho₀ k hk)
  · intro i hi
    obtain ⟨o, ho, hid⟩ := h.invitation_org i hi
    exact ⟨_, List.mem_map.mpr ⟨o, ho, rfl⟩, hid⟩

theorem deleteMemberships (h : t.Constraints p) (user : UUID) :
    (t.deleteMemberships user).Constraints p :=
  h.of_delete (List.Sublist.refl _) (List.Sublist.refl _) List.filter_sublist
    (List.Sublist.refl _) (List.Sublist.refl _) (List.Sublist.refl _) rfl
    (fun m hm => h.member_org m (List.mem_filter.mp hm).1)
    (fun m hm => h.member_user m (List.mem_filter.mp hm).1) h.created_by h.invitation_org

theorem deleteOrgs (h : t.Constraints p) (ids : List UUID) : (t.deleteOrgs ids).Constraints p := by
  have hleft : ∀ k, k ∉ ids → (∃ o ∈ t.orgs, o.id = k) →
      ∃ o ∈ (t.deleteOrgs ids).orgs, o.id = k := by
    rintro k hk ⟨o, ho, rfl⟩
    exact ⟨o, List.mem_filter.mpr ⟨ho, by simpa using hk⟩, rfl⟩
  refine h.of_delete (List.Sublist.refl _) (List.filter_sublist.map _) List.filter_sublist
    List.filter_sublist List.filter_sublist List.filter_sublist rfl ?_ ?_ ?_ ?_
  · intro m hm
    obtain ⟨hm, horg⟩ := List.mem_filter.mp hm
    exact hleft m.org (by simpa using horg) (h.member_org m hm)
  · exact fun m hm => h.member_user m (List.mem_filter.mp hm).1
  · exact fun o ho => h.created_by o (List.mem_filter.mp ho).1
  · intro i hi
    obtain ⟨hi, horg⟩ := List.mem_filter.mp hi
    exact hleft i.org (by simpa using horg) (h.invitation_org i hi)

theorem cancelInvitations (h : t.Constraints p) (orgIds : List UUID) :
    (t.cancelInvitations orgIds).Constraints p :=
  { h with
    invitation_pk := h.invitation_pk.map fun i => Or.inl (by split <;> rfl)
    invitation_token := h.invitation_token.map fun i => Or.inl (by split <;> rfl)
    idx_invitations_org_email_pending := h.idx_invitations_org_email_pending.map fun i => by
      split
      · exact Or.inr rfl
      · exact Or.inl rfl
    invitation_org := by
      intro i hi
      obtain ⟨i₀, hi₀, rfl⟩ := List.mem_map.mp hi
      obtain ⟨o, ho, hid⟩ := h.invitation_org i₀ hi₀
      refine ⟨o, ho, hid.trans ?_⟩
      split <;> rfl
    new_invitation := by
      intro i hi
      obtain ⟨i₀, hi₀, rfl⟩ := List.mem_map.mp hi
      have := h.new_invitation i₀ hi₀
      split <;> exact this }

end OrgTables.Constraints

namespace OrgDb

variable (db : OrgDb p)

def deleteUsers (ids : List UUID) : OrgDb p :=
  ⟨db.toOrgTables.deleteUsers ids, db.constraints.deleteUsers ids⟩

def deleteMemberships (user : UUID) : OrgDb p :=
  ⟨db.toOrgTables.deleteMemberships user, db.constraints.deleteMemberships user⟩

/-- `DjangoStripeCustomerRepository.delete`. -/
def deleteCustomer (id : UUID) : OrgDb p :=
  ⟨db.toOrgTables.deleteCustomers fun c => c.id = id, db.constraints.deleteCustomers _⟩

/-- The transaction of `delete_orgs_created_by_user`, from what it has read. -/
def eraseOrgs (orgIds userIds : List UUID) : OrgDb p :=
  ⟨((db.toOrgTables.cancelInvitations orgIds).deleteUsers userIds).deleteOrgs orgIds,
    ((db.constraints.cancelInvitations orgIds).deleteUsers userIds).deleteOrgs orgIds⟩

theorem mem_eraseOrgs {orgIds userIds : List UUID} {m : OrgMember} :
    m ∈ (db.eraseOrgs orgIds userIds).members ↔
      m ∈ db.members ∧ m.user ∉ userIds ∧ m.org ∉ orgIds := by
  rw [← and_assoc]
  exact OrgTables.mem_deleteOrgs.trans (and_congr_left fun _ => OrgTables.mem_deleteUsers)

theorem mem_eraseOrgs_orgs {orgIds userIds : List UUID} {o : Org} :
    o ∈ (db.eraseOrgs orgIds userIds).orgs ↔
      ∃ o₀ ∈ db.orgs, o₀.id ∉ orgIds ∧
        o = { o₀ with createdBy := o₀.createdBy.filter (· ∉ userIds) } := by
  refine OrgTables.mem_deleteOrgs_orgs.trans ?_
  rw [OrgTables.mem_deleteUsers_orgs]
  constructor
  · rintro ⟨⟨o₀, ho₀, rfl⟩, hid⟩
    exact ⟨o₀, ho₀, hid, rfl⟩
  · rintro ⟨o₀, ho₀, hid, rfl⟩
    exact ⟨⟨o₀, ho₀, rfl⟩, hid⟩

end OrgDb

end Saasmint
