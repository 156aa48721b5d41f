/-
Saasmint/Orgs/Erasure.lean

Account deletion (AccountView.delete, saasmint_core/services/gdpr.py and
`delete_orgs_created_by_user`) against ownership.

The deletion collects the organizations that the user created, while an
ownership transfer moves the OWNER role and leaves `created_by`.  So it follows
ownership exactly where the two agree on the user
(`deletion_follows_ownership_iff`); they do after every run without a transfer
(`ownersAreCreators_run`).
-/
import Saasmint.Orgs.Ownership

namespace Saasmint

variable {p : Platform}

namespace OrgDb

/-- The deletion of the customer of an account, where there is one. -/
def deleteCustomerOf (db : OrgDb p) (user : UUID) : OrgDb p :=
  match db.customerOf user with
  | none => db
  | some customer => db.deleteCustomer customer

/-- `delete_orgs_created_by_user`. -/
def deleteOrgsCreatedByUser (db : OrgDb p) (user : UUID) : OrgDb p :=
  match db.orgsCreatedBy user with
  | [] => db
  | orgIds => db.eraseOrgs orgIds (db.deletableUserIds orgIds)

/-- `AccountView.delete`: `delete_account` with its pre-delete hook. -/
def deleteAccount (db : OrgDb p) (user : UUID) : Except OrgError (OrgDb p) :=
  if db.users.any fun u => u.id = user then
    let db := (db.deleteCustomerOf user).deleteOrgsCreatedByUser user
    .ok ((db.deleteMemberships user).deleteUsers [user])
  else .error .userNotFound

end OrgDb

/-! ### The request, uninterrupted -/

/-- What a request does when nothing interrupts it, at the time `now`. -/
abbrev OrgRequest.Alone (r : OrgRequest) (now : Timestamp) :
    OrgDb p × RequestState → OrgDb p × RequestState → Prop :=
  Relation.ReflTransGen fun x y => r.step x.1 x.2 now = some y

theorem deleteOrgsCreatedByUser_alone (db : OrgDb p) (user : UUID) (now : Timestamp) :
    (OrgRequest.deleteAccount user).Alone now (db, .customerDeleted)
      (db.deleteOrgsCreatedByUser user, .orgsDeleted) := by
  unfold OrgDb.deleteOrgsCreatedByUser
  rcases ho : db.orgsCreatedBy user with - | ⟨org, rest⟩
  · refine Relation.ReflTransGen.single ?_
    simp [OrgRequest.step, OrgRequest.write, OrgRequest.read, ho]
  · have h₁ : (OrgRequest.deleteAccount user).step db .customerDeleted now
        = some (db, .orgsRead (org :: rest)) := by
      simp [OrgRequest.step, OrgRequest.write, OrgRequest.read, ho]
    refine .head (b := (db, .orgsRead (org :: rest))) h₁ ?_
    refine .head (b := (db, .usersRead (org :: rest) (db.deletableUserIds (org :: rest)))) rfl ?_
    exact .single rfl

theorem deleteCustomerOf_alone {db : OrgDb p} {user : UUID} (now : Timestamp)
    (huser : (db.users.any fun u => u.id = user) = true) :
    (OrgRequest.deleteAccount user).Alone now (db, .start)
      (db.deleteCustomerOf user, .customerDeleted) := by
  have h₁ : (OrgRequest.deleteAccount user).step db .start now
      = some (db, .accountLoaded (db.customerOf user)) := by
    simp only [OrgRequest.step, OrgRequest.write, OrgRequest.read, huser, if_true,
      Option.map_some]
  refine .head (b := (db, .accountLoaded _)) h₁ (.single ?_)
  unfold OrgDb.deleteCustomerOf
  rcases db.customerOf user with - | customer
  · rfl
  · rfl

/-- A deletion request that nothing interrupts leaves what `deleteAccount`
leaves. -/
theorem deleteAccount_alone {db db' : OrgDb p} {user : UUID} (now : Timestamp)
    (h : db.deleteAccount user = .ok db') :
    (OrgRequest.deleteAccount user).Alone now (db, .start) (db', .done) := by
  unfold OrgDb.deleteAccount at h
  split at h
  case isTrue huser =>
    cases h
    have hhook := (deleteCustomerOf_alone now huser).trans
      (deleteOrgsCreatedByUser_alone (db.deleteCustomerOf user) user now)
    refine hhook.trans (.head (b := (_, .membershipsDeleted)) rfl (.single rfl))
  case isFalse => cases h

/-- ... in any system of requests. -/
theorem run_deleteAccount {ι : Type*} [DecidableEq ι] {requests : ι → OrgRequest}
    {db db' : OrgDb p} {procs : ι → RequestState} {i : ι} {user : UUID}
    (hreq : requests i = .deleteAccount user) (hstart : procs i = .start)
    (h : db.deleteAccount user = .ok db') (now : Timestamp) :
    ∃ n, Runs.run (Interleaving.step (requestAct requests)) ⟨db, procs⟩
      (List.replicate n (i, now)) = some ⟨db', Function.update procs i .done⟩ := by
  have halone : Relation.ReflTransGen
      (fun x y : OrgDb p × RequestState => requestAct requests i x.1 x.2 now = some y)
      (db, .start) (db', .done) := by
    simpa only [requestAct, hreq] using deleteAccount_alone now h
  exact Interleaving.run_alone _ halone hstart

/-! ### Deletion and ownership -/

/-- `db'` is what the deletion of `user` should leave of `db`. -/
structure FollowsOwnership (db : OrgDb p) (user : UUID) (db' : OrgDb p) : Prop where
  /-- What the user owned is gone. -/
  deleted : ∀ m ∈ db.members, m.role = .owner → m.user = user → ∀ o ∈ db'.orgs, o.id ≠ m.org
  /-- What another user owned is left, with its other members. -/
  kept : ∀ m ∈ db.members, m.role = .owner → m.user ≠ user →
    (∃ o ∈ db'.orgs, o.id = m.org) ∧
      db'.members.filter (fun m' => m'.org = m.org)
        = db.members.filter fun m' => m'.org = m.org ∧ m'.user ≠ user
  /-- No organization is left without an owner. -/
  owners : db.OneOwner → db'.OneOwner

/-- Account deletion follows ownership. -/
def DeletionFollowsOwnership (db : OrgDb p) (user : UUID) : Prop :=
  ∀ db', db.deleteAccount user = .ok db' → FollowsOwnership db user db'

/-- The user owns the organizations that the user created, and no others. -/
def OwnsWhatTheyCreated (t : OrgTables) (user : UUID) : Prop :=
  ∀ m ∈ t.members, m.role = .owner → ∀ o ∈ t.orgs, o.id = m.org →
    (m.user = user ↔ o.createdBy = some user)

/-! ### What a deletion leaves -/

theorem OrgTables.mem_orgsCreatedBy {t : OrgTables} {user k : UUID} :
    k ∈ t.orgsCreatedBy user ↔ ∃ o ∈ t.orgs, o.createdBy = some user ∧ o.id = k := by
  simp [orgsCreatedBy, and_assoc]

namespace OrgDb

variable {db db' : OrgDb p} {user : UUID}

@[simp] theorem deleteCustomerOf_members : (db.deleteCustomerOf user).members = db.members := by
  unfold deleteCustomerOf
  split <;> rfl

@[simp] theorem deleteCustomerOf_orgs : (db.deleteCustomerOf user).orgs = db.orgs := by
  unfold deleteCustomerOf
  split <;> rfl

/-- The memberships in the collected organizations are gone, and no others. -/
theorem deleteOrgsCreatedByUser_members : (db.deleteOrgsCreatedByUser user).members
    = db.members.filter fun m => m.org ∉ db.orgsCreatedBy user := by
  unfold deleteOrgsCreatedByUser
  split
  case h_1 hnone => simp [hnone]
  case h_2 orgIds hids =>
    show List.filter _ (List.filter _ db.members) = _
    rw [List.filter_filter]
    refine List.filter_congr fun m hm => ?_
    have := OrgTables.mem_of_deletable (db.orgsCreatedBy user) hm
    by_cases horg : m.org ∈ db.orgsCreatedBy user <;> simp_all

theorem mem_deleteOrgsCreatedByUser_orgs {k : UUID} :
    (∃ o ∈ (db.deleteOrgsCreatedByUser user).orgs, o.id = k) ↔
      ∃ o ∈ db.orgs, o.id = k ∧ k ∉ db.orgsCreatedBy user := by
  unfold deleteOrgsCreatedByUser
  split
  case h_1 hnone => simp [hnone]
  case h_2 orgIds hids =>
    constructor
    · rintro ⟨o, ho, rfl⟩
      obtain ⟨o₀, ho₀, hid, rfl⟩ := (mem_eraseOrgs_orgs db).mp ho
      exact ⟨o₀, ho₀, rfl, hid⟩
    · rintro ⟨o, ho, rfl, hid⟩
      exact ⟨_, (mem_eraseOrgs_orgs db).mpr ⟨o, ho, hid, rfl⟩, rfl⟩

/-- The members after a deletion. -/
theorem deleteAccount_members (h : db.deleteAccount user = .ok db') :
    db'.members = db.members.filter fun m => m.org ∉ db.orgsCreatedBy user ∧ m.user ≠ user := by
  unfold deleteAccount at h
  split at h
  case isTrue =>
    cases h
    have hcreated : (db.deleteCustomerOf user).orgsCreatedBy user = db.orgsCreatedBy user := by
      unfold OrgTables.orgsCreatedBy
      rw [deleteCustomerOf_orgs]
    show List.filter _ (List.filter _ _) = _
    rw [deleteOrgsCreatedByUser_members, deleteCustomerOf_members, hcreated, List.filter_filter,
      List.filter_filter]
    refine List.filter_congr fun m _ => ?_
    by_cases hu : m.user = user <;> simp [hu]
  case isFalse => cases h

/-- The organizations after a deletion: those that the user did not create. -/
theorem deleteAccount_orgs (h : db.deleteAccount user = .ok db') {k : UUID} :
    (∃ o ∈ db'.orgs, o.id = k) ↔ ∃ o ∈ db.orgs, o.id = k ∧ o.createdBy ≠ some user := by
  unfold deleteAccount at h
  split at h
  case isTrue =>
    cases h
    have hlast : ∀ d : OrgDb p, (∃ o ∈ ((d.deleteMemberships user).deleteUsers [user]).orgs,
        o.id = k) ↔ ∃ o ∈ d.orgs, o.id = k := by
      intro d
      constructor
      · rintro ⟨o, ho, rfl⟩
        obtain ⟨o₀, ho₀, rfl⟩ := OrgTables.mem_deleteUsers_orgs.mp ho
        exact ⟨o₀, ho₀, rfl⟩
      · rintro ⟨o, ho, rfl⟩
        exact ⟨_, OrgTables.mem_deleteUsers_orgs.mpr ⟨o, ho, rfl⟩, rfl⟩
    rw [hlast, mem_deleteOrgsCreatedByUser_orgs]
    simp only [OrgTables.mem_orgsCreatedBy, deleteCustomerOf_orgs]
    refine exists_congr fun o => and_congr_right fun ho => and_congr_right fun hid => ?_
    subst hid
    constructor
    · exact fun hnot hcreated => hnot ⟨o, ho, hcreated, rfl⟩
    · rintro hne ⟨o', ho', hcreated, hid⟩
      obtain rfl := db.constraints.org_pk.inj ho' ho (congrArg some hid) rfl
      exact hne hcreated
  case isFalse => cases h

/-- An organization of a member is collected when the user created it. -/
theorem org_mem_orgsCreatedBy {o : Org} (ho : o ∈ db.orgs) :
    o.id ∈ db.orgsCreatedBy user ↔ o.createdBy = some user := by
  rw [OrgTables.mem_orgsCreatedBy]
  constructor
  · rintro ⟨o', ho', hcreated, hid⟩
    obtain rfl := db.constraints.org_pk.inj ho' ho (congrArg some hid) rfl
    exact hcreated
  · exact fun hcreated => ⟨o, ho, hcreated, rfl⟩

variable (db user) in
theorem deleteAccount_isSome_iff :
    (∃ db', db.deleteAccount user = .ok db') ↔ ∃ u ∈ db.users, u.id = user := by
  unfold deleteAccount
  split
  case isTrue h =>
    have : ∃ u ∈ db.users, u.id = user := by simpa using h
    simp [this]
  case isFalse h =>
    have : ¬ ∃ u ∈ db.users, u.id = user := by simpa using h
    simp [this]

end OrgDb

/-- Where ownership and creation agree on the user, the deletion follows
ownership. -/
theorem followsOwnership_of_owns {db db' : OrgDb p} {user : UUID}
    (hown : OwnsWhatTheyCreated db.toOrgTables user) (h : db.deleteAccount user = .ok db') :
    FollowsOwnership db user db' := by
  have hkept : ∀ m ∈ db.members, m.role = .owner → m.user ≠ user →
      ∃ o ∈ db.orgs, o.id = m.org ∧ o.createdBy ≠ some user := by
    intro m hm hr hne
    obtain ⟨o, ho, hid⟩ := db.constraints.member_org m hm
    exact ⟨o, ho, hid, fun hcreated => hne ((hown m hm hr o ho hid).mpr hcreated)⟩
  have hdeleted : ∀ m ∈ db.members, m.role = .owner → m.user = user →
      ¬ ∃ o ∈ db'.orgs, o.id = m.org := by
    intro m hm hr huser hleft
    obtain ⟨o, ho, hid, hne⟩ := (OrgDb.deleteAccount_orgs h).mp hleft
    exact hne ((hown m hm hr o ho hid).mp huser)
  refine ⟨fun m hm hr huser o ho hid => hdeleted m hm hr huser ⟨o, ho, hid⟩,
    fun m hm hr hne => ?_, fun hone => ?_⟩
  · obtain ⟨o, ho, hid, hcreated⟩ := hkept m hm hr hne
    refine ⟨(OrgDb.deleteAccount_orgs h).mpr ⟨o, ho, hid, hcreated⟩, ?_⟩
    have hnot : m.org ∉ db.orgsCreatedBy user := by
      rwa [← hid, OrgDb.org_mem_orgsCreatedBy ho]
    rw [OrgDb.deleteAccount_members h, List.filter_filter]
    refine List.filter_congr fun m' _ => ?_
    by_cases horg : m'.org = m.org <;> simp [horg, hnot]
  · rw [OrgTables.oneOwner_delete_iff hone
      (fun m => m.org ∉ db.orgsCreatedBy user ∧ m.user ≠ user)
      (fun m => by rw [OrgDb.deleteAccount_members h]; simp)]
    · intro m hm hr hleft
      have hne : m.user ≠ user := fun huser => hdeleted m hm hr huser hleft
      obtain ⟨o, ho, hid, hcreated⟩ := hkept m hm hr hne
      exact ⟨by rwa [← hid, OrgDb.org_mem_orgsCreatedBy ho], hne⟩
    · intro o ho
      obtain ⟨o₀, ho₀, hid, -⟩ := (OrgDb.deleteAccount_orgs h).mp ⟨o, ho, rfl⟩
      exact ⟨o₀, ho₀, hid⟩

/-- In every state of the database, the deletion of a user deletes what the
user owns and leaves what others own, exactly when the organizations that the
user owns are those that the user created. -/
theorem deletionFollowsOwnership_iff (db : OrgDb p) (user : UUID) :
    DeletionFollowsOwnership db user ↔ OwnsWhatTheyCreated db.toOrgTables user := by
  constructor
  · intro hfollows m hm hr o ho hid
    -- a user without an account neither owns nor created anything
    by_cases huser : ∃ u ∈ db.users, u.id = user
    · obtain ⟨db', h⟩ := (OrgDb.deleteAccount_isSome_iff _ _).mpr huser
      have hf := hfollows db' h
      constructor
      · intro hmu
        by_contra hcreated
        obtain ⟨o', ho', hid'⟩ :=
          (OrgDb.deleteAccount_orgs h).mpr ⟨o, ho, hid, hcreated⟩
        exact hf.deleted m hm hr hmu o' ho' hid'
      · intro hcreated
        by_contra hne
        obtain ⟨⟨o', ho', hid'⟩, -⟩ := hf.kept m hm hr hne
        obtain ⟨o₀, ho₀, hid₀, hne₀⟩ := (OrgDb.deleteAccount_orgs h).mp ⟨o', ho', hid'⟩
        obtain rfl := db.constraints.org_pk.inj ho₀ ho (congrArg some (hid₀.trans hid.symm)) rfl
        exact hne₀ hcreated
    · refine iff_of_false (fun hmu => huser ?_) fun hcreated => huser ?_
      · exact hmu ▸ db.constraints.member_user m hm
      · exact db.constraints.created_by o ho user hcreated
  · exact fun hown db' h => followsOwnership_of_owns hown h

/-! ### Histories -/

/-- Every owner created what they own. -/
def OwnersAreCreators (t : OrgTables) : Prop :=
  ∀ m ∈ t.members, m.role = .owner → ∀ o ∈ t.orgs, o.id = m.org → o.createdBy = some m.user

theorem ownersAreCreators_iff {t : OrgTables} :
    OwnersAreCreators t ↔ ∀ user, OwnsWhatTheyCreated t user := by
  constructor
  · intro h user m hm hr o ho hid
    rw [h m hm hr o ho hid, Option.some_inj]
  · exact fun h m hm hr o ho hid => (h m.user m hm hr o ho hid).mp rfl

/-- A transfer that goes through hands an organization to its creator. -/
def KeepsCreator (db : OrgDb p) : OrgRequest → RequestState → Prop
  | .transferOwnership _ _ _, .readTarget caller target =>
    db.CanTransfer caller.id target.id → caller.id ≠ target.id →
      ∀ m ∈ db.members, m.id = target.id → ∀ o ∈ db.orgs, o.id = m.org → o.createdBy = some m.user
  | _, _ => True

theorem keepsCreator_of_read {r : OrgRequest} {db : OrgDb p} {κ : RequestState}
    (h : r.write db κ = none) : KeepsCreator db r κ := by
  unfold KeepsCreator
  split <;> trivial

/-- Rows that stay OWNER rows, of organizations that keep their creator. -/
theorem OwnersAreCreators.of_rows {t t' : OrgTables} (h : OwnersAreCreators t)
    (hrows : ∀ m' ∈ t'.members, m'.role = .owner → ∀ o' ∈ t'.orgs, o'.id = m'.org →
      ∃ m ∈ t.members, m.role = .owner ∧ m.user = m'.user ∧ ∃ o ∈ t.orgs, o.id = m.org ∧
        (o.createdBy = some m'.user → o'.createdBy = some m'.user)) : OwnersAreCreators t' := by
  intro m' hm' hr' o' ho' hid'
  obtain ⟨m, hm, hr, huser, o, ho, hid, hcreated⟩ := hrows m' hm' hr' o' ho' hid'
  exact hcreated (huser ▸ h m hm hr o ho hid)

/-- An update that makes no row an OWNER row. -/
theorem OwnersAreCreators.updateMember {t : OrgTables} (h : OwnersAreCreators t) {id : UUID}
    {f : MemberFields} (hf : f.role ≠ some .owner) : OwnersAreCreators (t.updateMember id f) := by
  refine h.of_rows fun m' hm' hr' o ho hid => ?_
  rcases Table.mem_update.mp hm' with ⟨hm, -⟩ | ⟨m, hm, -, rfl⟩
  · exact ⟨m', hm, hr', rfl, o, ho, hid, fun h => h⟩
  · refine ⟨m, hm, ?_, rfl, o, ho, hid, fun h => h⟩
    rcases hrole : f.role with - | role
    · simpa [MemberFields.apply, hrole] using hr'
    · obtain rfl : role = .owner := by simpa [MemberFields.apply, hrole] using hr'
      exact absurd hrole hf

/-- Deleting users keeps the creators of the organizations whose owners are
left. -/
theorem OwnersAreCreators.deleteUsers {t : OrgTables} (h : OwnersAreCreators t)
    (ids : List UUID) : OwnersAreCreators (t.deleteUsers ids) := by
  refine h.of_rows fun m hm hr o ho hid => ?_
  obtain ⟨hm, huser⟩ := OrgTables.mem_deleteUsers.mp hm
  obtain ⟨o₀, ho₀, rfl⟩ := OrgTables.mem_deleteUsers_orgs.mp ho
  refine ⟨m, hm, hr, rfl, o₀, ho₀, hid, fun hcreated => ?_⟩
  show o₀.createdBy.filter _ = _
  rw [hcreated]
  exact Option.filter_some_pos (by simpa using huser)

/-- A transfer keeps every owner a creator exactly when it hands the
organization to its creator. -/
theorem ownersAreCreators_transfer_iff {db db' : OrgDb p}
    (h : OwnersAreCreators db.toOrgTables) {callerId targetId : UUID}
    (hok : db.transferOwnership callerId targetId = .ok db') :
    OwnersAreCreators db'.toOrgTables ↔
      (callerId ≠ targetId → ∀ m ∈ db.members, m.id = targetId →
        ∀ o ∈ db.orgs, o.id = m.org → o.createdBy = some m.user) := by
  obtain ⟨db₁, h₁, h₂⟩ := OrgDb.transferOwnership_eq_ok.mp hok
  have hdb₁ := (OrgDb.saveMember_eq_ok.mp h₁).2
  have hdb' := (OrgDb.saveMember_eq_ok.mp h₂).2
  rw [hdb', hdb₁]
  constructor
  · intro h' hne m hm hid o ho horg
    -- the promoted row is an OWNER row in the end
    refine h' (MemberFields.apply { role := some .owner, isBilling := some true } m)
      (Table.mem_update.mpr (Or.inl ⟨Table.mem_update.mpr (Or.inr ⟨m, hm, hid, rfl⟩), ?_⟩))
      rfl o ho horg
    exact fun e => hne (e.symm.trans hid)
  · intro hcreator m' hm' hr' o ho horg
    rcases Table.mem_update.mp hm' with ⟨hm', hne⟩ | ⟨m₀, -, -, rfl⟩
    · rcases Table.mem_update.mp hm' with ⟨hm, -⟩ | ⟨m, hm, hid, rfl⟩
      · exact h m' hm hr' o ho horg
      · exact hcreator (fun e => hne (hid.trans e.symm)) m hm hid o ho horg
    · cases hr'

/-- **One write.**  A write keeps every owner a creator exactly when it meets
`KeepsCreator`. -/
theorem ownersAreCreators_write_iff {r : OrgRequest} {db db' : OrgDb p} {κ κ' : RequestState}
    (h : OwnersAreCreators db.toOrgTables) (hw : r.write db κ = some (.ok db', κ')) :
    OwnersAreCreators db'.toOrgTables ↔ KeepsCreator db r κ := by
  unfold OrgRequest.write at hw
  split at hw
  · -- `teamCheckout`
    obtain ⟨hok, -⟩ := Prod.mk.inj (Option.some.inj hw)
    refine iff_of_true ?_ trivial
    rw [OrgDb.createOrgWithOwner_ok hok]
    intro m hm hr o ho hid
    rcases List.mem_append.mp hm with hm | hm <;> rcases List.mem_append.mp ho with ho | ho
    · exact h m hm hr o ho hid
    · -- no row is of the new organization yet
      rw [List.mem_singleton.mp ho] at hid
      obtain ⟨o₀, ho₀, hid₀⟩ := db.constraints.member_org m hm
      exact absurd (hid₀.trans hid.symm) (db.constraints.new_org o₀ ho₀).ne
    · rw [List.mem_singleton.mp hm] at hid
      exact absurd hid (db.constraints.new_org o ho).ne
    · rw [List.mem_singleton.mp hm, List.mem_singleton.mp ho]
  · -- `patchMember`
    rename_i role isBilling caller target
    obtain ⟨hok, -⟩ := Prod.mk.inj (Option.some.inj hw)
    refine iff_of_true ?_ trivial
    rw [(OrgDb.saveMember_eq_ok.mp hok).2]
    refine h.updateMember ?_
    rcases role with - | role
    · simp
    · simp
  · -- `deleteMember`
    cases hw
    exact iff_of_true (h.deleteUsers _) trivial
  · -- `transferOwnership`
    obtain ⟨hok, -⟩ := Prod.mk.inj (Option.some.inj hw)
    have hcan := OrgDb.transferOwnership_ok_iff.mp ⟨_, hok⟩
    rw [ownersAreCreators_transfer_iff h hok]
    exact ⟨fun h _ => h, fun h => h hcan⟩
  · -- an invitation expires
    obtain ⟨hok, -⟩ := Prod.mk.inj (Option.some.inj hw)
    refine iff_of_true ?_ trivial
    rw [(OrgDb.saveInvitation_eq_ok.mp hok).2]
    exact h
  · -- `acceptInvitation`
    rename_i inv
    obtain ⟨hok, -⟩ := Prod.mk.inj (Option.some.inj hw)
    refine iff_of_true ?_ trivial
    rw [(OrgDb.acceptInvitation_eq_ok.mp hok).2.2]
    intro m hm hr o ho hid
    rcases List.mem_append.mp hm with hm | hm
    · exact h m hm hr o ho hid
    · rw [List.mem_singleton.mp hm] at hr
      exact absurd hr inv.role.toRole_ne_owner
  · -- the customer is deleted
    cases hw
    exact iff_of_true h trivial
  · -- organizations and users are deleted
    rename_i orgIds userIds
    cases hw
    refine iff_of_true ?_ trivial
    have hdel := OwnersAreCreators.deleteUsers
      (show OwnersAreCreators (db.toOrgTables.cancelInvitations orgIds) from h) userIds
    refine hdel.of_rows fun m hm hr o ho hid => ?_
    obtain ⟨hm, -⟩ := OrgTables.mem_deleteOrgs.mp hm
    obtain ⟨ho, -⟩ := OrgTables.mem_deleteOrgs_orgs.mp ho
    exact ⟨m, hm, hr, rfl, o, ho, hid, fun h => h⟩
  · -- memberships are deleted
    cases hw
    refine iff_of_true ?_ trivial
    exact h.of_rows fun m hm hr o ho hid =>
      ⟨m, (OrgTables.mem_deleteMemberships.mp hm).1, hr, rfl, o, ho, hid, fun h => h⟩
  · -- the user is deleted
    cases hw
    exact iff_of_true (h.deleteUsers _) trivial
  · cases hw

theorem keepsCreator_of_error {r : OrgRequest} {db : OrgDb p} {κ κ' : RequestState} {e : OrgError}
    (hw : r.write db κ = some (.error e, κ')) : KeepsCreator db r κ := by
  unfold KeepsCreator
  split
  · obtain ⟨herr, -⟩ := Prod.mk.inj (Option.some.inj hw)
    intro hcan
    obtain ⟨db', hok⟩ := OrgDb.transferOwnership_ok_iff.mpr hcan
    exact absurd (herr.symm.trans hok) (by simp)
  · trivial

section Histories

variable {ι : Type*} [DecidableEq ι] {requests : ι → OrgRequest}

/-- The write of a step, if it is one, meets `KeepsCreator`. -/
def StepKeepsCreator (requests : ι → OrgRequest) (s : OrgSystem ι p) (l : ι × Timestamp) :
    Prop :=
  KeepsCreator s.shared (requests l.1) (s.procs l.1)

theorem ownersAreCreators_step (s : OrgSystem ι p) (l : ι × Timestamp) (s' : OrgSystem ι p)
    (hP : OwnersAreCreators s.shared.toOrgTables)
    (h : Interleaving.step (requestAct requests) s l = some s') :
    OwnersAreCreators s'.shared.toOrgTables ↔ StepKeepsCreator requests s l := by
  obtain ⟨i, now⟩ := l
  obtain ⟨db', κ', hact, rfl⟩ := Interleaving.step_eq_some h
  rcases requestAct_cases hact with ⟨rfl, hw, -⟩ | ⟨e, κ₁, rfl, hw, -⟩ | hw
  · exact iff_of_true hP (keepsCreator_of_read hw)
  · exact iff_of_true hP (keepsCreator_of_error hw)
  · exact ownersAreCreators_write_iff hP hw

/-- **Account deletion and ownership.**  Over any history of requests, the
deletion of any account would follow ownership at every point exactly when
each transfer that goes through hands the organization to its creator; and at
each point, for each user, exactly when the user then owns what the user
created. -/
theorem deletion_follows_ownership_run_iff {db : OrgDb p}
    (h : OwnersAreCreators db.toOrgTables) (ls : List (ι × Timestamp)) :
    (Runs.Always (Interleaving.step (requestAct requests))
        (fun s => ∀ user, DeletionFollowsOwnership s.shared user) (requestInit ι db) ls ↔
      Runs.EachStep (Interleaving.step (requestAct requests)) (StepKeepsCreator requests)
        (requestInit ι db) ls) ∧
    Runs.Always (Interleaving.step (requestAct requests))
      (fun s => ∀ user, DeletionFollowsOwnership s.shared user ↔
        OwnsWhatTheyCreated s.shared.toOrgTables user) (requestInit ι db) ls := by
  constructor
  · have hiff : ∀ s : OrgSystem ι p, (∀ user, DeletionFollowsOwnership s.shared user) ↔
        OwnersAreCreators s.shared.toOrgTables := fun s => by
      rw [ownersAreCreators_iff]
      exact forall_congr' fun user => deletionFollowsOwnership_iff s.shared user
    simp only [hiff]
    exact Runs.always_iff_eachStep (I := fun _ => True) (fun _ _ _ _ _ => trivial)
      (fun s l s' _ hP hs => ownersAreCreators_step s l s' hP hs) trivial h
  · exact Runs.always_of_invariant
      (I := fun s : OrgSystem ι p => ∀ user, DeletionFollowsOwnership s.shared user ↔
        OwnsWhatTheyCreated s.shared.toOrgTables user)
      (fun _ _ s' _ _ user => deletionFollowsOwnership_iff s'.shared user)
      (fun user => deletionFollowsOwnership_iff db user) ls

end Histories

/-! ### A transfer and then a deletion -/

theorem deletion_follows_ownership_run_iff_team :
    (Runs.Always (Interleaving.step (requestAct teamRequests))
        (fun s => ∀ user, DeletionFollowsOwnership s.shared user)
        (requestInit (Fin 4) teamDb) [(0, 0), (0, 0), (0, 0)] ↔
      Runs.EachStep (Interleaving.step (requestAct teamRequests))
        (StepKeepsCreator teamRequests) (requestInit (Fin 4) teamDb) [(0, 0), (0, 0), (0, 0)]) ∧
    Runs.Always (Interleaving.step (requestAct teamRequests))
      (fun s => ∀ user, DeletionFollowsOwnership s.shared user ↔
        OwnsWhatTheyCreated s.shared.toOrgTables user)
      (requestInit (Fin 4) teamDb) [(0, 0), (0, 0), (0, 0)] :=
  deletion_follows_ownership_run_iff (by unfold OwnersAreCreators; decide) _

/-- The team after its owner has transferred it to the first admin. -/
def transferredDb : OrgDb wordPlatform :=
  ⟨{ teamTables with
      members := [⟨5, 4, 1, .admin, false⟩, ⟨6, 4, 2, .owner, true⟩, ⟨7, 4, 3, .admin, false⟩] },
    by decide⟩

/-- After the transfer, the deletion of the former owner destroys the
organization of the new one, with every account in it; the deletion of the new
owner leaves it without an owner. -/
theorem deletion_after_transfer :
    ((teamRun [(2, 0), (2, 0), (2, 0)]).map fun s => s.shared.toOrgTables)
      = some transferredDb.toOrgTables ∧
    ((transferredDb.deleteAccount 1).toOption.map fun db =>
        (db.orgs, db.members, db.users)) = some ([], [], []) ∧
    ((transferredDb.deleteAccount 2).toOption.map fun db =>
        (db.orgs.map Org.id, db.members.map fun m => (m.user, m.role)))
      = some ([4], [(1, .admin), (3, .admin)]) ∧
    ¬ DeletionFollowsOwnership transferredDb 1 ∧ ¬ DeletionFollowsOwnership transferredDb 2 := by
  refine ⟨by decide, by decide, by decide, fun h => ?_, fun h => ?_⟩
  · obtain ⟨db', hok⟩ := OrgDb.deleteAccount_isSome_iff transferredDb 1
      |>.mpr ⟨⟨1, "ann@acme.io"⟩, by decide, rfl⟩
    obtain ⟨⟨o, ho, -⟩, -⟩ :=
      (h db' hok).kept ⟨6, 4, 2, .owner, true⟩ (by decide) rfl (by decide)
    obtain ⟨o₀, ho₀, -, hne⟩ := (OrgDb.deleteAccount_orgs hok).mp ⟨o, ho, rfl⟩
    exact hne ((by decide : ∀ o ∈ transferredDb.orgs, o.createdBy = some 1) o₀ ho₀)
  · obtain ⟨db', hok⟩ := OrgDb.deleteAccount_isSome_iff transferredDb 2
      |>.mpr ⟨⟨2, "bob@acme.io"⟩, by decide, rfl⟩
    obtain ⟨o, ho, hid⟩ := (OrgDb.deleteAccount_orgs hok).mpr
      ⟨⟨4, "Acme", "acme", some 1⟩, by decide, rfl, by decide⟩
    exact (h db' hok).deleted ⟨6, 4, 2, .owner, true⟩ (by decide) rfl rfl o ho hid

end Saasmint
