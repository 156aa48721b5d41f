/-
Saasmint/Orgs/Ownership.lean

One owner for each organization, over any interleaving of the requests that
change memberships.

The set of the keys of an organization's OWNER rows (`ownersOf`) is what the
writes act on: a deletion and a demotion take keys out of it, a transfer puts
the target in and takes the caller out.  A set with one element stays one under
these in exactly the cases that `KeepsOwner` lists, so a run keeps one owner
for each organization exactly when each of its writes meets it
(`one_owner_iff`).
-/
import Mathlib.Order.BooleanAlgebra.Set
import Saasmint.Orgs.Requests

namespace Saasmint

variable {p : Platform}

/-! ### Owners -/

namespace OrgTables

/-- `m` is an OWNER row of `org`. -/
def IsOwner (t : OrgTables) (m : OrgMember) (org : UUID) : Prop :=
  m ∈ t.members ∧ m.org = org ∧ m.role = .owner

/-- Every organization has exactly one owner, who has billing authority. -/
def OneOwner (t : OrgTables) : Prop :=
  ∀ o ∈ t.orgs, ∃ m, t.IsOwner m o.id ∧ m.isBilling = true ∧ ∀ m', t.IsOwner m' o.id → m' = m

instance (t : OrgTables) : Decidable t.OneOwner :=
  decidable_of_iff
    (∀ o ∈ t.orgs, ∃ m ∈ t.members, (m.org = o.id ∧ m.role = .owner) ∧ m.isBilling = true ∧
      ∀ m' ∈ t.members, m'.org = o.id → m'.role = .owner → m' = m)
    (forall₂_congr fun _ _ => exists_congr fun _ =>
      ⟨fun ⟨hm, hr, hb, h⟩ => ⟨⟨hm, hr⟩, hb, fun m' hm' => h m' hm'.1 hm'.2.1 hm'.2.2⟩,
       fun ⟨⟨hm, hr⟩, hb, h⟩ => ⟨hm, hr, hb, fun m' hm' ho hr' => h m' ⟨hm', ho, hr'⟩⟩⟩)

/-- The row `id` exists and is an OWNER row. -/
def OwnsNow (t : OrgTables) (id : UUID) : Prop := ∃ m ∈ t.members, m.id = id ∧ m.role = .owner

/-- The user owns no organization. -/
def OwnsNothing (t : OrgTables) (user : UUID) : Prop :=
  ∀ m ∈ t.members, m.user = user → m.role ≠ .owner

/-- The rows of a transfer exist, and the target's user owns nothing but, at
most, through the target's row. -/
def CanTransfer (t : OrgTables) (callerId targetId : UUID) : Prop :=
  (∃ c ∈ t.members, c.id = callerId) ∧
    ∃ m ∈ t.members, m.id = targetId ∧
      ∀ m' ∈ t.members, m'.role = .owner → m'.user = m.user → m'.id = targetId

/-- The keys of the OWNER rows of an organization. -/
def ownersOf (t : OrgTables) (org : UUID) : Set UUID :=
  {k | ∃ m, t.IsOwner m org ∧ m.id = k}

variable {t t' : OrgTables} {org id : UUID}

theorem mem_ownersOf {m : OrgMember} (h : t.Constraints p) (hm : m ∈ t.members) :
    m.id ∈ t.ownersOf org ↔ m.org = org ∧ m.role = .owner := by
  constructor
  · rintro ⟨m', ⟨hm', horg, hrole⟩, hid⟩
    obtain rfl := h.member_pk.inj hm' hm (congrArg some hid) rfl
    exact ⟨horg, hrole⟩
  · rintro ⟨horg, hrole⟩
    exact ⟨m, ⟨hm, horg, hrole⟩, rfl⟩

/-- One owner is one key: who is an owner has billing authority. -/
theorem oneOwner_iff (h : t.Constraints p) :
    t.OneOwner ↔ ∀ o ∈ t.orgs, ∃ k, t.ownersOf o.id = {k} := by
  refine forall₂_congr fun o _ => ?_
  constructor
  · rintro ⟨m, hm, -, huniq⟩
    refine ⟨m.id, Set.eq_singleton_iff_unique_mem.mpr ⟨⟨m, hm, rfl⟩, ?_⟩⟩
    rintro k ⟨m', hm', rfl⟩
    rw [huniq m' hm']
  · rintro ⟨k, hk⟩
    obtain ⟨⟨m, hm, rfl⟩, huniq⟩ := Set.eq_singleton_iff_unique_mem.mp hk
    refine ⟨m, hm, h.ck_org_owner_must_be_billing m hm.1 hm.2.2, fun m' hm' => ?_⟩
    exact h.member_pk.inj hm'.1 hm.1 (congrArg some (huniq _ ⟨m', hm', rfl⟩)) rfl

/-! ### Owners after a write -/

/-- Deleting rows leaves one owner for each organization exactly when no owner
of an organization that is left is deleted. -/
theorem oneOwner_delete_iff (h : t.OneOwner) (keep : OrgMember → Prop)
    (hm : ∀ m, m ∈ t'.members ↔ m ∈ t.members ∧ keep m)
    (ho : ∀ o ∈ t'.orgs, ∃ o₀ ∈ t.orgs, o₀.id = o.id) :
    t'.OneOwner ↔
      ∀ m ∈ t.members, m.role = .owner → (∃ o ∈ t'.orgs, o.id = m.org) → keep m := by
  constructor
  · rintro h' m hmem hrole ⟨o, ho', horg⟩
    obtain ⟨m', ⟨hm', horg', hrole'⟩, -⟩ := h' o ho'
    obtain ⟨hm₀, hkeep⟩ := (hm m').mp hm'
    obtain ⟨o₀, ho₀, hid⟩ := ho o ho'
    obtain ⟨w, -, -, huniq⟩ := h o₀ ho₀
    have e : m = m' := (huniq m ⟨hmem, (hid.trans horg).symm, hrole⟩).trans
      (huniq m' ⟨hm₀, horg'.trans hid.symm, hrole'⟩).symm
    exact e ▸ hkeep
  · intro hkeep o ho'
    obtain ⟨o₀, ho₀, hid⟩ := ho o ho'
    obtain ⟨m, ⟨hmem, horg, hrole⟩, hbill, huniq⟩ := h o₀ ho₀
    have hkm := hkeep m hmem hrole ⟨o, ho', (horg.trans hid).symm⟩
    refine ⟨m, ⟨(hm m).mpr ⟨hmem, hkm⟩, horg.trans hid, hrole⟩, hbill, ?_⟩
    rintro m' ⟨hm', horg', hrole'⟩
    exact huniq m' ⟨((hm m').mp hm').1, horg'.trans hid.symm, hrole'⟩

/-- The same where every organization is left. -/
theorem oneOwner_deleteMembers_iff (h : t.OneOwner) (hc : t.Constraints p)
    (keep : OrgMember → Prop) (hm : ∀ m, m ∈ t'.members ↔ m ∈ t.members ∧ keep m)
    (ho : t'.orgs.map Org.id = t.orgs.map Org.id) :
    t'.OneOwner ↔ ∀ m ∈ t.members, m.role = .owner → keep m := by
  have hids : ∀ id, (∃ o ∈ t'.orgs, o.id = id) ↔ ∃ o ∈ t.orgs, o.id = id := fun id => by
    rw [← List.mem_map, ← List.mem_map, ho]
  rw [oneOwner_delete_iff h keep hm fun o ho => (hids o.id).mp ⟨o, ho, rfl⟩]
  constructor
  · exact fun hkeep m hmem hr => hkeep m hmem hr ((hids m.org).mpr (hc.member_org m hmem))
  · exact fun hkeep m hmem hr _ => hkeep m hmem hr

/-- Adding rows that are no OWNER rows leaves the owners. -/
theorem OneOwner.append (h : t.OneOwner) {m : OrgMember} (hrole : m.role ≠ .owner)
    (hm : t'.members = t.members ++ [m]) (ho : t'.orgs = t.orgs) : t'.OneOwner := by
  have hiff : ∀ m' org, t'.IsOwner m' org ↔ t.IsOwner m' org := by
    intro m' org
    simp only [IsOwner, hm, List.mem_append, List.mem_singleton]
    constructor
    · rintro ⟨hm' | rfl, horg, hr⟩
      · exact ⟨hm', horg, hr⟩
      · exact absurd hr hrole
    · rintro ⟨hm', horg, hr⟩
      exact ⟨Or.inl hm', horg, hr⟩
  simpa only [OneOwner, hiff, ho] using h

/-- A new organization has its creator as the owner. -/
theorem OneOwner.insertOrg (hc : t.Constraints p) (h : t.OneOwner)
    (user : UUID) (name slug stripeCustomerId : String) :
    (t.insertOrg user name slug stripeCustomerId).OneOwner := by
  have hold : ∀ m ∈ t.members, m.org ≠ t.nextKey := by
    intro m hm horg
    obtain ⟨o, ho, hid⟩ := hc.member_org m hm
    exact (hc.new_org o ho).ne (hid.trans horg)
  intro o ho
  rcases List.mem_append.mp ho with ho | ho
  · obtain ⟨m, ⟨hm, horg, hrole⟩, hbill, huniq⟩ := h o ho
    refine ⟨m, ⟨List.mem_append_left _ hm, horg, hrole⟩, hbill, ?_⟩
    rintro m' ⟨hm', horg', hrole'⟩
    rcases List.mem_append.mp hm' with hm' | hm'
    · exact huniq m' ⟨hm', horg', hrole'⟩
    · -- the new row is of the new organization
      rw [List.mem_singleton.mp hm'] at horg'
      exact absurd horg'.symm (hc.new_org o ho).ne
  · rw [List.mem_singleton.mp ho]
    refine ⟨_, ⟨List.mem_append_right _ (List.mem_singleton.mpr rfl), rfl, rfl⟩, rfl, ?_⟩
    rintro m' ⟨hm', horg', -⟩
    rcases List.mem_append.mp hm' with hm' | hm'
    · exact absurd horg' (hold m' hm')
    · exact List.mem_singleton.mp hm'

variable (t id) in
/-- A row that gets another role than OWNER leaves the owners. -/
theorem ownersOf_demote {f : MemberFields} {role : OrgRole} (hf : f.role = some role)
    (hrole : role ≠ .owner) (org : UUID) :
    (t.updateMember id f).ownersOf org = t.ownersOf org \ {id} := by
  ext k
  constructor
  · rintro ⟨m, ⟨hm, horg, hr⟩, rfl⟩
    rcases Table.mem_update.mp hm with ⟨hm, hne⟩ | ⟨m₀, -, -, rfl⟩
    · exact ⟨⟨m, ⟨hm, horg, hr⟩, rfl⟩, hne⟩
    · simp only [MemberFields.apply, hf, Option.getD_some] at hr
      exact absurd hr hrole
  · rintro ⟨⟨m, ⟨hm, horg, hr⟩, rfl⟩, hne⟩
    exact ⟨m, ⟨Table.mem_update.mpr (Or.inl ⟨hm, hne⟩), horg, hr⟩, rfl⟩

/-- A row that gets the role OWNER joins the owners of its organization. -/
theorem ownersOf_promote (h : t.Constraints p) {f : MemberFields} (hf : f.role = some .owner)
    {m : OrgMember} (hm : m ∈ t.members) (org : UUID) :
    (t.updateMember m.id f).ownersOf org =
      {k | k ∈ t.ownersOf org ∨ k = m.id ∧ m.org = org} := by
  have hkey : ∀ m' ∈ t.members, m'.id = m.id → m' = m := fun m' hm' hid =>
    h.member_pk.inj hm' hm (congrArg some hid) rfl
  ext k
  constructor
  · rintro ⟨m', ⟨hm', horg, hr⟩, rfl⟩
    rcases Table.mem_update.mp hm' with ⟨hm', -⟩ | ⟨m₀, hm₀, hid, rfl⟩
    · exact Or.inl ⟨m', ⟨hm', horg, hr⟩, rfl⟩
    · obtain rfl := hkey m₀ hm₀ hid
      exact Or.inr ⟨rfl, horg⟩
  · rintro (⟨m', ⟨hm', horg, hr⟩, rfl⟩ | ⟨rfl, horg⟩)
    · by_cases hid : m'.id = m.id
      · refine ⟨f.apply m', ⟨Table.mem_update.mpr (Or.inr ⟨m', hm', hid, rfl⟩), horg, ?_⟩, rfl⟩
        simp [MemberFields.apply, hf]
      · exact ⟨m', ⟨Table.mem_update.mpr (Or.inl ⟨hm', hid⟩), horg, hr⟩, rfl⟩
    · refine ⟨f.apply m, ⟨Table.mem_update.mpr (Or.inr ⟨m, hm, rfl, rfl⟩), horg, ?_⟩, rfl⟩
      simp [MemberFields.apply, hf]

/-- A row that keeps its role leaves the owners as they are. -/
theorem ownersOf_keep {f : MemberFields} (hf : f.role = none) (org : UUID) :
    (t.updateMember id f).ownersOf org = t.ownersOf org := by
  ext k
  constructor
  · rintro ⟨m, ⟨hm, horg, hr⟩, rfl⟩
    rcases Table.mem_update.mp hm with ⟨hm, -⟩ | ⟨m₀, hm₀, -, rfl⟩
    · exact ⟨m, ⟨hm, horg, hr⟩, rfl⟩
    · exact ⟨m₀, ⟨hm₀, horg, by simpa [MemberFields.apply, hf] using hr⟩, rfl⟩
  · rintro ⟨m, ⟨hm, horg, hr⟩, rfl⟩
    by_cases hid : m.id = id
    · refine ⟨f.apply m, ⟨Table.mem_update.mpr (Or.inr ⟨m, hm, hid, rfl⟩), horg, ?_⟩, rfl⟩
      simpa [MemberFields.apply, hf] using hr
    · exact ⟨m, ⟨Table.mem_update.mpr (Or.inl ⟨hm, hid⟩), horg, hr⟩, rfl⟩

/-! ### Which role changes the database takes -/

/-- A change of role or billing authority can only run into the constraints on
owners. -/
theorem updateMember_constraints (h : t.Constraints p) {f : MemberFields}
    (huniq : Table.Unique OrgMember.ownedBy (t.updateMember id f).members)
    (hck : ∀ m ∈ (t.updateMember id f).members, m.role = .owner → m.isBilling = true) :
    (t.updateMember id f).Constraints p := by
  have hkeep : ∀ m : OrgMember, (if m.id = id then f.apply m else m).id = m.id ∧
      (if m.id = id then f.apply m else m).org = m.org ∧
      (if m.id = id then f.apply m else m).user = m.user := by
    intro m
    split <;> exact ⟨rfl, rfl, rfl⟩
  exact
    { h with
      member_pk := h.member_pk.map fun m => Or.inl (congrArg some (hkeep m).1)
      org_members_org_user_uniq := h.org_members_org_user_uniq.map fun m =>
        Or.inl (by rw [(hkeep m).2.1, (hkeep m).2.2])
      uniq_org_owner_per_user := huniq
      ck_org_owner_must_be_billing := hck
      member_org := by
        intro m hm
        obtain ⟨m₀, hm₀, rfl⟩ := List.mem_map.mp hm
        exact (hkeep m₀).2.1 ▸ h.member_org m₀ hm₀
      member_user := by
        intro m hm
        obtain ⟨m₀, hm₀, rfl⟩ := List.mem_map.mp hm
        exact (hkeep m₀).2.2 ▸ h.member_user m₀ hm₀
      new_member := by
        intro m hm
        obtain ⟨m₀, hm₀, rfl⟩ := List.mem_map.mp hm
        exact (hkeep m₀).1.trans_lt (h.new_member m₀ hm₀) }

/-- A demotion always passes. -/
theorem demote_constraints (h : t.Constraints p) {f : MemberFields} {role : OrgRole}
    (hf : f.role = some role) (hrole : role ≠ .owner) : (t.updateMember id f).Constraints p := by
  have hnot : ∀ m, (f.apply m).role ≠ .owner := fun m => by simpa [MemberFields.apply, hf]
  refine updateMember_constraints h (h.uniq_org_owner_per_user.map fun m => ?_) ?_
  · split
    · exact Or.inr (if_neg (hnot m))
    · exact Or.inl rfl
  · intro m hm hr
    rcases Table.mem_update.mp hm with ⟨hm, -⟩ | ⟨m₀, -, -, rfl⟩
    · exact h.ck_org_owner_must_be_billing m hm hr
    · exact absurd hr (hnot m₀)

/-- A promotion passes exactly when the user owns no organization through
another row. -/
theorem promote_constraints_iff (h : t.Constraints p) {m : OrgMember} (hm : m ∈ t.members) :
    (t.updateMember m.id { role := some .owner, isBilling := some true }).Constraints p ↔
      ∀ m' ∈ t.members, m'.role = .owner → m'.user = m.user → m'.id = m.id := by
  have hmine : (MemberFields.apply { role := some .owner, isBilling := some true } m) ∈
      (t.updateMember m.id { role := some .owner, isBilling := some true }).members :=
    Table.mem_update.mpr (Or.inr ⟨m, hm, rfl, rfl⟩)
  constructor
  · intro h' m' hm' hr huser
    by_contra hne
    have hother : m' ∈
        (t.updateMember m.id { role := some .owner, isBilling := some true }).members :=
      Table.mem_update.mpr (Or.inl ⟨hm', hne⟩)
    have e := h'.uniq_org_owner_per_user.inj hother hmine (if_pos hr) (huser ▸ if_pos rfl)
    have hid := congrArg OrgMember.id e
    exact hne hid
  · intro hfree
    refine updateMember_constraints h ?_ ?_
    · refine Table.unique_update h.member_pk h.uniq_org_owner_per_user ?_
      intro a ha hak b hb hbk v hv hw
      obtain rfl := h.member_pk.inj ha hm (congrArg some hak) rfl
      have hv' : some a.user = some v := by simpa [OrgMember.ownedBy, MemberFields.apply] using hv
      unfold OrgMember.ownedBy at hw
      split at hw
      case isTrue hr => exact hbk (hfree b hb hr (Option.some.inj (hw.trans hv'.symm)))
      case isFalse => cases hw
    · intro m' hm' hr
      rcases Table.mem_update.mp hm' with ⟨hm', -⟩ | ⟨m₀, -, -, rfl⟩
      · exact h.ck_org_owner_must_be_billing m' hm' hr
      · rfl

end OrgTables

/-! ### Writes -/

/-- What a write has to meet. -/
def KeepsOwner (db : OrgDb p) : OrgRequest → RequestState → Prop
  -- a role is written over a row that is no OWNER row
  | .patchMember _ _ _ (some _) _, .readTarget _ target => ¬ db.OwnsNow target.id
  -- the user who is deleted owns nothing
  | .deleteMember _ _ _, .readTarget _ target => db.OwnsNothing target.user
  -- the owner is the caller or the target
  | .transferOwnership _ _ _, .readTarget caller target =>
    db.CanTransfer caller.id target.id →
      if caller.id = target.id then ¬ db.OwnsNow caller.id
      else db.OwnsNow caller.id ∨ db.OwnsNow target.id
  -- who is deleted with organizations owns none but these
  | .deleteAccount _, .usersRead orgIds userIds =>
    ∀ m ∈ db.members, m.role = .owner → m.user ∈ userIds → m.org ∈ orgIds
  | .deleteAccount user, .orgsDeleted | .deleteAccount user, .membershipsDeleted =>
    db.OwnsNothing user
  | _, _ => True

/-- Where a request writes nothing there is nothing to meet. -/
theorem keepsOwner_of_read {r : OrgRequest} {db : OrgDb p} {κ : RequestState}
    (h : r.write db κ = none) : KeepsOwner db r κ := by
  unfold KeepsOwner
  split <;> trivial

namespace OrgDb

variable {db db' : OrgDb p}

theorem ownsNow_iff {m : OrgMember} (hm : m ∈ db.members) :
    db.OwnsNow m.id ↔ m.role = .owner := by
  constructor
  · rintro ⟨m', hm', hid, hr⟩
    obtain rfl := db.constraints.member_pk.inj hm' hm (congrArg some hid) rfl
    exact hr
  · exact fun hr => ⟨m, hm, rfl, hr⟩

variable (db) in
/-- A role that a PATCH can carry is always taken. -/
theorem saveMember_demote (id : UUID) {f : MemberFields} {role : OrgRole}
    (hf : f.role = some role) (hrole : role ≠ .owner) (hid : ∃ m ∈ db.members, m.id = id) :
    ∃ db', db.saveMember id f = .ok db' :=
  ⟨⟨db.updateMember id f, OrgTables.demote_constraints db.constraints hf hrole⟩,
    saveMember_eq_ok.mpr ⟨hid, rfl⟩⟩

theorem oneOwner_demote_iff (h : db.OneOwner) {id : UUID} {f : MemberFields} {role : OrgRole}
    (hf : f.role = some role) (hrole : role ≠ .owner)
    (hok : db.saveMember id f = .ok db') : db'.OneOwner ↔ ¬ db.OwnsNow id := by
  have hdb := (saveMember_eq_ok.mp hok).2
  have hone := (OrgTables.oneOwner_iff db.constraints).mp h
  rw [OrgTables.oneOwner_iff db'.constraints, hdb]
  have hdiff := OrgTables.ownersOf_demote db.toOrgTables id hf hrole
  constructor
  · rintro h' ⟨m, hm, rfl, hr⟩
    obtain ⟨o, ho, hid⟩ := db.constraints.member_org m hm
    obtain ⟨w, hw⟩ := hone o ho
    obtain ⟨k, hk⟩ := h' o ho
    -- the only owner of the organization was the row itself
    have hmw : m.id ∈ db.ownersOf o.id :=
      (OrgTables.mem_ownersOf db.constraints hm).mpr ⟨hid.symm, hr⟩
    rw [hw, Set.mem_singleton_iff] at hmw
    rw [hdiff, hw, hmw, Set.sdiff_self] at hk
    exact (Set.singleton_ne_empty k hk.symm).elim
  · intro hno o ho
    obtain ⟨w, hw⟩ := hone o ho
    refine ⟨w, ?_⟩
    rw [hdiff, hw]
    refine Set.sdiff_singleton_eq_self fun hmem => ?_
    obtain rfl := Set.mem_singleton_iff.mp hmem
    obtain ⟨m, ⟨hm, -, hr⟩, hid⟩ := hw.symm.subset (Set.mem_singleton _)
    exact hno ⟨m, hm, hid, hr⟩

theorem oneOwner_keep {id : UUID} {f : MemberFields} (h : db.OneOwner) (hf : f.role = none)
    (hok : db.saveMember id f = .ok db') : db'.OneOwner := by
  have hdb := (saveMember_eq_ok.mp hok).2
  rw [OrgTables.oneOwner_iff db'.constraints, hdb]
  intro o ho
  rw [OrgTables.ownersOf_keep hf]
  exact (OrgTables.oneOwner_iff db.constraints).mp h o ho

/-- A transfer goes through exactly when its rows exist and the target owns
nothing else. -/
theorem transferOwnership_ok_iff {callerId targetId : UUID} :
    (∃ db', db.transferOwnership callerId targetId = .ok db') ↔
      db.CanTransfer callerId targetId := by
  constructor
  · rintro ⟨db', hok⟩
    obtain ⟨db₁, h₁, h₂⟩ := transferOwnership_eq_ok.mp hok
    obtain ⟨⟨m, hm, rfl⟩, hdb₁⟩ := saveMember_eq_ok.mp h₁
    obtain ⟨⟨c₁, hc₁, rfl⟩, -⟩ := saveMember_eq_ok.mp h₂
    refine ⟨?_, m, hm, rfl, ?_⟩
    · rw [hdb₁] at hc₁
      rcases Table.mem_update.mp hc₁ with ⟨hc, -⟩ | ⟨c, hc, -, rfl⟩
      · exact ⟨c₁, hc, rfl⟩
      · exact ⟨c, hc, rfl⟩
    · exact (OrgTables.promote_constraints_iff db.constraints hm).mp (hdb₁ ▸ db₁.constraints)
  · rintro ⟨⟨c, hc, rfl⟩, m, hm, rfl, hfree⟩
    have hc₁ := (OrgTables.promote_constraints_iff db.constraints hm).mpr hfree
    have hcaller : ∃ c₁ ∈ (db.updateMember m.id
        { role := some .owner, isBilling := some true }).members, c₁.id = c.id := by
      by_cases hid : c.id = m.id
      · exact ⟨_, Table.mem_update.mpr (Or.inr ⟨c, hc, hid, rfl⟩), rfl⟩
      · exact ⟨c, Table.mem_update.mpr (Or.inl ⟨hc, hid⟩), rfl⟩
    obtain ⟨db', h₂⟩ := saveMember_demote (⟨_, hc₁⟩ : OrgDb p) c.id
      (f := { role := some .admin, isBilling := some false }) rfl (by decide) hcaller
    exact ⟨db', transferOwnership_eq_ok.mpr
      ⟨⟨_, hc₁⟩, saveMember_eq_ok.mpr ⟨⟨m, hm, rfl⟩, rfl⟩, h₂⟩⟩

/-- A transfer between two rows of one organization leaves one owner exactly
when the owner was one of them, and the caller was not the target as well. -/
theorem oneOwner_transfer_iff (h : db.OneOwner) {callerId : UUID} {c m : OrgMember}
    (hc : c ∈ db.members) (hm : m ∈ db.members) (horg : c.org = m.org)
    (hcid : c.id = callerId) (hok : db.transferOwnership callerId m.id = .ok db') :
    db'.OneOwner ↔
      if callerId = m.id then ¬ db.OwnsNow callerId
      else db.OwnsNow callerId ∨ db.OwnsNow m.id := by
  subst hcid
  obtain ⟨db₁, h₁, h₂⟩ := transferOwnership_eq_ok.mp hok
  have hdb₁ := (saveMember_eq_ok.mp h₁).2
  have hdb' := (saveMember_eq_ok.mp h₂).2
  have hone := (OrgTables.oneOwner_iff db.constraints).mp h
  have horgs : db'.orgs = db.orgs := by
    rw [hdb']
    show db₁.orgs = db.orgs
    rw [hdb₁]
    rfl
  have howners : ∀ org, db'.ownersOf org =
      {k | k ∈ db.ownersOf org ∨ k = m.id ∧ m.org = org} \ {c.id} := by
    intro org
    rw [hdb', OrgTables.ownersOf_demote _ _ rfl (by decide), hdb₁,
      OrgTables.ownersOf_promote db.constraints rfl hm]
  -- the organization of the two rows and its owner
  obtain ⟨o, ho, hoid⟩ := db.constraints.member_org m hm
  obtain ⟨w, hw⟩ := hone o ho
  have hnow : ∀ r ∈ db.members, r.org = o.id → (db.OwnsNow r.id ↔ r.id = w) := by
    intro r hr hro
    have hmem : r.id ∈ db.ownersOf o.id ↔ r.id = w := by rw [hw, Set.mem_singleton_iff]
    rw [ownsNow_iff hr, ← hmem, OrgTables.mem_ownersOf db.constraints hr]
    exact ⟨fun h => ⟨hro, h⟩, And.right⟩
  rw [hnow c hc (horg.trans hoid.symm), hnow m hm hoid.symm,
    OrgTables.oneOwner_iff db'.constraints]
  have hset : db'.ownersOf o.id = insert m.id {w} \ {c.id} := by
    rw [howners, hw]
    ext k
    simp [hoid, or_comm]
  have hothers : ∀ o' ∈ db.orgs, o'.id ≠ o.id → db'.ownersOf o'.id = db.ownersOf o'.id := by
    intro o' ho' hne
    rw [howners]
    ext k
    constructor
    · rintro ⟨hk | ⟨-, hk⟩, -⟩
      · exact hk
      · exact absurd (hoid.trans hk).symm hne
    · intro hk
      refine ⟨Or.inl hk, fun hkc => ?_⟩
      obtain rfl := Set.mem_singleton_iff.mp hkc
      have := ((OrgTables.mem_ownersOf db.constraints hc).mp hk).1
      exact hne (this.symm.trans (horg.trans hoid.symm))
  have hiff : (∀ o' ∈ db'.orgs, ∃ k, db'.ownersOf o'.id = {k}) ↔
      ∃ k, (insert m.id {w} \ {c.id} : Set UUID) = {k} := by
    rw [horgs]
    constructor
    · intro h'
      exact hset ▸ h' o ho
    · intro hk o' ho'
      by_cases hne : o'.id = o.id
      · rw [hne, hset]
        exact hk
      · rw [hothers o' ho' hne]
        exact hone o' ho'
  rw [hiff]
  split
  case isTrue hcm =>
    -- the one row is promoted and demoted again
    rw [hcm]
    constructor
    · rintro ⟨k, hk⟩ rfl
      rw [Set.insert_eq_of_mem (Set.mem_singleton _), Set.sdiff_self] at hk
      exact Set.singleton_ne_empty k hk.symm
    · intro hne
      refine ⟨w, ?_⟩
      ext k
      simp only [Set.mem_sdiff, Set.mem_insert_iff, Set.mem_singleton_iff]
      constructor
      · rintro ⟨hk | hk, hkm⟩
        · exact absurd hk hkm
        · exact hk
      · rintro rfl
        exact ⟨Or.inr rfl, fun h => hne h.symm⟩
  case isFalse hcm =>
    constructor
    · rintro ⟨k, hk⟩
      -- both the target and, were it neither row, the old owner would be left
      by_contra hneither
      obtain ⟨hcw, hmw⟩ := not_or.mp hneither
      have hmk : m.id = k := hk.subset ⟨Or.inl rfl, fun h => hcm h.symm⟩
      have hwk : w = k := hk.subset ⟨Or.inr rfl, fun h => hcw h.symm⟩
      exact hmw (hmk.trans hwk.symm)
    · intro hor
      refine ⟨m.id, ?_⟩
      ext k
      simp only [Set.mem_sdiff, Set.mem_insert_iff, Set.mem_singleton_iff]
      constructor
      · rintro ⟨hk | hk, hkc⟩
        · exact hk
        · rcases hor with hcw | hmw
          · exact absurd (hk.trans hcw.symm) hkc
          · exact hk.trans hmw.symm
      · rintro rfl
        exact ⟨Or.inl rfl, fun h => hcm h.symm⟩

end OrgDb

/-- **One write.**  A write of a request leaves one owner for each organization
exactly when it meets `KeepsOwner`. -/
theorem oneOwner_write_iff {r : OrgRequest} {db db' : OrgDb p} {κ κ' : RequestState}
    (h : db.OneOwner)
    (hrows : ∀ m ∈ κ.rows, db.Known m ∧ r.memberOrg = some m.org)
    (hw : r.write db κ = some (.ok db', κ')) : db'.OneOwner ↔ KeepsOwner db r κ := by
  have hdeleteUser : ∀ user, (db.deleteUsers [user]).OneOwner ↔ db.OwnsNothing user := by
    intro user
    rw [OrgTables.oneOwner_deleteMembers_iff h db.constraints (fun m => m.user ≠ user)
      (fun m => by simp [OrgDb.deleteUsers])
      (by simp [OrgDb.deleteUsers, OrgTables.deleteUsers, OrgTables.deleteCustomers])]
    exact ⟨fun h m hm hu hr => h m hm hr hu, fun h m hm hr hu => h m hm hu hr⟩
  unfold OrgRequest.write at hw
  split at hw
  · -- `teamCheckout`
    obtain ⟨hok, -⟩ := Prod.mk.inj (Option.some.inj hw)
    refine iff_of_true ?_ trivial
    rw [OrgDb.createOrgWithOwner_ok hok]
    exact OrgTables.OneOwner.insertOrg db.constraints h _ _ _ _
  · -- `patchMember`
    rename_i role isBilling caller target
    obtain ⟨hok, -⟩ := Prod.mk.inj (Option.some.inj hw)
    rcases role with - | role
    · exact iff_of_true (OrgDb.oneOwner_keep h rfl hok) trivial
    · exact OrgDb.oneOwner_demote_iff h rfl role.toRole_ne_owner hok
  · -- `deleteMember`
    cases hw
    exact hdeleteUser _
  · -- `transferOwnership`
    rename_i caller target
    obtain ⟨hok, -⟩ := Prod.mk.inj (Option.some.inj hw)
    have hcan := OrgDb.transferOwnership_ok_iff.mp ⟨_, hok⟩
    have hrowsNow := hcan
    obtain ⟨⟨c, hc, hcid⟩, m, hm, hmid, -⟩ := hrowsNow
    obtain ⟨hkc, hoc⟩ := hrows caller (by simp [RequestState.rows])
    obtain ⟨hkt, hot⟩ := hrows target (by simp [RequestState.rows])
    -- both rows are of the organization of the request
    have horg : c.org = m.org := by
      rw [(hkc.row c hc hcid).1, (hkt.row m hm hmid).1]
      exact Option.some.inj (hoc.symm.trans hot)
    rw [← hmid] at hok
    rw [OrgDb.oneOwner_transfer_iff h hc hm horg hcid hok, hmid]
    exact ⟨fun h _ => h, fun h => h hcan⟩
  · -- an invitation expires
    obtain ⟨hok, -⟩ := Prod.mk.inj (Option.some.inj hw)
    refine iff_of_true ?_ trivial
    rw [(OrgDb.saveInvitation_eq_ok.mp hok).2]
    exact h
  · -- `acceptInvitation`
    rename_i inv
    obtain ⟨hok, -⟩ := Prod.mk.inj (Option.some.inj hw)
    refine iff_of_true ?_ trivial
    rw [(OrgDb.acceptInvitation_eq_ok.mp hok).2.2]
    exact h.append inv.role.toRole_ne_owner rfl rfl
  · -- the customer is deleted
    cases hw
    exact iff_of_true h trivial
  · -- organizations and users are deleted
    rename_i orgIds userIds
    cases hw
    rw [OrgTables.oneOwner_delete_iff h (fun m => m.user ∉ userIds ∧ m.org ∉ orgIds)
      (fun m => OrgDb.mem_eraseOrgs db)]
    · constructor
      · intro hkeep m hm hr huser
        by_contra horg
        obtain ⟨o, ho, hid⟩ := db.constraints.member_org m hm
        refine (hkeep m hm hr ⟨_, (OrgDb.mem_eraseOrgs_orgs db).mpr ⟨o, ho, ?_, rfl⟩, hid⟩).1 huser
        exact hid.symm ▸ horg
      · rintro hkeep m hm hr ⟨o, ho, hid⟩
        obtain ⟨o₀, -, hnot, rfl⟩ := (OrgDb.mem_eraseOrgs_orgs db).mp ho
        have horg : m.org ∉ orgIds := hid ▸ hnot
        exact ⟨fun huser => horg (hkeep m hm hr huser), horg⟩
    · intro o ho
      obtain ⟨o₀, ho₀, -, rfl⟩ := (OrgDb.mem_eraseOrgs_orgs db).mp ho
      exact ⟨o₀, ho₀, rfl⟩
  · -- memberships are deleted
    rename_i user
    cases hw
    refine (OrgTables.oneOwner_deleteMembers_iff h db.constraints (fun m => m.user ≠ user)
      (fun m => OrgTables.mem_deleteMemberships) rfl).trans ?_
    exact ⟨fun h m hm hu hr => h m hm hr hu, fun h m hm hr hu => h m hm hu hr⟩
  · -- the user is deleted
    cases hw
    exact hdeleteUser _
  · cases hw

/-- A write that fails has nothing to meet. -/
theorem keepsOwner_of_error {r : OrgRequest} {db : OrgDb p} {κ κ' : RequestState} {e : OrgError}
    (hw : r.write db κ = some (.error e, κ')) : KeepsOwner db r κ := by
  unfold KeepsOwner
  split
  · -- a role is refused only where the row is gone
    rename_i role isBilling caller target
    obtain ⟨herr, -⟩ := Prod.mk.inj (Option.some.inj hw)
    rintro ⟨m, hm, hid, -⟩
    obtain ⟨db', hok⟩ := OrgDb.saveMember_demote db target.id
      (f := { role := some role.toRole, isBilling }) rfl role.toRole_ne_owner ⟨m, hm, hid⟩
    exact absurd (herr.symm.trans hok) (by simp)
  · simp [OrgRequest.write] at hw
  · obtain ⟨herr, -⟩ := Prod.mk.inj (Option.some.inj hw)
    intro hcan
    obtain ⟨db', hok⟩ := OrgDb.transferOwnership_ok_iff.mpr hcan
    exact absurd (herr.symm.trans hok) (by simp)
  · simp [OrgRequest.write] at hw
  · simp [OrgRequest.write] at hw
  · simp [OrgRequest.write] at hw
  · trivial

/-! ### Runs -/

variable {ι : Type*} [DecidableEq ι] {requests : ι → OrgRequest}

/-- The write of a step, if it is one, meets `KeepsOwner`. -/
def StepKeepsOwner (requests : ι → OrgRequest) (s : OrgSystem ι p) (l : ι × Timestamp) : Prop :=
  KeepsOwner s.shared (requests l.1) (s.procs l.1)

theorem oneOwner_step (s : OrgSystem ι p) (l : ι × Timestamp) (s' : OrgSystem ι p)
    (hI : Interleaving.Inv (fun _ => True) (RowsKnown requests) s) (hP : s.shared.OneOwner)
    (h : Interleaving.step (requestAct requests) s l = some s') :
    s'.shared.OneOwner ↔ StepKeepsOwner requests s l := by
  obtain ⟨i, now⟩ := l
  obtain ⟨db', κ', hact, rfl⟩ := Interleaving.step_eq_some h
  rcases requestAct_cases hact with ⟨rfl, hw, -⟩ | ⟨e, κ₁, rfl, hw, -⟩ | hw
  · exact iff_of_true hP (keepsOwner_of_read hw)
  · exact iff_of_true hP (keepsOwner_of_error hw)
  · exact oneOwner_write_iff hP (hI.procs i) hw

/-- **One owner for each organization.**  Over any interleaving of any number
of requests, every organization always has exactly one owner, and that owner
has billing authority, exactly when each write meets `KeepsOwner`: no role is
written over an OWNER row, no user is deleted who still owns an organization,
and a transfer starts from the owner that there is. -/
theorem one_owner_iff {db : OrgDb p} (h : db.OneOwner) (ls : List (ι × Timestamp)) :
    Runs.Always (Interleaving.step (requestAct requests)) (fun s => s.shared.OneOwner)
        (requestInit ι db) ls ↔
      Runs.EachStep (Interleaving.step (requestAct requests)) (StepKeepsOwner requests)
        (requestInit ι db) ls :=
  Runs.always_iff_eachStep rowsKnown_step oneOwner_step (rowsKnown_init db) h

/-! ### A member who owns another organization, and two transfers at once -/

def teamTables : OrgTables where
  users := [⟨1, "ann@acme.io"⟩, ⟨2, "bob@acme.io"⟩, ⟨3, "eve@acme.io"⟩]
  orgs := [⟨4, "Acme", "acme", some 1⟩]
  members := [⟨5, 4, 1, .owner, true⟩, ⟨6, 4, 2, .admin, false⟩, ⟨7, 4, 3, .admin, false⟩]
  invitations := []
  customers := [⟨8, "cus_acme", .org 4⟩]
  subscriptions := []
  nextKey := 9

/-- An organization with its owner and two admins. -/
def teamDb : OrgDb wordPlatform := ⟨teamTables, by decide⟩

/-- The second user checks out a team of their own; the owner of the first
organization removes them from it, or transfers it to either admin. -/
def teamRequests : Fin 4 → OrgRequest
  | 0 => .teamCheckout 2 "Beta" "cus_beta"
  | 1 => .deleteMember 1 4 2
  | 2 => .transferOwnership 1 4 2
  | 3 => .transferOwnership 1 4 3

theorem one_owner_iff_team :
    Runs.Always (Interleaving.step (requestAct teamRequests)) (fun s => s.shared.OneOwner)
        (requestInit (Fin 4) teamDb) [(2, 0), (2, 0), (2, 0)] ↔
      Runs.EachStep (Interleaving.step (requestAct teamRequests)) (StepKeepsOwner teamRequests)
        (requestInit (Fin 4) teamDb) [(2, 0), (2, 0), (2, 0)] :=
  one_owner_iff (by decide) _

/-- The state that a run of the requests ends in, if it does. -/
def teamRun (ls : List (Fin 4 × Timestamp)) : Option (OrgSystem (Fin 4) wordPlatform) :=
  Runs.run (Interleaving.step (requestAct teamRequests)) (requestInit (Fin 4) teamDb) ls

theorem not_always_of_teamRun {ls : List (Fin 4 × Timestamp)}
    (h : (teamRun ls).any fun s => !decide s.shared.OneOwner) :
    ¬ Runs.Always (Interleaving.step (requestAct teamRequests)) (fun s => s.shared.OneOwner)
        (requestInit (Fin 4) teamDb) ls := by
  intro halways
  obtain ⟨s, hs, hnot⟩ := Option.any_eq_true _ _ |>.mp h
  simp [halways.last hs] at hnot

/-- Removing a member who owns an organization of their own, one request after
the other, leaves that organization without an owner.  Two transfers that both
read the owner before either writes leave two. -/
theorem owners_lost_and_doubled :
    ((teamRun [(0, 0), (0, 0), (0, 0), (1, 0), (1, 0), (1, 0)]).map fun s =>
        (s.shared.orgs.map Org.id, s.shared.members.map fun m => (m.org, m.user, m.role)))
      = some ([4, 9], [(4, 1, .owner), (4, 3, .admin)]) ∧
    ((teamRun [(2, 0), (2, 0), (3, 0), (3, 0), (2, 0), (3, 0)]).map fun s =>
        s.shared.members.map fun m => (m.org, m.user, m.role))
      = some [(4, 1, .admin), (4, 2, .owner), (4, 3, .owner)] ∧
    ¬ Runs.Always (Interleaving.step (requestAct teamRequests)) (fun s => s.shared.OneOwner)
        (requestInit (Fin 4) teamDb) [(0, 0), (0, 0), (0, 0), (1, 0), (1, 0), (1, 0)] ∧
    ¬ Runs.Always (Interleaving.step (requestAct teamRequests)) (fun s => s.shared.OneOwner)
        (requestInit (Fin 4) teamDb) [(2, 0), (2, 0), (3, 0), (3, 0), (2, 0), (3, 0)] :=
  ⟨by decide, by decide, not_always_of_teamRun (by decide), not_always_of_teamRun (by decide)⟩

end Saasmint
