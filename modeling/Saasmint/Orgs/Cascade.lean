/-
Saasmint/Orgs/Cascade.lean

The deletion of several organizations at once (`delete_orgs_created_by_user`)
against their deletion one by one (`_delete_org_db_only`).

The batched deletion asks once which members have no membership outside the
batch and no personal subscription; one by one the question is asked again
after every deletion, when the memberships of the earlier ones are gone.
`Erases` says of the tables after a deletion which rows are left, in terms of
the tables before.  Deletions compose (`Erases.append`), and `Erases` reads the
organizations as a set, so that the batch and every order of it leave the same
rows (`batched_eq_sequential`).
-/
import Saasmint.Orgs.OrphanBilling

namespace Saasmint

open Programs Transactions

variable {p : Platform}

/-- `_delete_org_db_only` on one organization after another. -/
def deleteEach (orgIds : List UUID) : Deletion p PUnit :=
  orgIds.forM fun org => deleteOrgsDbOnly [org]

/-- A connection on which every statement goes through. -/
def healthy (db : OrgDb p) : Connection (OrgDb p) (List String) := .start db fun _ => false

/-- What a deletion leaves of the tables. -/
def OrgDb.after (db : OrgDb p) (m : Deletion p PUnit) : OrgDb p := (final m (healthy db)).data

/-- The account has memberships, all of them in the organizations, and no active
personal subscription. -/
def OrgTables.GoesWithOrgs (t : OrgTables) (orgIds : List UUID) (user : UUID) : Prop :=
  (∃ m ∈ t.members, m.user = user) ∧ (∀ m ∈ t.members, m.user = user → m.org ∈ orgIds) ∧
    t.hasPersonalSub user = false

instance (t : OrgTables) (orgIds : List UUID) (user : UUID) :
    Decidable (t.GoesWithOrgs orgIds user) :=
  inferInstanceAs (Decidable ((∃ m ∈ t.members, m.user = user) ∧
    (∀ m ∈ t.members, m.user = user → m.org ∈ orgIds) ∧ t.hasPersonalSub user = false))

/-- The same users, organizations, memberships and invitations. -/
structure OrgTables.SameRows (t t' : OrgTables) : Prop where
  users : t'.users = t.users
  orgs : t'.orgs = t.orgs
  members : t'.members = t.members
  invitations : t'.invitations = t.invitations

/-- `t'` is `t` without the organizations, their memberships, and the accounts that
go with them. -/
structure OrgTables.CascadeOf (t : OrgTables) (orgIds : List UUID) (t' : OrgTables) : Prop where
  users : ∀ u, u ∈ t'.users ↔ u ∈ t.users ∧ ¬ t.GoesWithOrgs orgIds u.id
  members : ∀ m, m ∈ t'.members ↔ m ∈ t.members ∧ m.org ∉ orgIds
  invitations : ∀ i, i ∈ t'.invitations ↔ i ∈ t.invitations ∧ i.org ∉ orgIds
  /-- Organizations outside the set are left; `created_by` is cleared where the account goes. -/
  orgs : ∀ o, o ∈ t'.orgs ↔ ∃ o₀ ∈ t.orgs, o₀.id ∉ orgIds ∧
    o = { o₀ with createdBy := o₀.createdBy.filter fun user => ¬ t.GoesWithOrgs orgIds user }

/-! ### The rows that are left -/

theorem OrgTables.mem_deletableUserIds {t : OrgTables} {orgIds : List UUID} {user : UUID} :
    user ∈ t.deletableUserIds orgIds ↔ t.GoesWithOrgs orgIds user := by
  unfold deletableUserIds GoesWithOrgs
  simp only [List.mem_map, List.mem_filter, Bool.and_eq_true, decide_eq_true_eq,
    Bool.not_eq_true', List.any_eq_false, not_and, not_not]
  constructor
  · rintro ⟨m, ⟨hm, ⟨-, hall⟩, hsub⟩, rfl⟩
    exact ⟨⟨m, hm, rfl⟩, hall, hsub⟩
  · rintro ⟨⟨m, hm, rfl⟩, hall, hsub⟩
    exact ⟨m, ⟨hm, ⟨hall m hm rfl, hall⟩, hsub⟩, rfl⟩

/-- The rows after a deletion. -/
structure OrgTables.Erases (t : OrgTables) (orgIds : List UUID) (t' : OrgTables) : Prop where
  users : t'.users = t.users.filter fun u => u.id ∉ t.deletableUserIds orgIds
  orgs : t'.orgs = (t.orgs.map fun o =>
    { o with createdBy := o.createdBy.filter (· ∉ t.deletableUserIds orgIds) }).filter
      fun o => o.id ∉ orgIds
  members : t'.members =
    t.members.filter fun m => m.user ∉ t.deletableUserIds orgIds ∧ m.org ∉ orgIds
  invitations : t'.invitations = t.invitations.filter fun i => i.org ∉ orgIds
  hasPersonalSub : ∀ user, user ∉ t.deletableUserIds orgIds →
    t'.hasPersonalSub user = t.hasPersonalSub user

theorem OrgTables.hasPersonalSub_eq_true {t : OrgTables} {user : UUID} :
    t.hasPersonalSub user = true ↔ ∃ s ∈ t.subscriptions, s.status.isActive = true ∧
      s.userId = some user ∧
        ∃ c ∈ t.customers, s.stripeCustomerId = some c.id ∧ c.owner = .user user := by
  simp only [hasPersonalSub, activeSubsOf, isActiveFor, List.any_filter, List.any_eq_true,
    Bool.and_eq_true, decide_eq_true_eq]
  grind

/-- An account that stays keeps its personal subscriptions. -/
theorem OrgDb.hasPersonalSub_eraseOrgs {db : OrgDb p} {orgIds userIds : List UUID} {user : UUID}
    (huser : user ∉ userIds) :
    (db.eraseOrgs orgIds userIds).hasPersonalSub user = db.hasPersonalSub user := by
  have hcustomers : ∀ c, c ∈ (db.eraseOrgs orgIds userIds).customers ↔ c ∈ db.customers ∧
      ((c.owner.userId.any (· ∈ userIds)) = false ∧ (c.owner.orgId.any (· ∈ orgIds)) = false) := by
    intro c
    show c ∈ List.filter _ (List.filter _ _) ↔ _
    simp only [List.mem_filter, Bool.not_eq_true', and_assoc]
    rfl
  rw [Bool.eq_iff_iff, OrgTables.hasPersonalSub_eq_true, OrgTables.hasPersonalSub_eq_true]
  constructor
  · rintro ⟨s, hs, hactive, hsu, c, hc, hsc, hco⟩
    exact ⟨s, (OrgTables.mem_eraseOrgs_subscriptions.mp hs).1, hactive, hsu, c,
      ((hcustomers c).mp hc).1, hsc, hco⟩
  · rintro ⟨s, hs, hactive, hsu, c, hc, hsc, hco⟩
    refine ⟨s, OrgTables.mem_eraseOrgs_subscriptions.mpr ⟨hs, ?_⟩, hactive, hsu, c,
      (hcustomers c).mpr ⟨hc, ?_⟩, hsc, hco⟩
    · -- the customer of the subscription is the one of the account
      simp only [OrgTables.goesWith, hsu, Option.any_some, decide_eq_false huser, Bool.false_or,
        List.any_eq_false]
      intro c' hc' hgone
      simp only [Bool.and_eq_true, decide_eq_true_eq] at hgone
      have hid : some c'.id = some c.id := hgone.1.symm.trans hsc
      obtain rfl := db.constraints.customer_pk.inj hc' hc hid rfl
      rw [hco] at hgone
      simp [Owner.userId, Owner.orgId, huser] at hgone
    · rw [hco]
      simp [Owner.userId, Owner.orgId, huser]

/-- The transaction of a deletion. -/
theorem OrgDb.eraseOrgs_erases (db : OrgDb p) (orgIds : List UUID) :
    db.Erases orgIds (db.eraseOrgs orgIds (db.deletableUserIds orgIds)).toOrgTables where
  users := rfl
  orgs := rfl
  members := by
    show List.filter _ (List.filter _ _) = _
    rw [List.filter_filter]
    refine List.filter_congr fun m _ => ?_
    simp [Bool.and_comm]
  invitations := by
    -- the invitations that are cancelled go with their organization
    show List.filter _ (List.map _ _) = _
    rw [List.filter_map]
    have hid : ∀ i ∈ db.invitations.filter fun i => decide (i.org ∉ orgIds),
        (if i.org ∈ orgIds ∧ i.status = .pending then { i with status := .cancelled } else i)
          = i := by
      intro i hi
      have horg : i.org ∉ orgIds := by simpa using (List.mem_filter.mp hi).2
      rw [if_neg fun h => horg h.1]
    have hpred : ((fun i : Invitation => decide (i.org ∉ orgIds)) ∘ fun i : Invitation =>
        if i.org ∈ orgIds ∧ i.status = .pending then { i with status := .cancelled } else i)
          = fun i => decide (i.org ∉ orgIds) := by
      funext i
      simp only [Function.comp_apply]
      split <;> rfl
    rw [hpred, List.map_congr_left hid, List.map_id']
  hasPersonalSub _ huser := OrgDb.hasPersonalSub_eraseOrgs huser

namespace OrgTables.Erases

variable {t t' t'' : OrgTables} {A B : List UUID}

/-- The rows that are left depend on the set of organizations only. -/
theorem congr (h : t.Erases A t') (hAB : ∀ k, k ∈ A ↔ k ∈ B) : t.Erases B t' := by
  have hgone : ∀ user, user ∈ t.deletableUserIds A ↔ user ∈ t.deletableUserIds B := by
    intro user
    rw [mem_deletableUserIds, mem_deletableUserIds]
    simp only [GoesWithOrgs, hAB]
  obtain ⟨h₁, h₂, h₃, h₄, h₅⟩ := h
  simp only [hgone, hAB] at h₁ h₂ h₃ h₄ h₅
  exact ⟨h₁, h₂, h₃, h₄, h₅⟩

theorem mem_members (h : t.Erases A t') {m : OrgMember} :
    m ∈ t'.members ↔ m ∈ t.members ∧ m.user ∉ t.deletableUserIds A ∧ m.org ∉ A := by
  rw [h.members, List.mem_filter, decide_eq_true_eq]

/-- An account goes with two deletions when it goes with either: after the first,
its memberships there are gone. -/
theorem mem_deletableUserIds_append (h : t.Erases A t') {user : UUID} :
    user ∈ t.deletableUserIds (A ++ B) ↔
      user ∈ t.deletableUserIds A ∨ user ∈ t'.deletableUserIds B := by
  constructor
  · intro hAB
    by_cases hA : user ∈ t.deletableUserIds A
    · exact Or.inl hA
    · refine Or.inr (mem_deletableUserIds.mpr ?_)
      obtain ⟨⟨m₀, hm₀, hu₀⟩, hall, hsub⟩ := mem_deletableUserIds.mp hAB
      -- a membership outside of `A` is still there
      have hout : ∃ m ∈ t.members, m.user = user ∧ m.org ∉ A := by
        by_contra hno
        exact hA (mem_deletableUserIds.mpr ⟨⟨m₀, hm₀, hu₀⟩,
          fun m hm hu => not_not.mp fun ho => hno ⟨m, hm, hu, ho⟩, hsub⟩)
      obtain ⟨m, hm, rfl, ho⟩ := hout
      refine ⟨⟨m, h.mem_members.mpr ⟨hm, hA, ho⟩, rfl⟩, fun m' hm' hu' => ?_, ?_⟩
      · obtain ⟨hm', -, ho'⟩ := h.mem_members.mp hm'
        exact (List.mem_append.mp (hall m' hm' hu')).resolve_left ho'
      · rw [h.hasPersonalSub _ hA]
        exact hsub
  · rintro (hA | hB)
    · obtain ⟨hex, hall, hsub⟩ := mem_deletableUserIds.mp hA
      exact mem_deletableUserIds.mpr
        ⟨hex, fun m hm hu => List.mem_append_left _ (hall m hm hu), hsub⟩
    · obtain ⟨⟨m, hm, rfl⟩, hall, hsub⟩ := mem_deletableUserIds.mp hB
      obtain ⟨hm, hA, -⟩ := h.mem_members.mp hm
      refine mem_deletableUserIds.mpr ⟨⟨m, hm, rfl⟩, fun m' hm' hu' => ?_, ?_⟩
      · by_cases ho : m'.org ∈ A
        · exact List.mem_append_left _ ho
        · have hleft := h.mem_members.mpr ⟨hm', hu' ▸ hA, ho⟩
          exact List.mem_append_right _ (hall m' hleft hu')
      · rw [← h.hasPersonalSub _ hA]
        exact hsub

/-- Two deletions, one after the other. -/
theorem append (h : t.Erases A t') (h' : t'.Erases B t'') : t.Erases (A ++ B) t'' where
  users := by
    rw [h'.users, h.users, List.filter_filter]
    refine List.filter_congr fun u _ => ?_
    simp [h.mem_deletableUserIds_append, Bool.and_comm]
  orgs := by
    have hgone : (fun k => decide (k ∉ t.deletableUserIds A) && decide (k ∉ t'.deletableUserIds B))
        = fun k => decide (k ∉ t.deletableUserIds (A ++ B)) := by
      funext k
      simp [h.mem_deletableUserIds_append]
    have hout : (fun o : Org => decide (o.id ∉ B) && decide (o.id ∉ A))
        = fun o => decide (o.id ∉ A ++ B) := by
      funext o
      simp [Bool.and_comm]
    rw [h'.orgs, h.orgs]
    simp only [List.filter_map, List.map_map, List.filter_filter, Function.comp_def,
      Option.filter_filter, hgone, hout]
  members := by
    rw [h'.members, h.members, List.filter_filter]
    refine List.filter_congr fun m _ => ?_
    rw [Bool.eq_iff_iff]
    simp only [Bool.and_eq_true, decide_eq_true_eq, h.mem_deletableUserIds_append,
      List.mem_append]
    tauto
  invitations := by
    rw [h'.invitations, h.invitations, List.filter_filter]
    refine List.filter_congr fun i _ => ?_
    simp [Bool.and_comm]
  hasPersonalSub user huser := by
    rw [h.mem_deletableUserIds_append, not_or] at huser
    rw [h'.hasPersonalSub user huser.2, h.hasPersonalSub user huser.1]

theorem sameRows (h : t.Erases A t') (h' : t.Erases A t'') : t'.SameRows t'' where
  users := h'.users.trans h.users.symm
  orgs := h'.orgs.trans h.orgs.symm
  members := h'.members.trans h.members.symm
  invitations := h'.invitations.trans h.invitations.symm

/-- Accounts only go with all their memberships. -/
theorem cascadeOf (h : t.Erases A t') : t.CascadeOf A t' where
  users u := by
    rw [h.users, List.mem_filter, decide_eq_true_eq, mem_deletableUserIds]
  members m := by
    rw [h.mem_members]
    refine and_congr_right fun hm => and_iff_right_of_imp fun ho hgone => ?_
    exact ho ((mem_deletableUserIds.mp hgone).2.1 m hm rfl)
  invitations i := by
    rw [h.invitations, List.mem_filter, decide_eq_true_eq]
  orgs o := by
    rw [h.orgs]
    simp only [List.mem_filter, List.mem_map, decide_eq_true_eq, mem_deletableUserIds]
    constructor
    · rintro ⟨⟨o₀, ho₀, rfl⟩, hout⟩
      exact ⟨o₀, ho₀, hout, rfl⟩
    · rintro ⟨o₀, ho₀, hout, rfl⟩
      exact ⟨⟨o₀, ho₀, rfl⟩, hout⟩

end OrgTables.Erases

theorem OrgDb.erases_nil (db : OrgDb p) : db.Erases [] db.toOrgTables := by
  have hkeep : ∀ k : Option UUID, (k.filter fun _ => true) = k := fun k => by cases k <;> rfl
  constructor <;> simp [DeletionPath.deletableUserIds_nil, hkeep]

/-! ### The two deletions -/

/-- A batch, in one transaction. -/
theorem deleteOrgsCreatedByUser_erases (db : OrgDb p) (user : UUID) :
    db.Erases (db.orgsCreatedBy user) (db.after (deleteOrgsCreatedByUser user)).toOrgTables := by
  suffices h : wp (deleteOrgsCreatedByUser user)
      (fun _ c => db.Erases (db.orgsCreatedBy user) c.data.toOrgTables)
      (fun _ c => db.Erases (db.orgsCreatedBy user) c.data.toOrgTables) (healthy db) from
    wp_final_iff.mp h
  unfold deleteOrgsCreatedByUser
  simp only [wp_bind]
  refine wp_query (fun _ h => by cases h) fun n => ?_
  show wp (if db.orgsCreatedBy user = [] then _ else _) _ _ _
  by_cases hnone : db.orgsCreatedBy user = []
  · rw [if_pos hnone, wp_pure, hnone]
    exact db.erases_nil
  · rw [if_neg hnone]
    simp only [wp_bind]
    refine wp_query (fun _ h => by cases h) fun n => ?_
    refine wp_deleteOrgsDbOnly (fun _ => rfl) (fun _ h => by cases h.choose_spec) fun n => ?_
    have herased := db.eraseOrgs_erases (db.orgsCreatedBy user)
    split
    · exact herased
    · exact herased

/-- The same organizations one by one. -/
theorem deleteEach_erases (db : OrgDb p) (orgIds : List UUID) :
    db.Erases orgIds (db.after (deleteEach orgIds)).toOrgTables := by
  suffices h : ∀ (rest done : List UUID) (c : Connection (OrgDb p) (List String)),
      c.hooks = [] → (∀ k, c.fails k = false) → db.Erases done c.data.toOrgTables →
      wp (deleteEach rest) (fun _ c' => db.Erases (done ++ rest) c'.data.toOrgTables)
        (fun _ c' => db.Erases (done ++ rest) c'.data.toOrgTables) c from
    wp_final_iff.mp (h orgIds [] (healthy db) rfl (fun _ => rfl) db.erases_nil)
  intro rest
  induction rest with
  | nil =>
    intro done c _ _ hdone
    rw [List.append_nil]
    exact hdone
  | cons org rest ih =>
    intro done c hhooks hfails hdone
    show wp (deleteOrgsDbOnly [org] >>= fun _ => deleteEach rest) _ _ c
    rw [wp_bind]
    refine wp_deleteOrgsDbOnly (fun _ => hhooks) (fun _ ⟨k, hk⟩ => ?_) fun n => ?_
    · rw [hfails k] at hk
      cases hk
    · have hnext := hdone.append (c.data.eraseOrgs_erases [org])
      rw [← List.singleton_append, ← List.append_assoc]
      exact ih (done ++ [org]) _ hhooks hfails hnext

/-- **One by one, in any order, is the batch.**  Both leave the same rows: all but
the organizations that the user created, their memberships and invitations, and the
members who have no other membership and no active personal subscription; these are no
longer the creators of the organizations that stay. -/
theorem batched_eq_sequential (db : OrgDb p) (user : UUID) {orgIds : List UUID}
    (horder : orgIds.Perm (db.orgsCreatedBy user)) :
    let batched := db.after (deleteOrgsCreatedByUser user)
    let sequential := db.after (deleteEach orgIds)
    batched.SameRows sequential.toOrgTables ∧
      db.CascadeOf (db.orgsCreatedBy user) batched.toOrgTables ∧
      db.CascadeOf (db.orgsCreatedBy user) sequential.toOrgTables := by
  have hbatched := deleteOrgsCreatedByUser_erases db user
  have hsequential := (deleteEach_erases db orgIds).congr fun _ => horder.mem_iff
  exact ⟨hbatched.sameRows hsequential, hbatched.cascadeOf, hsequential.cascadeOf⟩

/-! ### A member of two of the organizations -/

/-- User 1 has created two organizations; user 2 is a member of both, and so is user 3, who
pays for a personal plan.  User 2 has created a third one, and has left it to user 14. -/
def creatorTables : OrgTables where
  users := [⟨1, "ann@acme.io"⟩, ⟨2, "bob@acme.io"⟩, ⟨3, "eve@acme.io"⟩, ⟨14, "kim@acme.io"⟩]
  orgs := [⟨4, "Acme", "acme", some 1⟩, ⟨5, "Beta", "beta", some 1⟩, ⟨15, "Gamma", "gamma", some 2⟩]
  members := [⟨6, 4, 1, .owner, true⟩, ⟨7, 4, 2, .admin, false⟩, ⟨8, 5, 2, .member, false⟩,
    ⟨9, 5, 3, .owner, true⟩, ⟨10, 4, 3, .member, false⟩, ⟨16, 15, 14, .owner, true⟩]
  invitations := [⟨11, 5, "joe@acme.io", .member, "tok", .pending, 100⟩]
  customers := [⟨12, "cus_eve", .user 3⟩]
  subscriptions := [⟨13, some "sub_eve", some 12, some 3, .active, 1, 1, none, 0, 100, none, none,
    none, none, "usd", 0⟩]
  nextKey := 17

def creatorDb : OrgDb wordPlatform := ⟨creatorTables, by decide⟩

theorem batched_eq_sequential_creator :
    [5, 4].Perm (creatorDb.orgsCreatedBy 1) ∧
      (creatorDb.after (deleteOrgsCreatedByUser 1)).SameRows
        (creatorDb.after (deleteEach [5, 4])).toOrgTables ∧
      creatorDb.CascadeOf [4, 5] (creatorDb.after (deleteEach [5, 4])).toOrgTables := by
  have horder : [5, 4].Perm (creatorDb.orgsCreatedBy 1) := by decide
  obtain ⟨hsame, -, hcascade⟩ := batched_eq_sequential creatorDb 1 horder
  exact ⟨horder, hsame, hcascade⟩

/-- User 2 goes, and the third organization, which is none of the two, has no creator then. -/
theorem creator_of_another_org_cleared :
    ¬ ∀ o ∈ creatorDb.orgs, o.id ∉ creatorDb.orgsCreatedBy 1 →
      o ∈ (creatorDb.after (deleteOrgsCreatedByUser 1)).orgs := by
  decide

end Saasmint
