/-
Saasmint/Orgs/Resumption.lean

Whether the deletion of an account can be resumed (`deletion_resumes_iff`).

Wherever attempts have ended, one more in which nothing fails leaves the same
database, and the same customers deleted at Stripe, as a single one.  But the
subscriptions of the organizations are read from rows that are gone once the
organizations are, and they are handed over after that commit: an attempt that ends
in between leaves them to nobody.  So the same subscriptions are cancelled or handed
over exactly where nothing is left to be cancelled after the first commit.
-/
import Saasmint.Orgs.ErasureRetries

namespace Saasmint

open Programs Attempts

variable {p : Platform} {owned : String → List String} {o : ErasureStep → Outcome} {user : UUID}
  {w w' w₀ : ErasureWorld p} {id : String}

/-! ### Requests that come past the first commit -/

/-- A request up to its first commit. -/
structure CustomerErased (owned : String → List String) (user : UUID) (w w' : ErasureWorld p) :
    Prop where
  db : w'.db = w.db.deleteCustomerOf user
  canceled : ∀ id, id ∈ w'.canceled ↔ CancelsFirst owned w user id
  deletedCustomers : ∀ k, k ∈ w'.deletedCustomers ↔
    k ∈ w.deletedCustomers ∨ ∃ c, w.db.customerByUserId user = some c ∧ c.stripeId = k
  batches : w'.batches = w.batches

theorem wp_deleteAccount_of_done {Q : PUnit → ErasureWorld p → Prop}
    {E : Stop ErasureStep OrgError → ErasureWorld p → Prop}
    (hpresent : ∃ u ∈ w.db.users, u.id = user) (hcancel : o .cancelSubscription = .done)
    (hstripe : o .deleteStripeCustomer = .done) (hcustomer : o .deleteCustomer = .done)
    (hrest : ∀ w', CustomerErased owned user w w' →
      wp (Erasing.preDelete o user) (fun _ w' =>
        wp (perform o .deleteUser fun w => { w with db := w.db.deleteUsers [user] }) Q E w') E w') :
    wp (Erasing.deleteAccount owned o user) Q E w := by
  unfold Erasing.deleteAccount
  rw [wp_bind, wp_get]
  dsimp only
  rw [if_pos (OrgDb.any_users_iff.mpr hpresent)]
  simp only [wp_bind]
  apply Erasing.wp_cancelActive
  case hstop => exact fun _ hne _ => absurd hcancel hne
  intro w₁ hc
  rw [← hc.db]
  apply Erasing.wp_deleteCustomer rfl
  case hstripe => exact fun _ hne _ _ => absurd hstripe hne
  case hfailed => exact fun _ hne _ _ _ => by cases hcustomer.symm.trans hne
  case hlost => exact fun _ hne _ _ _ => by cases hcustomer.symm.trans hne
  intro w₂ hd hdb
  apply hrest
  refine ⟨by rw [hdb, hc.db], fun id => ?_, fun k => ?_, hd.batches.trans hc.batches⟩
  · rw [hd.canceled, hc.canceled, hc.db, hc.deletedCustomers, or_assoc]
    rfl
  · rw [hd.deletedCustomers, hc.db, hc.deletedCustomers]

/-- A request that nothing interrupts. -/
structure Finished (owned : String → List String) (user : UUID) (w w' : ErasureWorld p) : Prop where
  db : w'.db = w.db.eraseAccount user
  canceled : ∀ id, id ∈ w'.canceled ↔ CancelsFirst owned w user id
  deletedCustomers : ∀ k, k ∈ w'.deletedCustomers ↔
    k ∈ w.deletedCustomers ∨ ∃ c, w.db.customerByUserId user = some c ∧ c.stripeId = k
  handedOver : ∀ id, w'.HandedOver id ↔
    w.HandedOver id ∨ id ∈ w.db.pendingStripeSubIds (w.db.orgsCreatedBy user)

theorem handedOver_congr (h : w'.batches = w.batches) : w'.HandedOver id ↔ w.HandedOver id := by
  unfold ErasureWorld.HandedOver
  rw [h]

theorem uninterrupted_finished (hpresent : ∃ u ∈ w.db.users, u.id = user) :
    Finished owned user w (Erasing.uninterrupted owned user w) := by
  apply wp_final_iff.mp
  apply wp_deleteAccount_of_done hpresent rfl rfl rfl
  intro w₁ h₁
  unfold Erasing.preDelete
  rw [wp_bind]
  apply Erasing.wp_deleteOrgsCreatedByUser
  case hfailed => exact fun hne => by cases hne
  case hlost => exact fun _ hne => by cases hne
  case henqueue => exact fun _ hne => absurd rfl hne
  intro w₂ _ ho hhanded
  rw [perform_of_done rfl, perform_of_done rfl, wp_modify, wp_modify]
  refine ⟨?_, fun id => ?_, fun k => ?_, fun id => ?_⟩
  · show (w₂.db.deleteMemberships user).deleteUsers [user] = _
    rw [ho.db, h₁.db]
    rfl
  · show id ∈ w₂.canceled ↔ _
    rw [ho.canceled, h₁.canceled]
  · show k ∈ w₂.deletedCustomers ↔ _
    rw [ho.deletedCustomers, h₁.deletedCustomers]
  · refine (hhanded id).trans ?_
    rw [handedOver_congr h₁.batches, h₁.db, OrgDb.orgsCreatedBy_deleteCustomerOf,
      OrgDb.pendingStripeSubIds_deleteCustomerOf]

/-- A request of a user who is gone does nothing. -/
theorem uninterrupted_of_gone (hgone : ¬ ∃ u ∈ w.db.users, u.id = user) :
    Erasing.uninterrupted owned user w = w := by
  have h : wp (Erasing.deleteAccount owned smooth user) (fun _ w' => w' = w) (fun _ w' => w' = w)
      w := by
    unfold Erasing.deleteAccount
    rw [wp_bind, wp_get]
    dsimp only
    rw [if_neg fun hany => hgone (OrgDb.any_users_iff.mp hany)]
    rfl
  exact wp_final_iff.mp h

/-! ### Wherever attempts have ended -/

/-- One more request leaves what a single one does. -/
theorem Progress.uninterrupted_db (h : Progress owned user w₀ w)
    (huser : ∃ u ∈ w₀.db.users, u.id = user) :
    (Erasing.uninterrupted owned user w).db = w₀.db.eraseAccount user := by
  by_cases hpresent : ∃ u ∈ w.db.users, u.id = user
  · rw [(uninterrupted_finished hpresent).db]
    cases h with
    | untouched _ hdb => rw [hdb]
    | past h =>
      cases h.db with
      | customer hdb => rw [hdb, OrgDb.eraseAccount_deleteCustomerOf]
      | orgs hdb => rw [hdb, OrgDb.eraseAccount_withoutOrgs]
      | memberships hdb => rw [hdb, OrgDb.eraseAccount_deleteMemberships]
      | user hdb =>
        rw [hdb] at hpresent
        exact absurd hpresent (w₀.db.not_mem_eraseAccount user)
  · rw [uninterrupted_of_gone hpresent]
    cases h with
    | untouched _ hdb =>
      rw [hdb] at hpresent
      exact absurd huser hpresent
    | past h =>
      cases h.db with
      | customer hdb =>
        rw [hdb, OrgDb.deleteCustomerOf_users] at hpresent
        exact absurd huser hpresent
      | orgs hdb =>
        -- the row of the account has gone with its organizations
        rw [hdb] at hpresent ⊢
        exact (OrgDb.eraseAccount_of_gone huser hpresent).2.symm
      | memberships hdb =>
        rw [hdb] at hpresent ⊢
        have hgone := OrgDb.eraseAccount_of_gone huser hpresent
        exact hgone.1.trans hgone.2.symm
      | user hdb => exact hdb

/-- Where the account is gone, the attempts are past the first commit. -/
theorem Progress.of_erased (h : Progress owned user w₀ w)
    (huser : ∃ u ∈ w₀.db.users, u.id = user) (hdb : w.db = w₀.db.eraseAccount user) :
    CustomerGone owned user w₀ w := by
  cases h with
  | untouched _ hsame =>
    rw [← hsame, hdb] at huser
    exact absurd huser (w₀.db.not_mem_eraseAccount user)
  | past h => exact h

/-- What is claimed of the database and of the customers, and the bounds on what is
cancelled. -/
structure Resumed (owned : String → List String) (user : UUID) (w₀ w : ErasureWorld p) : Prop where
  db : w.db = w₀.db.eraseAccount user
  deletedCustomers : ∀ k, k ∈ w.deletedCustomers ↔
    k ∈ w₀.deletedCustomers ∨ ∃ c, w₀.db.customerByUserId user = some c ∧ c.stripeId = k
  canceledFirst : ∀ id, CancelsFirst owned w₀ user id → id ∈ w.canceled
  canceled : ∀ id ∈ w.canceled, CancelsFirst owned w₀ user id ∨ ReachedLater w₀.db user id
  handedOver : ∀ id, w.HandedOver id →
    w₀.HandedOver id ∨ id ∈ w₀.db.pendingStripeSubIds (w₀.db.orgsCreatedBy user)

theorem resumed_resumed (huser : ∃ u ∈ w₀.db.users, u.id = user)
    (os : List (ErasureStep → Outcome)) :
    Resumed owned user w₀ (Erasing.resumed owned user os w₀) := by
  have h : Progress owned user w₀ (repeated (fun o => Erasing.deleteAccount owned o user) os w₀) :=
    repeated_of_keeps (fun o => progress_keeps owned o user w₀) (progress_refl w₀) os
  have hdb : (Erasing.resumed owned user os w₀).db = w₀.db.eraseAccount user :=
    h.uninterrupted_db huser
  have hend : Progress owned user w₀ (Erasing.resumed owned user os w₀) :=
    (progress_keeps owned smooth user w₀).final h
  have hpast := hend.of_erased huser hdb
  refine ⟨hdb, fun k => ?_, hpast.canceled, hpast.tracked.canceled, hpast.tracked.handedOver⟩
  constructor
  · exact hpast.tracked.deletedCustomers k
  · rintro (hk | ⟨c, hc, rfl⟩)
    · exact hpast.tracked.keptCustomers k hk
    · exact hpast.deletedCustomers c hc

/-! ### Attempts that end after the first commit -/

/-- An attempt that has ended at `db`. -/
structure EndedAt (owned : String → List String) (user : UUID) (db : OrgDb p)
    (w w' : ErasureWorld p) : Prop where
  db : w'.db = db
  canceled : ∀ id, id ∈ w'.canceled ↔ CancelsFirst owned w user id

theorem final_of_preDelete {P : ErasureWorld p → Prop} (hpresent : ∃ u ∈ w.db.users, u.id = user)
    (hcancel : o .cancelSubscription = .done) (hstripe : o .deleteStripeCustomer = .done)
    (hcustomer : o .deleteCustomer = .done)
    (hrest : ∀ w', CustomerErased owned user w w' →
      wp (Erasing.preDelete o user) (fun _ _ => False) (fun _ => P) w') :
    P (final (Erasing.deleteAccount owned o user) w) := by
  apply wp_final_iff.mp
  apply wp_deleteAccount_of_done hpresent hcancel hstripe hcustomer
  intro w' h
  exact wp_mono (hrest w' h) (fun _ _ hfalse => hfalse.elim) fun _ _ hP => hP

/-- The outcomes of an attempt that ends before the organizations are deleted. -/
def orgsFail : ErasureStep → Outcome
  | .deleteOrgs | .deleteMemberships => .failed
  | _ => .done

theorem ended_orgsFail (hpresent : ∃ u ∈ w.db.users, u.id = user) :
    EndedAt owned user (w.db.deleteCustomerOf user) w
      (final (Erasing.deleteAccount owned orgsFail user) w) := by
  apply final_of_preDelete hpresent rfl rfl rfl
  intro w₁ h₁
  unfold Erasing.preDelete
  rw [wp_bind]
  apply Erasing.wp_deleteOrgsCreatedByUser
  case hlost => exact fun _ hne => by cases hne
  case henqueue => exact fun _ hne => absurd rfl hne
  case hfailed => exact fun _ _ => ⟨h₁.db, h₁.canceled⟩
  intro w₂ hdone ho _
  have horgs : w₁.db.orgsCreatedBy user = [] := by
    by_contra hne
    cases hdone hne
  have hend : EndedAt owned user (w.db.deleteCustomerOf user) w w₂ := by
    refine ⟨?_, fun id => ?_⟩
    · rw [ho.db, OrgDb.deleteOrgsCreatedByUser_eq_self horgs, h₁.db]
    · rw [ho.canceled, h₁.canceled]
  apply wp_perform
  · exact nofun
  · exact fun _ => hend
  · exact nofun

/-- Of one that ends with the organizations deleted. -/
def membershipsFail : ErasureStep → Outcome
  | .deleteMemberships => .failed
  | _ => .done

theorem ended_membershipsFail (hpresent : ∃ u ∈ w.db.users, u.id = user) :
    EndedAt owned user (w.db.withoutOrgs user) w
      (final (Erasing.deleteAccount owned membershipsFail user) w) := by
  apply final_of_preDelete hpresent rfl rfl rfl
  intro w₁ h₁
  unfold Erasing.preDelete
  rw [wp_bind]
  apply Erasing.wp_deleteOrgsCreatedByUser
  case hfailed => exact fun hne => by cases hne
  case hlost => exact fun _ hne => by cases hne
  case henqueue => exact fun _ hne => absurd rfl hne
  intro w₂ _ ho _
  have hend : EndedAt owned user (w.db.withoutOrgs user) w w₂ := by
    refine ⟨?_, fun id => ?_⟩
    · rw [ho.db, h₁.db]
      rfl
    · rw [ho.canceled, h₁.canceled]
  apply wp_perform
  · exact nofun
  · exact fun _ => hend
  · exact nofun

/-- Of one that ends right after the commit of the organizations. -/
def orgsLost : ErasureStep → Outcome
  | .deleteOrgs => .lost
  | _ => .done

theorem ended_orgsLost (hpresent : ∃ u ∈ w.db.users, u.id = user)
    (horgs : w.db.orgsCreatedBy user ≠ []) :
    EndedAt owned user (w.db.withoutOrgs user) w
        (final (Erasing.deleteAccount owned orgsLost user) w) ∧
      (final (Erasing.deleteAccount owned orgsLost user) w).batches = w.batches := by
  apply final_of_preDelete (P := fun w' => EndedAt owned user (w.db.withoutOrgs user) w w' ∧
    w'.batches = w.batches) hpresent rfl rfl rfl
  intro w₁ h₁
  unfold Erasing.preDelete
  rw [wp_bind]
  apply Erasing.wp_deleteOrgsCreatedByUser
  case hfailed => exact fun hne => by cases hne
  case henqueue => exact fun _ hne => absurd rfl hne
  case hlost =>
    intro w₂ _ ho hbatches
    refine ⟨⟨?_, fun id => ?_⟩, hbatches.trans h₁.batches⟩
    · rw [ho.db, h₁.db]
      rfl
    · rw [ho.canceled, h₁.canceled]
  intro w₂ hdone
  rw [← @OrgDb.orgsCreatedBy_deleteCustomerOf p w.db, ← h₁.db] at horgs
  cases hdone horgs

/-! ### What a retry does not reach -/

namespace OrgDb

variable {db : OrgDb p}

theorem getActiveForUser_mem {s : Subscription} (h : db.getActiveForUser user = some s) :
    s ∈ db.subscriptions := by
  have hbyUser : ∀ {s}, Table.latest? Subscription.createdAt (db.subscriptions.filter fun s =>
      s.status.isActive && s.userId = some user) = some s → s ∈ db.subscriptions :=
    fun h => (List.mem_filter.mp (Table.mem_of_latest? h)).1
  have hbyCustomer : ∀ {s}, Table.latest? Subscription.createdAt (db.activeSubsOf (.user user))
      = some s → s ∈ db.subscriptions :=
    fun h => (List.mem_filter.mp (Table.mem_of_latest? h)).1
  unfold OrgTables.getActiveForUser at h
  dsimp only at h
  split at h
  · rename_i s₁ s₂ h₁ h₂
    obtain rfl := Option.some.inj h
    split
    · exact hbyCustomer h₂
    · exact hbyUser h₁
  · exact hbyCustomer h
  · exact hbyUser h

/-- The rows of what is handed over go with the organizations. -/
theorem not_mem_deleteOrgsCreatedByUser
    (hunique : Table.Unique Subscription.stripeId db.subscriptions)
    (hpending : id ∈ db.pendingStripeSubIds (db.orgsCreatedBy user)) :
    ∀ s ∈ (db.deleteOrgsCreatedByUser user).subscriptions, s.stripeId ≠ some id := by
  obtain ⟨org, horg, hactive⟩ := List.mem_filterMap.mp hpending
  obtain ⟨s₀, hs₀, hid₀⟩ := Option.bind_eq_some_iff.mp hactive
  have horgs : db.orgsCreatedBy user ≠ [] := List.ne_nil_of_mem horg
  rw [deleteOrgsCreatedByUser_of_ne_nil horgs]
  intro s hs hid
  obtain ⟨hs, hkept⟩ := OrgTables.mem_eraseOrgs_subscriptions.mp hs
  obtain rfl := hunique.inj hs (getActiveStripeSub_mem hs₀) hid hid₀
  -- the row is the one of the organization
  have hfor := (List.mem_filter.mp (List.mem_filter.mp (Table.mem_of_latest? hs₀)).1).2
  obtain ⟨c, hc, heq⟩ := List.any_eq_true.mp (Bool.and_eq_true_iff.mp hfor).2
  obtain ⟨hsc, howner⟩ := of_decide_eq_true heq
  have hnot := (Bool.or_eq_false_iff.mp hkept).2
  have := List.any_eq_false.mp hnot c hc
  simp [hsc, howner, Owner.orgId, horg] at this

theorem deleteCustomerOf_subscriptions :
    (db.deleteCustomerOf user).subscriptions.Sublist db.subscriptions := by
  unfold deleteCustomerOf
  split
  · exact List.Sublist.refl _
  · exact List.filter_sublist

theorem activeStripeId_withoutOrgs_ne
    (hunique : Table.Unique Subscription.stripeId db.subscriptions)
    (hpending : id ∈ db.pendingStripeSubIds (db.orgsCreatedBy user)) :
    (db.withoutOrgs user).activeStripeId user ≠ some id := by
  intro hactive
  obtain ⟨s, hs, hid⟩ := Option.bind_eq_some_iff.mp hactive
  rw [← @pendingStripeSubIds_deleteCustomerOf p db user,
    ← @orgsCreatedBy_deleteCustomerOf p db user] at hpending
  exact not_mem_deleteOrgsCreatedByUser (hunique.of_sublist deleteCustomerOf_subscriptions) hpending
    s (getActiveForUser_mem hs) hid

end OrgDb

/-! ### The deletion, resumed -/

/-- Attempts, and then one that nothing interrupts, end as a single one does; and an
attempt that ends before its first commit leaves the database as it was. -/
structure Resumable (owned : String → List String) (w : ErasureWorld p) (user : UUID) : Prop where
  db : ∀ os, (Erasing.resumed owned user os w).db = (Erasing.uninterrupted owned user w).db
  reached : ∀ os id, (Erasing.resumed owned user os w).Reached id ↔
    (Erasing.uninterrupted owned user w).Reached id
  before : ∀ o e w', Erasing.deleteAccount owned o user w = .error e w' →
    EndsBefore o (w.db.firstCommit user) e → w'.db = w.db

theorem not_handedOver (h : w.batches = []) (id : String) : ¬ w.HandedOver id := by
  rintro ⟨batch, hbatch, -⟩
  rw [h] at hbatch
  cases hbatch

/-- Where nothing is left after the first commit, exactly what comes before it is
cancelled. -/
theorem Resumed.reached_iff (h : Resumed owned user w₀ w) (hbatches : w₀.batches = [])
    (hall : AllCanceledFirst owned w₀ user) : w.Reached id ↔ CancelsFirst owned w₀ user id := by
  constructor
  · rintro (hid | hid)
    · rcases h.canceled id hid with hid | hid
      · exact hid
      · exact hall id hid
    · have hpending := (h.handedOver id hid).resolve_left (not_handedOver hbatches id)
      exact hall id (Or.inl hpending)
  · exact fun hid => Or.inl (h.canceledFirst id hid)

theorem Finished.reached_iff (h : Finished owned user w₀ w) (hbatches : w₀.batches = []) :
    w.Reached id ↔ CancelsFirst owned w₀ user id ∨
      id ∈ w₀.db.pendingStripeSubIds (w₀.db.orgsCreatedBy user) := by
  apply or_congr (h.canceled id)
  rw [h.handedOver, or_iff_right (not_handedOver hbatches id)]

/-- A request cancels what it finds active. -/
theorem uninterrupted_reached (hpresent : ∃ u ∈ w.db.users, u.id = user)
    (hactive : w.db.activeStripeId user = some id) :
    (Erasing.uninterrupted owned user w).Reached id := by
  apply Or.inl
  apply ((uninterrupted_finished hpresent).canceled id).mpr
  exact Or.inr (Or.inl hactive)

section Runs

variable (huser : ∃ u ∈ w.db.users, u.id = user) (hbatches : w.batches = [])
  (hreached : ∀ os id, (Erasing.resumed owned user os w).Reached id ↔
    (Erasing.uninterrupted owned user w).Reached id)

include huser hbatches hreached

/-- What is handed over is lost with the rows it is read from. -/
theorem cancelsFirst_of_pending (hunique : Table.Unique Subscription.stripeId w.db.subscriptions)
    (hpending : id ∈ w.db.pendingStripeSubIds (w.db.orgsCreatedBy user)) :
    CancelsFirst owned w user id := by
  obtain ⟨org, horg, -⟩ := List.mem_filterMap.mp hpending
  obtain ⟨hended, hquiet⟩ : EndedAt owned user (w.db.withoutOrgs user) w _ ∧ _ :=
    ended_orgsLost huser (List.ne_nil_of_mem horg)
  have hfinished : Finished owned user w _ := uninterrupted_finished huser
  have hlater : (Erasing.uninterrupted owned user
      (final (Erasing.deleteAccount owned orgsLost user) w)).Reached id :=
    (hreached [orgsLost] id).mpr ((hfinished.reached_iff hbatches).mpr (Or.inr hpending))
  rw [hbatches] at hquiet
  generalize final (Erasing.deleteAccount owned orgsLost user) w = w₁ at hended hquiet hlater
  by_cases hpresent : ∃ u ∈ w₁.db.users, u.id = user
  · have hfinished₁ : Finished owned user w₁ _ := uninterrupted_finished hpresent
    rcases (hfinished₁.reached_iff hquiet).mp hlater with
      (hid | hid | ⟨c, hc, -⟩) | hid
    · exact (hended.canceled id).mp hid
    · rw [hended.db] at hid
      exact absurd hid (OrgDb.activeStripeId_withoutOrgs_ne hunique hpending)
    · rw [hended.db, OrgDb.customerByUserId_withoutOrgs] at hc
      cases hc
    · rw [hended.db, OrgDb.orgsCreatedBy_withoutOrgs] at hid
      cases hid
  · rw [uninterrupted_of_gone hpresent] at hlater
    rcases hlater with hid | hid
    · exact (hended.canceled id).mp hid
    · exact absurd hid (not_handedOver hquiet id)

/-- A request after an attempt that has ended at `db'` cancels what is active there. -/
theorem cancelsFirst_of_active (hunique : Table.Unique Subscription.stripeId w.db.subscriptions)
    {db' : OrgDb p}
    (hended : EndedAt owned user db' w (final (Erasing.deleteAccount owned o user) w))
    (hpresent : ∃ u ∈ db'.users, u.id = user) (hactive : db'.activeStripeId user = some id) :
    CancelsFirst owned w user id := by
  have hlater : (Erasing.resumed owned user [o] w).Reached id := by
    apply uninterrupted_reached
    · show ∃ u ∈ (final (Erasing.deleteAccount owned o user) w).db.users, u.id = user
      rw [hended.db]
      exact hpresent
    · show (final (Erasing.deleteAccount owned o user) w).db.activeStripeId user = some id
      rw [hended.db]
      exact hactive
  have hfinished : Finished owned user w _ := uninterrupted_finished huser
  rcases (hfinished.reached_iff hbatches).mp ((hreached [o] id).mp hlater) with hid | hid
  · exact hid
  · exact cancelsFirst_of_pending huser hbatches hreached hunique hid

theorem allCanceledFirst_of_reached
    (hunique : Table.Unique Subscription.stripeId w.db.subscriptions) :
    AllCanceledFirst owned w user := by
  rintro id (hpending | hactive | hactive)
  · exact cancelsFirst_of_pending huser hbatches hreached hunique hpending
  · apply cancelsFirst_of_active huser hbatches hreached hunique (ended_orgsFail huser) ?_ hactive
    rw [OrgDb.deleteCustomerOf_users]
    exact huser
  · -- an account that is gone has no subscription
    have hpresent : ∃ u ∈ (w.db.withoutOrgs user).users, u.id = user := by
      by_contra hgone
      have hnone := OrgDb.getActiveForUser_eq_none OrgDb.customerByUserId_withoutOrgs
        (OrgDb.userId_ne_of_gone huser hgone)
      unfold OrgTables.activeStripeId at hactive
      rw [hnone] at hactive
      cases hactive
    exact cancelsFirst_of_active huser hbatches hreached hunique (ended_membershipsFail huser)
      hpresent hactive

end Runs

/-- **Deletions that are resumed.**  However often the deletion of an account is
interrupted, it ends with the same database and the same customers deleted at Stripe;
with the same subscriptions cancelled or handed over exactly where none is left to be
cancelled after the first commit. -/
theorem deletion_resumes_iff (owned : String → List String) (db : Store p) (user : UUID)
    (canceled deletedCustomers : List String) (huser : ∃ u ∈ db.org.users, u.id = user) :
    let w : ErasureWorld p := ⟨db.org, canceled, deletedCustomers, []⟩
    (Resumable owned w user ↔ AllCanceledFirst owned w user) ∧
      (∀ os, (Erasing.resumed owned user os w).db = (Erasing.uninterrupted owned user w).db ∧
        ∀ k, k ∈ (Erasing.resumed owned user os w).deletedCustomers ↔
          k ∈ (Erasing.uninterrupted owned user w).deletedCustomers) ∧
      db.org.deleteAccount user = .ok (Erasing.uninterrupted owned user w).db ∧
      ∀ o e w', Erasing.deleteAccount owned o user w = .error e w' →
        EndsBefore o (w.db.firstCommit user) e → w'.db = w.db := by
  intro w
  have hfinished : Finished owned user w (Erasing.uninterrupted owned user w) :=
    uninterrupted_finished huser
  have hresumed : ∀ os, Resumed owned user w (Erasing.resumed owned user os w) :=
    fun os => resumed_resumed huser os
  have hdb : ∀ os, (Erasing.resumed owned user os w).db
      = (Erasing.uninterrupted owned user w).db :=
    fun os => (hresumed os).db.trans hfinished.db.symm
  have hbefore : ∀ o e w', Erasing.deleteAccount owned o user w = .error e w' →
      EndsBefore o (w.db.firstCommit user) e → w'.db = w.db := by
    intro o e w' herror
    have h := deleteAccount_before owned o user w
    unfold wp at h
    rw [herror] at h
    exact h
  refine ⟨⟨fun h => ?_, fun h => ?_⟩, fun os => ⟨hdb os, fun k => ?_⟩, ?_, hbefore⟩
  · exact allCanceledFirst_of_reached huser rfl h.reached db.uniq_stripe_id
  · refine ⟨hdb, fun os id => ?_, hbefore⟩
    rw [(hresumed os).reached_iff rfl h, hfinished.reached_iff rfl]
    exact ⟨Or.inl, fun hid => hid.elim (fun hid => hid) fun hid => h id (Or.inl hid)⟩
  · rw [(hresumed os).deletedCustomers, hfinished.deletedCustomers]
  · rw [hfinished.db]
    exact OrgDb.deleteAccount_eq_ok huser

/-! ### An organization whose batch is lost -/

/-- User 1 has created organization 3, which pays with a customer of its own, and is a
member of organization 4 as well. -/
def sampleErasureTables (status : SubscriptionStatus) : OrgTables where
  users := [⟨1, "ann@acme.io"⟩, ⟨2, "bob@acme.io"⟩]
  orgs := [⟨3, "Acme", "acme", some 1⟩, ⟨4, "Beta", "beta", some 2⟩]
  members := [⟨5, 3, 1, .owner, true⟩, ⟨6, 4, 2, .owner, true⟩, ⟨7, 4, 1, .member, false⟩]
  invitations := []
  customers := [⟨8, "cus_ann", .user 1⟩, ⟨9, "cus_acme", .org 3⟩]
  subscriptions := [⟨10, some "sub_ann", some 8, some 1, .active, 1, 1, none, 0, 100, none, none,
      none, none, "usd", 0⟩,
    ⟨11, some "sub_acme", some 9, none, status, 1, 1, none, 0, 100, none, none, none, none,
      "usd", 0⟩]
  nextKey := 12

def sampleErasureStore (status : SubscriptionStatus) : Store wordPlatform where
  org := ⟨sampleErasureTables status, by
    constructor <;> simp [sampleErasureTables, Table.Unique, OrgMember.ownedBy]
    decide⟩
  catalog := sampleDb.catalog
  uniq_stripe_id := by simp [sampleErasureTables, Table.Unique]

def sampleErasure (status : SubscriptionStatus) : ErasureWorld wordPlatform :=
  ⟨(sampleErasureStore status).org, [], [], []⟩

/-- What Stripe has for the customer of user 1. -/
def sampleOwned (customer : String) : List String :=
  if customer = "cus_ann" then ["sub_ann"] else []

theorem deletion_resumes_canceled : Resumable sampleOwned (sampleErasure .canceled) 1 := by
  apply (deletion_resumes_iff sampleOwned (sampleErasureStore .canceled) 1 [] []
    (by decide)).1.mpr
  rintro id (hpending | hactive | hactive)
  · have hnone : (sampleErasureStore .canceled).org.pendingStripeSubIds
        ((sampleErasureStore .canceled).org.orgsCreatedBy 1) = [] := by decide
    rw [hnone] at hpending
    cases hpending
  · have hnone : ((sampleErasureStore .canceled).org.deleteCustomerOf 1).activeStripeId 1
        = none := by decide
    cases hnone.symm.trans hactive
  · have hnone : ((sampleErasureStore .canceled).org.withoutOrgs 1).activeStripeId 1
        = none := by decide
    cases hnone.symm.trans hactive

/-- The task cannot be enqueued. -/
def enqueueFails : ErasureStep → Outcome
  | .enqueue => .failed
  | _ => .done

/-- The retry completes, but the subscription of the organization bills on. -/
theorem batch_lost : ¬ Resumable sampleOwned (sampleErasure .active) 1 := by
  intro h
  have hhanded : (Erasing.uninterrupted sampleOwned 1 (sampleErasure .active)).batches
      = [["sub_acme"]] := by decide +kernel
  have hcanceled : "sub_acme" ∉
      (Erasing.resumed sampleOwned 1 [enqueueFails] (sampleErasure .active)).canceled := by
    decide +kernel
  have hnone : (Erasing.resumed sampleOwned 1 [enqueueFails] (sampleErasure .active)).batches
      = [] := by decide +kernel
  have hreached : (Erasing.uninterrupted sampleOwned 1 (sampleErasure .active)).Reached
      "sub_acme" := by
    apply Or.inr
    refine ⟨["sub_acme"], ?_, List.mem_singleton_self _⟩
    rw [hhanded]
    exact List.mem_singleton_self _
  rcases (h.reached [enqueueFails] "sub_acme").mpr hreached with hid | hid
  · exact hcanceled hid
  · exact not_handedOver hnone _ hid

end Saasmint
