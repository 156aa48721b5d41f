/-
Saasmint/Orgs/ErasureRetries.lean

The deletion of an account, attempted again and again: what the parts of an attempt
do, that an attempt which ends before its first commit leaves the database as it was
(`deleteAccount_before`), and where attempts can have ended (`progress_keeps`).
-/
import Saasmint.Orgs.ErasureSteps

namespace Saasmint

open Programs Attempts

variable {p : Platform} {owned : String → List String} {o : ErasureStep → Outcome} {user : UUID}
  {w w' w₀ : ErasureWorld p} {id : String}

/-! ### Calls of Stripe -/

namespace ErasureWorld

theorem mem_cancelSubscription {id' : String} :
    id' ∈ (stripeRequest (fun w => w.cancelSubscription id) w).canceled ↔
      id' ∈ w.canceled ∨ id' = id := by
  unfold stripeRequest cancelSubscription
  dsimp only
  split
  · rename_i hid
    constructor
    · exact Or.inl
    · rintro (h | rfl)
      · exact h
      · exact hid
  · show id' ∈ w.canceled ++ [id] ↔ _
    rw [List.mem_append, List.mem_singleton]

/-- A cancellation changes nothing else. -/
theorem cancelSubscription_rest (w : ErasureWorld p) (id : String) :
    (stripeRequest (fun w => w.cancelSubscription id) w).db = w.db ∧
      (stripeRequest (fun w => w.cancelSubscription id) w).deletedCustomers = w.deletedCustomers ∧
      (stripeRequest (fun w => w.cancelSubscription id) w).batches = w.batches := by
  unfold stripeRequest cancelSubscription
  dsimp only
  split <;> exact ⟨rfl, rfl, rfl⟩

variable {customer customer' : String}

theorem mem_deleteStripeCustomer_canceled :
    id ∈ (stripeRequest (fun w => w.deleteStripeCustomer owned customer) w).canceled ↔
      id ∈ w.canceled ∨ customer ∉ w.deletedCustomers ∧ id ∈ owned customer := by
  unfold stripeRequest deleteStripeCustomer
  dsimp only
  split
  · rename_i hgone
    exact ⟨Or.inl, fun h => h.resolve_right fun h => h.1 hgone⟩
  · rename_i hgone
    show id ∈ w.canceled ++ owned customer ↔ _
    rw [List.mem_append]
    exact or_congr_right (and_iff_right hgone).symm

theorem mem_deleteStripeCustomer_deleted :
    customer' ∈ (stripeRequest (fun w => w.deleteStripeCustomer owned customer) w).deletedCustomers
      ↔ customer' ∈ w.deletedCustomers ∨ customer' = customer := by
  unfold stripeRequest deleteStripeCustomer
  dsimp only
  split
  · rename_i hgone
    constructor
    · exact Or.inl
    · rintro (h | rfl)
      · exact h
      · exact hgone
  · show customer' ∈ w.deletedCustomers ++ [customer] ↔ _
    rw [List.mem_append, List.mem_singleton]

theorem deleteStripeCustomer_rest (w : ErasureWorld p) (owned : String → List String)
    (customer : String) :
    (stripeRequest (fun w => w.deleteStripeCustomer owned customer) w).db = w.db ∧
      (stripeRequest (fun w => w.deleteStripeCustomer owned customer) w).batches = w.batches := by
  unfold stripeRequest deleteStripeCustomer
  dsimp only
  split <;> exact ⟨rfl, rfl⟩

end ErasureWorld

/-! ### What each part does -/

/-- `w'` is `w` after the cancellation of `activeSub`. -/
structure CancelDone (activeSub : Option Subscription) (w w' : ErasureWorld p) : Prop where
  db : w'.db = w.db
  canceled : ∀ id, id ∈ w'.canceled ↔
    id ∈ w.canceled ∨ activeSub.bind Subscription.stripeId = some id
  deletedCustomers : w'.deletedCustomers = w.deletedCustomers
  batches : w'.batches = w.batches

/-- The customer is deleted at Stripe. -/
structure CustomerDone (owned : String → List String) (customer : Option StripeCustomer)
    (w w' : ErasureWorld p) : Prop where
  canceled : ∀ id, id ∈ w'.canceled ↔ id ∈ w.canceled ∨
    ∃ c, customer = some c ∧ c.stripeId ∉ w.deletedCustomers ∧ id ∈ owned c.stripeId
  deletedCustomers : ∀ k, k ∈ w'.deletedCustomers ↔
    k ∈ w.deletedCustomers ∨ ∃ c, customer = some c ∧ c.stripeId = k
  batches : w'.batches = w.batches

/-- The organizations are deleted; whether their batch was handed over is left open. -/
structure OrgsDone (user : UUID) (w w' : ErasureWorld p) : Prop where
  db : w'.db = w.db.deleteOrgsCreatedByUser user
  canceled : w'.canceled = w.canceled
  deletedCustomers : w'.deletedCustomers = w.deletedCustomers
  handedOver : ∀ id, w'.HandedOver id →
    w.HandedOver id ∨ id ∈ w.db.pendingStripeSubIds (w.db.orgsCreatedBy user)

namespace Erasing

variable {Q : PUnit → ErasureWorld p → Prop} {E : Stop ErasureStep OrgError → ErasureWorld p → Prop}

theorem wp_cancelActive {activeSub : Option Subscription}
    (hdone : ∀ w', CancelDone activeSub w w' → Q ⟨⟩ w')
    (hstop : ∀ w', o .cancelSubscription ≠ .done → w' = w ∨ CancelDone activeSub w w' →
      E (.step .cancelSubscription) w') : wp (cancelActive o activeSub) Q E w := by
  unfold cancelActive
  rcases h : activeSub.bind Subscription.stripeId with - | id
  · apply hdone w
    exact ⟨rfl, fun id => by simp [h], rfl, rfl⟩
  · obtain ⟨hdb, hdeleted, hbatches⟩ := w.cancelSubscription_rest id
    have hafter : CancelDone activeSub w (.stripeRequest (fun w => w.cancelSubscription id) w) := by
      refine ⟨hdb, fun id' => ?_, hdeleted, hbatches⟩
      rw [ErasureWorld.mem_cancelSubscription, h, Option.some_inj, eq_comm]
    apply wp_perform
    · exact fun _ => hdone _ hafter
    · exact fun ho => hstop _ (by rw [ho]; exact nofun) (Or.inl rfl)
    · exact fun ho => hstop _ (by rw [ho]; exact nofun) (Or.inr hafter)

theorem wp_deleteCustomer {customer : Option StripeCustomer}
    (hcustomer : w.db.customerByUserId user = customer)
    (hdone : ∀ w', CustomerDone owned customer w w' → w'.db = w.db.deleteCustomerOf user → Q ⟨⟩ w')
    (hstripe : ∀ w', o .deleteStripeCustomer ≠ .done → w'.db = w.db →
      w' = w ∨ CustomerDone owned customer w w' → E (.step .deleteStripeCustomer) w')
    (hfailed : ∀ w', o .deleteCustomer = .failed → customer.isSome = true → w'.db = w.db →
      CustomerDone owned customer w w' → E (.step .deleteCustomer) w')
    (hlost : ∀ w', o .deleteCustomer = .lost → customer.isSome = true →
      w'.db = w.db.deleteCustomerOf user → CustomerDone owned customer w w' →
      E (.step .deleteCustomer) w') :
    wp (deleteCustomer owned o customer) Q E w := by
  cases customer with
  | none =>
    apply hdone w
    · exact ⟨fun id => by simp, fun k => by simp, rfl⟩
    · exact (OrgDb.deleteCustomerOf_eq_self hcustomer).symm
  | some c =>
    obtain ⟨hdb, hbatches⟩ := w.deleteStripeCustomer_rest owned c.stripeId
    have hcanceled : ∀ id, id ∈ (ErasureWorld.stripeRequest
        (fun w => w.deleteStripeCustomer owned c.stripeId) w).canceled ↔ id ∈ w.canceled ∨
          ∃ c', some c = some c' ∧ c'.stripeId ∉ w.deletedCustomers ∧ id ∈ owned c'.stripeId := by
      intro id
      rw [ErasureWorld.mem_deleteStripeCustomer_canceled]
      simp
    have hdeleted : ∀ k, k ∈ (ErasureWorld.stripeRequest
        (fun w => w.deleteStripeCustomer owned c.stripeId) w).deletedCustomers ↔
          k ∈ w.deletedCustomers ∨ ∃ c', some c = some c' ∧ c'.stripeId = k := by
      intro k
      rw [ErasureWorld.mem_deleteStripeCustomer_deleted]
      simp [eq_comm]
    have hcommit : (ErasureWorld.stripeRequest
        (fun w => w.deleteStripeCustomer owned c.stripeId) w).db.deleteCustomer c.id
          = w.db.deleteCustomerOf user := by
      rw [hdb, OrgDb.deleteCustomerOf_some hcustomer]
    unfold deleteCustomer
    rw [wp_bind]
    apply wp_perform
    · intro _
      apply wp_perform
      · exact fun _ => hdone _ ⟨hcanceled, hdeleted, hbatches⟩ hcommit
      · exact fun ho => hfailed _ ho rfl hdb ⟨hcanceled, hdeleted, hbatches⟩
      · exact fun ho => hlost _ ho rfl hcommit ⟨hcanceled, hdeleted, hbatches⟩
    · exact fun ho => hstripe _ (by rw [ho]; exact nofun) rfl (Or.inl rfl)
    · exact fun ho => hstripe _ (by rw [ho]; exact nofun) hdb
        (Or.inr ⟨hcanceled, hdeleted, hbatches⟩)

theorem wp_deleteOrgsCreatedByUser
    (hdone : ∀ w', (w.db.orgsCreatedBy user ≠ [] → o .deleteOrgs = .done) → OrgsDone user w w' →
      (∀ id, w'.HandedOver id ↔
        w.HandedOver id ∨ id ∈ w.db.pendingStripeSubIds (w.db.orgsCreatedBy user)) → Q ⟨⟩ w')
    (hfailed : o .deleteOrgs = .failed → w.db.orgsCreatedBy user ≠ [] → E (.step .deleteOrgs) w)
    (hlost : ∀ w', o .deleteOrgs = .lost → OrgsDone user w w' → w'.batches = w.batches →
      E (.step .deleteOrgs) w')
    (henqueue : ∀ w', o .enqueue ≠ .done → OrgsDone user w w' → E (.step .enqueue) w') :
    wp (deleteOrgsCreatedByUser o user) Q E w := by
  unfold deleteOrgsCreatedByUser
  rw [wp_bind, wp_get]
  dsimp only
  by_cases horgs : w.db.orgsCreatedBy user = []
  · rw [if_pos horgs]
    have hpending : w.db.pendingStripeSubIds (w.db.orgsCreatedBy user) = [] := by
      rw [horgs]
      rfl
    apply hdone w
    · exact fun hne => absurd horgs hne
    · exact ⟨(OrgDb.deleteOrgsCreatedByUser_eq_self horgs).symm, rfl, rfl, fun _ h => Or.inl h⟩
    · intro id
      rw [hpending]
      exact (or_iff_left List.not_mem_nil).symm
  · rw [if_neg horgs, wp_bind]
    have hdb := OrgDb.deleteOrgsCreatedByUser_of_ne_nil horgs
    have hquiet : OrgsDone user w { w with
        db := w.db.eraseOrgs (w.db.orgsCreatedBy user)
          (w.db.deletableUserIds (w.db.orgsCreatedBy user)) } :=
      ⟨hdb.symm, rfl, rfl, fun _ h => Or.inl h⟩
    apply wp_perform
    · intro ho
      by_cases hpending : w.db.pendingStripeSubIds (w.db.orgsCreatedBy user) = []
      · rw [if_pos hpending]
        apply hdone _ (fun _ => ho) hquiet
        intro id
        rw [hpending]
        exact (or_iff_left List.not_mem_nil).symm
      · rw [if_neg hpending]
        have hhanded : ∀ id, ErasureWorld.HandedOver { w with
            db := w.db.eraseOrgs (w.db.orgsCreatedBy user)
              (w.db.deletableUserIds (w.db.orgsCreatedBy user))
            batches := w.batches ++ [w.db.pendingStripeSubIds (w.db.orgsCreatedBy user)] } id ↔
              w.HandedOver id ∨ id ∈ w.db.pendingStripeSubIds (w.db.orgsCreatedBy user) := by
          intro id
          simp [ErasureWorld.HandedOver, or_and_right, exists_or]
        have hafter : OrgsDone user w { w with
            db := w.db.eraseOrgs (w.db.orgsCreatedBy user)
              (w.db.deletableUserIds (w.db.orgsCreatedBy user))
            batches := w.batches ++ [w.db.pendingStripeSubIds (w.db.orgsCreatedBy user)] } :=
          ⟨hdb.symm, rfl, rfl, fun id h => (hhanded id).mp h⟩
        apply wp_perform
        · exact fun _ => hdone _ (fun _ => ho) hafter hhanded
        · exact fun ho => henqueue _ (by rw [ho]; exact nofun) hquiet
        · exact fun ho => henqueue _ (by rw [ho]; exact nofun) hafter
    · exact fun ho => hfailed ho horgs
    · exact fun ho => hlost _ ho hquiet rfl

end Erasing

/-! ### Before the first commit -/

theorem firstCommit_cases (t : OrgTables) (user : UUID) :
    t.firstCommit user = .deleteCustomer ∨
      t.customerByUserId user = none ∧ (t.firstCommit user = .deleteOrgs ∨
        t.firstCommit user = .deleteMemberships ∧ t.orgsCreatedBy user = []) := by
  unfold OrgTables.firstCommit
  rcases h : t.customerByUserId user with - | c
  · by_cases horgs : t.orgsCreatedBy user = []
    · exact Or.inr ⟨rfl, Or.inr ⟨by simp [horgs], horgs⟩⟩
    · exact Or.inr ⟨rfl, Or.inl (by simp [horgs])⟩
  · exact Or.inl rfl

/-- A step that is neither a call of Stripe nor the first commit is after it, and so
is a step whose effect is there. -/
theorem not_endsBefore {k first : ErasureStep} (hcancel : k ≠ .cancelSubscription)
    (hstripe : k ≠ .deleteStripeCustomer) (h : k ≠ first ∨ o k = .lost) :
    ¬ EndsBefore o first (.step k) := by
  rintro (hk | hk | ⟨hk, hfailed⟩)
  · exact hcancel hk
  · exact hstripe hk
  · rcases h with hne | hlost
    · exact hne hk
    · cases hlost.symm.trans hfailed

theorem EndsBefore.eq_first {k first : ErasureStep} (h : EndsBefore o first (.step k))
    (hcancel : k ≠ .cancelSubscription) (hstripe : k ≠ .deleteStripeCustomer) : k = first := by
  by_contra hne
  exact not_endsBefore hcancel hstripe (Or.inl hne) h

/-- An attempt that ends before its first commit leaves the database as it was. -/
theorem deleteAccount_before (owned : String → List String)
    (o : ErasureStep → Outcome) (user : UUID)
    (w : ErasureWorld p) :
    wp (Erasing.deleteAccount owned o user) (fun _ _ => True)
      (fun e w' => EndsBefore o (w.db.firstCommit user) e → w'.db = w.db) w := by
  have hfirst := firstCommit_cases w.db.toOrgTables user
  have hlater : ∀ k, k = .enqueue ∨ k = .deleteUser → k ≠ w.db.firstCommit user := by
    rintro k hk rfl
    rcases hfirst with h | ⟨-, h | ⟨h, -⟩⟩ <;> rcases hk with hk | hk <;> cases h.symm.trans hk
  unfold Erasing.deleteAccount
  rw [wp_bind, wp_get]
  dsimp only
  split
  case isFalse => exact fun _ => rfl
  simp only [wp_bind]
  apply Erasing.wp_cancelActive
  case hstop =>
    rintro w' - (rfl | h) -
    · rfl
    · exact h.db
  intro w₁ hcancel
  have hstart : w₁.db = w.db := hcancel.db
  apply Erasing.wp_deleteCustomer (congrArg (fun db => db.customerByUserId user) hstart)
  case hstripe => exact fun w' _ hdb _ _ => hdb.trans hstart
  case hfailed => exact fun w' _ _ hdb _ _ => hdb.trans hstart
  case hlost =>
    exact fun w' ho _ _ _ h => absurd h (not_endsBefore (by decide) (by decide) (Or.inr ho))
  intro w₂ _ hdb₂
  -- a later step is the first commit where the user has no customer
  have hsame : w.db.firstCommit user ≠ .deleteCustomer → w₂.db = w.db := by
    intro hne
    rw [hdb₂, hstart]
    exact OrgDb.deleteCustomerOf_eq_self (hfirst.resolve_left hne).1
  unfold Erasing.preDelete
  rw [wp_bind]
  apply Erasing.wp_deleteOrgsCreatedByUser
  case hfailed =>
    intro _ _ h
    apply hsame
    rw [← h.eq_first (by decide) (by decide)]
    decide
  case hlost =>
    exact fun w' ho _ _ h => absurd h (not_endsBefore (by decide) (by decide) (Or.inr ho))
  case henqueue =>
    exact fun w' _ _ h =>
      absurd h (not_endsBefore (by decide) (by decide) (Or.inl (hlater _ (Or.inl rfl))))
  intro w₃ _ horgs _
  apply wp_perform
  · intro _
    apply wp_perform
    · exact fun _ => trivial
    · exact fun _ h => absurd h
        (not_endsBefore (by decide) (by decide) (Or.inl (hlater _ (Or.inr rfl))))
    · exact fun ho h => absurd h (not_endsBefore (by decide) (by decide) (Or.inr ho))
  · intro _ h
    -- the user has no customer and has created no organization
    have hmemberships := h.eq_first (by decide) (by decide)
    have hnone : w.db.orgsCreatedBy user = [] := by
      rcases hfirst with hfirst | ⟨-, hfirst | ⟨-, hnone⟩⟩
      · cases hmemberships.trans hfirst
      · cases hmemberships.trans hfirst
      · exact hnone
    rw [horgs.db, hsame (by rw [← hmemberships]; decide)]
    exact OrgDb.deleteOrgsCreatedByUser_eq_self hnone
  · exact fun ho h => absurd h (not_endsBefore (by decide) (by decide) (Or.inr ho))

/-! ### Where attempts end -/

/-- The database after the first commit, of a deletion that began at `db`. -/
inductive PastFirst (db : OrgDb p) (user : UUID) (db' : OrgDb p) : Prop
  | customer (h : db' = db.deleteCustomerOf user)
  | orgs (h : db' = db.withoutOrgs user)
  | memberships (h : db' = (db.withoutOrgs user).deleteMemberships user)
  | user (h : db' = db.eraseAccount user)

/-- What attempts from `w₀` have cancelled, deleted at Stripe and handed over. -/
structure Tracked (owned : String → List String) (user : UUID) (w₀ w : ErasureWorld p) : Prop where
  kept : ∀ id ∈ w₀.canceled, id ∈ w.canceled
  canceled : ∀ id ∈ w.canceled, CancelsFirst owned w₀ user id ∨ ReachedLater w₀.db user id
  keptCustomers : ∀ k ∈ w₀.deletedCustomers, k ∈ w.deletedCustomers
  deletedCustomers : ∀ k ∈ w.deletedCustomers,
    k ∈ w₀.deletedCustomers ∨ ∃ c, w₀.db.customerByUserId user = some c ∧ c.stripeId = k
  owned : ∀ c, w₀.db.customerByUserId user = some c → c.stripeId ∈ w.deletedCustomers →
    c.stripeId ∉ w₀.deletedCustomers → ∀ id ∈ owned c.stripeId, id ∈ w.canceled
  handedOver : ∀ id, w.HandedOver id →
    w₀.HandedOver id ∨ id ∈ w₀.db.pendingStripeSubIds (w₀.db.orgsCreatedBy user)

/-- The attempts have come past the first commit of a user with a customer, or past
what would be before it. -/
structure CustomerGone (owned : String → List String) (user : UUID) (w₀ w : ErasureWorld p) :
    Prop where
  tracked : Tracked owned user w₀ w
  canceled : ∀ id, CancelsFirst owned w₀ user id → id ∈ w.canceled
  deletedCustomers : ∀ c, w₀.db.customerByUserId user = some c → c.stripeId ∈ w.deletedCustomers
  db : PastFirst w₀.db user w.db

/-- Where attempts from `w₀` can have ended. -/
inductive Progress (owned : String → List String) (user : UUID) (w₀ w : ErasureWorld p) : Prop
  | untouched (htracked : Tracked owned user w₀ w) (hdb : w.db = w₀.db)
  | past (h : CustomerGone owned user w₀ w)

theorem Progress.tracked (h : Progress owned user w₀ w) : Tracked owned user w₀ w := by
  cases h with
  | untouched htracked _ => exact htracked
  | past h => exact h.tracked

theorem progress_refl (w : ErasureWorld p) : Progress owned user w w := by
  refine .untouched ⟨fun _ h => h, fun _ h => Or.inl (Or.inl h), fun _ h => h,
    fun _ h => Or.inl h, fun _ _ h hnot => absurd h hnot, fun _ h => Or.inl h⟩ rfl

section Stages

variable {db db' : OrgDb p}

theorem PastFirst.customerByUserId (h : PastFirst db user db')
    (hpresent : ∃ u ∈ db'.users, u.id = user) : db'.customerByUserId user = none := by
  cases h with
  | customer h =>
    rw [h]
    exact OrgDb.customerByUserId_deleteCustomerOf
  | orgs h =>
    rw [h]
    exact OrgDb.customerByUserId_withoutOrgs
  | memberships h =>
    rw [h]
    exact @OrgDb.customerByUserId_withoutOrgs p db user
  | user h =>
    rw [h] at hpresent
    exact absurd hpresent (db.not_mem_eraseAccount user)

/-- What a request would cancel from there. -/
theorem PastFirst.activeStripeId (h : PastFirst db user db')
    (hpresent : ∃ u ∈ db'.users, u.id = user) {id : String}
    (hactive : db'.activeStripeId user = some id) : ReachedLater db user id := by
  cases h with
  | customer h =>
    rw [h] at hactive
    exact Or.inr (Or.inl hactive)
  | orgs h | memberships h =>
    rw [h] at hactive
    exact Or.inr (Or.inr hactive)
  | user h =>
    rw [h] at hpresent
    exact absurd hpresent (db.not_mem_eraseAccount user)

end Stages

/-! ### What each part keeps of it -/

/-- More is cancelled, deleted and handed over. -/
theorem Tracked.grow (h : Tracked owned user w₀ w) (hkept : ∀ id ∈ w.canceled, id ∈ w'.canceled)
    (hcanceled : ∀ id ∈ w'.canceled,
      id ∈ w.canceled ∨ CancelsFirst owned w₀ user id ∨ ReachedLater w₀.db user id)
    (hkeptCustomers : ∀ k ∈ w.deletedCustomers, k ∈ w'.deletedCustomers)
    (hdeleted : ∀ k ∈ w'.deletedCustomers, k ∈ w.deletedCustomers ∨
      (∃ c, w₀.db.customerByUserId user = some c ∧ c.stripeId = k) ∧
        ∀ id ∈ owned k, id ∈ w'.canceled)
    (hhanded : ∀ id, w'.HandedOver id →
      w.HandedOver id ∨ id ∈ w₀.db.pendingStripeSubIds (w₀.db.orgsCreatedBy user)) :
    Tracked owned user w₀ w' where
  kept id hid := hkept id (h.kept id hid)
  canceled id hid := by
    rcases hcanceled id hid with hid | hid
    · exact h.canceled id hid
    · exact hid
  keptCustomers k hk := hkeptCustomers k (h.keptCustomers k hk)
  deletedCustomers k hk := by
    rcases hdeleted k hk with hk | ⟨hc, -⟩
    · exact h.deletedCustomers k hk
    · exact Or.inr hc
  owned c hc hmem hnot id hid := by
    rcases hdeleted _ hmem with hmem | ⟨-, howned⟩
    · exact hkept id (h.owned c hc hmem hnot id hid)
    · exact howned id hid
  handedOver id hid := by
    rcases hhanded id hid with hid | hid
    · exact h.handedOver id hid
    · exact Or.inr hid

/-- The parts before the first commit. -/
theorem Tracked.cancel {activeSub : Option Subscription} (h : Tracked owned user w₀ w)
    (hc : CancelDone activeSub w w')
    (hactive : ∀ id, activeSub.bind Subscription.stripeId = some id →
      CancelsFirst owned w₀ user id ∨ ReachedLater w₀.db user id) : Tracked owned user w₀ w' := by
  apply h.grow
  · exact fun id hid => (hc.canceled id).mpr (Or.inl hid)
  · intro id hid
    rcases (hc.canceled id).mp hid with hid | hid
    · exact Or.inl hid
    · exact Or.inr (hactive id hid)
  · intro k hk
    rw [hc.deletedCustomers]
    exact hk
  · intro k hk
    rw [hc.deletedCustomers] at hk
    exact Or.inl hk
  · intro id hid
    unfold ErasureWorld.HandedOver at hid
    rw [hc.batches] at hid
    exact Or.inl hid

theorem Tracked.customer {customer : Option StripeCustomer} (h : Tracked owned user w₀ w)
    (hd : CustomerDone owned customer w w')
    (hcustomer : ∀ c, customer = some c → w₀.db.customerByUserId user = some c) :
    Tracked owned user w₀ w' := by
  apply h.grow
  · exact fun id hid => (hd.canceled id).mpr (Or.inl hid)
  · intro id hid
    rcases (hd.canceled id).mp hid with hid | ⟨c, hc, hnot, hid⟩
    · exact Or.inl hid
    · refine Or.inr (Or.inl (Or.inr (Or.inr ⟨c, hcustomer c hc, fun hmem => ?_, hid⟩)))
      exact hnot (h.keptCustomers _ hmem)
  · exact fun k hk => (hd.deletedCustomers k).mpr (Or.inl hk)
  · intro k hk
    by_cases hbefore : k ∈ w.deletedCustomers
    · exact Or.inl hbefore
    · obtain ⟨c, hc, rfl⟩ := ((hd.deletedCustomers k).mp hk).resolve_left hbefore
      refine Or.inr ⟨⟨c, hcustomer c hc, rfl⟩, fun id hid => ?_⟩
      exact (hd.canceled id).mpr (Or.inr ⟨c, hc, hbefore, hid⟩)
  · intro id hid
    unfold ErasureWorld.HandedOver at hid
    rw [hd.batches] at hid
    exact Or.inl hid

/-- What is past the first commit stays past it. -/
theorem CustomerGone.grow (h : CustomerGone owned user w₀ w) (ht : Tracked owned user w₀ w')
    (hkept : ∀ id ∈ w.canceled, id ∈ w'.canceled)
    (hkeptCustomers : ∀ k ∈ w.deletedCustomers, k ∈ w'.deletedCustomers)
    (hdb : PastFirst w₀.db user w'.db) : CustomerGone owned user w₀ w' where
  tracked := ht
  canceled id hid := hkept id (h.canceled id hid)
  deletedCustomers c hc := hkeptCustomers _ (h.deletedCustomers c hc)
  db := hdb

theorem Progress.customer_eq (h : Progress owned user w₀ w)
    (hpresent : ∃ u ∈ w.db.users, u.id = user) {c : StripeCustomer}
    (hc : w.db.customerByUserId user = some c) : w₀.db.customerByUserId user = some c := by
  cases h with
  | untouched _ hdb =>
    rw [← hdb]
    exact hc
  | past h => cases (h.db.customerByUserId hpresent).symm.trans hc

theorem Progress.active (h : Progress owned user w₀ w)
    (hpresent : ∃ u ∈ w.db.users, u.id = user) {id : String}
    (hactive : w.db.activeStripeId user = some id) :
    CancelsFirst owned w₀ user id ∨ ReachedLater w₀.db user id := by
  cases h with
  | untouched _ hdb =>
    rw [hdb] at hactive
    exact Or.inl (Or.inr (Or.inl hactive))
  | past h => exact Or.inr (h.db.activeStripeId hpresent hactive)

theorem Progress.cancel (h : Progress owned user w₀ w) (hpresent : ∃ u ∈ w.db.users, u.id = user)
    (hc : CancelDone (w.db.getActiveForUser user) w w') : Progress owned user w₀ w' := by
  have ht := h.tracked.cancel hc fun id hid => h.active hpresent hid
  cases h with
  | untouched _ hdb => exact .untouched ht (hc.db.trans hdb)
  | past h =>
    apply Progress.past
    apply h.grow ht
    · exact fun id hid => (hc.canceled id).mpr (Or.inl hid)
    · intro k hk
      rw [hc.deletedCustomers]
      exact hk
    · rw [hc.db]
      exact h.db

theorem Progress.customer (h : Progress owned user w₀ w)
    (hpresent : ∃ u ∈ w.db.users, u.id = user)
    (hd : CustomerDone owned (w.db.customerByUserId user) w w') (hdb' : w'.db = w.db) :
    Progress owned user w₀ w' := by
  have ht := h.tracked.customer hd fun c hc => h.customer_eq hpresent hc
  cases h with
  | untouched _ hdb => exact .untouched ht (hdb'.trans hdb)
  | past h =>
    apply Progress.past
    apply h.grow ht
    · exact fun id hid => (hd.canceled id).mpr (Or.inl hid)
    · exact fun k hk => (hd.deletedCustomers k).mpr (Or.inl hk)
    · rw [hdb']
      exact h.db

/-- The first commit, after the calls of Stripe. -/
theorem Progress.commit {w₁ w₂ : ErasureWorld p} (h : Progress owned user w₀ w)
    (hpresent : ∃ u ∈ w.db.users, u.id = user)
    (hc : CancelDone (w.db.getActiveForUser user) w w₁)
    (hd : CustomerDone owned (w.db.customerByUserId user) w₁ w₂)
    (hdb : w₂.db = w₁.db.deleteCustomerOf user) : CustomerGone owned user w₀ w₂ := by
  have ht := (h.tracked.cancel hc fun id hid => h.active hpresent hid).customer hd
    fun c hc => h.customer_eq hpresent hc
  have hkept : ∀ id ∈ w.canceled, id ∈ w₂.canceled := fun id hid =>
    (hd.canceled id).mpr (Or.inl ((hc.canceled id).mpr (Or.inl hid)))
  have hkeptCustomers : ∀ k ∈ w.deletedCustomers, k ∈ w₂.deletedCustomers := by
    intro k hk
    apply (hd.deletedCustomers k).mpr
    rw [hc.deletedCustomers]
    exact Or.inl hk
  rw [hc.db] at hdb
  cases h with
  | untouched htracked hstart =>
    rw [hstart] at hc hd hdb
    refine ⟨ht, fun id hid => ?_, fun c hcustomer => ?_, .customer hdb⟩
    · rcases hid with hid | hid | ⟨c, hcustomer, hnot, hid⟩
      · exact hkept id (htracked.kept id hid)
      · exact (hd.canceled id).mpr (Or.inl ((hc.canceled id).mpr (Or.inr hid)))
      · -- an earlier attempt may have deleted the customer at Stripe
        by_cases hbefore : c.stripeId ∈ w.deletedCustomers
        · exact hkept id (htracked.owned c hcustomer hbefore hnot id hid)
        · rw [← hc.deletedCustomers] at hbefore
          exact (hd.canceled id).mpr (Or.inr ⟨c, hcustomer, hbefore, hid⟩)
    · exact (hd.deletedCustomers _).mpr (Or.inr ⟨c, hcustomer, rfl⟩)
  | past h =>
    apply h.grow ht hkept hkeptCustomers
    rw [hdb, OrgDb.deleteCustomerOf_eq_self (h.db.customerByUserId hpresent)]
    exact h.db

theorem CustomerGone.deleteOrgs (h : CustomerGone owned user w₀ w)
    (hpresent : ∃ u ∈ w.db.users, u.id = user) (ho : OrgsDone user w w') :
    CustomerGone owned user w₀ w' ∧ (w'.db = w₀.db.withoutOrgs user ∨
      w'.db = (w₀.db.withoutOrgs user).deleteMemberships user) := by
  -- where the organizations are gone there is no batch
  have hgone : ∀ db : OrgDb p, w.db = db → db.orgsCreatedBy user = [] →
      w'.db = db ∧ w.db.pendingStripeSubIds (w.db.orgsCreatedBy user) = [] := by
    rintro db rfl horgs
    refine ⟨ho.db.trans (OrgDb.deleteOrgsCreatedByUser_eq_self horgs), ?_⟩
    rw [horgs]
    rfl
  have hdb : (w'.db = w₀.db.withoutOrgs user ∨
        w'.db = (w₀.db.withoutOrgs user).deleteMemberships user) ∧
      ∀ id ∈ w.db.pendingStripeSubIds (w.db.orgsCreatedBy user),
        id ∈ w₀.db.pendingStripeSubIds (w₀.db.orgsCreatedBy user) := by
    cases h.db with
    | customer h =>
      refine ⟨Or.inl (by rw [ho.db, h]; rfl), fun id hid => ?_⟩
      rw [h, OrgDb.orgsCreatedBy_deleteCustomerOf,
        OrgDb.pendingStripeSubIds_deleteCustomerOf] at hid
      exact hid
    | orgs h =>
      obtain ⟨hdb, hnone⟩ := hgone _ h OrgDb.orgsCreatedBy_withoutOrgs
      rw [hnone]
      exact ⟨Or.inl hdb, nofun⟩
    | memberships h =>
      obtain ⟨hdb, hnone⟩ := hgone _ h (@OrgDb.orgsCreatedBy_withoutOrgs p w₀.db user)
      rw [hnone]
      exact ⟨Or.inr hdb, nofun⟩
    | user h =>
      rw [h] at hpresent
      exact absurd hpresent (w₀.db.not_mem_eraseAccount user)
  refine ⟨h.grow ?_ ?_ ?_ ?_, hdb.1⟩
  · apply h.tracked.grow
    · rw [ho.canceled]
      exact fun _ h => h
    · rw [ho.canceled]
      exact fun _ h => Or.inl h
    · rw [ho.deletedCustomers]
      exact fun _ h => h
    · rw [ho.deletedCustomers]
      exact fun _ h => Or.inl h
    · intro id hid
      rcases ho.handedOver id hid with hid | hid
      · exact Or.inl hid
      · exact Or.inr (hdb.2 id hid)
  · rw [ho.canceled]
    exact fun _ h => h
  · rw [ho.deletedCustomers]
    exact fun _ h => h
  · rcases hdb.1 with hdb | hdb
    · exact .orgs hdb
    · exact .memberships hdb

/-- A later commit. -/
theorem CustomerGone.commit (h : CustomerGone owned user w₀ w) {db : OrgDb p}
    (hdb : PastFirst w₀.db user db) : CustomerGone owned user w₀ { w with db } :=
  ⟨⟨h.tracked.kept, h.tracked.canceled, h.tracked.keptCustomers, h.tracked.deletedCustomers,
    h.tracked.owned, h.tracked.handedOver⟩, h.canceled, h.deletedCustomers, hdb⟩

/-- **An attempt.**  However it ends, it has come some way on, or no way. -/
theorem progress_keeps (owned : String → List String) (o : ErasureStep → Outcome) (user : UUID)
    (w₀ : ErasureWorld p) : Keeps (Progress owned user w₀)
    (Erasing.deleteAccount owned o user) := by
  intro w h
  unfold Erasing.deleteAccount
  rw [wp_bind, wp_get]
  dsimp only
  split
  case isFalse => exact h
  rename_i hany
  have hpresent : ∃ u ∈ w.db.users, u.id = user := OrgDb.any_users_iff.mp hany
  simp only [wp_bind]
  -- the personal subscription at Stripe
  apply Erasing.wp_cancelActive
  case hstop =>
    rintro w' - (rfl | hc)
    · exact h
    · exact h.cancel hpresent hc
  intro w₁ hc
  have h₁ : Progress owned user w₀ w₁ := h.cancel hpresent hc
  have hpresent₁ : ∃ u ∈ w₁.db.users, u.id = user := by
    rw [hc.db]
    exact hpresent
  rw [← hc.db]
  -- the customer, at Stripe and then in the database: the first commit
  apply Erasing.wp_deleteCustomer rfl
  case hstripe =>
    rintro w' - hdb (rfl | hd)
    · exact h₁
    · exact h₁.customer hpresent₁ hd hdb
  case hfailed => exact fun w' _ _ hdb hd => h₁.customer hpresent₁ hd hdb
  case hlost =>
    intro w' _ _ hdb hd
    rw [hc.db] at hd
    exact .past (h.commit hpresent hc hd hdb)
  intro w₂ hd hdb₂
  rw [hc.db] at hd
  have h₂ : CustomerGone owned user w₀ w₂ := h.commit hpresent hc hd hdb₂
  have hpresent₂ : ∃ u ∈ w₂.db.users, u.id = user := by
    rw [hdb₂, OrgDb.deleteCustomerOf_users]
    exact hpresent₁
  unfold Erasing.preDelete
  rw [wp_bind]
  -- the organizations, and the task that is enqueued after their commit
  apply Erasing.wp_deleteOrgsCreatedByUser
  case hfailed => exact fun _ _ => .past h₂
  case hlost => exact fun w' _ ho _ => .past (h₂.deleteOrgs hpresent₂ ho).1
  case henqueue => exact fun w' _ ho => .past (h₂.deleteOrgs hpresent₂ ho).1
  intro w₃ _ ho _
  -- the other memberships, and the account
  obtain ⟨h₃, hdb₃⟩ := h₂.deleteOrgs hpresent₂ ho
  have hmemberships : w₃.db.deleteMemberships user
      = (w₀.db.withoutOrgs user).deleteMemberships user := by
    rcases hdb₃ with hdb₃ | hdb₃
    · rw [hdb₃]
    · rw [hdb₃]
      apply OrgDb.deleteMemberships_eq_self
      exact fun m hm => (OrgTables.mem_deleteMemberships.mp hm).2
  have h₄ := h₃.commit (.memberships hmemberships)
  have h₅ := h₄.commit (.user (congrArg (fun db => db.deleteUsers [user]) hmemberships))
  apply wp_perform
  · intro _
    apply wp_perform
    · exact fun _ => .past h₅
    · exact fun _ => .past h₄
    · exact fun _ => .past h₅
  · exact fun _ => .past h₃
  · exact fun _ => .past h₄

end Saasmint
