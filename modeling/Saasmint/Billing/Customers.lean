/-
Saasmint/Billing/Customers.lean

The Stripe customer of a user or an organization: the table with its unique
columns (apps/billing/models.py), the save that writes the row of an owner
(`DjangoStripeCustomerRepository.save`), and concurrent
`get_or_create_customer` calls for one owner
(saasmint_core/services/billing.py).

Each call looks the owner up, creates a customer at Stripe when there is no row,
and saves it.  A save over a row replaces its Stripe id, also where another call
has returned that id to a checkout.  So every returned customer stays known
exactly when each save finds no row of the owner (`customers_stay_known_iff`).
-/
import Saasmint.Billing.Models
import Saasmint.Lib.Interleaving
import Saasmint.Lib.Table

namespace Saasmint

/-! ### The table -/

/-- The table of customers. -/
structure CustomerTable where
  rows : List StripeCustomer
  pk : Table.Unique (fun c => some c.id) rows
  uniq_stripe_id : Table.Unique (fun c => some c.stripeId) rows
  uniq_owner : Table.Unique (fun c => some c.owner) rows

namespace CustomerTable

/-- `get_by_user_id` and `get_by_org_id`. -/
def getByOwner (tbl : CustomerTable) (owner : Owner) : Option StripeCustomer :=
  tbl.rows.find? fun c => c.owner = owner

/-- `get_by_stripe_id`. -/
def getByStripeId (tbl : CustomerTable) (stripeId : String) : Option StripeCustomer :=
  tbl.rows.find? fun c => c.stripeId = stripeId

/-- The rows that `aupdate_or_create` under the owner would leave.  A new row
gets a key of its own, not the one of the customer that is saved. -/
def savedRows (tbl : CustomerTable) (stripeId : String) (owner : Owner) : List StripeCustomer :=
  Table.upsert StripeCustomer.owner owner
    { id := Table.freshKey (tbl.rows.map StripeCustomer.id), stripeId, owner }
    (fun old => { old with stripeId }) tbl.rows

/-- The database takes rows that meet the constraints. -/
def commit (rows : List StripeCustomer) : Option CustomerTable :=
  if h : Table.Unique (fun c => some c.id) rows ∧ Table.Unique (fun c => some c.stripeId) rows ∧
      Table.Unique (fun c => some c.owner) rows then
    some ⟨rows, h.1, h.2.1, h.2.2⟩
  else none

/-- `DjangoStripeCustomerRepository.save`; `none` is the `IntegrityError`. -/
def save (tbl : CustomerTable) (stripeId : String) (owner : Owner) : Option CustomerTable :=
  commit (tbl.savedRows stripeId owner)

variable {tbl tbl' : CustomerTable} {stripeId : String} {owner : Owner} {c : StripeCustomer}

theorem getByOwner_eq_some_iff : tbl.getByOwner owner = some c
    ↔ c ∈ tbl.rows ∧ c.owner = owner := by
  have h := Table.find?_eq_some_iff (v := owner) (a := c) tbl.uniq_owner
  simpa [getByOwner] using h

theorem getByStripeId_eq_some_iff :
    tbl.getByStripeId stripeId = some c ↔ c ∈ tbl.rows ∧ c.stripeId = stripeId := by
  have h := Table.find?_eq_some_iff (v := stripeId) (a := c) tbl.uniq_stripe_id
  simpa [getByStripeId] using h

theorem save_rows (h : tbl.save stripeId owner = some tbl') :
    tbl'.rows = tbl.savedRows stripeId owner := by
  unfold save commit at h
  split at h
  · cases h
    rfl
  · cases h

/-- Saving a Stripe id that no row has does not violate a constraint. -/
theorem save_of_new (owner : Owner) (hnew : ∀ r ∈ tbl.rows, r.stripeId ≠ stripeId) :
    ∃ tbl', tbl.save stripeId owner = some tbl' := by
  suffices h : Table.Unique (fun c => some c.id) (tbl.savedRows stripeId owner) ∧
      Table.Unique (fun c => some c.stripeId) (tbl.savedRows stripeId owner) ∧
      Table.Unique (fun c => some c.owner) (tbl.savedRows stripeId owner) from
    ⟨_, dif_pos h⟩
  unfold savedRows Table.upsert
  split
  case isTrue =>
    -- the row of the owner gets the id
    refine ⟨Table.unique_update tbl.uniq_owner tbl.pk ?_,
      Table.unique_update tbl.uniq_owner tbl.uniq_stripe_id ?_,
      Table.unique_update tbl.uniq_owner tbl.uniq_owner ?_⟩
    · intro a ha hka b hb hkb v hv hw
      exact hkb (tbl.pk.inj ha hb hv hw ▸ hka)
    · intro a _ _ b hb _ v hv hw
      exact hnew b hb (Option.some.inj (hw.trans hv.symm))
    · intro a _ hka b _ hkb v hv hw
      exact hkb ((Option.some.inj (hw.trans hv.symm)).trans hka)
  case isFalse hnone =>
    refine ⟨Table.unique_append tbl.pk ?_, Table.unique_append tbl.uniq_stripe_id ?_,
      Table.unique_append tbl.uniq_owner ?_⟩
    · intro b hb v hv hw
      refine Table.freshKey_not_mem (tbl.rows.map StripeCustomer.id) ?_
      exact List.mem_map.mpr ⟨b, hb, Option.some.inj (hw.trans hv.symm)⟩
    · intro b hb v hv hw
      exact hnew b hb (Option.some.inj (hw.trans hv.symm))
    · intro b hb v hv hw
      refine hnone (List.any_eq_true.mpr ⟨b, hb, ?_⟩)
      simpa using Option.some.inj (hw.trans hv.symm)

/-- **The save.**  A new Stripe id becomes that of the owner's row, and every
other id in the table was there before. -/
theorem save_spec (owner : Owner) (hnew : ∀ r ∈ tbl.rows, r.stripeId ≠ stripeId) :
    ∃ tbl' c, tbl.save stripeId owner = some tbl' ∧ tbl'.getByOwner owner = some c ∧
      c.stripeId = stripeId ∧ ∀ r ∈ tbl'.rows, r = c ∨ r ∈ tbl.rows := by
  obtain ⟨tbl', hsave⟩ := save_of_new owner hnew
  have hmem : ∀ r, r ∈ tbl'.rows ↔ r ∈ tbl.savedRows stripeId owner := by
    rw [save_rows hsave]
    exact fun _ => Iff.rfl
  have hc : ∃ c ∈ tbl'.rows, c.owner = owner ∧ c.stripeId = stripeId := by
    by_cases h : ∃ a ∈ tbl.rows, a.owner = owner
    · obtain ⟨a, ha, hk⟩ := h
      exact ⟨{ a with stripeId }, (hmem _).mpr (Table.mem_upsert.mpr
        (Or.inr (Or.inl ⟨a, ha, hk, rfl⟩))), hk, rfl⟩
    · have hnone : ∀ a ∈ tbl.rows, a.owner ≠ owner := fun a ha hk => h ⟨a, ha, hk⟩
      exact ⟨_, (hmem _).mpr (Table.mem_upsert.mpr (Or.inr (Or.inr ⟨hnone, rfl⟩))), rfl, rfl⟩
  obtain ⟨c, hcmem, hcowner, hcid⟩ := hc
  refine ⟨tbl', c, hsave, getByOwner_eq_some_iff.mpr ⟨hcmem, hcowner⟩, hcid, fun r hr => ?_⟩
  by_cases hk : r.owner = owner
  · exact Or.inl (tbl'.uniq_owner.inj hr hcmem (congrArg some hk) (congrArg some hcowner))
  · rcases Table.mem_upsert.mp ((hmem r).mp hr) with ⟨hr', -⟩ | ⟨a, -, hka, rfl⟩ | ⟨-, rfl⟩
    · exact Or.inr hr'
    · exact absurd hka hk
    · exact absurd rfl hk

end CustomerTable

/-! ### Calls -/

/-- Where a `get_or_create_customer` call is. -/
inductive CustomerCall
  | idle
  /-- The lookup has found nothing. -/
  | missing
  /-- After `stripe.Customer.create`. -/
  | created (stripeId : String)
  | returned (stripeId : String)
  | failed
  deriving DecidableEq, Repr

/-- The call has looked the owner up and not saved yet. -/
def CustomerCall.pending : CustomerCall → Bool
  | missing | created _ => true
  | _ => false

inductive CustomerCallStep
  | lookup
  /-- Stripe creates a customer under a new id. -/
  | create (stripeId : String)
  | createFails
  | save
  deriving DecidableEq, Repr

/-- The table, and the customer ids that Stripe has given out. -/
structure CustomerShared where
  table : CustomerTable
  minted : List String

variable {ι : Type*} (owner : Owner)

/-- A step of `get_or_create_customer`. -/
def customerAct (_ : ι) (σ : CustomerShared) :
    CustomerCall → CustomerCallStep → Option (CustomerShared × CustomerCall)
  | .idle, .lookup =>
    match σ.table.getByOwner owner with
    | some c => some (σ, .returned c.stripeId)
    | none => some (σ, .missing)
  | .missing, .create stripeId =>
    if stripeId ∈ σ.minted then none
    else some ({ σ with minted := stripeId :: σ.minted }, .created stripeId)
  | .missing, .createFails => some (σ, .failed)
  | .created stripeId, .save =>
    match σ.table.save stripeId owner with
    | none => some (σ, .failed)
    | some table => some ({ σ with table }, .returned stripeId)
  | _, _ => none

abbrev CustomerSystem (ι : Type*) := Interleaving.State ι CustomerShared CustomerCall

/-- The owner has exactly one row, and every id that a call has returned is its
Stripe id, by which webhooks find it. -/
def CustomersKnown (s : CustomerSystem ι) : Prop :=
  ∀ i stripeId, s.procs i = .returned stripeId →
    ∃ c, s.shared.table.rows.filter (fun r => r.owner = owner) = [c] ∧ c.stripeId = stripeId ∧
      s.shared.table.getByStripeId stripeId = some c

/-- A save finds no row of the owner: no other call has saved since the lookup
of this one. -/
def SavesFirst (s : CustomerSystem ι) : ι × CustomerCallStep → Prop
  | (i, .save) =>
    (s.procs i).pending = true → s.shared.table.getByOwner owner = none
  | _ => True

/-- Ids are given out once, and the row that a pending call did not find was
saved by a call that has returned its id. -/
structure CallsInv (s : CustomerSystem ι) : Prop where
  rows_minted : ∀ r ∈ s.shared.table.rows, r.stripeId ∈ s.shared.minted
  returned_minted : ∀ i stripeId, s.procs i = .returned stripeId → stripeId ∈ s.shared.minted
  created_minted : ∀ i stripeId, s.procs i = .created stripeId → stripeId ∈ s.shared.minted
  created_new : ∀ i stripeId, s.procs i = .created stripeId →
    ∀ r ∈ s.shared.table.rows, r.stripeId ≠ stripeId
  created_once : ∀ i j stripeId, s.procs i = .created stripeId → j ≠ i →
    s.procs j ≠ .created stripeId ∧ s.procs j ≠ .returned stripeId
  saved : ∀ i, (s.procs i).pending = true → ∀ c, s.shared.table.getByOwner owner = some c →
    ∃ j, s.procs j = .returned c.stripeId

variable {owner}

/-- The row of the owner is the only one, and is found by its Stripe id. -/
theorem known_of_getByOwner {tbl : CustomerTable} {c : StripeCustomer}
    (h : tbl.getByOwner owner = some c) :
    tbl.rows.filter (fun r => r.owner = owner) = [c] ∧ tbl.getByStripeId c.stripeId = some c := by
  obtain ⟨hc, hco⟩ := CustomerTable.getByOwner_eq_some_iff.mp h
  refine ⟨?_, CustomerTable.getByStripeId_eq_some_iff.mpr ⟨hc, rfl⟩⟩
  simpa using Table.filter_eq_singleton tbl.uniq_owner hc (congrArg some hco)

/-- What a step can do. -/
theorem customerAct_cases {i : ι} {σ σ' : CustomerShared} {κ κ' : CustomerCall}
    {a : CustomerCallStep} (h : customerAct owner i σ κ a = some (σ', κ')) :
    (∃ c, κ = .idle ∧ a = .lookup ∧ σ.table.getByOwner owner = some c ∧ σ' = σ ∧
      κ' = .returned c.stripeId) ∨
    (κ = .idle ∧ a = .lookup ∧ σ.table.getByOwner owner = none ∧ σ' = σ ∧ κ' = .missing) ∨
    (∃ stripeId, κ = .missing ∧ a = .create stripeId ∧ stripeId ∉ σ.minted ∧
      σ' = { σ with minted := stripeId :: σ.minted } ∧ κ' = .created stripeId) ∨
    (κ = .missing ∧ a = .createFails ∧ σ' = σ ∧ κ' = .failed) ∨
    ∃ stripeId, κ = .created stripeId ∧ a = .save ∧
      ((σ.table.save stripeId owner = none ∧ σ' = σ ∧ κ' = .failed) ∨
        ∃ table, σ.table.save stripeId owner = some table ∧ σ' = { σ with table } ∧
          κ' = .returned stripeId) := by
  unfold customerAct at h
  split at h
  · split at h <;> cases h
    · exact Or.inl ⟨_, rfl, rfl, ‹_›, rfl, rfl⟩
    · exact Or.inr (Or.inl ⟨rfl, rfl, ‹_›, rfl, rfl⟩)
  · split at h <;> cases h
    exact Or.inr (Or.inr (Or.inl ⟨_, rfl, rfl, ‹_›, rfl, rfl⟩))
  · cases h
    exact Or.inr (Or.inr (Or.inr (Or.inl ⟨rfl, rfl, rfl, rfl⟩)))
  · split at h <;> cases h
    · exact Or.inr (Or.inr (Or.inr (Or.inr ⟨_, rfl, rfl, Or.inl ⟨‹_›, rfl, rfl⟩⟩)))
    · exact Or.inr (Or.inr (Or.inr (Or.inr ⟨_, rfl, rfl, Or.inr ⟨_, ‹_›, rfl, rfl⟩⟩)))
  · cases h

/-- No call has started; Stripe has given out the ids of the table. -/
def customerInit (ι : Type*) (table : CustomerTable) : CustomerSystem ι :=
  ⟨⟨table, table.rows.map StripeCustomer.stripeId⟩, fun _ => .idle⟩

theorem callsInv_init (table : CustomerTable) : CallsInv owner (customerInit ι table) where
  rows_minted r hr := List.mem_map.mpr ⟨r, hr, rfl⟩
  returned_minted _ _ h := by cases h
  created_minted _ _ h := by cases h
  created_new _ _ h := by cases h
  created_once _ _ _ h := by cases h
  saved _ h := by cases h

variable [DecidableEq ι]

/-- Every step keeps the invariant. -/
theorem callsInv_step (s : CustomerSystem ι) (l : ι × CustomerCallStep) (s' : CustomerSystem ι)
    (hI : CallsInv owner s) (h : Interleaving.step (customerAct owner) s l = some s') :
    CallsInv owner s' := by
  obtain ⟨i, a⟩ := l
  obtain ⟨σ', κ', hact, rfl⟩ := Interleaving.step_eq_some h
  rcases customerAct_cases hact with ⟨c, hκ, -, hc, rfl, rfl⟩ | ⟨hκ, -, hnone, rfl, rfl⟩ |
    ⟨sid, hκ, -, hnew, rfl, rfl⟩ | ⟨hκ, -, rfl, rfl⟩ | ⟨sid, hκ, -, hsave⟩
  · -- the row is found
    have hcm := hI.rows_minted c (CustomerTable.getByOwner_eq_some_iff.mp hc).1
    have hcid : ∀ j sid, s.procs j = .created sid → c.stripeId ≠ sid := fun j sid hj =>
      hI.created_new j sid hj c (CustomerTable.getByOwner_eq_some_iff.mp hc).1
    obtain ⟨h₁, h₂, h₃, h₄, h₅, h₆⟩ := hI
    refine ⟨h₁, ?_, ?_, ?_, ?_, ?_⟩ <;> simp only [Function.update_apply] <;>
      grind [CustomerCall.pending]
  · obtain ⟨h₁, h₂, h₃, h₄, h₅, h₆⟩ := hI
    refine ⟨h₁, ?_, ?_, ?_, ?_, ?_⟩ <;> simp only [Function.update_apply] <;>
      grind [CustomerCall.pending]
  · obtain ⟨h₁, h₂, h₃, h₄, h₅, h₆⟩ := hI
    refine ⟨?_, ?_, ?_, ?_, ?_, ?_⟩ <;> simp only [Function.update_apply] <;>
      grind [CustomerCall.pending]
  · obtain ⟨h₁, h₂, h₃, h₄, h₅, h₆⟩ := hI
    refine ⟨h₁, ?_, ?_, ?_, ?_, ?_⟩ <;> simp only [Function.update_apply] <;>
      grind [CustomerCall.pending]
  · obtain ⟨table, c, htable, hfound, hcid, hrows⟩ :=
      CustomerTable.save_spec owner (hI.created_new i sid hκ)
    rcases hsave with ⟨hnone, -, -⟩ | ⟨table', htable', rfl, rfl⟩
    · rw [htable] at hnone
      cases hnone
    obtain rfl := Option.some.inj (htable.symm.trans htable')
    obtain ⟨h₁, h₂, h₃, h₄, h₅, h₆⟩ := hI
    refine ⟨?_, ?_, ?_, ?_, ?_, ?_⟩ <;> simp only [Function.update_apply] <;>
      grind [CustomerCall.pending]

/-- Where a customer is known, the owner has a row. -/
theorem getByOwner_of_filter {tbl : CustomerTable} {c : StripeCustomer}
    (h : tbl.rows.filter (fun r => r.owner = owner) = [c]) : tbl.getByOwner owner = some c := by
  have hc : c ∈ tbl.rows.filter fun r => r.owner = owner := by
    rw [h]
    exact List.mem_singleton.mpr rfl
  obtain ⟨hmem, ho⟩ := List.mem_filter.mp hc
  exact CustomerTable.getByOwner_eq_some_iff.mpr ⟨hmem, by simpa using ho⟩

/-- A step that returns nothing and leaves the table keeps customers known. -/
theorem CustomersKnown.of_quiet {s : CustomerSystem ι} (h : CustomersKnown owner s) {i : ι}
    {κ : CustomerCall} (hκ : ∀ stripeId, κ ≠ .returned stripeId) (minted : List String) :
    CustomersKnown owner
      ⟨{ s.shared with minted }, Function.update s.procs i κ⟩ := by
  intro j stripeId hj
  by_cases hji : j = i
  · subst hji
    exact absurd ((Function.update_self ..).symm.trans hj) (hκ stripeId)
  · exact h j stripeId ((Function.update_of_ne hji ..).symm.trans hj)

/-- A step keeps customers known exactly when a save in it finds no row. -/
theorem customersKnown_step (s : CustomerSystem ι) (l : ι × CustomerCallStep)
    (s' : CustomerSystem ι) (hI : CallsInv owner s) (hP : CustomersKnown owner s)
    (h : Interleaving.step (customerAct owner) s l = some s') :
    CustomersKnown owner s' ↔ SavesFirst owner s l := by
  obtain ⟨i, a⟩ := l
  obtain ⟨σ', κ', hact, rfl⟩ := Interleaving.step_eq_some h
  rcases customerAct_cases hact with ⟨c, -, rfl, hc, rfl, rfl⟩ | ⟨-, rfl, -, rfl, rfl⟩ |
    ⟨sid, -, rfl, -, rfl, rfl⟩ | ⟨-, rfl, rfl, rfl⟩ | ⟨sid, hκ, rfl, hsave⟩
  · -- the row that is found is the owner's
    refine iff_of_true (fun j stripeId hj => ?_) trivial
    by_cases hji : j = i
    · subst hji
      have hid : CustomerCall.returned c.stripeId = .returned stripeId :=
        (Function.update_self ..).symm.trans hj
      cases hid
      exact ⟨c, (known_of_getByOwner hc).1, rfl, (known_of_getByOwner hc).2⟩
    · exact hP j stripeId ((Function.update_of_ne hji ..).symm.trans hj)
  · exact iff_of_true (hP.of_quiet (by simp) _) trivial
  · exact iff_of_true (hP.of_quiet (by simp) _) trivial
  · exact iff_of_true (hP.of_quiet (by simp) _) trivial
  obtain ⟨table, c, htable, hfound, hcid, -⟩ :=
    CustomerTable.save_spec owner (hI.created_new i sid hκ)
  rcases hsave with ⟨hnone, -, -⟩ | ⟨table', htable', rfl, rfl⟩
  · rw [htable] at hnone
    cases hnone
  obtain rfl := Option.some.inj (htable.symm.trans htable')
  have hpending : (s.procs i).pending = true := by
    rw [hκ]
    rfl
  rcases hold : s.shared.table.getByOwner owner with - | c₀
  · -- the first row: no call has returned an id
    refine iff_of_true (fun j stripeId hj => ?_) fun _ => hold
    by_cases hji : j = i
    · subst hji
      have hid : CustomerCall.returned sid = .returned stripeId :=
        (Function.update_self ..).symm.trans hj
      cases hid
      exact ⟨c, (known_of_getByOwner hfound).1, hcid, hcid ▸ (known_of_getByOwner hfound).2⟩
    · obtain ⟨c', hfilter, -, -⟩ := hP j stripeId ((Function.update_of_ne hji ..).symm.trans hj)
      rw [getByOwner_of_filter hfilter] at hold
      cases hold
  · -- the id of the row that is there was returned, and is replaced
    refine iff_of_false (fun hP' => ?_) fun hfirst => ?_
    · obtain ⟨j, hj⟩ := hI.saved i hpending c₀ hold
      have hji : j ≠ i := by
        rintro rfl
        rw [hκ] at hj
        cases hj
      obtain ⟨c', hfilter, hc', -⟩ := hP' j c₀.stripeId ((Function.update_of_ne hji ..).trans hj)
      have hsame : c = c' :=
        Option.some.inj (hfound.symm.trans (getByOwner_of_filter hfilter))
      rw [← hc', ← hsame, hcid] at hj
      exact (hI.created_once i j sid hκ hji).2 hj
    · have hnone : s.shared.table.getByOwner owner = none := hfirst hpending
      rw [hold] at hnone
      cases hnone

/-- An id that is not known is never known again. -/
theorem customersKnown_back (s : CustomerSystem ι) (l : ι × CustomerCallStep)
    (s' : CustomerSystem ι) (hI : CallsInv owner s)
    (h : Interleaving.step (customerAct owner) s l = some s') (hP' : CustomersKnown owner s') :
    CustomersKnown owner s := by
  obtain ⟨i, a⟩ := l
  obtain ⟨σ', κ', hact, rfl⟩ := Interleaving.step_eq_some h
  intro j x hj
  -- a call that has returned does not act
  have hji : j ≠ i := by
    rintro rfl
    rw [hj] at hact
    cases a <;> cases hact
  have hknown := hP' j x ((Function.update_of_ne hji ..).trans hj)
  rcases customerAct_cases hact with ⟨c, -, -, -, rfl, -⟩ | ⟨-, -, -, rfl, -⟩ |
    ⟨sid, -, -, -, rfl, -⟩ | ⟨-, -, rfl, -⟩ | ⟨sid, hκ, -, hsave⟩
  · exact hknown
  · exact hknown
  · exact hknown
  · exact hknown
  obtain ⟨table, c, htable, hfound, hcid, -⟩ :=
    CustomerTable.save_spec owner (hI.created_new i sid hκ)
  rcases hsave with ⟨hnone, -, -⟩ | ⟨table', htable', rfl, -⟩
  · rw [htable] at hnone
    cases hnone
  obtain rfl := Option.some.inj (htable.symm.trans htable')
  obtain ⟨c', hfilter, hc', -⟩ := hknown
  have hsame : c = c' := Option.some.inj (hfound.symm.trans (getByOwner_of_filter hfilter))
  have hx : x = sid := hc'.symm.trans (hsame ▸ hcid)
  exact absurd (hx ▸ hj) (hI.created_once i j sid hκ hji).2

/-- **A checkout's customer stays known.**  After any interleaving of any number
of calls for one owner, the owner has one row and it carries every id that a
call has returned, exactly when each save found no row of the owner. -/
theorem customers_stay_known_iff {table : CustomerTable} {ls : List (ι × CustomerCallStep)}
    {t : CustomerSystem ι}
    (hr : Runs.run (Interleaving.step (customerAct owner)) (customerInit ι table) ls = some t) :
    CustomersKnown owner t ↔
      Runs.EachStep (Interleaving.step (customerAct owner)) (SavesFirst owner)
        (customerInit ι table) ls := by
  have hiff : Runs.Always (Interleaving.step (customerAct owner)) (CustomersKnown owner)
      (customerInit ι table) ls ↔ Runs.EachStep (Interleaving.step (customerAct owner))
        (SavesFirst owner) (customerInit ι table) ls :=
    Runs.always_iff_eachStep callsInv_step customersKnown_step (callsInv_init table)
      fun i sid h => by cases h
  refine Iff.trans ⟨fun hk => ?_, fun ha => ha.last hr⟩ hiff
  exact Runs.always_of_last callsInv_step customersKnown_back (callsInv_init table) hr hk

/-! ### Two first checkouts -/

def sampleCustomerTable : CustomerTable := ⟨[], by decide, by decide, by decide⟩

/-- One call after the other. -/
def sampleAlone : List (Fin 2 × CustomerCallStep) :=
  [(0, .lookup), (0, .create "cus_1"), (0, .save), (1, .lookup)]

/-- Both calls look the user up before either saves. -/
def sampleDoubleClick : List (Fin 2 × CustomerCallStep) :=
  [(0, .lookup), (1, .lookup), (0, .create "cus_1"), (1, .create "cus_2"), (0, .save), (1, .save)]

theorem customers_stay_known_iff_sample :
    ∃ t, Runs.run (Interleaving.step (customerAct (.user 4)))
        (customerInit (Fin 2) sampleCustomerTable) sampleAlone = some t ∧
      (CustomersKnown (.user 4) t ↔
        Runs.EachStep (Interleaving.step (customerAct (.user 4))) (SavesFirst (.user 4))
          (customerInit (Fin 2) sampleCustomerTable) sampleAlone) :=
  ⟨_, rfl, customers_stay_known_iff rfl⟩

/-- The first call returns a customer whose id the second one replaces. -/
theorem double_click_loses_customer :
    ∃ t, Runs.run (Interleaving.step (customerAct (.user 4)))
        (customerInit (Fin 2) sampleCustomerTable) sampleDoubleClick = some t ∧
      t.procs 0 = .returned "cus_1" ∧ t.procs 1 = .returned "cus_2" ∧
      t.shared.table.getByStripeId "cus_1" = none ∧ ¬ CustomersKnown (.user 4) t := by
  refine ⟨_, rfl, by decide, by decide, by decide, fun h => ?_⟩
  obtain ⟨c, -, -, hc⟩ := h 0 "cus_1" (by decide)
  have hnone : some c = none := hc.symm.trans (by decide)
  cases hnone

end Saasmint
