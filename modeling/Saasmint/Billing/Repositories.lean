/-
Saasmint/Billing/Repositories.lean

The database side of the billing services (apps/billing/repositories.py): the
subscriptions table with its two unique constraints, and the lookups and the
upsert that the services use.

`SubscriptionTable.save` writes every column of the row it is given, as
`DjangoSubscriptionRepository.save` does; the database accepts the result or
raises `IntegrityError`.  `mem_save` says which rows a save leaves,
`save_of_mem` that a save over an existing row does not fail.
-/
import Saasmint.Billing.Models
import Saasmint.Lib.Table

namespace Saasmint

/-- The table of subscriptions. -/
structure SubscriptionTable where
  rows : List Subscription
  pk : Table.Unique (fun s => some s.id) rows
  uniq_stripe_id : Table.Unique Subscription.stripeId rows

theorem SubscriptionTable.ext {a b : SubscriptionTable} (h : a.rows = b.rows) : a = b := by
  cases a
  cases b
  simpa using h

namespace SubscriptionTable

def empty : SubscriptionTable := ⟨[], by decide, by decide⟩

/-- `get_by_stripe_id`. -/
def getByStripeId (tbl : SubscriptionTable) (stripeId : String) : Option Subscription :=
  tbl.rows.find? fun s => s.stripeId = some stripeId

/-- `uuid4()`: a key that no row carries. -/
def uuid4 (tbl : SubscriptionTable) : UUID :=
  Table.freshKey (tbl.rows.map Subscription.id)

/-- The row that a save leaves where `old` was: `created_at` is not written. -/
def overwrite (s old : Subscription) : Subscription := { s with createdAt := old.createdAt }

/-- The rows that `aupdate_or_create(id=...)` would leave at time `now`. -/
def savedRows (tbl : SubscriptionTable) (now : Timestamp) (s : Subscription) :
    List Subscription :=
  Table.upsert Subscription.id s.id { s with createdAt := now } (overwrite s) tbl.rows

/-- The database takes rows that meet the constraints; `none` is the
`IntegrityError`. -/
def commit (rows : List Subscription) : Option SubscriptionTable :=
  if h : Table.Unique (fun s => some s.id) rows ∧ Table.Unique Subscription.stripeId rows then
    some ⟨rows, h.1, h.2⟩
  else none

/-- `DjangoSubscriptionRepository.save` at time `now`. -/
def save (tbl : SubscriptionTable) (now : Timestamp) (s : Subscription) :
    Option SubscriptionTable :=
  commit (tbl.savedRows now s)

variable {tbl tbl' : SubscriptionTable} {now : Timestamp} {s r : Subscription}

theorem getByStripeId_eq_some_iff {stripeId : String} :
    tbl.getByStripeId stripeId = some r ↔ r ∈ tbl.rows ∧ r.stripeId = some stripeId :=
  Table.find?_eq_some_iff tbl.uniq_stripe_id

theorem uuid4_ne (hr : r ∈ tbl.rows) : r.id ≠ tbl.uuid4 := by
  intro h
  refine Table.freshKey_not_mem (tbl.rows.map Subscription.id) ?_
  exact List.mem_map.mpr ⟨r, hr, h⟩

theorem commit_eq_some {rows : List Subscription} (h : commit rows = some tbl') :
    tbl'.rows = rows := by
  unfold commit at h
  split at h
  · cases h
    rfl
  · cases h

/-- The rows after a save: the others, and the saved one with the creation
time it had, or `now` if it is new. -/
theorem mem_save (h : tbl.save now s = some tbl') :
    r ∈ tbl'.rows ↔
      (r ∈ tbl.rows ∧ r.id ≠ s.id) ∨ (∃ a ∈ tbl.rows, a.id = s.id ∧ r = overwrite s a) ∨
        ((∀ a ∈ tbl.rows, a.id ≠ s.id) ∧ r = { s with createdAt := now }) := by
  rw [commit_eq_some h]
  exact Table.mem_upsert

variable (now) in
/-- Saving over the row that was read does not violate a constraint. -/
theorem save_of_mem {a : Subscription} (ha : a ∈ tbl.rows) (hid : s.id = a.id)
    (hstripe : s.stripeId = a.stripeId) : ∃ tbl', tbl.save now s = some tbl' := by
  have hupsert : tbl.savedRows now s
      = Table.update Subscription.id s.id (overwrite s) tbl.rows := by
    refine if_pos (List.any_eq_true.mpr ⟨a, ha, ?_⟩)
    simp [hid]
  have hpk := Table.unique_update (f := overwrite s) (k := s.id) tbl.pk tbl.pk
    fun a _ _ b _ hb v hv hw => hb (by
      simp only [Option.some.injEq] at hv hw
      exact hw.trans hv.symm)
  have hst := Table.unique_update (f := overwrite s) (k := s.id) tbl.pk tbl.uniq_stripe_id
    fun c hc hck b hb hbk v hv hw => by
      have hbc : b = a := tbl.uniq_stripe_id.inj hb ha hw (hstripe ▸ hv)
      exact hbk (by rw [hbc, hid])
  rw [← hupsert] at hpk hst
  exact ⟨_, dif_pos ⟨hpk, hst⟩⟩

variable (now) in
/-- Saving a row under a new key and a new Stripe id does not violate a
constraint. -/
theorem save_of_new (hid : ∀ a ∈ tbl.rows, a.id ≠ s.id)
    (hstripe : ∀ a ∈ tbl.rows, ∀ v, s.stripeId = some v → a.stripeId ≠ some v) :
    ∃ tbl', tbl.save now s = some tbl' := by
  have hupsert : tbl.savedRows now s = tbl.rows ++ [{ s with createdAt := now }] := by
    refine if_neg fun h => ?_
    obtain ⟨a, ha, hk⟩ := List.any_eq_true.mp h
    exact hid a ha (by simpa using hk)
  have hpk : Table.Unique (fun s : Subscription => some s.id)
      (tbl.rows ++ [{ s with createdAt := now }]) :=
    Table.unique_append tbl.pk fun b hb v hv hw => hid b hb (by
      simp only [Option.some.injEq] at hv hw
      exact hw.trans hv.symm)
  have hst : Table.Unique Subscription.stripeId (tbl.rows ++ [{ s with createdAt := now }]) :=
    Table.unique_append tbl.uniq_stripe_id fun b hb v hv hw => hstripe b hb v hv hw
  rw [← hupsert] at hpk hst
  exact ⟨_, dif_pos ⟨hpk, hst⟩⟩

variable (now) in
/-- **Saving over the row of a Stripe id.**  The save succeeds, the row under
the id is the saved one, and every other Stripe id has the row it had. -/
theorem save_existing {stripeId : String} {a : Subscription}
    (ha : tbl.getByStripeId stripeId = some a) (hid : s.id = a.id)
    (hs : s.stripeId = some stripeId) :
    ∃ tbl', tbl.save now s = some tbl' ∧
      tbl'.getByStripeId stripeId = some (overwrite s a) ∧
      ∀ other, other ≠ stripeId → tbl'.getByStripeId other = tbl.getByStripeId other := by
  obtain ⟨hmem, hstripe⟩ := getByStripeId_eq_some_iff.mp ha
  obtain ⟨tbl', h⟩ := save_of_mem now hmem hid (hs.trans hstripe.symm)
  refine ⟨tbl', h, ?_, fun other hne => Option.ext fun r => ?_⟩
  · refine getByStripeId_eq_some_iff.mpr ⟨?_, hs⟩
    exact (mem_save h).mpr (Or.inr (Or.inl ⟨a, hmem, hid.symm, rfl⟩))
  · rw [getByStripeId_eq_some_iff, getByStripeId_eq_some_iff, mem_save h]
    constructor
    · rintro ⟨⟨hr, -⟩ | ⟨b, -, -, rfl⟩ | ⟨hnone, -⟩, hother⟩
      · exact ⟨hr, hother⟩
      · exact absurd (Option.some.inj (hother.symm.trans hs)) hne
      · exact absurd hid.symm (hnone a hmem)
    · rintro ⟨hr, hother⟩
      refine ⟨Or.inl ⟨hr, fun hrid => ?_⟩, hother⟩
      have hra : r = a := tbl.pk.inj hr hmem rfl (congrArg some (hid.symm.trans hrid.symm))
      rw [hra, hstripe] at hother
      exact hne (Option.some.inj hother).symm

variable (now) in
/-- **Saving the first row of a Stripe id.**  Under a fresh key the save
succeeds and the row is found under the id. -/
theorem save_insert {stripeId : String} (hnone : tbl.getByStripeId stripeId = none)
    (hfresh : ∀ a ∈ tbl.rows, a.id ≠ s.id) (hs : s.stripeId = some stripeId) :
    ∃ tbl', tbl.save now s = some tbl' ∧
      tbl'.getByStripeId stripeId = some { s with createdAt := now } ∧
      ∀ other, other ≠ stripeId → tbl'.getByStripeId other = tbl.getByStripeId other := by
  have hno : ∀ a ∈ tbl.rows, a.stripeId ≠ some stripeId := fun a ha h => by
    rw [getByStripeId_eq_some_iff.mpr ⟨ha, h⟩] at hnone
    cases hnone
  obtain ⟨tbl', h⟩ := save_of_new now hfresh fun a ha v hv => by
    rw [hs] at hv
    exact hv ▸ hno a ha
  refine ⟨tbl', h, ?_, fun other hne => Option.ext fun r => ?_⟩
  · refine getByStripeId_eq_some_iff.mpr ⟨?_, hs⟩
    exact (mem_save h).mpr (Or.inr (Or.inr ⟨hfresh, rfl⟩))
  · rw [getByStripeId_eq_some_iff, getByStripeId_eq_some_iff, mem_save h]
    constructor
    · rintro ⟨⟨hr, -⟩ | ⟨b, hb, hbid, -⟩ | ⟨-, rfl⟩, hother⟩
      · exact ⟨hr, hother⟩
      · exact absurd hbid (hfresh b hb)
      · exact absurd (Option.some.inj (hother.symm.trans hs)) hne
    · rintro ⟨hr, hother⟩
      exact ⟨Or.inl ⟨hr, hfresh r hr⟩, hother⟩

variable (now) in
/-- The key that `uuid4` gives is fresh. -/
theorem save_first {stripeId : String} (hnone : tbl.getByStripeId stripeId = none)
    (hid : s.id = tbl.uuid4) (hs : s.stripeId = some stripeId) :
    ∃ tbl', tbl.save now s = some tbl' ∧
      tbl'.getByStripeId stripeId = some { s with createdAt := now } ∧
      ∀ other, other ≠ stripeId → tbl'.getByStripeId other = tbl.getByStripeId other :=
  save_insert now hnone (fun _ ha => hid ▸ uuid4_ne ha) hs

variable (now) in
/-- A row under a fresh key and a Stripe id that is taken violates a constraint. -/
theorem save_taken {stripeId : String} {a : Subscription}
    (ha : tbl.getByStripeId stripeId = some a) (hfresh : ∀ a ∈ tbl.rows, a.id ≠ s.id)
    (hs : s.stripeId = some stripeId) : tbl.save now s = none := by
  obtain ⟨hmem, hstripe⟩ := getByStripeId_eq_some_iff.mp ha
  rcases h : tbl.save now s with - | tbl'
  · rfl
  · have hold : a ∈ tbl'.rows := (mem_save h).mpr (Or.inl ⟨hmem, hfresh a hmem⟩)
    have hnew : { s with createdAt := now } ∈ tbl'.rows :=
      (mem_save h).mpr (Or.inr (Or.inr ⟨hfresh, rfl⟩))
    have heq := tbl'.uniq_stripe_id.inj hold hnew hstripe hs
    exact absurd (congrArg Subscription.id heq) (hfresh a hmem)

end SubscriptionTable

/-- What the billing services see of the database. -/
structure BillingDb where
  catalog : CatalogTables
  customers : List StripeCustomer
  subscriptions : SubscriptionTable

namespace BillingDb

/-- `DjangoStripeCustomerRepository.get_by_stripe_id`. -/
def getCustomerByStripeId (db : BillingDb) (stripeId : String) : Option StripeCustomer :=
  db.customers.find? fun c => c.stripeId = stripeId

/-- `DjangoStripeCustomerRepository.get_by_id`. -/
def getCustomerById (db : BillingDb) (id : UUID) : Option StripeCustomer :=
  db.customers.find? fun c => c.id = id

end BillingDb

end Saasmint
