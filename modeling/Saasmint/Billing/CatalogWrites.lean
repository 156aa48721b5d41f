/-
Saasmint/Billing/CatalogWrites.lean

Writes to the price catalog: a write is committed only if the tables still
meet their constraints, and new rows get primary keys that are not in use.

The jobs on the catalog (the FX sweep, the seed, the admin, the Stripe sync)
are compared by what they do to the rows.  `Rewrites t t' g` says that a job
took every row of `t` to its image under `g`, which has the same key and the
same Stripe Price id, and added only rows without a Stripe Price of their own.
-/
import Saasmint.Billing.PriceShown

namespace Saasmint

open PyStr

instance CatalogTables.decidableConstraints (t : CatalogTables) : Decidable t.Constraints :=
  decidable_of_iff
    ((t.plans.map Plan.id).Nodup ∧
      ((t.plans.filter Plan.isActive).map fun p => (p.context, p.tier, p.interval)).Nodup ∧
      (t.planPrices.map PlanPrice.id).Nodup ∧ (t.planPrices.map PlanPrice.planId).Nodup ∧
      (t.planPrices.map PlanPrice.stripePriceId).Nodup ∧ (t.products.map Product.id).Nodup ∧
      (t.productPrices.map ProductPrice.id).Nodup ∧
      (t.productPrices.map ProductPrice.productId).Nodup ∧
      (t.productPrices.map ProductPrice.stripePriceId).Nodup ∧
      (t.localizedPrices.map fun r => (r.owner, r.currency)).Nodup ∧
      (t.localizedPrices.filterMap LocalizedPrice.stripePriceId).Nodup ∧
      (t.countryPrices.map fun r => (r.owner, r.country)).Nodup ∧
      (t.countryPrices.filterMap CountryPrice.stripePriceId).Nodup)
    ⟨fun ⟨h₁, h₂, h₃, h₄, h₅, h₆, h₇, h₈, h₉, h₁₀, h₁₁, h₁₂, h₁₃⟩ =>
        ⟨h₁, h₂, h₃, h₄, h₅, h₆, h₇, h₈, h₉, h₁₀, h₁₁, h₁₂, h₁₃⟩,
      fun ⟨h₁, h₂, h₃, h₄, h₅, h₆, h₇, h₈, h₉, h₁₀, h₁₁, h₁₂, h₁₃⟩ =>
        ⟨h₁, h₂, h₃, h₄, h₅, h₆, h₇, h₈, h₉, h₁₀, h₁₁, h₁₂, h₁₃⟩⟩

/-- Commit a write. -/
def CatalogTables.commit (t : CatalogTables) : Except String Catalog :=
  if h : t.Constraints then .ok ⟨t, h⟩ else .error "IntegrityError"

theorem CatalogTables.commit_ok {t : CatalogTables} {cat : Catalog} (h : t.commit = .ok cat) :
    cat.toCatalogTables = t := by
  unfold CatalogTables.commit at h
  split at h
  · cases h
    rfl
  · cases h

def PriceOwner.id : PriceOwner → UUID
  | planPrice id => id
  | productPrice id => id

/-- The ids that the rows have or refer to. -/
def CatalogTables.ids (t : CatalogTables) : List UUID :=
  t.plans.map Plan.id ++ t.products.map Product.id
    ++ t.planPrices.flatMap (fun pp => [pp.id, pp.planId])
    ++ t.productPrices.flatMap (fun pp => [pp.id, pp.productId])
    ++ t.localizedPrices.map (fun r => r.owner.id) ++ t.countryPrices.map (fun r => r.owner.id)

/-- `uuid.uuid4()`: an id that is not in use. -/
def CatalogTables.newId (t : CatalogTables) : UUID := Table.freshKey t.ids

/-! ### Rows -/

/-- What identifies a row of a price. -/
inductive RowKey
  | usd (owner : PriceOwner)
  | localized (owner : PriceOwner) (currency : String)
  | country (owner : PriceOwner) (country : String)
  deriving DecidableEq, Repr

namespace CatalogRow

def owner : CatalogRow → PriceOwner
  | usd price => price.owner
  | localized r => r.owner
  | country r => r.owner

def key : CatalogRow → RowKey
  | usd price => .usd price.owner
  | localized r => .localized r.owner r.currency
  | country r => .country r.owner r.country

theorem owner_eq_of_key {a b : CatalogRow} (h : a.key = b.key) : a.owner = b.owner := by
  cases a <;> cases b <;> simp_all [key, owner]

end CatalogRow

namespace CatalogTables

/-- The tables have the row. -/
def Holds (t : CatalogTables) : CatalogRow → Prop
  | .usd (.plan pp) => pp ∈ t.planPrices
  | .usd (.product pp) => pp ∈ t.productPrices
  | .localized r => r ∈ t.localizedPrices
  | .country r => r ∈ t.countryPrices

/-- The owning plan or product is active: the gate of `_ACTIVE_OWNER_Q`, and of
the loaders of checkout. -/
def activeOwner (t : CatalogTables) : PriceOwner → Bool
  | .planPrice id => t.planPrices.any fun pp =>
      pp.id = id && t.plans.any fun p => p.id = pp.planId && p.isActive
  | .productPrice id => t.productPrices.any fun pp =>
      pp.id = id && t.products.any fun p => p.id = pp.productId && p.isActive

end CatalogTables

/-- The ids that `seed_catalog` stores where no Stripe Price exists yet. -/
def isPlaceholder (stripePriceId : String) : Bool :=
  "price_placeholder_".toList.isPrefixOf stripePriceId.toList

/-- The row has no Stripe Price yet. -/
def CatalogRow.Unminted (row : CatalogRow) : Prop :=
  ∀ x, row.stripePriceId = some x → isPlaceholder x = true

/-- A job took the rows of `t` to their images under `g`. -/
structure CatalogTables.Rewrites (t t' : CatalogTables) (g : CatalogRow → CatalogRow) : Prop where
  key : ∀ row, (g row).key = row.key
  stripePriceId : ∀ row, (g row).stripePriceId = row.stripePriceId
  old : ∀ row, t.Holds row → t'.Holds (g row)
  new : ∀ row', t'.Holds row' → (∃ row, t.Holds row ∧ row' = g row) ∨ row'.Unminted
  active : ∀ row, t.Holds row → t'.activeOwner row.owner = t.activeOwner row.owner

namespace CatalogTables.Rewrites

variable {t t' t'' : CatalogTables} {g g' : CatalogRow → CatalogRow}

theorem refl (t : CatalogTables) : t.Rewrites t fun row => row where
  key _ := rfl
  stripePriceId _ := rfl
  old _ h := h
  new row' h := Or.inl ⟨row', h, rfl⟩
  active _ _ := rfl

theorem owner (h : t.Rewrites t' g) (row : CatalogRow) : (g row).owner = row.owner :=
  CatalogRow.owner_eq_of_key (h.key row)

/-- Two jobs, one after the other. -/
theorem trans (h : t.Rewrites t' g) (h' : t'.Rewrites t'' g') :
    t.Rewrites t'' fun row => g' (g row) where
  key row := (h'.key (g row)).trans (h.key row)
  stripePriceId row := (h'.stripePriceId (g row)).trans (h.stripePriceId row)
  old row hrow := h'.old _ (h.old row hrow)
  new row'' hrow'' := by
    rcases h'.new row'' hrow'' with ⟨row', hrow', rfl⟩ | hun
    · rcases h.new row' hrow' with ⟨row, hrow, rfl⟩ | hun
      · exact Or.inl ⟨row, hrow, rfl⟩
      · refine Or.inr fun x hx => hun x ?_
        rwa [h'.stripePriceId] at hx
    · exact Or.inr hun
  active row hrow := by
    have h₁ := h'.active (g row) (h.old row hrow)
    rw [h.owner] at h₁
    rw [h₁, h.active row hrow]

/-- A rewriting is only used on the rows that there are. -/
theorem congr (h : t.Rewrites t' g) (hkey : ∀ row, (g' row).key = row.key)
    (hid : ∀ row, (g' row).stripePriceId = row.stripePriceId)
    (heq : ∀ row, t.Holds row → g' row = g row) : t.Rewrites t' g' where
  key := hkey
  stripePriceId := hid
  old row hrow := by
    rw [heq row hrow]
    exact h.old row hrow
  new row' hrow' := by
    rcases h.new row' hrow' with ⟨row, hrow, rfl⟩ | hun
    · exact Or.inl ⟨row, hrow, (heq row hrow).symm⟩
    · exact Or.inr hun
  active := h.active

end CatalogTables.Rewrites

/-! ### Country rows -/

/-- The country rows under `f`, the other rows as they are. -/
def CatalogRow.mapCountry (f : CountryPrice → CountryPrice) : CatalogRow → CatalogRow
  | country r => country (f r)
  | row => row

section MapCountry

variable {t : CatalogTables} {f : CountryPrice → CountryPrice}
  (hf : ∀ r, (f r).owner = r.owner ∧ (f r).country = r.country ∧
    (f r).stripePriceId = r.stripePriceId)
include hf

theorem mapCountry_key (row : CatalogRow) : (row.mapCountry f).key = row.key := by
  rcases row with price | r | r
  · rfl
  · rfl
  · obtain ⟨howner, hcountry, -⟩ := hf r
    show RowKey.country (f r).owner (f r).country = RowKey.country r.owner r.country
    rw [howner, hcountry]

theorem mapCountry_stripePriceId (row : CatalogRow) :
    (row.mapCountry f).stripePriceId = row.stripePriceId := by
  rcases row with price | r | r
  · rfl
  · rfl
  · exact (hf r).2.2

/-- A job that writes country rows alone. -/
theorem rewrites_mapCountry {rows : List CountryPrice}
    (hold : ∀ r ∈ t.countryPrices, f r ∈ rows)
    (hnew : ∀ r' ∈ rows, (∃ r ∈ t.countryPrices, r' = f r) ∨ (CatalogRow.country r').Unminted) :
    t.Rewrites { t with countryPrices := rows } (CatalogRow.mapCountry f) where
  key := mapCountry_key hf
  stripePriceId := mapCountry_stripePriceId hf
  old := by
    rintro ((pp | pp) | r | r) hrow
    · exact hrow
    · exact hrow
    · exact hrow
    · exact hold r hrow
  new := by
    rintro ((pp | pp) | r | r) hrow
    · exact Or.inl ⟨.usd (.plan pp), hrow, rfl⟩
    · exact Or.inl ⟨.usd (.product pp), hrow, rfl⟩
    · exact Or.inl ⟨.localized r, hrow, rfl⟩
    · rcases hnew r hrow with ⟨r₀, hr₀, rfl⟩ | hun
      · exact Or.inl ⟨.country r₀, hr₀, rfl⟩
      · exact Or.inr hun
  active := by
    intro row _
    rcases row.owner with k | k
    · rfl
    · rfl

end MapCountry

end Saasmint
