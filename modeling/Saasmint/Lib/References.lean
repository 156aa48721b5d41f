/-
Saasmint/Lib/References.lean

Rows that hold a value and refer to an entry of another store, whose entries
keep their value for as long as they exist.  The rows are *coherent* when every
reference that is live, i.e. denotes an entry, denotes the value of its row.

The store and the rows are written by different jobs.  `coherent_image_iff`:
a job that rewrites the values and leaves the references keeps the rows
coherent exactly when it moves no value of a row with a live reference.
-/
import Mathlib.Data.Set.Basic

namespace References

variable {ρ ν κ : Type*} (value : ρ → ν) (ref : ρ → Option κ) (store : κ → Option ν)

/-- Every live reference of a row denotes the value of the row. -/
def Coherent (rows : Set ρ) : Prop :=
  ∀ r ∈ rows, ∀ k, ref r = some k → ∀ v, store k = some v → v = value r

/-- The reference of a row denotes an entry. -/
def Live (r : ρ) : Prop := ∃ k v, ref r = some k ∧ store k = some v

variable {value ref store} {rows rows' : Set ρ}

theorem Coherent.eq_of_live (h : Coherent value ref store rows) {r : ρ} (hr : r ∈ rows)
    {k : κ} (hk : ref r = some k) {v : ν} (hv : store k = some v) : v = value r :=
  h r hr k hk v hv

/-- **Rewriting the values.**  The new rows are the images of the old ones
under a rewriting that keeps the references, and rows with no live reference. -/
theorem coherent_image_iff {g : ρ → ρ} (hcoh : Coherent value ref store rows)
    (hold : ∀ r ∈ rows, g r ∈ rows') (href : ∀ r, ref (g r) = ref r)
    (hnew : ∀ r' ∈ rows', (∃ r ∈ rows, r' = g r) ∨ ¬ Live ref store r') :
    Coherent value ref store rows' ↔ ∀ r ∈ rows, Live ref store r → value (g r) = value r := by
  constructor
  · rintro h r hr ⟨k, v, hk, hv⟩
    have h₁ := hcoh r hr k hk v hv
    have h₂ := h (g r) (hold r hr) k ((href r).trans hk) v hv
    exact h₂.symm.trans h₁
  · intro h r' hr' k hk v hv
    rcases hnew r' hr' with ⟨r, hr, rfl⟩ | hdead
    · rw [href] at hk
      rw [h r hr ⟨k, v, hk, hv⟩]
      exact hcoh r hr k hk v hv
    · exact absurd ⟨k, v, hk, hv⟩ hdead

end References
