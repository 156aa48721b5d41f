/-
Saasmint/Lib/Cache.lean

A cache whose entries expire: a value under a key, until a time.  `add` writes
only where no entry is live, and says whether it did; it is the test-and-set
that locks and one-time marks are made of.  Nothing is evicted before its time.
-/
import Mathlib.Logic.Function.Basic
import Mathlib.Order.Lattice

namespace Cache

/-- The entries, each with the time it expires. -/
abbrev Entries (κ ν τ : Type*) := κ → Option (ν × τ)

variable {κ ν τ : Type*}

def empty : Entries κ ν τ := fun _ => none

variable [DecidableEq κ] [LinearOrder τ] (c : Entries κ ν τ) (now : τ)

/-- The live value under a key. -/
def get (k : κ) : Option ν := (c k).bind fun e => if now < e.2 then some e.1 else none

def set (k : κ) (v : ν) (expires : τ) : Entries κ ν τ := Function.update c k (some (v, expires))

/-- Write where no entry is live; `none` is the refusal. -/
def add (k : κ) (v : ν) (expires : τ) : Option (Entries κ ν τ) :=
  if (get c now k).isSome then none else some (set c k v expires)

def delete (k : κ) : Entries κ ν τ := Function.update c k none

variable {c now} {k k' : κ} {v w : ν} {expires : τ}

omit [DecidableEq κ] in
theorem get_eq_some : get c now k = some v ↔ ∃ e, c k = some (v, e) ∧ now < e := by
  unfold get
  constructor
  · intro h
    obtain ⟨⟨w, e⟩, hk, hif⟩ := Option.bind_eq_some_iff.mp h
    split at hif
    · rename_i hlt
      obtain rfl := Option.some.inj hif
      exact ⟨e, hk, hlt⟩
    · cases hif
  · rintro ⟨e, hk, hlt⟩
    rw [hk, Option.bind_some]
    exact if_pos hlt

omit [DecidableEq κ] in
@[simp] theorem get_empty : get (empty : Entries κ ν τ) now k = none := rfl

omit [LinearOrder τ] in
theorem set_self : set c k v expires k = some (v, expires) := Function.update_self ..

omit [LinearOrder τ] in
theorem set_of_ne (h : k' ≠ k) : set c k v expires k' = c k' := Function.update_of_ne h ..

omit [LinearOrder τ] in
theorem delete_self : delete c k k = none := Function.update_self ..

omit [LinearOrder τ] in
theorem delete_of_ne (h : k' ≠ k) : delete c k k' = c k' := Function.update_of_ne h ..

@[simp] theorem get_delete_self : get (delete c k) now k = none := by
  show (delete c k k).bind _ = none
  rw [delete_self]
  rfl

/-- An `add` that wrote has found no live entry. -/
theorem add_eq_some {c' : Entries κ ν τ} :
    add c now k v expires = some c' ↔ get c now k = none ∧ c' = set c k v expires := by
  unfold add
  constructor
  · intro h
    split at h
    · cases h
    · rename_i hnone
      exact ⟨Option.not_isSome_iff_eq_none.mp hnone, (Option.some.inj h).symm⟩
  · rintro ⟨hnone, rfl⟩
    rw [if_neg (by rw [hnone]; exact Bool.false_ne_true)]

end Cache
