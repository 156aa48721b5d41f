/-
Saasmint/Lib/Rounding.lean

Rounding to a set of points: `NearestIn S x p` says that `p` is a point of `S`
and no other point of `S` is closer to `x`.

Whatever the ties are broken to, a nearest point of a point is the point
itself (`eq_of_mem`), and nearest points are in the order of what is rounded
(`le_of_lt`): rounding functions are idempotent and monotone.
-/
import Mathlib.Algebra.Order.Round
import Mathlib.Data.List.MinMax
import Mathlib.Tactic.Linarith

namespace Rounding

variable {K : Type*} [Field K] [LinearOrder K] [IsStrictOrderedRing K]

structure NearestIn (S : Set K) (x p : K) : Prop where
  mem : p ∈ S
  le : ∀ q ∈ S, |p - x| ≤ |q - x|

namespace NearestIn

variable {S S' : Set K} {x y p q c : K}

omit [IsStrictOrderedRing K] in
/-- With fewer points to compare with, a nearest point stays one. -/
theorem mono (h : NearestIn S x p) (hsub : S' ⊆ S) (hp : p ∈ S') : NearestIn S' x p :=
  ⟨hp, fun q hq => h.le q (hsub hq)⟩

theorem of_mem (hx : x ∈ S) : NearestIn S x x := by
  refine ⟨hx, fun q _ => ?_⟩
  rw [sub_self, abs_zero]
  exact abs_nonneg _

/-- A point of the set is rounded to itself. -/
theorem eq_of_mem (h : NearestIn S x p) (hx : x ∈ S) : p = x := by
  have hle := h.le x hx
  rw [sub_self, abs_zero] at hle
  exact sub_eq_zero.mp (abs_nonpos_iff.mp hle)

/-- Nearest points are in the order of what is rounded. -/
theorem le_of_lt (hp : NearestIn S x p) (hq : NearestIn S y q) (hxy : x < y) : p ≤ q := by
  by_contra hlt
  have hqp : 0 < p - q := sub_pos.mpr (not_le.mp hlt)
  -- `x` is on the side of `p` from the middle, and `y` on that of `q`
  have h₁ : (p - q) * (p + q) ≤ (p - q) * (2 * x) := by
    have := sq_le_sq.mpr (hp.le q hq.mem)
    linarith
  have h₂ : (p - q) * (2 * y) ≤ (p - q) * (p + q) := by
    have := sq_le_sq.mpr (hq.le p hp.mem)
    linarith
  have h := le_of_mul_le_mul_left (h₂.trans h₁) hqp
  linarith

/-- A bound that is a point of the set bounds what is rounded to the set. -/
theorem le_of_le (h : NearestIn S x p) (hx : x ≤ c) (hc : c ∈ S) : p ≤ c := by
  rcases hx.lt_or_eq with hlt | rfl
  · exact h.le_of_lt (of_mem hc) hlt
  · exact (h.eq_of_mem hc).le

theorem ge_of_ge (h : NearestIn S x p) (hx : c ≤ x) (hc : c ∈ S) : c ≤ p := by
  rcases hx.lt_or_eq with hlt | rfl
  · exact (of_mem hc).le_of_lt h hlt
  · exact (h.eq_of_mem hc).ge

/-- Rounding commutes with a change of the unit. -/
theorem mul_left (h : NearestIn S x p) (c : K) :
    NearestIn {r | ∃ s ∈ S, r = c * s} (c * x) (c * p) := by
  refine ⟨⟨p, h.mem, rfl⟩, ?_⟩
  rintro _ ⟨s, hs, rfl⟩
  rw [← mul_sub, ← mul_sub, abs_mul, abs_mul]
  exact mul_le_mul_of_nonneg_left (h.le s hs) (abs_nonneg c)

omit [IsStrictOrderedRing K] in
/-- The first of the nearest ones of a list that has, for each point of the set,
one that is as near. -/
theorem of_argmin {l : List K} (hp : p ∈ l.argmin fun o => |o - x|) (hS : p ∈ S)
    (hl : ∀ q ∈ S, ∃ o ∈ l, |o - x| ≤ |q - x|) : NearestIn S x p := by
  refine ⟨hS, fun q hq => ?_⟩
  obtain ⟨o, ho, hle⟩ := hl q hq
  exact (List.le_of_mem_argmin ho hp).trans hle

end NearestIn

/-! ### Integers -/

section Floor

variable [FloorRing K] {x : K} {n : ℤ}

/-- The nearest integers are those at most one half away. -/
theorem nearestIn_intCast_iff :
    NearestIn (Set.range fun k : ℤ => (k : K)) x n ↔ |(n : K) - x| ≤ 1 / 2 := by
  constructor
  · intro h
    have hle := h.le (round x) ⟨round x, rfl⟩
    rw [abs_sub_comm ((round x : ℤ) : K)] at hle
    exact hle.trans (abs_sub_round x)
  · intro h
    refine ⟨⟨n, rfl⟩, ?_⟩
    rintro _ ⟨k, rfl⟩
    by_cases hk : k = n
    · rw [hk]
    · -- another integer is at least one half away
      have hone : (1 : K) ≤ |(k : K) - n| := by
        rw [← Int.cast_sub, ← Int.cast_abs, ← Int.cast_one, Int.cast_le]
        exact Int.one_le_abs (sub_ne_zero.mpr hk)
      have htri := abs_sub_le (k : K) x n
      rw [abs_sub_comm x] at htri
      linarith

/-- Ties go to the even neighbour. -/
def roundHalfEven (x : K) : ℤ :=
  if Int.fract x < 1 / 2 then ⌊x⌋
  else if 1 / 2 < Int.fract x then ⌊x⌋ + 1
  else if ⌊x⌋ % 2 = 0 then ⌊x⌋ else ⌊x⌋ + 1

theorem roundHalfEven_nearest (x : K) :
    NearestIn (Set.range fun k : ℤ => (k : K)) x (roundHalfEven x) := by
  apply nearestIn_intCast_iff.mpr
  have hx := Int.floor_add_fract x
  have h₀ := Int.fract_nonneg x
  have h₁ := Int.fract_lt_one x
  rw [abs_le]
  unfold roundHalfEven
  split_ifs
  all_goals
    push_cast
    constructor <;> linarith

/-! ### Multiples of a unit -/

def multiples (c : K) : Set K := {p | ∃ k : ℤ, p = c * k}

/-- In the unit, rounding to a multiple is rounding to an integer. -/
theorem roundHalfEven_div_nearest {c : K} (hc : 0 < c) (x : K) :
    NearestIn (multiples c) x (roundHalfEven (x / c) * c) := by
  have h := (roundHalfEven_nearest (x / c)).mul_left c
  rw [mul_div_cancel₀ x hc.ne', mul_comm c] at h
  refine h.mono ?_ ⟨_, mul_comm _ _⟩
  rintro _ ⟨k, rfl⟩
  exact ⟨k, ⟨k, rfl⟩, rfl⟩

end Floor

end Rounding
