/-
Saasmint/Lib/Binary64.lean

Binary floating-point numbers of 64 bits, as rationals.

A double is `m * 2 ^ e` with `|m| ≤ 2 ^ 53` and `-1074 ≤ e` (`doubles`).  There
is no largest one here: what overflows is out of scope.  `fl` is the rounding
of every arithmetic operation, to the nearest double and in a tie to the even
one (`fl_nearest`), hence monotone and idempotent.  `decimal` is the shortest
decimal that is read back as the double, the nearest one of those, as a
shortest-digits printer writes it.

An algorithm is written once with its rounding as a parameter: `fl` for what
a machine computes and `id` for the exact result.
-/
import Mathlib.Data.Int.Log
import Mathlib.Data.Rat.Floor
import Mathlib.Tactic.Ring
import Mathlib.Tactic.Positivity
import Saasmint.Lib.Rounding

namespace Binary64

open Rounding

/-- The finite doubles, of any size. -/
def doubles : Set ℚ := {x | ∃ m e : ℤ, |m| ≤ 2 ^ 53 ∧ -1074 ≤ e ∧ x = m * 2 ^ e}

/-- The exponent of the last bit of the doubles near `x`. -/
def exponent (x : ℚ) : ℤ := max (Int.log 2 |x| - 52) (-1074)

def fl (x : ℚ) : ℚ := roundHalfEven (x / 2 ^ exponent x) * 2 ^ exponent x

/-- The multiples of a unit next to `x`, the nearest one first. -/
def neighbours (x unit : ℚ) : List ℚ :=
  [roundHalfEven (x / unit) * unit, ⌊x / unit⌋ * unit, ⌈x / unit⌉ * unit]

/-- The decimal with the fewest digits that is rounded to `x`. -/
def decimal (x : ℚ) : ℚ :=
  ((List.range 17).findSome? fun n : ℕ =>
    (neighbours x (10 ^ (Int.log 10 |x| - n))).find? fun d => fl d = x).getD x

/-! ### Rounding -/

variable {x y : ℚ}

theorem two_zpow_pos (e : ℤ) : (0 : ℚ) < 2 ^ e := zpow_pos (by norm_num) e

theorem two_zpow_add (e : ℤ) (n : ℕ) : (2 : ℚ) ^ (e + n) = 2 ^ n * 2 ^ e := by
  rw [zpow_add₀ (by norm_num), zpow_natCast, mul_comm]

theorem abs_lt_exponent (x : ℚ) : |x| < 2 ^ 53 * 2 ^ exponent x := by
  have hlog := Int.lt_zpow_succ_log_self (b := 2) (by norm_num) |x|
  have hle : Int.log 2 |x| + 1 ≤ exponent x + (53 : ℕ) := by
    unfold exponent
    push_cast
    omega
  rw [← two_zpow_add]
  exact hlog.trans_le (zpow_le_zpow_right₀ (by norm_num) (by exact_mod_cast hle))

/-- Below the normal range the exponent is the smallest one. -/
theorem exponent_le_abs (hx : x ≠ 0) : exponent x = -1074 ∨ 2 ^ 52 * 2 ^ exponent x ≤ |x| := by
  rcases max_choice (Int.log 2 |x| - 52) (-1074) with h | h
  · refine Or.inr ?_
    have hlog := Int.zpow_log_le_self (b := 2) (by norm_num) (abs_pos.mpr hx)
    have heq : exponent x + (52 : ℕ) = Int.log 2 |x| := by
      unfold exponent
      rw [h]
      push_cast
      ring
    rw [← two_zpow_add, heq]
    exact_mod_cast hlog
  · exact Or.inl h

/-- A double that is large enough is a multiple of a power of two. -/
theorem multiple_of_double {q : ℚ} (hq : q ∈ doubles) {e : ℤ} (h : 2 ^ 52 * 2 ^ e < |q|) :
    ∃ k : ℤ, q = 2 ^ e * k := by
  obtain ⟨m, e', hm, -, rfl⟩ := hq
  have hle : e ≤ e' := by
    by_contra hlt
    have hm' : |(m : ℚ)| ≤ 2 ^ 53 := by exact_mod_cast hm
    have hpow : (2 : ℚ) ^ e' * 2 ≤ 2 ^ e := by
      rw [← zpow_add_one₀ (by norm_num)]
      exact zpow_le_zpow_right₀ (by norm_num) (by omega)
    rw [abs_mul, abs_of_pos (two_zpow_pos e')] at h
    have := mul_le_mul_of_nonneg_right hm' (two_zpow_pos e').le
    linarith
  obtain ⟨n, rfl⟩ := Int.le.dest hle
  refine ⟨m * 2 ^ n, ?_⟩
  rw [two_zpow_add]
  push_cast
  ring

/-- **The nearest double.** -/
theorem fl_nearest (x : ℚ) : NearestIn doubles x (fl x) := by
  by_cases hx : x = 0
  · subst hx
    have hzero : fl 0 = 0 := by decide +kernel
    rw [hzero]
    exact .of_mem ⟨0, 0, by norm_num, by norm_num, by norm_num⟩
  have hu := two_zpow_pos (exponent x)
  have hnear := roundHalfEven_div_nearest hu x
  have habs : |x / 2 ^ exponent x| ≤ ((2 ^ 53 : ℤ) : ℚ) := by
    rw [abs_div, abs_of_pos hu, div_le_iff₀ hu]
    push_cast
    exact (abs_lt_exponent x).le
  have hint := roundHalfEven_nearest (x / 2 ^ exponent x)
  have hup := hint.le_of_le (abs_le.mp habs).2 ⟨_, rfl⟩
  have hlow :=
    hint.ge_of_ge (c := ((-2 ^ 53 : ℤ) : ℚ)) (by push_cast; exact_mod_cast (abs_le.mp habs).1)
    ⟨_, rfl⟩
  refine ⟨⟨_, exponent x, ?_, le_max_right _ _, rfl⟩, fun q hq => ?_⟩
  · exact abs_le.mpr ⟨by exact_mod_cast hlow, by exact_mod_cast hup⟩
  rcases lt_or_ge (2 ^ 52 * 2 ^ exponent x) |q| with hlarge | hsmall
  · exact hnear.le q (multiple_of_double hq hlarge)
  rcases exponent_le_abs hx with hmin | hle
  · -- every double is a multiple of the smallest one
    obtain ⟨m, e, -, he, rfl⟩ := hq
    obtain ⟨n, rfl⟩ := Int.le.dest he
    refine hnear.le _ ⟨m * 2 ^ n, ?_⟩
    rw [hmin, two_zpow_add]
    generalize (2 : ℚ) ^ (-1074 : ℤ) = c
    push_cast
    ring
  · -- the end of the binade is between `q` and `x`
    have hb : |(2 ^ 52 * 2 ^ exponent x : ℚ)| = 2 ^ 52 * 2 ^ exponent x :=
      abs_of_pos (by positivity)
    have hq' := abs_sub_abs_le_abs_sub x q
    rw [abs_sub_comm] at hq'
    rcases abs_cases x with ⟨heq, -⟩ | ⟨heq, -⟩
    · have h := hnear.le (2 ^ 52 * 2 ^ exponent x) ⟨2 ^ 52, by push_cast; ring⟩
      rw [abs_sub_comm (2 ^ 52 * _ : ℚ), abs_of_nonneg (by linarith : (0 : ℚ) ≤ x - _)] at h
      unfold fl
      linarith
    · have h := hnear.le (-(2 ^ 52 * 2 ^ exponent x)) ⟨-2 ^ 52, by push_cast; ring⟩
      rw [abs_of_nonneg (by linarith : (0 : ℚ) ≤ -(2 ^ 52 * 2 ^ exponent x) - x)] at h
      unfold fl
      linarith

theorem fl_mem (x : ℚ) : fl x ∈ doubles := (fl_nearest x).mem

theorem fl_of_mem (hx : x ∈ doubles) : fl x = x := (fl_nearest x).eq_of_mem hx

theorem fl_mono (h : x ≤ y) : fl x ≤ fl y := by
  rcases h.lt_or_eq with hlt | rfl
  · exact (fl_nearest x).le_of_lt (fl_nearest y) hlt
  · exact le_rfl

theorem fl_nonneg (h : 0 ≤ x) : 0 ≤ fl x :=
  (fl_nearest x).ge_of_ge h ⟨0, 0, by norm_num, by norm_num, by norm_num⟩

/-! ### Printing -/

/-- The decimal of a double that is not negative is not negative. -/
theorem decimal_nonneg (h : 0 ≤ x) : 0 ≤ decimal x := by
  unfold decimal
  rcases e : (List.range 17).findSome? _ with - | d
  · exact h
  · obtain ⟨n, -, hn⟩ := List.exists_of_findSome?_eq_some e
    have hunit : (0 : ℚ) ≤ 10 ^ (Int.log 10 |x| - (n : ℤ)) := zpow_nonneg (by norm_num) _
    have hdiv := div_nonneg h hunit
    have hround : (0 : ℚ) ≤ roundHalfEven (x / 10 ^ (Int.log 10 |x| - n)) :=
      (roundHalfEven_nearest _).ge_of_ge hdiv ⟨0, by norm_num⟩
    have hfloor : (0 : ℚ) ≤ ⌊x / 10 ^ (Int.log 10 |x| - n)⌋ := by
      exact_mod_cast Int.floor_nonneg.mpr hdiv
    have hceil : (0 : ℚ) ≤ ⌈x / 10 ^ (Int.log 10 |x| - n)⌉ := by
      exact_mod_cast Int.ceil_nonneg hdiv
    have hmem := List.mem_of_find?_eq_some hn
    simp only [neighbours, List.mem_cons, List.not_mem_nil, or_false] at hmem
    rcases hmem with rfl | rfl | rfl
    · exact mul_nonneg hround hunit
    · exact mul_nonneg hfloor hunit
    · exact mul_nonneg hceil hunit

end Binary64
