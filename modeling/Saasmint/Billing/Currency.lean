/-
Saasmint/Billing/Currency.lean

Currencies and display amounts (saasmint_core/services/currency.py and
`_to_minor_units` of apps/billing/tasks.py).

Amounts are stored in minor units and displayed in major ones.  The code
computes with doubles.  `round_friendly` is written once, with the rounding of
its arithmetic as a parameter: `Binary64.fl` for what the code computes, the
identity for the exact result.  The two differ where the exact amount is, or
nearly is, in the middle between two prices.
-/
import Mathlib.Data.List.MinMax
import Mathlib.Data.Rat.Floor
import Mathlib.Algebra.Order.Round
import Saasmint.Lib.PyStr
import Saasmint.Lib.Binary64

namespace Saasmint

open Rounding

def supportedCurrencies : List String :=
  ["usd", "eur", "gbp", "jpy", "brl", "krw", "sek", "nok", "dkk", "pln",
   "try", "idr", "rub", "cny", "twd", "sar", "aed", "chf", "cad", "aud"]

def zeroDecimalCurrencies : List String := ["jpy", "krw", "idr", "twd"]

/-- `currency.lower() in ZERO_DECIMAL_CURRENCIES`, for a code in ASCII, as all codes
of the catalog, of the feed and of Stripe are. -/
def isZeroDecimal (currency : String) : Bool :=
  PyStr.asciiLower currency ∈ zeroDecimalCurrencies

/-- Minor units to display units. -/
def formatAmount (amount : Int) (currency : String) : ℚ :=
  if isZeroDecimal currency then amount else amount / 100

/-! ### Rounding -/

/-- `ROUND_HALF_UP` to an integer: ties go away from zero. -/
def roundHalfUp (q : ℚ) : Int := if 0 ≤ q then round q else -round (-q)

/-- The candidates of `round_friendly`, where `fl` rounds the result of every operation. -/
def friendlyOptions (fl : ℚ → ℚ) (amount : ℚ) : List ℚ :=
  let whole := ⌊amount⌋
  [fl (whole - fl 0.01), fl (whole + fl 0.49), fl (whole + fl 0.99), fl (whole + fl 1.49)]

/-- `round_friendly`, with the same rounding. -/
def roundFriendlyIn (fl : ℚ → ℚ) (amount : ℚ) (currency : String) : ℚ :=
  if amount ≤ 0 then 0
  else if isZeroDecimal currency then
    let step := if 1000 ≤ amount then 100 else 10
    fl (roundHalfEven (fl (amount / step)) * step)
  else
    -- the first of the nearest ones, as `min` picks it
    ((friendlyOptions fl amount).argmin fun o => |fl (o - amount)|).getD 0

/-- `round_friendly` on exact amounts. -/
def roundFriendly (amount : ℚ) (currency : String) : ℚ := roundFriendlyIn id amount currency

/-- `_to_minor_units` of an amount as `str` prints it. -/
def toMinorUnits (displayAmount : ℚ) (currency : String) : Int :=
  roundHalfUp (if isZeroDecimal currency then displayAmount else displayAmount * 100)

section RoundFriendly

variable (fl : ℚ → ℚ) {amount : ℚ} {currency : String}

theorem roundFriendlyIn_of_nonpos (h : amount ≤ 0) : roundFriendlyIn fl amount currency = 0 :=
  if_pos h

theorem roundFriendlyIn_zeroDecimal (hz : isZeroDecimal currency = true) (h : 0 < amount) :
    ∃ step : ℚ, 0 < step ∧ step = (if 1000 ≤ amount then 100 else 10) ∧
      roundFriendlyIn fl amount currency = fl (roundHalfEven (fl (amount / step)) * step) := by
  refine ⟨if 1000 ≤ amount then 100 else 10, ?_, rfl, ?_⟩
  · split <;> norm_num
  · rw [roundFriendlyIn, if_neg h.not_ge, if_pos hz]

theorem roundFriendlyIn_standard (hz : isZeroDecimal currency = false) (h : 0 < amount) :
    roundFriendlyIn fl amount currency
      ∈ (friendlyOptions fl amount).argmin fun o => |fl (o - amount)| := by
  have hz' : ¬ isZeroDecimal currency = true := by simp [hz]
  rw [roundFriendlyIn, if_neg h.not_ge, if_neg hz']
  rcases e : (friendlyOptions fl amount).argmin fun o => |fl (o - amount)| with - | p
  · cases List.argmin_eq_none.mp e
  · rfl

end RoundFriendly

@[simp] theorem roundHalfUp_intCast (n : Int) : roundHalfUp n = n := by
  have h : -(n : ℚ) = ((-n : Int) : ℚ) := by push_cast; rfl
  unfold roundHalfUp
  split
  · exact round_intCast n
  · rw [h, round_intCast, neg_neg]

theorem roundHalfUp_of_nonneg {q : ℚ} (h : 0 ≤ q) : roundHalfUp q = round q := if_pos h

theorem roundHalfUp_nearest (q : ℚ) :
    Rounding.NearestIn (Set.range fun k : ℤ => (k : ℚ)) q (roundHalfUp q) := by
  apply Rounding.nearestIn_intCast_iff.mpr
  rcases le_or_gt 0 q with h | h
  · rw [roundHalfUp_of_nonneg h, abs_sub_comm]
    exact abs_sub_round q
  · have hneg : roundHalfUp q = -round (-q) := if_neg h.not_ge
    have heq : ((roundHalfUp q : ℤ) : ℚ) - q = -q - round (-q) := by
      rw [hneg]
      push_cast
      ring
    rw [heq]
    exact abs_sub_round (-q)

theorem roundHalfUp_mono {a b : ℚ} (h : a ≤ b) : roundHalfUp a ≤ roundHalfUp b := by
  rcases h.lt_or_eq with hlt | rfl
  · exact Int.cast_le.mp ((roundHalfUp_nearest a).le_of_lt (roundHalfUp_nearest b) hlt)
  · exact le_rfl

end Saasmint
