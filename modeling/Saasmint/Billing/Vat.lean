/-
Saasmint/Billing/Vat.lean

The standard VAT rates and the tax-exclusive base of a country price
(apps/billing/vat.py and `CountryPrice.recompute_base`).

A rate is a decimal fraction of the base, so it is exact as a rational.  With
the tax on top of the base, rounded half-up again, the total is within one minor
unit of the sticker for rates up to 100 % (`vat_round_trip`).
-/
import Saasmint.Billing.Currency
import Saasmint.Billing.Models
import Saasmint.Lib.Loops

namespace Saasmint

open PyStr

variable (u : UnicodeTables)

/-- `STANDARD_VAT_RATES`. -/
def standardVatRates : List (String × ℚ) :=
  [("AT", 0.20), ("BE", 0.21), ("BG", 0.20), ("HR", 0.25), ("CY", 0.19), ("CZ", 0.21),
   ("DK", 0.25), ("EE", 0.22), ("FI", 0.255), ("FR", 0.20), ("DE", 0.19), ("GR", 0.24),
   ("HU", 0.27), ("IE", 0.23), ("IT", 0.22), ("LV", 0.21), ("LT", 0.21), ("LU", 0.17),
   ("MT", 0.18), ("NL", 0.21), ("PL", 0.23), ("PT", 0.23), ("RO", 0.19), ("SK", 0.23),
   ("SI", 0.22), ("ES", 0.21), ("SE", 0.25), ("GB", 0.20), ("US", 0), ("CN", 0)]

/-- `_EUROZONE`. -/
def eurozone : List String :=
  ["AT", "BE", "HR", "CY", "EE", "FI", "FR", "DE", "GR", "IE", "IT", "LV", "LT", "LU", "MT",
   "NL", "PT", "SK", "SI", "ES"]

/-- `COUNTRY_CURRENCY`. -/
def countryCurrency : List (String × String) :=
  eurozone.map (·, "eur")
    ++ [("DK", "dkk"), ("SE", "sek"), ("PL", "pln"), ("GB", "gbp"), ("US", "usd"), ("CN", "cny")]

/-- `standard_vat_rate`. -/
def standardVatRate (country : String) : ℚ :=
  (standardVatRates.lookup (upper u country)).getD 0

/-- `derive_base`; an error is the text of the `ValueError`. -/
def deriveBase (stickerMinor : Int) (vatRate : ℚ) : Except String Int :=
  if stickerMinor < 0 then .error "sticker_minor must be non-negative"
  else if vatRate < 0 then .error "vat_rate must be non-negative"
  else if vatRate = 0 then .ok stickerMinor
  else .ok (roundHalfUp (stickerMinor / (1 + vatRate)))

/-- `CountryPrice.recompute_base`. -/
def CountryPrice.recomputeBase (cp : CountryPrice) : Except String CountryPrice := do
  let base ← deriveBase cp.stickerMinor (standardVatRate u cp.country)
  return { cp with baseMinor := base }

/-- Every launch country has a rate and a supported currency. -/
theorem countryCurrency_known :
    ∀ p ∈ countryCurrency, (standardVatRates.lookup p.1).isSome ∧ p.2 ∈ supportedCurrencies := by
  decide

theorem standardVatRate_nonneg (country : String) : 0 ≤ standardVatRate u country := by
  have hall : ∀ p ∈ standardVatRates, 0 ≤ p.2 := by decide +kernel
  unfold standardVatRate
  rcases e : standardVatRates.lookup (upper u country) with - | rate
  · exact le_refl 0
  · obtain ⟨l₁, l₂, h, -⟩ := List.lookup_eq_some_iff.mp e
    have hmem : (upper u country, rate) ∈ standardVatRates := by
      rw [h]
      exact List.mem_append_right _ (List.mem_cons_self ..)
    exact hall _ hmem

/-- The derivation only fails on a negative sticker. -/
theorem deriveBase_isOk {stickerMinor : Int} (h : 0 ≤ stickerMinor) (country : String) :
    ∃ base, deriveBase stickerMinor (standardVatRate u country) = .ok base := by
  unfold deriveBase
  rw [if_neg (not_lt.mpr h), if_neg (not_lt.mpr (standardVatRate_nonneg u country))]
  split
  · exact ⟨_, rfl⟩
  · exact ⟨_, rfl⟩

/-- What a recomputation leaves alone, and what it writes. -/
theorem CountryPrice.recomputeBase_spec {cp cp' : CountryPrice}
    (h : cp.recomputeBase u = .ok cp') :
    ∃ base, deriveBase cp.stickerMinor (standardVatRate u cp.country) = .ok base ∧
      cp' = { cp with baseMinor := base } := by
  unfold CountryPrice.recomputeBase at h
  rcases e : deriveBase cp.stickerMinor (standardVatRate u cp.country) with msg | base
  · rw [e] at h
    cases h
  · rw [e] at h
    exact ⟨base, rfl, (Except.ok.inj h).symm⟩

/-! ### With the tax on top again -/

/-- The base with its tax, in minor units. -/
def totalMinor (baseMinor : Int) (vatRate : ℚ) : Int :=
  baseMinor + roundHalfUp (baseMinor * vatRate)

variable {u} {sticker base : Int} {rate : ℚ}

/-- The rate 0 is no special case of the rounding. -/
theorem deriveBase_eq (hs : 0 ≤ sticker) (hr : 0 ≤ rate) :
    deriveBase sticker rate = .ok (roundHalfUp (sticker / (1 + rate))) := by
  unfold deriveBase
  rw [if_neg hs.not_gt, if_neg hr.not_gt]
  split
  · rename_i hzero
    rw [hzero, add_zero, div_one, roundHalfUp_intCast]
  · rfl

theorem deriveBase_eq_ok (hs : 0 ≤ sticker) (hr : 0 ≤ rate) :
    deriveBase sticker rate = .ok base ↔ base = roundHalfUp (sticker / (1 + rate)) := by
  rw [deriveBase_eq hs hr, Except.ok.injEq, eq_comm]

/-- The error of the first rounding, in the sticker's units. -/
theorem abs_base_mul_sub_le (hr : 0 ≤ rate) (hbase : base = roundHalfUp (sticker / (1 + rate))) :
    |(base : ℚ) * (1 + rate) - sticker| ≤ (1 + rate) / 2 := by
  have hpos : 0 < 1 + rate := by linarith
  have hround := Rounding.nearestIn_intCast_iff.mp (roundHalfUp_nearest (sticker / (1 + rate)))
  have hfactor : (base : ℚ) * (1 + rate) - sticker
      = (base - sticker / (1 + rate)) * (1 + rate) := by
    rw [sub_mul, div_mul_cancel₀ _ hpos.ne']
  calc |(base : ℚ) * (1 + rate) - sticker|
      = |(base : ℚ) - sticker / (1 + rate)| * (1 + rate) := by
        rw [hfactor, abs_mul, abs_of_pos hpos]
    _ ≤ 1 / 2 * (1 + rate) := by
        rw [hbase]
        exact mul_le_mul_of_nonneg_right hround hpos.le
    _ = (1 + rate) / 2 := by ring

/-- The error of the second rounding. -/
theorem abs_total_sub_le (base : Int) (rate : ℚ) :
    |(totalMinor base rate : ℚ) - base * (1 + rate)| ≤ 1 / 2 := by
  have hround := Rounding.nearestIn_intCast_iff.mp (roundHalfUp_nearest (base * rate))
  have heq : (totalMinor base rate : ℚ) - base * (1 + rate)
      = roundHalfUp (base * rate) - base * rate := by
    simp only [totalMinor, Int.cast_add]
    ring
  rwa [heq]

/-- Both errors together are less than 2, and what they add up to is an integer. -/
theorem abs_total_sub_sticker_le (hr : 0 ≤ rate) (hr' : rate ≤ 1)
    (hbase : base = roundHalfUp (sticker / (1 + rate))) : |totalMinor base rate - sticker| ≤ 1 := by
  have h := abs_sub_le (totalMinor base rate : ℚ) (base * (1 + rate)) sticker
  have hlt : |(totalMinor base rate : ℚ) - sticker| < 2 := by
    have h₁ := abs_base_mul_sub_le hr hbase
    have h₂ := abs_total_sub_le base rate
    linarith
  have hint : |totalMinor base rate - sticker| < 2 := by exact_mod_cast hlt
  omega

theorem base_le_sticker (hs : 0 ≤ sticker) (hr : 0 ≤ rate)
    (hbase : base = roundHalfUp (sticker / (1 + rate))) : base ≤ sticker := by
  have hs' : (0 : ℚ) ≤ sticker := Int.cast_nonneg hs
  rw [hbase, ← roundHalfUp_intCast sticker]
  apply roundHalfUp_mono
  rw [roundHalfUp_intCast]
  exact div_le_self hs' (by linarith)

theorem standardVatRate_le_one (country : String) : standardVatRate u country ≤ 1 := by
  have hall : ∀ p ∈ standardVatRates, p.2 ≤ 1 := by decide +kernel
  unfold standardVatRate
  rcases e : standardVatRates.lookup (upper u country) with - | rate
  · exact zero_le_one
  · obtain ⟨l₁, l₂, h, -⟩ := List.lookup_eq_some_iff.mp e
    exact hall (upper u country, rate) (by simp [h])

/-- **The VAT round trip.**  The base is within half a unit before tax, the total
within one minor unit, and the base is monotone in the sticker and antitone in
the rate; so whatever the country, what `recompute_base` stores brings the
sticker back up to one minor unit. -/
theorem vat_round_trip :
    (∀ sticker : Int, ∀ rate : ℚ, 0 ≤ sticker → 0 ≤ rate → rate ≤ 1 →
      ∃ base, deriveBase sticker rate = .ok base ∧
        |(base : ℚ) * (1 + rate) - sticker| ≤ (1 + rate) / 2 ∧
        |totalMinor base rate - sticker| ≤ 1 ∧ base ≤ sticker) ∧
    (∀ sticker sticker' base base' : Int, ∀ rate : ℚ, 0 ≤ sticker → sticker ≤ sticker' → 0 ≤ rate →
      deriveBase sticker rate = .ok base → deriveBase sticker' rate = .ok base' → base ≤ base') ∧
    (∀ sticker base base' : Int, ∀ rate rate' : ℚ, 0 ≤ sticker → 0 ≤ rate → rate ≤ rate' →
      deriveBase sticker rate = .ok base → deriveBase sticker rate' = .ok base' → base' ≤ base) ∧
    ∀ (u : UnicodeTables) (cp : CountryPrice), 0 ≤ cp.stickerMinor →
      ∃ cp', cp.recomputeBase u = .ok cp' ∧ cp'.stickerMinor = cp.stickerMinor ∧
        |totalMinor cp'.baseMinor (standardVatRate u cp.country) - cp'.stickerMinor| ≤ 1 := by
  refine ⟨?_, ?_, ?_, ?_⟩
  · intro sticker rate hs hr hr'
    exact ⟨_, deriveBase_eq hs hr, abs_base_mul_sub_le hr rfl, abs_total_sub_sticker_le hr hr' rfl,
      base_le_sticker hs hr rfl⟩
  · intro sticker sticker' base base' rate hs hle hr hbase hbase'
    rw [(deriveBase_eq_ok hs hr).mp hbase, (deriveBase_eq_ok (hs.trans hle) hr).mp hbase']
    apply roundHalfUp_mono
    exact div_le_div_of_nonneg_right (Int.cast_le.mpr hle) (by linarith)
  · intro sticker base base' rate rate' hs hr hle hbase hbase'
    rw [(deriveBase_eq_ok hs hr).mp hbase, (deriveBase_eq_ok hs (hr.trans hle)).mp hbase']
    apply roundHalfUp_mono
    exact div_le_div_of_nonneg_left (Int.cast_nonneg hs) (by linarith) (by linarith)
  · intro u cp hs
    have hr := standardVatRate_nonneg u cp.country
    refine ⟨_, Loops.bind_eq_ok.mpr ⟨_, deriveBase_eq hs hr, rfl⟩, rfl, ?_⟩
    exact abs_total_sub_sticker_le hr (standardVatRate_le_one cp.country) rfl

theorem vat_round_trip_finland :
    ∃ base, deriveBase 1999 0.255 = .ok base ∧ |totalMinor base 0.255 - 1999| ≤ 1 := by
  obtain ⟨base, h, -, htotal, -⟩ :=
    vat_round_trip.1 1999 0.255 (by norm_num) (by norm_num) (by norm_num)
  exact ⟨base, h, htotal⟩

end Saasmint
