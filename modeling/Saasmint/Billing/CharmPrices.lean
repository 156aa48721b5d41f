/-
Saasmint/Billing/CharmPrices.lean

`round_friendly` against the price grid of a currency, and what the FX job
makes of its results.

A zero-decimal currency has its grid in tens below 1000 and in hundreds from
there on; any other has `k.49` and `k.99`.  The candidates of `round_friendly`
reach down to `whole - 0.01`, which for amounts below 1 is no price at all: up
to 0.24 it is the nearest candidate.  From there on the result is a nearest
point of the grid (`roundFriendly_nearest`), hence idempotent; it is monotone
throughout (`roundFriendly_mono`).

A sticker of -1 is one that `derive_base` refuses, and with it the whole run of
the job (`charm_rounding_iff`).  In binary the same amounts lead to it, since no
double lies between the one of 0.24 and 0.24 itself
(`minorUnits_fl_nonneg_iff`).
-/
import Saasmint.Billing.LocalizedPrices

namespace Saasmint

open PyStr Rounding

/-! ### The grid -/

/-- The points that prices of a currency are rounded to. -/
def priceGrid (currency : String) : Set ℚ :=
  if isZeroDecimal currency then
    {p | (∃ k : ℤ, p = 10 * k) ∧ p < 1000 ∨ (∃ k : ℤ, p = 100 * k) ∧ 1000 ≤ p}
  else {p | ∃ k : ℕ, p = k + 0.49 ∨ p = k + 0.99}

/-- The amount is rounded to its nearest point of the grid, which is then
rounded to itself. -/
structure CharmRounded (currency : String) (amount : ℚ) : Prop where
  nearest : NearestIn (priceGrid currency) amount (roundFriendly amount currency)
  nonneg : 0 ≤ roundFriendly amount currency
  idempotent : roundFriendly (roundFriendly amount currency) currency
    = roundFriendly amount currency

/-- No price of the grid is passed over: the amount is not one for which
`whole - 0.01`, below zero, is the nearest candidate. -/
def RoundsOntoGrid (currency : String) (amount : ℚ) : Prop :=
  isZeroDecimal currency = true ∨ 0.24 < amount

variable {currency : String} {amount : ℚ}

theorem mem_priceGrid_zeroDecimal (hz : isZeroDecimal currency = true) {p : ℚ} :
    p ∈ priceGrid currency ↔
      (∃ k : ℤ, p = 10 * k) ∧ p < 1000 ∨ (∃ k : ℤ, p = 100 * k) ∧ 1000 ≤ p := by
  rw [priceGrid, if_pos hz]
  rfl

theorem mem_priceGrid_standard (hz : isZeroDecimal currency = false) {p : ℚ} :
    p ∈ priceGrid currency ↔ ∃ k : ℕ, p = k + 0.49 ∨ p = k + 0.99 := by
  rw [priceGrid, if_neg (by simp [hz])]
  rfl

/-! ### Zero-decimal currencies -/

theorem roundFriendly_zeroDecimal (hz : isZeroDecimal currency = true) (h : 0 < amount) :
    roundFriendly amount currency
      = if 1000 ≤ amount then (roundHalfEven (amount / 100) : ℚ) * 100
        else (roundHalfEven (amount / 10) : ℚ) * 10 := by
  obtain ⟨step, -, hstep, heq⟩ := roundFriendlyIn_zeroDecimal id hz h
  rw [roundFriendly, heq, hstep]
  split <;> rfl

theorem zeroDecimal_nearest (hz : isZeroDecimal currency = true) (h : 0 < amount) :
    NearestIn (priceGrid currency) amount (roundFriendly amount currency) := by
  have hgrid := @mem_priceGrid_zeroDecimal currency hz
  rw [roundFriendly_zeroDecimal hz h]
  split
  · -- in hundreds, where 1000 is nearer than every smaller price
    rename_i hle
    have hnear := roundHalfEven_div_nearest (c := 100) (by norm_num) amount
    have hlow := hnear.ge_of_ge hle ⟨10, by norm_num⟩
    refine ⟨hgrid.mpr (Or.inr ⟨hnear.mem, hlow⟩), fun q hq => ?_⟩
    rcases hgrid.mp hq with ⟨-, hlt⟩ | ⟨hk, -⟩
    · have h₁ := hnear.le 1000 ⟨10, by norm_num⟩
      rw [abs_sub_comm 1000, abs_of_nonneg (sub_nonneg.mpr hle)] at h₁
      have h₂ := neg_abs_le (q - amount)
      linarith
    · exact hnear.le q hk
  · -- in tens, which the grid has up to 1000
    rename_i hlt
    have hnear := roundHalfEven_div_nearest (c := 10) (by norm_num) amount
    have hup := hnear.le_of_le (not_le.mp hlt).le ⟨100, by norm_num⟩
    refine hnear.mono ?_ (hgrid.mpr ?_)
    · intro q hq
      rcases hgrid.mp hq with ⟨hk, -⟩ | ⟨⟨k, rfl⟩, -⟩
      · exact hk
      · exact ⟨10 * k, by push_cast; ring⟩
    · rcases hup.lt_or_eq with hlt' | heq
      · exact Or.inl ⟨hnear.mem, hlt'⟩
      · exact Or.inr ⟨⟨10, by rw [heq]; norm_num⟩, heq.ge⟩

/-! ### Other currencies -/

theorem friendlyOptions_id (amount : ℚ) : friendlyOptions id amount
    = [(⌊amount⌋ : ℚ) - 0.01, (⌊amount⌋ : ℚ) + 0.49, (⌊amount⌋ : ℚ) + 0.99,
      (⌊amount⌋ : ℚ) + 1.49] := rfl

theorem roundFriendly_standard (hz : isZeroDecimal currency = false) (h : 0 < amount) :
    roundFriendly amount currency ∈ (friendlyOptions id amount).argmin fun o => |o - amount| := by
  rw [roundFriendly]
  simpa only [id_eq] using roundFriendlyIn_standard id hz h

/-- Each price is at least as far away as one of the candidates. -/
theorem exists_friendlyOption {q : ℚ} (hq : ∃ k : ℕ, q = k + 0.49 ∨ q = k + 0.99) :
    ∃ o ∈ friendlyOptions id amount, |o - amount| ≤ |q - amount| := by
  have hfloor := Int.floor_le amount
  have hlt := Int.lt_floor_add_one amount
  have hstep : ∀ k : ℕ, (k : ℚ) ≤ ⌊amount⌋ - 1 ∨ (k : ℚ) = ⌊amount⌋ ∨ (⌊amount⌋ : ℚ) + 1 ≤ k := by
    intro k
    rcases lt_trichotomy (k : ℤ) ⌊amount⌋ with h | h | h
    · exact Or.inl (by exact_mod_cast Int.le_sub_one_of_lt h)
    · exact Or.inr (Or.inl (by exact_mod_cast h))
    · exact Or.inr (Or.inr (by exact_mod_cast h))
  -- a price that is no candidate is below the first one or above the last one
  have hbelow : q ≤ ⌊amount⌋ - 0.01 → |(⌊amount⌋ - 0.01 : ℚ) - amount| ≤ |q - amount| := by
    intro h
    rw [abs_sub_comm, abs_of_nonneg (by linarith), abs_sub_comm q]
    exact (by linarith : amount - (⌊amount⌋ - 0.01) ≤ amount - q).trans (le_abs_self _)
  have habove : (⌊amount⌋ : ℚ) + 1.49 ≤ q → |(⌊amount⌋ + 1.49 : ℚ) - amount| ≤ |q - amount| := by
    intro h
    rw [abs_of_nonneg (by linarith)]
    exact (by linarith : (⌊amount⌋ + 1.49 : ℚ) - amount ≤ q - amount).trans (le_abs_self _)
  obtain ⟨k, hk⟩ := hq
  rcases hstep k with h | h | h
  · exact ⟨_, by simp [friendlyOptions_id], hbelow (by rcases hk with rfl | rfl <;> linarith)⟩
  · rw [h] at hk
    exact ⟨q, by rcases hk with rfl | rfl <;> simp [friendlyOptions_id], le_rfl⟩
  · exact ⟨_, by simp [friendlyOptions_id], habove (by rcases hk with rfl | rfl <;> linarith)⟩

/-- The candidates are prices, but for `whole - 0.01` where `whole` is 0. -/
theorem mem_priceGrid_of_option (hz : isZeroDecimal currency = false) (h : 0 < amount) {o : ℚ}
    (ho : o ∈ friendlyOptions id amount) : o ∈ priceGrid currency ∨ ⌊amount⌋ = 0 ∧ o = -0.01 := by
  rw [mem_priceGrid_standard hz]
  obtain ⟨w, hw⟩ := Int.eq_ofNat_of_zero_le (Int.floor_nonneg.mpr h.le)
  simp only [friendlyOptions_id, hw, List.mem_cons, List.not_mem_nil, or_false,
    Int.cast_natCast] at ho
  rcases ho with rfl | rfl | rfl | rfl
  · rcases w with - | w
    · exact Or.inr ⟨hw, by norm_num⟩
    · exact Or.inl ⟨w, Or.inr (by push_cast; ring)⟩
  · exact Or.inl ⟨w, Or.inl rfl⟩
  · exact Or.inl ⟨w, Or.inr rfl⟩
  · exact Or.inl ⟨w + 1, Or.inl (by push_cast; ring)⟩

theorem standard_nearest (hz : isZeroDecimal currency = false) (h : 0.24 < amount) :
    NearestIn (priceGrid currency) amount (roundFriendly amount currency) := by
  have hpos : 0 < amount := lt_trans (by norm_num) h
  have hmin := roundFriendly_standard hz hpos
  refine .of_argmin hmin ?_ fun q hq => exists_friendlyOption ((mem_priceGrid_standard hz).mp hq)
  rcases mem_priceGrid_of_option hz hpos (List.argmin_mem hmin) with hmem | ⟨hw, heq⟩
  · exact hmem
  · -- 0.49 is nearer than -0.01
    exfalso
    have hle :=
      List.le_of_mem_argmin (a := (⌊amount⌋ : ℚ) + 0.49) (by simp [friendlyOptions_id]) hmin
    rw [heq, hw, abs_sub_comm, abs_of_nonneg (by linarith)] at hle
    rcases abs_cases ((((0 : ℤ) : ℚ) + 0.49) - amount) with ⟨e, -⟩ | ⟨e, -⟩
    · rw [e] at hle
      push_cast at hle
      linarith
    · rw [e] at hle
      push_cast at hle
      linarith

/-- Up to 0.24 the nearest candidate, or the first of two, is no price. -/
theorem roundFriendly_of_le (hz : isZeroDecimal currency = false) (h : 0 < amount)
    (hle : amount ≤ 0.24) : roundFriendly amount currency = -0.01 := by
  have hfloor : ⌊amount⌋ = 0 := Int.floor_eq_zero_iff.mpr ⟨h.le, lt_of_le_of_lt hle (by norm_num)⟩
  have hmin := roundFriendly_standard hz h
  have hcons : friendlyOptions id amount = (-0.01) :: [0.49, 0.99, 1.49] := by
    simp only [friendlyOptions_id, hfloor]
    norm_num
  rw [hcons, List.argmin_cons] at hmin
  rcases e : [(0.49 : ℚ), 0.99, 1.49].argmin fun o => |o - amount| with - | c
  · cases List.argmin_eq_none.mp e
  · have hc : c ∈ [(0.49 : ℚ), 0.99, 1.49] := List.argmin_mem e
    have hfar : ¬ |c - amount| < |(-0.01 : ℚ) - amount| := by
      have hc' : 0.49 ≤ c := by
        simp only [List.mem_cons, List.not_mem_nil, or_false] at hc
        rcases hc with rfl | rfl | rfl <;> norm_num
      rw [abs_of_nonneg (by linarith), abs_of_nonpos (by linarith)]
      linarith
    rw [e] at hmin
    dsimp only at hmin
    rw [if_neg hfar] at hmin
    exact (Option.some.inj hmin).symm

/-! ### Prices -/

/-- **A nearest point of the grid.** -/
theorem roundFriendly_nearest (h : 0 < amount) (hgrid : RoundsOntoGrid currency amount) :
    NearestIn (priceGrid currency) amount (roundFriendly amount currency) := by
  rcases hz : isZeroDecimal currency with - | -
  · rcases hgrid with hz' | hlt
    · rw [hz] at hz'
      cases hz'
    · exact standard_nearest hz hlt
  · exact zeroDecimal_nearest hz h

theorem roundFriendly_nonneg (h : 0 < amount) (hgrid : RoundsOntoGrid currency amount) :
    0 ≤ roundFriendly amount currency := by
  have hnear := roundFriendly_nearest h hgrid
  rcases hz : isZeroDecimal currency with - | -
  · obtain ⟨k, hk⟩ := (mem_priceGrid_standard hz).mp hnear.mem
    have : (0 : ℚ) ≤ k := Nat.cast_nonneg k
    rcases hk with hk | hk
    all_goals
      rw [hk]
      linarith
  · exact hnear.ge_of_ge h.le ((mem_priceGrid_zeroDecimal hz).mpr
      (Or.inl ⟨⟨0, by norm_num⟩, by norm_num⟩))

theorem charmRounded_of_grid (h : 0 < amount) (hgrid : RoundsOntoGrid currency amount) :
    CharmRounded currency amount := by
  have hnear := roundFriendly_nearest h hgrid
  refine ⟨hnear, roundFriendly_nonneg h hgrid, ?_⟩
  rcases (roundFriendly_nonneg h hgrid).eq_or_lt with hzero | hpos
  · rw [← hzero]
    exact roundFriendlyIn_of_nonpos id le_rfl
  · refine (roundFriendly_nearest hpos ?_).eq_of_mem hnear.mem
    rcases hz : isZeroDecimal currency with - | -
    · obtain ⟨k, hk⟩ := (mem_priceGrid_standard hz).mp hnear.mem
      have : (0 : ℚ) ≤ k := Nat.cast_nonneg k
      rcases hk with hk | hk
      all_goals
        refine Or.inr ?_
        rw [hk]
        linarith
    · exact Or.inl hz

/-- The result is below zero exactly where it is no price. -/
theorem roundFriendly_eq_of_not_grid (h : 0 < amount) (hgrid : ¬ RoundsOntoGrid currency amount) :
    roundFriendly amount currency = -0.01 := by
  have hz : isZeroDecimal currency = false := by
    rw [← Bool.not_eq_true]
    exact fun hz => hgrid (Or.inl hz)
  exact roundFriendly_of_le hz h (not_lt.mp fun hlt => hgrid (Or.inr hlt))

theorem charmRounded_iff (h : 0 < amount) :
    CharmRounded currency amount ↔ RoundsOntoGrid currency amount := by
  constructor
  · intro hc
    by_contra hgrid
    have hneg := hc.nonneg
    rw [roundFriendly_eq_of_not_grid h hgrid] at hneg
    norm_num at hneg
  · exact charmRounded_of_grid h

theorem roundFriendly_mono {a b : ℚ} (ha : 0 < a) (hab : a ≤ b) (currency : String) :
    roundFriendly a currency ≤ roundFriendly b currency := by
  rcases hab.eq_or_lt with rfl | hlt
  · exact le_rfl
  have hb := ha.trans hlt
  by_cases hgb : RoundsOntoGrid currency b
  · by_cases hga : RoundsOntoGrid currency a
    · exact (roundFriendly_nearest ha hga).le_of_lt (roundFriendly_nearest hb hgb) hlt
    · rw [roundFriendly_eq_of_not_grid ha hga]
      exact le_trans (by norm_num) (roundFriendly_nonneg hb hgb)
  · have hga : ¬ RoundsOntoGrid currency a := fun h => hgb (h.imp_right fun h => h.trans_le hab)
    rw [roundFriendly_eq_of_not_grid ha hga, roundFriendly_eq_of_not_grid hb hgb]

/-! ### Stickers -/

theorem toMinorUnits_nonneg {display : ℚ} (h : 0 ≤ display) (currency : String) :
    0 ≤ toMinorUnits display currency := by
  have hzero : roundHalfUp 0 = 0 := roundHalfUp_intCast 0
  unfold toMinorUnits
  rw [← hzero]
  apply roundHalfUp_mono
  split
  · exact h
  · exact mul_nonneg h (by norm_num)

/-- The exact display amount of US cents at a rate. -/
theorem exactDisplay_pos {cents : Int} (hcents : 0 < cents) {rate : ℚ} (hrate : 0 < rate) :
    0 < formatAmount cents "usd" * rate := by
  have husd : isZeroDecimal "usd" = false := by decide
  have hpos : (0 : ℚ) < cents := Int.cast_pos.mpr hcents
  rw [formatAmount, if_neg (by simp [husd])]
  positivity

/-- The minor units of a rounded amount are negative where it is no price. -/
theorem minorUnits_nonneg_iff (h : 0 < amount) :
    0 ≤ toMinorUnits (roundFriendly amount currency) currency ↔ RoundsOntoGrid currency amount := by
  constructor
  · intro hn
    by_contra hgrid
    have hz : ¬ isZeroDecimal currency = true := fun hz => hgrid (Or.inl hz)
    rw [roundFriendly_eq_of_not_grid h hgrid, toMinorUnits, if_neg hz] at hn
    have hone : (-0.01 * 100 : ℚ) = ((-1 : ℤ) : ℚ) := by norm_num
    rw [hone, roundHalfUp_intCast] at hn
    omega
  · exact fun hgrid => toMinorUnits_nonneg (roundFriendly_nonneg h hgrid) currency

/-! ### Doubles -/

section Doubles

open Binary64

/-- A double above 0.24 is at least the next one. -/
theorem next_le_of_double (hx : amount ∈ doubles) (h : 0.24 < amount) :
    8646911284551353 / 2 ^ 55 ≤ amount := by
  have hlarge : (2 ^ 52 * 2 ^ (-55 : ℤ) : ℚ) < |amount| := by
    rw [abs_of_pos (lt_trans (by norm_num) h)]
    exact lt_trans (by norm_num) h
  obtain ⟨k, rfl⟩ := multiple_of_double hx hlarge
  have hk : (8646911284551352 : ℚ) < k := by
    norm_num at h ⊢
    linarith
  have hk' : (8646911284551353 : ℤ) ≤ k := by
    have hlt : (8646911284551352 : ℤ) < k := by exact_mod_cast hk
    omega
  have hk'' : (8646911284551353 : ℚ) ≤ k := by exact_mod_cast hk'
  norm_num
  linarith

/-- Below one the candidates do not depend on the amount. -/
theorem friendlyOptions_of_lt_one (h : 0 < amount) (hone : amount < 1) :
    friendlyOptions fl amount = fl (0 - fl 0.01) ::
      [fl (0 + fl 0.49), fl (0 + fl 0.99), fl (0 + fl 1.49)] := by
  have hfloor : ⌊amount⌋ = 0 := Int.floor_eq_zero_iff.mpr ⟨h.le, hone⟩
  simp only [friendlyOptions, hfloor, Int.cast_zero]

/-- Up to 0.24 the first candidate is as near as any other. -/
theorem roundFriendlyIn_fl_of_le (hz : isZeroDecimal currency = false) (hx : amount ∈ doubles)
    (h : 0 < amount) (hle : amount ≤ 0.24) :
    roundFriendlyIn fl amount currency = fl (0 - fl 0.01) := by
  have hmin := roundFriendlyIn_standard fl hz h
  rw [friendlyOptions_of_lt_one h (lt_of_le_of_lt hle (by norm_num)), List.argmin_cons] at hmin
  have hle' : amount ≤ fl 0.24 := fl_of_mem hx ▸ fl_mono hle
  have hfirst : |fl (fl (0 - fl 0.01) - amount)| ≤ 1 / 4 := by
    have hlow : fl (fl (0 - fl 0.01) - fl 0.24) = -(1 / 4) := by decide +kernel
    have hzero : fl 0 = 0 := by decide +kernel
    have hneg : fl (0 - fl 0.01) ≤ 0 := by decide +kernel
    rw [abs_le]
    constructor
    · rw [← hlow]
      exact fl_mono (by linarith)
    · exact (fl_mono (by linarith : _ ≤ (0 : ℚ))).trans (by rw [hzero]; norm_num)
  rcases e : [fl (0 + fl 0.49), fl (0 + fl 0.99), fl (0 + fl 1.49)].argmin
    fun o => |fl (o - amount)| with - | c
  · cases List.argmin_eq_none.mp e
  · have hc : fl 0.49 ≤ c := by
      have hmem := List.argmin_mem e
      simp only [List.mem_cons, List.not_mem_nil, or_false] at hmem
      rcases hmem with rfl | rfl | rfl <;> decide +kernel
    have hfar : 1 / 4 ≤ |fl (c - amount)| := by
      have hgap : fl (fl 0.49 - fl 0.24) = 1 / 4 := by decide +kernel
      rw [← hgap]
      exact (fl_mono (by linarith)).trans (le_abs_self _)
    rw [e] at hmin
    dsimp only at hmin
    rw [if_neg (hfirst.trans hfar).not_gt] at hmin
    exact (Option.some.inj hmin).symm

/-- From there on 0.49 is nearer. -/
theorem second_nearer (hx : amount ∈ doubles) (hlt : 0.24 < amount) (hone : amount < 1) :
    |fl (fl (0 + fl 0.49) - amount)| < |fl (fl (0 - fl 0.01) - amount)| := by
  have hnext := next_le_of_double hx hlt
  -- a bound on the distance from the first candidate
  have hfirst : ∀ {b : ℚ}, b ≤ amount →
      -fl (fl (0 - fl 0.01) - b) ≤ |fl (fl (0 - fl 0.01) - amount)| := by
    intro b hb
    exact (neg_le_neg (fl_mono (by linarith))).trans (neg_le_abs _)
  rcases le_or_gt amount (fl 0.49) with hsmall | hlarge
  · have hgap : fl (fl (0 + fl 0.49) - 8646911284551353 / 2 ^ 55)
        < -fl (fl (0 - fl 0.01) - 8646911284551353 / 2 ^ 55) := by decide +kernel
    have hself : fl (0 + fl 0.49) = fl 0.49 := by decide +kernel
    rw [abs_of_nonneg (fl_nonneg (by rw [hself]; linarith))]
    exact (fl_mono (by linarith)).trans_lt (hgap.trans_le (hfirst hnext))
  have hneg : fl (fl (0 + fl 0.49) - amount) ≤ 0 := by
    have hzero : fl 0 = 0 := by decide +kernel
    have hself : fl (0 + fl 0.49) = fl 0.49 := by decide +kernel
    have hle := fl_mono (by rw [hself]; linarith : fl (0 + fl 0.49) - amount ≤ 0)
    exact hle.trans hzero.le
  rw [abs_of_nonpos hneg]
  rcases le_or_gt amount 0.9 with hsmall | hlarge'
  · have hgap : -fl (fl (0 + fl 0.49) - 0.9)
        < -fl (fl (0 - fl 0.01) - fl 0.49) := by decide +kernel
    exact (neg_le_neg (fl_mono (by linarith))).trans_lt (hgap.trans_le (hfirst hlarge.le))
  · have hgap : -fl (fl (0 + fl 0.49) - 1)
        < -fl (fl (0 - fl 0.01) - 0.9) := by decide +kernel
    exact (neg_le_neg (fl_mono (by linarith))).trans_lt (hgap.trans_le (hfirst hlarge'.le))

theorem roundFriendlyIn_fl_nonneg (hx : amount ∈ doubles)
    (hgrid : RoundsOntoGrid currency amount) : 0 ≤ roundFriendlyIn fl amount currency := by
  rcases le_or_gt amount 0 with hneg | h
  · rw [roundFriendlyIn_of_nonpos fl hneg]
  rcases hz : isZeroDecimal currency with - | -
  · have hlt : 0.24 < amount := hgrid.resolve_left (by simp [hz])
    have hmin := roundFriendlyIn_standard fl hz h
    have hmem := List.argmin_mem hmin
    have hwhole : (0 : ℚ) ≤ ⌊amount⌋ := by exact_mod_cast Int.floor_nonneg.mpr h.le
    have hconst : (0 : ℚ) ≤ fl 0.49 ∧ (0 : ℚ) ≤ fl 0.99 ∧ (0 : ℚ) ≤ fl 1.49 ∧
        fl 0.01 ≤ 1 := by decide +kernel
    simp only [friendlyOptions, List.mem_cons, List.not_mem_nil, or_false] at hmem
    rcases hmem with heq | heq | heq | heq
    · rcases le_or_gt 1 amount with hone | hone
      · have hwhole' : (1 : ℚ) ≤ ⌊amount⌋ := by
          exact_mod_cast Int.le_floor.mpr (by exact_mod_cast hone)
        rw [heq]
        exact fl_nonneg (by linarith)
      · -- the first candidate is not the nearest one
        exfalso
        have hoptions := friendlyOptions_of_lt_one h hone
        have hfloor : ⌊amount⌋ = 0 := Int.floor_eq_zero_iff.mpr ⟨h.le, hone⟩
        have hle := List.le_of_mem_argmin (a := fl (0 + fl 0.49)) (by simp [hoptions]) hmin
        rw [heq, hfloor, Int.cast_zero] at hle
        exact absurd (second_nearer hx hlt hone) hle.not_gt
    all_goals
      rw [heq]
      exact fl_nonneg (by linarith)
  · obtain ⟨step, hstep, -, heq⟩ := roundFriendlyIn_zeroDecimal fl hz h
    have hround : (0 : ℚ) ≤ roundHalfEven (fl (amount / step)) :=
      (roundHalfEven_nearest _).ge_of_ge (fl_nonneg (div_nonneg h.le hstep.le)) ⟨0, by norm_num⟩
    rw [heq]
    exact fl_nonneg (mul_nonneg hround hstep.le)

/-- **Stickers in binary** are negative where those of exact amounts are. -/
theorem minorUnits_fl_nonneg_iff (hx : amount ∈ doubles) :
    0 ≤ toMinorUnits (decimal (roundFriendlyIn fl amount currency)) currency ↔
      amount ≤ 0 ∨ RoundsOntoGrid currency amount := by
  constructor
  · intro hn
    by_contra hnot
    obtain ⟨hpos, hgrid⟩ := not_or.mp hnot
    have hz : isZeroDecimal currency = false := by
      rw [← Bool.not_eq_true]
      exact fun hz => hgrid (Or.inl hz)
    have hle : amount ≤ 0.24 := not_lt.mp fun hlt => hgrid (Or.inr hlt)
    have hz' : ¬ isZeroDecimal currency = true := by simp [hz]
    have hone : roundHalfUp (decimal (fl (0 - fl 0.01)) * 100) = -1 := by decide +kernel
    rw [roundFriendlyIn_fl_of_le hz hx (not_le.mp hpos) hle, toMinorUnits, if_neg hz', hone] at hn
    omega
  · rintro (hneg | hgrid)
    · rw [roundFriendlyIn_of_nonpos fl hneg]
      exact toMinorUnits_nonneg (decimal_nonneg le_rfl) currency
    · exact toMinorUnits_nonneg (decimal_nonneg (roundFriendlyIn_fl_nonneg hx hgrid)) currency

end Doubles

/-- The sticker that the job derives from US cents is one that it can store. -/
def StickerOntoGrid (rates : List (String × ℚ)) (cents : Int) (currency : String) : Prop :=
  currency = "usd" ∨ ∀ rate ∈ rates.lookup currency,
    displayAmount cents rate ≤ 0 ∨ RoundsOntoGrid currency (displayAmount cents rate)

theorem suggestedSticker_nonneg_iff {rates : List (String × ℚ)} {cents : Int} (hcents : 0 < cents)
    {sticker : Int} (h : suggestedSticker rates cents currency = some sticker) :
    0 ≤ sticker ↔ StickerOntoGrid rates cents currency := by
  unfold suggestedSticker at h
  by_cases husd : currency = "usd"
  · rw [if_pos husd] at h
    cases h
    exact iff_of_true hcents.le (Or.inl husd)
  · rw [if_neg husd] at h
    obtain ⟨rate, hrate, rfl⟩ := Option.map_eq_some_iff.mp h
    refine (minorUnits_fl_nonneg_iff (Binary64.fl_mem _)).trans ?_
    constructor
    · intro hgrid
      refine Or.inr fun rate' hrate' => ?_
      obtain rfl := Option.some.inj (hrate.symm.trans hrate')
      exact hgrid
    · rintro (heq | hall)
      · exact absurd heq husd
      · exact hall rate hrate

/-! ### The job -/

variable {u : UnicodeTables} {t : CatalogTables} {rates : List (String × ℚ)}

/-- `derive_base` takes every sticker but a negative one. -/
theorem deriveBase_isOk_iff {sticker : Int} {country : String} :
    (∃ base, deriveBase sticker (standardVatRate u country) = .ok base) ↔ 0 ≤ sticker := by
  constructor
  · rintro ⟨base, h⟩
    by_contra hneg
    rw [deriveBase, if_pos (not_le.mp hneg)] at h
    cases h
  · exact fun h => deriveBase_isOk u h country

theorem suggestCountryRow_isOk_iff {cp : CountryPrice} {cents : Int}
    (howner : t.usdAmount cp.owner = some cents) (hcents : 0 < cents) :
    (∃ cp', t.suggestCountryRow u rates cp = .ok cp') ↔
      cp.isCurated = true ∨ StickerOntoGrid rates cents cp.currency := by
  rcases hcur : cp.isCurated with - | -
  · rw [suggestCountryRow_uncurated hcur howner]
    rcases hs : suggestedSticker rates cents cp.currency with - | sticker
    · -- without a rate the row is left alone
      refine iff_of_true ⟨cp, rfl⟩ (Or.inr ?_)
      unfold suggestedSticker at hs
      split at hs
      · cases hs
      · refine Or.inr fun rate hrate => ?_
        rw [convert, Option.mem_def.mp hrate] at hs
        cases hs
    · rw [← suggestedSticker_nonneg_iff hcents hs, ← @deriveBase_isOk_iff u sticker cp.country]
      constructor
      · rintro ⟨cp', h⟩
        obtain ⟨base, hbase, -⟩ := Loops.bind_eq_ok.mp h
        exact Or.inr ⟨base, hbase⟩
      · rintro (hfalse | ⟨base, hbase⟩)
        · cases hfalse
        · exact ⟨_, Loops.bind_eq_ok.mpr ⟨base, hbase, rfl⟩⟩
  · exact iff_of_true ⟨cp, suggestCountryRow_curated hcur⟩ (Or.inl rfl)

/-- What the tables hold before a run: every country row has its price, and
every price costs something. -/
structure CatalogTables.Priced (t : CatalogTables) : Prop where
  owners : ∀ cp ∈ t.countryPrices, (t.usdAmount cp.owner).isSome = true
  positive : ∀ price ∈ t.prices, 0 < price.amount

theorem CatalogTables.Priced.usdAmount (hp : t.Priced) {cp : CountryPrice}
    (hcp : cp ∈ t.countryPrices) : ∃ cents, t.usdAmount cp.owner = some cents ∧ 0 < cents := by
  obtain ⟨cents, hcents⟩ := Option.isSome_iff_exists.mp (hp.owners cp hcp)
  obtain ⟨price, hprice, rfl⟩ := Option.map_eq_some_iff.mp hcents
  exact ⟨_, hcents, hp.positive price (List.mem_of_find?_eq_some hprice)⟩

/-- No un-curated row is of a price that would be rounded below zero. -/
def CatalogTables.StickersOntoGrid (t : CatalogTables) (rates : List (String × ℚ)) : Prop :=
  ∀ cp ∈ t.countryPrices, cp.isCurated = false → ∀ cents ∈ t.usdAmount cp.owner,
    StickerOntoGrid rates cents cp.currency

theorem syncLocalizedPrices_isOk_iff {fetch : FxFetch} (hfetch : fetch.apiRates u = some rates)
    (hp : t.Priced) :
    (∃ r, syncLocalizedPrices u fetch t = .ok r) ↔ t.StickersOntoGrid rates := by
  have hrow : ∀ cp ∈ t.countryPrices, (∃ cp', t.suggestCountryRow u rates cp = .ok cp') ↔
      (cp.isCurated = false → ∀ cents ∈ t.usdAmount cp.owner,
        StickerOntoGrid rates cents cp.currency) := by
    intro cp hcp
    obtain ⟨cents, howner, hcents⟩ := hp.usdAmount hcp
    rw [suggestCountryRow_isOk_iff howner hcents, howner]
    rcases cp.isCurated with - | - <;> simp
  unfold syncLocalizedPrices
  rw [hfetch]
  constructor
  · rintro ⟨r, h⟩ cp hcp
    obtain ⟨countryPrices, hcps, -⟩ := Loops.bind_eq_ok.mp h
    obtain ⟨cp', -, hcp'⟩ := (Loops.mapM_ok_mem hcps).1 cp hcp
    exact (hrow cp hcp).mp ⟨cp', hcp'⟩
  · intro hall
    obtain ⟨countryPrices, hcps⟩ := Loops.mapM_isOk fun cp hcp => (hrow cp hcp).mpr (hall cp hcp)
    exact ⟨_, Loops.bind_eq_ok.mpr ⟨countryPrices, hcps, rfl⟩⟩

/-- **Charm rounding.**  An amount is rounded to a nearest point of the price
grid, which is not negative and rounded to itself, exactly where the currency is
zero-decimal or the amount is more than 0.24; rounding is monotone throughout.
The sticker of an exact product is not negative exactly where that holds of the
product.  A sticker that the FX job derives is not negative exactly where that
holds of the double that it rounds, or the double is zero or the currency USD,
and a run is aborted by no price exactly where that holds of every row that is
not curated. -/
theorem charm_rounding_iff (currency : String) :
    (∀ amount, 0 < amount →
      (CharmRounded currency amount ↔ RoundsOntoGrid currency amount)) ∧
    (∀ a b, 0 < a → a ≤ b → roundFriendly a currency ≤ roundFriendly b currency) ∧
    (∀ (cents : Int) (rate : ℚ), 0 < cents → 0 < rate →
      (0 ≤ toMinorUnits (roundFriendly (formatAmount cents "usd" * rate) currency) currency ↔
        RoundsOntoGrid currency (formatAmount cents "usd" * rate))) ∧
    (∀ (rates : List (String × ℚ)) (cents sticker : Int), 0 < cents →
      suggestedSticker rates cents currency = some sticker →
        (0 ≤ sticker ↔ StickerOntoGrid rates cents currency)) ∧
    ∀ (u : UnicodeTables) (t : CatalogTables) (fetch : FxFetch) (rates : List (String × ℚ)),
      fetch.apiRates u = some rates → t.Priced →
        ((∃ r, syncLocalizedPrices u fetch t = .ok r) ↔ t.StickersOntoGrid rates) :=
  ⟨fun _ h => charmRounded_iff h, fun _ _ ha hab => roundFriendly_mono ha hab currency,
    fun _ _ hcents hrate => minorUnits_nonneg_iff (exactDisplay_pos hcents hrate),
    fun _ _ _ hcents h => suggestedSticker_nonneg_iff hcents h,
    fun _ _ _ _ hfetch hp => syncLocalizedPrices_isOk_iff hfetch hp⟩

theorem charm_rounding_iff_eur : CharmRounded "eur" 17.23 ∧ roundFriendly 17.23 "eur" = 16.99 :=
  ⟨((charm_rounding_iff "eur").1 17.23 (by norm_num)).mpr (Or.inr (by norm_num)), by decide +kernel⟩

/-- A plan at 20 cents with a row for Germany that nobody has curated. -/
def centsCatalog : CatalogTables where
  plans := [⟨1, "Personal Basic", "", .personal, .basic, .month, true⟩]
  planPrices := [⟨2, 1, "price_usd", 20⟩]
  products := []
  productPrices := []
  localizedPrices := []
  countryPrices := [⟨.planPrice 2, "DE", "eur", 19, 16, false, none⟩]

/-- 0.18 EUR is rounded to -0.01, and the job is aborted. -/
theorem charm_price_below_zero :
    roundFriendly 0.18 "eur" = -0.01 ∧ ¬ CharmRounded "eur" 0.18 ∧
      syncLocalizedPrices asciiTables ⟨0, some ⟨some "success", .dict [("EUR", some 0.9)]⟩⟩
        centsCatalog = .error "sticker_minor must be non-negative" := by
  have hneg : roundFriendly 0.18 "eur" = -0.01 := by decide +kernel
  refine ⟨hneg, fun h => ?_, by decide +kernel⟩
  have := h.nonneg
  rw [hneg] at this
  norm_num at this

end Saasmint
