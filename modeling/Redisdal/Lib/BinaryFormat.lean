import Mathlib.Data.Rat.Floor
import Redisdal.Lib.Rounding

/-! # Binary formats

The finite numbers of a binary floating-point format with subnormals as exact rationals, the numbers that round to
a finite one, and decimal numbers near them. -/

/-- A binary floating-point format: its significant bits, and the exponents of the last bit. -/
structure BinaryFormat where
  precision : ℕ
  minExponent : ℤ
  maxExponent : ℤ
  precision_pos : 0 < precision
  min_le_max : minExponent ≤ maxExponent

namespace BinaryFormat
open Rounding

variable {f : BinaryFormat}

/-- The absolute values of the finite numbers. -/
def magnitudes (f : BinaryFormat) : Set ℚ :=
  digitNumbers ℚ 2 f.precision {e | f.minExponent ≤ e ∧ e ≤ f.maxExponent}

/-- `q` is zero, or it is neither so small that it rounds to zero nor so large that it rounds to infinity. -/
def InRange (f : BinaryFormat) (q : ℚ) : Prop :=
  q = 0 ∨ 2 ^ f.minExponent < 2 * q ∧ 2 * q < (2 * 2 ^ f.precision - 1) * 2 ^ f.maxExponent

instance (f : BinaryFormat) (q : ℚ) : Decidable (f.InRange q) := inferInstanceAs (Decidable (_ ∨ _ ∧ _))

/-- `q` rounded to the nearest number, ties to even. -/
def round (f : BinaryFormat) (q : ℚ) : ℚ :=
  let k := max (lastExponent 2 f.precision q) f.minExponent
  nearestCount 2 k q * 2 ^ k

theorem zero_mem_magnitudes : 0 ∈ f.magnitudes :=
  ⟨0, f.minExponent, ⟨le_rfl, f.min_le_max⟩, Nat.pow_pos (by decide), by simp⟩

theorem magnitudes_subset : f.magnitudes ⊆ digitNumbers ℚ 2 f.precision Set.univ := by
  intro x hx
  obtain ⟨m, e, -, hm, rfl⟩ := hx
  exact ⟨m, e, Set.mem_univ e, hm, rfl⟩

theorem two_zpow_le_of_mem {x : ℚ} (hx : x ∈ f.magnitudes) (hpos : 0 < x) : 2 ^ f.minExponent ≤ x := by
  obtain ⟨m, e, ⟨he, -⟩, -, rfl⟩ := hx
  have hm : m ≠ 0 := by
    rintro rfl
    simp at hpos
  have hone : (1 : ℚ) ≤ m := by exact_mod_cast Nat.one_le_iff_ne_zero.mpr hm
  calc (2 : ℚ) ^ f.minExponent ≤ 2 ^ e := zpow_le_zpow_right₀ (by norm_num) he
    _ ≤ m * 2 ^ e := le_mul_of_one_le_left (zpow_nonneg (by norm_num) e) hone

theorem le_of_mem {x : ℚ} (hx : x ∈ f.magnitudes) : x ≤ (2 ^ f.precision - 1) * 2 ^ f.maxExponent := by
  obtain ⟨m, e, ⟨-, he⟩, hm, rfl⟩ := hx
  have hpow : (1 : ℚ) ≤ 2 ^ f.precision := one_le_pow₀ (by norm_num)
  have hle := mul_zpow_le (K := ℚ) (b := 2) (by decide) hm e
  calc (m : ℚ) * 2 ^ e ≤ (2 ^ f.precision - 1) * 2 ^ e := hle
    _ ≤ (2 ^ f.precision - 1) * 2 ^ f.maxExponent :=
      mul_le_mul_of_nonneg_left (zpow_le_zpow_right₀ (by norm_num) he) (by linarith)

theorem InRange.nonneg {q : ℚ} (h : f.InRange q) : 0 ≤ q := by
  rcases h with rfl | ⟨h, -⟩
  · exact le_rfl
  · have hpos : (0 : ℚ) < 2 ^ f.minExponent := zpow_pos (by norm_num) _
    linarith

/-- The last bit of what is in range is one of a finite number. -/
theorem lastExponent_le {q : ℚ} (hpos : 0 < q) (h : 2 * q < (2 * 2 ^ f.precision - 1) * 2 ^ f.maxExponent) :
    lastExponent 2 f.precision q ≤ f.maxExponent := by
  have hfirst := pow_pred_mul_zpow_lastExponent_le (b := 2) (by decide) f.precision_pos hpos
  have hunit : (0 : ℚ) < 2 ^ f.maxExponent := zpow_pos (by norm_num) _
  rw [Nat.cast_ofNat] at hfirst
  have hlt : (2 : ℚ) ^ (f.precision - 1) * 2 ^ lastExponent 2 f.precision q <
      2 ^ (f.precision - 1) * 2 ^ (f.maxExponent + 1) := by
    rw [zpow_add_one₀ (by norm_num), mul_comm (2 ^ f.maxExponent), ← mul_assoc, ← pow_succ,
      Nat.sub_add_cancel f.precision_pos]
    linarith
  have hexponent := (zpow_lt_zpow_iff_right₀ (by norm_num)).mp (lt_of_mul_lt_mul_left hlt (by positivity))
  omega

/-- What is in range does not round up out of the largest exponent, to infinity. -/
theorem nearestCount_maxExponent_ne {q : ℚ} (hq : 0 ≤ q)
    (h : 2 * q < (2 * 2 ^ f.precision - 1) * 2 ^ f.maxExponent) :
    nearestCount 2 f.maxExponent q ≠ 2 ^ f.precision := by
  intro hcarry
  have hround := two_mul_abs_sub_nearestCount (b := 2) (by decide) f.maxExponent hq
  rw [hcarry] at hround
  push_cast at hround
  have hle := (abs_le.mp (le_div_iff₀' two_pos |>.mpr hround)).1
  linarith

theorem isNearest_round {q : ℚ} (h : f.InRange q) : IsNearest f.magnitudes q (f.round q) := by
  have hnonneg := h.nonneg
  unfold round
  dsimp only
  rcases h with rfl | ⟨hlow, hhigh⟩
  · have hzero : nearestCount 2 (max (lastExponent 2 f.precision (0 : ℚ)) f.minExponent) (0 : ℚ) = 0 :=
      Nat.le_zero.mp (nearestCount_le (by decide) le_rfl (by simp))
    rw [hzero, Nat.cast_zero, zero_mul]
    exact ⟨zero_mem_magnitudes, fun z _ => by simp⟩
  · have hpos : 0 < q := by
      have hunit : (0 : ℚ) < 2 ^ f.minExponent := zpow_pos (by norm_num) _
      linarith
    have hfirst := pow_pred_mul_zpow_lastExponent_le (b := 2) (by decide) f.precision_pos hpos
    have hlast := lt_pow_mul_zpow_lastExponent (b := 2) (by decide) f.precision q
    rw [Nat.cast_ofNat] at hfirst hlast
    have hle := lastExponent_le hpos hhigh
    generalize hk : max (lastExponent 2 f.precision q) f.minExponent = k
    have hmin : f.minExponent ≤ k := hk ▸ le_max_right _ _
    have hmax : k ≤ f.maxExponent := hk ▸ max_le hle f.min_le_max
    refine isNearest_nearestCount (b := 2) (by decide) f.precision_pos hnonneg ⟨hmin, hmax⟩ ?_ ?_ ?_
    · intro hcarry
      have hne : k ≠ f.maxExponent := by
        rintro rfl
        exact nearestCount_maxExponent_ne hnonneg hhigh hcarry
      exact ⟨by omega, by omega⟩
    · -- Only a number with all of its bits has finer numbers below it.
      intro e he hlt
      have hke : k = lastExponent 2 f.precision q := by
        have := he.1
        omega
      rw [hke]
      refine le_of_eq_of_le ?_ hfirst
      have hprecision := f.precision_pos
      rw [← zpow_natCast, ← zpow_add₀ (by norm_num)]
      congr 1
      omega
    · refine hlast.le.trans (mul_le_mul_of_nonneg_left ?_ (by positivity))
      exact zpow_le_zpow_right₀ (by norm_num) (hk ▸ le_max_left _ _)

section Decimals
variable {b d : ℕ} {x q : ℚ}

/-- A number rounded to enough digits of another radix stays in range. -/
theorem inRange_of_isNearest (hb : 1 < b) (hd : 0 < d) (hpow : 2 ^ f.precision < b ^ (d - 1))
    (hx : x ∈ f.magnitudes) (hq : IsNearest (digitNumbers ℚ b d Set.univ) x q) : f.InRange q := by
  have hnonneg := nonneg_of_mem hx
  have herror := hq.error_le hb hd hnonneg
  have hpow' : (2 : ℚ) ^ f.precision < (b : ℚ) ^ (d - 1) := by exact_mod_cast hpow
  have htwo : (2 : ℚ) ≤ 2 ^ f.precision := le_self_pow₀ (by norm_num) f.precision_pos.ne'
  have hscale : 2 * (2 ^ f.precision * |x - q|) ≤ x :=
    (mul_le_mul_of_nonneg_left (mul_le_mul_of_nonneg_right hpow'.le (abs_nonneg _)) two_pos.le).trans herror
  have hfour : 4 * |x - q| ≤ x := by
    have := mul_le_mul_of_nonneg_right htwo (abs_nonneg (x - q))
    linarith
  obtain ⟨hlow, hhigh⟩ := abs_le.mp (show |x - q| ≤ x / 4 by linarith)
  rcases hnonneg.eq_or_lt with rfl | hpos
  · left
    linarith
  · right
    have hmin := two_zpow_le_of_mem hx hpos
    have hmax := le_of_mem hx
    have hunit : (0 : ℚ) < 2 ^ f.maxExponent := zpow_pos (by norm_num) _
    refine ⟨by linarith, ?_⟩
    have hhalf : 2 * |x - q| < 2 ^ f.maxExponent := by
      refine lt_of_mul_lt_mul_left (lt_of_le_of_lt (b := x) (by linarith) ?_) (zero_le_two.trans htwo)
      linarith
    have := neg_abs_le (x - q)
    linarith

/-- A number read back from enough digits of another radix is the number. -/
theorem eq_of_isNearest (hb : 1 < b) (hd : 0 < d) (hpow : 2 ^ f.precision < b ^ (d - 1)) (hx : x ∈ f.magnitudes)
    (hq : IsNearest (digitNumbers ℚ b d Set.univ) x q) {y : ℚ} (hy : IsNearest f.magnitudes q y) : y = x :=
  Rounding.eq_of_isNearest (by decide) hb hd hpow magnitudes_subset hx hq hy

theorem two_zpow_le_ten_zpow {e : ℤ} {n : ℕ} (h : e ≤ 3 * n) : (2 : ℚ) ^ e ≤ 10 ^ (n : ℤ) := by
  calc (2 : ℚ) ^ e ≤ 2 ^ (3 * n : ℤ) := zpow_le_zpow_right₀ (by norm_num) h
    _ = 8 ^ n := by
      rw [zpow_mul, zpow_natCast]
      norm_num
    _ ≤ 10 ^ n := pow_le_pow_left₀ (by norm_num) (by norm_num) n
    _ = 10 ^ (n : ℤ) := (zpow_natCast _ _).symm

/-- The range of the exponents bounds the decimal exponents. -/
theorem natAbs_le_of_roundsTo {D : ℕ} {X : ℤ} (hd : 0 < d) (hx : x ∈ f.magnitudes) (h : RoundsTo 10 d x D X) {n : ℕ}
    (hmax : f.precision + f.maxExponent + 1 ≤ 3 * n) (hmin : 1 - f.minExponent ≤ 3 * n) : X.natAbs ≤ n := by
  rcases h.leading with hD | ⟨-, rfl⟩
  case inr => exact Nat.zero_le n
  have hlow := zpow_le_mul_zpow (K := ℚ) (by decide) hd hD X
  have hhigh := mul_zpow_lt (K := ℚ) (by decide) h.lt X
  have herror := h.nearest.error_le (by decide) hd (nonneg_of_mem hx)
  generalize (D : ℚ) * ((10 : ℕ) : ℚ) ^ (X + 1 - d) = q at *
  rw [Nat.cast_ofNat] at hlow hhigh herror
  have hq : 0 < q := lt_of_lt_of_le (zpow_pos (by norm_num) X) hlow
  have htwo : 2 * |x - q| ≤ x := by
    have hone : (1 : ℚ) ≤ 10 ^ (d - 1) := one_le_pow₀ (by norm_num)
    have := le_mul_of_one_le_left (abs_nonneg (x - q)) hone
    linarith
  obtain ⟨hxq, hqx⟩ := abs_le.mp (show |x - q| ≤ x / 2 by linarith)
  have hupper : (10 : ℚ) ^ X ≤ 10 ^ (n : ℤ) := by
    refine le_trans ?_ (two_zpow_le_ten_zpow hmax)
    have hle := le_of_mem hx
    have hunit : (0 : ℚ) < 2 ^ f.maxExponent := zpow_pos (by norm_num) _
    rw [zpow_add_one₀ (by norm_num), zpow_add₀ (by norm_num), zpow_natCast]
    linarith
  have hlower : (10 : ℚ) ^ (-n : ℤ) < 10 ^ (X + 1) := by
    have hle := inv_anti₀ (zpow_pos (by norm_num) _) (two_zpow_le_ten_zpow hmin)
    rw [← zpow_neg, ← zpow_neg, neg_sub, zpow_sub_one₀ (by norm_num)] at hle
    have := two_zpow_le_of_mem hx (by linarith)
    linarith
  have h₁ := (zpow_le_zpow_iff_right₀ (by norm_num)).mp hupper
  have h₂ := (zpow_lt_zpow_iff_right₀ (by norm_num)).mp hlower
  omega

end Decimals

end BinaryFormat
