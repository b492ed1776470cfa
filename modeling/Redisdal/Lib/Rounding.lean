import Mathlib.Algebra.Order.Round
import Mathlib.Data.Int.Log
import Mathlib.Tactic.Linarith
import Mathlib.Tactic.Positivity
import Mathlib.Tactic.Ring

/-! # Rounding

Numbers of a bounded count of digits in a radix, the points of a set that are nearest to a number, and the
conversion of a number to another radix and back. -/

namespace Rounding

section Numbers
variable {K : Type*} [Field K] [LinearOrder K] [IsStrictOrderedRing K]

/-- `y` is a point of `S` nearest to `x`. -/
structure IsNearest (S : Set K) (x y : K) : Prop where
  mem : y ∈ S
  le : ∀ z ∈ S, |x - y| ≤ |x - z|

/-- The numbers `m * b ^ e` with `m` of at most `p` digits in radix `b` and an exponent in `E`. -/
def digitNumbers (K : Type*) [Field K] (b p : ℕ) (E : Set ℤ) : Set K :=
  {x | ∃ m : ℕ, ∃ e ∈ E, m < b ^ p ∧ x = m * (b : K) ^ e}

variable {b p : ℕ} {E F : Set ℤ} {k : ℤ} {x y : K}

theorem nonneg_of_mem (h : x ∈ digitNumbers K b p E) : 0 ≤ x := by
  obtain ⟨m, e, -, -, rfl⟩ := h
  exact mul_nonneg (Nat.cast_nonneg m) (zpow_nonneg (Nat.cast_nonneg b) e)

/-! ### Gaps -/

theorem exists_multiple (hb : 0 < b) (m : ℕ) {k e : ℤ} (h : k ≤ e) :
    ∃ i : ℤ, (m : K) * (b : K) ^ e = i * (b : K) ^ k := by
  obtain ⟨n, rfl⟩ := Int.le.dest h
  have hb' : (b : K) ≠ 0 := by exact_mod_cast hb.ne'
  refine ⟨m * b ^ n, ?_⟩
  rw [zpow_add₀ hb', zpow_natCast]
  push_cast
  ring

theorem le_abs_sub_of_multiples {u : K} (hu : 0 < u) {i j : ℤ} (h : (i : K) * u ≠ j * u) : u ≤ |i * u - j * u| := by
  have hne : i - j ≠ 0 := by
    intro hij
    rw [sub_eq_zero.mp hij] at h
    exact h rfl
  have hone : (1 : K) ≤ |(i : K) - j| := by exact_mod_cast Int.one_le_abs hne
  rw [← sub_mul, abs_mul, abs_of_pos hu]
  exact le_mul_of_one_le_left hu.le hone

theorem mul_zpow_le (hb : 0 < b) {m : ℕ} (hm : m < b ^ p) (e : ℤ) :
    (m : K) * (b : K) ^ e ≤ ((b : K) ^ p - 1) * (b : K) ^ e := by
  have hle : (m : K) + 1 ≤ (b : K) ^ p := by exact_mod_cast hm
  have hpos : (0 : K) < (b : K) ^ e := zpow_pos (by exact_mod_cast hb) e
  exact mul_le_mul_of_nonneg_right (by linarith) hpos.le

/-- Different numbers of `p` digits are further apart than one of the last of these digits. -/
theorem le_pow_mul_abs_sub (hb : 0 < b) (hx : x ∈ digitNumbers K b p E) (hy : y ∈ digitNumbers K b p F)
    (hne : x ≠ y) : x ≤ (b : K) ^ p * |x - y| := by
  obtain ⟨m, e, -, hm, rfl⟩ := hx
  obtain ⟨n, f, -, hn, rfl⟩ := hy
  have hpow : (1 : K) ≤ (b : K) ^ p := by exact_mod_cast Nat.one_le_pow p b hb
  have hxe := mul_zpow_le (K := K) hb hm e
  have hyf := mul_zpow_le (K := K) hb hn f
  have hpos : ∀ k : ℤ, (0 : K) < (b : K) ^ k := fun k => zpow_pos (by exact_mod_cast hb) k
  -- Both are multiples of the smaller of the two powers.
  have hgap : ∀ k : ℤ, k ≤ e → k ≤ f → (b : K) ^ k ≤ |(m : K) * (b : K) ^ e - n * (b : K) ^ f| := by
    intro k hke hkf
    obtain ⟨i, hi⟩ := exists_multiple (K := K) hb m hke
    obtain ⟨j, hj⟩ := exists_multiple (K := K) hb n hkf
    rw [hi, hj] at hne ⊢
    exact le_abs_sub_of_multiples (hpos k) hne
  generalize hX : (m : K) * (b : K) ^ e = X at *
  generalize hY : (n : K) * (b : K) ^ f = Y at *
  rcases le_or_gt e f with hef | hfe
  · have := mul_le_mul_of_nonneg_left (hgap e le_rfl hef) (zero_le_one.trans hpow)
    nlinarith [hpos e]
  · rcases le_or_gt X ((b : K) ^ p * (b : K) ^ f) with hle | hlt
    · exact hle.trans (mul_le_mul_of_nonneg_left (hgap f hfe.le le_rfl) (zero_le_one.trans hpow))
    · -- `x` is above the binade of `y`, so that the gap to `y` is a large part of `x`.
      have hsub : X - Y ≤ |X - Y| := le_abs_self _
      have h₁ := mul_le_mul_of_nonneg_left hsub (zero_le_one.trans hpow)
      have h₂ := mul_le_mul_of_nonneg_left hyf (zero_le_one.trans hpow)
      have h₃ := mul_le_mul_of_nonneg_left hlt.le (sub_nonneg.mpr hpow)
      linarith

/-! ### Grids -/

/-- A multiple of `u` within half of `u` is a nearest one. -/
theorem abs_sub_le_of_half {u : K} (hu : 0 < u) {n : ℤ} (hn : 2 * |x - n * u| ≤ u) (i : ℤ) :
    |x - n * u| ≤ |x - i * u| := by
  by_cases h : (n : K) * u = i * u
  · rw [h]
  · have hgap := le_abs_sub_of_multiples hu h
    have htri : |n * u - i * u| ≤ |x - n * u| + |x - i * u| := by
      rw [abs_sub_comm x]
      exact abs_sub_le _ _ _
    linarith

/-- Rounding on the grid of `b ^ k` is rounding to `p` digits, where `x` has all of these digits on the grid or
    the exponents end there. -/
theorem abs_sub_le_of_grid (hb : 0 < b) (hp : 0 < p) (hk : ∀ e ∈ E, e < k → (b : K) ^ (k + p - 1) ≤ x) {n : ℤ}
    (hn : 2 * |x - n * (b : K) ^ k| ≤ (b : K) ^ k) {z : K} (hz : z ∈ digitNumbers K b p E) :
    |x - n * (b : K) ^ k| ≤ |x - z| := by
  have hb' : (b : K) ≠ 0 := by exact_mod_cast hb.ne'
  have hu : (0 : K) < (b : K) ^ k := zpow_pos (by exact_mod_cast hb) k
  obtain ⟨m, e, he, hm, rfl⟩ := hz
  rcases le_or_gt k e with hke | hek
  · obtain ⟨i, hi⟩ := exists_multiple (K := K) hb m hke
    rw [hi]
    exact abs_sub_le_of_half hu hn i
  · -- A finer number is below the binade of `x`, whose lower end is on the grid.
    have hlow := hk e he hek
    obtain ⟨i, hi⟩ := exists_multiple (K := K) hb 1 (show k ≤ k + p - 1 by omega)
    rw [Nat.cast_one, one_mul] at hi
    have hz : (m : K) * (b : K) ^ e ≤ (b : K) ^ (k + p - 1) := by
      calc (m : K) * (b : K) ^ e
          ≤ (b : K) ^ p * (b : K) ^ e :=
            mul_le_mul_of_nonneg_right (by exact_mod_cast hm.le) (zpow_nonneg (Nat.cast_nonneg b) e)
        _ = (b : K) ^ (e + p) := by rw [zpow_add₀ hb', zpow_natCast, mul_comm]
        _ ≤ (b : K) ^ (k + p - 1) := zpow_le_zpow_right₀ (by exact_mod_cast hb) (by omega)
    calc |x - n * (b : K) ^ k|
        ≤ |x - i * (b : K) ^ k| := abs_sub_le_of_half hu hn i
      _ = x - (b : K) ^ (k + p - 1) := by rw [← hi, abs_of_nonneg (by linarith)]
      _ ≤ x - m * (b : K) ^ e := by linarith
      _ ≤ |x - m * (b : K) ^ e| := le_abs_self _

/-- Rounding up to `b ^ p` gives a number of `p` digits of the next exponent. -/
theorem mul_zpow_mem (hb : 1 < b) (hp : 0 < p) {n : ℕ} (hn : n ≤ b ^ p) (hk : k ∈ E)
    (hk' : n = b ^ p → k + 1 ∈ E) : (n : K) * (b : K) ^ k ∈ digitNumbers K b p E := by
  have hb' : (b : K) ≠ 0 := by exact_mod_cast (zero_lt_one.trans hb).ne'
  rcases hn.lt_or_eq with hlt | heq
  · exact ⟨n, k, hk, hlt, rfl⟩
  · refine ⟨b ^ (p - 1), k + 1, hk' heq, Nat.pow_lt_pow_right hb (by omega), ?_⟩
    rw [heq, ← Nat.pow_pred_mul hp, zpow_add₀ hb', zpow_one]
    push_cast
    ring

end Numbers

section Rounding
variable {K : Type*} [Field K] [LinearOrder K] [IsStrictOrderedRing K] [FloorRing K]

/-! ### Rounding to a grid -/

/-- The integer nearest to `x`, an even one in the middle between two. -/
def roundHalfEven (x : K) : ℤ :=
  if 2 * Int.fract x < 1 ∨ 2 * Int.fract x = 1 ∧ Even ⌊x⌋ then ⌊x⌋ else ⌊x⌋ + 1

theorem two_mul_abs_sub_roundHalfEven (x : K) : 2 * |x - roundHalfEven x| ≤ 1 := by
  have hfract : x - ⌊x⌋ = Int.fract x := Int.self_sub_floor x
  have hlt := Int.fract_lt_one x
  unfold roundHalfEven
  split_ifs with h
  · rw [hfract, abs_of_nonneg (Int.fract_nonneg x)]
    exact h.elim le_of_lt fun heq => heq.1.le
  · have hge : 1 ≤ 2 * Int.fract x := not_lt.mp fun hlt => h (Or.inl hlt)
    have hsub : x - ((⌊x⌋ + 1 : ℤ) : K) = -(1 - Int.fract x) := by
      push_cast
      linarith
    rw [hsub, abs_neg, abs_of_nonneg (by linarith)]
    linarith

/-- How many times `b ^ k` goes into `x`, to the nearest. -/
def nearestCount (b : ℕ) (k : ℤ) (x : K) : ℕ := (roundHalfEven (x / (b : K) ^ k)).toNat

variable {b p : ℕ} {E : Set ℤ} {k : ℤ} {x : K}

theorem two_mul_abs_sub_nearestCount (hb : 0 < b) (k : ℤ) (hx : 0 ≤ x) :
    2 * |x - nearestCount b k x * (b : K) ^ k| ≤ (b : K) ^ k := by
  have hu : (0 : K) < (b : K) ^ k := zpow_pos (by exact_mod_cast hb) k
  have hround := two_mul_abs_sub_roundHalfEven (x / (b : K) ^ k)
  have hnonneg : 0 ≤ roundHalfEven (x / (b : K) ^ k) := by
    have hfloor : 0 ≤ ⌊x / (b : K) ^ k⌋ := Int.floor_nonneg.mpr (div_nonneg hx hu.le)
    unfold roundHalfEven
    split_ifs
    · exact hfloor
    · omega
  have hcast : (nearestCount b k x : K) = roundHalfEven (x / (b : K) ^ k) := by
    rw [nearestCount, ← Int.cast_natCast, Int.toNat_of_nonneg hnonneg]
  have hmul : x - nearestCount b k x * (b : K) ^ k =
      (x / (b : K) ^ k - roundHalfEven (x / (b : K) ^ k)) * (b : K) ^ k := by
    rw [hcast, sub_mul, div_mul_cancel₀ _ hu.ne']
  rw [hmul, abs_mul, abs_of_pos hu, ← mul_assoc]
  exact mul_le_of_le_one_left hu.le hround

theorem nearestCount_le (hb : 0 < b) (hx : 0 ≤ x) {n : ℕ} (h : x ≤ n * (b : K) ^ k) : nearestCount b k x ≤ n := by
  have hu : (0 : K) < (b : K) ^ k := zpow_pos (by exact_mod_cast hb) k
  have hround := abs_le.mp (le_div_iff₀' two_pos |>.mpr (two_mul_abs_sub_nearestCount hb k hx))
  by_contra hlt
  have hsucc : (n : K) + 1 ≤ nearestCount b k x := by exact_mod_cast not_le.mp hlt
  have hmul := mul_le_mul_of_nonneg_right hsucc hu.le
  linarith [hround.1]

theorem le_nearestCount (hb : 0 < b) (hx : 0 ≤ x) {n : ℕ} (h : n * (b : K) ^ k ≤ x) : n ≤ nearestCount b k x := by
  have hu : (0 : K) < (b : K) ^ k := zpow_pos (by exact_mod_cast hb) k
  have hround := abs_le.mp (le_div_iff₀' two_pos |>.mpr (two_mul_abs_sub_nearestCount hb k hx))
  by_contra hlt
  have hsucc : (nearestCount b k x : K) + 1 ≤ n := by exact_mod_cast not_le.mp hlt
  have hmul := mul_le_mul_of_nonneg_right hsucc hu.le
  linarith [hround.2]

theorem isNearest_nearestCount (hb : 1 < b) (hp : 0 < p) (hx : 0 ≤ x) (hk : k ∈ E)
    (hk' : nearestCount b k x = b ^ p → k + 1 ∈ E) (hlow : ∀ e ∈ E, e < k → (b : K) ^ (k + p - 1) ≤ x)
    (hhigh : x ≤ (b : K) ^ p * (b : K) ^ k) :
    IsNearest (digitNumbers K b p E) x (nearestCount b k x * (b : K) ^ k) := by
  have hb0 : 0 < b := zero_lt_one.trans hb
  have hle : nearestCount b k x ≤ b ^ p := nearestCount_le hb0 hx (by exact_mod_cast hhigh)
  refine ⟨mul_zpow_mem hb hp hle hk hk', ?_⟩
  intro z hz
  have hround := two_mul_abs_sub_nearestCount hb0 k hx
  rw [← Int.cast_natCast] at hround ⊢
  exact abs_sub_le_of_grid hb0 hp hlow hround hz

/-! ### Conversion to another radix -/

/-- The exponent of the last of `p` digits of `x`. -/
def lastExponent (b p : ℕ) (x : K) : ℤ := Int.log b x + 1 - p

theorem lt_pow_mul_zpow_lastExponent (hb : 1 < b) (p : ℕ) (x : K) :
    x < (b : K) ^ p * (b : K) ^ lastExponent b p x := by
  have hpow : (b : K) ^ p * (b : K) ^ lastExponent b p x = (b : K) ^ (Int.log b x + 1) := by
    rw [← zpow_natCast, ← zpow_add₀ (by exact_mod_cast (zero_lt_one.trans hb).ne'), lastExponent]
    congr 1
    omega
  rw [hpow]
  exact Int.lt_zpow_succ_log_self hb x

theorem pow_pred_mul_zpow_lastExponent_le (hb : 1 < b) (hp : 0 < p) (hx : 0 < x) :
    (b : K) ^ (p - 1) * (b : K) ^ lastExponent b p x ≤ x := by
  have hpow : (b : K) ^ (p - 1) * (b : K) ^ lastExponent b p x = (b : K) ^ Int.log b x := by
    rw [← zpow_natCast, ← zpow_add₀ (by exact_mod_cast (zero_lt_one.trans hb).ne'), lastExponent]
    congr 1
    omega
  rw [hpow]
  exact Int.zpow_log_le_self hb hx

/-- With unbounded exponents, rounding to the grid of the last digit gives a nearest number. -/
theorem isNearest_lastExponent (hb : 1 < b) (hp : 0 < p) (hx : 0 < x) :
    IsNearest (digitNumbers K b p Set.univ) x
      (nearestCount b (lastExponent b p x) x * (b : K) ^ lastExponent b p x) := by
  refine isNearest_nearestCount hb hp hx.le (Set.mem_univ _) (fun _ => Set.mem_univ _) ?_ ?_
  · intro e _ _
    refine le_of_eq_of_le ?_ (pow_pred_mul_zpow_lastExponent_le hb hp hx)
    rw [← zpow_natCast, ← zpow_add₀ (by exact_mod_cast (zero_lt_one.trans hb).ne')]
    congr 1
    omega
  · exact (lt_pow_mul_zpow_lastExponent hb p x).le

/-- Rounding to `p` digits changes a number by at most half of its last digit. -/
theorem IsNearest.error_le (hb : 1 < b) (hp : 0 < p) (hx : 0 ≤ x) {q : K}
    (hq : IsNearest (digitNumbers K b p Set.univ) x q) : 2 * ((b : K) ^ (p - 1) * |x - q|) ≤ x := by
  have hb0 : 0 < b := zero_lt_one.trans hb
  rcases hx.eq_or_lt with rfl | hpos
  · have hzero := hq.le 0 ⟨0, 0, Set.mem_univ _, by positivity, by simp⟩
    rw [sub_zero, abs_zero] at hzero
    rw [abs_nonpos_iff.mp hzero, abs_zero, mul_zero, mul_zero]
  · have hle := hq.le _ (isNearest_lastExponent hb hp hpos).mem
    have hround := two_mul_abs_sub_nearestCount hb0 (lastExponent b p x) hx
    have hpow : (0 : K) < (b : K) ^ (p - 1) := pow_pos (by exact_mod_cast hb0) _
    calc 2 * ((b : K) ^ (p - 1) * |x - q|)
        = (b : K) ^ (p - 1) * (2 * |x - q|) := by ring
      _ ≤ (b : K) ^ (p - 1) * (b : K) ^ lastExponent b p x :=
          mul_le_mul_of_nonneg_left (by linarith) hpow.le
      _ ≤ x := pow_pred_mul_zpow_lastExponent_le hb hp hpos

/-- `n * b ^ (X + 1 - p)` is a correct rounding of `x` to `p` significant digits, ties either way. Its leading
    digit is that of `b ^ X`, and zero only in the number zero. -/
structure RoundsTo (b p : ℕ) (x : K) (n : ℕ) (X : ℤ) : Prop where
  lt : n < b ^ p
  leading : b ^ (p - 1) ≤ n ∨ n = 0 ∧ X = 0
  nearest : IsNearest (digitNumbers K b p Set.univ) x (n * (b : K) ^ (X + 1 - p))

theorem zpow_le_mul_zpow (hb : 1 < b) (hp : 0 < p) {n : ℕ} (hn : b ^ (p - 1) ≤ n) (X : ℤ) :
    (b : K) ^ X ≤ n * (b : K) ^ (X + 1 - p) := by
  have hb' : (b : K) ≠ 0 := by exact_mod_cast (zero_lt_one.trans hb).ne'
  calc (b : K) ^ X = (b : K) ^ (p - 1) * (b : K) ^ (X + 1 - p) := by
        rw [← zpow_natCast, ← zpow_add₀ hb']
        congr 1
        omega
    _ ≤ n * (b : K) ^ (X + 1 - p) :=
        mul_le_mul_of_nonneg_right (by exact_mod_cast hn) (zpow_nonneg (Nat.cast_nonneg b) _)

theorem mul_zpow_lt (hb : 1 < b) {n : ℕ} (hn : n < b ^ p) (X : ℤ) :
    n * (b : K) ^ (X + 1 - p) < (b : K) ^ (X + 1) := by
  have hb' : (b : K) ≠ 0 := by exact_mod_cast (zero_lt_one.trans hb).ne'
  calc n * (b : K) ^ (X + 1 - p) < (b : K) ^ p * (b : K) ^ (X + 1 - p) :=
        mul_lt_mul_of_pos_right (by exact_mod_cast hn) (zpow_pos (by exact_mod_cast zero_lt_one.trans hb) _)
    _ = (b : K) ^ (X + 1) := by
        rw [← zpow_natCast, ← zpow_add₀ hb']
        congr 1
        omega

/-- The digits and the exponent of a correct rounding to `p` significant digits. -/
def roundDigits (b p : ℕ) (x : K) : ℕ × ℤ :=
  let k := lastExponent b p x
  let n := nearestCount b k x
  if x = 0 then (0, 0) else if n = b ^ p then (b ^ (p - 1), k + p) else (n, k + p - 1)

theorem roundsTo_roundDigits (hb : 1 < b) (hp : 0 < p) (hx : 0 ≤ x) :
    RoundsTo b p x (roundDigits b p x).1 (roundDigits b p x).2 := by
  have hb0 : 0 < b := zero_lt_one.trans hb
  have hb' : (b : K) ≠ 0 := by exact_mod_cast hb0.ne'
  unfold roundDigits
  dsimp only
  split_ifs with hzero hcarry
  · subst hzero
    refine ⟨Nat.pow_pos hb0, Or.inr ⟨rfl, rfl⟩, ?_, ?_⟩
    · exact ⟨0, _, Set.mem_univ _, Nat.pow_pos hb0, rfl⟩
    · intro z _
      simp
  · have hpos : 0 < x := lt_of_le_of_ne hx (Ne.symm hzero)
    refine ⟨Nat.pow_lt_pow_right hb (by omega), Or.inl le_rfl, ?_⟩
    have hnearest := isNearest_lastExponent hb hp hpos
    have hvalue : ((b ^ p : ℕ) : K) * (b : K) ^ lastExponent b p x =
        ((b ^ (p - 1) : ℕ) : K) * (b : K) ^ (lastExponent b p x + p + 1 - p) := by
      rw [add_sub_right_comm, add_sub_cancel_right, zpow_add_one₀ hb', ← Nat.pow_pred_mul hp]
      push_cast
      ring
    rw [hcarry, hvalue] at hnearest
    exact hnearest
  · have hpos : 0 < x := lt_of_le_of_ne hx (Ne.symm hzero)
    have hle : nearestCount b (lastExponent b p x) x ≤ b ^ p :=
      nearestCount_le hb0 hx (by exact_mod_cast (lt_pow_mul_zpow_lastExponent hb p x).le)
    refine ⟨lt_of_le_of_ne hle hcarry, Or.inl ?_, ?_⟩
    · exact le_nearestCount hb0 hx (by exact_mod_cast pow_pred_mul_zpow_lastExponent_le hb hp hpos)
    · rw [sub_add_cancel, add_sub_cancel_right]
      exact isNearest_lastExponent hb hp hpos

/-- A number of `p` digits in radix `b`, rounded to `d` digits in radix `c` and back to a nearest number of a set
    that has it, is unchanged when `b ^ p < c ^ (d - 1)`. -/
theorem eq_of_isNearest {c d : ℕ} (hb : 0 < b) (hc : 1 < c) (hd : 0 < d) (hpow : b ^ p < c ^ (d - 1)) {S : Set K}
    (hS : S ⊆ digitNumbers K b p Set.univ) (hx : x ∈ S) {q y : K}
    (hq : IsNearest (digitNumbers K c d Set.univ) x q) (hy : IsNearest S q y) : y = x := by
  have hx0 : 0 ≤ x := nonneg_of_mem (hS hx)
  have herror := hq.error_le hc hd hx0
  have hback : |q - y| ≤ |x - q| := by
    rw [abs_sub_comm x q]
    exact hy.le x hx
  by_contra hne
  have hgap := le_pow_mul_abs_sub hb (hS hx) (hS hy.mem) (Ne.symm hne)
  have htri : |x - y| ≤ 2 * |x - q| := by
    have := abs_sub_le x q y
    linarith
  have hdist : 0 < |x - q| := by
    have := abs_pos.mpr (sub_ne_zero.mpr (Ne.symm hne))
    linarith
  have hpow' : (b : K) ^ p < (c : K) ^ (d - 1) := by exact_mod_cast hpow
  have hb' : (0 : K) < (b : K) ^ p := pow_pos (by exact_mod_cast hb) p
  have hlt : x < x := by
    calc x ≤ (b : K) ^ p * |x - y| := hgap
      _ ≤ (b : K) ^ p * (2 * |x - q|) := mul_le_mul_of_nonneg_left htri hb'.le
      _ < (c : K) ^ (d - 1) * (2 * |x - q|) := mul_lt_mul_of_pos_right hpow' (by linarith)
      _ = 2 * ((c : K) ^ (d - 1) * |x - q|) := by ring
      _ ≤ x := herror
  exact lt_irrefl x hlt

end Rounding

end Rounding
