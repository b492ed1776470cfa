import Mathlib.Algebra.Field.Rat
import Mathlib.Algebra.GroupWithZero.Basic
import Mathlib.Data.List.DropRight
import Mathlib.Data.List.TakeWhile
import Mathlib.Tactic.FieldSimp
import Mathlib.Tactic.Ring
import Redisdal.Lib.Bytes

/-! # Decimal texts

Decimal numbers with a point and an exponent: the value of a text, and the text of a decimal in the general format
of `printf`. -/

namespace Bytes

/-! ### Reading -/

/-- The digits after a decimal point, and what follows them. -/
def fractionPart (s : Bytes) : Bytes × Bytes :=
  match s with
  | [] => ([], [])
  | c :: r => if c = ofChar '.' then r.span isDigit else ([], s)

/-- Whether an exponent starts with a minus sign, and what follows its sign. -/
def exponentSign (s : Bytes) : Bool × Bytes :=
  match s with
  | [] => (false, [])
  | c :: r => if c = ofChar '-' then (true, r) else if c = ofChar '+' then (false, r) else (false, s)

/-- The exponent that is all of a text, zero if there is none. -/
def exponentPart (s : Bytes) : Option ℤ :=
  match s with
  | [] => some 0
  | c :: r =>
    let (negative, digits) := exponentSign r
    if (c = ofChar 'e' ∨ c = ofChar 'E') ∧ digits ≠ [] ∧ digits.all isDigit then
      some (if negative then -natValue digits else natValue digits)
    else none

/-- The value of an unsigned decimal. -/
def decimalMagnitude (s : Bytes) : Option ℚ :=
  let (whole, rest) := s.span isDigit
  let (fraction, rest) := fractionPart rest
  if whole ++ fraction = [] then none
  else (exponentPart rest).map fun e => (natValue (whole ++ fraction) : ℚ) * 10 ^ (e - fraction.length : ℤ)

/-- Whether a decimal has a minus sign, and its absolute value. -/
def decimalValue (s : Bytes) : Option (Bool × ℚ) :=
  match s with
  | [] => none
  | c :: r =>
    if c = ofChar '-' then (decimalMagnitude r).map fun q => (true, q)
    else (decimalMagnitude s).map fun q => (false, q)

/-! ### Writing -/

/-- The last `w` digits of `n`. -/
def fixedDigits : ℕ → ℕ → Bytes
  | 0, _ => []
  | w + 1, n => fixedDigits w (n / 10) ++ [digit (n % 10)]

def trimZeros (s : Bytes) : Bytes := s.rdropWhile (· == digit 0)

/-- Digits with a point after the first `k`, without the zeros at the end of the fraction, and without the point
    if nothing is left of it. -/
def pointText (k : ℕ) (s : Bytes) : Bytes :=
  let fraction := trimZeros (s.drop k)
  s.take k ++ if fraction = [] then [] else ofChar '.' :: fraction

/-- The digits of an exponent, at least two. -/
def exponentDigits (n : ℕ) : Bytes := if n < 10 then digit 0 :: decimal n else decimal n

def exponentText (X : ℤ) : Bytes :=
  ofChar 'e' :: (if X < 0 then ofChar '-' else ofChar '+') :: exponentDigits X.natAbs

/-- The text of `D * 10 ^ (X + 1 - d)` that `printf` writes for `%g` with the precision `d`: without an exponent
    from `-4` up to the precision. -/
def generalText (d D : ℕ) (X : ℤ) : Bytes :=
  let digits := fixedDigits d D
  if -4 ≤ X ∧ X < d then pointText (X.toNat + 1) (List.replicate (-X).toNat (digit 0) ++ digits)
  else pointText 1 digits ++ exponentText X

/-! ### Digits -/

theorem length_fixedDigits (w n : ℕ) : (fixedDigits w n).length = w := by
  induction w generalizing n with
  | zero => rfl
  | succ w ih => simp [fixedDigits, ih]

theorem isDigit_fixedDigits {w n : ℕ} : ∀ b ∈ fixedDigits w n, isDigit b = true := by
  induction w generalizing n with
  | zero => simp [fixedDigits]
  | succ w ih =>
    intro b hb
    rcases List.mem_append.mp hb with h | h
    · exact ih b h
    · rw [List.mem_singleton.mp h]
      exact isDigit_digit (Nat.mod_lt n (by decide))

theorem isDigit_zeros_append (n : ℕ) {s : Bytes} (h : ∀ b ∈ s, isDigit b = true) :
    ∀ b ∈ List.replicate n (digit 0) ++ s, isDigit b = true := by
  intro b hb
  rcases List.mem_append.mp hb with hzero | hb
  · rw [(List.mem_replicate.mp hzero).2]
    decide
  · exact h b hb

theorem natValue_fixedDigits {w n : ℕ} (h : n < 10 ^ w) : natValue (fixedDigits w n) = n := by
  induction w generalizing n with
  | zero =>
    rw [Nat.lt_one_iff.mp h]
    rfl
  | succ w ih =>
    have hdiv : n / 10 < 10 ^ w := Nat.div_lt_of_lt_mul (by rwa [← pow_succ'])
    rw [fixedDigits, natValue_append, ih hdiv, toNat_digit (Nat.mod_lt n (by decide))]
    omega

theorem natValue_append_zeros (s : Bytes) (n : ℕ) :
    natValue (s ++ List.replicate n (digit 0)) = natValue s * 10 ^ n := by
  induction n with
  | zero => simp
  | succ n ih =>
    rw [List.replicate_succ', ← List.append_assoc, natValue_append, ih, toNat_digit (by decide), pow_succ]
    ring

theorem natValue_zeros_append (n : ℕ) (s : Bytes) : natValue (List.replicate n (digit 0) ++ s) = natValue s := by
  have hzeros : natValue (List.replicate n (digit 0)) = 0 := by
    have h := natValue_append_zeros [] n
    rwa [List.nil_append, show natValue [] = 0 from rfl, zero_mul] at h
  unfold natValue at hzeros ⊢
  rw [List.foldl_append, hzeros]

theorem eq_trimZeros_append (s : Bytes) : ∃ n, s = trimZeros s ++ List.replicate n (digit 0) := by
  unfold trimZeros
  induction s using List.reverseRecOn with
  | nil => exact ⟨0, rfl⟩
  | append_singleton s c ih =>
    rw [List.rdropWhile_concat]
    split
    · next hc =>
      obtain ⟨n, hn⟩ := ih
      refine ⟨n + 1, ?_⟩
      rw [List.replicate_succ', ← List.append_assoc, ← hn, beq_iff_eq.mp hc]
    · exact ⟨0, by simp⟩

/-! ### What is written reads back -/

theorem span_digits {s r : Bytes} (hs : ∀ b ∈ s, isDigit b = true) (hr : ∀ b ∈ r.head?, isDigit b = false) :
    (s ++ r).span isDigit = (s, r) := by
  have hnone : r.takeWhile isDigit = [] ∧ r.dropWhile isDigit = r := by
    cases r with
    | nil => exact ⟨rfl, rfl⟩
    | cons c r =>
      have hc : isDigit c = false := hr c rfl
      simp [hc]
  rw [List.span_eq_takeWhile_dropWhile, List.takeWhile_append_of_pos hs, List.dropWhile_append_of_pos hs, hnone.1,
    hnone.2, List.append_nil]

/-- The rest of a text that a number without exponent can stand before. -/
def EndsFraction (r : Bytes) : Prop := ∀ b ∈ r.head?, isDigit b = false ∧ b ≠ ofChar '.'

theorem fractionPart_of_ends {r : Bytes} (h : EndsFraction r) : fractionPart r = ([], r) := by
  cases r with
  | nil => rfl
  | cons c r => exact if_neg (h c rfl).2

theorem fractionPart_point {s r : Bytes} (hs : ∀ b ∈ s, isDigit b = true) (h : EndsFraction r) :
    fractionPart (ofChar '.' :: (s ++ r)) = (s, r) := by
  rw [fractionPart, if_pos rfl]
  exact span_digits hs fun b hb => (h b hb).1

theorem decimalMagnitude_eq {whole fraction rest r : Bytes} {X : ℤ} (hw : ∀ b ∈ whole, isDigit b = true)
    (hrest : ∀ b ∈ rest.head?, isDigit b = false) (hf : fractionPart rest = (fraction, r))
    (hne : whole ≠ []) (hX : exponentPart r = some X) :
    decimalMagnitude (whole ++ rest) = some ((natValue (whole ++ fraction) : ℚ) * 10 ^ (X - fraction.length : ℤ)) := by
  unfold decimalMagnitude
  rw [span_digits hw hrest]
  dsimp only
  rw [hf]
  dsimp only
  rw [if_neg (by simp [hne]), hX]
  rfl

/-- The zeros at the end of a fraction. -/
theorem exists_eq_take_append (k : ℕ) (s : Bytes) :
    ∃ n, s = s.take k ++ trimZeros (s.drop k) ++ List.replicate n (digit 0) := by
  obtain ⟨n, hn⟩ := eq_trimZeros_append (s.drop k)
  refine ⟨n, ?_⟩
  rw [List.append_assoc, ← hn, List.take_append_drop]

theorem natValue_mul_zpow_trimZeros {k : ℕ} {s : Bytes} (hk : k ≤ s.length) (X : ℤ) :
    (natValue s : ℚ) * 10 ^ (X + k - s.length : ℤ) =
      (natValue (s.take k ++ trimZeros (s.drop k)) : ℚ) * 10 ^ (X - (trimZeros (s.drop k)).length : ℤ) := by
  obtain ⟨n, hsplit⟩ := exists_eq_take_append k s
  have hlength : s.length = k + (trimZeros (s.drop k)).length + n := by
    have hlengths := congrArg List.length hsplit
    simpa [List.length_take, Nat.min_eq_left hk, Nat.add_assoc] using hlengths
  have hvalue : natValue s = natValue (s.take k ++ trimZeros (s.drop k)) * 10 ^ n := by
    rw [← natValue_append_zeros, ← hsplit]
  have hpow : (10 : ℚ) ^ (X - (trimZeros (s.drop k)).length : ℤ) = 10 ^ n * 10 ^ (X + k - s.length : ℤ) := by
    rw [← zpow_natCast, ← zpow_add₀ (by norm_num), hlength]
    congr 1
    push_cast
    ring
  rw [hvalue, hpow, ← mul_assoc]
  push_cast
  rfl

theorem decimalMagnitude_pointText {k : ℕ} {s r : Bytes} {X : ℤ} (hs : ∀ b ∈ s, isDigit b = true) (hk : 0 < k)
    (hks : k ≤ s.length) (hr : EndsFraction r) (hX : exponentPart r = some X) :
    decimalMagnitude (pointText k s ++ r) = some ((natValue s : ℚ) * 10 ^ (X + k - s.length : ℤ)) := by
  obtain ⟨n, hsplit⟩ := exists_eq_take_append k s
  have hwhole : ∀ b ∈ s.take k, isDigit b = true := fun b hb => hs b (List.mem_of_mem_take hb)
  have hfraction : ∀ b ∈ trimZeros (s.drop k), isDigit b = true := by
    intro b hb
    apply hs
    rw [hsplit]
    exact List.mem_append_left _ (List.mem_append_right _ hb)
  have hne : s.take k ≠ [] := by
    intro hnil
    have hlength := congrArg List.length hnil
    rw [List.length_take, Nat.min_eq_left hks, List.length_nil] at hlength
    omega
  rw [natValue_mul_zpow_trimZeros hks X]
  unfold pointText
  dsimp only
  split
  · next hnil =>
    have hread := decimalMagnitude_eq hwhole (fun b hb => (hr b hb).1) (fractionPart_of_ends hr) hne hX
    rw [List.append_nil] at hread
    rw [hnil, List.append_nil]
    exact hread
  · rw [List.append_assoc, List.cons_append]
    refine decimalMagnitude_eq hwhole ?_ (fractionPart_point hfraction hr) hne hX
    intro b hb
    cases hb
    decide

theorem digitString_exponentDigits (n : ℕ) : DigitString (exponentDigits n) := by
  unfold exponentDigits
  split
  · refine ⟨List.cons_ne_nil _ _, ?_⟩
    intro b hb
    rcases List.mem_cons.mp hb with rfl | hb
    · decide
    · exact isDigit_decimal hb
  · exact digitString_decimal n

theorem natValue_exponentDigits (n : ℕ) : natValue (exponentDigits n) = n := by
  unfold exponentDigits
  split
  · exact (natValue_zeros_append 1 _).trans (natValue_decimal n)
  · exact natValue_decimal n

theorem exponentPart_exponentText (X : ℤ) : exponentPart (exponentText X) = some X := by
  obtain ⟨hne, hdigits⟩ := digitString_exponentDigits X.natAbs
  have hsign : exponentSign ((if X < 0 then ofChar '-' else ofChar '+') :: exponentDigits X.natAbs) =
      (decide (X < 0), exponentDigits X.natAbs) := by
    split
    · next hX => simp [exponentSign, hX]
    · next hX => simp [exponentSign, hX, show ofChar '+' ≠ ofChar '-' by decide]
  unfold exponentText exponentPart
  simp only [hsign, List.all_eq_true]
  rw [if_pos ⟨Or.inl trivial, hne, hdigits⟩, natValue_exponentDigits]
  by_cases hX : X < 0
  · rw [if_pos (decide_eq_true hX), Int.ofNat_natAbs_of_nonpos hX.le, neg_neg]
  · rw [if_neg (by simpa using hX), Int.natAbs_of_nonneg (not_lt.mp hX)]

theorem endsFraction_exponentText (X : ℤ) : EndsFraction (exponentText X) := by
  intro b hb
  cases hb
  decide

/-- The general format loses nothing of the decimal. -/
theorem decimalMagnitude_generalText {d D : ℕ} (hd : 0 < d) (hD : D < 10 ^ d) (X : ℤ) :
    decimalMagnitude (generalText d D X) = some ((D : ℚ) * 10 ^ (X + 1 - d : ℤ)) := by
  unfold generalText
  dsimp only
  split
  · next hX =>
    have hdigits := isDigit_zeros_append (-X).toNat (isDigit_fixedDigits (w := d) (n := D))
    have hread := decimalMagnitude_pointText (k := X.toNat + 1) (r := []) (X := 0) hdigits (by omega)
      (by rw [List.length_append, List.length_replicate, length_fixedDigits]; omega) (by simp [EndsFraction]) rfl
    rw [List.append_nil, natValue_zeros_append, natValue_fixedDigits hD] at hread
    rw [hread, List.length_append, List.length_replicate, length_fixedDigits]
    congr 3
    push_cast
    omega
  · have hread := decimalMagnitude_pointText (k := 1) (s := fixedDigits d D) isDigit_fixedDigits (by decide)
      (by rw [length_fixedDigits]; omega) (endsFraction_exponentText X) (exponentPart_exponentText X)
    rw [natValue_fixedDigits hD, length_fixedDigits] at hread
    exact hread

/-! ### The shape of what is written -/

theorem length_pointText_le (k : ℕ) (s : Bytes) : (pointText k s).length ≤ s.length + 1 := by
  obtain ⟨n, hn⟩ := eq_trimZeros_append (s.drop k)
  have hlength := congrArg List.length hn
  rw [List.length_drop, List.length_append, List.length_replicate] at hlength
  unfold pointText
  dsimp only
  rw [List.length_append, List.length_take]
  split
  · rw [List.length_nil]
    omega
  · rw [List.length_cons]
    omega

theorem length_decimal_le {n w : ℕ} (hw : 0 < w) (h : n < 10 ^ w) : (decimal n).length ≤ w := by
  unfold decimal
  split
  · exact hw
  · rw [List.length_map, List.length_reverse]
    exact (Nat.digits_length_le_iff (by decide) _).mpr h

theorem length_exponentDigits_le {n w : ℕ} (hw : 2 ≤ w) (h : n < 10 ^ w) : (exponentDigits n).length ≤ w := by
  unfold exponentDigits
  split
  · next hn =>
    have hone := length_decimal_le (w := 1) (by decide) hn
    rw [List.length_cons]
    omega
  · exact length_decimal_le (by omega) h

theorem length_generalText_le {d D : ℕ} {X : ℤ} {w : ℕ} (hw : 2 ≤ w) (hX : X.natAbs < 10 ^ w) :
    (generalText d D X).length ≤ d + w + 3 := by
  unfold generalText
  dsimp only
  split
  · have hle := length_pointText_le (X.toNat + 1) (List.replicate (-X).toNat (digit 0) ++ fixedDigits d D)
    rw [List.length_append, List.length_replicate, length_fixedDigits] at hle
    omega
  · have hle := length_pointText_le 1 (fixedDigits d D)
    have hexponent := length_exponentDigits_le hw hX
    rw [length_fixedDigits] at hle
    rw [List.length_append, exponentText, List.length_cons, List.length_cons]
    omega

theorem exists_generalText_eq_cons {d D : ℕ} (hd : 0 < d) (X : ℤ) :
    ∃ c r, generalText d D X = c :: r ∧ isDigit c = true := by
  have hhead : ∀ (k : ℕ) (s t : Bytes), 0 < s.length → (∀ b ∈ s, isDigit b = true) →
      ∃ c r, pointText (k + 1) s ++ t = c :: r ∧ isDigit c = true := by
    intro k s t hlength hs
    cases s with
    | nil => cases hlength
    | cons c s => exact ⟨c, _, rfl, hs c List.mem_cons_self⟩
  unfold generalText
  dsimp only
  split
  · rw [← List.append_nil (pointText _ _)]
    refine hhead X.toNat _ [] ?_ ?_
    · rw [List.length_append, length_fixedDigits]
      omega
    · exact isDigit_zeros_append _ isDigit_fixedDigits
  · exact hhead 0 _ _ (by rwa [length_fixedDigits]) isDigit_fixedDigits

end Bytes
