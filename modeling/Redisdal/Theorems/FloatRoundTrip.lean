import Redisdal.FloatSerialization
import Redisdal.Theorems.Numbers

/-! # Floating-point numbers read back

`max_digits10` digits are enough: every finite number is written into the buffer of `to_string` and read back
from it by `from_string`. -/

namespace Redisdal

variable {t : FloatType} {toChars : FloatValue t → Bytes} {fromChars : Bytes → CharsResult (FloatValue t)}

/-- The decimals of `max_digits10` digits are closer to each other than the numbers of the type. -/
theorem FloatType.two_pow_lt (t : FloatType) : 2 ^ t.format.precision < 10 ^ (t.maxDigits10 - 1) := by
  cases t <;> decide

/-! ### The text -/

theorem decimalValue_signText (negative : Bool) {s : Bytes} {q : ℚ}
    (hs : ∃ c r, s = c :: r ∧ Bytes.isDigit c = true) (h : Bytes.decimalMagnitude s = some q) :
    Bytes.decimalValue (signText negative ++ s) = some (negative, q) := by
  obtain ⟨c, r, rfl, hc⟩ := hs
  unfold Bytes.decimalValue
  cases negative with
  | true =>
    rw [signText, if_pos rfl]
    dsimp only [List.cons_append, List.nil_append]
    rw [if_pos rfl, h]
    rfl
  | false =>
    have hne : c ≠ Bytes.ofChar '-' := by
      rintro rfl
      exact absurd hc (by decide)
    rw [signText, if_neg Bool.false_ne_true]
    dsimp only [List.nil_append]
    rw [if_neg hne, h]
    rfl

theorem skipPlus_signText (negative : Bool) {s : Bytes} (hs : ∃ c r, s = c :: r ∧ Bytes.isDigit c = true) :
    skipPlus (signText negative ++ s) = .ok (signText negative ++ s) := by
  obtain ⟨c, r, rfl, hc⟩ := hs
  cases negative with
  | true =>
    have hminus : Bytes.ofChar '-' ≠ Bytes.ofChar '+' := by decide
    exact skipPlus_of_head_ne (List.cons_ne_nil _ _) fun hplus => hminus (Option.some.inj hplus)
  | false =>
    refine skipPlus_of_head_ne (List.cons_ne_nil _ _) ?_
    intro hplus
    rw [Option.some.inj hplus] at hc
    exact absurd hc (by decide)

/-- The digits of the longest decimal exponent of the type. -/
def FloatType.exponentDigits : FloatType → ℕ
  | float => 2
  | double => 3
  | longDouble => 4

theorem natAbs_exponent_lt {x : t.format.magnitudes} {D : ℕ} {X : ℤ} (h : Rounding.RoundsTo 10 t.maxDigits10 x.1 D X) :
    X.natAbs < 10 ^ t.exponentDigits := by
  have hle : X.natAbs ≤ 10 ^ t.exponentDigits - 1 := by
    refine BinaryFormat.natAbs_le_of_roundsTo t.maxDigits10_pos x.2 h ?_ ?_ <;> cases t <;> decide
  have hpos : 0 < 10 ^ t.exponentDigits := Nat.pow_pos (by decide)
  omega

/-- The longest text has a sign, the digits, a point and an exponent with its sign. -/
theorem WritesRounded.length_le (h : WritesRounded toChars) (negative : Bool) (x : t.format.magnitudes) :
    (toChars (.finite negative x)).length ≤ t.maxDigits10 + t.exponentDigits + 4 := by
  obtain ⟨D, X, hround, htext⟩ := h negative x
  have hdigits : 2 ≤ t.exponentDigits := by cases t <;> decide
  have hle := Bytes.length_generalText_le (d := t.maxDigits10) (D := D) hdigits (natAbs_exponent_lt hround)
  have hsign : (signText negative).length ≤ 1 := by cases negative <;> decide
  rw [htext, List.length_append]
  omega

/-! ### Back from the text -/

theorem floatFromString_toChars (hto : WritesRounded toChars) (hfrom : ReadsNearest fromChars) (negative : Bool)
    (x : t.format.magnitudes) :
    floatFromString fromChars (toChars (.finite negative x)) = .ok (.finite negative x) := by
  obtain ⟨D, X, hround, htext⟩ := hto negative x
  have hhead := Bytes.exists_generalText_eq_cons (D := D) t.maxDigits10_pos X
  have hvalue := decimalValue_signText negative hhead
    (Bytes.decimalMagnitude_generalText t.maxDigits10_pos hround.lt X)
  have hrange := BinaryFormat.inRange_of_isNearest (by decide) t.maxDigits10_pos t.two_pow_lt x.2 hround.nearest
  obtain ⟨y, hnearest, hread⟩ := hfrom _ negative _ hvalue hrange
  have hyx : y = x := Subtype.ext
    (BinaryFormat.eq_of_isNearest (by decide) t.maxDigits10_pos t.two_pow_lt x.2 hround.nearest hnearest)
  rw [hyx] at hread
  rw [htext]
  exact (fromStringWith_of_value (skipPlus_signText negative hhead) hread).trans (if_pos rfl)

/-- With correctly rounded digits and a parser that returns the nearest number, every finite number of every
    floating-point type is written into the buffer and read back. -/
theorem floatToString_roundTrip (hto : WritesRounded toChars) (hfrom : ReadsNearest fromChars) (negative : Bool)
    (x : t.format.magnitudes) :
    ∃ text, floatToString toChars (.finite negative x) = .ok text ∧ text.length ≤ t.maxDigits10 + 32 ∧
      floatFromString fromChars text = .ok (.finite negative x) := by
  have hlength : (toChars (.finite negative x)).length ≤ t.maxDigits10 + 32 := by
    have hle := hto.length_le negative x
    have hdigits : t.exponentDigits ≤ 4 := by cases t <;> decide
    omega
  exact ⟨_, if_pos hlength, hlength, floatFromString_toChars hto hfrom negative x⟩

/-- The `float` nearest to 0.1. -/
def floatTenth : FloatType.float.format.magnitudes :=
  ⟨(13421773 : ℕ) * ((2 : ℕ) : ℚ) ^ (-27 : ℤ), 13421773, -27, ⟨by decide, by decide⟩, by decide, rfl⟩

theorem floatToString_roundTrip_tenth :
    ∃ text, floatToString (toCharsHalfEven .float) (.finite false floatTenth) = .ok text ∧ text.length ≤ 9 + 32 ∧
      floatFromString (fromCharsHalfEven .float) text = .ok (.finite false floatTenth) :=
  floatToString_roundTrip (writesRounded_toCharsHalfEven .float) (readsNearest_fromCharsHalfEven .float) false
    floatTenth

example : toCharsHalfEven .float (.finite false floatTenth) = "0.100000001" := by decide +kernel

end Redisdal
