import Mathlib.Data.List.TakeWhile
import Redisdal.Lib.MapM
import Redisdal.Serialization

/-! # Reading numbers

Which texts `from_string<T>` accepts for an integral `T`, what it reads from them, and how it rejects the
others. -/

namespace Redisdal

theorem skipPlus_of_head_ne {s : Bytes} (hne : s ≠ []) (h : s.head? ≠ some (Bytes.ofChar '+')) :
    skipPlus s = .ok s := by
  cases s with
  | nil => exact absurd rfl hne
  | cons c s => exact if_neg fun hc => h (congrArg some hc)

/-- A plus sign goes before a text without a sign. -/
theorem skipPlus_plus_eq_ok_iff {s first : Bytes} :
    skipPlus (Bytes.ofChar '+' :: s) = .ok first ↔ s = first ∧ first ≠ [] ∧
      first.head? ≠ some (Bytes.ofChar '-') ∧ first.head? ≠ some (Bytes.ofChar '+') := by
  unfold skipPlus
  dsimp only
  rw [if_pos rfl]
  cases s with
  | nil =>
    refine iff_of_false (fun h => by cases h) ?_
    rintro ⟨rfl, hne, -⟩
    exact hne rfl
  | cons d t =>
    dsimp only
    split
    · next hd =>
      refine iff_of_false (fun h => by cases h) ?_
      rintro ⟨rfl, -, hm, hp⟩
      rcases hd with rfl | rfl
      · exact hm rfl
      · exact hp rfl
    · next hd =>
      obtain ⟨hm, hp⟩ := not_or.mp hd
      constructor
      · intro h
        cases h
        exact ⟨rfl, by simp, by simpa using hm, by simpa using hp⟩
      · rintro ⟨rfl, -⟩
        rfl

theorem skipPlus_eq_ok_iff {s first : Bytes} :
    skipPlus s = .ok first ↔ (s = first ∧ first ≠ [] ∧ first.head? ≠ some (Bytes.ofChar '+')) ∨
      (s = Bytes.ofChar '+' :: first ∧ first ≠ [] ∧ first.head? ≠ some (Bytes.ofChar '-') ∧
        first.head? ≠ some (Bytes.ofChar '+')) := by
  constructor
  · intro h
    by_cases hplus : s.head? = some (Bytes.ofChar '+')
    · obtain ⟨t, rfl⟩ := List.head?_eq_some_iff.mp hplus
      obtain ⟨rfl, hrest⟩ := skipPlus_plus_eq_ok_iff.mp h
      exact Or.inr ⟨rfl, hrest⟩
    · have hne : s ≠ [] := by
        rintro rfl
        cases h
      cases (skipPlus_of_head_ne hne hplus).symm.trans h
      exact Or.inl ⟨rfl, hne, hplus⟩
  · rintro (⟨rfl, hne, hplus⟩ | ⟨rfl, hrest⟩)
    · exact skipPlus_of_head_ne hne hplus
    · exact skipPlus_plus_eq_ok_iff.mpr ⟨rfl, hrest⟩

/-! ### What `std::from_chars` reads -/

/-- Digits, after a minus sign where the type is signed. -/
inductive CharsNumeral (t : IntegralType) : Bytes → Int → Prop where
  | plain {digits : Bytes} (h : Bytes.DigitString digits) : CharsNumeral t digits (Bytes.natValue digits)
  | minus (hsigned : t.signed = true) {digits : Bytes} (h : Bytes.DigitString digits) :
    CharsNumeral t (Bytes.ofChar '-' :: digits) (-(Bytes.natValue digits : Int))

/-- Only the signedness of the type counts. -/
theorem charsNumeral_parsedType {t : IntegralType} {s : Bytes} {v : Int} :
    CharsNumeral t.parsedType s v ↔ CharsNumeral t s v := by
  constructor
  · intro h
    cases h with
    | plain h => exact .plain h
    | minus hsigned h => exact .minus (show t.signed = true from hsigned) h
  · intro h
    cases h with
    | plain h => exact .plain h
    | minus hsigned h => exact .minus (show t.parsedType.signed = true from hsigned) h

theorem spanDigits_eq (s : Bytes) : spanDigits s = (s.takeWhile Bytes.isDigit, s.dropWhile Bytes.isDigit) :=
  List.span_eq_takeWhile_dropWhile ..

theorem spanDigits_digits {s : Bytes} (h : Bytes.DigitString s) : spanDigits s = (s, []) := by
  rw [spanDigits_eq, List.takeWhile_eq_self_iff.mpr h.digits, List.dropWhile_eq_nil_iff.mpr h.digits]

theorem digitString_of_span {s : Bytes} (hne : s.takeWhile Bytes.isDigit ≠ [])
    (hrest : s.dropWhile Bytes.isDigit = []) : Bytes.DigitString s := by
  have hall : ∀ b ∈ s, Bytes.isDigit b = true := List.dropWhile_eq_nil_iff.mp hrest
  exact ⟨fun hnil => hne (by rw [hnil]; rfl), hall⟩

theorem fromChars_of_numeral {t : IntegralType} {s : Bytes} {v : Int} (h : CharsNumeral t s v) :
    fromChars t s = ⟨if t.InRange v then .ok v else .error .resultOutOfRange, []⟩ := by
  cases h with
  | plain h =>
    have hminus : (s.head? == some (Bytes.ofChar '-')) = false := beq_eq_false_iff_ne.mpr (h.head_ne (by decide))
    simp only [fromChars, hminus, Bool.and_false, Bool.false_eq_true, if_false, spanDigits_digits h, h.nonempty]
    split
    · next hin => rw [if_pos (show t.InRange _ from hin)]
    · next hin => rw [if_neg (show ¬t.InRange _ from hin)]
  | @minus hsigned digits h =>
    simp only [fromChars, hsigned, List.head?_cons, beq_self_eq_true, Bool.and_self, if_true, List.tail_cons,
      spanDigits_digits h, h.nonempty, if_false]
    split
    · next hin => rw [if_pos (show t.InRange _ from hin)]
    · next hin => rw [if_neg (show ¬t.InRange _ from hin)]

/-- What follows the sign. -/
def unsignedPart (t : IntegralType) (s : Bytes) : Bytes :=
  if t.signed && s.head? == some (Bytes.ofChar '-') then s.tail else s

theorem fromChars_cases (t : IntegralType) (s : Bytes) :
    ((unsignedPart t s).takeWhile Bytes.isDigit = [] ∧ (fromChars t s).value = .error .invalidArgument) ∨
      ((unsignedPart t s).takeWhile Bytes.isDigit ≠ [] ∧
        (fromChars t s).rest = (unsignedPart t s).dropWhile Bytes.isDigit) := by
  unfold fromChars
  simp only [← unsignedPart.eq_1, spanDigits_eq]
  by_cases hnone : (unsignedPart t s).takeWhile Bytes.isDigit = []
  · rw [if_pos hnone]
    exact Or.inl ⟨hnone, rfl⟩
  · rw [if_neg hnone]
    refine Or.inr ⟨hnone, ?_⟩
    split <;> split <;> rfl

/-- A text that is no number is rejected at its start, or not read to its end. -/
theorem fromChars_of_not_numeral {t : IntegralType} {s : Bytes} (h : ∀ v, ¬CharsNumeral t s v) :
    (fromChars t s).value = .error .invalidArgument ∨ (fromChars t s).rest ≠ [] := by
  rcases fromChars_cases t s with ⟨-, hvalue⟩ | ⟨hne, hrest⟩
  · exact Or.inl hvalue
  · refine Or.inr fun hnil => ?_
    have hdigits := digitString_of_span hne (hrest ▸ hnil)
    unfold unsignedPart at hdigits
    split at hdigits
    · next hminus =>
      rw [Bool.and_eq_true, beq_iff_eq] at hminus
      obtain ⟨digits, rfl⟩ := List.head?_eq_some_iff.mp hminus.2
      exact h _ (.minus hminus.1 hdigits)
    · exact h _ (.plain hdigits)

/-! ### What `from_string` reads -/

/-- An optional sign, a minus sign for a signed type only, then one or more digits. -/
inductive Numeral (t : IntegralType) : Bytes → Int → Prop where
  | plain {digits : Bytes} (h : Bytes.DigitString digits) : Numeral t digits (Bytes.natValue digits)
  | plus {digits : Bytes} (h : Bytes.DigitString digits) :
    Numeral t (Bytes.ofChar '+' :: digits) (Bytes.natValue digits)
  | minus (hsigned : t.signed = true) {digits : Bytes} (h : Bytes.DigitString digits) :
    Numeral t (Bytes.ofChar '-' :: digits) (-(Bytes.natValue digits : Int))

/-- Past the plus sign, `from_chars` reads the number. -/
theorem numeral_iff {t : IntegralType} {s : Bytes} {v : Int} :
    Numeral t s v ↔ ∃ first, skipPlus s = .ok first ∧ CharsNumeral t first v := by
  have hplus : Bytes.isDigit (Bytes.ofChar '+') = false := by decide
  have hminus : Bytes.isDigit (Bytes.ofChar '-') = false := by decide
  constructor
  · intro h
    cases h with
    | plain h => exact ⟨_, skipPlus_eq_ok_iff.mpr (Or.inl ⟨rfl, h.nonempty, h.head_ne hplus⟩), .plain h⟩
    | plus h =>
      exact ⟨_, skipPlus_eq_ok_iff.mpr (Or.inr ⟨rfl, h.nonempty, h.head_ne hminus, h.head_ne hplus⟩), .plain h⟩
    | minus hsigned h =>
      have hhead : Bytes.ofChar '-' ≠ Bytes.ofChar '+' := by decide
      exact ⟨_, skipPlus_eq_ok_iff.mpr (Or.inl ⟨rfl, by simp, by simpa using hhead⟩), .minus hsigned h⟩
  · intro hex
    obtain ⟨first, hskip, h⟩ := hex
    rcases skipPlus_eq_ok_iff.mp hskip with ⟨rfl, -, -⟩ | ⟨rfl, -, hm, -⟩
    · cases h with
      | plain h => exact .plain h
      | minus hsigned h => exact .minus hsigned h
    · cases h with
      | plain h => exact .plus h
      | minus hsigned h => exact absurd rfl hm

/-- A bad sign is rejected with `std::invalid_argument`. -/
theorem invalid_of_skipPlus {s : Bytes} {e : Exn} (h : skipPlus s = .error e) : ∃ what, e = .invalidArgument what := by
  unfold skipPlus at h
  repeat' split at h
  all_goals first
    | exact ⟨_, (Except.error.inj h).symm⟩
    | cases h

/-- Every type up to 64 bits lies within the type in which `from_string` parses. -/
theorem IntegralType.InRange.parsedType {t : IntegralType} (hbits : t.bits ≤ 64) {v : Int} (h : t.InRange v) :
    t.parsedType.InRange v := by
  obtain ⟨signed, bits⟩ := t
  have hpow : (2 : Int) ^ bits ≤ 2 ^ 64 := pow_le_pow_right₀ (by decide) hbits
  have hpow' : (2 : Int) ^ (bits - 1) ≤ 2 ^ 63 := pow_le_pow_right₀ (by decide) (Nat.sub_le_sub_right hbits 1)
  cases signed with
  | false => exact ⟨h.1, h.2.trans (Int.sub_le_sub_right hpow 1)⟩
  | true => exact ⟨(Int.neg_le_neg hpow').trans h.1, h.2.trans (Int.sub_le_sub_right hpow' 1)⟩

/-- A number is read when it is in range, and rejected as out of range otherwise, whether it leaves the type or
    already the 64 bits in which it is parsed. -/
theorem integralFromString_of_numeral {t : IntegralType} {s : Bytes} {v : Int} (hbits : t.bits ≤ 64)
    (h : Numeral t s v) :
    integralFromString t s =
      if t.InRange v then .ok v else .error (.outOfRange "Numeric input is out of range for the target type") := by
  obtain ⟨first, hskip, hchars⟩ := numeral_iff.mp h
  have hparsed : fromChars t.parsedType first =
      ⟨if t.parsedType.InRange v then .ok v else .error .resultOutOfRange, []⟩ :=
    fromChars_of_numeral (charsNumeral_parsedType.mpr hchars)
  by_cases hv : t.parsedType.InRange v
  · rw [if_pos hv] at hparsed
    unfold integralFromString
    rw [fromStringWith_of_value hskip hparsed]
    exact if_congr (by simp [IntegralType.InRange]) rfl rfl
  · rw [if_neg hv] at hparsed
    rw [if_neg fun hin => hv (hin.parsedType hbits)]
    exact fromStringWith_of_range hskip hparsed

theorem integralFromString_of_not_numeral {t : IntegralType} {s : Bytes} (h : ∀ v, ¬Numeral t s v) :
    ∃ what, integralFromString t s = .error (.invalidArgument what) := by
  cases hs : skipPlus s with
  | error e =>
    obtain ⟨what, rfl⟩ := invalid_of_skipPlus hs
    refine ⟨what, ?_⟩
    unfold integralFromString fromStringWith
    rw [hs]
    rfl
  | ok first =>
    exact ⟨_, fromStringWith_of_invalid hs (fromChars_of_not_numeral fun v hv =>
      h v (numeral_iff.mpr ⟨first, hs, charsNumeral_parsedType.mp hv⟩))⟩

theorem integralFromString_eq_ok_iff {t : IntegralType} {s : Bytes} {v : Int} (hbits : t.bits ≤ 64) :
    integralFromString t s = .ok v ↔ Numeral t s v ∧ t.InRange v := by
  constructor
  · intro h
    by_cases hex : ∃ w, Numeral t s w
    · obtain ⟨w, hw⟩ := hex
      rw [integralFromString_of_numeral hbits hw] at h
      split at h
      · next hin =>
        cases h
        exact ⟨hw, hin⟩
      · cases h
    · obtain ⟨what, he⟩ := integralFromString_of_not_numeral fun w hw => hex ⟨w, hw⟩
      rw [he] at h
      cases h
  · intro hand
    rw [integralFromString_of_numeral hbits hand.1, if_pos hand.2]

theorem numeral_integralToString {t : IntegralType} {v : Int} (h : t.InRange v) : Numeral t (integralToString v) v := by
  unfold integralToString Bytes.decimalInt
  have hvalue : (Bytes.natValue (Bytes.decimal v.natAbs) : Int) = v.natAbs := by rw [Bytes.natValue_decimal]
  by_cases hv : v < 0
  · have hsigned : t.signed = true := by
      by_contra hun
      have hlow := h.1
      rw [IntegralType.lowest, if_neg hun] at hlow
      omega
    have hminus := Numeral.minus hsigned (Bytes.digitString_decimal v.natAbs)
    rw [if_pos hv]
    rwa [hvalue, Int.ofNat_natAbs_of_nonpos (by omega), Int.neg_neg] at hminus
  · have hplain := Numeral.plain (t := t) (Bytes.digitString_decimal v.natAbs)
    rw [if_neg hv]
    rwa [hvalue, Int.natAbs_of_nonneg (by omega)] at hplain

theorem integralFromString_integralToString {t : IntegralType} {v : Int} (hbits : t.bits ≤ 64) (h : t.InRange v) :
    integralFromString t (integralToString v) = .ok v :=
  (integralFromString_eq_ok_iff hbits).mpr ⟨numeral_integralToString h, h⟩

/-- `from_string` accepts the numbers of its type and reads them as they are written, tells a number that the type
    cannot hold from a text that is no number, and reads back what `to_string` writes. -/
theorem integralFromString_grammar (t : IntegralType) (hbits : t.bits ≤ 64) :
    (∀ s v, integralFromString t s = .ok v ↔ Numeral t s v ∧ t.InRange v) ∧
      (∀ s v, Numeral t s v → ¬t.InRange v → ∃ what, integralFromString t s = .error (.outOfRange what)) ∧
      (∀ s, (∀ v, ¬Numeral t s v) → ∃ what, integralFromString t s = .error (.invalidArgument what)) ∧
      ∀ v, t.InRange v → integralFromString t (integralToString v) = .ok v := by
  refine ⟨fun s v => integralFromString_eq_ok_iff hbits, fun s v h hout => ?_,
    fun s h => integralFromString_of_not_numeral h, fun v h => integralFromString_integralToString hbits h⟩
  rw [integralFromString_of_numeral hbits h, if_neg hout]
  exact ⟨_, rfl⟩

/-- A `signed char` reads `-128`, rejects `128` as out of range, and reads back 127. -/
theorem integralFromString_grammar_int8 :
    integralFromString ⟨true, 8⟩ "-128" = .ok (-128) ∧
      (∃ what, integralFromString ⟨true, 8⟩ "128" = .error (.outOfRange what)) ∧
      integralFromString ⟨true, 8⟩ (integralToString 127) = .ok 127 := by
  obtain ⟨hread, hrange, -, hback⟩ := integralFromString_grammar ⟨true, 8⟩ (by decide)
  have hdigits : Bytes.DigitString "128" := ⟨by decide, List.all_eq_true.mp rfl⟩
  exact ⟨(hread "-128" (-128)).mpr ⟨.minus rfl hdigits, by decide⟩,
    hrange "128" 128 (.plain hdigits) (by decide), hback 127 (by decide)⟩

/-! ### Cursors -/

/-- The digits of a 64-bit number. -/
structure Uint64Digits (s : Bytes) : Prop where
  nonempty : s ≠ []
  digits : ∀ b ∈ s, Bytes.isDigit b = true
  bound : Bytes.natValue s < 2 ^ 64

/-- The texts that `from_string<uint64_t>` accepts: the digits of a 64-bit number after at most one plus sign. -/
def CursorText (s : Bytes) : Prop := ∃ digits, Uint64Digits digits ∧ (s = digits ∨ s = Bytes.ofChar '+' :: digits)

theorem inRange_uint64_iff {n : Nat} : IntegralType.uint64.InRange n ↔ n < 2 ^ 64 := by
  unfold IntegralType.InRange IntegralType.lowest IntegralType.max IntegralType.uint64
  simp only [Bool.false_eq_true, if_false]
  omega

theorem integralFromString_uint64_iff {s : Bytes} {v : Int} :
    integralFromString .uint64 s = .ok v ↔
      ∃ digits, Uint64Digits digits ∧ (s = digits ∨ s = Bytes.ofChar '+' :: digits) ∧ v = Bytes.natValue digits := by
  rw [integralFromString_eq_ok_iff (Nat.le_refl 64)]
  constructor
  · intro hand
    obtain ⟨h, hin⟩ := hand
    cases h with
    | plain h => exact ⟨s, ⟨h.nonempty, h.digits, inRange_uint64_iff.mp hin⟩, Or.inl rfl, rfl⟩
    | plus h => exact ⟨_, ⟨h.nonempty, h.digits, inRange_uint64_iff.mp hin⟩, Or.inr rfl, rfl⟩
    | minus hsigned h => cases hsigned
  · intro h
    obtain ⟨digits, hd, hs, rfl⟩ := h
    refine ⟨?_, inRange_uint64_iff.mpr hd.bound⟩
    rcases hs with rfl | rfl
    · exact .plain ⟨hd.nonempty, hd.digits⟩
    · exact .plus ⟨hd.nonempty, hd.digits⟩

theorem exists_integralFromString_iff {s : Bytes} : (∃ v, integralFromString .uint64 s = .ok v) ↔ CursorText s := by
  constructor
  · intro h
    obtain ⟨v, hv⟩ := h
    obtain ⟨digits, hd, hs, -⟩ := integralFromString_uint64_iff.mp hv
    exact ⟨digits, hd, hs⟩
  · intro h
    obtain ⟨digits, hd, hs⟩ := h
    exact ⟨_, integralFromString_uint64_iff.mpr ⟨digits, hd, hs, rfl⟩⟩

theorem ofInt_toNat (n : UInt64) : UInt64.ofInt (n.toNat : Int) = n := by
  unfold UInt64.ofInt
  apply UInt64.toNat_inj.mp
  rw [UInt64.toNat_ofNat']
  have := n.toNat_lt
  omega

theorem integralFromString_decimal (n : UInt64) :
    integralFromString .uint64 (Bytes.decimal n.toNat) = .ok (n.toNat : Int) :=
  integralFromString_uint64_iff.mpr ⟨Bytes.decimal n.toNat,
    ⟨Bytes.decimal_ne_nil _, fun _ hb => Bytes.isDigit_decimal hb, by rw [Bytes.natValue_decimal]; exact n.toNat_lt⟩,
    Or.inl rfl, by rw [Bytes.natValue_decimal]⟩

end Redisdal
