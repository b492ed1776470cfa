import Mathlib.Data.List.Infix
import Mathlib.Data.Nat.Digits.Lemmas

/-! # Byte strings

Byte strings as lists of bytes, the text literals of a program as their bytes, and decimal numbers. -/

abbrev Bytes := List UInt8

namespace Bytes

/-- Named, for the membership tests on lists of byte strings. -/
instance : LawfulBEq Bytes := List.instLawfulBEq

/-- The bytes of a text literal. -/
def ofString (s : String) : Bytes := s.toUTF8.data.toList

/-- The byte of an ASCII character. -/
def ofChar (c : Char) : UInt8 := c.val.toUInt8

/-- `s.find(needle) != npos`. -/
def contains (s needle : Bytes) : Bool := decide (needle <:+: s)

/-- The text before and after the first byte `c`: `find(c)` and the two `substr` calls around it. -/
def cut (c : UInt8) : Bytes → Option (Bytes × Bytes)
  | [] => none
  | b :: s => if b = c then some ([], s) else (cut c s).map fun p => (b :: p.1, p.2)

theorem cut_eq_some {c : UInt8} {s a b : Bytes} (h : cut c s = some (a, b)) : s = a ++ c :: b ∧ c ∉ a := by
  induction s generalizing a with
  | nil => cases h
  | cons x s ih =>
    unfold cut at h
    split at h
    · next hx =>
      cases h
      simp [hx]
    · next hx =>
      obtain ⟨⟨a', b'⟩, hp, heq⟩ := Option.map_eq_some_iff.mp h
      cases heq
      obtain ⟨rfl, hc⟩ := ih hp
      exact ⟨rfl, by simp [hc, Ne.symm hx]⟩

theorem cut_eq_none {c : UInt8} {s : Bytes} : cut c s = none ↔ c ∉ s := by
  induction s with
  | nil => simp [cut]
  | cons x s ih =>
    unfold cut
    split
    · next hx => simp [hx]
    · next hx => simp [ih, Ne.symm hx]

theorem cut_append {c : UInt8} {a : Bytes} (b : Bytes) (h : c ∉ a) : cut c (a ++ c :: b) = some (a, b) := by
  induction a with
  | nil => simp [cut]
  | cons x a ih =>
    simp only [List.mem_cons, not_or] at h
    simp [cut, Ne.symm h.1, ih h.2]

/-! ### Decimal numbers -/

def isDigit (b : UInt8) : Bool := 48 ≤ b && b ≤ 57

/-- The number that a string of decimal digits denotes. -/
def natValue (s : Bytes) : Nat := s.foldl (fun n b => n * 10 + (b.toNat - 48)) 0

/-- The byte of the decimal digit `d`. -/
def digit (d : Nat) : UInt8 := UInt8.ofNat (48 + d)

/-- `std::to_string` of a natural number. -/
def decimal (n : Nat) : Bytes := if n = 0 then [digit 0] else (Nat.digits 10 n).reverse.map digit

/-- `std::to_string` of an integer. -/
def decimalInt (n : Int) : Bytes := if n < 0 then ofChar '-' :: decimal n.natAbs else decimal n.natAbs

theorem toNat_digit {d : Nat} (h : d < 10) : (digit d).toNat = 48 + d := by
  unfold digit
  rw [UInt8.toNat_ofNat']
  omega

theorem isDigit_digit {d : Nat} (h : d < 10) : isDigit (digit d) = true := by
  have := toNat_digit h
  simp only [isDigit, Bool.and_eq_true, decide_eq_true_eq, UInt8.le_iff_toNat_le, this]
  exact ⟨by simp, by simp; omega⟩

theorem natValue_append (s : Bytes) (b : UInt8) : natValue (s ++ [b]) = natValue s * 10 + (b.toNat - 48) := by
  simp [natValue]

theorem natValue_digits {l : List Nat} (h : ∀ d ∈ l, d < 10) : natValue (l.reverse.map digit) = Nat.ofDigits 10 l := by
  induction l with
  | nil => rfl
  | cons d l ih =>
    rw [List.reverse_cons, List.map_append, List.map_cons, List.map_nil, natValue_append,
      ih fun d hd => h d (List.mem_cons_of_mem _ hd), toNat_digit (h d List.mem_cons_self), Nat.ofDigits_cons]
    simp
    omega

theorem natValue_decimal (n : Nat) : natValue (decimal n) = n := by
  unfold decimal
  split
  · next h => rw [h]; decide
  · rw [natValue_digits fun d hd => Nat.digits_lt_base (by decide) hd, Nat.ofDigits_digits]

theorem isDigit_decimal {n : Nat} {b : UInt8} (h : b ∈ decimal n) : isDigit b = true := by
  unfold decimal at h
  split at h
  · rw [List.mem_singleton.mp h]
    exact isDigit_digit (by decide)
  · obtain ⟨d, hd, rfl⟩ := List.mem_map.mp h
    exact isDigit_digit (Nat.digits_lt_base (by decide) (List.mem_reverse.mp hd))

theorem decimal_ne_nil (n : Nat) : decimal n ≠ [] := by
  unfold decimal
  split
  · simp
  · next h => simpa [Nat.digits_eq_nil_iff_eq_zero] using h

/-- One or more decimal digits. -/
structure DigitString (s : Bytes) : Prop where
  nonempty : s ≠ []
  digits : ∀ b ∈ s, isDigit b = true

theorem digitString_decimal (n : Nat) : DigitString (decimal n) := ⟨decimal_ne_nil n, fun _ h => isDigit_decimal h⟩

theorem DigitString.head_ne {s : Bytes} (h : DigitString s) {c : UInt8} (hc : isDigit c = false) :
    s.head? ≠ some c := by
  intro heq
  have hdigit := h.digits c (List.mem_of_mem_head? heq)
  rw [hc] at hdigit
  cases hdigit

end Bytes

instance : Coe String Bytes := ⟨Bytes.ofString⟩
