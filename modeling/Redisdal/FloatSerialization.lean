import Redisdal.Lib.BinaryFormat
import Redisdal.Lib.DecimalText
import Redisdal.Serialization

/-! # Serialization of floating-point numbers

The `string_serializable<T>` of `serialization.hpp` for a floating-point `T`, over the `std::to_chars` and
`std::from_chars` of the platform. -/

namespace Redisdal

/-- A floating-point type. -/
inductive FloatType where
  | float
  | double
  | longDouble
deriving DecidableEq, Repr

namespace FloatType

/-- The binary format of the type; `long double` is the extended format of 64 significant bits. -/
def format : FloatType → BinaryFormat
  | float => ⟨24, -149, 104, by decide, by decide⟩
  | double => ⟨53, -1074, 971, by decide, by decide⟩
  | longDouble => ⟨64, -16445, 16320, by decide, by decide⟩

/-- `numeric_limits<T>::max_digits10`. -/
def maxDigits10 : FloatType → ℕ
  | float => 9
  | double => 17
  | longDouble => 21

end FloatType

/-- A value of a floating-point type. A finite one is its sign, which zero has too, and its absolute value. -/
inductive FloatValue (t : FloatType) where
  | finite (negative : Bool) (magnitude : t.format.magnitudes)
  | infinite (negative : Bool)
  | nan (negative : Bool)

section Conversion
variable {t : FloatType}

/-- `string_serializable<T>::to_string` for a floating-point `T`. `toChars` is what `std::to_chars` writes in general
    format with `max_digits10` digits; it fails when the buffer is too short for that. -/
def floatToString (toChars : FloatValue t → Bytes) (v : FloatValue t) : Outcome Bytes :=
  let text := toChars v
  if text.length ≤ t.maxDigits10 + 32 then pure text
  else throw (.runtimeError "Failed to serialize floating point value")

/-- `string_serializable<T>::from_string` for a floating-point `T`. -/
def floatFromString (fromChars : Bytes → CharsResult (FloatValue t)) : Bytes → Outcome (FloatValue t) :=
  fromStringWith fromChars fun _ => true

/-! ### `std::to_chars` and `std::from_chars` -/

def signText (negative : Bool) : Bytes := if negative then [Bytes.ofChar '-'] else []

/-- `std::to_chars` with general format and `max_digits10` digits rounds correctly, ties either way. -/
def WritesRounded (toChars : FloatValue t → Bytes) : Prop :=
  ∀ negative (x : t.format.magnitudes), ∃ D X, Rounding.RoundsTo 10 t.maxDigits10 x.1 D X ∧
    toChars (.finite negative x) = signText negative ++ Bytes.generalText t.maxDigits10 D X

/-- `std::from_chars` reads a decimal that neither overflows nor underflows as a nearest value, ties either way. -/
def ReadsNearest (fromChars : Bytes → CharsResult (FloatValue t)) : Prop :=
  ∀ text negative q, Bytes.decimalValue text = some (negative, q) → t.format.InRange q →
    ∃ y : t.format.magnitudes, Rounding.IsNearest t.format.magnitudes q y.1 ∧
      fromChars text = ⟨.ok (.finite negative y), []⟩

/-- A `std::to_chars` that rounds ties to even. -/
def toCharsHalfEven (t : FloatType) (v : FloatValue t) : Bytes :=
  match v with
  | .finite negative x =>
    let (D, X) := Rounding.roundDigits 10 t.maxDigits10 x.1
    signText negative ++ Bytes.generalText t.maxDigits10 D X
  | .infinite negative => signText negative ++ Bytes.ofString "inf"
  | .nan negative => signText negative ++ Bytes.ofString "nan"

/-- A `std::from_chars` for decimals that rounds ties to even. Of a text that is no decimal it reads nothing. -/
def fromCharsHalfEven (t : FloatType) (text : Bytes) : CharsResult (FloatValue t) :=
  match Bytes.decimalValue text with
  | none => ⟨.error .invalidArgument, text⟩
  | some (negative, q) =>
    if h : t.format.InRange q then
      ⟨.ok (.finite negative ⟨t.format.round q, (BinaryFormat.isNearest_round h).mem⟩), []⟩
    else ⟨.error .resultOutOfRange, []⟩

theorem FloatType.maxDigits10_pos (t : FloatType) : 0 < t.maxDigits10 := by cases t <;> decide

theorem writesRounded_toCharsHalfEven (t : FloatType) : WritesRounded (toCharsHalfEven t) := by
  intro negative x
  exact ⟨_, _, Rounding.roundsTo_roundDigits (by decide) t.maxDigits10_pos (Rounding.nonneg_of_mem x.2), rfl⟩

theorem readsNearest_fromCharsHalfEven (t : FloatType) : ReadsNearest (fromCharsHalfEven t) := by
  intro text negative q hvalue hrange
  refine ⟨⟨_, (BinaryFormat.isNearest_round hrange).mem⟩, BinaryFormat.isNearest_round hrange, ?_⟩
  unfold fromCharsHalfEven
  rw [hvalue]
  exact dif_pos hrange

end Conversion

end Redisdal
