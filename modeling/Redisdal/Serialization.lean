import Redisdal.Exception
import Redisdal.Lib.MapM
import Redisdal.Lib.UnorderedMap

/-! # Serialization

What the C++ standard leaves to the implementation (`Platform`), `std::from_chars`, the numeric
`string_serializable<T>` of `serialization.hpp`, and the `serializer<T>` strategy. -/

namespace Redisdal

/-- The error code that `std::from_chars` reports. -/
inductive CharsError where
  | invalidArgument
  | resultOutOfRange
deriving DecidableEq, Repr

/-- The result of `std::from_chars`: a value or an error code, and the text from `ptr` on. -/
structure CharsResult (α : Type) where
  value : Except CharsError α
  rest : Bytes

/-- A `double`, as its bit pattern. -/
structure Double where
  bits : UInt64
deriving DecidableEq, Repr

/-- What the C++ standard leaves to the implementation. -/
class Platform where
  /-- Function arguments are evaluated from right to left. -/
  rightToLeft : Bool
  /-- The order in which a loop visits the elements of an unordered container. -/
  enumerate : {α : Type} → List α → List α
  enumerate_perm : ∀ {α : Type} (l : List α), (enumerate l).Perm l
  /-- What `std::to_chars` writes for a `double` in general format with 17 digits. -/
  toCharsDouble : Double → Bytes
  /-- A sign, 17 digits, a point and an exponent of a sign and three digits, or a shorter fixed form. -/
  length_toCharsDouble : ∀ d, (toCharsDouble d).length ≤ 24
  /-- `std::from_chars` for a `double`. -/
  fromCharsDouble : Bytes → CharsResult Double

/-- The double 1.0. -/
def Double.one : Double := ⟨0x3FF0000000000000⟩

/-- A platform that evaluates arguments from left to right and visits a container in the order of its
    list. Of the floating-point numbers it knows 0 and 1. -/
abbrev referencePlatform : Platform where
  rightToLeft := false
  enumerate l := l
  enumerate_perm := List.Perm.refl
  toCharsDouble d := if d = Double.one then "1" else "0"
  length_toCharsDouble d := by split <;> decide
  fromCharsDouble s :=
    if s = "1" then ⟨.ok Double.one, []⟩ else if s = "0" then ⟨.ok ⟨0⟩, []⟩ else ⟨.error .invalidArgument, s⟩

/-- The two arguments `x` and `y` of a call, evaluated in the order of the platform. -/
def bothArguments [Platform] {α β : Type} (x : Outcome α) (y : Outcome β) : Outcome (α × β) :=
  if Platform.rightToLeft then do
    let b ← y
    let a ← x
    pure (a, b)
  else do
    let a ← x
    let b ← y
    pure (a, b)

theorem bothArguments_eq_ok [Platform] {α β : Type} {x : Outcome α} {y : Outcome β} {a : α} {b : β} :
    bothArguments x y = .ok (a, b) ↔ x = .ok a ∧ y = .ok b := by
  unfold bothArguments
  split <;> cases x <;> cases y <;> simp [bind, Except.bind, pure, Except.pure]

@[simp] theorem bothArguments_ok [Platform] {α β : Type} (a : α) (b : β) :
    bothArguments (.ok a) (.ok b) = .ok (a, b) :=
  bothArguments_eq_ok.mpr ⟨rfl, rfl⟩

theorem Throws.bothArguments [Platform] {α β : Type} {P : Exn → Prop} {x : Outcome α} {y : Outcome β}
    (hx : Throws P x) (hy : Throws P y) : Throws P (Redisdal.bothArguments x y) := by
  unfold Redisdal.bothArguments
  split
  · exact hy.bind fun _ _ => hx.bind fun _ _ => .pure _
  · exact hx.bind fun _ _ => hy.bind fun _ _ => .pure _

/-- The pairs of a map in the order in which a loop visits them. -/
def visit [Platform] {K V : Type} (m : UnorderedMap K V) : List (K × V) := Platform.enumerate m.pairs

theorem visit_perm [Platform] {K V : Type} (m : UnorderedMap K V) : (visit m).Perm m.pairs :=
  Platform.enumerate_perm _

theorem visit_eq_nil_iff [Platform] {K V : Type} {m : UnorderedMap K V} : visit m = [] ↔ m.entries = [] := by
  rw [← List.length_eq_zero_iff, (visit_perm m).length_eq, List.length_eq_zero_iff]
  exact List.map_eq_nil_iff

/-- The order of the visit does not change what a key is paired with. -/
theorem firstValue_visit [Platform] {K V : Type} [DecidableEq K] (m : UnorderedMap K V) (k : K) :
    UnorderedMap.firstValue (visit m) k = AList.lookup k m := by
  have hnodup : ((visit m).map Prod.fst).Nodup :=
    ((visit_perm m).map Prod.fst).nodup_iff.mpr (UnorderedMap.nodup_pairs m)
  rw [UnorderedMap.firstValue, UnorderedMap.lookup_perm (visit_perm m) hnodup, UnorderedMap.lookup_pairs]

/-! ### Numbers -/

/-- An integral type other than `bool`: its signedness and its width, at most 64. -/
structure IntegralType where
  signed : Bool
  bits : Nat

namespace IntegralType

def lowest (t : IntegralType) : Int := if t.signed then -2 ^ (t.bits - 1) else 0

def max (t : IntegralType) : Int := if t.signed then 2 ^ (t.bits - 1) - 1 else 2 ^ t.bits - 1

/-- `long long` or `unsigned long long`, in which `from_string` parses. -/
def parsedType (t : IntegralType) : IntegralType := ⟨t.signed, 64⟩

def uint64 : IntegralType := ⟨false, 64⟩

/-- Between `numeric_limits<T>::lowest()` and `numeric_limits<T>::max()`. -/
def InRange (t : IntegralType) (v : Int) : Prop := t.lowest ≤ v ∧ v ≤ t.max

instance (t : IntegralType) (v : Int) : Decidable (t.InRange v) := inferInstanceAs (Decidable (_ ∧ _))

/-- A value of the type. -/
def Value (t : IntegralType) : Type := {v : Int // t.InRange v}

instance (t : IntegralType) : DecidableEq t.Value := inferInstanceAs (DecidableEq {v : Int // t.InRange v})

end IntegralType

/-- The longest prefix of digits, and what follows it. -/
def spanDigits (s : Bytes) : Bytes × Bytes := s.span Bytes.isDigit

/-- `std::from_chars` for the integral type `t`: a minus sign for a signed type only, then digits. -/
def fromChars (t : IntegralType) (s : Bytes) : CharsResult Int :=
  let negative := t.signed && s.head? == some (Bytes.ofChar '-')
  let (digits, rest) := spanDigits (if negative then s.tail else s)
  if digits = [] then
    ⟨.error .invalidArgument, s⟩
  else
    let value : Int := if negative then -(Bytes.natValue digits) else Bytes.natValue digits
    if t.lowest ≤ value ∧ value ≤ t.max then ⟨.ok value, rest⟩ else ⟨.error .resultOutOfRange, rest⟩

/-- `string_serializable<T>::from_string` up to `from_chars`: an optional plus sign before the number. -/
def skipPlus (s : Bytes) : Outcome Bytes :=
  match s with
  | [] => throw (.invalidArgument "Empty numeric input")
  | c :: first =>
    if c = Bytes.ofChar '+' then
      match first with
      | [] => throw (.invalidArgument "Invalid numeric sign")
      | d :: _ =>
        if d = Bytes.ofChar '-' ∨ d = Bytes.ofChar '+' then throw (.invalidArgument "Invalid numeric sign")
        else pure first
    else pure s

/-- `string_serializable<T>::from_string` for a numeric `T` whose `parsed_type` is read by `parse`. -/
def fromStringWith {α : Type} (parse : Bytes → CharsResult α) (inRange : α → Bool) (s : Bytes) : Outcome α := do
  let first ← skipPlus s
  let result := parse first
  match result.value with
  | .error .invalidArgument => throw (.invalidArgument "Invalid numeric input")
  | .error .resultOutOfRange =>
    if result.rest ≠ [] then throw (.invalidArgument "Invalid numeric input")
    else throw (.outOfRange "Numeric input is out of range for the target type")
  | .ok value =>
    if result.rest ≠ [] then throw (.invalidArgument "Invalid numeric input")
    else if inRange value then pure value
    else throw (.outOfRange "Numeric input is out of range for the target type")

/-- `string_serializable<T>::from_string` for an integral `T`. -/
def integralFromString (t : IntegralType) : Bytes → Outcome Int :=
  fromStringWith (fromChars t.parsedType) fun value => t.lowest ≤ value && value ≤ t.max

/-- `string_serializable<T>::to_string` for an integral `T`: `std::to_string`, which promotes a narrow `T`. -/
def integralToString (v : Int) : Bytes := Bytes.decimalInt v

section FromString
variable {α : Type} {parse : Bytes → CharsResult α} {inRange : α → Bool} {s first : Bytes}

theorem fromStringWith_of_value (hs : skipPlus s = .ok first) {v : α} (h : parse first = ⟨.ok v, []⟩) :
    fromStringWith parse inRange s =
      if inRange v then .ok v else .error (.outOfRange "Numeric input is out of range for the target type") := by
  unfold fromStringWith
  rw [hs, Except.ok_bind, h]
  rfl

/-- A text that is read to its end but denotes too large a number for the parser. -/
theorem fromStringWith_of_range (hs : skipPlus s = .ok first) (h : parse first = ⟨.error .resultOutOfRange, []⟩) :
    fromStringWith parse inRange s =
      .error (.outOfRange "Numeric input is out of range for the target type") := by
  unfold fromStringWith
  rw [hs, Except.ok_bind, h]
  rfl

/-- A text that does not start with a number, or goes on after it. -/
theorem fromStringWith_of_invalid (hs : skipPlus s = .ok first)
    (h : (parse first).value = .error .invalidArgument ∨ (parse first).rest ≠ []) :
    fromStringWith parse inRange s = .error (.invalidArgument "Invalid numeric input") := by
  unfold fromStringWith
  rw [hs, Except.ok_bind]
  dsimp only
  split
  · rfl
  · next hvalue =>
    rw [hvalue] at h
    rw [if_pos (h.resolve_left fun he => by cases he)]
    rfl
  · next hvalue =>
    rw [hvalue] at h
    rw [if_pos (h.resolve_left fun he => by cases he)]
    rfl

theorem fromStringWith_eq_ok_iff {v : α} :
    fromStringWith parse inRange s = .ok v ↔
      ∃ first, skipPlus s = .ok first ∧ (parse first).value = .ok v ∧ (parse first).rest = [] ∧ inRange v = true := by
  cases hs : skipPlus s with
  | error e =>
    unfold fromStringWith
    simp [hs]
  | ok first =>
    have hfirst {p : Bytes → Prop} : (∃ f, (.ok first : Outcome Bytes) = .ok f ∧ p f) ↔ p first := by simp
    rw [hfirst]
    by_cases hrest : (parse first).rest = []
    case neg =>
      rw [fromStringWith_of_invalid hs (Or.inr hrest)]
      exact iff_of_false (fun h => by cases h) fun h => hrest h.2.1
    case pos =>
      rcases hparse : parse first with ⟨value, rest⟩
      rw [hparse] at hrest
      subst hrest
      cases value with
      | error e =>
        refine iff_of_false ?_ (by simp)
        cases e with
        | invalidArgument =>
          rw [fromStringWith_of_invalid hs (Or.inl (by rw [hparse]))]
          exact fun h => by cases h
        | resultOutOfRange =>
          rw [fromStringWith_of_range hs hparse]
          exact fun h => by cases h
      | ok w =>
        rw [fromStringWith_of_value hs hparse]
        by_cases hin : inRange w = true
        · rw [if_pos hin]
          constructor
          · intro h
            cases h
            exact ⟨rfl, rfl, hin⟩
          · intro hand
            obtain ⟨hw, -⟩ := hand
            cases hw
            rfl
        · rw [if_neg hin]
          refine iff_of_false (fun h => by cases h) ?_
          intro hand
          obtain ⟨hw, -, h⟩ := hand
          cases hw
          exact hin h

end FromString

/-- What `from_string` returns survives the `static_cast<T>`. -/
theorem inRange_of_integralFromString {t : IntegralType} {s : Bytes} {v : Int} (h : integralFromString t s = .ok v) :
    t.InRange v := by
  obtain ⟨first, -, -, -, hin⟩ := fromStringWith_eq_ok_iff.mp h
  simpa [IntegralType.InRange] using hin

/-- `string_serializable<double>::from_string`. -/
def doubleFromString [Platform] : Bytes → Outcome Double :=
  fromStringWith Platform.fromCharsDouble fun _ => true

/-- `string_serializable<double>::to_string`: `std::to_chars` fails when its buffer of
    `max_digits10 + 32` bytes is too short. -/
def doubleToString [Platform] (d : Double) : Outcome Bytes :=
  let text := Platform.toCharsDouble d
  if text.length ≤ 17 + 32 then pure text
  else throw (.runtimeError "Failed to serialize floating point value")

@[simp] theorem doubleToString_eq [Platform] (d : Double) : doubleToString d = .ok (Platform.toCharsDouble d) :=
  if_pos (Nat.le_trans (Platform.length_toCharsDouble d) (by decide))

/-! ### Serializers -/

/-- `serializer<T>`: an injected strategy; both directions may throw. -/
structure Serializer (α : Type) where
  serialize : α → Outcome Bytes
  deserialize : Bytes → Outcome α

/-- `string_serializer<std::string>`. -/
def stringSerializer : Serializer Bytes where
  serialize s := pure s
  deserialize s := pure s

/-- `string_serializer<T>` for an integral `T`. -/
def integralSerializer (t : IntegralType) : Serializer t.Value where
  serialize v := pure (integralToString v.1)
  deserialize s := match h : integralFromString t s with
    | .ok v => .ok ⟨v, inRange_of_integralFromString h⟩
    | .error e => .error e

/-- What is serialized reads back. -/
def Serializer.Lawful {α : Type} (S : Serializer α) : Prop :=
  ∀ a, ∃ text, S.serialize a = .ok text ∧ S.deserialize text = .ok a

end Redisdal
