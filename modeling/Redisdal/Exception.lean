import Redisdal.Lib.Bytes
import Redisdal.Lib.Program

/-! # Exceptions

The exceptions of `exception.hpp` and of the standard library that the code throws or lets through, and
what the C++ standard leaves to the implementation. -/

namespace Redisdal

/-- An exception in flight. `undefinedBehavior` is no exception: it marks an access that the C++ standard
    does not define (a disengaged `optional`, an index out of range), so that the model can show it absent. -/
inductive Exn where
  | tooManyScriptKeys (cmd : Bytes) (provided limit : Nat)
  | unexpectedReplyType (cmd expected actual : Bytes)
  | noScript (cmd sha1 : Bytes)
  | redisError (message : Bytes)
  | runtimeError (what : Bytes)
  | invalidArgument (what : Bytes)
  | outOfRange (what : Bytes)
  | lengthError (what : Bytes)
  | logicError (what : Bytes)
  | badOptionalAccess
  /-- An exception of a type unknown to this library, from a transport or a serializer. -/
  | foreign (tag : Nat)
  | undefinedBehavior
deriving DecidableEq, Repr

namespace Exn

/-- Derived from `std::runtime_error`. -/
def isRuntimeError : Exn → Bool
  | tooManyScriptKeys .. | unexpectedReplyType .. | noScript .. | redisError _ | runtimeError _ => true
  | invalidArgument _ | outOfRange _ | lengthError _ | logicError _ | badOptionalAccess | foreign _
  | undefinedBehavior => false

/-- Caught by `catch (const no_script_error &)`. -/
def isNoScript : Exn → Bool
  | noScript .. => true
  | _ => false

end Exn

/-- What code of this library computes without a connection. -/
abbrev Outcome (α : Type) : Type := Except Exn α

/-- `*x` on a `std::optional` that the code has not tested. -/
def deref {α : Type} : Option α → Outcome α
  | some a => .ok a
  | none => .error .undefinedBehavior

/-- The exceptions that a failing computation throws. -/
def Throws {α : Type} (P : Exn → Prop) (x : Outcome α) : Prop := ∀ e, x = .error e → P e

namespace Throws
variable {α β : Type} {P Q : Exn → Prop}

@[simp] theorem ok (a : α) : Throws P (.ok a) := fun _ h => by cases h

@[simp] theorem pure (a : α) : Throws P (pure a : Outcome α) := fun _ h => by cases h

@[simp] theorem error_iff {e : Exn} : Throws P (.error e : Outcome α) ↔ P e :=
  ⟨fun h => h e rfl, fun h _ he => by cases he; exact h⟩

theorem bind {x : Outcome α} {f : α → Outcome β} (hx : Throws P x) (hf : ∀ a, x = .ok a → Throws P (f a)) :
    Throws P (x >>= f) := by
  cases x with
  | ok a => exact hf a rfl
  | error e =>
    intro e' he
    cases he
    exact hx e rfl

theorem map {x : Outcome α} {f : α → β} (hx : Throws P x) : Throws P (f <$> x) := by
  cases x with
  | ok a => exact fun _ h => by cases h
  | error e =>
    intro e' he
    cases he
    exact hx e rfl

theorem mapM {f : α → Outcome β} {l : List α} (hf : ∀ a ∈ l, Throws P (f a)) : Throws P (l.mapM f) := by
  induction l with
  | nil => exact pure _
  | cons a l ih =>
    rw [List.mapM_cons]
    exact bind (hf a List.mem_cons_self) fun _ _ =>
      bind (ih fun b hb => hf b (List.mem_cons_of_mem _ hb)) fun _ _ => pure _

end Throws

end Redisdal
