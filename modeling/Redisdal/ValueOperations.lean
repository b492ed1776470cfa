import Redisdal.Template

/-! # The typed string view

`default_value_operations<K, V>`: one value under each key; `incr` and `decr` pass no value through a serializer. -/

namespace Redisdal.ValueOperations
variable {K V σ : Type} (tpl : Template K V) (E : Executor σ)

/-- The serialized arguments of a call that takes a key and a value. -/
def keyAndValue [Platform] (key : K) (value : V) : Outcome (Bytes × Bytes) :=
  bothArguments (tpl.serializeKey key) (tpl.serializeValue value)

def set [Platform] (key : K) (value : V) : Program Exn σ Bool := do
  let args ← Program.ofExcept (keyAndValue tpl key value)
  Client.set E args.1 args.2

def get (key : K) : Program Exn σ (Option V) := do
  let sKey ← Program.ofExcept (tpl.serializeKey key)
  (Client.get E sKey).decode fun val => val.mapM tpl.deserializeValue

def incr (key : K) (delta : Int) : Program Exn σ Int := do
  let sKey ← Program.ofExcept (tpl.serializeKey key)
  Client.incr E sKey delta

def decr (key : K) (delta : Int) : Program Exn σ Int := do
  let sKey ← Program.ofExcept (tpl.serializeKey key)
  Client.decr E sKey delta

def append [Platform] (key : K) (value : V) : Program Exn σ Int := do
  let args ← Program.ofExcept (keyAndValue tpl key value)
  Client.append E args.1 args.2

def getAndSet [Platform] (key : K) (value : V) : Program Exn σ (Option V) := do
  let args ← Program.ofExcept (keyAndValue tpl key value)
  (Client.getset E args.1 args.2).decode fun val => val.mapM tpl.deserializeValue

end Redisdal.ValueOperations
