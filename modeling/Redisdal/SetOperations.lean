import Redisdal.ValueOperations

/-! # The typed set view

`default_set_operations<K, V>`: members pass through the value serializer, the keys of `sinter` through the key
serializer. -/

namespace Redisdal.SetOperations
variable {K V σ : Type} (tpl : Template K V) (E : Executor σ)

def sadd (key : K) (members : List V) : Program Exn σ Int := do
  let serializedMembers ← Program.ofExcept (members.mapM tpl.serializeValue)
  let sKey ← Program.ofExcept (tpl.serializeKey key)
  Client.sadd E sKey serializedMembers

def srem (key : K) (members : List V) : Program Exn σ Int := do
  let serializedMembers ← Program.ofExcept (members.mapM tpl.serializeValue)
  let sKey ← Program.ofExcept (tpl.serializeKey key)
  Client.srem E sKey serializedMembers

def spop (key : K) : Program Exn σ (Option V) := do
  let sKey ← Program.ofExcept (tpl.serializeKey key)
  (Client.spop E sKey).decode fun val => val.mapM tpl.deserializeValue

def smembers (key : K) : Program Exn σ (List V) := do
  let sKey ← Program.ofExcept (tpl.serializeKey key)
  (Client.smembers E sKey).decode fun rawMembers => rawMembers.mapM tpl.deserializeValue

def scard (key : K) : Program Exn σ Int := do
  let sKey ← Program.ofExcept (tpl.serializeKey key)
  Client.scard E sKey

def sismember [Platform] (key : K) (member : V) : Program Exn σ Bool := do
  let args ← Program.ofExcept (ValueOperations.keyAndValue tpl key member)
  Client.sismember E args.1 args.2

def sinter (keys : List K) : Program Exn σ (List V) := do
  let serializedKeys ← Program.ofExcept (keys.mapM tpl.serializeKey)
  (Client.sinter E serializedKeys).decode fun rawMembers => rawMembers.mapM tpl.deserializeValue

end Redisdal.SetOperations
