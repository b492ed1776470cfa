import Redisdal.ValueOperations

/-! # The typed list view

`default_list_operations<K, V>`: values are serialized before the key, and what comes back is deserialized from
the first element on. -/

namespace Redisdal.ListOperations
variable {K V σ : Type} (tpl : Template K V) (E : Executor σ)

def lpushMany (key : K) (values : List V) : Program Exn σ Int := do
  let serializedValues ← Program.ofExcept (values.mapM tpl.serializeValue)
  let sKey ← Program.ofExcept (tpl.serializeKey key)
  Client.lpushMany E sKey serializedValues

def lpush [Platform] (key : K) (value : V) : Program Exn σ Int := do
  let args ← Program.ofExcept (ValueOperations.keyAndValue tpl key value)
  Client.lpush E args.1 args.2

def rpush [Platform] (key : K) (value : V) : Program Exn σ Int := do
  let args ← Program.ofExcept (ValueOperations.keyAndValue tpl key value)
  Client.rpush E args.1 args.2

def rpushMany (key : K) (values : List V) : Program Exn σ Int := do
  let serializedValues ← Program.ofExcept (values.mapM tpl.serializeValue)
  let sKey ← Program.ofExcept (tpl.serializeKey key)
  Client.rpushMany E sKey serializedValues

def lpop (key : K) : Program Exn σ (Option V) := do
  let sKey ← Program.ofExcept (tpl.serializeKey key)
  (Client.lpop E sKey).decode fun val => val.mapM tpl.deserializeValue

def rpop (key : K) : Program Exn σ (Option V) := do
  let sKey ← Program.ofExcept (tpl.serializeKey key)
  (Client.rpop E sKey).decode fun val => val.mapM tpl.deserializeValue

def lpopCount (key : K) (count : Int) : Program Exn σ (List V) := do
  let sKey ← Program.ofExcept (tpl.serializeKey key)
  (Client.lpopCount E sKey count).decode fun rawList => rawList.mapM tpl.deserializeValue

def rpopCount (key : K) (count : Int) : Program Exn σ (List V) := do
  let sKey ← Program.ofExcept (tpl.serializeKey key)
  (Client.rpopCount E sKey count).decode fun rawList => rawList.mapM tpl.deserializeValue

def lrange (key : K) (start stop : Int) : Program Exn σ (List V) := do
  let sKey ← Program.ofExcept (tpl.serializeKey key)
  (Client.lrange E sKey start stop).decode fun rawList => rawList.mapM tpl.deserializeValue

def llen (key : K) : Program Exn σ Int := do
  let sKey ← Program.ofExcept (tpl.serializeKey key)
  Client.llen E sKey

def lindex (key : K) (index : Int) : Program Exn σ (Option V) := do
  let sKey ← Program.ofExcept (tpl.serializeKey key)
  (Client.lindex E sKey index).decode fun val => val.mapM tpl.deserializeValue

end Redisdal.ListOperations
