import Redisdal.Template

/-! # The typed sorted-set view

`default_zset_operations<K, V>`: members pass through the value serializer, scores are `double`s. -/

namespace Redisdal.ZsetOperations
variable {K V σ : Type} (tpl : Template K V) (E : Executor σ)

/-- A serialized member and its score: the arguments of one `emplace`. -/
def serializeMember (pair : V × Double) : Outcome (Bytes × Double) := do
  let member ← tpl.serializeValue pair.1
  pure (member, pair.2)

/-- A deserialized member and its score: the arguments of one `emplace_back`. -/
def deserializeMember (pair : Bytes × Double) : Outcome (V × Double) := do
  let member ← tpl.deserializeValue pair.1
  pure (member, pair.2)

/-- The serialized arguments of a call that takes a key and a member. -/
def keyAndMember [Platform] (key : K) (member : V) : Outcome (Bytes × Bytes) :=
  bothArguments (tpl.serializeKey key) (tpl.serializeValue member)

def zadd [Platform] (key : K) (members : UnorderedMap V Double) : Program Exn σ Int := do
  let serializedMembers ← Program.ofExcept ((visit members).mapM (serializeMember tpl))
  let sKey ← Program.ofExcept (tpl.serializeKey key)
  Client.zadd E sKey (UnorderedMap.emplaceAll ∅ serializedMembers)

def zrem (key : K) (members : List V) : Program Exn σ Int := do
  let serializedMembers ← Program.ofExcept (members.mapM tpl.serializeValue)
  let sKey ← Program.ofExcept (tpl.serializeKey key)
  Client.zrem E sKey serializedMembers

def zincrby [Platform] (key : K) (increment : Double) (member : V) : Program Exn σ Double := do
  let args ← Program.ofExcept (keyAndMember tpl key member)
  Client.zincrby E args.1 increment args.2

def zscore [Platform] (key : K) (member : V) : Program Exn σ (Option Double) := do
  let args ← Program.ofExcept (keyAndMember tpl key member)
  Client.zscore E args.1 args.2

def zrange (key : K) (start stop : Int) : Program Exn σ (List V) := do
  let sKey ← Program.ofExcept (tpl.serializeKey key)
  (Client.zrange E sKey start stop).decode fun rawMembers => rawMembers.mapM tpl.deserializeValue

def zrevrange (key : K) (start stop : Int) : Program Exn σ (List V) := do
  let sKey ← Program.ofExcept (tpl.serializeKey key)
  (Client.zrevrange E sKey start stop).decode fun rawMembers => rawMembers.mapM tpl.deserializeValue

def zrangeWithscores [Platform] (key : K) (start stop : Int) : Program Exn σ (List (V × Double)) := do
  let sKey ← Program.ofExcept (tpl.serializeKey key)
  (Client.zrangeWithscores E sKey start stop).decode fun rawPairs => rawPairs.mapM (deserializeMember tpl)

def zrevrangeWithscores [Platform] (key : K) (start stop : Int) : Program Exn σ (List (V × Double)) := do
  let sKey ← Program.ofExcept (tpl.serializeKey key)
  (Client.zrevrangeWithscores E sKey start stop).decode fun rawPairs => rawPairs.mapM (deserializeMember tpl)

end Redisdal.ZsetOperations
