import Redisdal.Template

/-! # The typed hash view

`default_hash_operations<K, V>`: it serializes the arguments, calls the string client and deserializes
what comes back. -/

namespace Redisdal.HashOperations
variable {K V σ : Type} (tpl : Template K V) (E : Executor σ)

/-- The serialized arguments of a call that takes a key and a field. -/
def keyAndField [Platform] (key hashKey : K) : Outcome (Bytes × Bytes) :=
  bothArguments (tpl.serializeKey key) (tpl.serializeKey hashKey)

/-- A deserialized field and its value: the arguments of one `emplace`. -/
def fieldAndValue [Platform] (pair : Bytes × Bytes) : Outcome (K × V) :=
  bothArguments (tpl.deserializeKey pair.1) (tpl.deserializeValue pair.2)

def hget [Platform] (key hashKey : K) : Program Exn σ (Option V) := do
  let args ← Program.ofExcept (keyAndField tpl key hashKey)
  (Client.hget E args.1 args.2).decode fun val => val.mapM tpl.deserializeValue

/-- The update of the caller's map from one pair of the serialized map. -/
def storeField [DecidableEq K] (pair : Bytes × Option Bytes) :
    Program Exn (UnorderedMap K (Option V) × σ) Unit := do
  let field ← Program.ofExcept (tpl.deserializeKey pair.1)
  let s ← Program.get
  if field ∈ s.1 then do
    let value ← Program.ofExcept (pair.2.mapM tpl.deserializeValue)
    Program.modify fun s => (s.1.insert field value, s.2)
  else pure ()

def hgetMany [Platform] [DecidableEq K] (key : K) : Program Exn (UnorderedMap K (Option V) × σ) Unit := do
  let s ← Program.get
  if s.1.entries.isEmpty then pure () else do
    let fields ← Program.ofExcept ((visit s.1).mapM fun pair => tpl.serializeKey pair.1)
    let serializedMap := UnorderedMap.emplaceAll ∅ (fields.map fun field => (field, none))
    let sKey ← Program.ofExcept (tpl.serializeKey key)
    let found ← (Program.withLocal serializedMap (Client.hgetMany E sKey)).lift
    forM (visit found.2) (storeField tpl)

def hgetall [Platform] [DecidableEq K] (key : K) : Program Exn σ (UnorderedMap K V) := do
  let sKey ← Program.ofExcept (tpl.serializeKey key)
  (Client.hgetall E sKey).decode fun rawMap => do
    let fields ← (visit rawMap).mapM (fieldAndValue tpl)
    pure (UnorderedMap.emplaceAll ∅ fields)

def hkeys (key : K) : Program Exn σ (List K) := do
  let sKey ← Program.ofExcept (tpl.serializeKey key)
  (Client.hkeys E sKey).decode fun rawKeys => rawKeys.mapM tpl.deserializeKey

def hvals (key : K) : Program Exn σ (List V) := do
  let sKey ← Program.ofExcept (tpl.serializeKey key)
  (Client.hvals E sKey).decode fun rawVals => rawVals.mapM tpl.deserializeValue

def hscan [Platform] [DecidableEq K] (key : K) (cursor : UInt64) (pattern : K) (count : UInt32) :
    Program Exn (UnorderedMap K V × σ) UInt64 := do
  let args ← Program.ofExcept (keyAndField tpl key pattern)
  let found ← (Program.withLocal ∅ (Client.hscan E args.1 cursor args.2 count)).lift
  Program.modify fun s => (∅, s.2)
  forM (visit found.2) fun pair => do
    let entry ← Program.ofExcept (fieldAndValue tpl pair)
    Program.modify fun s => (s.1.emplace entry.1 entry.2, s.2)
  pure found.1

def hset [Platform] (key field : K) (value : V) : Program Exn σ Bool := do
  let args ← Program.ofExcept (bothArguments (tpl.serializeKey key)
    (bothArguments (tpl.serializeKey field) (tpl.serializeValue value)))
  Client.hset E args.1 args.2.1 args.2.2

def hsetMany [Platform] (key : K) (hashMap : UnorderedMap K V) : Program Exn σ Bool := do
  let fields ← Program.ofExcept ((visit hashMap).mapM fun pair =>
    bothArguments (tpl.serializeKey pair.1) (tpl.serializeValue pair.2))
  let sKey ← Program.ofExcept (tpl.serializeKey key)
  Client.hsetMany E sKey (UnorderedMap.emplaceAll ∅ fields)

def hdel [Platform] (key hashKey : K) : Program Exn σ Int := do
  let args ← Program.ofExcept (keyAndField tpl key hashKey)
  Client.hdel E args.1 args.2

def hdelMany (key : K) (hashKeys : List K) : Program Exn σ Int := do
  let serializedKeys ← Program.ofExcept (hashKeys.mapM tpl.serializeKey)
  let sKey ← Program.ofExcept (tpl.serializeKey key)
  Client.hdelMany E sKey serializedKeys

end Redisdal.HashOperations
