import Redisdal.Template

/-! # The typed stream view

`default_stream_operations<K, V>`: keys, fields and values go through the serializers, ids stay texts. -/

namespace Redisdal.StreamOperations
variable {K V σ : Type} (tpl : Template K V) (E : Executor σ)

/-! ### Serialization helpers -/

/-- The arguments of one `emplace_back` into the serialized fields. -/
def serializeField [Platform] (field : K × V) : Outcome (Bytes × Bytes) :=
  bothArguments (tpl.serializeKey field.1) (tpl.serializeValue field.2)

def serializeRequests (streams : List (StreamReadRequest K)) : Outcome (List (StreamReadRequest Bytes)) :=
  streams.mapM fun stream => do
    let key ← tpl.serializeKey stream.key
    pure ⟨key, stream.id⟩

/-- The arguments of one `emplace_back` into the fields of an entry. -/
def deserializeField [Platform] (field : Bytes × Bytes) : Outcome (K × V) :=
  bothArguments (tpl.deserializeKey field.1) (tpl.deserializeValue field.2)

def deserializeEntry [Platform] (rawEntry : StreamEntry Bytes Bytes) : Outcome (StreamEntry K V) := do
  let fields ← rawEntry.fields.mapM (deserializeField tpl)
  pure ⟨rawEntry.id, fields⟩

def deserializeEntries [Platform] (rawEntries : List (StreamEntry Bytes Bytes)) : Outcome (List (StreamEntry K V)) :=
  rawEntries.mapM (deserializeEntry tpl)

def deserializeBatches [Platform] (rawBatches : List (StreamBatch Bytes Bytes)) : Outcome (List (StreamBatch K V)) :=
  rawBatches.mapM fun rawBatch => do
    let key ← tpl.deserializeKey rawBatch.key
    let entries ← deserializeEntries tpl rawBatch.entries
    pure ⟨key, entries⟩

/-! ### Operations -/

def xadd [Platform] (key : K) (fields : List (K × V)) (options : StreamAddOptions) :
    Program Exn σ (Option Bytes) := do
  let serializedFields ← Program.ofExcept (fields.mapM (serializeField tpl))
  let sKey ← Program.ofExcept (tpl.serializeKey key)
  Client.xadd E sKey serializedFields options

def xlen (key : K) : Program Exn σ Int := do
  let sKey ← Program.ofExcept (tpl.serializeKey key)
  Client.xlen E sKey

def xrange [Platform] (key : K) (start stop : Bytes) (count : Option Int) :
    Program Exn σ (List (StreamEntry K V)) := do
  let sKey ← Program.ofExcept (tpl.serializeKey key)
  (Client.xrange E sKey start stop count).decode (deserializeEntries tpl)

def xrevrange [Platform] (key : K) (stop start : Bytes) (count : Option Int) :
    Program Exn σ (List (StreamEntry K V)) := do
  let sKey ← Program.ofExcept (tpl.serializeKey key)
  (Client.xrevrange E sKey stop start count).decode (deserializeEntries tpl)

def xread [Platform] (streams : List (StreamReadRequest K)) (options : StreamReadOptions) :
    Program Exn σ (List (StreamBatch K V)) := do
  let serializedStreams ← Program.ofExcept (serializeRequests tpl streams)
  (Client.xread E serializedStreams options).decode (deserializeBatches tpl)

def xdel (key : K) (ids : List Bytes) : Program Exn σ Int := do
  let sKey ← Program.ofExcept (tpl.serializeKey key)
  Client.xdel E sKey ids

def xtrim (key : K) (options : StreamTrimOptions) : Program Exn σ Int := do
  let sKey ← Program.ofExcept (tpl.serializeKey key)
  Client.xtrim E sKey options

def xgroupCreate (key : K) (group id : Bytes) (mkstream : Bool) : Program Exn σ Bool := do
  let sKey ← Program.ofExcept (tpl.serializeKey key)
  Client.xgroupCreate E sKey group id mkstream

def xgroupSetid (key : K) (group id : Bytes) : Program Exn σ Bool := do
  let sKey ← Program.ofExcept (tpl.serializeKey key)
  Client.xgroupSetid E sKey group id

def xgroupDestroy (key : K) (group : Bytes) : Program Exn σ Bool := do
  let sKey ← Program.ofExcept (tpl.serializeKey key)
  Client.xgroupDestroy E sKey group

def xgroupCreateconsumer (key : K) (group consumer : Bytes) : Program Exn σ Bool := do
  let sKey ← Program.ofExcept (tpl.serializeKey key)
  Client.xgroupCreateconsumer E sKey group consumer

def xgroupDelconsumer (key : K) (group consumer : Bytes) : Program Exn σ Int := do
  let sKey ← Program.ofExcept (tpl.serializeKey key)
  Client.xgroupDelconsumer E sKey group consumer

def xreadgroup [Platform] (group consumer : Bytes) (streams : List (StreamReadRequest K))
    (options : StreamReadGroupOptions) : Program Exn σ (List (StreamBatch K V)) := do
  let serializedStreams ← Program.ofExcept (serializeRequests tpl streams)
  (Client.xreadgroup E group consumer serializedStreams options).decode (deserializeBatches tpl)

def xack (key : K) (group : Bytes) (ids : List Bytes) : Program Exn σ Int := do
  let sKey ← Program.ofExcept (tpl.serializeKey key)
  Client.xack E sKey group ids

end Redisdal.StreamOperations
