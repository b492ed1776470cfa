import Redisdal.CmdOps

/-! # The string client

`redis_client`: each operation issues one command and interprets its reply. An operation with an
out-parameter is a program over that container next to the state of the connection. -/

namespace Redisdal.Client

/-! ### Interpreting a reply -/

/-- `or_throw().as_integer(command)`. -/
def integerReply (command : Bytes) (reply : CmdReply) : Outcome Int := do
  let reply ← reply.orThrow
  reply.asInteger command

/-- `or_throw().as_integer(command) == 1`. -/
def flagReply (command : Bytes) (reply : CmdReply) : Outcome Bool := do
  let n ← integerReply command reply
  pure (n == 1)

/-- `or_throw().as_text(command)`. -/
def textReply (command : Bytes) (reply : CmdReply) : Outcome Bytes := do
  let reply ← reply.orThrow
  reply.asText command

/-- `or_throw().as_status(command)`. -/
def statusReply (command : Bytes) (reply : CmdReply) : Outcome Bytes := do
  let reply ← reply.orThrow
  reply.asStatus command

/-- `or_throw().status_is_ok(command)`. -/
def statusOkReply (command : Bytes) (reply : CmdReply) : Outcome Bool := do
  let reply ← reply.orThrow
  reply.statusIsOk command

/-- `or_throw()`, then `get_type() == STATUS && status_is_ok("SET")`. -/
def setReply (reply : CmdReply) : Outcome Bool := do
  let reply ← reply.orThrow
  if reply.type = .status then reply.statusIsOk "SET" else pure false

/-- `or_throw()`, then `get_type() == INTEGER && as_integer("HSET") >= 0`. -/
def hsetReply (reply : CmdReply) : Outcome Bool := do
  let reply ← reply.orThrow
  if reply.type = .integer then do
    let n ← reply.asInteger "HSET"
    pure (decide (n ≥ 0))
  else pure false

/-- `or_throw().optional_string(command)`. -/
def optionalStringReply (command : Bytes) (reply : CmdReply) : Outcome (Option Bytes) := do
  let reply ← reply.orThrow
  reply.optionalString command

/-- `or_throw().strings(command)`. -/
def stringsReply (command : Bytes) (reply : CmdReply) : Outcome (List Bytes) := do
  let reply ← reply.orThrow
  reply.strings command

/-- `or_throw().hash(command)`. -/
def hashReply [Platform] (command : Bytes) (reply : CmdReply) : Outcome (UnorderedMap Bytes Bytes) := do
  let reply ← reply.orThrow
  reply.hash command

/-- `or_throw().optional_score(command)`. -/
def optionalScoreReply [Platform] (command : Bytes) (reply : CmdReply) : Outcome (Option Double) := do
  let reply ← reply.orThrow
  reply.optionalScore command

/-- `or_throw().scores(command)`. -/
def scoresReply [Platform] (command : Bytes) (reply : CmdReply) : Outcome (List (Bytes × Double)) := do
  let reply ← reply.orThrow
  reply.scores command

def zincrbyReply [Platform] (reply : CmdReply) : Outcome Double := do
  let score ← optionalScoreReply "ZINCRBY" reply
  match score with
  | none => throw (.unexpectedReplyType "ZINCRBY" "string" "nil")
  | some score => pure score

/-- `or_throw().stream_entries(command)`. -/
def streamEntriesReply [Platform] (command : Bytes) (reply : CmdReply) :
    Outcome (List (StreamEntry Bytes Bytes)) := do
  let reply ← reply.orThrow
  reply.streamEntries command

/-- `or_throw().stream_batches(command)`. -/
def streamBatchesReply [Platform] (command : Bytes) (reply : CmdReply) :
    Outcome (List (StreamBatch Bytes Bytes)) := do
  let reply ← reply.orThrow
  reply.streamBatches command

/-- The cursor and the second element of a scan reply. -/
def scanPage (command : Bytes) (reply : CmdReply) : Outcome (UInt64 × CmdReply) := do
  let reply ← reply.orThrow
  let cursor ← reply.scanCursor command
  let parts ← reply.asArray command
  let results ← deref parts[1]?
  pure (cursor, results)

/-- `insert(values.begin(), values.end())` into a set. -/
def insertKeys {K : Type} [DecidableEq K] (keys : UnorderedSet K) (values : List K) : UnorderedSet K :=
  keys.emplaceAll (values.map fun value => (value, ()))

def scanReply (reply : CmdReply) : Outcome (UInt64 × UnorderedSet Bytes) := do
  let (cursor, results) ← scanPage "SCAN" reply
  let values ← results.strings "SCAN"
  pure (cursor, insertKeys ∅ values)

def hscanReply [Platform] (reply : CmdReply) : Outcome (UInt64 × UnorderedMap Bytes Bytes) := do
  let (cursor, results) ← scanPage "HSCAN" reply
  let fields ← results.hash "HSCAN"
  pure (cursor, fields)

/-- The values of an HMGET reply, decoded before the caller's map is touched. -/
def hmgetReply (size : Nat) (reply : CmdReply) : Outcome (List (Option Bytes)) := do
  reply.throwIfError
  let values ← reply.asArray "HMGET"
  if values.length ≠ size then
    throw (.runtimeError "HMGET: unexpected value count")
  values.mapM fun value => value.optionalString "HMGET"

def evalSha1Reply (reply : CmdReply) : Outcome CmdReply := do
  reply.throwIfError
  pure reply

section Operations
variable {σ : Type} (E : Executor σ)

/-! ### Keys -/

def «exists» (key : Bytes) : Program Exn σ Bool := (CmdOps.exists E key).decode (flagReply "EXISTS")

def keys (pattern : Bytes) : Program Exn (UnorderedSet Bytes × σ) Unit := do
  let values ← ((CmdOps.keys E pattern).decode (stringsReply "KEYS")).lift
  Program.modify fun s => (insertKeys s.1 values, s.2)

def scan (cursor : UInt64) (pattern : Bytes) (count : UInt32) : Program Exn σ (UInt64 × UnorderedSet Bytes) :=
  (CmdOps.scan E cursor pattern count).decode scanReply

def type (key : Bytes) : Program Exn σ Bytes := (CmdOps.type E key).decode (statusReply "TYPE")

def expire (key : Bytes) (seconds : Int) : Program Exn σ Bool :=
  (CmdOps.expire E key seconds).decode (flagReply "EXPIRE")

def pexpire (key : Bytes) (milliseconds : Int) : Program Exn σ Bool :=
  (CmdOps.pexpire E key milliseconds).decode (flagReply "PEXPIRE")

def ttl (key : Bytes) : Program Exn σ Int := (CmdOps.ttl E key).decode (integerReply "TTL")

def pttl (key : Bytes) : Program Exn σ Int := (CmdOps.pttl E key).decode (integerReply "PTTL")

def persist (key : Bytes) : Program Exn σ Bool := (CmdOps.persist E key).decode (flagReply "PERSIST")

def ping : Program Exn σ Bytes := (CmdOps.ping E).decode (textReply "PING")

def pingMessage (message : Bytes) : Program Exn σ Bytes := (CmdOps.pingMessage E message).decode (textReply "PING")

def del (key : Bytes) : Program Exn σ Int := (CmdOps.del E key).decode (integerReply "DEL")

def delMany (keys : List Bytes) : Program Exn σ Int :=
  if keys.isEmpty then pure 0 else (CmdOps.delMany E keys).decode (integerReply "DEL")

/-! ### Strings -/

def set (key value : Bytes) : Program Exn σ Bool := (CmdOps.set E key value).decode setReply

def setNotExists (key value : Bytes) : Program Exn σ Bool := (CmdOps.setNotExists E key value).decode setReply

def setEx (key value : Bytes) (seconds : Int) : Program Exn σ Bool :=
  (CmdOps.setEx E key value seconds).decode setReply

def setPx (key value : Bytes) (milliseconds : Int) : Program Exn σ Bool :=
  (CmdOps.setPx E key value milliseconds).decode setReply

def get (key : Bytes) : Program Exn σ (Option Bytes) := (CmdOps.get E key).decode (optionalStringReply "GET")

def getset (key newValue : Bytes) : Program Exn σ (Option Bytes) :=
  (CmdOps.getset E key newValue).decode (optionalStringReply "GETSET")

def incr (key : Bytes) (delta : Int) : Program Exn σ Int := (CmdOps.incr E key delta).decode (integerReply "INCRBY")

def decr (key : Bytes) (delta : Int) : Program Exn σ Int := (CmdOps.decr E key delta).decode (integerReply "DECRBY")

def append (key value : Bytes) : Program Exn σ Int := (CmdOps.append E key value).decode (integerReply "APPEND")

/-! ### Hashes -/

def hget (key hashKey : Bytes) : Program Exn σ (Option Bytes) :=
  (CmdOps.hget E key hashKey).decode (optionalStringReply "HGET")

/-- `hash_map.at(field) = value`. -/
def storeAt (field : Bytes) (value : Option Bytes) :
    Program Exn (UnorderedMap Bytes (Option Bytes) × σ) Unit := do
  let s ← Program.get
  if field ∈ s.1 then Program.modify fun s => (s.1.insert field value, s.2)
  else Program.throw (.outOfRange "unordered_map::at")

/-- The loop over `i < decoded.size()` that stores `decoded[i]` at `fields[i]`. -/
def storeAll : List Bytes → List (Option Bytes) → Program Exn (UnorderedMap Bytes (Option Bytes) × σ) Unit
  | _, [] => pure ()
  | [], _ :: _ => Program.throw .undefinedBehavior
  | field :: fields, value :: decoded => do
    storeAt field value
    storeAll fields decoded

def hgetMany [Platform] (key : Bytes) : Program Exn (UnorderedMap Bytes (Option Bytes) × σ) Unit := do
  let s ← Program.get
  if s.1.entries.isEmpty then pure () else do
    let fields := (visit s.1).map Prod.fst
    let decoded ← ((CmdOps.hgetMany E key fields).decode (hmgetReply s.1.entries.length)).lift
    storeAll fields decoded

def hset (key field value : Bytes) : Program Exn σ Bool := (CmdOps.hset E key field value).decode hsetReply

def hsetMany [Platform] (key : Bytes) (hashMap : UnorderedMap Bytes Bytes) : Program Exn σ Bool :=
  if hashMap.entries.isEmpty then pure false else (CmdOps.hsetMany E key hashMap).decode hsetReply

def hgetall [Platform] (key : Bytes) : Program Exn σ (UnorderedMap Bytes Bytes) :=
  (CmdOps.hgetall E key).decode (hashReply "HGETALL")

def hkeys (key : Bytes) : Program Exn σ (List Bytes) := (CmdOps.hkeys E key).decode (stringsReply "HKEYS")

def hvals (key : Bytes) : Program Exn σ (List Bytes) := (CmdOps.hvals E key).decode (stringsReply "HVALS")

def hscan [Platform] (key : Bytes) (cursor : UInt64) (pattern : Bytes) (count : UInt32) :
    Program Exn (UnorderedMap Bytes Bytes × σ) UInt64 := do
  let page ← ((CmdOps.hscan E key cursor pattern count).decode hscanReply).lift
  Program.modify fun s => (s.1.emplaceAll (visit page.2), s.2)
  pure page.1

def hdel (key hashKey : Bytes) : Program Exn σ Int := (CmdOps.hdel E key hashKey).decode (integerReply "HDEL")

def hdelMany (key : Bytes) (hashKeys : List Bytes) : Program Exn σ Int :=
  if hashKeys.isEmpty then pure 0 else (CmdOps.hdelMany E key hashKeys).decode (integerReply "HDEL")

/-! ### Lists -/

def llen (key : Bytes) : Program Exn σ Int := (CmdOps.llen E key).decode (integerReply "LLEN")

def lpushMany (key : Bytes) (values : List Bytes) : Program Exn σ Int :=
  if values.isEmpty then llen E key else (CmdOps.lpushMany E key values).decode (integerReply "LPUSH")

def lpush (key value : Bytes) : Program Exn σ Int := (CmdOps.lpush E key value).decode (integerReply "LPUSH")

def rpush (key value : Bytes) : Program Exn σ Int := (CmdOps.rpush E key value).decode (integerReply "RPUSH")

def rpushMany (key : Bytes) (values : List Bytes) : Program Exn σ Int :=
  if values.isEmpty then llen E key else (CmdOps.rpushMany E key values).decode (integerReply "RPUSH")

def lpop (key : Bytes) : Program Exn σ (Option Bytes) := (CmdOps.lpop E key).decode (optionalStringReply "LPOP")

def rpop (key : Bytes) : Program Exn σ (Option Bytes) := (CmdOps.rpop E key).decode (optionalStringReply "RPOP")

def lpopCount (key : Bytes) (count : Int) : Program Exn σ (List Bytes) :=
  (CmdOps.lpopCount E key count).decode (stringsReply "LPOP")

def rpopCount (key : Bytes) (count : Int) : Program Exn σ (List Bytes) :=
  (CmdOps.rpopCount E key count).decode (stringsReply "RPOP")

def lrange (key : Bytes) (start stop : Int) : Program Exn σ (List Bytes) :=
  (CmdOps.lrange E key start stop).decode (stringsReply "LRANGE")

def lindex (key : Bytes) (index : Int) : Program Exn σ (Option Bytes) :=
  (CmdOps.lindex E key index).decode (optionalStringReply "LINDEX")

/-! ### Sets -/

def sadd (key : Bytes) (members : List Bytes) : Program Exn σ Int :=
  if members.isEmpty then pure 0 else (CmdOps.sadd E key members).decode (integerReply "SADD")

def srem (key : Bytes) (members : List Bytes) : Program Exn σ Int :=
  if members.isEmpty then pure 0 else (CmdOps.srem E key members).decode (integerReply "SREM")

def smembers (key : Bytes) : Program Exn σ (List Bytes) := (CmdOps.smembers E key).decode (stringsReply "SMEMBERS")

def scard (key : Bytes) : Program Exn σ Int := (CmdOps.scard E key).decode (integerReply "SCARD")

def sismember (key member : Bytes) : Program Exn σ Bool :=
  (CmdOps.sismember E key member).decode (flagReply "SISMEMBER")

def spop (key : Bytes) : Program Exn σ (Option Bytes) := (CmdOps.spop E key).decode (optionalStringReply "SPOP")

def sinter (keys : List Bytes) : Program Exn σ (List Bytes) :=
  if keys.isEmpty then pure [] else (CmdOps.sinter E keys).decode (stringsReply "SINTER")

/-! ### Sorted sets -/

def zadd [Platform] (key : Bytes) (members : UnorderedMap Bytes Double) : Program Exn σ Int :=
  if members.entries.isEmpty then pure 0 else (CmdOps.zadd E key members).decode (integerReply "ZADD")

def zrem (key : Bytes) (members : List Bytes) : Program Exn σ Int :=
  if members.isEmpty then pure 0 else (CmdOps.zrem E key members).decode (integerReply "ZREM")

def zscore [Platform] (key member : Bytes) : Program Exn σ (Option Double) :=
  (CmdOps.zscore E key member).decode (optionalScoreReply "ZSCORE")

def zrange (key : Bytes) (start stop : Int) : Program Exn σ (List Bytes) :=
  (CmdOps.zrange E key start stop).decode (stringsReply "ZRANGE")

def zrevrange (key : Bytes) (start stop : Int) : Program Exn σ (List Bytes) :=
  (CmdOps.zrevrange E key start stop).decode (stringsReply "ZREVRANGE")

def zrangeWithscores [Platform] (key : Bytes) (start stop : Int) : Program Exn σ (List (Bytes × Double)) :=
  (CmdOps.zrangeWithscores E key start stop).decode (scoresReply "ZRANGE")

def zrevrangeWithscores [Platform] (key : Bytes) (start stop : Int) : Program Exn σ (List (Bytes × Double)) :=
  (CmdOps.zrevrangeWithscores E key start stop).decode (scoresReply "ZREVRANGE")

def zincrby [Platform] (key : Bytes) (increment : Double) (member : Bytes) : Program Exn σ Double :=
  (CmdOps.zincrby E key increment member).decode zincrbyReply

/-! ### Streams -/

def xadd (key : Bytes) (fields : List (Bytes × Bytes)) (options : StreamAddOptions) :
    Program Exn σ (Option Bytes) :=
  (CmdOps.xadd E key fields options).decode (optionalStringReply "XADD")

def xlen (key : Bytes) : Program Exn σ Int := (CmdOps.xlen E key).decode (integerReply "XLEN")

def xrange [Platform] (key start stop : Bytes) (count : Option Int) :
    Program Exn σ (List (StreamEntry Bytes Bytes)) :=
  (CmdOps.xrange E key start stop count).decode (streamEntriesReply "XRANGE")

def xrevrange [Platform] (key stop start : Bytes) (count : Option Int) :
    Program Exn σ (List (StreamEntry Bytes Bytes)) :=
  (CmdOps.xrevrange E key stop start count).decode (streamEntriesReply "XREVRANGE")

def xread [Platform] (streams : List (StreamReadRequest Bytes)) (options : StreamReadOptions) :
    Program Exn σ (List (StreamBatch Bytes Bytes)) :=
  (CmdOps.xread E streams options).decode (streamBatchesReply "XREAD")

def xdel (key : Bytes) (ids : List Bytes) : Program Exn σ Int :=
  if ids.isEmpty then pure 0 else (CmdOps.xdel E key ids).decode (integerReply "XDEL")

def xtrim (key : Bytes) (options : StreamTrimOptions) : Program Exn σ Int :=
  (CmdOps.xtrim E key options).decode (integerReply "XTRIM")

def xgroupCreate (key group id : Bytes) (mkstream : Bool) : Program Exn σ Bool :=
  (CmdOps.xgroupCreate E key group id mkstream).decode (statusOkReply "XGROUP CREATE")

def xgroupSetid (key group id : Bytes) : Program Exn σ Bool :=
  (CmdOps.xgroupSetid E key group id).decode (statusOkReply "XGROUP SETID")

def xgroupDestroy (key group : Bytes) : Program Exn σ Bool :=
  (CmdOps.xgroupDestroy E key group).decode (flagReply "XGROUP DESTROY")

def xgroupCreateconsumer (key group consumer : Bytes) : Program Exn σ Bool :=
  (CmdOps.xgroupCreateconsumer E key group consumer).decode (flagReply "XGROUP CREATECONSUMER")

def xgroupDelconsumer (key group consumer : Bytes) : Program Exn σ Int :=
  (CmdOps.xgroupDelconsumer E key group consumer).decode (integerReply "XGROUP DELCONSUMER")

def xreadgroup [Platform] (group consumer : Bytes) (streams : List (StreamReadRequest Bytes))
    (options : StreamReadGroupOptions) : Program Exn σ (List (StreamBatch Bytes Bytes)) :=
  (CmdOps.xreadgroup E group consumer streams options).decode (streamBatchesReply "XREADGROUP")

def xack (key group : Bytes) (ids : List Bytes) : Program Exn σ Int :=
  if ids.isEmpty then pure 0 else (CmdOps.xack E key group ids).decode (integerReply "XACK")

/-! ### Scripts and raw commands -/

def scriptLoad (script : Bytes) : Program Exn σ Bytes := CmdOps.scriptLoad E script

def evalSha1 (sha1 : Bytes) (keys args : List Bytes) : Program Exn σ CmdReply :=
  (CmdOps.evalSha1 E sha1 keys args).decode evalSha1Reply

def eval (script : Bytes) (keys args : List Bytes) : Program Exn σ CmdReply :=
  (CmdOps.eval E script keys args).decode CmdReply.orThrow

def command (cmd : Bytes) (args : List Bytes) : Program Exn σ CmdReply :=
  (CmdOps.command E cmd args).decode CmdReply.orThrow

end Operations

end Redisdal.Client
