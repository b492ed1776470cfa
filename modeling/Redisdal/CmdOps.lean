import Redisdal.CmdReply

/-! # Command construction

`redis_executor` and `redis_cmd_ops`: each operation builds the argument vector of one command and hands
it to `cmd_execv`. -/

namespace Redisdal

/-- `redis_executor::cmd_execv` over the state `σ` of a connection: it returns a reply or throws. -/
abbrev Executor (σ : Type) : Type := List Bytes → Program Exn σ Reply

inductive StreamTrimStrategy where
  | maxlen | minid
deriving DecidableEq, Repr

structure StreamTrimOptions where
  strategy : StreamTrimStrategy := .maxlen
  threshold : Bytes
  approximate : Bool := false
  limit : Option Int := none

structure StreamAddOptions where
  id : Bytes := "*"
  nomkstream : Bool := false
  trim : Option StreamTrimOptions := none

structure StreamReadOptions where
  count : Option Int := none
  blockMs : Option Int := none

structure StreamReadGroupOptions where
  count : Option Int := none
  blockMs : Option Int := none
  noack : Bool := false

/-- A stream key and the ID from which it should be read. -/
structure StreamReadRequest (K : Type) where
  key : K
  id : Bytes

def maxScriptKeys : Nat := 64

namespace CmdOps

/-! ### Argument builders -/

def appendArguments (pre args : List Bytes) : List Bytes := pre ++ args

def scriptArguments (command script : Bytes) (keys args : List Bytes) : Outcome (List Bytes) :=
  if keys.length > maxScriptKeys then throw (.tooManyScriptKeys command keys.length maxScriptKeys)
  else pure (appendArguments [command, script, Bytes.decimal keys.length] keys ++ args)

def appendStreamCount (args : List Bytes) (count : Option Int) (command : Bytes) : Outcome (List Bytes) :=
  match count with
  | none => pure args
  | some count =>
    if count ≤ 0 then throw (.invalidArgument (command ++ ": count must be greater than zero"))
    else pure (args ++ (["COUNT", Bytes.decimalInt count] : List Bytes))

def appendStreamBlock (args : List Bytes) (blockMs : Option Int) (command : Bytes) : Outcome (List Bytes) :=
  match blockMs with
  | none => pure args
  | some blockMs =>
    if blockMs < 0 then throw (.invalidArgument (command ++ ": block_ms must not be negative"))
    else pure (args ++ (["BLOCK", Bytes.decimalInt blockMs] : List Bytes))

def appendStreamTrim (args : List Bytes) (options : StreamTrimOptions) (command : Bytes) : Outcome (List Bytes) :=
  if options.threshold.isEmpty then
    throw (.invalidArgument (command ++ ": trim threshold must not be empty"))
  else if options.limit.any (· < 0) then
    throw (.invalidArgument (command ++ ": trim limit must not be negative"))
  else if options.limit.isSome && !options.approximate then
    throw (.invalidArgument (command ++ ": trim limit requires approximate trimming"))
  else
    let strategy : Bytes := if options.strategy = .maxlen then "MAXLEN" else "MINID"
    let approximate : List Bytes := if options.approximate then ["~"] else []
    let limit : List Bytes := match options.limit with
      | some limit => ["LIMIT", Bytes.decimalInt limit]
      | none => []
    pure (args ++ [strategy] ++ approximate ++ [options.threshold] ++ limit)

def appendStreams (args : List Bytes) (streams : List (StreamReadRequest Bytes)) (command : Bytes) :
    Outcome (List Bytes) :=
  if streams.isEmpty then throw (.invalidArgument (command ++ ": streams must not be empty"))
  else if streams.any fun stream => stream.id.isEmpty then
    throw (.invalidArgument (command ++ ": stream id must not be empty"))
  else pure (args ++ (["STREAMS"] : List Bytes) ++ streams.map (·.key) ++ streams.map (·.id))

def xaddArguments (key : Bytes) (fields : List (Bytes × Bytes)) (options : StreamAddOptions) :
    Outcome (List Bytes) := do
  if fields.isEmpty then
    throw (.invalidArgument "XADD: fields must not be empty")
  if options.id.isEmpty then
    throw (.invalidArgument "XADD: id must not be empty")
  let args : List Bytes := if options.nomkstream then ["XADD", key, "NOMKSTREAM"] else ["XADD", key]
  let args ← match options.trim with
    | some trim => appendStreamTrim args trim "XADD"
    | none => pure args
  pure (args ++ [options.id] ++ fields.flatMap fun field => [field.1, field.2])

def xreadArguments (streams : List (StreamReadRequest Bytes)) (options : StreamReadOptions) :
    Outcome (List Bytes) := do
  let args ← appendStreamCount ["XREAD"] options.count "XREAD"
  let args ← appendStreamBlock args options.blockMs "XREAD"
  appendStreams args streams "XREAD"

def xreadgroupArguments (group consumer : Bytes) (streams : List (StreamReadRequest Bytes))
    (options : StreamReadGroupOptions) : Outcome (List Bytes) := do
  let args ← appendStreamCount ["XREADGROUP", "GROUP", group, consumer] options.count "XREADGROUP"
  let args ← appendStreamBlock args options.blockMs "XREADGROUP"
  let args := if options.noack then args ++ (["NOACK"] : List Bytes) else args
  appendStreams args streams "XREADGROUP"

/-- The fields and values of a map, each field before its value. -/
def hsetArguments [Platform] (key : Bytes) (values : UnorderedMap Bytes Bytes) : List Bytes :=
  (["HSET", key] : List Bytes) ++ (visit values).flatMap fun value => [value.1, value.2]

/-- The scores and members of a map, each member after its score. -/
def zaddArguments [Platform] (key : Bytes) (members : UnorderedMap Bytes Double) : Outcome (List Bytes) := do
  let pairs ← (visit members).mapM fun member => do
    let score ← doubleToString member.2
    pure [score, member.1]
  pure ((["ZADD", key] : List Bytes) ++ pairs.flatten)

/-! ### Replies to scripts -/

def scriptLoadReply (reply : CmdReply) : Outcome Bytes :=
  if reply.isError then throw (.redisError (reply.strValue.getD "Unknown Redis error"))
  else if reply.type ≠ .string ∨ reply.strValue.isNone then
    throw (.unexpectedReplyType "SCRIPT LOAD" "string" "non-string")
  else deref reply.strValue

/-- `reply.is_error() && reply.get_string().value_or("").find("NOSCRIPT") != npos`. -/
def mentionsNoScript (reply : CmdReply) : Bool :=
  reply.isError && Bytes.contains (reply.strValue.getD []) "NOSCRIPT"

def noScriptReply (sha1 : Bytes) (reply : CmdReply) : Outcome CmdReply :=
  if mentionsNoScript reply then throw (.noScript "EVALSHA" sha1) else pure reply

section Operations
variable {σ : Type} (E : Executor σ)

/-- `cmd_execv`, whose reply the class `cmd_reply` stores. -/
def cmdExecv (args : List Bytes) : Program Exn σ CmdReply := E args >>= fun reply => pure reply.toCmdReply

/-! ### Scripts and raw commands -/

def scriptLoad (script : Bytes) : Program Exn σ Bytes :=
  (cmdExecv E ["SCRIPT", "LOAD", script]).decode scriptLoadReply

def evalSha1 (sha1 : Bytes) (keys args : List Bytes) : Program Exn σ CmdReply := do
  let argv ← Program.ofExcept (scriptArguments "EVALSHA" sha1 keys args)
  (cmdExecv E argv).decode (noScriptReply sha1)

def eval (script : Bytes) (keys args : List Bytes) : Program Exn σ CmdReply := do
  let argv ← Program.ofExcept (scriptArguments "EVAL" script keys args)
  cmdExecv E argv

def command (cmd : Bytes) (args : List Bytes) : Program Exn σ CmdReply := cmdExecv E (appendArguments [cmd] args)

/-! ### Keys -/

def «exists» (key : Bytes) : Program Exn σ CmdReply := cmdExecv E ["EXISTS", key]
def keys (pattern : Bytes) : Program Exn σ CmdReply := cmdExecv E ["KEYS", pattern]
def scan (cursor : UInt64) (pattern : Bytes) (count : UInt32) : Program Exn σ CmdReply :=
  cmdExecv E ["SCAN", Bytes.decimal cursor.toNat, "MATCH", pattern, "COUNT", Bytes.decimal count.toNat]
def type (key : Bytes) : Program Exn σ CmdReply := cmdExecv E ["TYPE", key]
def del (key : Bytes) : Program Exn σ CmdReply := cmdExecv E ["DEL", key]
def delMany (keys : List Bytes) : Program Exn σ CmdReply := cmdExecv E (appendArguments ["DEL"] keys)
def expire (key : Bytes) (seconds : Int) : Program Exn σ CmdReply :=
  cmdExecv E ["EXPIRE", key, Bytes.decimalInt seconds]
def pexpire (key : Bytes) (milliseconds : Int) : Program Exn σ CmdReply :=
  cmdExecv E ["PEXPIRE", key, Bytes.decimalInt milliseconds]
def ttl (key : Bytes) : Program Exn σ CmdReply := cmdExecv E ["TTL", key]
def pttl (key : Bytes) : Program Exn σ CmdReply := cmdExecv E ["PTTL", key]
def persist (key : Bytes) : Program Exn σ CmdReply := cmdExecv E ["PERSIST", key]
def ping : Program Exn σ CmdReply := cmdExecv E ["PING"]
def pingMessage (message : Bytes) : Program Exn σ CmdReply := cmdExecv E ["PING", message]

/-! ### Strings -/

def set (key value : Bytes) : Program Exn σ CmdReply := cmdExecv E ["SET", key, value]
def setNotExists (key value : Bytes) : Program Exn σ CmdReply := cmdExecv E ["SET", key, value, "NX"]
def setEx (key value : Bytes) (seconds : Int) : Program Exn σ CmdReply :=
  cmdExecv E ["SET", key, value, "EX", Bytes.decimalInt seconds]
def setPx (key value : Bytes) (milliseconds : Int) : Program Exn σ CmdReply :=
  cmdExecv E ["SET", key, value, "PX", Bytes.decimalInt milliseconds]
def get (key : Bytes) : Program Exn σ CmdReply := cmdExecv E ["GET", key]
def getset (key newValue : Bytes) : Program Exn σ CmdReply := cmdExecv E ["GETSET", key, newValue]
def append (key value : Bytes) : Program Exn σ CmdReply := cmdExecv E ["APPEND", key, value]
def incr (key : Bytes) (delta : Int) : Program Exn σ CmdReply := cmdExecv E ["INCRBY", key, Bytes.decimalInt delta]
def decr (key : Bytes) (delta : Int) : Program Exn σ CmdReply := cmdExecv E ["DECRBY", key, Bytes.decimalInt delta]

/-! ### Hashes -/

def hget (key field : Bytes) : Program Exn σ CmdReply := cmdExecv E ["HGET", key, field]
def hgetMany (key : Bytes) (fields : List Bytes) : Program Exn σ CmdReply :=
  cmdExecv E (appendArguments ["HMGET", key] fields)
def hset (key field value : Bytes) : Program Exn σ CmdReply := cmdExecv E ["HSET", key, field, value]
def hsetMany [Platform] (key : Bytes) (values : UnorderedMap Bytes Bytes) : Program Exn σ CmdReply :=
  if values.entries.isEmpty then pure .makeNil
  else cmdExecv E (hsetArguments key values)
def hgetall (key : Bytes) : Program Exn σ CmdReply := cmdExecv E ["HGETALL", key]
def hkeys (key : Bytes) : Program Exn σ CmdReply := cmdExecv E ["HKEYS", key]
def hvals (key : Bytes) : Program Exn σ CmdReply := cmdExecv E ["HVALS", key]
def hscan (key : Bytes) (cursor : UInt64) (pattern : Bytes) (count : UInt32) : Program Exn σ CmdReply :=
  cmdExecv E ["HSCAN", key, Bytes.decimal cursor.toNat, "MATCH", pattern, "COUNT", Bytes.decimal count.toNat]
def hdel (key field : Bytes) : Program Exn σ CmdReply := cmdExecv E ["HDEL", key, field]
def hdelMany (key : Bytes) (fields : List Bytes) : Program Exn σ CmdReply :=
  if fields.isEmpty then pure .makeNil else cmdExecv E (appendArguments ["HDEL", key] fields)

/-! ### Lists -/

def lpush (key value : Bytes) : Program Exn σ CmdReply := cmdExecv E ["LPUSH", key, value]
def lpushMany (key : Bytes) (values : List Bytes) : Program Exn σ CmdReply :=
  if values.isEmpty then pure .makeNil else cmdExecv E (appendArguments ["LPUSH", key] values)
def rpush (key value : Bytes) : Program Exn σ CmdReply := cmdExecv E ["RPUSH", key, value]
def rpushMany (key : Bytes) (values : List Bytes) : Program Exn σ CmdReply :=
  if values.isEmpty then pure .makeNil else cmdExecv E (appendArguments ["RPUSH", key] values)
def lpop (key : Bytes) : Program Exn σ CmdReply := cmdExecv E ["LPOP", key]
def lpopCount (key : Bytes) (count : Int) : Program Exn σ CmdReply :=
  cmdExecv E ["LPOP", key, Bytes.decimalInt count]
def rpop (key : Bytes) : Program Exn σ CmdReply := cmdExecv E ["RPOP", key]
def rpopCount (key : Bytes) (count : Int) : Program Exn σ CmdReply :=
  cmdExecv E ["RPOP", key, Bytes.decimalInt count]
def lrange (key : Bytes) (start stop : Int) : Program Exn σ CmdReply :=
  cmdExecv E ["LRANGE", key, Bytes.decimalInt start, Bytes.decimalInt stop]
def llen (key : Bytes) : Program Exn σ CmdReply := cmdExecv E ["LLEN", key]
def lindex (key : Bytes) (index : Int) : Program Exn σ CmdReply := cmdExecv E ["LINDEX", key, Bytes.decimalInt index]

/-! ### Sets -/

def sadd (key : Bytes) (members : List Bytes) : Program Exn σ CmdReply :=
  cmdExecv E (appendArguments ["SADD", key] members)
def srem (key : Bytes) (members : List Bytes) : Program Exn σ CmdReply :=
  cmdExecv E (appendArguments ["SREM", key] members)
def smembers (key : Bytes) : Program Exn σ CmdReply := cmdExecv E ["SMEMBERS", key]
def scard (key : Bytes) : Program Exn σ CmdReply := cmdExecv E ["SCARD", key]
def sismember (key member : Bytes) : Program Exn σ CmdReply := cmdExecv E ["SISMEMBER", key, member]
def spop (key : Bytes) : Program Exn σ CmdReply := cmdExecv E ["SPOP", key]
def sinter (keys : List Bytes) : Program Exn σ CmdReply := cmdExecv E (appendArguments ["SINTER"] keys)

/-! ### Sorted sets -/

def zadd [Platform] (key : Bytes) (members : UnorderedMap Bytes Double) : Program Exn σ CmdReply := do
  let args ← Program.ofExcept (zaddArguments key members)
  cmdExecv E args
def zrem (key : Bytes) (members : List Bytes) : Program Exn σ CmdReply :=
  cmdExecv E (appendArguments ["ZREM", key] members)
def zscore (key member : Bytes) : Program Exn σ CmdReply := cmdExecv E ["ZSCORE", key, member]
def zrange (key : Bytes) (start stop : Int) : Program Exn σ CmdReply :=
  cmdExecv E ["ZRANGE", key, Bytes.decimalInt start, Bytes.decimalInt stop]
def zrevrange (key : Bytes) (start stop : Int) : Program Exn σ CmdReply :=
  cmdExecv E ["ZREVRANGE", key, Bytes.decimalInt start, Bytes.decimalInt stop]
def zrangeWithscores (key : Bytes) (start stop : Int) : Program Exn σ CmdReply :=
  cmdExecv E ["ZRANGE", key, Bytes.decimalInt start, Bytes.decimalInt stop, "WITHSCORES"]
def zrevrangeWithscores (key : Bytes) (start stop : Int) : Program Exn σ CmdReply :=
  cmdExecv E ["ZREVRANGE", key, Bytes.decimalInt start, Bytes.decimalInt stop, "WITHSCORES"]
def zincrby [Platform] (key : Bytes) (increment : Double) (member : Bytes) : Program Exn σ CmdReply := do
  let score ← Program.ofExcept (doubleToString increment)
  cmdExecv E ["ZINCRBY", key, score, member]

/-! ### Streams -/

def xadd (key : Bytes) (fields : List (Bytes × Bytes)) (options : StreamAddOptions) : Program Exn σ CmdReply := do
  let args ← Program.ofExcept (xaddArguments key fields options)
  cmdExecv E args
def xlen (key : Bytes) : Program Exn σ CmdReply := cmdExecv E ["XLEN", key]
def xrange (key start stop : Bytes) (count : Option Int) : Program Exn σ CmdReply := do
  let args ← Program.ofExcept (appendStreamCount ["XRANGE", key, start, stop] count "XRANGE")
  cmdExecv E args
def xrevrange (key stop start : Bytes) (count : Option Int) : Program Exn σ CmdReply := do
  let args ← Program.ofExcept (appendStreamCount ["XREVRANGE", key, stop, start] count "XREVRANGE")
  cmdExecv E args
def xread (streams : List (StreamReadRequest Bytes)) (options : StreamReadOptions) : Program Exn σ CmdReply := do
  let args ← Program.ofExcept (xreadArguments streams options)
  cmdExecv E args
def xdel (key : Bytes) (ids : List Bytes) : Program Exn σ CmdReply :=
  if ids.isEmpty then pure (.makeSignedInteger 0) else cmdExecv E (appendArguments ["XDEL", key] ids)
def xtrim (key : Bytes) (options : StreamTrimOptions) : Program Exn σ CmdReply := do
  let args ← Program.ofExcept (appendStreamTrim ["XTRIM", key] options "XTRIM")
  cmdExecv E args
def xgroupCreate (key group id : Bytes) (mkstream : Bool) : Program Exn σ CmdReply :=
  cmdExecv E (if mkstream then ["XGROUP", "CREATE", key, group, id, "MKSTREAM"]
    else ["XGROUP", "CREATE", key, group, id])
def xgroupSetid (key group id : Bytes) : Program Exn σ CmdReply := cmdExecv E ["XGROUP", "SETID", key, group, id]
def xgroupDestroy (key group : Bytes) : Program Exn σ CmdReply := cmdExecv E ["XGROUP", "DESTROY", key, group]
def xgroupCreateconsumer (key group consumer : Bytes) : Program Exn σ CmdReply :=
  cmdExecv E ["XGROUP", "CREATECONSUMER", key, group, consumer]
def xgroupDelconsumer (key group consumer : Bytes) : Program Exn σ CmdReply :=
  cmdExecv E ["XGROUP", "DELCONSUMER", key, group, consumer]
def xreadgroup (group consumer : Bytes) (streams : List (StreamReadRequest Bytes))
    (options : StreamReadGroupOptions) : Program Exn σ CmdReply := do
  let args ← Program.ofExcept (xreadgroupArguments group consumer streams options)
  cmdExecv E args
def xack (key group : Bytes) (ids : List Bytes) : Program Exn σ CmdReply :=
  if ids.isEmpty then pure (.makeSignedInteger 0) else cmdExecv E (appendArguments ["XACK", key, group] ids)

end Operations

end CmdOps

end Redisdal
