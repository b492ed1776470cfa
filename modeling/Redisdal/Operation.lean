import Redisdal.Client

/-! # The operations of the client

The public operations of `redis_client` as data, so that one statement ranges over all of them, and the
result each returns. An out-parameter is an argument, and its final content is part of the result. -/

namespace Redisdal

/-- An operation of `redis_client` with its arguments. -/
inductive Operation where
  | «exists» (key : Bytes)
  | keys (pattern : Bytes) (keys : UnorderedSet Bytes)
  | scan (cursor : UInt64) (pattern : Bytes) (count : UInt32)
  | type (key : Bytes)
  | expire (key : Bytes) (seconds : Int)
  | pexpire (key : Bytes) (milliseconds : Int)
  | ttl (key : Bytes)
  | pttl (key : Bytes)
  | persist (key : Bytes)
  | ping
  | pingMessage (message : Bytes)
  | del (key : Bytes)
  | delMany (keys : List Bytes)
  | set (key value : Bytes)
  | setNotExists (key value : Bytes)
  | setEx (key value : Bytes) (seconds : Int)
  | setPx (key value : Bytes) (milliseconds : Int)
  | get (key : Bytes)
  | getset (key newValue : Bytes)
  | incr (key : Bytes) (delta : Int)
  | decr (key : Bytes) (delta : Int)
  | append (key value : Bytes)
  | hget (key hashKey : Bytes)
  | hgetMany (key : Bytes) (hashMap : UnorderedMap Bytes (Option Bytes))
  | hset (key field value : Bytes)
  | hsetMany (key : Bytes) (hashMap : UnorderedMap Bytes Bytes)
  | hgetall (key : Bytes)
  | hkeys (key : Bytes)
  | hvals (key : Bytes)
  | hscan (key : Bytes) (cursor : UInt64) (pattern : Bytes) (count : UInt32) (hashMap : UnorderedMap Bytes Bytes)
  | hdel (key hashKey : Bytes)
  | hdelMany (key : Bytes) (hashKeys : List Bytes)
  | lpushMany (key : Bytes) (values : List Bytes)
  | lpush (key value : Bytes)
  | rpush (key value : Bytes)
  | rpushMany (key : Bytes) (values : List Bytes)
  | lpop (key : Bytes)
  | rpop (key : Bytes)
  | lpopCount (key : Bytes) (count : Int)
  | rpopCount (key : Bytes) (count : Int)
  | lrange (key : Bytes) (start stop : Int)
  | llen (key : Bytes)
  | lindex (key : Bytes) (index : Int)
  | sadd (key : Bytes) (members : List Bytes)
  | srem (key : Bytes) (members : List Bytes)
  | smembers (key : Bytes)
  | scard (key : Bytes)
  | sismember (key member : Bytes)
  | spop (key : Bytes)
  | sinter (keys : List Bytes)
  | zadd (key : Bytes) (members : UnorderedMap Bytes Double)
  | zrem (key : Bytes) (members : List Bytes)
  | zscore (key member : Bytes)
  | zrange (key : Bytes) (start stop : Int)
  | zrevrange (key : Bytes) (start stop : Int)
  | zrangeWithscores (key : Bytes) (start stop : Int)
  | zrevrangeWithscores (key : Bytes) (start stop : Int)
  | zincrby (key : Bytes) (increment : Double) (member : Bytes)
  | xadd (key : Bytes) (fields : List (Bytes × Bytes)) (options : StreamAddOptions)
  | xlen (key : Bytes)
  | xrange (key start stop : Bytes) (count : Option Int)
  | xrevrange (key stop start : Bytes) (count : Option Int)
  | xread (streams : List (StreamReadRequest Bytes)) (options : StreamReadOptions)
  | xdel (key : Bytes) (ids : List Bytes)
  | xtrim (key : Bytes) (options : StreamTrimOptions)
  | xgroupCreate (key group id : Bytes) (mkstream : Bool)
  | xgroupSetid (key group id : Bytes)
  | xgroupDestroy (key group : Bytes)
  | xgroupCreateconsumer (key group consumer : Bytes)
  | xgroupDelconsumer (key group consumer : Bytes)
  | xreadgroup (group consumer : Bytes) (streams : List (StreamReadRequest Bytes)) (options : StreamReadGroupOptions)
  | xack (key group : Bytes) (ids : List Bytes)
  | scriptLoad (script : Bytes)
  | evalSha1 (sha1 : Bytes) (keys args : List Bytes)
  | eval (script : Bytes) (keys args : List Bytes)
  | command (cmd : Bytes) (args : List Bytes)

/-- The result of an operation. -/
inductive Value where
  | flag (value : Bool)
  | integer (value : Int)
  | text (value : Bytes)
  | optionalText (value : Option Bytes)
  | texts (values : List Bytes)
  | keys (keys : UnorderedSet Bytes)
  | scan (cursor : UInt64) (keys : UnorderedSet Bytes)
  | hash (hashMap : UnorderedMap Bytes Bytes)
  | optionalHash (hashMap : UnorderedMap Bytes (Option Bytes))
  | hscan (cursor : UInt64) (hashMap : UnorderedMap Bytes Bytes)
  | score (value : Double)
  | optionalScore (value : Option Double)
  | scores (values : List (Bytes × Double))
  | entries (values : List (StreamEntry Bytes Bytes))
  | batches (values : List (StreamBatch Bytes Bytes))
  | reply (reply : CmdReply)

namespace Operation
variable [Platform] {σ : Type}

def run (E : Executor σ) : Operation → Program Exn σ Value
  | .exists key => .flag <$> Client.exists E key
  | .keys pattern out => (fun p => .keys p.2) <$> Program.withLocal out (Client.keys E pattern)
  | .scan cursor pattern count => (fun p => .scan p.1 p.2) <$> Client.scan E cursor pattern count
  | .type key => .text <$> Client.type E key
  | .expire key seconds => .flag <$> Client.expire E key seconds
  | .pexpire key milliseconds => .flag <$> Client.pexpire E key milliseconds
  | .ttl key => .integer <$> Client.ttl E key
  | .pttl key => .integer <$> Client.pttl E key
  | .persist key => .flag <$> Client.persist E key
  | .ping => .text <$> Client.ping E
  | .pingMessage message => .text <$> Client.pingMessage E message
  | .del key => .integer <$> Client.del E key
  | .delMany ks => .integer <$> Client.delMany E ks
  | .set key value => .flag <$> Client.set E key value
  | .setNotExists key value => .flag <$> Client.setNotExists E key value
  | .setEx key value seconds => .flag <$> Client.setEx E key value seconds
  | .setPx key value milliseconds => .flag <$> Client.setPx E key value milliseconds
  | .get key => .optionalText <$> Client.get E key
  | .getset key newValue => .optionalText <$> Client.getset E key newValue
  | .incr key delta => .integer <$> Client.incr E key delta
  | .decr key delta => .integer <$> Client.decr E key delta
  | .append key value => .integer <$> Client.append E key value
  | .hget key hashKey => .optionalText <$> Client.hget E key hashKey
  | .hgetMany key hashMap => (fun p => .optionalHash p.2) <$> Program.withLocal hashMap (Client.hgetMany E key)
  | .hset key field value => .flag <$> Client.hset E key field value
  | .hsetMany key hashMap => .flag <$> Client.hsetMany E key hashMap
  | .hgetall key => .hash <$> Client.hgetall E key
  | .hkeys key => .texts <$> Client.hkeys E key
  | .hvals key => .texts <$> Client.hvals E key
  | .hscan key cursor pattern count hashMap =>
    (fun p => .hscan p.1 p.2) <$> Program.withLocal hashMap (Client.hscan E key cursor pattern count)
  | .hdel key hashKey => .integer <$> Client.hdel E key hashKey
  | .hdelMany key hashKeys => .integer <$> Client.hdelMany E key hashKeys
  | .lpushMany key values => .integer <$> Client.lpushMany E key values
  | .lpush key value => .integer <$> Client.lpush E key value
  | .rpush key value => .integer <$> Client.rpush E key value
  | .rpushMany key values => .integer <$> Client.rpushMany E key values
  | .lpop key => .optionalText <$> Client.lpop E key
  | .rpop key => .optionalText <$> Client.rpop E key
  | .lpopCount key count => .texts <$> Client.lpopCount E key count
  | .rpopCount key count => .texts <$> Client.rpopCount E key count
  | .lrange key start stop => .texts <$> Client.lrange E key start stop
  | .llen key => .integer <$> Client.llen E key
  | .lindex key index => .optionalText <$> Client.lindex E key index
  | .sadd key members => .integer <$> Client.sadd E key members
  | .srem key members => .integer <$> Client.srem E key members
  | .smembers key => .texts <$> Client.smembers E key
  | .scard key => .integer <$> Client.scard E key
  | .sismember key member => .flag <$> Client.sismember E key member
  | .spop key => .optionalText <$> Client.spop E key
  | .sinter ks => .texts <$> Client.sinter E ks
  | .zadd key members => .integer <$> Client.zadd E key members
  | .zrem key members => .integer <$> Client.zrem E key members
  | .zscore key member => .optionalScore <$> Client.zscore E key member
  | .zrange key start stop => .texts <$> Client.zrange E key start stop
  | .zrevrange key start stop => .texts <$> Client.zrevrange E key start stop
  | .zrangeWithscores key start stop => .scores <$> Client.zrangeWithscores E key start stop
  | .zrevrangeWithscores key start stop => .scores <$> Client.zrevrangeWithscores E key start stop
  | .zincrby key increment member => .score <$> Client.zincrby E key increment member
  | .xadd key fields options => .optionalText <$> Client.xadd E key fields options
  | .xlen key => .integer <$> Client.xlen E key
  | .xrange key start stop count => .entries <$> Client.xrange E key start stop count
  | .xrevrange key stop start count => .entries <$> Client.xrevrange E key stop start count
  | .xread streams options => .batches <$> Client.xread E streams options
  | .xdel key ids => .integer <$> Client.xdel E key ids
  | .xtrim key options => .integer <$> Client.xtrim E key options
  | .xgroupCreate key group id mkstream => .flag <$> Client.xgroupCreate E key group id mkstream
  | .xgroupSetid key group id => .flag <$> Client.xgroupSetid E key group id
  | .xgroupDestroy key group => .flag <$> Client.xgroupDestroy E key group
  | .xgroupCreateconsumer key group consumer => .flag <$> Client.xgroupCreateconsumer E key group consumer
  | .xgroupDelconsumer key group consumer => .integer <$> Client.xgroupDelconsumer E key group consumer
  | .xreadgroup group consumer streams options => .batches <$> Client.xreadgroup E group consumer streams options
  | .xack key group ids => .integer <$> Client.xack E key group ids
  | .scriptLoad script => .text <$> Client.scriptLoad E script
  | .evalSha1 sha1 ks args => .reply <$> Client.evalSha1 E sha1 ks args
  | .eval script ks args => .reply <$> Client.eval E script ks args
  | .command cmd args => .reply <$> Client.command E cmd args

end Operation

end Redisdal
