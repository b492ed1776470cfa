import Redisdal.HashOperations
import Redisdal.ListOperations
import Redisdal.SetOperations
import Redisdal.StreamOperations
import Redisdal.ZsetOperations

/-! # The calls of the typed facade

The methods of `redis_template` and of its views as data, but for the two that use the script cache. As for
`Operation`, an out-parameter is an argument, and its final content is part of the result. -/

namespace Redisdal

/-- A method of the typed facade with its arguments. -/
inductive TypedCall (K V : Type) where
  | «exists» (key : K)
  | keys (pattern : Bytes) (keys : UnorderedSet K)
  | scan (cursor : UInt64) (pattern : Bytes) (count : UInt32)
  | type (key : K)
  | expire (key : K) (seconds : Int)
  | pexpire (key : K) (milliseconds : Int)
  | ttl (key : K)
  | pttl (key : K)
  | persist (key : K)
  | ping
  | pingMessage (message : Bytes)
  | del (key : K)
  | delMany (keys : List K)
  | eval (script : Bytes) (keys : List K) (args : List V)
  | execCmd (cmd : Bytes) (args : List Bytes)
  | set (key : K) (value : V)
  | get (key : K)
  | incr (key : K) (delta : Int)
  | decr (key : K) (delta : Int)
  | append (key : K) (value : V)
  | getAndSet (key : K) (value : V)
  | hget (key hashKey : K)
  | hgetMany (key : K) (hashMap : UnorderedMap K (Option V))
  | hgetall (key : K)
  | hkeys (key : K)
  | hvals (key : K)
  | hscan (key : K) (cursor : UInt64) (pattern : K) (count : UInt32) (hashMap : UnorderedMap K V)
  | hset (key field : K) (value : V)
  | hsetMany (key : K) (hashMap : UnorderedMap K V)
  | hdel (key hashKey : K)
  | hdelMany (key : K) (hashKeys : List K)
  | lpushMany (key : K) (values : List V)
  | lpush (key : K) (value : V)
  | rpush (key : K) (value : V)
  | rpushMany (key : K) (values : List V)
  | lpop (key : K)
  | rpop (key : K)
  | lpopCount (key : K) (count : Int)
  | rpopCount (key : K) (count : Int)
  | lrange (key : K) (start stop : Int)
  | llen (key : K)
  | lindex (key : K) (index : Int)
  | sadd (key : K) (members : List V)
  | srem (key : K) (members : List V)
  | spop (key : K)
  | smembers (key : K)
  | scard (key : K)
  | sismember (key : K) (member : V)
  | sinter (keys : List K)
  | zadd (key : K) (members : UnorderedMap V Double)
  | zrem (key : K) (members : List V)
  | zincrby (key : K) (increment : Double) (member : V)
  | zscore (key : K) (member : V)
  | zrange (key : K) (start stop : Int)
  | zrevrange (key : K) (start stop : Int)
  | zrangeWithscores (key : K) (start stop : Int)
  | zrevrangeWithscores (key : K) (start stop : Int)
  | xadd (key : K) (fields : List (K × V)) (options : StreamAddOptions)
  | xlen (key : K)
  | xrange (key : K) (start stop : Bytes) (count : Option Int)
  | xrevrange (key : K) (stop start : Bytes) (count : Option Int)
  | xread (streams : List (StreamReadRequest K)) (options : StreamReadOptions)
  | xdel (key : K) (ids : List Bytes)
  | xtrim (key : K) (options : StreamTrimOptions)
  | xgroupCreate (key : K) (group id : Bytes) (mkstream : Bool)
  | xgroupSetid (key : K) (group id : Bytes)
  | xgroupDestroy (key : K) (group : Bytes)
  | xgroupCreateconsumer (key : K) (group consumer : Bytes)
  | xgroupDelconsumer (key : K) (group consumer : Bytes)
  | xreadgroup (group consumer : Bytes) (streams : List (StreamReadRequest K)) (options : StreamReadGroupOptions)
  | xack (key : K) (group : Bytes) (ids : List Bytes)

/-- What a method returns. -/
inductive TypedValue (K V : Type) where
  | flag (value : Bool)
  | integer (value : Int)
  | text (value : Bytes)
  | id (id : Option Bytes)
  | value (value : Option V)
  | values (values : List V)
  | keyList (keys : List K)
  | keys (keys : UnorderedSet K)
  | scan (cursor : UInt64) (keys : UnorderedSet K)
  | hash (hashMap : UnorderedMap K V)
  | optionalHash (hashMap : UnorderedMap K (Option V))
  | hscan (cursor : UInt64) (hashMap : UnorderedMap K V)
  | score (value : Double)
  | optionalScore (value : Option Double)
  | scores (values : List (V × Double))
  | entries (values : List (StreamEntry K V))
  | batches (values : List (StreamBatch K V))
  | reply (reply : CmdReply)

namespace TypedCall
variable [Platform] {K V σ : Type} [DecidableEq K] (tpl : Template K V) (E : Executor σ)

def run : TypedCall K V → Program Exn σ (TypedValue K V)
  | .exists key => .flag <$> tpl.exists E key
  | .keys pattern out => (fun p => .keys p.2) <$> Program.withLocal out (tpl.keys E pattern)
  | .scan cursor pattern count => (fun p => .scan p.1 p.2) <$> tpl.scan E cursor pattern count
  | .type key => .text <$> tpl.type E key
  | .expire key seconds => .flag <$> tpl.expire E key seconds
  | .pexpire key milliseconds => .flag <$> tpl.pexpire E key milliseconds
  | .ttl key => .integer <$> tpl.ttl E key
  | .pttl key => .integer <$> tpl.pttl E key
  | .persist key => .flag <$> tpl.persist E key
  | .ping => .text <$> Template.ping E
  | .pingMessage message => .text <$> Template.pingMessage E message
  | .del key => .integer <$> tpl.del E key
  | .delMany ks => .integer <$> tpl.delMany E ks
  | .eval script ks args => .reply <$> tpl.eval E script ks args
  | .execCmd cmd args => .reply <$> Template.execCmd E cmd args
  | .set key value => .flag <$> ValueOperations.set tpl E key value
  | .get key => .value <$> ValueOperations.get tpl E key
  | .incr key delta => .integer <$> ValueOperations.incr tpl E key delta
  | .decr key delta => .integer <$> ValueOperations.decr tpl E key delta
  | .append key value => .integer <$> ValueOperations.append tpl E key value
  | .getAndSet key value => .value <$> ValueOperations.getAndSet tpl E key value
  | .hget key hashKey => .value <$> HashOperations.hget tpl E key hashKey
  | .hgetMany key out => (fun p => .optionalHash p.2) <$> Program.withLocal out (HashOperations.hgetMany tpl E key)
  | .hgetall key => .hash <$> HashOperations.hgetall tpl E key
  | .hkeys key => .keyList <$> HashOperations.hkeys tpl E key
  | .hvals key => .values <$> HashOperations.hvals tpl E key
  | .hscan key cursor pattern count out =>
    (fun p => .hscan p.1 p.2) <$> Program.withLocal out (HashOperations.hscan tpl E key cursor pattern count)
  | .hset key field value => .flag <$> HashOperations.hset tpl E key field value
  | .hsetMany key hashMap => .flag <$> HashOperations.hsetMany tpl E key hashMap
  | .hdel key hashKey => .integer <$> HashOperations.hdel tpl E key hashKey
  | .hdelMany key hashKeys => .integer <$> HashOperations.hdelMany tpl E key hashKeys
  | .lpushMany key values => .integer <$> ListOperations.lpushMany tpl E key values
  | .lpush key value => .integer <$> ListOperations.lpush tpl E key value
  | .rpush key value => .integer <$> ListOperations.rpush tpl E key value
  | .rpushMany key values => .integer <$> ListOperations.rpushMany tpl E key values
  | .lpop key => .value <$> ListOperations.lpop tpl E key
  | .rpop key => .value <$> ListOperations.rpop tpl E key
  | .lpopCount key count => .values <$> ListOperations.lpopCount tpl E key count
  | .rpopCount key count => .values <$> ListOperations.rpopCount tpl E key count
  | .lrange key start stop => .values <$> ListOperations.lrange tpl E key start stop
  | .llen key => .integer <$> ListOperations.llen tpl E key
  | .lindex key index => .value <$> ListOperations.lindex tpl E key index
  | .sadd key members => .integer <$> SetOperations.sadd tpl E key members
  | .srem key members => .integer <$> SetOperations.srem tpl E key members
  | .spop key => .value <$> SetOperations.spop tpl E key
  | .smembers key => .values <$> SetOperations.smembers tpl E key
  | .scard key => .integer <$> SetOperations.scard tpl E key
  | .sismember key member => .flag <$> SetOperations.sismember tpl E key member
  | .sinter ks => .values <$> SetOperations.sinter tpl E ks
  | .zadd key members => .integer <$> ZsetOperations.zadd tpl E key members
  | .zrem key members => .integer <$> ZsetOperations.zrem tpl E key members
  | .zincrby key increment member => .score <$> ZsetOperations.zincrby tpl E key increment member
  | .zscore key member => .optionalScore <$> ZsetOperations.zscore tpl E key member
  | .zrange key start stop => .values <$> ZsetOperations.zrange tpl E key start stop
  | .zrevrange key start stop => .values <$> ZsetOperations.zrevrange tpl E key start stop
  | .zrangeWithscores key start stop => .scores <$> ZsetOperations.zrangeWithscores tpl E key start stop
  | .zrevrangeWithscores key start stop => .scores <$> ZsetOperations.zrevrangeWithscores tpl E key start stop
  | .xadd key fields options => .id <$> StreamOperations.xadd tpl E key fields options
  | .xlen key => .integer <$> StreamOperations.xlen tpl E key
  | .xrange key start stop count => .entries <$> StreamOperations.xrange tpl E key start stop count
  | .xrevrange key stop start count => .entries <$> StreamOperations.xrevrange tpl E key stop start count
  | .xread streams options => .batches <$> StreamOperations.xread tpl E streams options
  | .xdel key ids => .integer <$> StreamOperations.xdel tpl E key ids
  | .xtrim key options => .integer <$> StreamOperations.xtrim tpl E key options
  | .xgroupCreate key group id mkstream => .flag <$> StreamOperations.xgroupCreate tpl E key group id mkstream
  | .xgroupSetid key group id => .flag <$> StreamOperations.xgroupSetid tpl E key group id
  | .xgroupDestroy key group => .flag <$> StreamOperations.xgroupDestroy tpl E key group
  | .xgroupCreateconsumer key group consumer =>
    .flag <$> StreamOperations.xgroupCreateconsumer tpl E key group consumer
  | .xgroupDelconsumer key group consumer =>
    .integer <$> StreamOperations.xgroupDelconsumer tpl E key group consumer
  | .xreadgroup group consumer streams options =>
    .batches <$> StreamOperations.xreadgroup tpl E group consumer streams options
  | .xack key group ids => .integer <$> StreamOperations.xack tpl E key group ids

end TypedCall

end Redisdal
