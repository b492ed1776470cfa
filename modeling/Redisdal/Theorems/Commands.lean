import Redisdal.Theorems.StreamAdds

/-! # Requests

What each operation asks of the server, and how the commands are written that ask for it. No two requests are written
in one way, which a reader of the commands shows. -/

namespace Redisdal

/-! ### Commands and requests -/

inductive CommandName where
  | «exists» | keys | scan | type | expire | pexpire | ttl | pttl | persist | ping | del | set | get | getset | incrby
  | decrby | append | hget | hmget | hset | hgetall | hkeys | hvals | hscan | hdel | lpush | rpush | lpop | rpop
  | lrange | llen | lindex | sadd | srem | smembers | scard | sismember | spop | sinter | zadd | zrem | zscore | zrange
  | zrevrange | zincrby | xadd | xlen | xrange | xrevrange | xread | xreadgroup | xdel | xtrim | xgroup | xack | script
  | evalsha | eval
deriving DecidableEq

namespace CommandName

def word : CommandName → Bytes
  | .exists => "EXISTS" | keys => "KEYS" | scan => "SCAN" | type => "TYPE" | expire => "EXPIRE"
  | pexpire => "PEXPIRE" | ttl => "TTL" | pttl => "PTTL" | persist => "PERSIST" | ping => "PING" | del => "DEL"
  | set => "SET" | get => "GET" | getset => "GETSET" | incrby => "INCRBY" | decrby => "DECRBY" | append => "APPEND"
  | hget => "HGET" | hmget => "HMGET" | hset => "HSET" | hgetall => "HGETALL" | hkeys => "HKEYS" | hvals => "HVALS"
  | hscan => "HSCAN" | hdel => "HDEL" | lpush => "LPUSH" | rpush => "RPUSH" | lpop => "LPOP" | rpop => "RPOP"
  | lrange => "LRANGE" | llen => "LLEN" | lindex => "LINDEX" | sadd => "SADD" | srem => "SREM"
  | smembers => "SMEMBERS" | scard => "SCARD" | sismember => "SISMEMBER" | spop => "SPOP" | sinter => "SINTER"
  | zadd => "ZADD" | zrem => "ZREM" | zscore => "ZSCORE" | zrange => "ZRANGE" | zrevrange => "ZREVRANGE"
  | zincrby => "ZINCRBY" | xadd => "XADD" | xlen => "XLEN" | xrange => "XRANGE" | xrevrange => "XREVRANGE"
  | xread => "XREAD" | xreadgroup => "XREADGROUP" | xdel => "XDEL" | xtrim => "XTRIM" | xgroup => "XGROUP"
  | xack => "XACK" | script => "SCRIPT" | evalsha => "EVALSHA" | eval => "EVAL"

def all : List CommandName :=
  [.exists, keys, scan, type, expire, pexpire, ttl, pttl, persist, ping, del, set, get, getset, incrby, decrby, append,
    hget, hmget, hset, hgetall, hkeys, hvals, hscan, hdel, lpush, rpush, lpop, rpop, lrange, llen, lindex, sadd, srem,
    smembers, scard, sismember, spop, sinter, zadd, zrem, zscore, zrange, zrevrange, zincrby, xadd, xlen, xrange,
    xrevrange, xread, xreadgroup, xdel, xtrim, xgroup, xack, script, evalsha, eval]

def ofWord (text : Bytes) : Option CommandName := all.find? fun c => c.word = text

theorem ofWord_word (c : CommandName) : ofWord c.word = some c := by
  cases c <;> decide

end CommandName

/-- When SET stores its value, and how long it keeps it. -/
inductive SetOption where
  | always | notExists
  | seconds (seconds : Int)
  | milliseconds (milliseconds : Int)

/-- What a command asks for. -/
inductive Request where
  | «exists» (key : Bytes)
  | keys (pattern : Bytes)
  | scan (cursor : Int) (pattern : Bytes) (count : Int)
  | type (key : Bytes)
  | expire (key : Bytes) (seconds : Int)
  | pexpire (key : Bytes) (milliseconds : Int)
  | ttl (key : Bytes)
  | pttl (key : Bytes)
  | persist (key : Bytes)
  | ping (message : Option Bytes)
  | del (keys : List Bytes)
  | set (key value : Bytes) (option : SetOption)
  | get (key : Bytes)
  | getset (key value : Bytes)
  | incrby (key : Bytes) (delta : Int)
  | decrby (key : Bytes) (delta : Int)
  | append (key value : Bytes)
  | hget (key field : Bytes)
  | hmget (key : Bytes) (fields : List Bytes)
  | hset (key : Bytes) (pairs : List (Bytes × Bytes))
  | hgetall (key : Bytes)
  | hkeys (key : Bytes)
  | hvals (key : Bytes)
  | hscan (key : Bytes) (cursor : Int) (pattern : Bytes) (count : Int)
  | hdel (key : Bytes) (fields : List Bytes)
  | lpush (key : Bytes) (values : List Bytes)
  | rpush (key : Bytes) (values : List Bytes)
  | lpop (key : Bytes) (count : Option Int)
  | rpop (key : Bytes) (count : Option Int)
  | lrange (key : Bytes) (start stop : Int)
  | llen (key : Bytes)
  | lindex (key : Bytes) (index : Int)
  | sadd (key : Bytes) (members : List Bytes)
  | srem (key : Bytes) (members : List Bytes)
  | smembers (key : Bytes)
  | scard (key : Bytes)
  | sismember (key member : Bytes)
  | spop (key : Bytes)
  | sinter (keys : List Bytes)
  | zadd (key : Bytes) (members : List (Bytes × Bytes))
  | zrem (key : Bytes) (members : List Bytes)
  | zscore (key member : Bytes)
  | zrange (key : Bytes) (start stop : Int) (withScores : Bool)
  | zrevrange (key : Bytes) (start stop : Int) (withScores : Bool)
  | zincrby (key increment member : Bytes)
  | xadd (key : Bytes) (fields : List (Bytes × Bytes)) (options : StreamAddOptions)
  | xlen (key : Bytes)
  | xrange (key start stop : Bytes) (count : Option Int)
  | xrevrange (key stop start : Bytes) (count : Option Int)
  | streamRead (read : StreamRead)
  | xdel (key : Bytes) (ids : List Bytes)
  | xtrim (key : Bytes) (options : StreamTrimOptions)
  | xgroupCreate (key group id : Bytes) (mkstream : Bool)
  | xgroupSetid (key group id : Bytes)
  | xgroupDestroy (key group : Bytes)
  | xgroupCreateconsumer (key group consumer : Bytes)
  | xgroupDelconsumer (key group consumer : Bytes)
  | xack (key group : Bytes) (ids : List Bytes)
  | scriptLoad (script : Bytes)
  | evalSha1 (sha1 : Bytes) (keys args : List Bytes)
  | eval (script : Bytes) (keys args : List Bytes)

/-! ### How requests are written -/

def SetOption.words : SetOption → List Bytes
  | always => []
  | notExists => ["NX"]
  | seconds n => ["EX", Bytes.decimalInt n]
  | milliseconds n => ["PX", Bytes.decimalInt n]

def pairWords (pairs : List (Bytes × Bytes)) : List Bytes := pairs.flatMap fun p => [p.1, p.2]

def countWords (count : Option Int) : List Bytes := (count.map Bytes.decimalInt).toList

def scoresFlag (withScores : Bool) : List Bytes := if withScores then ["WITHSCORES"] else []

def mkstreamFlag (mkstream : Bool) : List Bytes := if mkstream then ["MKSTREAM"] else []

def groupClause : Option (Bytes × Bytes) → List Bytes
  | none => ["XREAD"]
  | some (group, consumer) => ["XREADGROUP", "GROUP", group, consumer]

namespace Request

/-- The command with its arguments. -/
def argv : Request → List Bytes
  | .exists key => ["EXISTS", key]
  | keys pattern => ["KEYS", pattern]
  | scan cursor pattern count => ["SCAN", Bytes.decimalInt cursor, "MATCH", pattern, "COUNT", Bytes.decimalInt count]
  | type key => ["TYPE", key]
  | expire key seconds => ["EXPIRE", key, Bytes.decimalInt seconds]
  | pexpire key milliseconds => ["PEXPIRE", key, Bytes.decimalInt milliseconds]
  | ttl key => ["TTL", key]
  | pttl key => ["PTTL", key]
  | persist key => ["PERSIST", key]
  | ping message => "PING" :: message.toList
  | del ks => "DEL" :: ks
  | set key value option => "SET" :: key :: value :: option.words
  | get key => ["GET", key]
  | getset key value => ["GETSET", key, value]
  | incrby key delta => ["INCRBY", key, Bytes.decimalInt delta]
  | decrby key delta => ["DECRBY", key, Bytes.decimalInt delta]
  | append key value => ["APPEND", key, value]
  | hget key field => ["HGET", key, field]
  | hmget key fields => "HMGET" :: key :: fields
  | hset key pairs => "HSET" :: key :: pairWords pairs
  | hgetall key => ["HGETALL", key]
  | hkeys key => ["HKEYS", key]
  | hvals key => ["HVALS", key]
  | hscan key cursor pattern count =>
    ["HSCAN", key, Bytes.decimalInt cursor, "MATCH", pattern, "COUNT", Bytes.decimalInt count]
  | hdel key fields => "HDEL" :: key :: fields
  | lpush key values => "LPUSH" :: key :: values
  | rpush key values => "RPUSH" :: key :: values
  | lpop key count => "LPOP" :: key :: countWords count
  | rpop key count => "RPOP" :: key :: countWords count
  | lrange key start stop => ["LRANGE", key, Bytes.decimalInt start, Bytes.decimalInt stop]
  | llen key => ["LLEN", key]
  | lindex key index => ["LINDEX", key, Bytes.decimalInt index]
  | sadd key members => "SADD" :: key :: members
  | srem key members => "SREM" :: key :: members
  | smembers key => ["SMEMBERS", key]
  | scard key => ["SCARD", key]
  | sismember key member => ["SISMEMBER", key, member]
  | spop key => ["SPOP", key]
  | sinter ks => "SINTER" :: ks
  | zadd key members => "ZADD" :: key :: pairWords members
  | zrem key members => "ZREM" :: key :: members
  | zscore key member => ["ZSCORE", key, member]
  | zrange key start stop withScores =>
    "ZRANGE" :: key :: Bytes.decimalInt start :: Bytes.decimalInt stop :: scoresFlag withScores
  | zrevrange key start stop withScores =>
    "ZREVRANGE" :: key :: Bytes.decimalInt start :: Bytes.decimalInt stop :: scoresFlag withScores
  | zincrby key increment member => ["ZINCRBY", key, increment, member]
  | xadd key fields options => "XADD" :: key :: addClauses fields options
  | xlen key => ["XLEN", key]
  | xrange key start stop count => "XRANGE" :: key :: start :: stop :: numberClause "COUNT" count
  | xrevrange key stop start count => "XREVRANGE" :: key :: stop :: start :: numberClause "COUNT" count
  | streamRead read =>
    groupClause read.group ++ (numberClause "COUNT" read.options.count ++
      (numberClause "BLOCK" read.options.blockMs ++ (noackClause read.options.noack ++ streamsClause read.streams)))
  | xdel key ids => "XDEL" :: key :: ids
  | xtrim key options => "XTRIM" :: key :: trimClause options
  | xgroupCreate key group id mkstream => "XGROUP" :: "CREATE" :: key :: group :: id :: mkstreamFlag mkstream
  | xgroupSetid key group id => ["XGROUP", "SETID", key, group, id]
  | xgroupDestroy key group => ["XGROUP", "DESTROY", key, group]
  | xgroupCreateconsumer key group consumer => ["XGROUP", "CREATECONSUMER", key, group, consumer]
  | xgroupDelconsumer key group consumer => ["XGROUP", "DELCONSUMER", key, group, consumer]
  | xack key group ids => "XACK" :: key :: group :: ids
  | scriptLoad script => ["SCRIPT", "LOAD", script]
  | evalSha1 sha1 ks args => "EVALSHA" :: sha1 :: Bytes.decimal ks.length :: (ks ++ args)
  | eval script ks args => "EVAL" :: script :: Bytes.decimal ks.length :: (ks ++ args)

/-- Nothing is missing that a command must have, and no number is out of its range. -/
def WellFormed : Request → Prop
  | del l | sinter l | hmget _ l | hdel _ l | lpush _ l | rpush _ l | sadd _ l | srem _ l | zrem _ l | xdel _ l
  | xack _ _ l => l ≠ []
  | hset _ pairs | zadd _ pairs => pairs ≠ []
  | xadd _ fields options => AcceptedAdd fields options
  | xtrim _ options => AcceptedTrim options
  | xrange _ _ _ count | xrevrange _ _ _ count => ∀ n, count = some n → 0 < n
  | streamRead read =>
    AcceptedRead read.streams read.options.count read.options.blockMs ∧
      (read.options.noack = true → read.group.isSome = true)
  | _ => True

/-- The request adds an entry whose id reads as an option. -/
def HasOptionId : Request → Prop
  | xadd _ _ options => IdReadsAsOption options
  | _ => False

end Request

/-! ### Requests that a server takes at their word -/

/-- Options of XADD, XTRIM and ZADD. -/
def optionWords : List Bytes :=
  ["NOMKSTREAM", "KEEPREF", "DELREF", "ACKED", "MAXLEN", "MINID", "LIMIT", "~", "=", "NX", "XX", "GT", "LT", "CH",
    "INCR"]

def upper (text : Bytes) : Bytes := text.map fun b => if 97 ≤ b ∧ b ≤ 122 then b - 32 else b

/-- A server takes the text for an option where one may stand, whatever its case. -/
def IsOptionWord (text : Bytes) : Prop := upper text ∈ optionWords

instance (text : Bytes) : Decidable (IsOptionWord text) := inferInstanceAs (Decidable (_ ∈ _))

/-- An id for a new entry that is no option and that the server has not to complete. -/
def PlainId (id : Bytes) : Prop := id = "*" ∨ (¬IsOptionWord id ∧ Bytes.ofChar '*' ∉ id)

instance (id : Bytes) : Decidable (PlainId id) := inferInstanceAs (Decidable (_ ∨ _ ∧ _))

/-- An exact trim. -/
def PlainTrim (trim : StreamTrimOptions) : Prop := trim.approximate = false ∧ ¬IsOptionWord trim.threshold

theorem PlainId.not_readsAsOption {options : StreamAddOptions} (h : PlainId options.id) : ¬IdReadsAsOption options := by
  have hword : options.id ∉ (["MAXLEN", "MINID", "NOMKSTREAM", "LIMIT"] : List Bytes) := by
    rcases h with h | ⟨h, -⟩
    · rw [h]
      decide
    · intro hmem
      have hwords : ∀ word ∈ (["MAXLEN", "MINID", "NOMKSTREAM", "LIMIT"] : List Bytes), IsOptionWord word := by decide
      exact h (hwords _ hmem)
  simp only [List.mem_cons, List.not_mem_nil, or_false, not_or] at hword
  unfold IdReadsAsOption
  tauto

/-- The groups of commands, those apart that work on patterns of keys and on scripts. -/
inductive CommandGroup where
  | keys | texts | hashes | lists | sets | zsets | streams | others
deriving DecidableEq

namespace Request

def group : Request → CommandGroup
  | .exists .. | type .. | expire .. | pexpire .. | ttl .. | pttl .. | persist .. | ping .. | del .. => .keys
  | set .. | get .. | getset .. | incrby .. | decrby .. | append .. => .texts
  | hget .. | hmget .. | hset .. | hgetall .. | hkeys .. | hvals .. | hdel .. => .hashes
  | lpush .. | rpush .. | lpop .. | rpop .. | lrange .. | llen .. | lindex .. => .lists
  | sadd .. | srem .. | smembers .. | scard .. | sismember .. | spop .. | sinter .. => .sets
  | zadd .. | zrem .. | zscore .. | zrange .. | zrevrange .. | zincrby .. => .zsets
  | xadd .. | xlen .. | xrange .. | xrevrange .. | streamRead .. | xdel .. | xtrim .. | xgroupCreate .. | xgroupSetid ..
  | xgroupDestroy .. | xgroupCreateconsumer .. | xgroupDelconsumer .. | xack .. => .streams
  | .keys .. | scan .. | hscan .. | scriptLoad .. | evalSha1 .. | eval .. => .others

/-- No text stands where it may be taken for an option, streams are trimmed exactly, and reads do not wait. -/
def Plain : Request → Prop
  | zadd _ members => ∀ member ∈ members, ¬IsOptionWord member.1
  | xadd _ _ options => PlainId options.id ∧ ∀ trim, options.trim = some trim → PlainTrim trim
  | xtrim _ options => PlainTrim options
  | streamRead read =>
    read.options.blockMs = none ∧ (read.group = none → ∀ stream ∈ read.streams, stream.id ≠ "+")
  | _ => True

theorem Plain.not_hasOptionId {r : Request} (h : r.Plain) : ¬r.HasOptionId := by
  cases r with
  | xadd key fields options => exact h.1.not_readsAsOption
  | _ => exact id

theorem argv_ne_nil (r : Request) : r.argv ≠ [] := by
  cases r with
  | streamRead read =>
    obtain ⟨_ | group, options, streams⟩ := read <;> exact List.cons_ne_nil _ _
  | _ => exact List.cons_ne_nil _ _

end Request

/-! ### A reader -/

/-- An integer, written as a server writes it: no plus sign and no leading zeros. -/
def readInteger (text : Bytes) : Option Int :=
  let value : Int := if text.head? = some (Bytes.ofChar '-') then -(Bytes.natValue text.tail) else Bytes.natValue text
  if Bytes.decimalInt value = text then some value else none

namespace Read

def key (make : Bytes → Request) : List Bytes → Option Request
  | [k] => some (make k)
  | _ => none

def two (make : Bytes → Bytes → Request) : List Bytes → Option Request
  | [k, x] => some (make k x)
  | _ => none

/-- One or more texts. -/
def texts (make : List Bytes → Request) (args : List Bytes) : Option Request :=
  if args = [] then none else some (make args)

/-- A key and one or more texts. -/
def keyTexts (make : Bytes → List Bytes → Request) : List Bytes → Option Request
  | k :: args => texts (make k) args
  | [] => none

def keyInteger (make : Bytes → Int → Request) : List Bytes → Option Request
  | [k, n] => (readInteger n).map (make k)
  | _ => none

/-- A key, and a count that may be missing. -/
def keyCount (make : Bytes → Option Int → Request) : List Bytes → Option Request
  | [k] => some (make k none)
  | [k, n] => (readInteger n).map fun n => make k (some n)
  | _ => none

/-- A key and two positions, and what may follow them. -/
def range (make : Bytes → Int → Int → List Bytes → Option Request) : List Bytes → Option Request
  | k :: start :: stop :: rest =>
    (readInteger start).bind fun start => (readInteger stop).bind fun stop => make k start stop rest
  | _ => none

def noMore (request : Request) (rest : List Bytes) : Option Request := if rest = [] then some request else none

def withScores (make : Bool → Request) (rest : List Bytes) : Option Request :=
  if rest = ["WITHSCORES"] then some (make true) else if rest = [] then some (make false) else none

/-- A cursor, a pattern and a count. -/
def scan (make : Int → Bytes → Int → Request) : List Bytes → Option Request
  | [cursor, m, pattern, c, count] =>
    if m = "MATCH" ∧ c = "COUNT" then
      (readInteger cursor).bind fun cursor => (readInteger count).map fun count => make cursor pattern count
    else none
  | _ => none

/-- A key and texts two by two. -/
def keyPairs (make : Bytes → List (Bytes × Bytes) → Request) : List Bytes → Option Request
  | k :: args => if args = [] ∨ args.length % 2 ≠ 0 then none else some (make k (Reply.twoByTwo args))
  | [] => none

def set : List Bytes → Option Request
  | [k, value] => some (.set k value .always)
  | [k, value, word] => if word = "NX" then some (.set k value .notExists) else none
  | [k, value, word, n] =>
    if word = "EX" then (readInteger n).map fun n => .set k value (.seconds n)
    else if word = "PX" then (readInteger n).map fun n => .set k value (.milliseconds n)
    else none
  | _ => none

def ping : List Bytes → Option Request
  | [] => some (.ping none)
  | [message] => some (.ping (some message))
  | _ => none

/-- A key and two ids, and a count that may be missing. -/
def entries (make : Bytes → Bytes → Bytes → Option Int → Request) : List Bytes → Option Request
  | [k, x, y] => some (make k x y none)
  | [k, x, y, word, n] => if word = "COUNT" then (readInteger n).map fun n => make k x y (some n) else none
  | _ => none

def xadd : List Bytes → Option Request
  | k :: args => (readAdd args).map fun p => .xadd k p.1 p.2
  | [] => none

/-- A trim clause that ends the command: the limit comes after the flag and the threshold. -/
def trim (args : List Bytes) : Option StreamTrimOptions :=
  match args with
  | word :: rest => (readStrategy word).bind fun strategy =>
    match rest with
    | [threshold] => some ⟨strategy, threshold, false, none⟩
    | [flag, threshold] => if flag = "~" then some ⟨strategy, threshold, true, none⟩ else none
    | [flag, threshold, limit, n] =>
      if flag = "~" ∧ limit = "LIMIT" then (readInteger n).map fun n => ⟨strategy, threshold, true, some n⟩ else none
    | _ => none
  | [] => none

def xtrim : List Bytes → Option Request
  | k :: args => (trim args).map (.xtrim k)
  | [] => none

def xgroup : List Bytes → Option Request
  | [sub, k, group] => if sub = "DESTROY" then some (.xgroupDestroy k group) else none
  | [sub, k, group, x] =>
    if sub = "CREATE" then some (.xgroupCreate k group x false)
    else if sub = "SETID" then some (.xgroupSetid k group x)
    else if sub = "CREATECONSUMER" then some (.xgroupCreateconsumer k group x)
    else if sub = "DELCONSUMER" then some (.xgroupDelconsumer k group x)
    else none
  | [sub, k, group, id, flag] =>
    if sub = "CREATE" ∧ flag = "MKSTREAM" then some (.xgroupCreate k group id true) else none
  | _ => none

def xack : List Bytes → Option Request
  | k :: group :: ids => texts (.xack k group) ids
  | _ => none

def script : List Bytes → Option Request
  | [sub, text] => if sub = "LOAD" then some (.scriptLoad text) else none
  | _ => none

/-- A script, the number of its keys, its keys and its arguments. -/
def scriptCall (make : Bytes → List Bytes → List Bytes → Request) : List Bytes → Option Request
  | text :: n :: rest => (readInteger n).bind fun n =>
    if 0 ≤ n ∧ n.toNat ≤ rest.length then some (make text (rest.take n.toNat) (rest.drop n.toNat)) else none
  | _ => none

end Read

/-- What follows the word of a command. -/
def readArguments : CommandName → List Bytes → Option Request
  | .exists => Read.key .exists
  | .keys => Read.key .keys
  | .scan => Read.scan .scan
  | .type => Read.key .type
  | .expire => Read.keyInteger .expire
  | .pexpire => Read.keyInteger .pexpire
  | .ttl => Read.key .ttl
  | .pttl => Read.key .pttl
  | .persist => Read.key .persist
  | .ping => Read.ping
  | .del => Read.texts .del
  | .set => Read.set
  | .get => Read.key .get
  | .getset => Read.two .getset
  | .incrby => Read.keyInteger .incrby
  | .decrby => Read.keyInteger .decrby
  | .append => Read.two .append
  | .hget => Read.two .hget
  | .hmget => Read.keyTexts .hmget
  | .hset => Read.keyPairs .hset
  | .hgetall => Read.key .hgetall
  | .hkeys => Read.key .hkeys
  | .hvals => Read.key .hvals
  | .hscan => fun args => match args with
    | k :: rest => Read.scan (.hscan k) rest
    | [] => none
  | .hdel => Read.keyTexts .hdel
  | .lpush => Read.keyTexts .lpush
  | .rpush => Read.keyTexts .rpush
  | .lpop => Read.keyCount .lpop
  | .rpop => Read.keyCount .rpop
  | .lrange => Read.range fun k start stop => Read.noMore (.lrange k start stop)
  | .llen => Read.key .llen
  | .lindex => Read.keyInteger .lindex
  | .sadd => Read.keyTexts .sadd
  | .srem => Read.keyTexts .srem
  | .smembers => Read.key .smembers
  | .scard => Read.key .scard
  | .sismember => Read.two .sismember
  | .spop => Read.key .spop
  | .sinter => Read.texts .sinter
  | .zadd => Read.keyPairs .zadd
  | .zrem => Read.keyTexts .zrem
  | .zscore => Read.two .zscore
  | .zrange => Read.range fun k start stop => Read.withScores (.zrange k start stop)
  | .zrevrange => Read.range fun k start stop => Read.withScores (.zrevrange k start stop)
  | .zincrby => fun args => match args with
    | [k, increment, member] => some (.zincrby k increment member)
    | _ => none
  | .xadd => Read.xadd
  | .xlen => Read.key .xlen
  | .xrange => Read.entries .xrange
  | .xrevrange => Read.entries .xrevrange
  | .xread => fun args => (readStreamRead ("XREAD" :: args)).map .streamRead
  | .xreadgroup => fun args => (readStreamRead ("XREADGROUP" :: args)).map .streamRead
  | .xdel => Read.keyTexts .xdel
  | .xtrim => Read.xtrim
  | .xgroup => Read.xgroup
  | .xack => Read.xack
  | .script => Read.script
  | .evalsha => Read.scriptCall .evalSha1
  | .eval => Read.scriptCall .eval

def readRequest (argv : List Bytes) : Option Request :=
  match argv with
  | command :: args => (CommandName.ofWord command).bind fun c => readArguments c args
  | [] => none

theorem readRequest_word (c : CommandName) (args : List Bytes) :
    readRequest (c.word :: args) = readArguments c args := by
  unfold readRequest
  dsimp only
  rw [CommandName.ofWord_word, Option.bind_some]

/-! ### Reading what is written -/

theorem readInteger_decimalInt (n : Int) : readInteger (Bytes.decimalInt n) = some n := by
  have hvalue : (if (Bytes.decimalInt n).head? = some (Bytes.ofChar '-') then
      -(Bytes.natValue (Bytes.decimalInt n).tail : Int) else Bytes.natValue (Bytes.decimalInt n)) = n := by
    have hdigits := Bytes.digitString_decimal n.natAbs
    unfold Bytes.decimalInt
    by_cases hn : n < 0
    · rw [if_pos hn, List.head?_cons, if_pos rfl, List.tail_cons, Bytes.natValue_decimal]
      omega
    · rw [if_neg hn, if_neg (hdigits.head_ne (by decide)), Bytes.natValue_decimal]
      omega
  unfold readInteger
  dsimp only
  rw [hvalue, if_pos rfl]

theorem decimalInt_natCast (n : Nat) : Bytes.decimalInt n = Bytes.decimal n := by
  unfold Bytes.decimalInt
  rw [if_neg (by omega), Int.natAbs_natCast]

theorem readInteger_decimal (n : Nat) : readInteger (Bytes.decimal n) = some (n : Int) := by
  rw [← decimalInt_natCast, readInteger_decimalInt]

section Shapes
variable (c : CommandName)

theorem reads_key {make : Bytes → Request} (hc : readArguments c = Read.key make) (k : Bytes) :
    readRequest [c.word, k] = some (make k) := by
  rw [readRequest_word, hc]
  rfl

theorem reads_two {make : Bytes → Bytes → Request} (hc : readArguments c = Read.two make) (k x : Bytes) :
    readRequest [c.word, k, x] = some (make k x) := by
  rw [readRequest_word, hc]
  rfl

theorem reads_texts {make : List Bytes → Request} (hc : readArguments c = Read.texts make) {args : List Bytes}
    (hargs : args ≠ []) : readRequest (c.word :: args) = some (make args) := by
  rw [readRequest_word, hc]
  exact if_neg hargs

theorem reads_keyTexts {make : Bytes → List Bytes → Request} (hc : readArguments c = Read.keyTexts make) (k : Bytes)
    {args : List Bytes} (hargs : args ≠ []) : readRequest (c.word :: k :: args) = some (make k args) := by
  rw [readRequest_word, hc]
  exact if_neg hargs

theorem reads_keyInteger {make : Bytes → Int → Request} (hc : readArguments c = Read.keyInteger make) (k : Bytes)
    (n : Int) : readRequest [c.word, k, Bytes.decimalInt n] = some (make k n) := by
  rw [readRequest_word, hc, Read.keyInteger, readInteger_decimalInt, Option.map_some]

theorem reads_keyCount {make : Bytes → Option Int → Request} (hc : readArguments c = Read.keyCount make) (k : Bytes)
    (count : Option Int) : readRequest (c.word :: k :: countWords count) = some (make k count) := by
  rw [readRequest_word, hc]
  cases count with
  | none => rfl
  | some n =>
    show (readInteger (Bytes.decimalInt n)).map _ = _
    rw [readInteger_decimalInt, Option.map_some]

theorem reads_range {make : Bytes → Int → Int → List Bytes → Option Request} (hc : readArguments c = Read.range make)
    (k : Bytes) (start stop : Int) (rest : List Bytes) :
    readRequest (c.word :: k :: Bytes.decimalInt start :: Bytes.decimalInt stop :: rest) = make k start stop rest := by
  rw [readRequest_word, hc, Read.range, readInteger_decimalInt, readInteger_decimalInt, Option.bind_some,
    Option.bind_some]

theorem reads_keyPairs {make : Bytes → List (Bytes × Bytes) → Request} (hc : readArguments c = Read.keyPairs make)
    (k : Bytes) {pairs : List (Bytes × Bytes)} (hpairs : pairs ≠ []) :
    readRequest (c.word :: k :: pairWords pairs) = some (make k pairs) := by
  rw [readRequest_word, hc, Read.keyPairs, pairWords, if_neg (Reply.flatMap_pair_wellFormed Prod.fst Prod.snd hpairs),
    Reply.twoByTwo_flatMap]

theorem reads_entries {make : Bytes → Bytes → Bytes → Option Int → Request}
    (hc : readArguments c = Read.entries make) (k x y : Bytes) (count : Option Int) :
    readRequest ([c.word, k, x, y] ++ numberClause "COUNT" count) = some (make k x y count) := by
  rw [List.cons_append, readRequest_word, hc]
  cases count with
  | none => rfl
  | some n =>
    show Read.entries make [k, x, y, "COUNT", Bytes.decimalInt n] = _
    unfold Read.entries
    dsimp only
    rw [if_pos rfl, readInteger_decimalInt, Option.map_some]

theorem reads_script {make : Bytes → List Bytes → List Bytes → Request}
    (hc : readArguments c = Read.scriptCall make) (text : Bytes) (ks args : List Bytes) :
    readRequest (c.word :: text :: Bytes.decimal ks.length :: (ks ++ args)) = some (make text ks args) := by
  rw [readRequest_word, hc, Read.scriptCall, readInteger_decimal, Option.bind_some, Int.toNat_natCast, List.take_left,
    List.drop_left]
  exact if_pos ⟨by omega, by simp⟩

theorem reads_scan {make : Int → Bytes → Int → Request} (cursor : Int) (pattern : Bytes) (count : Int) :
    Read.scan make [Bytes.decimalInt cursor, "MATCH", pattern, "COUNT", Bytes.decimalInt count] =
      some (make cursor pattern count) := by
  unfold Read.scan
  dsimp only
  rw [if_pos ⟨rfl, rfl⟩, readInteger_decimalInt, readInteger_decimalInt]
  rfl

theorem reads_set (key value : Bytes) (option : SetOption) :
    readRequest (Request.set key value option).argv = some (.set key value option) := by
  refine (readRequest_word .set _).trans ?_
  cases option with
  | always | notExists => rfl
  | seconds n =>
    show Read.set [key, value, "EX", Bytes.decimalInt n] = _
    unfold Read.set
    dsimp only
    rw [if_pos rfl, readInteger_decimalInt, Option.map_some]
  | milliseconds n =>
    show Read.set [key, value, "PX", Bytes.decimalInt n] = _
    unfold Read.set
    dsimp only
    rw [if_neg (by decide), if_pos rfl, readInteger_decimalInt, Option.map_some]

end Shapes

theorem trim_trimClause {trim : StreamTrimOptions} (h : AcceptedTrim trim) :
    Read.trim (trimClause trim) = some trim := by
  obtain ⟨strategy, threshold, approximate, limit⟩ := trim
  unfold Read.trim trimClause
  dsimp only
  rw [readStrategy_strategyWord, Option.bind_some]
  cases limit with
  | none => cases approximate <;> rfl
  | some n =>
    cases h.approximate rfl
    refine (if_pos ⟨rfl, rfl⟩).trans ?_
    rw [readInteger_decimalInt, Option.map_some]

/-- A read of streams reads back. -/
theorem readStreamRead_argv {read : StreamRead} (h : (Request.streamRead read).WellFormed) :
    readStreamRead (Request.streamRead read).argv = some read := by
  obtain ⟨_ | ⟨group, consumer⟩, options, streams⟩ := read
  · exact (readStreamRead_xread _).trans (readBody_clauses h.1 h.2)
  · exact (readStreamRead_xreadgroup group consumer _).trans (readBody_clauses h.1 h.2)

theorem readRequest_of_streamRead {argv : List Bytes} {read : StreamRead} (h : readStreamRead argv = some read) :
    readRequest argv = some (.streamRead read) := by
  unfold readStreamRead at h
  split at h
  · cases h
  next command args =>
  split at h
  · next hcommand =>
    subst hcommand
    refine (readRequest_word .xread args).trans ?_
    show (readStreamRead ("XREAD" :: args)).map _ = _
    rw [readStreamRead_xread, h, Option.map_some]
  · split at h
    · next hcommand =>
      subst hcommand
      refine (readRequest_word .xreadgroup args).trans ?_
      show (readStreamRead ("XREADGROUP" :: args)).map _ = _
      unfold readStreamRead
      dsimp only
      rw [if_neg (by decide), if_pos rfl, h, Option.map_some]
    · cases h

/-- A request that is written is read, unless an id in it reads as an option. -/
theorem readRequest_argv (r : Request) (h : r.WellFormed) (hid : ¬r.HasOptionId) : readRequest r.argv = some r := by
  cases r with
  | «exists» key => exact reads_key .exists rfl key
  | keys pattern => exact reads_key .keys rfl pattern
  | scan cursor pattern count => exact (readRequest_word .scan _).trans (reads_scan _ _ _)
  | type key => exact reads_key .type rfl key
  | expire key seconds => exact reads_keyInteger .expire rfl key seconds
  | pexpire key milliseconds => exact reads_keyInteger .pexpire rfl key milliseconds
  | ttl key => exact reads_key .ttl rfl key
  | pttl key => exact reads_key .pttl rfl key
  | persist key => exact reads_key .persist rfl key
  | ping message => cases message <;> exact readRequest_word .ping _
  | del ks => exact reads_texts .del rfl h
  | set key value option => exact reads_set key value option
  | get key => exact reads_key .get rfl key
  | getset key value => exact reads_two .getset rfl key value
  | incrby key delta => exact reads_keyInteger .incrby rfl key delta
  | decrby key delta => exact reads_keyInteger .decrby rfl key delta
  | append key value => exact reads_two .append rfl key value
  | hget key field => exact reads_two .hget rfl key field
  | hmget key fields => exact reads_keyTexts .hmget rfl key h
  | hset key pairs => exact reads_keyPairs .hset rfl key h
  | hgetall key => exact reads_key .hgetall rfl key
  | hkeys key => exact reads_key .hkeys rfl key
  | hvals key => exact reads_key .hvals rfl key
  | hscan key cursor pattern count => exact (readRequest_word .hscan _).trans (reads_scan _ _ _)
  | hdel key fields => exact reads_keyTexts .hdel rfl key h
  | lpush key values => exact reads_keyTexts .lpush rfl key h
  | rpush key values => exact reads_keyTexts .rpush rfl key h
  | lpop key count => exact reads_keyCount .lpop rfl key count
  | rpop key count => exact reads_keyCount .rpop rfl key count
  | lrange key start stop => exact reads_range .lrange rfl key start stop []
  | llen key => exact reads_key .llen rfl key
  | lindex key index => exact reads_keyInteger .lindex rfl key index
  | sadd key members => exact reads_keyTexts .sadd rfl key h
  | srem key members => exact reads_keyTexts .srem rfl key h
  | smembers key => exact reads_key .smembers rfl key
  | scard key => exact reads_key .scard rfl key
  | sismember key member => exact reads_two .sismember rfl key member
  | spop key => exact reads_key .spop rfl key
  | sinter ks => exact reads_texts .sinter rfl h
  | zadd key members => exact reads_keyPairs .zadd rfl key h
  | zrem key members => exact reads_keyTexts .zrem rfl key h
  | zscore key member => exact reads_two .zscore rfl key member
  | zrange key start stop withScores => cases withScores <;> exact reads_range .zrange rfl key start stop _
  | zrevrange key start stop withScores => cases withScores <;> exact reads_range .zrevrange rfl key start stop _
  | zincrby key increment member => exact readRequest_word .zincrby [key, increment, member]
  | xadd key fields options =>
    refine (readRequest_word .xadd _).trans ?_
    show (readAdd (addClauses fields options)).map _ = _
    rw [readAdd_addClauses h hid, Option.map_some]
  | xlen key => exact reads_key .xlen rfl key
  | xrange key start stop count => exact reads_entries .xrange rfl key start stop count
  | xrevrange key stop start count => exact reads_entries .xrevrange rfl key stop start count
  | streamRead read => exact readRequest_of_streamRead (readStreamRead_argv h)
  | xdel key ids => exact reads_keyTexts .xdel rfl key h
  | xtrim key options =>
    refine (readRequest_word .xtrim _).trans ?_
    show (Read.trim (trimClause options)).map _ = _
    rw [trim_trimClause h, Option.map_some]
  | xgroupCreate key group id mkstream => cases mkstream <;> exact readRequest_word .xgroup _
  | xgroupSetid key group id => exact readRequest_word .xgroup ["SETID", key, group, id]
  | xgroupDestroy key group => exact readRequest_word .xgroup ["DESTROY", key, group]
  | xgroupCreateconsumer key group consumer => exact readRequest_word .xgroup ["CREATECONSUMER", key, group, consumer]
  | xgroupDelconsumer key group consumer => exact readRequest_word .xgroup ["DELCONSUMER", key, group, consumer]
  | xack key group ids => exact (readRequest_word .xack (key :: group :: ids)).trans (if_neg h)
  | scriptLoad script => exact readRequest_word .script ["LOAD", script]
  | evalSha1 sha1 ks args => exact reads_script .evalsha rfl sha1 ks args
  | eval script ks args => exact reads_script .eval rfl script ks args

theorem scriptArguments_eq_ok {command script : Bytes} {ks args argv : List Bytes}
    (h : CmdOps.scriptArguments command script ks args = .ok argv) :
    argv = command :: script :: Bytes.decimal ks.length :: (ks ++ args) := by
  unfold CmdOps.scriptArguments at h
  split at h
  · cases h
  · cases h
    rfl

/-! ### What each operation asks for -/

namespace Operation
variable [Platform]

/-- What an operation asks for when it sends a command; a raw command may ask for anything. -/
def request : Operation → Option Request
  | .exists key => some (.exists key)
  | .keys pattern _ => some (.keys pattern)
  | .scan cursor pattern count => some (.scan cursor.toNat pattern count.toNat)
  | .type key => some (.type key)
  | .expire key seconds => some (.expire key seconds)
  | .pexpire key milliseconds => some (.pexpire key milliseconds)
  | .ttl key => some (.ttl key)
  | .pttl key => some (.pttl key)
  | .persist key => some (.persist key)
  | .ping => some (.ping none)
  | .pingMessage message => some (.ping (some message))
  | .del key => some (.del [key])
  | .delMany ks => some (.del ks)
  | .set key value => some (.set key value .always)
  | .setNotExists key value => some (.set key value .notExists)
  | .setEx key value seconds => some (.set key value (.seconds seconds))
  | .setPx key value milliseconds => some (.set key value (.milliseconds milliseconds))
  | .get key => some (.get key)
  | .getset key newValue => some (.getset key newValue)
  | .incr key delta => some (.incrby key delta)
  | .decr key delta => some (.decrby key delta)
  | .append key value => some (.append key value)
  | .hget key hashKey => some (.hget key hashKey)
  | .hgetMany key hashMap => some (.hmget key (hmgetFields hashMap))
  | .hset key field value => some (.hset key [(field, value)])
  | .hsetMany key hashMap => some (.hset key (visit hashMap))
  | .hgetall key => some (.hgetall key)
  | .hkeys key => some (.hkeys key)
  | .hvals key => some (.hvals key)
  | .hscan key cursor pattern count _ => some (.hscan key cursor.toNat pattern count.toNat)
  | .hdel key hashKey => some (.hdel key [hashKey])
  | .hdelMany key hashKeys => some (.hdel key hashKeys)
  | .lpushMany key values => some (if values.isEmpty then .llen key else .lpush key values)
  | .lpush key value => some (.lpush key [value])
  | .rpush key value => some (.rpush key [value])
  | .rpushMany key values => some (if values.isEmpty then .llen key else .rpush key values)
  | .lpop key => some (.lpop key none)
  | .rpop key => some (.rpop key none)
  | .lpopCount key count => some (.lpop key (some count))
  | .rpopCount key count => some (.rpop key (some count))
  | .lrange key start stop => some (.lrange key start stop)
  | .llen key => some (.llen key)
  | .lindex key index => some (.lindex key index)
  | .sadd key members => some (.sadd key members)
  | .srem key members => some (.srem key members)
  | .smembers key => some (.smembers key)
  | .scard key => some (.scard key)
  | .sismember key member => some (.sismember key member)
  | .spop key => some (.spop key)
  | .sinter ks => some (.sinter ks)
  | .zadd key members =>
    some (.zadd key ((visit members).map fun member => (Platform.toCharsDouble member.2, member.1)))
  | .zrem key members => some (.zrem key members)
  | .zscore key member => some (.zscore key member)
  | .zrange key start stop => some (.zrange key start stop false)
  | .zrevrange key start stop => some (.zrevrange key start stop false)
  | .zrangeWithscores key start stop => some (.zrange key start stop true)
  | .zrevrangeWithscores key start stop => some (.zrevrange key start stop true)
  | .zincrby key increment member => some (.zincrby key (Platform.toCharsDouble increment) member)
  | .xadd key fields options => some (.xadd key fields options)
  | .xlen key => some (.xlen key)
  | .xrange key start stop count => some (.xrange key start stop count)
  | .xrevrange key stop start count => some (.xrevrange key stop start count)
  | .xread streams options => some (.streamRead ⟨none, ⟨options.count, options.blockMs, false⟩, streams⟩)
  | .xdel key ids => some (.xdel key ids)
  | .xtrim key options => some (.xtrim key options)
  | .xgroupCreate key group id mkstream => some (.xgroupCreate key group id mkstream)
  | .xgroupSetid key group id => some (.xgroupSetid key group id)
  | .xgroupDestroy key group => some (.xgroupDestroy key group)
  | .xgroupCreateconsumer key group consumer => some (.xgroupCreateconsumer key group consumer)
  | .xgroupDelconsumer key group consumer => some (.xgroupDelconsumer key group consumer)
  | .xreadgroup group consumer streams options => some (.streamRead ⟨some (group, consumer), options, streams⟩)
  | .xack key group ids => some (.xack key group ids)
  | .scriptLoad script => some (.scriptLoad script)
  | .evalSha1 sha1 ks args => some (.evalSha1 sha1 ks args)
  | .eval script ks args => some (.eval script ks args)
  | .command _ _ => none

/-- The command that the operation sends is the one that asks for this. -/
def Writes (op : Operation) : Prop :=
  ∀ argv i r, op.plan = .send argv i → op.request = some r → argv = r.argv ∧ r.WellFormed

theorem writes_of_send {op : Operation} {argv : List Bytes} {i : Interpretation} {r : Request}
    (hplan : op.plan = .send argv i) (hrequest : op.request = some r) (h : argv = r.argv) (hr : r.WellFormed) :
    op.Writes := by
  intro argv' i' r' hplan' hrequest'
  rw [hplan] at hplan'
  rw [hrequest] at hrequest'
  cases hplan'
  cases hrequest'
  exact ⟨h, hr⟩

theorem writes_unlessEmpty {op : Operation} {empty : Bool} {v : Value} {argv : List Bytes} {i : Interpretation}
    {r : Request} (hplan : op.plan = .unlessEmpty empty v (.send argv i)) (hrequest : op.request = some r)
    (h : argv = r.argv) (hr : empty = false → r.WellFormed) : op.Writes := by
  intro argv' i' r' hplan' hrequest'
  rw [hplan] at hplan'
  obtain ⟨hempty, hsend⟩ := eq_send_of_unlessEmpty hplan'
  rw [hrequest] at hrequest'
  cases hsend
  cases hrequest'
  exact ⟨h, hr hempty⟩

theorem writes_ofArguments {op : Operation} {args : Outcome (List Bytes)} {i : Interpretation} {r : Request}
    (hplan : op.plan = .ofArguments args i) (hrequest : op.request = some r)
    (h : ∀ argv, args = .ok argv → argv = r.argv ∧ r.WellFormed) : op.Writes := by
  cases hargs : args with
  | error e =>
    intro argv' i' r' hplan'
    rw [hplan, hargs] at hplan'
    cases hplan'
  | ok argv =>
    obtain ⟨hargv, hr⟩ := h argv hargs
    exact writes_of_send (hplan.trans (by rw [hargs]; rfl)) hrequest hargv hr

omit [Platform] in
theorem writes_scan (cursor count : Nat) (words : List Bytes) (pattern : Bytes) :
    words ++ [Bytes.decimal cursor, "MATCH", pattern, "COUNT", Bytes.decimal count] =
      words ++ [Bytes.decimalInt cursor, "MATCH", pattern, "COUNT", Bytes.decimalInt count] := by
  rw [decimalInt_natCast, decimalInt_natCast]

omit [Platform] in
theorem writes_range {word : Bytes} {l argv : List Bytes} {count : Option Int}
    (h : CmdOps.appendStreamCount l count word = .ok argv) :
    argv = l ++ numberClause "COUNT" count ∧ ∀ n, count = some n → 0 < n := by
  rcases CmdOps.appendStreamCount_cases l count word with ⟨hcount, hargs⟩ | ⟨-, what, hargs⟩
  · cases hargs.symm.trans h
    exact ⟨rfl, hcount⟩
  · cases hargs.symm.trans h

/-- Every operation sends the command that asks for what it asks for. -/
theorem writes (op : Operation) : op.Writes := by
  cases op with
  | delMany ks | sinter ks | sadd key ks | srem key ks | zrem key ks | hdelMany key ks | xdel key ks =>
    exact writes_unlessEmpty rfl rfl rfl fun h => (by simpa using h : ks ≠ [])
  | xack key group ids => exact writes_unlessEmpty rfl rfl rfl fun h => (by simpa using h : ids ≠ [])
  | scan cursor pattern count =>
    exact writes_of_send rfl rfl (writes_scan cursor.toNat count.toNat ["SCAN"] pattern) trivial
  | hscan key cursor pattern count hashMap =>
    exact writes_of_send rfl rfl (writes_scan cursor.toNat count.toNat (["HSCAN", key] : List Bytes) pattern) trivial
  | hgetMany key hashMap =>
    refine writes_unlessEmpty rfl rfl rfl fun h => ?_
    show hmgetFields hashMap ≠ []
    rw [← List.length_pos_iff, length_hmgetFields]
    exact List.length_pos_of_ne_nil (by simpa using h)
  | del key | hdel key field | lpush key field | rpush key field =>
    exact writes_of_send rfl rfl rfl (List.cons_ne_nil _ _)
  | hset key field value => exact writes_of_send rfl rfl rfl (List.cons_ne_nil (field, value) [])
  | hsetMany key hashMap =>
    exact writes_unlessEmpty rfl rfl rfl fun h => visit_eq_nil_iff.not.mpr (by simpa using h)
  | lpushMany key values | rpushMany key values =>
    cases values with
    | nil => exact writes_of_send rfl rfl rfl trivial
    | cons value values => exact writes_of_send rfl rfl rfl (List.cons_ne_nil _ _)
  | zadd key members =>
    refine writes_unlessEmpty (by rw [plan, zaddArguments_eq, Plan.ofArguments]) rfl ?_ fun h => ?_
    · show _ = ("ZADD" : Bytes) :: key :: pairWords _
      rw [pairWords, List.flatMap_map]
    · show (visit members).map _ ≠ []
      rw [ne_eq, List.map_eq_nil_iff, visit_eq_nil_iff]
      simpa using h
  | xadd key fields options =>
    refine writes_ofArguments rfl rfl fun argv hargs => ?_
    obtain ⟨haccepted, rfl⟩ := CmdOps.xaddArguments_eq_ok_iff.mp hargs
    exact ⟨rfl, haccepted⟩
  | xtrim key options =>
    refine writes_ofArguments rfl rfl fun argv hargs => ?_
    obtain ⟨haccepted, rfl⟩ := CmdOps.appendStreamTrim_eq_ok_iff.mp hargs
    exact ⟨rfl, haccepted⟩
  | xrange | xrevrange => exact writes_ofArguments rfl rfl fun argv hargs => writes_range hargs
  | xread streams options =>
    refine writes_ofArguments rfl rfl fun argv hargs => ?_
    rcases CmdOps.streamArguments_cases ["XREAD"] streams ⟨options.count, options.blockMs, false⟩ "XREAD" with
      ⟨haccepted, h⟩ | ⟨-, what, h⟩
    · cases h.symm.trans hargs
      exact ⟨rfl, haccepted, fun hnoack => by cases hnoack⟩
    · cases h.symm.trans hargs
  | xreadgroup group consumer streams options =>
    refine writes_ofArguments rfl rfl fun argv hargs => ?_
    rcases CmdOps.streamArguments_cases ["XREADGROUP", "GROUP", group, consumer] streams options "XREADGROUP" with
      ⟨haccepted, h⟩ | ⟨-, what, h⟩
    · cases h.symm.trans hargs
      exact ⟨rfl, haccepted, fun _ => rfl⟩
    · cases h.symm.trans hargs
  | xgroupCreate key group id mkstream => cases mkstream <;> exact writes_of_send rfl rfl rfl trivial
  | evalSha1 sha1 ks args | eval script ks args =>
    exact writes_ofArguments rfl rfl fun argv hargs => ⟨scriptArguments_eq_ok hargs, trivial⟩
  | command cmd args => intro argv i r _ hrequest; cases hrequest
  | _ => exact writes_of_send rfl rfl rfl trivial

/-- The operation adds an entry whose id reads as an option. -/
def HasOptionId : Operation → Prop
  | .xadd _ _ options => IdReadsAsOption options
  | _ => False

theorem hasOptionId_of_request {op : Operation} {r : Request} (h : op.request = some r)
    (hr : r.HasOptionId) : op.HasOptionId := by
  cases op with
  | command => cases h
  | lpushMany key values | rpushMany key values =>
    cases values <;>
    · cases h
      exact hr
  | _ =>
    cases h
    exact hr

/-- The command that is sent reads back, unless an id in it reads as an option. -/
theorem reads_back {op : Operation} (hid : ¬op.HasOptionId) {argv : List Bytes} {i : Interpretation} {r : Request}
    (hplan : op.plan = .send argv i) (hrequest : op.request = some r) : readRequest argv = some r := by
  obtain ⟨rfl, hr⟩ := writes op argv i r hplan hrequest
  exact readRequest_argv r hr (mt (hasOptionId_of_request hrequest) hid)

/-- Two operations, raw commands and ids that read as options apart, that send one command ask for the same: which of
    its words are keys, values, numbers or options can be told from the command alone. -/
theorem request_of_sent {σ τ : Type} {op op' : Operation} (hid : ¬op.HasOptionId) (hid' : ¬op'.HasOptionId)
    (hraw : ∀ cmd args, op ≠ .command cmd args) (hraw' : ∀ cmd args, op' ≠ .command cmd args) {E : Executor σ} {s : σ}
    {E' : Executor τ} {t : τ} {argv : List Bytes} (hsent : argv ∈ calls op E s) (hsent' : argv ∈ calls op' E' t) :
    op.request = op'.request := by
  have hread : ∀ {o : Operation} {i : Interpretation}, ¬o.HasOptionId → (∀ cmd args, o ≠ .command cmd args) →
      o.plan = .send argv i → o.request = readRequest argv := by
    intro o i hid hraw hplan
    cases hrequest : o.request with
    | some r => exact (reads_back hid hplan hrequest).symm
    | none =>
      cases o with
      | command cmd args => exact absurd rfl (hraw cmd args)
      | _ => cases hrequest
  obtain ⟨i, hplan⟩ := plan_of_mem_calls hsent
  obtain ⟨i', hplan'⟩ := plan_of_mem_calls hsent'
  rw [hread hid hraw hplan, hread hid' hraw' hplan']

end Operation

/-- One value, pushed alone or in a list. -/
theorem request_of_sent_lpush :
    @Operation.request referencePlatform (.lpush "LPUSH" "1") =
      @Operation.request referencePlatform (.lpushMany "LPUSH" ["1"]) :=
  @Operation.request_of_sent referencePlatform Unit Unit (.lpush "LPUSH" "1") (.lpushMany "LPUSH" ["1"]) id id
    (by simp) (by simp) (fun _ => pure .nil) () (fun _ => pure .nil) () ["LPUSH", "LPUSH", "1"]
    (List.mem_singleton.mpr rfl) (List.mem_singleton.mpr rfl)

end Redisdal
