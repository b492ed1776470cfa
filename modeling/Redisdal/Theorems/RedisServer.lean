import Redisdal.Lib.ExpiringMap
import Redisdal.Theorems.Commands
import Redisdal.Theorems.Decoding
import Redisdal.Theorems.HashStore
import Redisdal.Theorems.Scores
import Redisdal.Theorems.StreamCommands

/-! # What the commands do

The commands on keys and on six types of data that the client sends, and what they are documented to do to data that
expire: the lists and the time are unbounded, the counters are `long long`, and how the server reads the texts of scores
and ids is a parameter. -/

namespace Redisdal

/-! ### What a key holds -/

/-- A text, or a collection of one of five types. -/
inductive Datum (L S H X Z : Type) where
  | text (value : Bytes)
  | list (values : L)
  | set (members : S)
  | hash (fields : H)
  | stream (log : X)
  | zset (scores : Z)

namespace Datum
variable {L S H X Z : Type}

def typeName : Datum L S H X Z → Bytes
  | text _ => "string"
  | list _ => "list"
  | set _ => "set"
  | hash _ => "hash"
  | stream _ => "stream"
  | zset _ => "zset"

def text? : Datum L S H X Z → Option (Option Bytes)
  | text value => some (some value)
  | _ => none

def list? : Datum L S H X Z → Option L
  | list values => some values
  | _ => none

def set? : Datum L S H X Z → Option S
  | set members => some members
  | _ => none

def hash? : Datum L S H X Z → Option H
  | hash fields => some fields
  | _ => none

def stream? : Datum L S H X Z → Option (Option X)
  | stream log => some (some log)
  | _ => none

def zset? : Datum L S H X Z → Option Z
  | zset scores => some scores
  | _ => none

end Datum

/-- How the commands on one type find what is under a key, and what they leave there: `absent` stands for a key
    that holds nothing, and nothing is kept of a collection that is empty. -/
structure DatumView (D C : Type) where
  read : D → Option C
  absent : C
  write : C → Option D

/-- What a command finds, unless the key holds another type. -/
def DatumView.find {D C : Type} (view : DatumView D C) : Option D → Option C
  | none => some view.absent
  | some d => view.read d

section Views
variable {L S H X Z : Type}

def textView : DatumView (Datum L S H X Z) (Option Bytes) := ⟨Datum.text?, none, Option.map .text⟩

def listView {α : Type} : DatumView (Datum (List α) S H X Z) (List α) :=
  ⟨Datum.list?, [], fun l => if l.isEmpty then none else some (.list l)⟩

def setView (S : Type) [EmptyCollection S] [DecidablePred fun s : S => s = ∅] : DatumView (Datum L S H X Z) S :=
  ⟨Datum.set?, ∅, fun s => if s = ∅ then none else some (.set s)⟩

def hashView (H : Type) [EmptyCollection H] [DecidablePred fun f : H => f = ∅] : DatumView (Datum L S H X Z) H :=
  ⟨Datum.hash?, ∅, fun f => if f = ∅ then none else some (.hash f)⟩

/-- A stream without entries is still there. -/
def streamView : DatumView (Datum L S H X Z) (Option X) := ⟨Datum.stream?, none, Option.map .stream⟩

def zsetView (Z : Type) [EmptyCollection Z] [DecidablePred fun z : Z => z = ∅] : DatumView (Datum L S H X Z) Z :=
  ⟨Datum.zset?, ∅, fun z => if z = ∅ then none else some (.zset z)⟩

end Views

def wrongType : Bytes := "WRONGTYPE Operation against a key holding the wrong kind of value"

/-! ### Lists and counters -/

namespace ListDatum
variable {α : Type}

/-- The element at a position, counted from the end where it is negative. -/
def at? (l : List α) (index : Int) : Option α :=
  let i := if index < 0 then index + l.length else index
  if i < 0 then none else l[i.toNat]?

/-- The elements between two positions, both included. -/
def range (l : List α) (start stop : Int) : List α :=
  let first := max 0 (if start < 0 then start + l.length else start)
  let last := if stop < 0 then stop + l.length else stop
  (l.drop first.toNat).take (last + 1 - first).toNat

end ListDatum

namespace Counter

def notAnInteger : Bytes := "ERR value is not an integer or out of range"

def overflow : Bytes := "ERR increment or decrement would overflow"

def decrementOverflow : Bytes := "ERR decrement would overflow"

/-- The number that a text stands for, zero if there is none. -/
def read : Option Bytes → Option Int
  | none => some 0
  | some text => readLongLong text

/-- A counter after an increment, or an error. -/
def increment (text : Option Bytes) (delta : Int) : Except Bytes Int :=
  match read text with
  | none => .error notAnInteger
  | some n => if IsLongLong (n + delta) then .ok (n + delta) else .error overflow

/-- A decrement by the least `long long` has no opposite. -/
def decrement (text : Option Bytes) (delta : Int) : Except Bytes Int :=
  if delta = -2 ^ 63 then .error decrementOverflow else increment text (-delta)

end Counter

/-! ### Time -/

namespace Expiry

def invalidTime (command : Bytes) : Bytes := "ERR invalid expire time in '" ++ command ++ "' command"

/-- A time in milliseconds, unless it or its deadline is no `long long`. -/
def delay (unit time now : Int) : Option Int :=
  if IsLongLong (unit * time) ∧ now + unit * time < 2 ^ 63 then some (unit * time) else none

/-- Milliseconds as seconds, rounded; a negative number is an answer of its own. -/
def seconds (milliseconds : Int) : Int := if milliseconds < 0 then milliseconds else (milliseconds + 500) / 1000

end Expiry

/-! ### Reads of streams -/

namespace StreamReading
variable [ServerTexts] {K L S H F Z : Type} [DecidableEq K]

/-- Where a read of each stream starts: the first of them that cannot be read is an error. -/
def starts (m : ExpiringMap K (Datum L S H (StreamLog F) Z)) (group : Option Bytes) (streams : List (K × Bytes)) :
    Except Bytes (List (K × ReadFrom)) :=
  streams.mapM fun s =>
    match streamView.find (m.datum s.1) with
    | none => .error wrongType
    | some stream => (start group s.2 stream).map (s.1, ·)

/-- Read streams one after the other, and leave out those that have nothing to show. -/
def readAll (reader : Option (Bytes × Bytes)) (limit : Option Nat) (track : Bool) :
    List (K × ReadFrom) → ExpiringMap K (Datum L S H (StreamLog F) Z) →
      List (K × List (Nat × Option F)) × ExpiringMap K (Datum L S H (StreamLog F) Z)
  | [], m => ([], m)
  | (k, start) :: rest, m =>
    match streamView.find (m.datum k) with
    | none => readAll reader limit track rest m
    | some stream =>
      let p := read reader limit track start stream
      let q := readAll reader limit track rest (m.put k (streamView.write p.2))
      ((p.1.map (k, ·)).toList ++ q.1, q.2)

end StreamReading

/-! ### Commands -/

abbrev ServerDatum : Type :=
  Datum (List Bytes) (UnorderedSet Bytes) (UnorderedMap Bytes Bytes) (StreamLog (List (Bytes × Bytes)))
    (UnorderedMap Bytes Score)

abbrev ServerMap : Type := ExpiringMap Bytes ServerDatum

instance {K V : Type} [DecidableEq K] : DecidablePred fun m : UnorderedMap K V => m = ∅ := fun m =>
  decidable_of_iff (m.entries.isEmpty = true)
    ⟨fun h => AList.ext (List.isEmpty_iff.mp h), fun h => by rw [h]; rfl⟩

/-- A `long long` on the wire. -/
def Reply.signed (n : Int) : Reply := .integer (UInt64.ofInt n)

def outOfRange : Bytes := "ERR value is out of range, must be positive"

namespace Reply

def entry (e : Nat × Option (List (Bytes × Bytes))) : Reply :=
  .array [.string (StreamId.text e.1), e.2.elim .nil fun fields => .array (flatPairs fields)]

def batch (b : Bytes × List (Nat × Option (List (Bytes × Bytes)))) : Reply :=
  .array [.string b.1, .array (b.2.map entry)]

def ofAnswer : Except Bytes (StreamAnswer (List (Bytes × Bytes))) → Reply
  | .error message => .error message
  | .ok .ok => .status "OK"
  | .ok (.id n) => .ofOptional (n.map StreamId.text)
  | .ok (.count n) => .signed n
  | .ok (.entries entries) => .array (entries.map fun e => entry (e.1, some e.2))

/-- Members of a sorted set, each of them before its score if this is asked for. -/
def members [ServerTexts] (withScores : Bool) (l : List (Bytes × Score)) : Reply :=
  .array (if withScores then flatPairs (l.map fun e => (e.1, ServerScores.print e.2)) else l.map fun e => .string e.1)

end Reply

namespace ServerMap
variable [ServerTexts] {C : Type} (m : ServerMap) (o : ListingOrder) (clock : Nat)

/-- A command on one type of data. -/
def onView (view : DatumView ServerDatum C) (key : Bytes) (f : C → Reply × C) : Reply × ServerMap :=
  match view.find (m.datum key) with
  | none => (.error wrongType, m)
  | some c => ((f c).1, m.put key (view.write (f c).2))

def onText (key : Bytes) (f : Option Bytes → Reply × Option Bytes) : Reply × ServerMap := m.onView textView key f

def onList (key : Bytes) (f : List Bytes → Reply × List Bytes) : Reply × ServerMap := m.onView listView key f

def onSet (key : Bytes) (f : UnorderedSet Bytes → Reply × UnorderedSet Bytes) : Reply × ServerMap :=
  m.onView (setView _) key f

def onHash (key : Bytes) (f : UnorderedMap Bytes Bytes → Reply × UnorderedMap Bytes Bytes) : Reply × ServerMap :=
  m.onView (hashView _) key f

def onZset (key : Bytes) (f : UnorderedMap Bytes Score → Reply × UnorderedMap Bytes Score) : Reply × ServerMap :=
  m.onView (zsetView _) key f

def expire (command : Bytes) (unit : Int) (key : Bytes) (time : Int) : Reply × ServerMap :=
  match Expiry.delay unit time m.now with
  | none => (.error (Expiry.invalidTime command), m)
  | some milliseconds =>
    (.signed (if (ExpiringMap.expire m key milliseconds).1 then 1 else 0), (ExpiringMap.expire m key milliseconds).2)

/-- SET with a time to live. -/
def setFor (unit : Int) (key value : Bytes) (time : Int) : Reply × ServerMap :=
  if time ≤ 0 then (.error (Expiry.invalidTime "set"), m)
  else match Expiry.delay unit time m.now with
    | none => (.error (Expiry.invalidTime "set"), m)
    | some milliseconds => (.status "OK", m.store key (.text value) (some (m.now + milliseconds)))

def set (key value : Bytes) : SetOption → Reply × ServerMap
  | .always => (.status "OK", m.store key (.text value) none)
  | .notExists => if (m.live key).isSome then (.nil, m) else (.status "OK", m.store key (.text value) none)
  | .seconds seconds => m.setFor 1000 key value seconds
  | .milliseconds milliseconds => m.setFor 1 key value milliseconds

def counter (change : Option Bytes → Except Bytes Int) (text : Option Bytes) : Reply × Option Bytes :=
  match change text with
  | .error message => (.error message, text)
  | .ok n => (.signed n, some (Bytes.decimalInt n))

/-- LPOP or RPOP with a count, which is read before the list is. -/
def popMany (key : Bytes) (count : Int) (pop : Nat → List Bytes → List Bytes × List Bytes) : Reply × ServerMap :=
  if count < 0 then (.error outOfRange, m)
  else m.onList key fun l =>
    (if l = [] then .nil else .array ((pop count.toNat l).1.map .string), (pop count.toNat l).2)

/-- The members of the sets under all of the keys. -/
def sinter (keys : List Bytes) : Reply :=
  match keys.mapM fun key => (setView (UnorderedSet Bytes)).find (m.datum key) with
  | none => .error wrongType
  | some [] => .array []
  | some (first :: rest) =>
    .array ((o.order clock (first.keys.filter fun x => rest.all fun s => decide (x ∈ s))).map .string)

/-- A command on one stream. -/
def onStream (key : Bytes) (action : Except Bytes (StreamAction (List (Bytes × Bytes)))) : Reply × ServerMap :=
  match action with
  | .error message => (.error message, m)
  | .ok a => m.onView streamView key fun stream => (.ofAnswer (a.run m.now stream).1, (a.run m.now stream).2)

/-- XREAD and XREADGROUP. Without anything to show they answer nil, and they do not wait. -/
def readStreams (read : StreamRead) : Reply × ServerMap :=
  match StreamReading.starts m (read.group.map Prod.fst) (read.streams.map fun s => (s.key, s.id)) with
  | .error message => (.error message, m)
  | .ok starts =>
    let p := StreamReading.readAll read.group (read.options.count.map Int.toNat) (!read.options.noack) starts m
    (if p.1 = [] then .nil else .array (p.1.map .batch), p.2)

/-- ZADD. Nothing is stored unless all of the scores are numbers. -/
def zadd (key : Bytes) (members : List (Bytes × Bytes)) : Reply × ServerMap :=
  match members.mapM fun p => (ServerScores.parse p.1).map (p.2, ·) with
  | none => (.error notAFloat, m)
  | some pairs => m.onZset key fun z =>
    (.signed ((pairs.map Prod.fst).toFinset.filter (· ∉ z)).card, z.insertAll pairs)

def zincrby (key increment member : Bytes) : Reply × ServerMap :=
  match ServerScores.parse increment with
  | none => (.error notAFloat, m)
  | some delta => m.onZset key fun z =>
    match Score.increment (AList.lookup member z) delta with
    | none => (.error notANumber, z)
    | some score => (.string (ServerScores.print score), z.insert member score)

def command : Request → Reply × ServerMap
  | .exists key => (.signed (if (m.live key).isSome then 1 else 0), m)
  | .type key => (.status (((m.datum key).map Datum.typeName).getD "none"), m)
  | .expire key seconds => m.expire "expire" 1000 key seconds
  | .pexpire key milliseconds => m.expire "pexpire" 1 key milliseconds
  | .ttl key => (.signed (Expiry.seconds (m.timeLeft key)), m)
  | .pttl key => (.signed (m.timeLeft key), m)
  | .persist key => (.signed (if (m.persist key).1 then 1 else 0), (m.persist key).2)
  | .ping message => ((message.map .string).getD (.status "PONG"), m)
  | .del keys => (.signed (m.eraseAll keys).1, (m.eraseAll keys).2)
  | .set key value option => m.set key value option
  | .get key => m.onText key fun t => (.ofOptional t, t)
  | .getset key value =>
    match textView.find (m.datum key) with
    | none => (.error wrongType, m)
    | some t => (.ofOptional t, m.store key (.text value) none)
  | .incrby key delta => m.onText key (counter (Counter.increment · delta))
  | .decrby key delta => m.onText key (counter (Counter.decrement · delta))
  | .append key value => m.onText key fun t => (.signed (t.getD [] ++ value).length, some (t.getD [] ++ value))
  | .hget key field => m.onHash key fun f => (.ofOptional (AList.lookup field f), f)
  | .hmget key fields => m.onHash key fun f => (.array (fields.map fun field => .ofOptional (AList.lookup field f)), f)
  | .hset key pairs =>
    m.onHash key fun f => (.signed ((pairs.map Prod.fst).toFinset.filter (· ∉ f)).card, f.insertAll pairs)
  | .hgetall key => m.onHash key fun f => (.array (Reply.flatPairs (o.order clock f.pairs)), f)
  | .hkeys key => m.onHash key fun f => (.array ((o.order clock f.keys).map .string), f)
  | .hvals key => m.onHash key fun f => (.array ((o.order clock f.vals).map .string), f)
  | .hdel key fields => m.onHash key fun f => (.signed (f.eraseAll fields).1, (f.eraseAll fields).2)
  | .lpush key values => m.onList key fun l => (.signed (values.reverse ++ l).length, values.reverse ++ l)
  | .rpush key values => m.onList key fun l => (.signed (l ++ values).length, l ++ values)
  | .lpop key none => m.onList key fun l => (.ofOptional l.head?, l.tail)
  | .lpop key (some count) => m.popMany key count fun n l => (l.take n, l.drop n)
  | .rpop key none => m.onList key fun l => (.ofOptional l.getLast?, l.dropLast)
  | .rpop key (some count) => m.popMany key count fun n l => (l.reverse.take n, (l.reverse.drop n).reverse)
  | .lrange key start stop => m.onList key fun l => (.array ((ListDatum.range l start stop).map .string), l)
  | .llen key => m.onList key fun l => (.signed l.length, l)
  | .lindex key index => m.onList key fun l => (.ofOptional (ListDatum.at? l index), l)
  | .sadd key members =>
    m.onSet key fun s => (.signed (members.toFinset.filter (· ∉ s)).card, Client.insertKeys s members)
  | .srem key members => m.onSet key fun s => (.signed (s.eraseAll members).1, (s.eraseAll members).2)
  | .smembers key => m.onSet key fun s => (.array ((o.order clock s.keys).map .string), s)
  | .scard key => m.onSet key fun s => (.signed s.keys.length, s)
  | .sismember key member => m.onSet key fun s => (.signed (if member ∈ s then 1 else 0), s)
  | .spop key => m.onSet key fun s =>
    (.ofOptional (o.order clock s.keys).head?, (s.eraseAll (o.order clock s.keys).head?.toList).2)
  | .sinter keys => (m.sinter o clock keys, m)
  | .zadd key members => m.zadd key members
  | .zrem key members => m.onZset key fun z => (.signed (z.eraseAll members).1, (z.eraseAll members).2)
  | .zscore key member => m.onZset key fun z => (.ofOptional ((AList.lookup member z).map ServerScores.print), z)
  | .zrange key start stop withScores => m.onZset key fun z =>
    (.members withScores (ListDatum.range (ranking z) start stop), z)
  | .zrevrange key start stop withScores => m.onZset key fun z =>
    (.members withScores (ListDatum.range (ranking z).reverse start stop), z)
  | .zincrby key increment member => m.zincrby key increment member
  | .xadd key fields options => m.onStream key (StreamAction.xadd fields options)
  | .xlen key => m.onStream key (.ok .length)
  | .xrange key start stop count => m.onStream key (StreamAction.xrange start stop false count)
  | .xrevrange key stop start count => m.onStream key (StreamAction.xrange start stop true count)
  | .streamRead read => m.readStreams read
  | .xdel key ids => m.onStream key (.ok (.delete ids))
  | .xtrim key options => m.onStream key (StreamAction.xtrim options)
  | .xgroupCreate key group id mkstream => m.onStream key (.ok (.createGroup group id mkstream))
  | .xgroupSetid key group id => m.onStream key (.ok (.setId group id))
  | .xgroupDestroy key group => m.onStream key (.ok (.destroyGroup group))
  | .xgroupCreateconsumer key group consumer => m.onStream key (.ok (.createConsumer group consumer))
  | .xgroupDelconsumer key group consumer => m.onStream key (.ok (.deleteConsumer group consumer))
  | .xack key group ids => m.onStream key (.ok (.acknowledge group ids))
  | _ => (.error "ERR unknown command", m)

end ServerMap

/-! ### What is documented, as an executor -/

/-- The data, and the number of commands executed. -/
structure RedisDb where
  map : ServerMap
  clock : Nat

def RedisDb.command [ServerTexts] (o : ListingOrder) (argv : List Bytes) (db : RedisDb) : Reply × RedisDb :=
  match readRequest argv with
  | none => (.error "ERR syntax error", ⟨db.map, db.clock + 1⟩)
  | some r => ((db.map.command o db.clock r).1, ⟨(db.map.command o db.clock r).2, db.clock + 1⟩)

/-- On this executor the methods are compared with the typed keyspace; services are assumed to do what it does. -/
def documentedServer [ServerTexts] (o : ListingOrder) : Executor RedisDb := fun argv => ⟨fun db =>
  (.ok (db.command o argv).1, (db.command o argv).2)⟩

theorem run_documentedServer [ServerTexts] (o : ListingOrder) {argv : List Bytes} {r : Request}
    (h : readRequest argv = some r) (db : RedisDb) : (documentedServer o argv).run db =
      (.ok (db.map.command o db.clock r).1, ⟨(db.map.command o db.clock r).2, db.clock + 1⟩) := by
  show ((.ok (db.command o argv).1, (db.command o argv).2) : Outcome Reply × RedisDb) = _
  unfold RedisDb.command
  rw [h]

end Redisdal
