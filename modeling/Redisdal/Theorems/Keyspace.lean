import Redisdal.Theorems.FacadeContract
import Redisdal.Theorems.RedisServer

/-! # The typed keyspace

What the methods of the facade on keys and on six types of data are for: a keyspace of typed values, that know nothing
of byte strings (a text apart, which counters and `append` change), and the outcomes that a call may have on it. Where
a set or a hash is listed its order is left open, and so is the member that `spop` takes. -/

namespace Redisdal

abbrev TypedDatum (K V : Type) : Type :=
  Datum (List V) (Finset V) (Finmap fun _ : K => V) (StreamLog (List (K × V))) (Finmap fun _ : V => Score)

abbrev TypedKeyspace (K V : Type) : Type := ExpiringMap K (TypedDatum K V)

/-- A number as the `long long` of its residue. -/
def asLongLong (n : Int) : Int := n.bmod (2 ^ 64)

theorem asLongLong_of_isLongLong {n : Int} (h : IsLongLong n) : asLongLong n = n := by
  obtain ⟨hlow, hhigh⟩ := h
  unfold asLongLong
  rw [Int.bmod_def]
  split <;> omega

theorem asLongLong_zero : asLongLong 0 = 0 := asLongLong_of_isLongLong (by decide)

/-! ### What streams show -/

section Streams
variable {K V : Type}

/-- An entry as the facade shows it. One that is deleted has no fields. -/
def StreamEntry.ofSlot (e : Nat × Option (List (K × V))) : StreamEntry K V := ⟨StreamId.text e.1, e.2.getD []⟩

def StreamBatch.ofSlots (b : K × List (Nat × Option (List (K × V)))) : StreamBatch K V :=
  ⟨b.1, b.2.map StreamEntry.ofSlot⟩

namespace StreamAnswer

def value : StreamAnswer (List (K × V)) → TypedValue K V
  | ok => .flag true
  | id n => .id (n.map StreamId.text)
  | count n => .integer (asLongLong n)
  | entries l => .entries (l.map fun e => .ofSlot (e.1, some e.2))

/-- The answer of a method that tells whether it has changed something. -/
def flag : StreamAnswer (List (K × V)) → TypedValue K V
  | count n => .flag (n = 1)
  | answer => answer.value

end StreamAnswer

def StreamAnswer.outcome (value : StreamAnswer (List (K × V)) → TypedValue K V) :
    Except Bytes (StreamAnswer (List (K × V))) → Outcome (TypedValue K V)
  | .error message => .error (.redisError message)
  | .ok answer => .ok (value answer)

end Streams

namespace TypedKeyspace
variable [ServerTexts] {K V : Type} [DecidableEq K] [DecidableEq V] (s : TypedKeyspace K V)

/-- A call on one type of data: `P` says what it returns of what it finds, and what it leaves. -/
def OnView {C : Type} (view : DatumView (TypedDatum K V) C) (key : K) (P : C → Outcome (TypedValue K V) → C → Prop)
    (outcome : Outcome (TypedValue K V)) (s' : TypedKeyspace K V) : Prop :=
  match view.find (s.datum key) with
  | none => outcome = .error (.redisError wrongType) ∧ s' = s
  | some c => ∃ c', P c outcome c' ∧ s' = s.put key (view.write c')

section Calls
variable (outcome : Outcome (TypedValue K V)) (s' : TypedKeyspace K V) (key : K)

def OnText (P : Option Bytes → Outcome (TypedValue K V) → Option Bytes → Prop) : Prop :=
  s.OnView textView key P outcome s'

def OnList (P : List V → Outcome (TypedValue K V) → List V → Prop) : Prop := s.OnView listView key P outcome s'

def OnSet (P : Finset V → Outcome (TypedValue K V) → Finset V → Prop) : Prop :=
  s.OnView (setView (Finset V)) key P outcome s'

def OnHash (P : (Finmap fun _ : K => V) → Outcome (TypedValue K V) → (Finmap fun _ : K => V) → Prop) : Prop :=
  s.OnView (hashView (Finmap fun _ : K => V)) key P outcome s'

def OnZset (P : (Finmap fun _ : V => Score) → Outcome (TypedValue K V) → (Finmap fun _ : V => Score) → Prop) : Prop :=
  s.OnView (zsetView (Finmap fun _ : V => Score)) key P outcome s'

/-- The call returns a value and leaves the keyspace as it is. -/
def Answers (value : TypedValue K V) : Prop := outcome = .ok value ∧ s' = s

def Counts (change : Option Bytes → Except Bytes Int) : Prop :=
  s.OnText outcome s' key fun t out t' =>
    match change t with
    | .error message => out = .error (.redisError message) ∧ t' = t
    | .ok n => out = .ok (.integer n) ∧ t' = some (Bytes.decimalInt n)

def Expires (command : Bytes) (unit time : Int) : Prop :=
  match Expiry.delay unit time s.now with
  | none => outcome = .error (.redisError (Expiry.invalidTime command)) ∧ s' = s
  | some milliseconds =>
    outcome = .ok (.flag (s.expire key milliseconds).1) ∧ s' = (s.expire key milliseconds).2

/-- A pop with a count. -/
def PopsMany (count : Int) (pop : Nat → List V → List V × List V) : Prop :=
  if count < 0 then outcome = .error (.redisError outOfRange) ∧ s' = s
  else s.OnList outcome s' key fun l out l' => out = .ok (.values (pop count.toNat l).1) ∧ l' = (pop count.toNat l).2

/-- The intersection of the sets under all of the keys, if there are any. -/
def Intersects (keys : List K) : Prop :=
  match keys.mapM fun key => (setView (Finset V)).find (s.datum key) with
  | none => outcome = .error (.redisError wrongType) ∧ s' = s
  | some sets =>
    s' = s ∧ ∃ l, outcome = .ok (.values l) ∧ l.Nodup ∧ ∀ v, v ∈ l ↔ sets ≠ [] ∧ ∀ members ∈ sets, v ∈ members

/-- A call that the client rejects has no effect. -/
def UnlessRejected (rejected : Prop) (P : Prop) : Prop :=
  (rejected ∧ (∃ what, outcome = .error (.invalidArgument what)) ∧ s' = s) ∨ (¬rejected ∧ P)

/-- A call on one stream. -/
def OnStream (action : Except Bytes (StreamAction (List (K × V))))
    (value : StreamAnswer (List (K × V)) → TypedValue K V) : Prop :=
  match action with
  | .error message => outcome = .error (.redisError message) ∧ s' = s
  | .ok a => s.OnView streamView key (fun stream out stream' =>
    out = StreamAnswer.outcome value (a.run s.now stream).1 ∧ stream' = (a.run s.now stream).2) outcome s'

/-- A read of several streams, for a consumer of a group or for everybody. -/
def Reads (reader : Option (Bytes × Bytes)) (streams : List (StreamReadRequest K)) (count : Option Int)
    (track : Bool) : Prop :=
  match StreamReading.starts s (reader.map Prod.fst) (streams.map fun r => (r.key, r.id)) with
  | .error message => outcome = .error (.redisError message) ∧ s' = s
  | .ok starts =>
    let p := StreamReading.readAll reader (count.map Int.toNat) track starts s
    outcome = .ok (.batches (p.1.map .ofSlots)) ∧ s' = p.2

/-- Members are given scores, unless one of these is not a number. -/
def AddsScores (members : UnorderedMap V Double) : Prop :=
  match readScores members.pairs with
  | none => outcome = .error (.redisError notAFloat) ∧ s' = s
  | some scores => s.OnZset outcome s' key fun f out f' =>
    out = .ok (.integer (asLongLong (members.keys.toFinset.filter (· ∉ f)).card)) ∧
      f' = (UnorderedMap.emplaceAll ∅ scores).toFinmap ∪ f

/-- One score is changed, unless the increment or what it makes of the score is not a number. -/
def IncrementsScore (increment : Double) (member : V) : Prop :=
  match Score.ofDouble? increment with
  | none => outcome = .error (.redisError notAFloat) ∧ s' = s
  | some delta => s.OnZset outcome s' key fun f out f' =>
    match Score.increment (f.lookup member) delta with
    | none => out = .error (.redisError notANumber) ∧ f' = f
    | some score => out = .ok (.score score.value) ∧ f' = f.insert member score

/-- A part of the ranking of a sorted set, from its least or from its greatest score on. -/
def ReadsRanking (tpl : Template K V) (start stop : Int) (backwards : Bool)
    (value : List (V × Score) → TypedValue K V) : Prop :=
  s.OnZset outcome s' key fun f out f' => f' = f ∧
    ∃ l, Ranked tpl f l ∧ out = .ok (value (ListDatum.range (if backwards then l.reverse else l) start stop))

end Calls

def rankedMembers (l : List (V × Score)) : TypedValue K V := .values (l.map Prod.fst)

def rankedScores (l : List (V × Score)) : TypedValue K V := .scores (l.map fun e => (e.1, e.2.value))

/-- The outcomes of a call, and the keyspaces that it may leave. Methods on patterns and on scripts have none. -/
def Allows (tpl : Template K V) (call : TypedCall K V) (outcome : Outcome (TypedValue K V)) (s' : TypedKeyspace K V) :
    Prop :=
  match call with
  | .exists key => s.Answers outcome s' (.flag (s.live key).isSome)
  | .type key => s.Answers outcome s' (.text (((s.datum key).map Datum.typeName).getD "none"))
  | .expire key seconds => s.Expires outcome s' key "expire" 1000 seconds
  | .pexpire key milliseconds => s.Expires outcome s' key "pexpire" 1 milliseconds
  | .ttl key => s.Answers outcome s' (.integer (asLongLong (Expiry.seconds (s.timeLeft key))))
  | .pttl key => s.Answers outcome s' (.integer (asLongLong (s.timeLeft key)))
  | .persist key => outcome = .ok (.flag (s.persist key).1) ∧ s' = (s.persist key).2
  | .ping => s.Answers outcome s' (.text "PONG")
  | .pingMessage message => s.Answers outcome s' (.text message)
  | .del key => outcome = .ok (.integer (asLongLong (s.eraseAll [key]).1)) ∧ s' = (s.eraseAll [key]).2
  | .delMany keys => outcome = .ok (.integer (asLongLong (s.eraseAll keys).1)) ∧ s' = (s.eraseAll keys).2
  | .set key value =>
    ∃ text, tpl.serializeValue value = .ok text ∧ outcome = .ok (.flag true) ∧ s' = s.store key (.text text) none
  | .get key => s.OnText outcome s' key fun t out t' =>
    out = (t.mapM tpl.deserializeValue).map .value ∧ t' = t
  | .getAndSet key value =>
    match textView.find (s.datum key) with
    | none => outcome = .error (.redisError wrongType) ∧ s' = s
    | some t => ∃ text, tpl.serializeValue value = .ok text ∧
      outcome = (t.mapM tpl.deserializeValue).map .value ∧ s' = s.store key (.text text) none
  | .incr key delta => s.Counts outcome s' key (Counter.increment · delta)
  | .decr key delta => s.Counts outcome s' key (Counter.decrement · delta)
  | .append key value => s.OnText outcome s' key fun t out t' =>
    ∃ text, tpl.serializeValue value = .ok text ∧ t' = some (t.getD [] ++ text) ∧
      out = .ok (.integer (asLongLong (t.getD [] ++ text).length))
  | .lpush key value => s.OnList outcome s' key fun l out l' =>
    l' = value :: l ∧ out = .ok (.integer (asLongLong l'.length))
  | .lpushMany key values => s.OnList outcome s' key fun l out l' =>
    l' = values.reverse ++ l ∧ out = .ok (.integer (asLongLong l'.length))
  | .rpush key value => s.OnList outcome s' key fun l out l' =>
    l' = l ++ [value] ∧ out = .ok (.integer (asLongLong l'.length))
  | .rpushMany key values => s.OnList outcome s' key fun l out l' =>
    l' = l ++ values ∧ out = .ok (.integer (asLongLong l'.length))
  | .lpop key => s.OnList outcome s' key fun l out l' => out = .ok (.value l.head?) ∧ l' = l.tail
  | .rpop key => s.OnList outcome s' key fun l out l' => out = .ok (.value l.getLast?) ∧ l' = l.dropLast
  | .lpopCount key count => s.PopsMany outcome s' key count fun n l => (l.take n, l.drop n)
  | .rpopCount key count => s.PopsMany outcome s' key count fun n l => (l.reverse.take n, (l.reverse.drop n).reverse)
  | .lrange key start stop => s.OnList outcome s' key fun l out l' =>
    out = .ok (.values (ListDatum.range l start stop)) ∧ l' = l
  | .llen key => s.OnList outcome s' key fun l out l' => out = .ok (.integer (asLongLong l.length)) ∧ l' = l
  | .lindex key index => s.OnList outcome s' key fun l out l' => out = .ok (.value (ListDatum.at? l index)) ∧ l' = l
  | .sadd key members =>
    if members = [] then s.Answers outcome s' (.integer 0)
    else s.OnSet outcome s' key fun m out m' =>
      out = .ok (.integer (asLongLong (members.toFinset \ m).card)) ∧ m' = m ∪ members.toFinset
  | .srem key members =>
    if members = [] then s.Answers outcome s' (.integer 0)
    else s.OnSet outcome s' key fun m out m' =>
      out = .ok (.integer (asLongLong (members.toFinset ∩ m).card)) ∧ m' = m \ members.toFinset
  | .spop key => s.OnSet outcome s' key fun m out m' =>
    (m = ∅ ∧ out = .ok (.value none) ∧ m' = m) ∨ ∃ v ∈ m, out = .ok (.value (some v)) ∧ m' = m.erase v
  | .smembers key => s.OnSet outcome s' key fun m out m' =>
    ∃ l, out = .ok (.values l) ∧ l.Nodup ∧ l.toFinset = m ∧ m' = m
  | .scard key => s.OnSet outcome s' key fun m out m' => out = .ok (.integer (asLongLong m.card)) ∧ m' = m
  | .sismember key member => s.OnSet outcome s' key fun m out m' => out = .ok (.flag (member ∈ m)) ∧ m' = m
  | .sinter keys => s.Intersects outcome s' keys
  | .hget key hashKey => s.OnHash outcome s' key fun f out f' => out = .ok (.value (f.lookup hashKey)) ∧ f' = f
  | .hgetMany key hashMap =>
    if hashMap.entries = [] then s.Answers outcome s' (.optionalHash hashMap)
    else s.OnHash outcome s' key fun f out f' =>
      ∃ m, out = .ok (.optionalHash m) ∧ f' = f ∧ (∀ k, k ∈ m ↔ k ∈ hashMap) ∧
        ∀ k ∈ hashMap, AList.lookup k m = some (f.lookup k)
  | .hgetall key => s.OnHash outcome s' key fun f out f' => ∃ m, out = .ok (.hash m) ∧ m.toFinmap = f ∧ f' = f
  | .hkeys key => s.OnHash outcome s' key fun f out f' =>
    ∃ l, out = .ok (.keyList l) ∧ l.Nodup ∧ l.toFinset = f.keys ∧ f' = f
  | .hvals key => s.OnHash outcome s' key fun f out f' =>
    ∃ l : List V, out = .ok (.values l) ∧ (l : Multiset V) = f.entries.map (·.2) ∧ f' = f
  | .hset key field value => s.OnHash outcome s' key fun f out f' =>
    out = .ok (.flag true) ∧ f' = f.insert field value
  | .hsetMany key hashMap =>
    if hashMap.entries = [] then s.Answers outcome s' (.flag false)
    else s.OnHash outcome s' key fun f out f' =>
      ∃ added, out = .ok (.flag added) ∧ (hashMap.keys.length < 2 ^ 63 → added = true) ∧ f' = hashMap.toFinmap ∪ f
  | .hdel key hashKey => s.OnHash outcome s' key fun f out f' =>
    out = .ok (.integer (if hashKey ∈ f then 1 else 0)) ∧ f' = f.erase hashKey
  | .hdelMany key hashKeys =>
    if hashKeys = [] then s.Answers outcome s' (.integer 0)
    else s.OnHash outcome s' key fun f out f' =>
      out = .ok (.integer (asLongLong (hashKeys.toFinset.filter (· ∈ f)).card)) ∧
        f' = hashKeys.foldl (fun f k => f.erase k) f
  | .zadd key members =>
    if members.entries = [] then s.Answers outcome s' (.integer 0) else s.AddsScores outcome s' key members
  | .zrem key members =>
    if members = [] then s.Answers outcome s' (.integer 0)
    else s.OnZset outcome s' key fun f out f' =>
      out = .ok (.integer (asLongLong (members.toFinset.filter (· ∈ f)).card)) ∧
        f' = members.foldl (fun f member => f.erase member) f
  | .zincrby key increment member => s.IncrementsScore outcome s' key increment member
  | .zscore key member => s.OnZset outcome s' key fun f out f' =>
    out = .ok (.optionalScore ((f.lookup member).map Score.value)) ∧ f' = f
  | .zrange key start stop => s.ReadsRanking outcome s' key tpl start stop false rankedMembers
  | .zrevrange key start stop => s.ReadsRanking outcome s' key tpl start stop true rankedMembers
  | .zrangeWithscores key start stop => s.ReadsRanking outcome s' key tpl start stop false rankedScores
  | .zrevrangeWithscores key start stop => s.ReadsRanking outcome s' key tpl start stop true rankedScores
  | .xadd key fields options => s.UnlessRejected outcome s' (TypedCall.xadd key fields options).Rejected
    (s.OnStream outcome s' key (StreamAction.xadd fields options) StreamAnswer.value)
  | .xlen key => s.OnStream outcome s' key (.ok .length) StreamAnswer.value
  | .xrange key start stop count => s.UnlessRejected outcome s' (BadCount count)
    (s.OnStream outcome s' key (StreamAction.xrange start stop false count) StreamAnswer.value)
  | .xrevrange key stop start count => s.UnlessRejected outcome s' (BadCount count)
    (s.OnStream outcome s' key (StreamAction.xrange start stop true count) StreamAnswer.value)
  | .xread streams options => s.UnlessRejected outcome s' (TypedCall.xread (V := V) streams options).Rejected
    (s.Reads outcome s' none streams options.count true)
  | .xdel key ids =>
    if ids = [] then s.Answers outcome s' (.integer 0)
    else s.OnStream outcome s' key (.ok (.delete ids)) StreamAnswer.value
  | .xtrim key options => s.UnlessRejected outcome s' (BadTrim options)
    (s.OnStream outcome s' key (StreamAction.xtrim options) StreamAnswer.value)
  | .xgroupCreate key group id mkstream =>
    s.OnStream outcome s' key (.ok (.createGroup group id mkstream)) StreamAnswer.value
  | .xgroupSetid key group id => s.OnStream outcome s' key (.ok (.setId group id)) StreamAnswer.value
  | .xgroupDestroy key group => s.OnStream outcome s' key (.ok (.destroyGroup group)) StreamAnswer.flag
  | .xgroupCreateconsumer key group consumer =>
    s.OnStream outcome s' key (.ok (.createConsumer group consumer)) StreamAnswer.flag
  | .xgroupDelconsumer key group consumer =>
    s.OnStream outcome s' key (.ok (.deleteConsumer group consumer)) StreamAnswer.value
  | .xreadgroup group consumer streams options => s.UnlessRejected outcome s'
    (TypedCall.xreadgroup (V := V) group consumer streams options).Rejected
    (s.Reads outcome s' (some (group, consumer)) streams options.count (!options.noack))
  | .xack key group ids =>
    if ids = [] then s.Answers outcome s' (.integer 0)
    else s.OnStream outcome s' key (.ok (.acknowledge group ids)) StreamAnswer.value
  | _ => False

end TypedKeyspace

/-- The methods that name what they work on, scripts apart. Streams are trimmed exactly and read without waiting, and no
    text stands where a server may take it for an option. -/
def TypedCall.InKeyspace {K V : Type} : TypedCall K V → Prop
  | .keys .. | .scan .. | .hscan .. | .eval .. | .execCmd .. => False
  | .xadd _ _ options => PlainId options.id ∧ ∀ trim, options.trim = some trim → PlainTrim trim
  | .xtrim _ options => PlainTrim options
  | .xread streams options => options.blockMs = none ∧ ∀ stream ∈ streams, stream.id ≠ "+"
  | .xreadgroup _ _ _ options => options.blockMs = none
  | _ => True

/-- The call sends or reads scores. -/
def TypedCall.PassesScores {K V : Type} : TypedCall K V → Prop
  | .zadd .. | .zincrby .. | .zscore .. | .zrangeWithscores .. | .zrevrangeWithscores .. => True
  | _ => False

end Redisdal
