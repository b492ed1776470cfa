import Redisdal.Operation
import Redisdal.Lib.MapM

/-! # What an operation sends

An operation answers without a command, rejects its arguments, or sends one command and interprets its
reply: `Operation.plan` says which, and `run_eq_plan` that the code does just that. -/

namespace Redisdal

/-- How the reply to a command becomes the result of the operation. -/
inductive Interpretation where
  | integer (command : Bytes)
  | flag (command : Bytes)
  | text (command : Bytes)
  | status (command : Bytes)
  | statusOk (command : Bytes)
  | set
  | hset
  | optionalText (command : Bytes)
  | texts (command : Bytes)
  | hash (command : Bytes)
  | score
  | optionalScore (command : Bytes)
  | scores (command : Bytes)
  | entries (command : Bytes)
  | batches (command : Bytes)
  | scan
  | keys (out : UnorderedSet Bytes)
  | hscan (out : UnorderedMap Bytes Bytes)
  | hmget (fields : List Bytes) (out : UnorderedMap Bytes (Option Bytes))
  | scriptLoad
  | evalSha1 (sha1 : Bytes)
  | raw

/-- What an operation does with its arguments. -/
inductive Plan where
  | answer (value : Value)
  | reject (e : Exn)
  | send (argv : List Bytes) (interpretation : Interpretation)

namespace Interpretation
variable [Platform]

def decode : Interpretation → CmdReply → Outcome Value
  | integer c, reply => (Client.integerReply c reply).map .integer
  | flag c, reply => (Client.flagReply c reply).map .flag
  | text c, reply => (Client.textReply c reply).map .text
  | status c, reply => (Client.statusReply c reply).map .text
  | statusOk c, reply => (Client.statusOkReply c reply).map .flag
  | set, reply => (Client.setReply reply).map .flag
  | hset, reply => (Client.hsetReply reply).map .flag
  | optionalText c, reply => (Client.optionalStringReply c reply).map .optionalText
  | texts c, reply => (Client.stringsReply c reply).map .texts
  | hash c, reply => (Client.hashReply c reply).map .hash
  | score, reply => (Client.zincrbyReply reply).map .score
  | optionalScore c, reply => (Client.optionalScoreReply c reply).map .optionalScore
  | scores c, reply => (Client.scoresReply c reply).map .scores
  | entries c, reply => (Client.streamEntriesReply c reply).map .entries
  | batches c, reply => (Client.streamBatchesReply c reply).map .batches
  | scan, reply => (Client.scanReply reply).map fun p => .scan p.1 p.2
  | keys out, reply => (Client.stringsReply "KEYS" reply).map fun values => .keys (Client.insertKeys out values)
  | hscan out, reply => (Client.hscanReply reply).map fun p => .hscan p.1 (out.emplaceAll (visit p.2))
  | hmget fields out, reply =>
    (Client.hmgetReply fields.length reply).map fun values => .optionalHash (out.insertAll (fields.zip values))
  | scriptLoad, reply => (CmdOps.scriptLoadReply reply).map .text
  | evalSha1 sha1, reply => (CmdOps.noScriptReply sha1 reply >>= Client.evalSha1Reply).map .reply
  | raw, reply => reply.orThrow.map .reply

end Interpretation

namespace Plan

/-- One command, unless its arguments are rejected. -/
def ofArguments (args : Outcome (List Bytes)) (i : Interpretation) : Plan :=
  match args with
  | .ok argv => send argv i
  | .error e => reject e

/-- One command, unless a collection is empty. -/
def unlessEmpty (empty : Bool) (value : Value) (plan : Plan) : Plan := if empty then answer value else plan

variable [Platform] {σ : Type} (E : Executor σ)

def run : Plan → Program Exn σ Value
  | answer value => pure value
  | reject e => Program.throw e
  | send argv i => (CmdOps.cmdExecv E argv).decode i.decode

end Plan

/-- The arguments of HSCAN. -/
def hscanArguments (key : Bytes) (cursor : UInt64) (pattern : Bytes) (count : UInt32) : List Bytes :=
  ["HSCAN", key, Bytes.decimal cursor.toNat, "MATCH", pattern, "COUNT", Bytes.decimal count.toNat]

variable [Platform]

/-- The fields that HMGET asks for, in the order in which it asks. -/
def hmgetFields (out : UnorderedMap Bytes (Option Bytes)) : List Bytes := (visit out).map Prod.fst

namespace Operation

/-- What each operation sends, and how it reads the reply. -/
def plan : Operation → Plan
  | .exists key => .send ["EXISTS", key] (.flag "EXISTS")
  | .keys pattern out => .send ["KEYS", pattern] (.keys out)
  | .scan cursor pattern count =>
    .send ["SCAN", Bytes.decimal cursor.toNat, "MATCH", pattern, "COUNT", Bytes.decimal count.toNat] .scan
  | .type key => .send ["TYPE", key] (.status "TYPE")
  | .expire key seconds => .send ["EXPIRE", key, Bytes.decimalInt seconds] (.flag "EXPIRE")
  | .pexpire key milliseconds => .send ["PEXPIRE", key, Bytes.decimalInt milliseconds] (.flag "PEXPIRE")
  | .ttl key => .send ["TTL", key] (.integer "TTL")
  | .pttl key => .send ["PTTL", key] (.integer "PTTL")
  | .persist key => .send ["PERSIST", key] (.flag "PERSIST")
  | .ping => .send ["PING"] (.text "PING")
  | .pingMessage message => .send ["PING", message] (.text "PING")
  | .del key => .send ["DEL", key] (.integer "DEL")
  | .delMany ks => .unlessEmpty ks.isEmpty (.integer 0) (.send ("DEL" :: ks) (.integer "DEL"))
  | .set key value => .send ["SET", key, value] .set
  | .setNotExists key value => .send ["SET", key, value, "NX"] .set
  | .setEx key value seconds => .send ["SET", key, value, "EX", Bytes.decimalInt seconds] .set
  | .setPx key value milliseconds => .send ["SET", key, value, "PX", Bytes.decimalInt milliseconds] .set
  | .get key => .send ["GET", key] (.optionalText "GET")
  | .getset key newValue => .send ["GETSET", key, newValue] (.optionalText "GETSET")
  | .incr key delta => .send ["INCRBY", key, Bytes.decimalInt delta] (.integer "INCRBY")
  | .decr key delta => .send ["DECRBY", key, Bytes.decimalInt delta] (.integer "DECRBY")
  | .append key value => .send ["APPEND", key, value] (.integer "APPEND")
  | .hget key hashKey => .send ["HGET", key, hashKey] (.optionalText "HGET")
  | .hgetMany key hashMap =>
    .unlessEmpty hashMap.entries.isEmpty (.optionalHash hashMap)
      (.send ("HMGET" :: key :: hmgetFields hashMap) (.hmget (hmgetFields hashMap) hashMap))
  | .hset key field value => .send ["HSET", key, field, value] .hset
  | .hsetMany key hashMap =>
    .unlessEmpty hashMap.entries.isEmpty (.flag false) (.send (CmdOps.hsetArguments key hashMap) .hset)
  | .hgetall key => .send ["HGETALL", key] (.hash "HGETALL")
  | .hkeys key => .send ["HKEYS", key] (.texts "HKEYS")
  | .hvals key => .send ["HVALS", key] (.texts "HVALS")
  | .hscan key cursor pattern count hashMap =>
    .send (hscanArguments key cursor pattern count) (.hscan hashMap)
  | .hdel key hashKey => .send ["HDEL", key, hashKey] (.integer "HDEL")
  | .hdelMany key hashKeys =>
    .unlessEmpty hashKeys.isEmpty (.integer 0) (.send ("HDEL" :: key :: hashKeys) (.integer "HDEL"))
  | .lpushMany key values =>
    if values.isEmpty then .send ["LLEN", key] (.integer "LLEN")
    else .send ("LPUSH" :: key :: values) (.integer "LPUSH")
  | .lpush key value => .send ["LPUSH", key, value] (.integer "LPUSH")
  | .rpush key value => .send ["RPUSH", key, value] (.integer "RPUSH")
  | .rpushMany key values =>
    if values.isEmpty then .send ["LLEN", key] (.integer "LLEN")
    else .send ("RPUSH" :: key :: values) (.integer "RPUSH")
  | .lpop key => .send ["LPOP", key] (.optionalText "LPOP")
  | .rpop key => .send ["RPOP", key] (.optionalText "RPOP")
  | .lpopCount key count => .send ["LPOP", key, Bytes.decimalInt count] (.texts "LPOP")
  | .rpopCount key count => .send ["RPOP", key, Bytes.decimalInt count] (.texts "RPOP")
  | .lrange key start stop => .send ["LRANGE", key, Bytes.decimalInt start, Bytes.decimalInt stop] (.texts "LRANGE")
  | .llen key => .send ["LLEN", key] (.integer "LLEN")
  | .lindex key index => .send ["LINDEX", key, Bytes.decimalInt index] (.optionalText "LINDEX")
  | .sadd key members => .unlessEmpty members.isEmpty (.integer 0) (.send ("SADD" :: key :: members) (.integer "SADD"))
  | .srem key members => .unlessEmpty members.isEmpty (.integer 0) (.send ("SREM" :: key :: members) (.integer "SREM"))
  | .smembers key => .send ["SMEMBERS", key] (.texts "SMEMBERS")
  | .scard key => .send ["SCARD", key] (.integer "SCARD")
  | .sismember key member => .send ["SISMEMBER", key, member] (.flag "SISMEMBER")
  | .spop key => .send ["SPOP", key] (.optionalText "SPOP")
  | .sinter ks => .unlessEmpty ks.isEmpty (.texts []) (.send ("SINTER" :: ks) (.texts "SINTER"))
  | .zadd key members =>
    .unlessEmpty members.entries.isEmpty (.integer 0)
      (.ofArguments (CmdOps.zaddArguments key members) (.integer "ZADD"))
  | .zrem key members => .unlessEmpty members.isEmpty (.integer 0) (.send ("ZREM" :: key :: members) (.integer "ZREM"))
  | .zscore key member => .send ["ZSCORE", key, member] (.optionalScore "ZSCORE")
  | .zrange key start stop => .send ["ZRANGE", key, Bytes.decimalInt start, Bytes.decimalInt stop] (.texts "ZRANGE")
  | .zrevrange key start stop =>
    .send ["ZREVRANGE", key, Bytes.decimalInt start, Bytes.decimalInt stop] (.texts "ZREVRANGE")
  | .zrangeWithscores key start stop =>
    .send ["ZRANGE", key, Bytes.decimalInt start, Bytes.decimalInt stop, "WITHSCORES"] (.scores "ZRANGE")
  | .zrevrangeWithscores key start stop =>
    .send ["ZREVRANGE", key, Bytes.decimalInt start, Bytes.decimalInt stop, "WITHSCORES"] (.scores "ZREVRANGE")
  | .zincrby key increment member => .send ["ZINCRBY", key, Platform.toCharsDouble increment, member] .score
  | .xadd key fields options => .ofArguments (CmdOps.xaddArguments key fields options) (.optionalText "XADD")
  | .xlen key => .send ["XLEN", key] (.integer "XLEN")
  | .xrange key start stop count =>
    .ofArguments (CmdOps.appendStreamCount ["XRANGE", key, start, stop] count "XRANGE") (.entries "XRANGE")
  | .xrevrange key stop start count =>
    .ofArguments (CmdOps.appendStreamCount ["XREVRANGE", key, stop, start] count "XREVRANGE") (.entries "XREVRANGE")
  | .xread streams options => .ofArguments (CmdOps.xreadArguments streams options) (.batches "XREAD")
  | .xdel key ids => .unlessEmpty ids.isEmpty (.integer 0) (.send ("XDEL" :: key :: ids) (.integer "XDEL"))
  | .xtrim key options => .ofArguments (CmdOps.appendStreamTrim ["XTRIM", key] options "XTRIM") (.integer "XTRIM")
  | .xgroupCreate key group id mkstream =>
    .send (if mkstream then ["XGROUP", "CREATE", key, group, id, "MKSTREAM"]
      else ["XGROUP", "CREATE", key, group, id]) (.statusOk "XGROUP CREATE")
  | .xgroupSetid key group id => .send ["XGROUP", "SETID", key, group, id] (.statusOk "XGROUP SETID")
  | .xgroupDestroy key group => .send ["XGROUP", "DESTROY", key, group] (.flag "XGROUP DESTROY")
  | .xgroupCreateconsumer key group consumer =>
    .send ["XGROUP", "CREATECONSUMER", key, group, consumer] (.flag "XGROUP CREATECONSUMER")
  | .xgroupDelconsumer key group consumer =>
    .send ["XGROUP", "DELCONSUMER", key, group, consumer] (.integer "XGROUP DELCONSUMER")
  | .xreadgroup group consumer streams options =>
    .ofArguments (CmdOps.xreadgroupArguments group consumer streams options) (.batches "XREADGROUP")
  | .xack key group ids =>
    .unlessEmpty ids.isEmpty (.integer 0) (.send ("XACK" :: key :: group :: ids) (.integer "XACK"))
  | .scriptLoad script => .send ["SCRIPT", "LOAD", script] .scriptLoad
  | .evalSha1 sha1 ks args => .ofArguments (CmdOps.scriptArguments "EVALSHA" sha1 ks args) (.evalSha1 sha1)
  | .eval script ks args => .ofArguments (CmdOps.scriptArguments "EVAL" script ks args) .raw
  | .command cmd args => .send (cmd :: args) .raw

end Operation

theorem zaddArguments_eq (key : Bytes) (members : UnorderedMap Bytes Double) :
    CmdOps.zaddArguments key members = .ok ((("ZADD" : Bytes) :: key :: (visit members).flatMap fun member =>
      [Platform.toCharsDouble member.2, member.1])) := by
  unfold CmdOps.zaddArguments
  rw [Except.mapM_eq_map (g := fun member : Bytes × Double => [Platform.toCharsDouble member.2, member.1])]
  · rw [Except.ok_bind, ← List.flatMap_def]
    rfl
  · intro member _
    rw [doubleToString_eq]
    rfl

/-! ### The code follows the plan -/

section Plans
variable {σ α : Type} (E : Executor σ)

omit [Platform] in
theorem run_decode_of_reply {argv : List Bytes} {f : CmdReply → Outcome α} {reply : Reply} {s t : σ}
    (h : (E argv).run s = (.ok reply, t)) :
    ((CmdOps.cmdExecv E argv).decode f).run s = (f reply.toCmdReply, t) := by
  rw [Program.run_decode, CmdOps.cmdExecv, Program.run_bind, h]
  rfl

theorem map_decode_send (argv : List Bytes) (f : CmdReply → Outcome α) (g : α → Value) {i : Interpretation}
    (hi : ∀ reply, (f reply).map g = i.decode reply) :
    g <$> (CmdOps.cmdExecv E argv).decode f = (Plan.send argv i).run E := by
  rw [Program.map_decode]
  exact congrArg (Program.decode _) (funext hi)

theorem map_decode_ofArguments (args : Outcome (List Bytes)) (f : CmdReply → Outcome α) (g : α → Value)
    {i : Interpretation} (hi : ∀ reply, (f reply).map g = i.decode reply) :
    g <$> (Program.ofExcept args >>= CmdOps.cmdExecv E).decode f = (Plan.ofArguments args i).run E := by
  cases args with
  | error e => rfl
  | ok argv => exact map_decode_send E argv f g hi

theorem map_unlessEmpty (empty : Bool) (a : α) (p : Program Exn σ α) (g : α → Value) {plan : Plan}
    (h : empty = false → g <$> p = plan.run E) :
    g <$> (if empty then pure a else p) = (Plan.unlessEmpty empty (g a) plan).run E := by
  cases empty
  · exact h rfl
  · rfl

omit [Platform] in
theorem run_storeAll (fields : List Bytes) (values : List (Option Bytes)) (m : UnorderedMap Bytes (Option Bytes))
    (s : σ) (hlen : values.length = fields.length) (hmem : ∀ field ∈ fields, field ∈ m) :
    (Client.storeAll fields values).run (m, s) = (.ok (), (m.insertAll (fields.zip values), s)) := by
  induction fields generalizing values m with
  | nil =>
    rw [List.length_eq_zero_iff.mp hlen]
    rfl
  | cons field fields ih =>
    obtain ⟨value, values, rfl⟩ := List.exists_cons_of_length_eq_add_one hlen
    have hstore : (Client.storeAt field value).run (m, s) = (.ok (), (m.insert field value, s)) := by
      unfold Client.storeAt
      rw [Program.run_bind, Program.run_get, Program.resume_ok, if_pos (hmem field List.mem_cons_self)]
      rfl
    rw [Client.storeAll, Program.run_bind, hstore, Program.resume_ok,
      ih values _ (by simpa using hlen) fun f hf => by simp [hmem f (List.mem_cons_of_mem _ hf)]]
    rfl

omit [Platform] in
theorem length_hmgetReply {size : Nat} {reply : CmdReply} {values : List (Option Bytes)}
    (h : Client.hmgetReply size reply = .ok values) : values.length = size := by
  unfold Client.hmgetReply at h
  cases ht : reply.throwIfError with
  | error e => rw [ht] at h; cases h
  | ok u =>
    cases ha : reply.asArray "HMGET" with
    | error e => rw [ht, ha] at h; cases h
    | ok items =>
      rw [ht, ha] at h
      simp only [Except.ok_bind] at h
      split at h
      · cases h
      · next hlen => rw [← (Except.mapM_eq_ok_iff.mp h).length_eq, not_not.mp hlen]

omit [Platform] in
theorem withLocal_keys (pattern : Bytes) (out : UnorderedSet Bytes) :
    Program.withLocal out (Client.keys E pattern) = (CmdOps.cmdExecv E ["KEYS", pattern]).decode fun reply =>
      (Client.stringsReply "KEYS" reply).map fun values => ((), Client.insertKeys out values) :=
  Program.withLocal_lift _ _ _ _ _ fun _ _ _ _ => rfl

theorem withLocal_hscan (key : Bytes) (cursor : UInt64) (pattern : Bytes) (count : UInt32)
    (out : UnorderedMap Bytes Bytes) :
    Program.withLocal out (Client.hscan E key cursor pattern count) =
      (CmdOps.cmdExecv E (hscanArguments key cursor pattern count)).decode fun reply =>
        (Client.hscanReply reply).map fun page => (page.1, out.emplaceAll (visit page.2)) :=
  Program.withLocal_lift _ _ _ _ _ fun _ _ _ _ => rfl

theorem length_hmgetFields (out : UnorderedMap Bytes (Option Bytes)) :
    (hmgetFields out).length = out.entries.length := by
  rw [hmgetFields, List.length_map, (visit_perm out).length_eq, UnorderedMap.pairs, List.length_map]

theorem mem_hmgetFields {out : UnorderedMap Bytes (Option Bytes)} {field : Bytes} :
    field ∈ hmgetFields out ↔ field ∈ out := by
  rw [AList.mem_keys, ← UnorderedMap.map_fst_pairs, hmgetFields, ((visit_perm out).map Prod.fst).mem_iff]

theorem withLocal_hgetMany_of_empty (key : Bytes) {out : UnorderedMap Bytes (Option Bytes)}
    (h : out.entries.isEmpty = true) : Program.withLocal out (Client.hgetMany E key) = pure ((), out) := by
  ext1
  funext s
  rw [Program.run_withLocal, Client.hgetMany, Program.run_bind, Program.run_get, Program.resume_ok, if_pos h]
  rfl

theorem withLocal_hgetMany (key : Bytes) {out : UnorderedMap Bytes (Option Bytes)}
    (h : out.entries.isEmpty = false) :
    Program.withLocal out (Client.hgetMany E key) =
      (CmdOps.cmdExecv E ("HMGET" :: key :: hmgetFields out)).decode fun reply =>
        (Client.hmgetReply (hmgetFields out).length reply).map fun values =>
          ((), out.insertAll ((hmgetFields out).zip values)) := by
  have hbody : Program.withLocal out (Client.hgetMany E key) = Program.withLocal out
      (((CmdOps.cmdExecv E ("HMGET" :: key :: hmgetFields out)).decode
        (Client.hmgetReply out.entries.length)).lift >>= Client.storeAll (hmgetFields out)) := by
    ext1
    funext s
    rw [Program.run_withLocal, Client.hgetMany, Program.run_bind, Program.run_get, Program.resume_ok,
      if_neg (by simp [h])]
    rfl
  rw [hbody, ← length_hmgetFields]
  exact Program.withLocal_lift _ _ _ _ _ fun reply values s hr =>
    run_storeAll _ values out s (length_hmgetReply hr) fun field hfield => mem_hmgetFields.mp hfield

omit [Platform] in
/-- The result of an operation with an out-parameter holds what becomes of it. -/
theorem map_map_decode {β : Type} (f : CmdReply → Outcome α) (result : α → β) (g : β → Value) (argv : List Bytes) :
    g <$> ((CmdOps.cmdExecv E argv).decode fun reply => (f reply).map result) =
      (CmdOps.cmdExecv E argv).decode fun reply => (f reply).map fun a => g (result a) := by
  rw [Program.map_decode]
  congr 1
  funext reply
  cases f reply <;> rfl

end Plans

namespace Operation
variable {σ : Type} (E : Executor σ)

omit [Platform] in
/-- A guard of the command layer that the guard of the client has already passed. -/
theorem ite_of_eq_false {α : Type} {b : Bool} (h : b = false) (x y : α) : (if b then x else y) = y := by
  rw [h]
  rfl

/-- An operation does what its plan says, whatever the executor. -/
theorem run_eq_plan (op : Operation) : op.run E = op.plan.run E := by
  cases op with
  | keys pattern out =>
    show (fun p => Value.keys p.2) <$> Program.withLocal out (Client.keys E pattern) = _
    rw [withLocal_keys, map_map_decode]
    rfl
  | hscan key cursor pattern count out =>
    show (fun p => Value.hscan p.1 p.2) <$> Program.withLocal out (Client.hscan E key cursor pattern count) = _
    rw [withLocal_hscan, map_map_decode]
    rfl
  | hgetMany key out =>
    show (fun p => Value.optionalHash p.2) <$> Program.withLocal out (Client.hgetMany E key) = _
    cases hempty : out.entries.isEmpty with
    | true =>
      rw [withLocal_hgetMany_of_empty E key hempty, plan, Plan.unlessEmpty, if_pos hempty]
      rfl
    | false =>
      rw [withLocal_hgetMany E key hempty, map_map_decode, plan, Plan.unlessEmpty, if_neg (by simp [hempty])]
      rfl
  | hsetMany key hashMap =>
    refine map_unlessEmpty E _ _ _ _ fun h => ?_
    rw [show CmdOps.hsetMany E key hashMap = _ from ite_of_eq_false h _ _]
    exact map_decode_send E _ _ _ fun _ => rfl
  | hdelMany key hashKeys =>
    refine map_unlessEmpty E _ _ _ _ fun h => ?_
    rw [show CmdOps.hdelMany E key hashKeys = _ from ite_of_eq_false h _ _]
    exact map_decode_send E _ _ _ fun _ => rfl
  | xdel key ids =>
    refine map_unlessEmpty E _ _ _ _ fun h => ?_
    rw [show CmdOps.xdel E key ids = _ from ite_of_eq_false h _ _]
    exact map_decode_send E _ _ _ fun _ => rfl
  | xack key group ids =>
    refine map_unlessEmpty E _ _ _ _ fun h => ?_
    rw [show CmdOps.xack E key group ids = _ from ite_of_eq_false h _ _]
    exact map_decode_send E _ _ _ fun _ => rfl
  | lpushMany key values =>
    cases values with
    | nil => exact map_decode_send E ["LLEN", key] (Client.integerReply "LLEN") _ fun _ => rfl
    | cons v values =>
      exact map_decode_send E ("LPUSH" :: key :: v :: values) (Client.integerReply "LPUSH") _ fun _ => rfl
  | rpushMany key values =>
    cases values with
    | nil => exact map_decode_send E ["LLEN", key] (Client.integerReply "LLEN") _ fun _ => rfl
    | cons v values =>
      exact map_decode_send E ("RPUSH" :: key :: v :: values) (Client.integerReply "RPUSH") _ fun _ => rfl
  | delMany | sadd | srem | sinter | zrem =>
    exact map_unlessEmpty E _ _ _ _ fun _ => map_decode_send E _ _ _ fun _ => rfl
  | zadd key members =>
    exact map_unlessEmpty E _ _ _ _ fun _ => map_decode_ofArguments E _ _ _ fun _ => rfl
  | zincrby key increment member =>
    show Value.score <$> (CmdOps.zincrby E key increment member).decode Client.zincrbyReply = _
    unfold CmdOps.zincrby
    rw [doubleToString_eq]
    exact map_decode_send E _ _ _ fun _ => rfl
  | evalSha1 sha1 ks args =>
    show Value.reply <$> (CmdOps.evalSha1 E sha1 ks args).decode Client.evalSha1Reply =
      (Plan.ofArguments (CmdOps.scriptArguments "EVALSHA" sha1 ks args) _).run E
    unfold CmdOps.evalSha1
    cases CmdOps.scriptArguments "EVALSHA" sha1 ks args with
    | error e => rfl
    | ok argv =>
      show Value.reply <$> ((CmdOps.cmdExecv E argv).decode (CmdOps.noScriptReply sha1)).decode Client.evalSha1Reply = _
      rw [Program.decode_decode]
      exact map_decode_send E _ _ _ fun _ => rfl
  | xadd | xrange | xrevrange | xread | xtrim | xreadgroup | eval =>
    refine map_decode_ofArguments E _ _ _ ?_
    exact fun _ => rfl
  | _ =>
    refine map_decode_send E _ _ _ ?_
    exact fun _ => rfl

/-! ### Which operations interpret a reply in a way of their own -/

omit [Platform] in
theorem eq_send_of_unlessEmpty {empty : Bool} {v : Value} {plan : Plan} {argv : List Bytes} {i : Interpretation}
    (h : Plan.unlessEmpty empty v plan = .send argv i) : empty = false ∧ plan = .send argv i := by
  cases empty
  · exact ⟨rfl, h⟩
  · cases h

omit [Platform] in
theorem interpretation_of_ofArguments {args : Outcome (List Bytes)} {argv : List Bytes} {i j : Interpretation}
    (h : Plan.ofArguments args j = .send argv i) : j = i := by
  cases args <;> cases h
  rfl

/-- The operations that read their replies with `i`, where few do. -/
def ReadsWith (op : Operation) : Interpretation → Prop
  | .set => (∃ k v, op = .set k v) ∨ (∃ k v, op = .setNotExists k v) ∨ (∃ k v n, op = .setEx k v n) ∨
      ∃ k v n, op = .setPx k v n
  | .hset => (∃ k f v, op = .hset k f v) ∨ ∃ k m, m.entries ≠ [] ∧ op = .hsetMany k m
  | .scan => ∃ cursor pattern count, op = .scan cursor pattern count
  | .hscan out => ∃ k cursor pattern count, op = .hscan k cursor pattern count out
  | .scores c => (c = "ZRANGE" ∧ ∃ k start stop, op = .zrangeWithscores k start stop) ∨
      (c = "ZREVRANGE" ∧ ∃ k start stop, op = .zrevrangeWithscores k start stop)
  | .evalSha1 sha1 => ∃ ks args, op = .evalSha1 sha1 ks args
  | .raw => (∃ script ks args, op = .eval script ks args) ∨ ∃ cmd args, op = .command cmd args
  | _ => True

theorem readsWith_of_plan {op : Operation} {argv : List Bytes} {i : Interpretation} (h : op.plan = .send argv i) :
    op.ReadsWith i := by
  cases op with
  | delMany | hdelMany | sadd | srem | zrem | xdel | xack | sinter | hgetMany =>
    cases (eq_send_of_unlessEmpty h).2
    trivial
  | hsetMany k m =>
    obtain ⟨hempty, hsend⟩ := eq_send_of_unlessEmpty h
    cases hsend
    exact Or.inr ⟨k, m, fun he => by simp [he] at hempty, rfl⟩
  | zadd =>
    cases interpretation_of_ofArguments (eq_send_of_unlessEmpty h).2
    trivial
  | xadd | xtrim | xrange | xrevrange | xread | xreadgroup =>
    cases interpretation_of_ofArguments h
    trivial
  | eval script ks args =>
    cases interpretation_of_ofArguments h
    exact Or.inl ⟨_, _, _, rfl⟩
  | evalSha1 sha1 ks args =>
    cases interpretation_of_ofArguments h
    exact ⟨_, _, rfl⟩
  | lpushMany k values | rpushMany k values => cases values <;> cases h <;> trivial
  | set => cases h; exact Or.inl ⟨_, _, rfl⟩
  | setNotExists => cases h; exact Or.inr (Or.inl ⟨_, _, rfl⟩)
  | setEx => cases h; exact Or.inr (Or.inr (Or.inl ⟨_, _, _, rfl⟩))
  | setPx => cases h; exact Or.inr (Or.inr (Or.inr ⟨_, _, _, rfl⟩))
  | hset => cases h; exact Or.inl ⟨_, _, _, rfl⟩
  | scan => cases h; exact ⟨_, _, _, rfl⟩
  | hscan => cases h; exact ⟨_, _, _, _, rfl⟩
  | zrangeWithscores => cases h; exact Or.inl ⟨rfl, _, _, _, rfl⟩
  | zrevrangeWithscores => cases h; exact Or.inr ⟨rfl, _, _, _, rfl⟩
  | command => cases h; exact Or.inr ⟨_, _, rfl⟩
  | _ =>
    cases h
    trivial

end Operation

section Executions
variable {σ : Type} {op : Operation} {E : Executor σ} {s t : σ} {argv : List Bytes} {i : Interpretation}

theorem run_of_reply {reply : Reply} (hp : op.plan = .send argv i) (hr : (E argv).run s = (.ok reply, t)) :
    (op.run E).run s = (i.decode reply.toCmdReply, t) := by
  rw [Operation.run_eq_plan, hp]
  exact run_decode_of_reply _ hr

theorem run_of_throw {e : Exn} (hp : op.plan = .send argv i) (hr : (E argv).run s = (.error e, t)) :
    (op.run E).run s = (.error e, t) := by
  rw [Operation.run_eq_plan, hp]
  show Program.resume _ (Program.resume _ ((E argv).run s)) = _
  rw [hr]
  rfl

end Executions

end Redisdal
