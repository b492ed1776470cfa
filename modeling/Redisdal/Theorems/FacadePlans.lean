import Redisdal.Facade
import Redisdal.Theorems.OutParameters

/-! # What a method of the facade does

A method of the typed facade serializes its arguments, calls one operation of the string client, and deserializes
what that returns: `TypedCall.plan` says which operation and how, and `run_eq_plan` that the code does just that. -/

namespace Redisdal

/-- What a method does with its arguments. -/
inductive TypedPlan (K V : Type) where
  | answer (value : TypedValue K V)
  | reject (e : Exn)
  | call (op : Operation) (result : Value → Outcome (TypedValue K V))

namespace TypedPlan
variable {K V : Type}

/-- One operation, unless an argument cannot be serialized. -/
def ofRequest (request : Outcome Operation) (result : Value → Outcome (TypedValue K V)) : TypedPlan K V :=
  match request with
  | .ok op => call op result
  | .error e => reject e

def run [Platform] {σ : Type} (E : Executor σ) : TypedPlan K V → Program Exn σ (TypedValue K V)
  | answer value => pure value
  | reject e => Program.throw e
  | call op result => (op.run E).decode result

end TypedPlan

/-! ### Results -/

namespace Value
variable {K V : Type}

/-- A result that needs no serializer. -/
def plain : Value → Outcome (TypedValue K V)
  | flag value => pure (.flag value)
  | integer value => pure (.integer value)
  | text value => pure (.text value)
  | optionalText value => pure (.id value)
  | score value => pure (.score value)
  | optionalScore value => pure (.optionalScore value)
  | reply value => pure (.reply value)
  | _ => .error .undefinedBehavior

variable (tpl : Template K V)

def typedValue : Value → Outcome (TypedValue K V)
  | optionalText value => (value.mapM tpl.deserializeValue).map .value
  | _ => .error .undefinedBehavior

def typedValues : Value → Outcome (TypedValue K V)
  | texts values => (values.mapM tpl.deserializeValue).map .values
  | _ => .error .undefinedBehavior

def typedKeyList : Value → Outcome (TypedValue K V)
  | texts values => (values.mapM tpl.deserializeKey).map .keyList
  | _ => .error .undefinedBehavior

variable [Platform]

def typedScores : Value → Outcome (TypedValue K V)
  | scores values => (values.mapM (ZsetOperations.deserializeMember tpl)).map .scores
  | _ => .error .undefinedBehavior

def typedEntries : Value → Outcome (TypedValue K V)
  | entries values => (StreamOperations.deserializeEntries tpl values).map .entries
  | _ => .error .undefinedBehavior

def typedBatches : Value → Outcome (TypedValue K V)
  | batches values => (StreamOperations.deserializeBatches tpl values).map .batches
  | _ => .error .undefinedBehavior

variable [DecidableEq K]

def typedScan : Value → Outcome (TypedValue K V)
  | scan cursor found =>
    (((visit found).map Prod.fst).mapM tpl.deserializeKey).map fun ks => .scan cursor (Client.insertKeys ∅ ks)
  | _ => .error .undefinedBehavior

def typedKeys (out : UnorderedSet K) : Value → Outcome (TypedValue K V)
  | keys found => (((visit found).map Prod.fst).mapM tpl.deserializeKey).map fun ks => .keys (Client.insertKeys out ks)
  | _ => .error .undefinedBehavior

def typedHash : Value → Outcome (TypedValue K V)
  | hash rawMap =>
    ((visit rawMap).mapM (HashOperations.fieldAndValue tpl)).map fun fields => .hash (UnorderedMap.emplaceAll ∅ fields)
  | _ => .error .undefinedBehavior

/-- A typed `hscan` replaces what its out-parameter held. -/
def typedHscan : Value → Outcome (TypedValue K V)
  | hscan cursor found =>
    ((visit found).mapM (HashOperations.fieldAndValue tpl)).map fun fields =>
      .hscan cursor (UnorderedMap.emplaceAll ∅ fields)
  | _ => .error .undefinedBehavior

def typedOptionalHash (out : UnorderedMap K (Option V)) : Value → Outcome (TypedValue K V)
  | optionalHash found =>
    ((visit found).mapM (decodeField tpl out)).map fun fields => .optionalHash (out.insertAll fields.reduceOption)
  | _ => .error .undefinedBehavior

end Value

/-! ### Plans -/

namespace TypedCall
variable {K V : Type} (tpl : Template K V)

/-- Serialized arguments, and then the serialized key. -/
def thenKey {α : Type} (args : Outcome α) (key : K) : Outcome (α × Bytes) := do
  let args ← args
  let sKey ← tpl.serializeKey key
  pure (args, sKey)

/-- The serialized keys and arguments of a script. -/
def scriptRequest (keys : List K) (args : List V) : Outcome (List Bytes × List Bytes) := do
  let sKeys ← keys.mapM tpl.serializeKey
  let sArgs ← args.mapM tpl.serializeValue
  pure (sKeys, sArgs)

variable [Platform] [DecidableEq K]

/-- The operation that each method calls, and what it makes of the result. -/
def plan : TypedCall K V → TypedPlan K V
  | .exists key => .ofRequest ((tpl.serializeKey key).map .exists) Value.plain
  | .keys pattern out => .call (.keys pattern ∅) (Value.typedKeys tpl out)
  | .scan cursor pattern count => .call (.scan cursor pattern count) (Value.typedScan tpl)
  | .type key => .ofRequest ((tpl.serializeKey key).map .type) Value.plain
  | .expire key seconds => .ofRequest ((tpl.serializeKey key).map (.expire · seconds)) Value.plain
  | .pexpire key milliseconds => .ofRequest ((tpl.serializeKey key).map (.pexpire · milliseconds)) Value.plain
  | .ttl key => .ofRequest ((tpl.serializeKey key).map .ttl) Value.plain
  | .pttl key => .ofRequest ((tpl.serializeKey key).map .pttl) Value.plain
  | .persist key => .ofRequest ((tpl.serializeKey key).map .persist) Value.plain
  | .ping => .call .ping Value.plain
  | .pingMessage message => .call (.pingMessage message) Value.plain
  | .del key => .ofRequest ((tpl.serializeKey key).map .del) Value.plain
  | .delMany ks => .ofRequest ((ks.mapM tpl.serializeKey).map .delMany) Value.plain
  | .eval script ks args => .ofRequest ((scriptRequest tpl ks args).map fun p => .eval script p.1 p.2) Value.plain
  | .execCmd cmd args => .call (.command cmd args) Value.plain
  | .set key value => .ofRequest ((ValueOperations.keyAndValue tpl key value).map fun p => .set p.1 p.2) Value.plain
  | .get key => .ofRequest ((tpl.serializeKey key).map .get) (Value.typedValue tpl)
  | .incr key delta => .ofRequest ((tpl.serializeKey key).map (.incr · delta)) Value.plain
  | .decr key delta => .ofRequest ((tpl.serializeKey key).map (.decr · delta)) Value.plain
  | .append key value =>
    .ofRequest ((ValueOperations.keyAndValue tpl key value).map fun p => .append p.1 p.2) Value.plain
  | .getAndSet key value =>
    .ofRequest ((ValueOperations.keyAndValue tpl key value).map fun p => .getset p.1 p.2) (Value.typedValue tpl)
  | .hget key hashKey =>
    .ofRequest ((HashOperations.keyAndField tpl key hashKey).map fun p => .hget p.1 p.2) (Value.typedValue tpl)
  | .hgetMany key out =>
    if out.entries.isEmpty then .answer (.optionalHash out)
    else .ofRequest ((thenKey tpl (serializedFields tpl out) key).map fun p => .hgetMany p.2 (fieldMap p.1))
      (Value.typedOptionalHash tpl out)
  | .hgetall key => .ofRequest ((tpl.serializeKey key).map .hgetall) (Value.typedHash tpl)
  | .hkeys key => .ofRequest ((tpl.serializeKey key).map .hkeys) (Value.typedKeyList tpl)
  | .hvals key => .ofRequest ((tpl.serializeKey key).map .hvals) (Value.typedValues tpl)
  | .hscan key cursor pattern count _ =>
    .ofRequest ((HashOperations.keyAndField tpl key pattern).map fun p => .hscan p.1 cursor p.2 count ∅)
      (Value.typedHscan tpl)
  | .hset key field value =>
    .ofRequest ((bothArguments (tpl.serializeKey key)
      (bothArguments (tpl.serializeKey field) (tpl.serializeValue value))).map fun p => .hset p.1 p.2.1 p.2.2)
      Value.plain
  | .hsetMany key hashMap =>
    .ofRequest ((thenKey tpl ((visit hashMap).mapM fun pair =>
      bothArguments (tpl.serializeKey pair.1) (tpl.serializeValue pair.2)) key).map fun p =>
        .hsetMany p.2 (UnorderedMap.emplaceAll ∅ p.1)) Value.plain
  | .hdel key hashKey =>
    .ofRequest ((HashOperations.keyAndField tpl key hashKey).map fun p => .hdel p.1 p.2) Value.plain
  | .hdelMany key hashKeys =>
    .ofRequest ((thenKey tpl (hashKeys.mapM tpl.serializeKey) key).map fun p => .hdelMany p.2 p.1) Value.plain
  | .lpushMany key values =>
    .ofRequest ((thenKey tpl (values.mapM tpl.serializeValue) key).map fun p => .lpushMany p.2 p.1) Value.plain
  | .lpush key value =>
    .ofRequest ((ValueOperations.keyAndValue tpl key value).map fun p => .lpush p.1 p.2) Value.plain
  | .rpush key value =>
    .ofRequest ((ValueOperations.keyAndValue tpl key value).map fun p => .rpush p.1 p.2) Value.plain
  | .rpushMany key values =>
    .ofRequest ((thenKey tpl (values.mapM tpl.serializeValue) key).map fun p => .rpushMany p.2 p.1) Value.plain
  | .lpop key => .ofRequest ((tpl.serializeKey key).map .lpop) (Value.typedValue tpl)
  | .rpop key => .ofRequest ((tpl.serializeKey key).map .rpop) (Value.typedValue tpl)
  | .lpopCount key count => .ofRequest ((tpl.serializeKey key).map (.lpopCount · count)) (Value.typedValues tpl)
  | .rpopCount key count => .ofRequest ((tpl.serializeKey key).map (.rpopCount · count)) (Value.typedValues tpl)
  | .lrange key start stop => .ofRequest ((tpl.serializeKey key).map (.lrange · start stop)) (Value.typedValues tpl)
  | .llen key => .ofRequest ((tpl.serializeKey key).map .llen) Value.plain
  | .lindex key index => .ofRequest ((tpl.serializeKey key).map (.lindex · index)) (Value.typedValue tpl)
  | .sadd key members =>
    .ofRequest ((thenKey tpl (members.mapM tpl.serializeValue) key).map fun p => .sadd p.2 p.1) Value.plain
  | .srem key members =>
    .ofRequest ((thenKey tpl (members.mapM tpl.serializeValue) key).map fun p => .srem p.2 p.1) Value.plain
  | .spop key => .ofRequest ((tpl.serializeKey key).map .spop) (Value.typedValue tpl)
  | .smembers key => .ofRequest ((tpl.serializeKey key).map .smembers) (Value.typedValues tpl)
  | .scard key => .ofRequest ((tpl.serializeKey key).map .scard) Value.plain
  | .sismember key member =>
    .ofRequest ((ValueOperations.keyAndValue tpl key member).map fun p => .sismember p.1 p.2) Value.plain
  | .sinter ks => .ofRequest ((ks.mapM tpl.serializeKey).map .sinter) (Value.typedValues tpl)
  | .zadd key members =>
    .ofRequest ((thenKey tpl ((visit members).mapM (ZsetOperations.serializeMember tpl)) key).map fun p =>
      .zadd p.2 (UnorderedMap.emplaceAll ∅ p.1)) Value.plain
  | .zrem key members =>
    .ofRequest ((thenKey tpl (members.mapM tpl.serializeValue) key).map fun p => .zrem p.2 p.1) Value.plain
  | .zincrby key increment member =>
    .ofRequest ((ZsetOperations.keyAndMember tpl key member).map fun p => .zincrby p.1 increment p.2) Value.plain
  | .zscore key member =>
    .ofRequest ((ZsetOperations.keyAndMember tpl key member).map fun p => .zscore p.1 p.2) Value.plain
  | .zrange key start stop => .ofRequest ((tpl.serializeKey key).map (.zrange · start stop)) (Value.typedValues tpl)
  | .zrevrange key start stop =>
    .ofRequest ((tpl.serializeKey key).map (.zrevrange · start stop)) (Value.typedValues tpl)
  | .zrangeWithscores key start stop =>
    .ofRequest ((tpl.serializeKey key).map (.zrangeWithscores · start stop)) (Value.typedScores tpl)
  | .zrevrangeWithscores key start stop =>
    .ofRequest ((tpl.serializeKey key).map (.zrevrangeWithscores · start stop)) (Value.typedScores tpl)
  | .xadd key fields options =>
    .ofRequest ((thenKey tpl (fields.mapM (StreamOperations.serializeField tpl)) key).map fun p =>
      .xadd p.2 p.1 options) Value.plain
  | .xlen key => .ofRequest ((tpl.serializeKey key).map .xlen) Value.plain
  | .xrange key start stop count =>
    .ofRequest ((tpl.serializeKey key).map (.xrange · start stop count)) (Value.typedEntries tpl)
  | .xrevrange key stop start count =>
    .ofRequest ((tpl.serializeKey key).map (.xrevrange · stop start count)) (Value.typedEntries tpl)
  | .xread streams options =>
    .ofRequest ((StreamOperations.serializeRequests tpl streams).map (.xread · options)) (Value.typedBatches tpl)
  | .xdel key ids => .ofRequest ((tpl.serializeKey key).map (.xdel · ids)) Value.plain
  | .xtrim key options => .ofRequest ((tpl.serializeKey key).map (.xtrim · options)) Value.plain
  | .xgroupCreate key group id mkstream =>
    .ofRequest ((tpl.serializeKey key).map (.xgroupCreate · group id mkstream)) Value.plain
  | .xgroupSetid key group id => .ofRequest ((tpl.serializeKey key).map (.xgroupSetid · group id)) Value.plain
  | .xgroupDestroy key group => .ofRequest ((tpl.serializeKey key).map (.xgroupDestroy · group)) Value.plain
  | .xgroupCreateconsumer key group consumer =>
    .ofRequest ((tpl.serializeKey key).map (.xgroupCreateconsumer · group consumer)) Value.plain
  | .xgroupDelconsumer key group consumer =>
    .ofRequest ((tpl.serializeKey key).map (.xgroupDelconsumer · group consumer)) Value.plain
  | .xreadgroup group consumer streams options =>
    .ofRequest ((StreamOperations.serializeRequests tpl streams).map (.xreadgroup group consumer · options))
      (Value.typedBatches tpl)
  | .xack key group ids => .ofRequest ((tpl.serializeKey key).map (.xack · group ids)) Value.plain

end TypedCall

/-! ### The code follows the plan -/

section Plans
variable {K V σ α β γ : Type} (E : Executor σ)

theorem map_decode_result (p : Program Exn σ α) {g : α → Value} {f : α → Outcome β} {h : β → TypedValue K V}
    {result : Value → Outcome (TypedValue K V)} (hr : ∀ x, result (g x) = (f x).map h) :
    h <$> p.decode f = (g <$> p).decode result := by
  rw [Program.map_decode, Program.decode_map]
  exact congrArg p.decode (funext fun x => (hr x).symm)

theorem map_result (p : Program Exn σ α) {g : α → Value} {h : α → TypedValue K V}
    {result : Value → Outcome (TypedValue K V)} (hr : ∀ x, result (g x) = .ok (h x)) :
    h <$> p = (g <$> p).decode result := by
  ext1
  funext s
  rw [Program.run_decode_eq, Program.run_map, Program.run_map]
  rcases p.run s with ⟨e | x, t⟩
  · rfl
  · exact congrArg (·, t) (hr x).symm

variable [Platform] {p : α → Program Exn σ β} {op : α → Operation} {g : β → Value}
  {result : Value → Outcome (TypedValue K V)}

/-- Serialized arguments, and one operation whose result is passed on. -/
theorem map_request (request : Outcome α) (hop : ∀ a, (op a).run E = g <$> p a) {h : β → TypedValue K V}
    (hr : ∀ x, result (g x) = .ok (h x)) :
    h <$> (Program.ofExcept request >>= p) = (TypedPlan.ofRequest (request.map op) result).run E := by
  cases request with
  | error e => rfl
  | ok a =>
    show h <$> p a = ((op a).run E).decode result
    rw [hop]
    exact map_result (p a) hr

/-- Serialized arguments, and one operation whose result is deserialized. -/
theorem map_request_decode (request : Outcome α) {f : β → Outcome γ} {h : γ → TypedValue K V}
    (hop : ∀ a, (op a).run E = g <$> p a) (hr : ∀ x, result (g x) = (f x).map h) :
    h <$> (Program.ofExcept request >>= fun a => (p a).decode f) =
      (TypedPlan.ofRequest (request.map op) result).run E := by
  cases request with
  | error e => rfl
  | ok a =>
    show h <$> (p a).decode f = ((op a).run E).decode result
    rw [hop]
    exact map_decode_result (p a) hr

end Plans

section OutParameters
variable [Platform] {K V σ : Type} [DecidableEq K] (tpl : Template K V) (E : Executor σ)

theorem withLocal_typedKeys (pattern : Bytes) (out : UnorderedSet K) :
    Program.withLocal out (tpl.keys E pattern) =
      (Program.withLocal ∅ (Client.keys E pattern)).decode fun found =>
        (((visit found.2).map Prod.fst).mapM tpl.deserializeKey).map fun ks => ((), Client.insertKeys out ks) := by
  ext1
  funext s
  rw [Program.run_decode_eq, Program.run_withLocal]
  unfold Template.keys
  rw [Program.run_bind, Program.run_lift]
  rcases (Program.withLocal ∅ (Client.keys E pattern)).run s with ⟨e | found, t⟩
  · rfl
  · rw [Program.resume_ok, Program.run_forM_decode_fst _ fun k (m : UnorderedSet K) => m.emplace k (),
      Except.ok_bind, Program.mapM_eq_decodePrefix]
    cases (Program.decodePrefix tpl.deserializeKey ((visit found.2).map Prod.fst)).2 with
    | none =>
      show (Except.ok ((), _), t) = (Except.ok ((), _), t)
      rw [Client.insertKeys, UnorderedMap.emplaceAll, List.foldl_map]
    | some e => rfl

theorem withLocal_typedHscan (key : K) (cursor : UInt64) (pattern : K) (count : UInt32) (out : UnorderedMap K V) :
    Program.withLocal out (HashOperations.hscan tpl E key cursor pattern count) =
      (Program.ofExcept (HashOperations.keyAndField tpl key pattern) >>= fun args =>
        (Program.withLocal ∅ (Client.hscan E args.1 cursor args.2 count)).decode fun found =>
          ((visit found.2).mapM (HashOperations.fieldAndValue tpl)).map fun fields =>
            (found.1, UnorderedMap.emplaceAll ∅ fields)) := by
  unfold HashOperations.hscan
  cases HashOperations.keyAndField tpl key pattern with
  | error e => rfl
  | ok args =>
    rw [Program.ofExcept_ok_bind, Program.ofExcept_ok_bind]
    ext1
    funext s
    rw [Program.run_decode_eq, Program.run_withLocal, Program.run_bind, Program.run_lift]
    rcases (Program.withLocal ∅ (Client.hscan E args.1 cursor args.2 count)).run s with ⟨e | found, t⟩
    · rfl
    · rw [Program.resume_ok, Program.run_bind, Program.run_modify, Program.resume_ok, Program.run_bind,
        Program.run_forM_decode_fst _ fun (e : K × V) (m : UnorderedMap K V) => m.emplace e.1 e.2,
        Except.ok_bind, Program.mapM_eq_decodePrefix]
      cases (Program.decodePrefix (HashOperations.fieldAndValue tpl) (visit found.2)).2 <;> rfl

theorem withLocal_typedHgetMany_of_empty (key : K) {out : UnorderedMap K (Option V)}
    (h : out.entries.isEmpty = true) : Program.withLocal out (HashOperations.hgetMany tpl E key) = pure ((), out) := by
  ext1
  funext s
  rw [Program.run_withLocal, run_hgetMany_of_empty tpl E key s (List.isEmpty_iff.mp h)]
  rfl

theorem withLocal_typedHgetMany (key : K) {out : UnorderedMap K (Option V)} (h : out.entries.isEmpty = false) :
    Program.withLocal out (HashOperations.hgetMany tpl E key) =
      (Program.ofExcept (TypedCall.thenKey tpl (serializedFields tpl out) key) >>= fun args =>
        (Program.withLocal (fieldMap args.1) (Client.hgetMany E args.2)).decode fun found =>
          ((visit found.2).mapM (decodeField tpl out)).map fun fields => ((), out.insertAll fields.reduceOption)) := by
  ext1
  funext s
  rw [Program.run_withLocal]
  unfold HashOperations.hgetMany TypedCall.thenKey
  rw [Program.run_bind, Program.run_get, Program.resume_ok, if_neg (by simp [h])]
  show Program.dropLocal ((Program.ofExcept (serializedFields tpl out) >>= fun fields =>
    Program.ofExcept (tpl.serializeKey key) >>= fun sKey => _).run (out, s)) = _
  cases serializedFields tpl out with
  | error e => rfl
  | ok fields =>
    cases tpl.serializeKey key with
    | error e => rfl
    | ok sKey =>
      simp only [Program.ofExcept_ok_bind, Except.ok_bind]
      show _ = ((Program.withLocal (fieldMap fields) (Client.hgetMany E sKey)).decode _).run s
      rw [Program.run_decode_eq, Program.run_bind, Program.run_lift]
      change Program.dropLocal (Program.resume _
        (((Program.withLocal (fieldMap fields) (Client.hgetMany E sKey)).run s).1,
          (out, ((Program.withLocal (fieldMap fields) (Client.hgetMany E sKey)).run s).2))) = _
      rcases (Program.withLocal (fieldMap fields) (Client.hgetMany E sKey)).run s with ⟨e | found, t⟩
      · rfl
      · rw [Program.resume_ok, run_storeFields, Except.ok_bind, Program.mapM_eq_decodePrefix]
        cases (Program.decodePrefix (decodeField tpl out) (visit found.2)).2 <;> rfl

end OutParameters

namespace TypedCall
variable [Platform] {K V σ : Type} [DecidableEq K] (tpl : Template K V) (E : Executor σ)

omit [DecidableEq K] in
theorem map_thenKey {α β : Type} (op : α → Bytes → Operation) (args : Outcome α) (key : K)
    {p : α → Bytes → Program Exn σ β} {g : β → Value} {h : β → TypedValue K V}
    {result : Value → Outcome (TypedValue K V)}
    (hop : ∀ a sKey, (op a sKey).run E = g <$> p a sKey) (hr : ∀ x, result (g x) = .ok (h x)) :
    h <$> (Program.ofExcept args >>= fun a => Program.ofExcept (tpl.serializeKey key) >>= p a) =
      (TypedPlan.ofRequest ((thenKey tpl args key).map fun q => op q.1 q.2) result).run E := by
  rw [Program.ofExcept_bind_bind]
  exact map_request E (thenKey tpl args key) (fun q => hop q.1 q.2) hr

/-- A method does what its plan says, whatever the serializers and the executor. -/
theorem run_eq_plan (call : TypedCall K V) : call.run tpl E = (call.plan tpl).run E := by
  cases call with
  | keys pattern out =>
    show (fun p => TypedValue.keys p.2) <$> Program.withLocal out (tpl.keys E pattern) = _
    rw [withLocal_typedKeys]
    refine map_decode_result (g := fun p : Unit × UnorderedSet Bytes => Value.keys p.2) _ fun found => ?_
    show (Except.map _ _) = Except.map _ (Except.map _ _)
    cases ((visit found.2).map Prod.fst).mapM tpl.deserializeKey <;> rfl
  | hgetMany key out =>
    show (fun p => TypedValue.optionalHash p.2) <$> Program.withLocal out (HashOperations.hgetMany tpl E key) = _
    cases hempty : out.entries.isEmpty with
    | true =>
      rw [withLocal_typedHgetMany_of_empty tpl E key hempty, plan, if_pos hempty]
      rfl
    | false =>
      rw [withLocal_typedHgetMany tpl E key hempty, plan, if_neg (by simp [hempty])]
      refine map_request_decode E (g := fun p => Value.optionalHash p.2) _ (fun _ => rfl) fun found => ?_
      show (Except.map _ _) = Except.map _ (Except.map _ _)
      cases (visit found.2).mapM (decodeField tpl out) <;> rfl
  | hscan key cursor pattern count out =>
    show (fun p => TypedValue.hscan p.1 p.2) <$>
      Program.withLocal out (HashOperations.hscan tpl E key cursor pattern count) = _
    rw [withLocal_typedHscan]
    refine map_request_decode E (g := fun p => Value.hscan p.1 p.2) _ (fun _ => rfl) fun found => ?_
    show (Except.map _ _) = Except.map _ (Except.map _ _)
    cases (visit found.2).mapM (HashOperations.fieldAndValue tpl) <;> rfl
  | scan cursor pattern count =>
    refine map_decode_result (g := fun p : UInt64 × UnorderedSet Bytes => Value.scan p.1 p.2) _ fun found => ?_
    show (Except.map _ _) = Except.map _ (_ >>= _)
    cases ((visit found.2).map Prod.fst).mapM tpl.deserializeKey <;> rfl
  | hgetall key =>
    refine map_request_decode E _ (fun _ => rfl) fun rawMap => ?_
    show (Except.map _ _) = Except.map _ (_ >>= _)
    cases (visit rawMap).mapM (HashOperations.fieldAndValue tpl) <;> rfl
  | ping | pingMessage | execCmd => exact map_result _ fun _ => rfl
  | get | getAndSet | hget | lpop | rpop | lindex | spop | hkeys | hvals | lpopCount | rpopCount | lrange | smembers
  | sinter | zrange | zrevrange | zrangeWithscores | zrevrangeWithscores | xrange | xrevrange | xread | xreadgroup =>
    exact map_request_decode E _ (fun _ => rfl) fun _ => rfl
  | eval script ks args =>
    show TypedValue.reply <$> (Program.ofExcept (ks.mapM tpl.serializeKey) >>= fun sKeys =>
      Program.ofExcept (args.mapM tpl.serializeValue) >>= fun sArgs => Client.eval E script sKeys sArgs) = _
    rw [Program.ofExcept_bind_bind]
    exact map_request E (scriptRequest tpl ks args) (fun _ => rfl) fun _ => rfl
  | hsetMany =>
    exact map_thenKey tpl E (fun args sKey => .hsetMany sKey (UnorderedMap.emplaceAll ∅ args)) _ _ (fun _ _ => rfl)
      fun _ => rfl
  | zadd =>
    exact map_thenKey tpl E (fun args sKey => .zadd sKey (UnorderedMap.emplaceAll ∅ args)) _ _ (fun _ _ => rfl)
      fun _ => rfl
  | hdelMany =>
    exact map_thenKey tpl E (fun args sKey => .hdelMany sKey args) _ _ (fun _ _ => rfl) fun _ => rfl
  | lpushMany =>
    exact map_thenKey tpl E (fun args sKey => .lpushMany sKey args) _ _ (fun _ _ => rfl) fun _ => rfl
  | rpushMany =>
    exact map_thenKey tpl E (fun args sKey => .rpushMany sKey args) _ _ (fun _ _ => rfl) fun _ => rfl
  | sadd =>
    exact map_thenKey tpl E (fun args sKey => .sadd sKey args) _ _ (fun _ _ => rfl) fun _ => rfl
  | srem =>
    exact map_thenKey tpl E (fun args sKey => .srem sKey args) _ _ (fun _ _ => rfl) fun _ => rfl
  | zrem =>
    exact map_thenKey tpl E (fun args sKey => .zrem sKey args) _ _ (fun _ _ => rfl) fun _ => rfl
  | xadd key fields options =>
    exact map_thenKey tpl E (fun args sKey => .xadd sKey args options) _ _ (fun _ _ => rfl) fun _ => rfl
  | _ => exact map_request E _ (fun _ => rfl) fun _ => rfl

end TypedCall

end Redisdal
