import Redisdal.Theorems.Contract
import Redisdal.Theorems.FacadePlans

/-! # The execution contract of the facade

A method of the facade serializes all of its arguments before it sends anything, sends at most one command, and
deserializes after it: what a serializer throws keeps the command back, what a deserializer throws does not undo it. -/

namespace Redisdal

/-! ### The arguments that pass through a serializer -/

namespace TypedCall
variable {K V : Type}

/-- The arguments that pass through the key serializer. -/
def keyArguments : TypedCall K V → List K
  | ping | pingMessage .. | execCmd .. | keys .. | scan .. => []
  | delMany ks | eval _ ks _ | sinter ks => ks
  | hget key hashKey | hdel key hashKey | hscan key _ hashKey _ _ | hset key hashKey _ => [key, hashKey]
  | hsetMany key hashMap => key :: hashMap.keys
  | hgetMany key hashMap => if hashMap.entries.isEmpty then [] else key :: hashMap.keys
  | hdelMany key hashKeys => key :: hashKeys
  | xadd key fields _ => key :: fields.map Prod.fst
  | xread streams _ | xreadgroup _ _ streams _ => streams.map (·.key)
  | .exists key | type key | expire key _ | pexpire key _ | ttl key | pttl key | persist key | del key | set key _
  | get key | incr key _ | decr key _ | append key _ | getAndSet key _ | hgetall key | hkeys key | hvals key
  | lpushMany key _ | lpush key _ | rpush key _ | rpushMany key _ | lpop key | rpop key | lpopCount key _
  | rpopCount key _ | lrange key _ _ | llen key | lindex key _ | sadd key _ | srem key _ | spop key | smembers key
  | scard key | sismember key _ | zadd key _ | zrem key _ | zincrby key _ _ | zscore key _ | zrange key _ _
  | zrevrange key _ _ | zrangeWithscores key _ _ | zrevrangeWithscores key _ _ | xlen key | xrange key _ _ _
  | xrevrange key _ _ _ | xdel key _ | xtrim key _ | xgroupCreate key _ _ _ | xgroupSetid key _ _
  | xgroupDestroy key _ | xgroupCreateconsumer key _ _ | xgroupDelconsumer key _ _ | xack key _ _ => [key]

/-- The arguments that pass through the value serializer. -/
def valueArguments : TypedCall K V → List V
  | set _ value | append _ value | getAndSet _ value | hset _ _ value | lpush _ value | rpush _ value
  | sismember _ value | zincrby _ _ value | zscore _ value => [value]
  | lpushMany _ values | rpushMany _ values | sadd _ values | srem _ values | zrem _ values | eval _ _ values => values
  | hsetMany _ hashMap => hashMap.vals
  | zadd _ members => members.keys
  | xadd _ fields _ => fields.map Prod.snd
  | _ => []

/-- A serializer throws this exception on one of the arguments. -/
def Unserializable (tpl : Template K V) (call : TypedCall K V) (e : Exn) : Prop :=
  (∃ key ∈ call.keyArguments, tpl.serializeKey key = .error e) ∨
    ∃ value ∈ call.valueArguments, tpl.serializeValue value = .error e

/-- The arguments are ones that the client rejects. -/
def Rejected : TypedCall K V → Prop
  | eval _ ks _ => ks.length > 64
  | xadd _ fields options => fields = [] ∨ options.id = [] ∨ ∃ trim, options.trim = some trim ∧ BadTrim trim
  | xtrim _ options => BadTrim options
  | xrange _ _ _ count | xrevrange _ _ _ count => BadCount count
  | xread streams options =>
    BadCount options.count ∨ BadBlock options.blockMs ∨ streams = [] ∨ ∃ stream ∈ streams, stream.id = []
  | xreadgroup _ _ streams options =>
    BadCount options.count ∨ BadBlock options.blockMs ∨ streams = [] ∨ ∃ stream ∈ streams, stream.id = []
  | _ => False

/-- The method is given an empty collection for which it needs no command. -/
def ShortCut : TypedCall K V → Prop
  | delMany ks | hdelMany _ ks | sinter ks => ks = []
  | sadd _ members | srem _ members | zrem _ members => members = []
  | xdel _ ids | xack _ _ ids => ids = []
  | zadd _ members => members.entries = []
  | hsetMany _ hashMap => hashMap.entries = []
  | hgetMany _ hashMap => hashMap.entries = []
  | _ => False

/-- The client sends nothing for the arguments. -/
def Unsent (call : TypedCall K V) : Prop := call.Rejected ∨ call.ShortCut

end TypedCall

/-! ### Serialization comes first -/

/-- The computation fails when there is an exception to throw, and throws such an exception. -/
structure FailsBy {α : Type} (P : Exn → Prop) (x : Outcome α) : Prop where
  throws : Throws P x
  fails : ∀ e, P e → ∃ e', x = .error e'

namespace FailsBy
variable {α β : Type} {P Q : Exn → Prop} {x : Outcome α} {y : Outcome β}

theorem self (x : Outcome α) : FailsBy (fun e => x = .error e) x := ⟨fun _ h => h, fun e h => ⟨e, h⟩⟩

theorem pure (a : α) : FailsBy (fun _ => False) (pure a : Outcome α) := ⟨.pure a, fun _ h => h.elim⟩

theorem congr (h : FailsBy P x) (hPQ : ∀ e, P e ↔ Q e) : FailsBy Q x :=
  ⟨fun e he => (hPQ e).mp (h.throws e he), fun e he => h.fails e ((hPQ e).mpr he)⟩

theorem bind {f : α → Outcome β} (hx : FailsBy P x) (hf : ∀ a, FailsBy Q (f a)) :
    FailsBy (fun e => P e ∨ Q e) (x >>= f) := by
  cases x with
  | error e => exact ⟨fun e' he => Or.inl (hx.throws e' (by cases he; rfl)), fun _ _ => ⟨e, rfl⟩⟩
  | ok a =>
    refine ⟨fun e he => Or.inr ((hf a).throws e he), ?_⟩
    rintro e (h | h)
    · obtain ⟨e', he'⟩ := hx.fails e h
      cases he'
    · exact (hf a).fails e h

theorem andThen (hx : FailsBy P x) (hy : FailsBy Q y) :
    FailsBy (fun e => P e ∨ Q e) (x >>= fun a => y >>= fun b => Pure.pure (a, b)) :=
  (hx.bind fun _ => hy.bind fun _ => .pure _).congr (by simp)

theorem both [Platform] (hx : FailsBy P x) (hy : FailsBy Q y) :
    FailsBy (fun e => P e ∨ Q e) (bothArguments x y) := by
  unfold bothArguments
  split
  · exact (hy.bind fun _ => hx.bind fun _ => .pure _).congr (by simp [or_comm])
  · exact (hx.bind fun _ => hy.bind fun _ => .pure _).congr (by simp)

theorem mapM {f : α → Outcome β} {l : List α} {P : α → Exn → Prop} (h : ∀ a, FailsBy (P a) (f a)) :
    FailsBy (fun e => ∃ a ∈ l, P a e) (l.mapM f) := by
  induction l with
  | nil => exact (FailsBy.pure []).congr (by simp)
  | cons a l ih =>
    rw [List.mapM_cons]
    exact ((h a).bind fun _ => ih.bind fun _ => .pure _).congr (by simp)

end FailsBy

namespace TypedPlan
variable {K V : Type}

/-- The plan is to reject when there is an exception to throw, and with such an exception. -/
structure RejectsBy (P : Exn → Prop) (plan : TypedPlan K V) : Prop where
  rejects : ∀ e, plan = reject e → P e
  fails : ∀ e, P e → ∃ e', plan = reject e'

theorem RejectsBy.congr {P Q : Exn → Prop} {plan : TypedPlan K V} (h : RejectsBy P plan) (hPQ : ∀ e, P e ↔ Q e) :
    RejectsBy Q plan :=
  ⟨fun e he => (hPQ e).mp (h.rejects e he), fun e he => h.fails e ((hPQ e).mpr he)⟩

theorem rejectsBy_ofRequest {α : Type} {P : Exn → Prop} {args : Outcome α} (h : FailsBy P args) (op : α → Operation)
    (result : Value → Outcome (TypedValue K V)) : RejectsBy P (ofRequest (args.map op) result) := by
  cases args with
  | error e => exact ⟨fun e' he => h.throws e' (by cases he; rfl), fun _ _ => ⟨e, rfl⟩⟩
  | ok a =>
    refine ⟨fun e he => (by cases he), fun e he => ?_⟩
    obtain ⟨e', he'⟩ := h.fails e he
    cases he'

theorem rejectsBy_call (op : Operation) (result : Value → Outcome (TypedValue K V)) :
    RejectsBy (fun _ => False) (call op result) :=
  ⟨fun e he => (by cases he), fun _ h => h.elim⟩

end TypedPlan

namespace TypedCall
variable [Platform] {K V : Type} [DecidableEq K] (tpl : Template K V)

omit [Platform] [DecidableEq K] in
theorem exists_mem_pairs {A B : Type} {l : List (A × B)} {P : A → Prop} {Q : B → Prop} :
    (∃ pair ∈ l, P pair.1 ∨ Q pair.2) ↔ (∃ a ∈ l.map Prod.fst, P a) ∨ ∃ b ∈ l.map Prod.snd, Q b := by
  constructor
  · rintro ⟨pair, hpair, h | h⟩
    · exact Or.inl ⟨pair.1, List.mem_map_of_mem hpair, h⟩
    · exact Or.inr ⟨pair.2, List.mem_map_of_mem hpair, h⟩
  · rintro (⟨a, ha, h⟩ | ⟨b, hb, h⟩)
    · obtain ⟨pair, hpair, rfl⟩ := List.mem_map.mp ha
      exact ⟨pair, hpair, Or.inl h⟩
    · obtain ⟨pair, hpair, rfl⟩ := List.mem_map.mp hb
      exact ⟨pair, hpair, Or.inr h⟩

omit [DecidableEq K] in
theorem exists_mem_visit {A B : Type} {m : UnorderedMap A B} {P : A → Prop} {Q : B → Prop} :
    (∃ pair ∈ visit m, P pair.1 ∨ Q pair.2) ↔ (∃ a ∈ m.keys, P a) ∨ ∃ b ∈ m.vals, Q b := by
  rw [← UnorderedMap.map_fst_pairs, UnorderedMap.vals_eq, ← exists_mem_pairs]
  simp only [(visit_perm m).mem_iff]

/-- A method rejects its arguments exactly when one of them cannot be serialized, with what the serializer throws. -/
theorem rejectsBy_plan (call : TypedCall K V) : TypedPlan.RejectsBy (call.Unserializable tpl) (call.plan tpl) := by
  cases call with
  | ping | pingMessage | execCmd | keys | scan =>
    exact (TypedPlan.rejectsBy_call _ _).congr (by simp [Unserializable, keyArguments, valueArguments])
  | delMany | sinter =>
    exact (TypedPlan.rejectsBy_ofRequest (FailsBy.mapM fun key => .self (tpl.serializeKey key)) _ _).congr
      (by simp [Unserializable, keyArguments, valueArguments])
  | hgetMany key out =>
    show TypedPlan.RejectsBy _ (if out.entries.isEmpty then _ else _)
    by_cases hempty : out.entries.isEmpty = true
    · rw [if_pos hempty]
      refine ⟨fun e he => (by cases he), fun e he => ?_⟩
      simp [Unserializable, keyArguments, valueArguments, hempty] at he
    · rw [if_neg hempty]
      have hfields := FailsBy.mapM (l := visit out) fun pair => FailsBy.self (tpl.serializeKey pair.1)
      refine (TypedPlan.rejectsBy_ofRequest (FailsBy.andThen hfields (.self _)) _ _).congr ?_
      intro e
      have hkeys := exists_mem_visit (m := out) (P := fun k => tpl.serializeKey k = .error e) (Q := fun _ => False)
      simp only [or_false, and_false, exists_false] at hkeys
      simp [Unserializable, keyArguments, valueArguments, hempty, hkeys, or_comm]
  | set | append | getAndSet | lpush | rpush | sismember | zincrby | zscore =>
    exact (TypedPlan.rejectsBy_ofRequest (FailsBy.both (.self _) (.self _)) _ _).congr
      (by simp [Unserializable, keyArguments, valueArguments])
  | hget | hdel | hscan =>
    exact (TypedPlan.rejectsBy_ofRequest (FailsBy.both (.self _) (.self _)) _ _).congr
      (by simp [Unserializable, keyArguments, valueArguments])
  | hset =>
    exact (TypedPlan.rejectsBy_ofRequest (FailsBy.both (.self _) (FailsBy.both (.self _) (.self _))) _ _).congr
      (by simp [Unserializable, keyArguments, valueArguments, or_assoc])
  | lpushMany | rpushMany | sadd | srem | zrem =>
    exact (TypedPlan.rejectsBy_ofRequest
      (FailsBy.andThen (FailsBy.mapM fun value => .self (tpl.serializeValue value)) (.self _)) _ _).congr
      (by simp [Unserializable, keyArguments, valueArguments, or_comm])
  | hdelMany =>
    exact (TypedPlan.rejectsBy_ofRequest
      (FailsBy.andThen (FailsBy.mapM fun key => .self (tpl.serializeKey key)) (.self _)) _ _).congr
      (by simp [Unserializable, keyArguments, valueArguments, or_comm])
  | eval =>
    exact (TypedPlan.rejectsBy_ofRequest (FailsBy.andThen (FailsBy.mapM fun key => .self (tpl.serializeKey key))
      (FailsBy.mapM fun value => .self (tpl.serializeValue value))) _ _).congr
      (by simp [Unserializable, keyArguments, valueArguments])
  | hsetMany key hashMap =>
    have hpairs := FailsBy.mapM (l := visit hashMap) fun pair =>
      FailsBy.both (.self (tpl.serializeKey pair.1)) (.self (tpl.serializeValue pair.2))
    refine (TypedPlan.rejectsBy_ofRequest (FailsBy.andThen hpairs (.self _)) _ _).congr ?_
    intro e
    rw [exists_mem_visit (P := fun k => tpl.serializeKey k = .error e) (Q := fun v => tpl.serializeValue v = .error e)]
    simp only [Unserializable, keyArguments, valueArguments, List.exists_mem_cons_iff]
    exact or_comm.trans or_assoc.symm
  | zadd key members =>
    have hmember (pair : V × Double) :
        FailsBy (fun e => tpl.serializeValue pair.1 = .error e ∨ False) (ZsetOperations.serializeMember tpl pair) :=
      (FailsBy.self _).bind fun _ => .pure _
    refine (TypedPlan.rejectsBy_ofRequest
      (FailsBy.andThen (FailsBy.mapM (l := visit members) hmember) (.self _)) _ _).congr ?_
    intro e
    rw [exists_mem_visit (P := fun v => tpl.serializeValue v = .error e) (Q := fun _ => False)]
    simp [Unserializable, keyArguments, valueArguments, or_comm]
  | xadd key fields options =>
    have hpairs := FailsBy.mapM (l := fields) fun pair =>
      FailsBy.both (.self (tpl.serializeKey pair.1)) (.self (tpl.serializeValue pair.2))
    refine (TypedPlan.rejectsBy_ofRequest (FailsBy.andThen hpairs (.self _)) _ _).congr ?_
    intro e
    rw [exists_mem_pairs (P := fun k => tpl.serializeKey k = .error e) (Q := fun v => tpl.serializeValue v = .error e)]
    simp only [Unserializable, keyArguments, valueArguments, List.exists_mem_cons_iff]
    exact or_comm.trans or_assoc.symm
  | xread streams | xreadgroup group consumer streams =>
    have hstream (stream : StreamReadRequest K) : FailsBy (fun e => tpl.serializeKey stream.key = .error e ∨ False)
        (do let key ← tpl.serializeKey stream.key; pure (⟨key, stream.id⟩ : StreamReadRequest Bytes)) :=
      (FailsBy.self _).bind fun _ => .pure _
    exact (TypedPlan.rejectsBy_ofRequest (FailsBy.mapM (l := streams) hstream) _ _).congr
      (by simp [Unserializable, keyArguments, valueArguments])
  | _ =>
    exact (TypedPlan.rejectsBy_ofRequest (.self _) _ _).congr
      (by simp [Unserializable, keyArguments, valueArguments])

end TypedCall

/-! ### Which operation is called -/

namespace TypedPlan
variable {K V : Type}

/-- The plan answers only where `S`; the operation that it calls is rejected exactly when `R` and takes a short cut
    exactly when `S`. Scripts are called by their text. -/
structure AsksFor (R S : Prop) (plan : TypedPlan K V) : Prop where
  answers : ∀ v, plan = answer v → ¬R ∧ S
  rejected : ∀ op result, plan = call op result → (op.Rejected ↔ R)
  shortCut : ∀ op result, plan = call op result → (op.ShortCut ↔ S)
  noSha1 : ∀ op result, plan = call op result → ∀ sha1 ks args, op ≠ .evalSha1 sha1 ks args

theorem asksFor_call {op : Operation} {R S : Prop} (h : (op.Rejected ↔ R) ∧ (op.ShortCut ↔ S))
    (hop : ∀ sha1 ks args, op ≠ .evalSha1 sha1 ks args) (result : Value → Outcome (TypedValue K V)) :
    AsksFor R S (call op result) where
  answers _ he := by cases he
  rejected _ _ he := by cases he; exact h.1
  shortCut _ _ he := by cases he; exact h.2
  noSha1 _ _ he := by cases he; exact hop

theorem of_ofRequest {α : Type} {args : Outcome α} {request : α → Operation}
    {result' : Value → Outcome (TypedValue K V)} {op : Operation} {result : Value → Outcome (TypedValue K V)}
    (h : ofRequest (args.map request) result' = call op result) :
    ∃ a, args = .ok a ∧ op = request a ∧ result = result' := by
  cases args with
  | error e => cases h
  | ok a =>
    cases h
    exact ⟨a, rfl, rfl, rfl⟩

theorem asksFor_ofRequest {α : Type} {args : Outcome α} {op : α → Operation} {R S : Prop}
    (h : ∀ a, args = .ok a → ((op a).Rejected ↔ R) ∧ ((op a).ShortCut ↔ S))
    (hop : ∀ a sha1 ks args, op a ≠ .evalSha1 sha1 ks args) (result : Value → Outcome (TypedValue K V)) :
    AsksFor R S (ofRequest (args.map op) result) := by
  cases args with
  | error e => exact ⟨fun _ he => (by cases he), fun _ _ he => (by cases he), fun _ _ he => (by cases he),
      fun _ _ he => (by cases he)⟩
  | ok a => exact asksFor_call (h a rfl) (hop a) result

end TypedPlan

namespace TypedCall
variable [Platform] {K V : Type} [DecidableEq K] (tpl : Template K V)

omit [Platform] in
theorem length_of_mapM {α β : Type} {f : α → Outcome β} {l : List α} {bs : List β} (h : l.mapM f = .ok bs) :
    bs.length = l.length :=
  (Except.mapM_eq_ok_iff.mp h).length_eq.symm

omit [Platform] in
theorem eq_nil_iff_of_mapM {α β : Type} {f : α → Outcome β} {l : List α} {bs : List β} (h : l.mapM f = .ok bs) :
    bs = [] ↔ l = [] := by
  rw [← List.length_eq_zero_iff, ← List.length_eq_zero_iff, length_of_mapM h]

omit [Platform] [DecidableEq K] in
theorem of_thenKey {α : Type} {args : Outcome α} {key : K} {p : α × Bytes} (h : thenKey tpl args key = .ok p) :
    args = .ok p.1 := by
  obtain ⟨a, ha, h⟩ := Except.bind_eq_ok_iff.mp h
  obtain ⟨sKey, -, h⟩ := Except.bind_eq_ok_iff.mp h
  cases h
  exact ha

omit [Platform] [DecidableEq K] in
theorem length_of_scriptRequest {ks : List K} {args : List V} {p : List Bytes × List Bytes}
    (h : scriptRequest tpl ks args = .ok p) : p.1.length = ks.length := by
  obtain ⟨sKeys, hkeys, h⟩ := Except.bind_eq_ok_iff.mp h
  obtain ⟨sArgs, -, h⟩ := Except.bind_eq_ok_iff.mp h
  cases h
  exact length_of_mapM hkeys

omit [Platform] [DecidableEq K] in
theorem map_id_of_serializeRequests {streams : List (StreamReadRequest K)} {l : List (StreamReadRequest Bytes)}
    (h : StreamOperations.serializeRequests tpl streams = .ok l) : l.map (·.id) = streams.map (·.id) := by
  induction streams generalizing l with
  | nil =>
    cases h
    rfl
  | cons stream streams ih =>
    unfold StreamOperations.serializeRequests at h ih
    rw [List.mapM_cons] at h
    obtain ⟨first, hfirst, h⟩ := Except.bind_eq_ok_iff.mp h
    obtain ⟨key, -, hfirst⟩ := Except.bind_eq_ok_iff.mp hfirst
    obtain ⟨rest, hrest, h⟩ := Except.bind_eq_ok_iff.mp h
    cases hfirst
    cases h
    rw [List.map_cons, List.map_cons, ih hrest]

omit [Platform] [DecidableEq K] in
theorem badStreams_of_serializeRequests {streams : List (StreamReadRequest K)} {l : List (StreamReadRequest Bytes)}
    (h : StreamOperations.serializeRequests tpl streams = .ok l) :
    BadStreams l ↔ streams = [] ∨ ∃ stream ∈ streams, stream.id = [] := by
  refine or_congr (eq_nil_iff_of_mapM h) ?_
  have hmem : ([] : Bytes) ∈ l.map (·.id) ↔ [] ∈ streams.map (·.id) := by rw [map_id_of_serializeRequests tpl h]
  simpa using hmem

/-- The client rejects the serialized arguments, or needs no command for them, exactly when the typed ones say so. -/
theorem asksFor_plan (call : TypedCall K V) : TypedPlan.AsksFor call.Rejected call.ShortCut (call.plan tpl) := by
  cases call with
  | keys | scan | ping | pingMessage | execCmd =>
    exact TypedPlan.asksFor_call (by simp [Operation.Rejected, Operation.ShortCut, Rejected, ShortCut]) (by simp) _
  | delMany ks | sinter ks =>
    refine TypedPlan.asksFor_ofRequest (fun sKeys h => ?_) (by simp) _
    refine ⟨Iff.rfl, ?_⟩
    simpa [Operation.ShortCut, ShortCut] using eq_nil_iff_of_mapM h
  | hgetMany key out =>
    show TypedPlan.AsksFor _ _ (if out.entries.isEmpty then _ else _)
    split
    · next hempty =>
      exact ⟨fun _ _ => ⟨id, List.isEmpty_iff.mp hempty⟩, fun _ _ he => (by cases he), fun _ _ he => (by cases he),
        fun _ _ he => (by cases he)⟩
    · next hempty =>
      refine TypedPlan.asksFor_ofRequest (fun p h => ?_) (by simp) _
      refine ⟨Iff.rfl, ?_⟩
      have hfields := eq_nil_iff_of_mapM (of_thenKey tpl h)
      simp [Operation.ShortCut, ShortCut, fieldMap, UnorderedMap.entries_emplaceAll_eq_nil, hfields, visit_eq_nil_iff]
  | hdelMany | sadd | srem | zrem =>
    refine TypedPlan.asksFor_ofRequest (fun p h => ?_) (by simp) _
    refine ⟨Iff.rfl, ?_⟩
    simpa [Operation.ShortCut, ShortCut] using eq_nil_iff_of_mapM (of_thenKey tpl h)
  | eval script ks args =>
    refine TypedPlan.asksFor_ofRequest (fun p h => ?_) (by simp) _
    refine ⟨?_, Iff.rfl⟩
    simp [Operation.Rejected, Rejected, length_of_scriptRequest tpl h]
  | hsetMany | zadd =>
    refine TypedPlan.asksFor_ofRequest (fun p h => ?_) (by simp) _
    refine ⟨Iff.rfl, ?_⟩
    have hfields := eq_nil_iff_of_mapM (of_thenKey tpl h)
    simp [Operation.ShortCut, ShortCut, UnorderedMap.entries_emplaceAll_eq_nil, hfields, visit_eq_nil_iff]
  | xadd key fields options =>
    refine TypedPlan.asksFor_ofRequest (fun p h => ?_) (by simp) _
    refine ⟨?_, Iff.rfl⟩
    simp [Operation.Rejected, Rejected, eq_nil_iff_of_mapM (of_thenKey tpl h)]
  | xread | xreadgroup =>
    refine TypedPlan.asksFor_ofRequest (fun l h => ?_) (by simp) _
    refine ⟨?_, Iff.rfl⟩
    simp [Operation.Rejected, Rejected, badStreams_of_serializeRequests tpl h]
  | _ =>
    exact TypedPlan.asksFor_ofRequest (by simp [Operation.Rejected, Operation.ShortCut, Rejected, ShortCut])
      (by simp) _

theorem unsent_iff {call : TypedCall K V} {op : Operation} {result : Value → Outcome (TypedValue K V)}
    (h : call.plan tpl = .call op result) : op.Rejected ∨ op.ShortCut ↔ call.Unsent :=
  or_congr ((asksFor_plan tpl call).rejected op result h) ((asksFor_plan tpl call).shortCut op result h)

/-- What a short cut of the client returns needs no deserializer. -/
theorem result_of_shortCut {call : TypedCall K V} (h : call.ShortCut) {op : Operation}
    {result : Value → Outcome (TypedValue K V)} (hplan : call.plan tpl = .call op result) :
    ∃ v w, op.plan = .answer v ∧ result v = .ok w := by
  have hS := ((asksFor_plan tpl call).shortCut op result hplan).mpr h
  cases call with
  | hgetMany key out =>
    have hanswer : plan tpl (.hgetMany key out) = .answer (.optionalHash out) := if_pos (List.isEmpty_iff.mpr h)
    rw [hanswer] at hplan
    cases hplan
  | delMany | hdelMany | sadd | srem | zrem | xdel | xack | sinter | zadd | hsetMany =>
    obtain ⟨_, -, rfl, rfl⟩ := TypedPlan.of_ofRequest hplan
    exact ⟨_, _, if_pos (List.isEmpty_iff.mpr hS), rfl⟩
  | _ => exact h.elim

end TypedCall

/-! ### The contract -/

section Contract
variable [Platform] {K V σ : Type} [DecidableEq K] (tpl : Template K V) (call : TypedCall K V) (E : Executor σ) (s : σ)

/-- The argument vectors that a method passes to `cmd_execv`, in order. -/
def typedCalls : List (List Bytes) := ((call.run tpl (logged E)).run ([], s)).2.1

/-- What the caller of a method can rely on, whatever the serializers and the executor do. -/
structure FacadeContract : Prop where
  once : (typedCalls tpl call E s).length ≤ 1
  none_iff : typedCalls tpl call E s = [] ↔ (∃ e, call.Unserializable tpl e) ∨ call.Unsent
  serializes : (∃ e, call.Unserializable tpl e) →
    ∃ e, call.Unserializable tpl e ∧ (call.run tpl E).run s = (.error e, s)
  rejects : call.Rejected → ∃ e, (call.run tpl E).run s = (.error e, s)
  answers : (¬∃ e, call.Unserializable tpl e) → call.ShortCut → ∃ v, (call.run tpl E).run s = (.ok v, s)
  propagates : ∀ argv ∈ typedCalls tpl call E s, ∀ e t, (E argv).run s = (.error e, t) →
    (call.run tpl E).run s = (.error e, t)
  surfaces : ∀ argv ∈ typedCalls tpl call E s, ∀ m t, (E argv).run s = (.ok (.error m), t) →
    (call.run tpl E).run s = (.error (.redisError m), t)
  /-- Whatever is thrown after the command, its effect stays. -/
  state : ((call.run tpl E).run s).2 = (typedCalls tpl call E s).foldl (fun t argv => ((E argv).run t).2) s

variable {tpl call}

theorem typedCalls_of_call {op : Operation} {result : Value → Outcome (TypedValue K V)}
    (h : call.plan tpl = .call op result) : typedCalls tpl call E s = calls op E s := by
  unfold typedCalls calls
  rw [TypedCall.run_eq_plan, h, TypedPlan.run, Program.snd_run_decode]

theorem run_of_call {op : Operation} {result : Value → Outcome (TypedValue K V)}
    (h : call.plan tpl = .call op result) :
    (call.run tpl E).run s = (((op.run E).run s).1 >>= result, ((op.run E).run s).2) := by
  rw [TypedCall.run_eq_plan, h, TypedPlan.run, Program.run_decode_eq]

omit [DecidableEq K] in
/-- An operation leaves the executor as its commands leave it. -/
theorem snd_run_operation (op : Operation) : ((op.run E).run s).2 =
    (calls op E s).foldl (fun t argv => ((E argv).run t).2) s := by
  rw [calls_eq, Operation.run_eq_plan]
  cases op.plan with
  | answer | reject => rfl
  | send argv i =>
    rw [Plan.run, Program.snd_run_decode, CmdOps.cmdExecv, Program.run_bind]
    show _ = ((E argv).run s).2
    rcases (E argv).run s with ⟨_ | reply, t⟩ <;> rfl

/-- A method that answers without an operation. -/
theorem FacadeContract.of_answer {v : TypedValue K V} (hplan : call.plan tpl = .answer v) :
    FacadeContract tpl call E s := by
  have hrun : ∀ {τ : Type} (E : Executor τ), call.run tpl E = pure v := fun E => by
    rw [call.run_eq_plan, hplan]
    rfl
  have hcalls : typedCalls tpl call E s = [] := by
    rw [typedCalls, hrun]
    rfl
  have hserializable : ¬∃ e, call.Unserializable tpl e := by
    rintro ⟨e, he⟩
    obtain ⟨e', he'⟩ := (call.rejectsBy_plan tpl).fails e he
    rw [hplan] at he'
    cases he'
  obtain ⟨hrejected, hshort⟩ := (call.asksFor_plan tpl).answers v hplan
  exact {
    once := by simp [hcalls]
    none_iff := iff_of_true hcalls (Or.inr (Or.inr hshort))
    serializes := fun h => absurd h hserializable
    rejects := fun h => absurd h hrejected
    answers := fun _ _ => ⟨v, by rw [hrun]; rfl⟩
    propagates := by simp [hcalls]
    surfaces := by simp [hcalls]
    state := by rw [hcalls, hrun]; rfl }

/-- A method with an argument that cannot be serialized. -/
theorem FacadeContract.of_reject {e : Exn} (hplan : call.plan tpl = .reject e) : FacadeContract tpl call E s := by
  have hrun : ∀ {τ : Type} (E : Executor τ), call.run tpl E = Program.throw e := fun E => by
    rw [call.run_eq_plan, hplan]
    rfl
  have hcalls : typedCalls tpl call E s = [] := by
    rw [typedCalls, hrun]
    rfl
  have hthrown := (call.rejectsBy_plan tpl).rejects e hplan
  have hthrows : (call.run tpl E).run s = (.error e, s) := by
    rw [hrun]
    rfl
  exact {
    once := by simp [hcalls]
    none_iff := iff_of_true hcalls (Or.inl ⟨e, hthrown⟩)
    serializes := fun _ => ⟨e, hthrown, hthrows⟩
    rejects := fun _ => ⟨e, hthrows⟩
    answers := fun h => absurd ⟨e, hthrown⟩ h
    propagates := by simp [hcalls]
    surfaces := by simp [hcalls]
    state := by rw [hcalls, hthrows]; rfl }

/-- A method that calls an operation does what the operation does, and then deserializes. -/
theorem FacadeContract.of_call {op : Operation} {result : Value → Outcome (TypedValue K V)}
    (hplan : call.plan tpl = .call op result) : FacadeContract tpl call E s := by
  have hcalls := typedCalls_of_call E s hplan
  have hcontract := execution_contract op E s
  have hasks := call.asksFor_plan tpl
  have hserializable : ¬∃ e, call.Unserializable tpl e := by
    rintro ⟨e, he⟩
    obtain ⟨e', he'⟩ := (call.rejectsBy_plan tpl).fails e he
    rw [hplan] at he'
    cases he'
  constructor
  case once =>
    rw [hcalls]
    exact hcontract.once
  case none_iff =>
    rw [hcalls, hcontract.none_iff, TypedCall.unsent_iff tpl hplan]
    simp [hserializable]
  case serializes => exact fun h => absurd h hserializable
  case rejects =>
    intro hR
    obtain ⟨e, hrun⟩ := hcontract.rejects ((hasks.rejected op result hplan).mpr hR)
    exact ⟨e, by rw [run_of_call E s hplan, hrun]; rfl⟩
  case answers =>
    intro _ hS
    obtain ⟨v, w, hanswer, hresult⟩ := TypedCall.result_of_shortCut tpl hS hplan
    refine ⟨w, ?_⟩
    rw [run_of_call E s hplan, Operation.run_eq_plan, hanswer]
    exact Prod.ext hresult rfl
  case propagates =>
    intro argv hargv e t hrun
    rw [run_of_call E s hplan, hcontract.propagates argv (hcalls ▸ hargv) e t hrun]
    rfl
  case surfaces =>
    intro argv hargv m t hrun
    rcases hcontract.surfaces argv (hcalls ▸ hargv) m t hrun with h | ⟨sha1, ks, args, hop, -⟩
    · rw [run_of_call E s hplan, h]
      rfl
    · exact absurd hop (hasks.noSha1 op result hplan sha1 ks args)
  case state => rw [run_of_call E s hplan, hcalls, snd_run_operation]

variable (tpl call)

theorem facade_contract : FacadeContract tpl call E s := by
  rcases hplan : call.plan tpl with v | e | ⟨op, result⟩
  · exact .of_answer E s hplan
  · exact .of_reject E s hplan
  · exact .of_call E s hplan

end Contract

end Redisdal
