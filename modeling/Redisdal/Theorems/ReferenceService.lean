import Redisdal.Theorems.Wire

/-! # A service that does what is documented

A server that reads the commands with `readRequest` and ids as they are shown, and a transport that carries replies as
hiredis lays them out: an instance of what is assumed of a service. -/

namespace Redisdal

/-! ### Ids -/

namespace StreamId

/-- A decimal number of 64 bits. -/
def readPart (t : Bytes) : Option Nat :=
  if t ≠ [] ∧ t.all Bytes.isDigit ∧ Bytes.natValue t < 2 ^ 64 then some (Bytes.natValue t) else none

/-- The number of an id, of which the second part may be missing. -/
def read (missing : Nat) (t : Bytes) : Option Nat :=
  match Bytes.cut (Bytes.ofChar '-') t with
  | none => (readPart t).map fun ms => ms * 2 ^ 64 + missing
  | some (ms, seq) => (readPart ms).bind fun ms => (readPart seq).map fun seq => ms * 2 ^ 64 + seq

/-- The id of an entry that is added now. -/
def next (now : Int) (last : Nat) : Nat := max (last + 1) (now.toNat * 2 ^ 64)

end StreamId

/-- Scores are written as numbers, and ids as they are shown. -/
abbrev numberingTexts : ServerTexts where
  toServerScores := numberingScores
  readId := StreamId.read
  nextId := StreamId.next

/-! ### The tree of a reply -/

namespace Reply

mutual

/-- The `redisReply` that hiredis builds. -/
def toRedisReply : Reply → RedisReply
  | string value => .mk .string 0 (.items value) (.null 0)
  | status value => .mk .status 0 (.items value) (.null 0)
  | error message => .mk .error 0 (.items message) (.null 0)
  | integer value => .mk .integer value.toInt64 (.null 0) (.null 0)
  | nil => .mk .nil 0 (.null 0) (.null 0)
  | double _ => .mk (.other 7) 0 (.null 0) (.null 0)
  | bool _ => .mk (.other 8) 0 (.null 0) (.null 0)
  | array items => .mk .array 0 (.null 0) (.items (toRedisReplies items))

def toRedisReplies : List Reply → List (Option RedisReply)
  | [] => []
  | item :: items => some (toRedisReply item) :: toRedisReplies items

end

/-- Replies without the types that only RESP3 has. -/
inductive IsResp2 : Reply → Prop where
  | string (value : Bytes) : IsResp2 (.string value)
  | status (value : Bytes) : IsResp2 (.status value)
  | error (message : Bytes) : IsResp2 (.error message)
  | integer (value : UInt64) : IsResp2 (.integer value)
  | nil : IsResp2 .nil
  | array {items : List Reply} (h : ∀ item ∈ items, IsResp2 item) : IsResp2 (.array items)

theorem isResp2_ofOptional (text : Option Bytes) : (ofOptional text).IsResp2 := by
  cases text with
  | none => exact .nil
  | some value => exact .string value

theorem isResp2_strings (texts : List Bytes) : (array (texts.map string)).IsResp2 := by
  refine .array fun item hitem => ?_
  obtain ⟨text, -, rfl⟩ := List.mem_map.mp hitem
  exact .string text

theorem isResp2_flatPairs (pairs : List (Bytes × Bytes)) : (array (flatPairs pairs)).IsResp2 := by
  refine .array fun item hitem => ?_
  obtain ⟨p, -, hp⟩ := List.mem_flatMap.mp hitem
  rcases List.mem_cons.mp hp with rfl | hp
  · exact .string p.1
  · rw [List.mem_singleton.mp hp]
    exact .string p.2

theorem isResp2_entry (e : Nat × Option (List (Bytes × Bytes))) : (entry e).IsResp2 := by
  refine .array (List.forall_mem_cons.mpr ⟨.string _, List.forall_mem_singleton.mpr ?_⟩)
  cases e.2 with
  | none => exact .nil
  | some fields => exact isResp2_flatPairs fields

theorem isResp2_batch (b : Bytes × List (Nat × Option (List (Bytes × Bytes)))) : (batch b).IsResp2 :=
  .array (List.forall_mem_cons.mpr ⟨.string _, List.forall_mem_singleton.mpr
    (.array (List.forall_mem_map.mpr fun e _ => isResp2_entry e))⟩)

theorem isResp2_ofAnswer (answer : Except Bytes (StreamAnswer (List (Bytes × Bytes)))) : (ofAnswer answer).IsResp2 := by
  rcases answer with message | _ | n | n | entries
  · exact .error message
  · exact .status _
  · exact isResp2_ofOptional _
  · exact .integer _
  · exact .array (List.forall_mem_map.mpr fun e _ => isResp2_entry _)

theorem isResp2_members [ServerTexts] (withScores : Bool) (l : List (Bytes × Score)) :
    (members withScores l).IsResp2 := by
  unfold members
  cases withScores with
  | false => exact .array (List.forall_mem_map.mpr fun e _ => .string e.1)
  | true => exact isResp2_flatPairs _

theorem toRedisReplies_eq (items : List Reply) : toRedisReplies items = (items.map toRedisReply).map some := by
  induction items with
  | nil => rfl
  | cons item items ih =>
    rw [toRedisReplies, ih]
    rfl

theorem carried_toRedisReply {r : Reply} (h : r.IsResp2) : r.Carried r.toRedisReply := by
  induction h with
  | string value => exact .string (.items value)
  | status value => exact .status (.items value)
  | error message => exact .error (.items message)
  | integer value => exact .integer
  | nil => exact .nil
  | @array items _ ih =>
    have helements : Block.Holds (.items (toRedisReplies items)) ((items.map toRedisReply).map some) := by
      rw [toRedisReplies_eq]
      exact .items _
    refine .array helements (List.length_map ..).symm fun p hp => ?_
    rw [List.zip_map_right, List.mem_map] at hp
    obtain ⟨q, hq, rfl⟩ := hp
    have hsame : q.1 = q.2 := by
      obtain ⟨i, hi, rfl⟩ := List.mem_iff_getElem.mp hq
      rw [List.getElem_zip]
    rw [Prod.map_snd, Prod.map_fst, ← hsame]
    exact ih q.1 (List.of_mem_zip hq).1

end Reply

/-! ### What the server replies -/

namespace ServerMap
variable [ServerTexts] {m : ServerMap} {o : ListingOrder} {clock : Nat}

omit [ServerTexts] in
theorem isResp2_onView {C : Type} {view : DatumView ServerDatum C} {key : Bytes} {f : C → Reply × C}
    (hf : ∀ c, (f c).1.IsResp2) : (m.onView view key f).1.IsResp2 := by
  unfold onView
  cases view.find (m.datum key) with
  | none => exact .error _
  | some c => exact hf c

omit [ServerTexts] in
theorem isResp2_expire (command : Bytes) (unit : Int) (key : Bytes) (time : Int) :
    (m.expire command unit key time).1.IsResp2 := by
  unfold expire
  cases Expiry.delay unit time m.now with
  | none => exact .error _
  | some milliseconds => exact .integer _

omit [ServerTexts] in
theorem isResp2_setFor (unit : Int) (key value : Bytes) (time : Int) : (m.setFor unit key value time).1.IsResp2 := by
  unfold setFor
  split
  · exact .error _
  · cases Expiry.delay unit time m.now with
    | none => exact .error _
    | some milliseconds => exact .status _

omit [ServerTexts] in
theorem isResp2_set (key value : Bytes) (option : SetOption) : (m.set key value option).1.IsResp2 := by
  cases option with
  | always => exact .status _
  | notExists =>
    unfold set
    dsimp only
    split
    · exact .nil
    · exact .status _
  | seconds seconds => exact isResp2_setFor _ _ _ _
  | milliseconds milliseconds => exact isResp2_setFor _ _ _ _

omit [ServerTexts] in
theorem isResp2_counter (change : Option Bytes → Except Bytes Int) (text : Option Bytes) :
    (counter change text).1.IsResp2 := by
  unfold counter
  cases change text with
  | error message => exact .error _
  | ok n => exact .integer _

omit [ServerTexts] in
theorem isResp2_popMany (key : Bytes) (count : Int) (pop : Nat → List Bytes → List Bytes × List Bytes) :
    (m.popMany key count pop).1.IsResp2 := by
  unfold popMany
  split
  · exact .error _
  · refine isResp2_onView fun l => ?_
    dsimp only
    split
    · exact .nil
    · exact Reply.isResp2_strings _

omit [ServerTexts] in
theorem isResp2_sinter (keys : List Bytes) : (m.sinter o clock keys).IsResp2 := by
  unfold sinter
  rcases keys.mapM (fun key => (setView (UnorderedSet Bytes)).find (m.datum key)) with _ | _ | ⟨first, rest⟩
  · exact .error _
  · exact .array (by simp)
  · exact Reply.isResp2_strings _

theorem isResp2_onStream (key : Bytes) (action : Except Bytes (StreamAction (List (Bytes × Bytes)))) :
    (m.onStream key action).1.IsResp2 := by
  cases action with
  | error message => exact .error message
  | ok a => exact isResp2_onView fun stream => Reply.isResp2_ofAnswer _

theorem isResp2_readStreams (read : StreamRead) : (m.readStreams read).1.IsResp2 := by
  unfold readStreams
  cases StreamReading.starts m (read.group.map Prod.fst) (read.streams.map fun s => (s.key, s.id)) with
  | error message => exact .error message
  | ok starts =>
    dsimp only
    split
    · exact .nil
    · exact .array (List.forall_mem_map.mpr fun b _ => Reply.isResp2_batch b)

theorem isResp2_zadd (key : Bytes) (members : List (Bytes × Bytes)) : (m.zadd key members).1.IsResp2 := by
  unfold zadd
  cases members.mapM fun p => (ServerScores.parse p.1).map (p.2, ·) with
  | none => exact .error _
  | some pairs => exact isResp2_onView fun z => .integer _

theorem isResp2_zincrby (key increment member : Bytes) : (m.zincrby key increment member).1.IsResp2 := by
  unfold zincrby
  cases ServerScores.parse increment with
  | none => exact .error _
  | some delta =>
    refine isResp2_onView fun z => ?_
    cases Score.increment (AList.lookup member z) delta with
    | none => exact .error _
    | some score => exact .string _

theorem isResp2_command (r : Request) : (m.command o clock r).1.IsResp2 := by
  cases r with
  | type => exact .status _
  | expire | pexpire => exact isResp2_expire _ _ _ _
  | «exists» | ttl | pttl | persist | del => exact .integer _
  | ping message =>
    cases message with
    | none => exact .status _
    | some text => exact .string text
  | set => exact isResp2_set _ _ _
  | getset key value =>
    unfold command
    dsimp only
    cases textView.find (m.datum key) with
    | none => exact .error _
    | some t => exact Reply.isResp2_ofOptional t
  | incrby | decrby => exact isResp2_onView fun t => isResp2_counter _ t
  | get | hget | lindex | spop | zscore => exact isResp2_onView fun c => Reply.isResp2_ofOptional _
  | append | hset | hdel | lpush | rpush | llen | sadd | srem | scard | sismember | zrem =>
    exact isResp2_onView fun c => .integer _
  | hkeys | hvals | lrange | smembers => exact isResp2_onView fun c => Reply.isResp2_strings _
  | hgetall => exact isResp2_onView fun c => Reply.isResp2_flatPairs _
  | hmget key fields =>
    refine isResp2_onView fun f => .array fun item hitem => ?_
    obtain ⟨field, -, rfl⟩ := List.mem_map.mp hitem
    exact Reply.isResp2_ofOptional _
  | lpop key count =>
    cases count with
    | none => exact isResp2_onView fun l => Reply.isResp2_ofOptional _
    | some count => exact isResp2_popMany _ _ _
  | rpop key count =>
    cases count with
    | none => exact isResp2_onView fun l => Reply.isResp2_ofOptional _
    | some count => exact isResp2_popMany _ _ _
  | sinter keys => exact isResp2_sinter keys
  | zadd => exact isResp2_zadd _ _
  | zrange | zrevrange => exact isResp2_onView fun z => Reply.isResp2_members _ _
  | zincrby => exact isResp2_zincrby _ _ _
  | xadd | xlen | xrange | xrevrange | xdel | xtrim | xgroupCreate | xgroupSetid | xgroupDestroy
  | xgroupCreateconsumer | xgroupDelconsumer | xack => exact isResp2_onStream _ _
  | streamRead read => exact isResp2_readStreams read
  | _ => exact .error _

end ServerMap

/-! ### The service -/

def RedisDb.empty : RedisDb := ⟨ExpiringMap.empty, 0⟩

def RedisDb.advance (time : Nat) (db : RedisDb) : RedisDb := { db with map := ExpiringMap.advance db.map time }

section Service
variable [ServerTexts] (o : ListingOrder)

theorem RedisDb.isResp2_command (argv : List Bytes) (db : RedisDb) : (db.command o argv).1.IsResp2 := by
  unfold command
  cases readRequest argv with
  | none => exact .error _
  | some r => exact ServerMap.isResp2_command r

/-- What `redisCommandArgv` hands back, and the server after it. -/
def Delivery.commandArgv (d : Delivery) (db : RedisDb) (argv : List Bytes) : Option RedisReply × RedisDb :=
  match d with
  | delivered => (some (db.command o argv).1.toRedisReply, (db.command o argv).2)
  | requestLost _ => (none, db)
  | replyLost _ => (none, (db.command o argv).2)

def Delivery.errstr : Delivery → Bytes
  | delivered => []
  | requestLost errstr => errstr
  | replyLost errstr => errstr

def referenceService : Service RedisDb where
  start := .empty
  command argv db := db.command o argv
  wait := RedisDb.advance
  hiredis d :=
    { connect := fun _ _ => some .empty
      connectUnix := fun _ => some .empty
      err := fun _ => false
      errstr := fun _ => d.errstr
      commandArgv := d.commandArgv o }

theorem referenceService_does (group : CommandGroup) : (referenceService o).Does (fun db m => db.map = m) group := by
  rintro r - hr hplain db _ rfl
  refine ⟨o, db.clock, ?_⟩
  have hcommand : (referenceService o).command r.argv db =
      ((db.map.command o db.clock r).1, ⟨(db.map.command o db.clock r).2, db.clock + 1⟩) := by
    show db.command o r.argv = _
    unfold RedisDb.command
    rw [readRequest_argv r hr hplain.not_hasOptionId]
  rw [hcommand]
  exact ⟨Or.inl rfl, rfl⟩

theorem referenceService_documented : (referenceService o).Documented (fun db m => db.map = m) where
  start := ⟨0, rfl⟩
  wait := by
    rintro db _ rfl time
    rfl
  keys := referenceService_does o _
  texts := referenceService_does o _
  hashes := referenceService_does o _
  lists := referenceService_does o _
  sets := referenceService_does o _
  zsets := referenceService_does o _
  streams := referenceService_does o _

theorem referenceService_transports : (referenceService o).Transports where
  delivered argv db _ := ⟨_, rfl, Reply.carried_toRedisReply (RedisDb.isResp2_command o argv db)⟩
  requestLost _ _ _ _ := ⟨rfl, rfl⟩
  replyLost _ _ _ _ := ⟨rfl, rfl⟩

end Service

/-- Sets listed in the order of their lists. -/
def listedInOrder : ListingOrder := ⟨fun _ _ l => l, fun _ _ l => List.Perm.refl l⟩

end Redisdal
