import Redisdal.Theorems.HashStore

/-! # Counts and flags

A server that keeps one typed value under each key, and what the numbers that the client returns say of the
effect of a call: how many elements it added or removed, or how long a list is after it. -/

namespace Redisdal

/-! ### The server -/

/-- The kinds of value that are collections of distinct elements. -/
inductive DictKind where
  | hash | set | zset
deriving DecidableEq

/-- The value under a key. A hash keeps a value for each field, a sorted set a score for each member, a set nothing; a
    stream keeps entries, and for each of its groups the entries that are not acknowledged. -/
inductive Content (Id : Type) where
  | text (value : Bytes)
  | dict (kind : DictKind) (elements : UnorderedMap Bytes Bytes)
  | list (values : List Bytes)
  | stream (entries : List (Id × List Bytes)) (groups : Bytes → Option (Finset Id))

abbrev Keyspace (Id : Type) : Type := Bytes → Option (Content Id)

/-- How a server reads the scores and the ids in its arguments, which may be written in more than one way. -/
structure ArgumentReader (Id : Type) where
  isScore : Bytes → Bool
  id : Bytes → Option Id

namespace Keyspace
variable {Id : Type} [DecidableEq Id] (reader : ArgumentReader Id)

def wrongArguments : Reply := .error "ERR wrong number of arguments"

def wrongType : Reply := .error "WRONGTYPE Operation against a key holding the wrong kind of value"

def notAScore : Reply := .error "ERR value is not a valid float"

def invalidId : Reply := .error "ERR Invalid stream ID specified as stream command argument"

def count (n : Nat) : Reply := .integer (UInt64.ofNat n)

/-- A collection without elements is not kept. -/
def putDict (db : Keyspace Id) (kind : DictKind) (key : Bytes) (m : UnorderedMap Bytes Bytes) : Keyspace Id :=
  Function.update db key (if m.entries = [] then none else some (.dict kind m))

/-- A command on a collection of this kind, which answers with a count. -/
def onDict (db : Keyspace Id) (kind : DictKind) (key : Bytes)
    (f : UnorderedMap Bytes Bytes → Nat × UnorderedMap Bytes Bytes) : Reply × Keyspace Id :=
  match db key with
  | none => (count (f ∅).1, db.putDict kind key (f ∅).2)
  | some (.dict kind' m) => if kind' = kind then (count (f m).1, db.putDict kind key (f m).2) else (wrongType, db)
  | some _ => (wrongType, db)

/-- A command that stores elements. -/
def addAll (l : List (Bytes × Bytes)) (m : UnorderedMap Bytes Bytes) : Nat × UnorderedMap Bytes Bytes :=
  (((l.map Prod.fst).toFinset.filter (· ∉ m)).card, m.insertAll l)

/-- A command that pushes values, or only asks for the length. -/
def onList (db : Keyspace Id) (key : Bytes) (f : List Bytes → List Bytes) : Reply × Keyspace Id :=
  match db key with
  | none => (count (f []).length, Function.update db key (if f [] = [] then none else some (.list (f []))))
  | some (.list l) => (count (f l).length, Function.update db key (if f l = [] then none else some (.list (f l))))
  | some _ => (wrongType, db)

/-- `XDEL`, which leaves an empty stream where it deletes the last entry. Nothing is deleted unless all ids are ids. -/
def deleteEntries (db : Keyspace Id) (key : Bytes) (ids : List Bytes) : Reply × Keyspace Id :=
  match db key with
  | none => (count 0, db)
  | some (.stream l groups) =>
    match ids.mapM reader.id with
    | none => (invalidId, db)
    | some ids =>
      (count (l.filter (·.1 ∈ ids)).length, Function.update db key (some (.stream (l.filter (·.1 ∉ ids)) groups)))
  | some _ => (wrongType, db)

/-- `XACK`, which takes entries from those that the group has not acknowledged. -/
def acknowledge (db : Keyspace Id) (key group : Bytes) (ids : List Bytes) : Reply × Keyspace Id :=
  match db key with
  | none => (count 0, db)
  | some (.stream l groups) =>
    match groups group with
    | none => (count 0, db)
    | some pending =>
      match ids.mapM reader.id with
      | none => (invalidId, db)
      | some ids =>
        (count (pending ∩ ids.toFinset).card,
          Function.update db key (some (.stream l (Function.update groups group (some (pending \ ids.toFinset))))))
  | some _ => (wrongType, db)

/-- `ZADD`. Nothing is added unless all scores are numbers. -/
def addScores (db : Keyspace Id) (key : Bytes) (pairs : List (Bytes × Bytes)) : Reply × Keyspace Id :=
  if pairs.all fun p => reader.isScore p.1 then db.onDict .zset key (addAll (pairs.map Prod.swap)) else (notAScore, db)

/-- `DEL`: one key after the other. -/
def deleteAll (db : Keyspace Id) : List Bytes → Nat × Keyspace Id
  | [] => (0, db)
  | key :: keys =>
    let rest := deleteAll (Function.update db key none) keys
    ((if (db key).isSome then 1 else 0) + rest.1, rest.2)

/-- A command on one key. -/
def step (db : Keyspace Id) (command key : Bytes) (args : List Bytes) : Reply × Keyspace Id :=
  if command = "LLEN" then if args = [] then db.onList key id else (wrongArguments, db)
  else if args = [] then (wrongArguments, db)
  else if command = "LPUSH" then db.onList key (args.reverse ++ ·)
  else if command = "RPUSH" then db.onList key (· ++ args)
  else if command = "SADD" then db.onDict .set key (addAll (args.map fun member => (member, [])))
  else if command = "HDEL" then db.onDict .hash key (·.eraseAll args)
  else if command = "SREM" then db.onDict .set key (·.eraseAll args)
  else if command = "ZREM" then db.onDict .zset key (·.eraseAll args)
  else if command = "XDEL" then db.deleteEntries reader key args
  else if command = "XACK" then
    match args with
    | group :: id :: ids => db.acknowledge reader key group (id :: ids)
    | _ => (wrongArguments, db)
  else if args.length % 2 ≠ 0 then (wrongArguments, db)
  else if command = "HSET" then db.onDict .hash key (addAll (Reply.twoByTwo args))
  else if command = "ZADD" then db.addScores reader key (Reply.twoByTwo args)
  else (.error "ERR unknown command", db)

end Keyspace

/-- A server of typed values. -/
def keyspaceServer {Id : Type} [DecidableEq Id] (reader : ArgumentReader Id) : Executor (Keyspace Id) :=
  fun argv => ⟨fun db =>
  match argv with
  | command :: key :: args =>
    if command = "DEL" then (.ok (Keyspace.count (db.deleteAll (key :: args)).1), (db.deleteAll (key :: args)).2)
    else (.ok (db.step reader command key args).1, (db.step reader command key args).2)
  | _ => (.ok Keyspace.wrongArguments, db)⟩

/-! ### The calls -/

/-- A call that answers with a count, or whether it created something. -/
inductive CountingCall where
  | hset (key field value : Bytes)
  | hsetMany (key : Bytes) (hashMap : UnorderedMap Bytes Bytes)
  | hdel (key hashKey : Bytes)
  | hdelMany (key : Bytes) (hashKeys : List Bytes)
  | lpush (key value : Bytes)
  | lpushMany (key : Bytes) (values : List Bytes)
  | rpush (key value : Bytes)
  | rpushMany (key : Bytes) (values : List Bytes)
  | sadd (key : Bytes) (members : List Bytes)
  | srem (key : Bytes) (members : List Bytes)
  | zadd (key : Bytes) (members : UnorderedMap Bytes Double)
  | zrem (key : Bytes) (members : List Bytes)
  | del (key : Bytes)
  | delMany (keys : List Bytes)
  | xdel (key : Bytes) (ids : List Bytes)
  | xack (key group : Bytes) (ids : List Bytes)

namespace CountingCall

/-- The operation of the client. -/
def operation : CountingCall → Operation
  | hset key field value => .hset key field value
  | hsetMany key hashMap => .hsetMany key hashMap
  | hdel key hashKey => .hdel key hashKey
  | hdelMany key hashKeys => .hdelMany key hashKeys
  | lpush key value => .lpush key value
  | lpushMany key values => .lpushMany key values
  | rpush key value => .rpush key value
  | rpushMany key values => .rpushMany key values
  | sadd key members => .sadd key members
  | srem key members => .srem key members
  | zadd key members => .zadd key members
  | zrem key members => .zrem key members
  | del key => .del key
  | delMany keys => .delMany keys
  | xdel key ids => .xdel key ids
  | xack key group ids => .xack key group ids

end CountingCall

/-! ### What is under a key -/

namespace Keyspace
variable {Id : Type} (db : Keyspace Id)

def HoldsDict (kind : DictKind) (key : Bytes) : Prop := db key = none ∨ ∃ m, db key = some (.dict kind m)

def HoldsList (key : Bytes) : Prop := db key = none ∨ ∃ l, db key = some (.list l)

def HoldsStream (key : Bytes) : Prop := db key = none ∨ ∃ l groups, db key = some (.stream l groups)

/-- The elements of a collection, none where there is nothing. -/
def dict (kind : DictKind) (key : Bytes) : UnorderedMap Bytes Bytes :=
  match db key with
  | some (.dict kind' m) => if kind' = kind then m else ∅
  | _ => ∅

/-- The fields of a hash, or the members of a set. -/
def elements (kind : DictKind) (key : Bytes) : Finset Bytes := (db.dict kind key).keys.toFinset

def list (key : Bytes) : List Bytes :=
  match db key with
  | some (.list l) => l
  | _ => []

def stream (key : Bytes) : List (Id × List Bytes) :=
  match db key with
  | some (.stream l _) => l
  | _ => []

/-- What a group has not acknowledged, if it is there. -/
def pending? (key group : Bytes) : Option (Finset Id) :=
  match db key with
  | some (.stream _ groups) => groups group
  | _ => none

def pending (key group : Bytes) : Finset Id := (db.pending? key group).getD ∅

end Keyspace

/-! ### Effects and documented results -/

section Effects
variable {Id : Type} [DecidableEq Id] (reader : ArgumentReader Id) (before after : Keyspace Id)

/-- The ids that are written in the arguments. -/
def ArgumentReader.ids (l : List Bytes) : List Id := l.filterMap reader.id

/-- The call touches no other key. -/
def Untouched (key : Bytes) : Prop := ∀ k, k ≠ key → after k = before k

def Adds (kind : DictKind) (key : Bytes) (l : List Bytes) : Prop :=
  after.elements kind key = before.elements kind key ∪ l.toFinset ∧ Untouched before after key

def Removes (kind : DictKind) (key : Bytes) (l : List Bytes) : Prop :=
  after.elements kind key = before.elements kind key \ l.toFinset ∧ Untouched before after key

/-- The list becomes `l`. -/
def Becomes (key : Bytes) (l : List Bytes) : Prop := after.list key = l ∧ Untouched before after key

def Deletes (keys : List Bytes) : Prop := ∀ key, after key = if key ∈ keys then none else before key

def RemovesEntries (key : Bytes) (ids : List Bytes) : Prop :=
  after.stream key = (before.stream key).filter (·.1 ∉ reader.ids ids) ∧
    (∀ group, after.pending? key group = before.pending? key group) ∧ Untouched before after key

def Acknowledges (key group : Bytes) (ids : List Bytes) : Prop :=
  after.pending key group = before.pending key group \ (reader.ids ids).toFinset ∧
    after.stream key = before.stream key ∧ (∀ g, g ≠ group → after.pending? key g = before.pending? key g) ∧
    Untouched before after key

/-- The number of elements that are there after the call and were not before. -/
def added (kind : DictKind) (key : Bytes) : Value :=
  .integer (longLong (after.elements kind key \ before.elements kind key).card)

/-- The number of elements that were there before the call and are not after. -/
def removed (kind : DictKind) (key : Bytes) : Value :=
  .integer (longLong (before.elements kind key \ after.elements kind key).card)

/-- The number of these keys that held something before the call and hold nothing after. -/
def deleted (keys : List Bytes) : Value :=
  .integer (longLong (keys.toFinset.filter fun key => (before key).isSome ∧ (after key).isNone).card)

end Effects

namespace CountingCall
variable {Id : Type} [DecidableEq Id] (reader : ArgumentReader Id)

/-- The key holds the right type or nothing. -/
def RightType (db : Keyspace Id) : CountingCall → Prop
  | hset key _ _ | hsetMany key _ | hdel key _ | hdelMany key _ => db.HoldsDict .hash key
  | lpush key _ | lpushMany key _ | rpush key _ | rpushMany key _ => db.HoldsList key
  | sadd key _ | srem key _ => db.HoldsDict .set key
  | zadd key _ | zrem key _ => db.HoldsDict .zset key
  | xdel key _ | xack key _ _ => db.HoldsStream key
  | del _ | delMany _ => True

/-- The server answers with no count but with an error: a score is not a number, or an id not an id. -/
def Refused [Platform] (db : Keyspace Id) : CountingCall → Prop
  | zadd _ members => ∃ d ∈ members.vals, reader.isScore (Platform.toCharsDouble d) = false
  | xdel key ids => (db key).isSome ∧ ∃ id ∈ ids, reader.id id = none
  | xack key group ids => (db.pending? key group).isSome ∧ ∃ id ∈ ids, reader.id id = none
  | _ => False

/-- What the call does to the store. -/
def Does (before after : Keyspace Id) : CountingCall → Prop
  | hset key field _ => Adds before after .hash key [field]
  | hsetMany key hashMap => Adds before after .hash key hashMap.keys
  | hdel key hashKey => Removes before after .hash key [hashKey]
  | hdelMany key hashKeys => Removes before after .hash key hashKeys
  | lpush key value => Becomes before after key (value :: before.list key)
  | lpushMany key values => Becomes before after key (values.reverse ++ before.list key)
  | rpush key value => Becomes before after key (before.list key ++ [value])
  | rpushMany key values => Becomes before after key (before.list key ++ values)
  | sadd key members => Adds before after .set key members
  | srem key members => Removes before after .set key members
  | zadd key members => Adds before after .zset key members.keys
  | zrem key members => Removes before after .zset key members
  | del key => Deletes before after [key]
  | delMany keys => Deletes before after keys
  | xdel key ids => RemovesEntries reader before after key ids
  | xack key group ids => Acknowledges reader before after key group ids

/-- The documented result, as a statement about the store before and after the call. Writing several fields is
    documented to succeed. -/
def documented (before after : Keyspace Id) : CountingCall → Value
  | hset key field _ => .flag (decide (field ∉ before.elements .hash key))
  | hsetMany _ _ => .flag true
  | hdel key _ | hdelMany key _ => removed before after .hash key
  | lpush key _ | lpushMany key _ | rpush key _ | rpushMany key _ => .integer (longLong (after.list key).length)
  | sadd key _ => added before after .set key
  | srem key _ => removed before after .set key
  | zadd key _ => added before after .zset key
  | zrem key _ => removed before after .zset key
  | del key => deleted before after [key]
  | delMany keys => deleted before after keys
  | xdel key _ => .integer (longLong ((before.stream key).length - (after.stream key).length))
  | xack key group _ => .integer (longLong (before.pending key group \ after.pending key group).card)

/-- The call has its effect on the store, and returns what is documented of it. One that the server refuses throws, and
    has none. -/
def Describes [Platform] (db : Keyspace Id) (call : CountingCall) : Prop :=
  ∃ outcome after, (call.operation.run (keyspaceServer reader)).run db = (outcome, after) ∧
    ((call.Refused reader db ∧ (∃ message, outcome = .error (.redisError message)) ∧ after = db) ∨
      (¬call.Refused reader db ∧ outcome = .ok (call.documented db after) ∧ call.Does reader db after))

/-- The call writes a field that is already there, or no fields at all, or more new ones than a `long long` counts. -/
def Misreports (db : Keyspace Id) : CountingCall → Prop
  | hset key field _ => field ∈ db.elements .hash key
  | hsetMany key hashMap =>
    hashMap.entries = [] ∨ longLong (hashMap.keys.toFinset \ db.elements .hash key).card < 0
  | _ => False

end CountingCall

/-! ### What a command does to its key -/

namespace Keyspace
variable {Id : Type} {db : Keyspace Id} {kind : DictKind} {key : Bytes}

theorem dict_putDict (db : Keyspace Id) (kind : DictKind) (key : Bytes) (m : UnorderedMap Bytes Bytes) :
    (db.putDict kind key m).dict kind key = m := by
  unfold dict putDict
  rw [Function.update_self]
  by_cases hm : m.entries = []
  · rw [if_pos hm]
    exact (AList.ext hm).symm
  · rw [if_neg hm]
    exact if_pos rfl

theorem untouched_putDict (db : Keyspace Id) (kind : DictKind) (key : Bytes) (m : UnorderedMap Bytes Bytes) :
    Untouched db (db.putDict kind key m) key := fun _ hk => Function.update_of_ne hk _ _

theorem holdsDict_putDict (db : Keyspace Id) (kind : DictKind) (key : Bytes) (m : UnorderedMap Bytes Bytes) :
    (db.putDict kind key m).HoldsDict kind key := by
  unfold HoldsDict putDict
  rw [Function.update_self]
  by_cases hm : m.entries = []
  · exact Or.inl (if_pos hm)
  · exact Or.inr ⟨m, if_neg hm⟩

theorem onDict_eq (h : db.HoldsDict kind key) (f : UnorderedMap Bytes Bytes → Nat × UnorderedMap Bytes Bytes) :
    db.onDict kind key f = (count (f (db.dict kind key)).1, db.putDict kind key (f (db.dict kind key)).2) := by
  unfold onDict dict
  rcases h with hnone | ⟨m, hm⟩
  · rw [hnone]
  · rw [hm]
    dsimp only
    rw [if_pos rfl, if_pos rfl]

theorem mem_elements {db : Keyspace Id} {kind : DictKind} {key x : Bytes} :
    x ∈ db.elements kind key ↔ x ∈ db.dict kind key := by
  rw [elements, List.mem_toFinset, AList.mem_keys]

theorem adds_addAll (db : Keyspace Id) (kind : DictKind) (key : Bytes) (l : List (Bytes × Bytes)) :
    Adds db (db.putDict kind key (addAll l (db.dict kind key)).2) kind key (l.map Prod.fst) := by
  refine ⟨?_, untouched_putDict _ _ _ _⟩
  ext x
  rw [Finset.mem_union, mem_elements, mem_elements, dict_putDict, List.mem_toFinset]
  exact UnorderedMap.mem_insertAll

theorem removes_eraseAll (db : Keyspace Id) (kind : DictKind) (key : Bytes) (l : List Bytes) :
    Removes db (db.putDict kind key ((db.dict kind key).eraseAll l).2) kind key l := by
  refine ⟨?_, untouched_putDict _ _ _ _⟩
  ext x
  rw [Finset.mem_sdiff, mem_elements, mem_elements, dict_putDict, List.mem_toFinset, ← AList.lookup_isSome,
    UnorderedMap.lookup_eraseAll]
  by_cases hx : x ∈ l
  · simp [hx]
  · simp [hx, AList.lookup_isSome]

theorem added_of_adds {before after : Keyspace Id} {l : List Bytes} (h : Adds before after kind key l) :
    added before after kind key = .integer (longLong (l.toFinset.filter (· ∉ before.dict kind key)).card) := by
  have hnew : after.elements kind key \ before.elements kind key =
      l.toFinset.filter (· ∉ before.dict kind key) := by
    ext x
    rw [h.1, Finset.union_sdiff_left, Finset.mem_sdiff, Finset.mem_filter, mem_elements]
  rw [added, hnew]

theorem removed_of_removes {before after : Keyspace Id} {l : List Bytes} (h : Removes before after kind key l) :
    removed before after kind key = .integer (longLong (l.toFinset.filter (· ∈ before.dict kind key)).card) := by
  have hgone : before.elements kind key \ after.elements kind key =
      l.toFinset.filter (· ∈ before.dict kind key) := by
    ext x
    rw [h.1, sdiff_sdiff_right_self, Finset.inf_eq_inter, Finset.mem_inter, Finset.mem_filter, mem_elements, and_comm]
  rw [removed, hgone]

theorem adds_nil (db : Keyspace Id) (kind : DictKind) (key : Bytes) :
    Adds db db kind key [] ∧ added db db kind key = .integer (longLong 0) :=
  ⟨⟨by simp, fun _ _ => rfl⟩, by rw [added, sdiff_self]; rfl⟩

theorem removes_nil (db : Keyspace Id) (kind : DictKind) (key : Bytes) :
    Removes db db kind key [] ∧ removed db db kind key = .integer (longLong 0) :=
  ⟨⟨by simp, fun _ _ => rfl⟩, by rw [removed, sdiff_self]; rfl⟩

section Steps
variable [DecidableEq Id] {reader : ArgumentReader Id}

theorem step_zadd (db : Keyspace Id) (key : Bytes) {args : List Bytes} (hne : args ≠ [])
    (heven : ¬args.length % 2 ≠ 0) :
    db.step reader "ZADD" key args = db.addScores reader key (Reply.twoByTwo args) := by
  show (if args = [] then _ else if args.length % 2 ≠ 0 then _ else _) = _
  rw [if_neg hne, if_neg heven]
  rfl

theorem step_hset (db : Keyspace Id) (key : Bytes) {args : List Bytes} (hne : args ≠ [])
    (heven : ¬args.length % 2 ≠ 0) :
    db.step reader "HSET" key args = db.onDict .hash key (addAll (Reply.twoByTwo args)) := by
  show (if args = [] then _ else if args.length % 2 ≠ 0 then _ else _) = _
  rw [if_neg hne, if_neg heven]
  rfl

end Steps

theorem onList_eq (h : db.HoldsList key) (f : List Bytes → List Bytes) :
    ∃ after, db.onList key f = (count (f (db.list key)).length, after) ∧ Becomes db after key (f (db.list key)) := by
  have hput (l : List Bytes) :
      Becomes db (Function.update db key (if f l = [] then none else some (.list (f l)))) key (f l) := by
    refine ⟨?_, fun _ hk => Function.update_of_ne hk _ _⟩
    unfold list
    rw [Function.update_self]
    by_cases hl : f l = []
    · rw [if_pos hl]
      exact hl.symm
    · rw [if_neg hl]
  unfold onList
  rcases h with hnone | ⟨l, hl⟩
  · rw [show db.list key = [] by unfold list; rw [hnone], hnone]
    exact ⟨_, rfl, hput []⟩
  · rw [show db.list key = l by unfold list; rw [hl], hl]
    exact ⟨_, rfl, hput l⟩

section Streams
variable [DecidableEq Id] {reader : ArgumentReader Id}

omit [DecidableEq Id] in
/-- Arguments are ids, all of them, or one of them is not. -/
theorem mapM_id (reader : ArgumentReader Id) (ids : List Bytes) :
    ((∃ id ∈ ids, reader.id id = none) ∧ ids.mapM reader.id = none) ∨
      ((¬∃ id ∈ ids, reader.id id = none) ∧ ids.mapM reader.id = some (reader.ids ids)) := by
  unfold ArgumentReader.ids
  induction ids with
  | nil => exact Or.inr ⟨by simp, rfl⟩
  | cons id ids ih =>
    rw [List.mapM_cons]
    cases hid : reader.id id with
    | none => exact Or.inl ⟨⟨id, List.mem_cons_self, hid⟩, rfl⟩
    | some n =>
      rcases ih with ⟨⟨id', hmem, hid'⟩, hnone⟩ | ⟨hall, hsome⟩
      · exact Or.inl ⟨⟨id', List.mem_cons_of_mem id hmem, hid'⟩, by rw [hnone]; rfl⟩
      · refine Or.inr ⟨fun h => ?_, by rw [hsome, List.filterMap_cons_some hid]; rfl⟩
        obtain ⟨id', hmem, hid'⟩ := h
        rcases List.mem_cons.mp hmem with rfl | hmem
        · cases hid.symm.trans hid'
        · exact hall ⟨id', hmem, hid'⟩

omit [DecidableEq Id] in
theorem stream_of_none (h : db key = none) : db.stream key = [] := by
  unfold stream
  rw [h]

omit [DecidableEq Id] in
theorem stream_of_some {l : List (Id × List Bytes)} {groups : Bytes → Option (Finset Id)}
    (h : db key = some (.stream l groups)) : db.stream key = l := by
  unfold stream
  rw [h]

omit [DecidableEq Id] in
theorem pending?_of_some {l : List (Id × List Bytes)} {groups : Bytes → Option (Finset Id)}
    (h : db key = some (.stream l groups)) (group : Bytes) : db.pending? key group = groups group := by
  unfold pending?
  rw [h]

/-- `XDEL`, where something is deleted or there is nothing to delete from. -/
theorem deleteEntries_eq (h : db.HoldsStream key) {ids : List Bytes}
    (hids : ¬((db key).isSome ∧ ∃ id ∈ ids, reader.id id = none)) :
    ∃ after, db.deleteEntries reader key ids =
        (count ((db.stream key).filter (·.1 ∈ reader.ids ids)).length, after) ∧
      RemovesEntries reader db after key ids := by
  unfold deleteEntries
  rcases h with hnone | ⟨l, groups, hl⟩
  · rw [stream_of_none hnone, hnone]
    refine ⟨db, rfl, ?_, fun _ => rfl, fun _ _ => rfl⟩
    rw [stream_of_none hnone]
    rfl
  · rcases mapM_id reader ids with ⟨hsome, -⟩ | ⟨-, hread⟩
    · exact absurd ⟨by rw [hl]; rfl, hsome⟩ hids
    · have hself := Function.update_self key (some (Content.stream (l.filter (·.1 ∉ reader.ids ids)) groups)) db
      rw [stream_of_some hl, hl]
      dsimp only
      rw [hread]
      refine ⟨_, rfl, ?_, fun group => ?_, fun _ hk => Function.update_of_ne hk _ _⟩
      · rw [stream_of_some hl]
        exact stream_of_some hself
      · rw [pending?_of_some hl]
        exact pending?_of_some hself group

theorem deleteEntries_refused (h : db.HoldsStream key) {ids : List Bytes} (hsome : (db key).isSome)
    (hids : ∃ id ∈ ids, reader.id id = none) : db.deleteEntries reader key ids = (invalidId, db) := by
  unfold deleteEntries
  rcases h with hnone | ⟨l, groups, hl⟩
  · rw [hnone] at hsome
    cases hsome
  · rcases mapM_id reader ids with ⟨-, hread⟩ | ⟨hall, -⟩
    · rw [hl]
      dsimp only
      rw [hread]
    · exact absurd hids hall

/-- `XACK`, where something is acknowledged or there is nothing to acknowledge. -/
theorem acknowledge_eq (h : db.HoldsStream key) {group : Bytes} {ids : List Bytes}
    (hids : ¬((db.pending? key group).isSome ∧ ∃ id ∈ ids, reader.id id = none)) :
    ∃ after, db.acknowledge reader key group ids =
        (count (db.pending key group ∩ (reader.ids ids).toFinset).card, after) ∧
      Acknowledges reader db after key group ids := by
  have hunchanged (hpending : db.pending? key group = none) : Acknowledges reader db db key group ids := by
    refine ⟨?_, rfl, fun _ _ => rfl, fun _ _ => rfl⟩
    unfold pending
    rw [hpending]
    exact (Finset.empty_sdiff _).symm
  unfold acknowledge
  rcases h with hnone | ⟨l, groups, hl⟩
  · have hpending : db.pending? key group = none := by
      unfold pending?
      rw [hnone]
    refine ⟨db, ?_, hunchanged hpending⟩
    rw [pending, hpending, hnone]
    rw [Option.getD_none, Finset.empty_inter]
    rfl
  · have hpending := pending?_of_some hl group
    rw [hl]
    dsimp only
    cases hgroup : groups group with
    | none =>
      rw [hgroup] at hpending
      refine ⟨db, ?_, hunchanged hpending⟩
      rw [pending, hpending, Option.getD_none, Finset.empty_inter]
      rfl
    | some pending =>
      rw [hgroup] at hpending
      rcases mapM_id reader ids with ⟨hsome, -⟩ | ⟨-, hread⟩
      · exact absurd ⟨by rw [hpending]; rfl, hsome⟩ hids
      · have hself := Function.update_self key (some (Content.stream l
          (Function.update groups group (some (pending \ (reader.ids ids).toFinset))))) db
        dsimp only
        rw [hread, Keyspace.pending, hpending, Option.getD_some]
        refine ⟨_, rfl, ?_, ?_, fun g hg => ?_, fun _ hk => Function.update_of_ne hk _ _⟩
        · rw [Keyspace.pending, Keyspace.pending, hpending, pending?_of_some hself, Function.update_self]
          rfl
        · rw [stream_of_some hl]
          exact stream_of_some hself
        · rw [pending?_of_some hl, pending?_of_some hself, Function.update_of_ne hg]

theorem acknowledge_refused (h : db.HoldsStream key) {group : Bytes} {ids : List Bytes}
    (hsome : (db.pending? key group).isSome) (hids : ∃ id ∈ ids, reader.id id = none) :
    db.acknowledge reader key group ids = (invalidId, db) := by
  unfold acknowledge
  rcases h with hnone | ⟨l, groups, hl⟩
  · unfold pending? at hsome
    rw [hnone] at hsome
    cases hsome
  · rw [pending?_of_some hl] at hsome
    obtain ⟨pending, hgroup⟩ := Option.isSome_iff_exists.mp hsome
    rcases mapM_id reader ids with ⟨-, hread⟩ | ⟨hall, -⟩
    · rw [hl]
      dsimp only
      rw [hgroup]
      dsimp only
      rw [hread]
    · exact absurd hids hall

end Streams

theorem deletes_deleteAll (db : Keyspace Id) (keys : List Bytes) : Deletes db (db.deleteAll keys).2 keys := by
  induction keys generalizing db with
  | nil => exact fun key => (if_neg List.not_mem_nil).symm
  | cons k keys ih =>
    intro key
    show (deleteAll (Function.update db k none) keys).2 key = _
    rw [ih]
    by_cases hkeys : key ∈ keys
    · rw [if_pos hkeys, if_pos (List.mem_cons_of_mem k hkeys)]
    · by_cases hk : key = k
      · subst hk
        rw [if_neg hkeys, if_pos List.mem_cons_self, Function.update_self]
      · rw [if_neg hkeys, if_neg (by simp [hk, hkeys]), Function.update_of_ne hk]

theorem fst_deleteAll (db : Keyspace Id) (keys : List Bytes) :
    (db.deleteAll keys).1 = (keys.toFinset.filter fun key => (db key).isSome).card := by
  induction keys generalizing db with
  | nil => rfl
  | cons k keys ih =>
    have hrest : (keys.toFinset.filter fun key => (Function.update db k none key).isSome) =
        (keys.toFinset.filter fun key => (db key).isSome).erase k := by
      ext key
      rw [Finset.mem_erase, Finset.mem_filter, Finset.mem_filter]
      by_cases hk : key = k
      · subst hk
        simp
      · simp [hk]
    show (if (db k).isSome then 1 else 0) + (deleteAll (Function.update db k none) keys).1 = _
    rw [ih, hrest, UnorderedMap.card_filter_toFinset_cons]

theorem deleted_of_deletes {before after : Keyspace Id} {keys : List Bytes} (h : Deletes before after keys) :
    deleted before after keys = .integer (longLong (keys.toFinset.filter fun key => (before key).isSome).card) := by
  have hgone : (keys.toFinset.filter fun key => (before key).isSome ∧ (after key).isNone) =
      keys.toFinset.filter fun key => (before key).isSome := by
    refine Finset.filter_congr fun key hkey => ?_
    rw [h key, if_pos (List.mem_toFinset.mp hkey)]
    simp
  rw [deleted, hgone]

end Keyspace

/-! ### What each call returns -/

namespace CountingCall

section Calls
variable [Platform] {Id : Type} [DecidableEq Id] {reader : ArgumentReader Id} {db : Keyspace Id} {call : CountingCall}

theorem describes_of_run {after : Keyspace Id} (haccepted : ¬call.Refused reader db)
    (hrun : (call.operation.run (keyspaceServer reader)).run db = (.ok (call.documented db after), after))
    (hdoes : call.Does reader db after) : call.Describes reader db :=
  ⟨_, after, hrun, Or.inr ⟨haccepted, rfl, hdoes⟩⟩

theorem describes_of_count {argv : List Bytes} {c : Bytes} {n : Nat} {after : Keyspace Id}
    (haccepted : ¬call.Refused reader db) (hplan : call.operation.plan = .send argv (.integer c))
    (hserver : (keyspaceServer reader argv).run db = (.ok (Keyspace.count n), after))
    (hdoes : call.Does reader db after) (hresult : call.documented db after = .integer (longLong n)) :
    call.Describes reader db := by
  refine describes_of_run haccepted ?_ hdoes
  rw [run_of_reply hplan hserver, hresult, Interpretation.decode, Keyspace.count, integerReply_count]
  rfl

theorem describes_of_nothing (haccepted : ¬call.Refused reader db)
    (hplan : call.operation.plan = .answer (.integer 0)) (hdoes : call.Does reader db db)
    (hresult : call.documented db db = .integer (longLong 0)) : call.Describes reader db := by
  have hzero : longLong 0 = 0 := longLong_of_lt (by decide)
  refine describes_of_run haccepted ?_ hdoes
  rw [Operation.run_eq_plan, hplan, hresult, hzero]
  rfl

theorem describes_of_error {argv : List Bytes} {c message : Bytes} (hrefused : call.Refused reader db)
    (hplan : call.operation.plan = .send argv (.integer c))
    (hserver : (keyspaceServer reader argv).run db = (.ok (.error message), db)) : call.Describes reader db := by
  refine ⟨.error (.redisError message), db, ?_, Or.inl ⟨hrefused, ⟨message, rfl⟩, rfl⟩⟩
  rw [run_of_reply hplan hserver]
  rfl

section Dict
variable {kind : DictKind} {key c : Bytes} {args : List Bytes}

theorem describes_of_addAll {l : List (Bytes × Bytes)} (haccepted : ¬call.Refused reader db)
    (h : db.HoldsDict kind key) (hplan : call.operation.plan = .send (c :: key :: args) (.integer c))
    (hserver : (keyspaceServer reader (c :: key :: args)).run db =
      (.ok (db.onDict kind key (Keyspace.addAll l)).1, (db.onDict kind key (Keyspace.addAll l)).2))
    (hdoes : ∀ after, Adds db after kind key (l.map Prod.fst) → call.Does reader db after)
    (hresult : ∀ after, call.documented db after = added db after kind key) : call.Describes reader db := by
  have hadds := Keyspace.adds_addAll db kind key l
  rw [Keyspace.onDict_eq h] at hserver
  exact describes_of_count haccepted hplan hserver (hdoes _ hadds)
    ((hresult _).trans (Keyspace.added_of_adds hadds))

/-- A call that removes the elements of a list, and sends nothing for the empty one. -/
theorem describes_of_eraseAll {l : List Bytes} (haccepted : ¬call.Refused reader db) (h : db.HoldsDict kind key)
    (hplan : call.operation.plan = .unlessEmpty l.isEmpty (.integer 0) (.send (c :: key :: l) (.integer c)))
    (hserver : ∀ x l, (keyspaceServer reader (c :: key :: x :: l)).run db =
      (.ok (db.onDict kind key (·.eraseAll (x :: l))).1, (db.onDict kind key (·.eraseAll (x :: l))).2))
    (hdoes : ∀ after, Removes db after kind key l → call.Does reader db after)
    (hresult : ∀ after, call.documented db after = removed db after kind key) : call.Describes reader db := by
  cases l with
  | nil =>
    obtain ⟨hremoves, hnone⟩ := Keyspace.removes_nil db kind key
    exact describes_of_nothing haccepted hplan (hdoes db hremoves) ((hresult db).trans hnone)
  | cons x l =>
    have hremoves := Keyspace.removes_eraseAll db kind key (x :: l)
    have hanswer := hserver x l
    rw [Keyspace.onDict_eq h] at hanswer
    refine describes_of_count haccepted hplan hanswer (hdoes _ hremoves) ?_
    rw [hresult, Keyspace.removed_of_removes hremoves, UnorderedMap.fst_eraseAll]

end Dict

/-- A call that sends a command on a list, whose answer is the length of what becomes of it. -/
theorem describes_of_onList {key c : Bytes} {args : List Bytes} {f : List Bytes → List Bytes}
    (haccepted : ¬call.Refused reader db) (h : db.HoldsList key)
    (hplan : call.operation.plan = .send (c :: key :: args) (.integer c))
    (hserver : (keyspaceServer reader (c :: key :: args)).run db = (.ok (db.onList key f).1, (db.onList key f).2))
    (hdoes : ∀ after, Becomes db after key (f (db.list key)) → call.Does reader db after)
    (hresult : ∀ after, call.documented db after = .integer (longLong (after.list key).length)) :
    call.Describes reader db := by
  obtain ⟨after, hlist, hbecomes⟩ := Keyspace.onList_eq h f
  rw [hlist] at hserver
  exact describes_of_count haccepted hplan hserver (hdoes after hbecomes) (by rw [hresult, hbecomes.1])

theorem lpushMany_describes {key : Bytes} {values : List Bytes} (h : db.HoldsList key) :
    (lpushMany key values).Describes reader db := by
  cases values with
  | nil => exact describes_of_onList id h rfl rfl (fun _ hdoes => hdoes) fun _ => rfl
  | cons value values =>
    exact describes_of_onList id h rfl (f := ((value :: values).reverse ++ ·)) rfl (fun _ hdoes => hdoes) fun _ => rfl

theorem rpushMany_describes {key : Bytes} {values : List Bytes} (h : db.HoldsList key) :
    (rpushMany key values).Describes reader db := by
  cases values with
  | nil =>
    refine describes_of_onList id h rfl (f := id) rfl (fun after hdoes => ?_) fun _ => rfl
    show Becomes db after key (db.list key ++ [])
    rwa [List.append_nil]
  | cons value values =>
    exact describes_of_onList id h rfl (f := (· ++ value :: values)) rfl (fun _ hdoes => hdoes) fun _ => rfl

theorem sadd_describes {key : Bytes} {members : List Bytes} (h : db.HoldsDict .set key) :
    (sadd key members).Describes reader db := by
  cases members with
  | nil => exact describes_of_nothing id rfl (Keyspace.adds_nil db .set key).1 (Keyspace.adds_nil db .set key).2
  | cons member members =>
    refine describes_of_addAll (l := (member :: members).map fun member => (member, [])) id h rfl rfl
      (fun after hdoes => ?_) fun _ => rfl
    show Adds db after .set key (member :: members)
    rwa [List.map_map, Function.comp_def, List.map_id'] at hdoes

omit [DecidableEq Id] in
/-- What a map adds does not depend on the order in which it is visited. -/
theorem adds_of_visit {V : Type} {kind : DictKind} {key : Bytes} {after : Keyspace Id} {m : UnorderedMap Bytes V}
    (h : Adds db after kind key ((visit m).map Prod.fst)) : Adds db after kind key m.keys := by
  have hset : ((visit m).map Prod.fst).toFinset = m.keys.toFinset := by
    rw [← UnorderedMap.map_fst_pairs]
    exact List.toFinset_eq_of_perm _ _ ((visit_perm m).map Prod.fst)
  exact ⟨hset ▸ h.1, h.2⟩

omit [Platform] in
theorem keys_of_empty {V : Type} {m : UnorderedMap Bytes V} (h : m.entries = []) : m.keys = [] := by
  rw [AList.keys, List.keys, h, List.map_nil]

theorem zadd_describes {key : Bytes} {members : UnorderedMap Bytes Double} (h : db.HoldsDict .zset key) :
    (zadd key members).Describes reader db := by
  have hscores : (∃ d ∈ members.vals, reader.isScore (Platform.toCharsDouble d) = false) ↔
      ((visit members).all fun member => reader.isScore (Platform.toCharsDouble member.2)) = false := by
    have hperm : ((visit members).map Prod.snd).Perm members.vals := by
      rw [UnorderedMap.vals_eq]
      exact (visit_perm members).map Prod.snd
    rw [List.all_eq_false]
    constructor
    · rintro ⟨d, hd, hfalse⟩
      obtain ⟨member, hmember, rfl⟩ := List.mem_map.mp (hperm.mem_iff.mpr hd)
      exact ⟨member, hmember, by rw [hfalse]; exact Bool.false_ne_true⟩
    · rintro ⟨member, hmember, hfalse⟩
      exact ⟨member.2, hperm.mem_iff.mp (List.mem_map_of_mem hmember), Bool.eq_false_iff.mpr hfalse⟩
  by_cases hempty : members.entries = []
  · have hplan : (zadd key members).operation.plan = .answer (.integer 0) := by
      show Plan.unlessEmpty members.entries.isEmpty _ _ = _
      rw [hempty]
      rfl
    have haccepted : ¬(zadd key members).Refused reader db := by
      rintro ⟨d, hd, -⟩
      have hvals : members.vals = [] := List.map_eq_nil_iff.mpr hempty
      rw [hvals] at hd
      cases hd
    refine describes_of_nothing haccepted hplan ?_ (Keyspace.adds_nil db .zset key).2
    show Adds db db .zset key members.keys
    rw [keys_of_empty hempty]
    exact (Keyspace.adds_nil db .zset key).1
  · let args := (visit members).flatMap fun member => [Platform.toCharsDouble member.2, member.1]
    have hvisit : visit members ≠ [] := mt visit_eq_nil_iff.mp hempty
    have hplan : (zadd key members).operation.plan = .send ("ZADD" :: key :: args) (.integer "ZADD") := by
      show Plan.unlessEmpty members.entries.isEmpty _ (.ofArguments (CmdOps.zaddArguments key members) _) = _
      rw [List.isEmpty_eq_false_iff.mpr hempty, zaddArguments_eq]
      rfl
    obtain ⟨hne, heven⟩ := not_or.mp (Reply.flatMap_pair_wellFormed
      (fun member : Bytes × Double => Platform.toCharsDouble member.2) Prod.fst hvisit)
    have hserver : (keyspaceServer reader ("ZADD" :: key :: args)).run db =
        (.ok (db.step reader "ZADD" key args).1, (db.step reader "ZADD" key args).2) := rfl
    have hpairs : Reply.twoByTwo args = (visit members).map fun member => (Platform.toCharsDouble member.2, member.1) :=
      Reply.twoByTwo_flatMap_pair _ _ _
    rw [Keyspace.step_zadd db key hne heven, hpairs, Keyspace.addScores, List.all_map, Function.comp_def] at hserver
    by_cases hall : ((visit members).all fun member => reader.isScore (Platform.toCharsDouble member.2)) = true
    · rw [if_pos hall] at hserver
      have haccepted : ¬(zadd key members).Refused reader db := fun hrefused =>
        Bool.false_ne_true ((hscores.mp hrefused).symm.trans hall)
      refine describes_of_addAll haccepted h hplan hserver (fun after hdoes => adds_of_visit ?_) fun _ => rfl
      rwa [List.map_map, List.map_map] at hdoes
    · rw [if_neg hall] at hserver
      exact describes_of_error (hscores.mpr (Bool.eq_false_iff.mpr hall)) hplan hserver

theorem del_describes (key : Bytes) : (del key).Describes reader db := by
  have hdeletes := Keyspace.deletes_deleteAll db [key]
  have hplan : (del key).operation.plan = .send ["DEL", key] (.integer "DEL") := rfl
  exact describes_of_count id hplan rfl hdeletes
    ((Keyspace.deleted_of_deletes hdeletes).trans (by rw [Keyspace.fst_deleteAll]))

theorem delMany_describes (keys : List Bytes) : (delMany keys).Describes reader db := by
  cases keys with
  | nil => exact describes_of_nothing id rfl (fun key => (if_neg List.not_mem_nil).symm) rfl
  | cons key keys =>
    have hdeletes := Keyspace.deletes_deleteAll db (key :: keys)
    have hplan : (delMany (key :: keys)).operation.plan = .send ("DEL" :: key :: keys) (.integer "DEL") := rfl
    exact describes_of_count id hplan rfl hdeletes
      ((Keyspace.deleted_of_deletes hdeletes).trans (by rw [Keyspace.fst_deleteAll]))

theorem xdel_describes {key : Bytes} {ids : List Bytes} (h : db.HoldsStream key) :
    (xdel key ids).Describes reader db := by
  cases ids with
  | nil =>
    have hall : (db.stream key).filter (fun e => decide (e.1 ∉ reader.ids [])) = db.stream key :=
      List.filter_eq_self.mpr fun _ _ => by simp [ArgumentReader.ids]
    refine describes_of_nothing (fun hrefused => ?_) rfl ⟨hall.symm, fun _ => rfl, fun _ _ => rfl⟩ ?_
    · obtain ⟨-, id, hid, -⟩ := hrefused
      cases hid
    · show Value.integer (longLong ((db.stream key).length - (db.stream key).length)) = _
      rw [Nat.sub_self]
  | cons id ids =>
    have hstep : (keyspaceServer reader ("XDEL" :: key :: id :: ids)).run db =
        (.ok (db.deleteEntries reader key (id :: ids)).1, (db.deleteEntries reader key (id :: ids)).2) := rfl
    have hplan : (xdel key (id :: ids)).operation.plan = .send ("XDEL" :: key :: id :: ids) (.integer "XDEL") := rfl
    by_cases hrefused : (xdel key (id :: ids)).Refused reader db
    · rw [Keyspace.deleteEntries_refused h hrefused.1 hrefused.2] at hstep
      exact describes_of_error hrefused hplan hstep
    · obtain ⟨after, hserver, hremoves⟩ := Keyspace.deleteEntries_eq h hrefused
      rw [hserver] at hstep
      refine describes_of_count hrefused hplan hstep hremoves ?_
      have hsplit := List.length_eq_length_filter_add (l := db.stream key) fun e =>
        decide (e.1 ∈ reader.ids (id :: ids))
      have hrest : ((db.stream key).filter fun e => decide (e.1 ∉ reader.ids (id :: ids))).length =
          ((db.stream key).filter fun e => !decide (e.1 ∈ reader.ids (id :: ids))).length := by
        simp only [decide_not]
      show Value.integer (longLong ((db.stream key).length - (after.stream key).length)) = _
      rw [hremoves.1, hrest, hsplit, Nat.add_sub_cancel]

theorem xack_describes {key group : Bytes} {ids : List Bytes} (h : db.HoldsStream key) :
    (xack key group ids).Describes reader db := by
  cases ids with
  | nil =>
    refine describes_of_nothing (fun hrefused => ?_) rfl
      ⟨?_, rfl, fun _ _ => rfl, fun _ _ => rfl⟩ ?_
    · obtain ⟨-, id, hid, -⟩ := hrefused
      cases hid
    · exact Finset.sdiff_empty.symm
    · show Value.integer (longLong (db.pending key group \ db.pending key group).card) = _
      rw [sdiff_self]
      rfl
  | cons id ids =>
    have hstep : (keyspaceServer reader ("XACK" :: key :: group :: id :: ids)).run db =
        (.ok (db.acknowledge reader key group (id :: ids)).1, (db.acknowledge reader key group (id :: ids)).2) := rfl
    have hplan : (xack key group (id :: ids)).operation.plan =
        .send ("XACK" :: key :: group :: id :: ids) (.integer "XACK") := rfl
    by_cases hrefused : (xack key group (id :: ids)).Refused reader db
    · rw [Keyspace.acknowledge_refused h hrefused.1 hrefused.2] at hstep
      exact describes_of_error hrefused hplan hstep
    · obtain ⟨after, hserver, hacknowledges⟩ := Keyspace.acknowledge_eq h hrefused
      rw [hserver] at hstep
      refine describes_of_count hrefused hplan hstep hacknowledges ?_
      show Value.integer (longLong (db.pending key group \ after.pending key group).card) = _
      rw [hacknowledges.1, sdiff_sdiff_right_self]
      rfl

/-! ### Writing fields -/

omit [Platform] in
theorem hsetReply_count (n : Nat) :
    Client.hsetReply (Keyspace.count n).toCmdReply = .ok (decide (0 ≤ longLong n)) := by
  have hinteger := integerReply_count n "HSET"
  unfold Client.integerReply at hinteger
  rw [Reply.orThrow_bind (by simp [Reply.kind])] at hinteger
  unfold Client.hsetReply Keyspace.count
  rw [Reply.orThrow_bind (by simp [Reply.kind]), if_pos (show (Reply.integer _).toCmdReply.type = .integer from rfl),
    hinteger, Except.ok_bind]
  rfl

variable (reader call) in
/-- Writing fields answers true when the number of new fields is not negative, as a `long long`. -/
theorem run_of_hset {key : Bytes} {args : List Bytes} {l : List (Bytes × Bytes)} (h : db.HoldsDict .hash key)
    (hne : args ≠ []) (heven : ¬args.length % 2 ≠ 0) (hpairs : Reply.twoByTwo args = l)
    (hplan : call.operation.plan = .send ("HSET" :: key :: args) .hset) :
    ∃ after, (call.operation.run (keyspaceServer reader)).run db =
        (.ok (.flag (decide (0 ≤ longLong ((l.map Prod.fst).toFinset \ db.elements .hash key).card))), after) ∧
      Adds db after .hash key (l.map Prod.fst) := by
  have hserver : (keyspaceServer reader ("HSET" :: key :: args)).run db =
      (.ok (db.step reader "HSET" key args).1, (db.step reader "HSET" key args).2) := rfl
  rw [Keyspace.step_hset db key hne heven, hpairs, Keyspace.onDict_eq h] at hserver
  have hnew : (l.map Prod.fst).toFinset \ db.elements .hash key =
      (l.map Prod.fst).toFinset.filter (· ∉ db.dict .hash key) := by
    ext x
    rw [Finset.mem_sdiff, Finset.mem_filter, Keyspace.mem_elements]
  refine ⟨_, ?_, Keyspace.adds_addAll db .hash key l⟩
  rw [run_of_reply hplan hserver, Interpretation.decode, hsetReply_count, hnew]
  rfl

/-- A flag that the call returns is the documented one, or the call does not describe its effect. -/
theorem describes_iff_flag {flag documented : Bool} {after : Keyspace Id}
    (hrun : (call.operation.run (keyspaceServer reader)).run db = (.ok (.flag flag), after))
    (haccepted : ¬call.Refused reader db) (hdoes : call.Does reader db after)
    (hdocumented : ∀ after, call.documented db after = .flag documented) :
    call.Describes reader db ↔ flag = documented := by
  constructor
  · rintro ⟨outcome, after', hrun', ⟨hrefused, -, -⟩ | ⟨-, hresult, -⟩⟩
    · exact absurd hrefused haccepted
    · have hflag : (Except.ok (.flag flag) : Outcome Value) = .ok (call.documented db after') :=
        (congrArg Prod.fst (hrun.symm.trans hrun')).trans hresult
      rw [hdocumented] at hflag
      exact Value.flag.inj (Except.ok.inj hflag)
  · rintro rfl
    exact describes_of_run haccepted (by rw [hrun, hdocumented]) hdoes

theorem hset_describes_iff {key field value : Bytes} (h : db.HoldsDict .hash key) :
    (hset key field value).Describes reader db ↔ field ∉ db.elements .hash key := by
  have hpairs : Reply.twoByTwo [field, value] = [(field, value)] := rfl
  obtain ⟨after, hrun, hadds⟩ := run_of_hset reader (hset key field value) h (by simp) (by simp) hpairs rfl
  have hone : 0 ≤ longLong (([(field, value)].map Prod.fst).toFinset \ db.elements .hash key).card := by
    have hcard := Finset.card_le_card (Finset.sdiff_subset (s := [field].toFinset) (t := db.elements .hash key))
    have hlt : ([field].toFinset \ db.elements .hash key).card < 2 ^ 63 := Nat.lt_of_le_of_lt hcard (by simp)
    show 0 ≤ longLong ([field].toFinset \ db.elements .hash key).card
    rw [longLong_of_lt hlt]
    exact Int.natCast_nonneg _
  rw [decide_eq_true hone] at hrun
  rw [describes_iff_flag hrun id hadds fun _ => rfl, eq_comm, decide_eq_true_iff]

theorem hsetMany_describes_iff {key : Bytes} {hashMap : UnorderedMap Bytes Bytes} (h : db.HoldsDict .hash key) :
    (hsetMany key hashMap).Describes reader db ↔ ¬(hsetMany key hashMap).Misreports db := by
  by_cases hempty : hashMap.entries = []
  · have hrun : ((hsetMany key hashMap).operation.run (keyspaceServer reader)).run db = (.ok (.flag false), db) := by
      have hplan : (hsetMany key hashMap).operation.plan = .answer (.flag false) := by
        show Plan.unlessEmpty hashMap.entries.isEmpty _ _ = _
        rw [hempty]
        rfl
      rw [Operation.run_eq_plan, hplan]
      rfl
    have hdoes : (hsetMany key hashMap).Does reader db db := by
      show Adds db db .hash key hashMap.keys
      rw [keys_of_empty hempty]
      exact (Keyspace.adds_nil db .hash key).1
    rw [describes_iff_flag hrun id hdoes fun _ => rfl]
    exact iff_of_false Bool.false_ne_true fun h => h (Or.inl hempty)
  · have hvisit : visit hashMap ≠ [] := mt visit_eq_nil_iff.mp hempty
    obtain ⟨hne, heven⟩ := not_or.mp (Reply.flatMap_pair_wellFormed Prod.fst Prod.snd hvisit)
    have hplan : (hsetMany key hashMap).operation.plan =
        .send ("HSET" :: key :: (visit hashMap).flatMap fun e => [e.1, e.2]) .hset := by
      show Plan.unlessEmpty hashMap.entries.isEmpty _ _ = _
      rw [List.isEmpty_eq_false_iff.mpr hempty]
      rfl
    obtain ⟨after, hrun, hadds⟩ := run_of_hset reader (hsetMany key hashMap) h hne heven
      (Reply.twoByTwo_flatMap_pair Prod.fst Prod.snd (visit hashMap)) hplan
    have hkeys : (((visit hashMap).map fun e => (e.1, e.2)).map Prod.fst).toFinset = hashMap.keys.toFinset := by
      rw [List.map_map, ← UnorderedMap.map_fst_pairs]
      exact List.toFinset_eq_of_perm _ _ ((visit_perm hashMap).map Prod.fst)
    rw [hkeys] at hrun
    have hdoes : Adds db after .hash key hashMap.keys := ⟨hkeys ▸ hadds.1, hadds.2⟩
    rw [describes_iff_flag hrun id hdoes fun _ => rfl, decide_eq_true_iff, ← not_lt]
    exact not_congr (or_iff_right hempty).symm

/-- Every call but the writes of fields describes its effect on the store. Writing one field claims to have created it,
    also where it was there already, and writing no fields at all is the one thing that does not succeed. -/
theorem describes_iff (call : CountingCall) (h : call.RightType db) :
    call.Describes reader db ↔ ¬call.Misreports db := by
  cases call with
  | hset key field value => exact hset_describes_iff h
  | hsetMany key hashMap => exact hsetMany_describes_iff h
  | hdel key hashKey =>
    exact iff_of_true (describes_of_eraseAll (l := [hashKey]) id h rfl (fun _ _ => rfl) (fun _ hdoes => hdoes)
      fun _ => rfl) id
  | hdelMany key hashKeys =>
    exact iff_of_true (describes_of_eraseAll id h rfl (fun _ _ => rfl) (fun _ hdoes => hdoes) fun _ => rfl) id
  | lpush key value =>
    exact iff_of_true (describes_of_onList (f := ([value] ++ ·)) id h rfl rfl (fun _ hdoes => hdoes) fun _ => rfl) id
  | lpushMany key values => exact iff_of_true (lpushMany_describes h) id
  | rpush key value =>
    exact iff_of_true (describes_of_onList (f := (· ++ [value])) id h rfl rfl (fun _ hdoes => hdoes) fun _ => rfl) id
  | rpushMany key values => exact iff_of_true (rpushMany_describes h) id
  | sadd key members => exact iff_of_true (sadd_describes h) id
  | srem key members =>
    exact iff_of_true (describes_of_eraseAll id h rfl (fun _ _ => rfl) (fun _ hdoes => hdoes) fun _ => rfl) id
  | zadd key members => exact iff_of_true (zadd_describes h) id
  | zrem key members =>
    exact iff_of_true (describes_of_eraseAll id h rfl (fun _ _ => rfl) (fun _ hdoes => hdoes) fun _ => rfl) id
  | del key => exact iff_of_true (del_describes key) id
  | delMany keys => exact iff_of_true (delMany_describes keys) id
  | xdel key ids => exact iff_of_true (xdel_describes h) id
  | xack key group ids => exact iff_of_true (xack_describes h) id

end Calls

/-- A server that takes all texts but one for scores, and reads an id as its text. -/
def textReader : ArgumentReader Bytes := ⟨fun text => decide (text ≠ "nan"), some⟩

/-- A store with one field of one hash. -/
def oneField : Keyspace Bytes := Keyspace.putDict (fun _ => none) .hash "h" (AList.insert "f" "1" ∅)

theorem describes_iff_hdelMany :
    @Describes Bytes _ textReader referencePlatform oneField (.hdelMany "h" ["f", "f", "g"]) :=
  (@describes_iff referencePlatform Bytes _ textReader oneField (.hdelMany "h" ["f", "f", "g"])
    (Keyspace.holdsDict_putDict _ _ _ _)).mpr id

/-- The second write of a field answers true. -/
theorem not_describes_hset : ¬@Describes Bytes _ textReader referencePlatform oneField (.hset "h" "f" "2") := by
  intro hdescribes
  have hnew := (@hset_describes_iff referencePlatform Bytes _ textReader oneField "h" "f" "2"
    (Keyspace.holdsDict_putDict _ _ _ _)).mp hdescribes
  rw [Keyspace.mem_elements, oneField, Keyspace.dict_putDict] at hnew
  exact hnew ((AList.mem_insert _).mpr (Or.inl rfl))

end CountingCall

end Redisdal
