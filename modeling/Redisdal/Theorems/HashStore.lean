import Redisdal.HashOperations
import Redisdal.Lib.Encoding
import Redisdal.Theorems.Requests
import Redisdal.Theorems.Replies

/-! # The typed hash view over a server

A server that keeps a map of byte strings under each key, the calls of the typed hash view, and the store of
finite maps that a run of calls on the server refines. -/

namespace Redisdal

/-! ### The server -/

/-- The order in which a server lists a hash, for each command that it executes. -/
structure ListingOrder where
  order : Nat → {α : Type} → List α → List α
  perm : ∀ (n : Nat) {α : Type} (l : List α), (order n l).Perm l

/-- The hash under each key, and the number of commands executed. -/
structure HashDb where
  hashes : Bytes → UnorderedMap Bytes Bytes
  clock : Nat

def HashDb.empty : HashDb := ⟨fun _ => ∅, 0⟩

/-- One command: its reply, and the hash that it leaves under its key. -/
def hashCommand (o : ListingOrder) (clock : Nat) (m : UnorderedMap Bytes Bytes) (command : Bytes)
    (args : List Bytes) : Reply × UnorderedMap Bytes Bytes :=
  if command = "HSET" then
    if args = [] ∨ args.length % 2 ≠ 0 then (.error "ERR wrong number of arguments for 'hset' command", m)
    else
      let pairs := Reply.twoByTwo args
      let added := (pairs.map Prod.fst).toFinset.filter (· ∉ m)
      (.integer (UInt64.ofNat added.card), m.insertAll pairs)
  else if command = "HGET" then
    match args with
    | [field] => (((AList.lookup field m).map Reply.string).getD .nil, m)
    | _ => (.error "ERR wrong number of arguments for 'hget' command", m)
  else if command = "HGETALL" then (.array (Reply.flatPairs (o.order clock m.pairs)), m)
  else if command = "HKEYS" then (.array ((o.order clock m.keys).map .string), m)
  else if command = "HVALS" then (.array ((o.order clock m.vals).map .string), m)
  else if command = "HDEL" then (.integer (UInt64.ofNat (m.eraseAll args).1), (m.eraseAll args).2)
  else (.error "ERR unknown command", m)

/-- A server of hashes. -/
def hashServer (o : ListingOrder) : Executor HashDb := fun argv => ⟨fun db =>
  match argv with
  | command :: key :: args =>
    let answer := hashCommand o db.clock (db.hashes key) command args
    (.ok answer.1, ⟨Function.update db.hashes key answer.2, db.clock + 1⟩)
  | _ => (.ok (.error "ERR wrong number of arguments"), ⟨db.hashes, db.clock + 1⟩)⟩

/-! ### Calls of the typed hash view -/

/-- A call of the typed hash view. -/
inductive HashCall (K V : Type) where
  | hset (key field : K) (value : V)
  | hsetMany (key : K) (hashMap : UnorderedMap K V)
  | hget (key hashKey : K)
  | hgetall (key : K)
  | hkeys (key : K)
  | hvals (key : K)
  | hdel (key hashKey : K)
  | hdelMany (key : K) (hashKeys : List K)

/-- What a call returns: a map by its value, keys as a set and values as a multiset. -/
inductive HashResult (K V : Type) where
  | done
  | value (value : Option V)
  | map (map : Finmap fun _ : K => V)
  | keys (keys : Finset K)
  | values (values : Multiset V)
  | count (count : Int)

variable {K V : Type} [DecidableEq K]

def HashCall.run [Platform] {σ : Type} (tpl : Template K V) (E : Executor σ) :
    HashCall K V → Program Exn σ (HashResult K V)
  | .hset key field value => (fun _ => .done) <$> HashOperations.hset tpl E key field value
  | .hsetMany key hashMap => (fun _ => .done) <$> HashOperations.hsetMany tpl E key hashMap
  | .hget key hashKey => .value <$> HashOperations.hget tpl E key hashKey
  | .hgetall key => (fun m => .map m.toFinmap) <$> HashOperations.hgetall tpl E key
  | .hkeys key => (fun l => .keys l.toFinset) <$> HashOperations.hkeys tpl E key
  | .hvals key => (fun l : List V => .values l) <$> HashOperations.hvals tpl E key
  | .hdel key hashKey => .count <$> HashOperations.hdel tpl E key hashKey
  | .hdelMany key hashKeys => .count <$> HashOperations.hdelMany tpl E key hashKeys

/-- A run of calls, each on a platform of its own. -/
def runHashCalls {σ : Type} (tpl : Template K V) (E : Executor σ) :
    List (Platform × HashCall K V) → Program Exn σ (List (HashResult K V))
  | [] => pure []
  | (platform, call) :: calls => do
    let result ← @HashCall.run K V _ platform σ tpl E call
    let results ← runHashCalls tpl E calls
    pure (result :: results)

/-! ### The abstract store -/

/-- A finite map under each key. -/
abbrev HashStore (K V : Type) : Type := K → Finmap fun _ : K => V

/-- A count as a `long long`. -/
def longLong (n : Nat) : Int := (n : Int).bmod (2 ^ 64)

theorem longLong_of_lt {n : Nat} (h : n < 2 ^ 63) : longLong n = n := by
  unfold longLong
  rw [Int.bmod_def]
  split <;> omega

namespace HashStore

/-- What a call returns and what it makes of the store. -/
def step (s : HashStore K V) : HashCall K V → HashResult K V × HashStore K V
  | .hset key field value => (.done, Function.update s key ((s key).insert field value))
  | .hsetMany key hashMap => (.done, Function.update s key (hashMap.toFinmap ∪ s key))
  | .hget key hashKey => (.value ((s key).lookup hashKey), s)
  | .hgetall key => (.map (s key), s)
  | .hkeys key => (.keys (s key).keys, s)
  | .hvals key => (.values ((s key).entries.map (·.2)), s)
  | .hdel key hashKey => (.count (if hashKey ∈ s key then 1 else 0), Function.update s key ((s key).erase hashKey))
  | .hdelMany key hashKeys =>
    (.count (longLong (hashKeys.toFinset.filter (· ∈ s key)).card),
      Function.update s key (hashKeys.foldl (fun f k => f.erase k) (s key)))

def run (s : HashStore K V) : List (HashCall K V) → List (HashResult K V)
  | [] => []
  | call :: calls => (s.step call).1 :: run (s.step call).2 calls

end HashStore

/-! ### Replies of the server -/

theorem getSignedInteger_integer (v : UInt64) :
    (Reply.integer v).toCmdReply.getSignedInteger = some (longLong v.toNat) := by
  have hv := v.toNat_lt
  unfold CmdReply.getSignedInteger longLong
  rw [show (Reply.integer v).toCmdReply.intValue = some v from rfl, Option.map_some, Int.bmod_def]
  split <;> split <;> congr 1 <;> omega

theorem integerReply_count (n : Nat) (c : Bytes) :
    Client.integerReply c (Reply.integer (UInt64.ofNat n)).toCmdReply = .ok (longLong n) := by
  have hmod : longLong (n % 2 ^ 64) = longLong n := by
    unfold longLong
    rw [Int.natCast_mod, Int.emod_bmod]
  unfold Client.integerReply CmdReply.asInteger
  rw [Reply.orThrow_bind (by simp [Reply.kind]), getSignedInteger_integer, UInt64.toNat_ofNat', hmod]
  rfl

theorem exists_hsetReply_integer (v : UInt64) : ∃ b, Client.hsetReply (Reply.integer v).toCmdReply = .ok b := by
  unfold Client.hsetReply
  rw [Reply.orThrow_bind (by simp [Reply.kind])]
  exact ⟨_, rfl⟩

theorem hashCommand_hset (o : ListingOrder) (clock : Nat) (m : UnorderedMap Bytes Bytes) {l : List (Bytes × Bytes)}
    (hl : l ≠ []) :
    ∃ added, hashCommand o clock m "HSET" (l.flatMap fun p => [p.1, p.2]) = (.integer added, m.insertAll l) := by
  refine ⟨UInt64.ofNat ((l.map Prod.fst).toFinset.filter (· ∉ m)).card, ?_⟩
  unfold hashCommand
  rw [if_pos rfl, if_neg (Reply.flatMap_pair_wellFormed Prod.fst Prod.snd hl), Reply.twoByTwo_flatMap]

/-! ### Encodings -/

/-- The text that a lawful serializer writes for each value. -/
structure Encodes {α : Type} (S : Serializer α) (enc : α → Bytes) : Prop where
  serialize : ∀ a, S.serialize a = .ok (enc a)
  deserialize : ∀ a, S.deserialize (enc a) = .ok a

namespace Encodes
variable {α : Type} {S : Serializer α} {enc : α → Bytes}

theorem injective (h : Encodes S enc) : Function.Injective enc := fun a b hab =>
  Except.ok.inj ((h.deserialize a).symm.trans ((congrArg S.deserialize hab).trans (h.deserialize b)))

theorem mapM_serialize (h : Encodes S enc) (l : List α) : l.mapM S.serialize = .ok (l.map enc) :=
  Except.mapM_eq_map fun a _ => h.serialize a

theorem mapM_deserialize (h : Encodes S enc) (l : List α) : (l.map enc).mapM S.deserialize = .ok l :=
  Except.mapM_map_eq fun a _ => h.deserialize a

end Encodes

theorem Serializer.Lawful.exists_encodes {α : Type} {S : Serializer α} (h : S.Lawful) : ∃ enc, Encodes S enc := by
  choose enc hs hd using h
  exact ⟨enc, hs, hd⟩

/-! ### The simulation -/

/-- The server holds the encoded maps of the store. -/
def Simulates (encK : K → Bytes) {V : Type} (encV : V → Bytes) (db : HashDb) (s : HashStore K V) : Prop :=
  ∀ key, UnorderedMap.Represents encK encV (db.hashes (encK key)) (s key)

/-- A call does on the server what it does on the store. -/
def Matches {σ : Type} (R : σ → HashStore K V → Prop) (p : Program Exn σ (HashResult K V)) (db : σ)
    (next : HashResult K V × HashStore K V) : Prop :=
  ∃ db', p.run db = (.ok next.1, db') ∧ R db' next.2

section Calls
variable [Platform] {tpl : Template K V} {encK : K → Bytes} {encV : V → Bytes}
  (hK : Encodes tpl.keySerializer encK) (hV : Encodes tpl.valueSerializer encV) (o : ListingOrder)
  {db : HashDb} {s : HashStore K V} (h : Simulates encK encV db s)
include hK

omit [DecidableEq K] in
theorem keyAndField_eq (key hashKey : K) :
    HashOperations.keyAndField tpl key hashKey = .ok (encK key, encK hashKey) :=
  bothArguments_eq_ok.mpr ⟨hK.serialize key, hK.serialize hashKey⟩

/-! ### What each call sends -/

theorem run_hget {σ : Type} (E : Executor σ) (key hashKey : K) :
    (HashCall.hget key hashKey).run tpl E = HashResult.value <$>
      (CmdOps.cmdExecv E ["HGET", encK key, encK hashKey]).decode fun reply =>
        Client.optionalStringReply "HGET" reply >>= fun val => val.mapM tpl.deserializeValue := by
  show _ <$> HashOperations.hget tpl E key hashKey = _
  unfold HashOperations.hget Client.hget CmdOps.hget
  rw [keyAndField_eq hK, Program.ofExcept_ok_bind, Program.decode_decode]

theorem run_hgetall {σ : Type} (E : Executor σ) (key : K) :
    (HashCall.hgetall key).run tpl E = (fun m : UnorderedMap K V => HashResult.map m.toFinmap) <$>
      (CmdOps.cmdExecv E ["HGETALL", encK key]).decode fun reply =>
        Client.hashReply "HGETALL" reply >>= fun rawMap =>
          (visit rawMap).mapM (HashOperations.fieldAndValue tpl) >>= fun fields =>
            pure (UnorderedMap.emplaceAll ∅ fields) := by
  show _ <$> HashOperations.hgetall tpl E key = _
  unfold HashOperations.hgetall Client.hgetall CmdOps.hgetall Template.serializeKey
  rw [hK.serialize, Program.ofExcept_ok_bind, Program.decode_decode]

theorem run_hkeys {σ : Type} (E : Executor σ) (key : K) :
    (HashCall.hkeys (V := V) key).run tpl E = (fun l : List K => HashResult.keys l.toFinset) <$>
      (CmdOps.cmdExecv E ["HKEYS", encK key]).decode fun reply =>
        Client.stringsReply "HKEYS" reply >>= fun rawKeys => rawKeys.mapM tpl.deserializeKey := by
  show _ <$> HashOperations.hkeys tpl E key = _
  unfold HashOperations.hkeys Client.hkeys CmdOps.hkeys Template.serializeKey
  rw [hK.serialize, Program.ofExcept_ok_bind, Program.decode_decode]

theorem run_hvals {σ : Type} (E : Executor σ) (key : K) :
    (HashCall.hvals (V := V) key).run tpl E = (fun l : List V => HashResult.values l) <$>
      (CmdOps.cmdExecv E ["HVALS", encK key]).decode fun reply =>
        Client.stringsReply "HVALS" reply >>= fun rawVals => rawVals.mapM tpl.deserializeValue := by
  show _ <$> HashOperations.hvals tpl E key = _
  unfold HashOperations.hvals Client.hvals CmdOps.hvals Template.serializeKey
  rw [hK.serialize, Program.ofExcept_ok_bind, Program.decode_decode]

theorem run_hdel {σ : Type} (E : Executor σ) (key hashKey : K) :
    (HashCall.hdel (V := V) key hashKey).run tpl E = HashResult.count <$>
      (CmdOps.cmdExecv E ["HDEL", encK key, encK hashKey]).decode (Client.integerReply "HDEL") := by
  show _ <$> HashOperations.hdel tpl E key hashKey = _
  unfold HashOperations.hdel Client.hdel CmdOps.hdel
  rw [keyAndField_eq hK, Program.ofExcept_ok_bind]

theorem run_hdelMany {σ : Type} (E : Executor σ) (key : K) {hashKeys : List K} (hne : hashKeys ≠ []) :
    (HashCall.hdelMany (V := V) key hashKeys).run tpl E = HashResult.count <$>
      (CmdOps.cmdExecv E ("HDEL" :: encK key :: hashKeys.map encK)).decode (Client.integerReply "HDEL") := by
  show _ <$> HashOperations.hdelMany tpl E key hashKeys = _
  have hserialize : hashKeys.mapM tpl.serializeKey = .ok (hashKeys.map encK) := hK.mapM_serialize hashKeys
  have hfields : (hashKeys.map encK).isEmpty = false := by simpa using hne
  unfold HashOperations.hdelMany Client.hdelMany CmdOps.hdelMany
  rw [hserialize, Program.ofExcept_ok_bind, Template.serializeKey, hK.serialize, Program.ofExcept_ok_bind,
    hfields]
  rfl

include hV

theorem run_hset {σ : Type} (E : Executor σ) (key field : K) (value : V) :
    (HashCall.hset key field value).run tpl E = (fun _ => HashResult.done) <$>
      (CmdOps.cmdExecv E ["HSET", encK key, encK field, encV value]).decode Client.hsetReply := by
  show _ <$> HashOperations.hset tpl E key field value = _
  unfold HashOperations.hset Client.hset CmdOps.hset Template.serializeKey Template.serializeValue
  rw [hK.serialize, hK.serialize, hV.serialize, bothArguments_ok, bothArguments_ok, Program.ofExcept_ok_bind]

omit [DecidableEq K] in
theorem serialized_fields (hashMap : UnorderedMap K V) :
    ((visit hashMap).mapM fun pair => bothArguments (tpl.serializeKey pair.1) (tpl.serializeValue pair.2)) =
      .ok ((visit hashMap).map (Prod.map encK encV)) :=
  Except.mapM_eq_map fun pair _ => bothArguments_eq_ok.mpr ⟨hK.serialize pair.1, hV.serialize pair.2⟩

theorem run_hsetMany {σ : Type} (E : Executor σ) (key : K) {hashMap : UnorderedMap K V}
    (hne : UnorderedMap.emplaceAll ∅ ((visit hashMap).map (Prod.map encK encV)) ≠ ∅) :
    (HashCall.hsetMany key hashMap).run tpl E = (fun _ => HashResult.done) <$>
      (CmdOps.cmdExecv E ("HSET" :: encK key ::
        (visit (UnorderedMap.emplaceAll ∅ ((visit hashMap).map (Prod.map encK encV)))).flatMap
          fun value => [value.1, value.2])).decode Client.hsetReply := by
  show _ <$> HashOperations.hsetMany tpl E key hashMap = _
  have hentries : (UnorderedMap.emplaceAll ∅ ((visit hashMap).map (Prod.map encK encV))).entries.isEmpty = false := by
    rw [List.isEmpty_eq_false_iff]
    exact fun hnil => hne (AList.ext hnil)
  unfold HashOperations.hsetMany Client.hsetMany CmdOps.hsetMany
  rw [serialized_fields hK hV, Program.ofExcept_ok_bind, Template.serializeKey, hK.serialize,
    Program.ofExcept_ok_bind, hentries]
  rfl

include h

/-! ### What each call does on the server -/

omit [Platform] hV in
theorem simulates_update (clock : Nat) (key : K) {m : UnorderedMap Bytes Bytes} {f : Finmap fun _ : K => V}
    (hm : UnorderedMap.Represents encK encV m f) :
    Simulates encK encV ⟨Function.update db.hashes (encK key) m, clock⟩ (Function.update s key f) :=
  UnorderedMap.Represents.update hK.injective h key hm

omit [Platform] hV in
/-- A call that sends one command and decodes its reply. -/
theorem matches_of_answer {α : Type} {p : Program Exn HashDb (HashResult K V)} (key : K) {command : Bytes}
    {args : List Bytes} {f : CmdReply → Outcome α} {g : α → HashResult K V} {result : HashResult K V}
    {reply : Reply} {m : UnorderedMap Bytes Bytes} {next : Finmap fun _ : K => V}
    (hp : p = g <$> (CmdOps.cmdExecv (hashServer o) (command :: encK key :: args)).decode f)
    (hanswer : hashCommand o db.clock (db.hashes (encK key)) command args = (reply, m))
    (hresult : (f reply.toCmdReply).map g = .ok result) (hnext : UnorderedMap.Represents encK encV m next) :
    Matches (Simulates encK encV) p db (result, Function.update s key next) := by
  have hserver : (hashServer o (command :: encK key :: args)).run db =
      (.ok reply, ⟨Function.update db.hashes (encK key) m, db.clock + 1⟩) := by
    show (Except.ok (hashCommand o db.clock (db.hashes (encK key)) command args).1, _) = _
    rw [hanswer]
  refine ⟨_, ?_, simulates_update hK h (db.clock + 1) key hnext⟩
  rw [hp, Program.run_map, run_decode_of_reply _ hserver]
  exact Prod.ext hresult rfl

omit [Platform] hV in
/-- The same for a call that leaves the store as it is. -/
theorem matches_of_read {α : Type} {p : Program Exn HashDb (HashResult K V)} (key : K) {command : Bytes}
    {args : List Bytes} {f : CmdReply → Outcome α} {g : α → HashResult K V} {result : HashResult K V} {reply : Reply}
    (hp : p = g <$> (CmdOps.cmdExecv (hashServer o) (command :: encK key :: args)).decode f)
    (hanswer : hashCommand o db.clock (db.hashes (encK key)) command args = (reply, db.hashes (encK key)))
    (hresult : (f reply.toCmdReply).map g = .ok result) : Matches (Simulates encK encV) p db (result, s) := by
  have hmatches := matches_of_answer hK o h key hp hanswer hresult (h key)
  rwa [Function.update_eq_self] at hmatches

theorem hget_matches (key hashKey : K) :
    Matches (Simulates encK encV) ((HashCall.hget key hashKey).run tpl (hashServer o)) db
      (s.step (.hget key hashKey)) := by
  refine matches_of_read hK o h key (run_hget hK _ key hashKey) rfl ?_
  rw [(h key).lookup]
  cases (s key).lookup hashKey with
  | none => rfl
  | some v =>
    show Except.map HashResult.value (some <$> tpl.valueSerializer.deserialize (encV v)) = _
    rw [hV.deserialize]
    rfl

theorem hgetall_matches (key : K) :
    Matches (Simulates encK encV) ((HashCall.hgetall key).run tpl (hashServer o)) db (s.step (.hgetall key)) := by
  refine matches_of_read hK o h key (run_hgetall hK _ key) rfl ?_
  have hlisted : UnorderedMap.Represents encK encV
      (UnorderedMap.emplaceAll ∅ (o.order db.clock (db.hashes (encK key)).pairs)) (s key) :=
    (h key).congr fun c => by
      have hperm := o.perm db.clock (db.hashes (encK key)).pairs
      rw [UnorderedMap.lookup_emplaceAll_empty, UnorderedMap.lookup_perm hperm, UnorderedMap.lookup_pairs]
      exact (hperm.map Prod.fst).nodup_iff.mpr (UnorderedMap.nodup_pairs _)
  obtain ⟨entries, hentries, -, hfinmap⟩ := hlisted.exists_decoded hK.injective hV.injective (visit_perm _)
  have hdeserialize : (entries.map (Prod.map encK encV)).mapM (HashOperations.fieldAndValue tpl) = .ok entries :=
    Except.mapM_map_eq fun e _ => bothArguments_eq_ok.mpr ⟨hK.deserialize e.1, hV.deserialize e.2⟩
  unfold Client.hashReply
  rw [Reply.orThrow_bind (by simp [Reply.kind]), Reply.hash_flatPairs, Except.ok_bind, ← hentries, hdeserialize]
  exact congrArg (fun x => Except.ok (HashResult.map x)) hfinmap

omit hV in
theorem hkeys_matches (key : K) :
    Matches (Simulates encK encV) ((HashCall.hkeys key).run tpl (hashServer o)) db (s.step (.hkeys key)) := by
  refine matches_of_read hK o h key (run_hkeys hK _ key) rfl ?_
  obtain ⟨keys, hkeys, hset⟩ := (h key).exists_keys hK.injective (o.perm db.clock (db.hashes (encK key)).keys)
  unfold Client.stringsReply
  rw [Reply.orThrow_bind (by simp [Reply.kind]), Reply.strings_strings, Except.ok_bind, ← hkeys]
  show Except.map _ ((keys.map encK).mapM tpl.keySerializer.deserialize) = _
  rw [hK.mapM_deserialize]
  exact congrArg (fun x => Except.ok (HashResult.keys x)) hset

theorem hvals_matches (key : K) :
    Matches (Simulates encK encV) ((HashCall.hvals key).run tpl (hashServer o)) db (s.step (.hvals key)) := by
  refine matches_of_read hK o h key (run_hvals hK _ key) rfl ?_
  obtain ⟨vals, hvals, hmultiset⟩ :=
    (h key).exists_vals hK.injective hV.injective (o.perm db.clock (db.hashes (encK key)).vals)
  unfold Client.stringsReply
  rw [Reply.orThrow_bind (by simp [Reply.kind]), Reply.strings_strings, Except.ok_bind, ← hvals]
  show Except.map _ ((vals.map encV).mapM tpl.valueSerializer.deserialize) = _
  rw [hV.mapM_deserialize]
  exact congrArg (fun x => Except.ok (HashResult.values x)) hmultiset

theorem hset_matches (key field : K) (value : V) :
    Matches (Simulates encK encV) ((HashCall.hset key field value).run tpl (hashServer o)) db
      (s.step (.hset key field value)) := by
  obtain ⟨added, hanswer⟩ :=
    hashCommand_hset o db.clock (db.hashes (encK key)) (List.cons_ne_nil (encK field, encV value) [])
  obtain ⟨b, hb⟩ := exists_hsetReply_integer added
  refine matches_of_answer hK o h key (run_hset hK hV _ key field value) hanswer ?_
    ((h key).insert hK.injective field value)
  rw [hb]
  rfl

theorem hsetMany_matches (key : K) (hashMap : UnorderedMap K V) :
    Matches (Simulates encK encV) ((HashCall.hsetMany key hashMap).run tpl (hashServer o)) db
      (s.step (.hsetMany key hashMap)) := by
  have hrepresents := UnorderedMap.Represents.encoded hK.injective encV (visit_perm hashMap)
  by_cases hempty : UnorderedMap.emplaceAll ∅ ((visit hashMap).map (Prod.map encK encV)) = ∅
  · -- nothing is sent
    have hnone : hashMap.toFinmap = ∅ := (hempty ▸ hrepresents).eq_empty
    have hstep : s.step (.hsetMany key hashMap) = (.done, s) := by
      show (HashResult.done, Function.update s key (hashMap.toFinmap ∪ s key)) = _
      rw [hnone, Finmap.empty_union, Function.update_eq_self]
    rw [hstep]
    refine ⟨db, ?_, h⟩
    show (_ <$> HashOperations.hsetMany tpl (hashServer o) key hashMap).run db = _
    unfold HashOperations.hsetMany
    rw [serialized_fields hK hV, Program.ofExcept_ok_bind, Template.serializeKey, hK.serialize,
      Program.ofExcept_ok_bind, hempty]
    rfl
  · have hne : visit (UnorderedMap.emplaceAll ∅ ((visit hashMap).map (Prod.map encK encV))) ≠ [] := fun hnil =>
      hempty (AList.ext (visit_eq_nil_iff.mp hnil))
    obtain ⟨added, hanswer⟩ := hashCommand_hset o db.clock (db.hashes (encK key)) hne
    obtain ⟨b, hb⟩ := exists_hsetReply_integer added
    refine matches_of_answer hK o h key (run_hsetMany hK hV _ key hempty) hanswer ?_
      ((h key).union hrepresents (visit_perm _))
    rw [hb]
    rfl

omit hV in
theorem hdel_matches (key hashKey : K) :
    Matches (Simulates encK encV) ((HashCall.hdel key hashKey).run tpl (hashServer o)) db
      (s.step (.hdel key hashKey)) := by
  obtain ⟨herased, hcount⟩ := (h key).eraseAll hK.injective [hashKey]
  refine matches_of_answer hK o h key (run_hdel hK _ key hashKey) rfl ?_ herased
  rw [integerReply_count]
  refine congrArg (fun n => Except.ok (HashResult.count n)) ?_
  show longLong ((db.hashes (encK key)).eraseAll ([hashKey].map encK)).1 = if hashKey ∈ s key then 1 else 0
  rw [hcount, List.toFinset_cons, List.toFinset_nil, LawfulSingleton.insert_empty_eq, Finset.filter_singleton]
  split <;> exact longLong_of_lt (by simp)

omit hV in
theorem hdelMany_matches (key : K) (hashKeys : List K) :
    Matches (Simulates encK encV) ((HashCall.hdelMany key hashKeys).run tpl (hashServer o)) db
      (s.step (.hdelMany key hashKeys)) := by
  by_cases hne : hashKeys = []
  · -- nothing is sent
    subst hne
    have hstep : s.step (.hdelMany key []) = (.count 0, s) := by
      show (HashResult.count (longLong 0), Function.update s key (s key)) = _
      rw [Function.update_eq_self, longLong_of_lt (by decide)]
      rfl
    rw [hstep]
    refine ⟨db, ?_, h⟩
    show (_ <$> HashOperations.hdelMany tpl (hashServer o) key []).run db = _
    unfold HashOperations.hdelMany Template.serializeKey
    rw [hK.serialize]
    rfl
  · obtain ⟨herased, hcount⟩ := (h key).eraseAll hK.injective hashKeys
    refine matches_of_answer hK o h key (run_hdelMany hK _ key hne) rfl ?_ herased
    rw [integerReply_count, ← hcount]
    rfl

theorem step_matches (call : HashCall K V) :
    Matches (Simulates encK encV) (call.run tpl (hashServer o)) db (s.step call) := by
  cases call with
  | hset key field value => exact hset_matches hK hV o h key field value
  | hsetMany key hashMap => exact hsetMany_matches hK hV o h key hashMap
  | hget key hashKey => exact hget_matches hK hV o h key hashKey
  | hgetall key => exact hgetall_matches hK hV o h key
  | hkeys key => exact hkeys_matches hK o h key
  | hvals key => exact hvals_matches hK hV o h key
  | hdel key hashKey => exact hdel_matches hK o h key hashKey
  | hdelMany key hashKeys => exact hdelMany_matches hK o h key hashKeys

end Calls

/-! ### Runs -/

theorem runHashCalls_matches {tpl : Template K V} {encK : K → Bytes} {encV : V → Bytes}
    (hK : Encodes tpl.keySerializer encK) (hV : Encodes tpl.valueSerializer encV) (o : ListingOrder)
    (calls : List (Platform × HashCall K V)) {db : HashDb} {s : HashStore K V} (h : Simulates encK encV db s) :
    ((runHashCalls tpl (hashServer o) calls).run db).1 = .ok (s.run (calls.map Prod.snd)) := by
  induction calls generalizing db s with
  | nil => rfl
  | cons call calls ih =>
    obtain ⟨db', hrun, h'⟩ := @step_matches K V _ call.1 tpl encK encV hK hV o db s h call.2
    unfold runHashCalls
    rw [Program.run_bind, hrun, Program.resume_ok, Program.run_bind]
    have hrest := ih h'
    rcases hcalls : (runHashCalls tpl (hashServer o) calls).run db' with ⟨results, last⟩
    rw [hcalls] at hrest
    subst hrest
    rfl

/-- A run of typed hash calls on a server returns what the same calls return on a store of finite maps: the
    serializers, the order in which the server lists a hash and the order in which each loop visits a map
    leave no trace. -/
theorem hashCalls_refine_store {tpl : Template K V} (hK : tpl.keySerializer.Lawful) (hV : tpl.valueSerializer.Lawful)
    (o : ListingOrder) (calls : List (Platform × HashCall K V)) :
    ((runHashCalls tpl (hashServer o) calls).run HashDb.empty).1 =
      .ok (HashStore.run (fun _ => ∅) (calls.map Prod.snd)) := by
  obtain ⟨encK, hencK⟩ := hK.exists_encodes
  obtain ⟨encV, hencV⟩ := hV.exists_encodes
  exact runHashCalls_matches hencK hencV o calls fun _ => UnorderedMap.Represents.empty

theorem stringSerializer_lawful : stringSerializer.Lawful := fun text => ⟨text, rfl, rfl⟩

/-- A server that lists a hash as it is stored. -/
def ListingOrder.stored : ListingOrder := ⟨fun _ _ l => l, fun _ _ l => List.Perm.refl l⟩

theorem hashCalls_refine_store_string :
    ((runHashCalls stringTemplate (hashServer .stored)
      [(referencePlatform, .hset "h" "f" "v"), (referencePlatform, .hget "h" "f"), (referencePlatform, .hdel "h" "f"),
        (referencePlatform, .hget "h" "f")]).run HashDb.empty).1 =
      .ok [.done, .value (some "v"), .count 1, .value none] :=
  (hashCalls_refine_store stringSerializer_lawful stringSerializer_lawful .stored _).trans rfl

end Redisdal
