import Redisdal.Lib.DecimalText
import Redisdal.Theorems.Decoding
import Redisdal.Theorems.HashStore
import Redisdal.Theorems.Numbers
import Redisdal.ZsetOperations

/-! # The typed sorted-set view over a server

A server that keeps a score for each member of a sorted set, and the scores that a run of updates through the typed
view leaves: a read of a whole set returns every member once, with the score that it was given last. -/

namespace Redisdal

/-! ### The server -/

/-- Not a number: the exponent is full, and the significand is not zero. -/
def Double.isNaN (d : Double) : Bool := decide (0x7FF0000000000000 < d.bits &&& 0x7FFFFFFFFFFFFFFF)

/-- A server of sorted sets: how it reads and writes scores, and in which order it lists a set for a command. -/
structure ScoreServer where
  parse : Bytes → Option Double
  print : Double → Bytes
  order (command : Bytes) (clock : Nat) (l : List (Bytes × Double)) : List (Bytes × Double)
  perm : ∀ command clock l, (order command clock l).Perm l

/-- The scores under each key, and the number of commands executed. -/
structure ScoreDb where
  zsets : Bytes → UnorderedMap Bytes Double
  clock : Nat

def ScoreDb.empty : ScoreDb := ⟨fun _ => ∅, 0⟩

namespace ScoreServer
variable (server : ScoreServer)

/-- A member from its score and itself, which stands second. -/
def parsePair (p : Bytes × Bytes) : Except Reply (Bytes × Double) :=
  match server.parse p.1 with
  | some d => .ok (p.2, d)
  | none => .error (.error "ERR value is not a valid float")

/-- `ZADD score member ...`. Nothing is stored unless all scores are numbers. -/
def zadd (m : UnorderedMap Bytes Double) (args : List Bytes) : Reply × UnorderedMap Bytes Double :=
  if args = [] ∨ args.length % 2 ≠ 0 then (.error "ERR wrong number of arguments for 'zadd' command", m)
  else
    match (Reply.twoByTwo args).mapM server.parsePair with
    | .error reply => (reply, m)
    | .ok pairs =>
      (.integer (UInt64.ofNat ((pairs.map Prod.fst).toFinset.filter (· ∉ m)).card), m.insertAll pairs)

/-- The members of a set with their scores, as the server lists them for this command. -/
def listing (db : ScoreDb) (command key : Bytes) : List (Bytes × Double) :=
  server.order command db.clock (db.zsets key).pairs

/-- One command: its reply, and the sorted set that it leaves under its key. -/
def step (db : ScoreDb) (command key : Bytes) (args : List Bytes) : Reply × UnorderedMap Bytes Double :=
  if command = "ZADD" then server.zadd (db.zsets key) args
  else if command = "ZREM" then
    (.integer (UInt64.ofNat ((db.zsets key).eraseAll args).1), ((db.zsets key).eraseAll args).2)
  else if command = "ZSCORE" then
    match args with
    | [member] => (Reply.ofOptional ((AList.lookup member (db.zsets key)).map server.print), db.zsets key)
    | _ => (.error "ERR wrong number of arguments for 'zscore' command", db.zsets key)
  else if (command = "ZRANGE" ∨ command = "ZREVRANGE") ∧ args = ["0", "-1", "WITHSCORES"] then
    (.array (Reply.flatPairs ((server.listing db command key).map fun e => (e.1, server.print e.2))), db.zsets key)
  else (.error "ERR unknown command", db.zsets key)

def execute : Executor ScoreDb := fun argv => ⟨fun db =>
  match argv with
  | command :: key :: args =>
    (.ok (server.step db command key args).1,
      ⟨Function.update db.zsets key (server.step db command key args).2, db.clock + 1⟩)
  | _ => (.ok (.error "ERR wrong number of arguments"), ⟨db.zsets, db.clock + 1⟩)⟩

/-- Scores pass from the platform to the server and back, except for NaN, which the server refuses. -/
structure Agrees (platform : Platform) : Prop where
  read : ∀ d, d.isNaN = false → server.parse (platform.toCharsDouble d) = some d
  written : ∀ d, d.isNaN = false → @doubleFromString platform (server.print d) = .ok d
  refused : ∀ d, d.isNaN = true → server.parse (platform.toCharsDouble d) = none

end ScoreServer

/-! ### Updates -/

/-- A call that changes a sorted set. -/
inductive ZsetCall (K V : Type) where
  | zadd (key : K) (members : UnorderedMap V Double)
  | zrem (key : K) (members : List V)

variable {K V : Type}

def ZsetCall.run [Platform] {σ : Type} (tpl : Template K V) (E : Executor σ) : ZsetCall K V → Program Exn σ Int
  | .zadd key members => ZsetOperations.zadd tpl E key members
  | .zrem key members => ZsetOperations.zrem tpl E key members

/-- The state after a run of calls, each on a platform of its own, whose throws are caught. -/
def runZsetCalls {σ : Type} (tpl : Template K V) (E : Executor σ) (calls : List (Platform × ZsetCall K V)) (s : σ) :
    σ :=
  calls.foldl (fun s call => ((@ZsetCall.run K V call.1 σ tpl E call.2).run s).2) s

/-- The score of each member of each set. -/
abbrev ZsetStore (K V : Type) : Type := K → Finmap fun _ : V => Double

namespace ZsetStore
variable [DecidableEq K] [DecidableEq V]

/-- An addition gives its members their scores, unless one of these is NaN. -/
def step (s : ZsetStore K V) : ZsetCall K V → ZsetStore K V
  | .zadd key members =>
    if members.vals.any Double.isNaN then s else Function.update s key (members.toFinmap ∪ s key)
  | .zrem key members => Function.update s key (members.foldl (fun f member => f.erase member) (s key))

theorem step_zadd (s : ZsetStore K V) (key : K) (members : UnorderedMap V Double) :
    s.step (.zadd key members) =
      if members.vals.any Double.isNaN then s else Function.update s key (members.toFinmap ∪ s key) := rfl

theorem step_zrem (s : ZsetStore K V) (key : K) (members : List V) :
    s.step (.zrem key members) =
      Function.update s key (members.foldl (fun f member => f.erase member) (s key)) := rfl

def run (s : ZsetStore K V) (calls : List (Platform × ZsetCall K V)) : ZsetStore K V :=
  calls.foldl (fun s call => s.step call.2) s

/-- The server holds the encoded sets of the store, whose scores are numbers. -/
structure Simulates (encK : K → Bytes) (encV : V → Bytes) (db : ScoreDb) (s : ZsetStore K V) : Prop where
  represents : ∀ key, UnorderedMap.Represents encV id (db.zsets (encK key)) (s key)
  numbers : ∀ key member d, (s key).lookup member = some d → d.isNaN = false

end ZsetStore

/-! ### Reads -/

/-- The result lists every member once, with its score, in the order of the server's listing. -/
def ListsAll (tpl : Template K V) [DecidableEq V] (f : Finmap fun _ : V => Double)
    (listing : Bytes → List (Bytes × Double)) (key : K) (result : Outcome (List (V × Double))) : Prop :=
  ∃ l text, result = .ok l ∧ (l.map Prod.fst).Nodup ∧ (∀ member d, (member, d) ∈ l ↔ f.lookup member = some d) ∧
    tpl.serializeKey key = .ok text ∧
    List.Forall₂ (fun listed e => tpl.serializeValue e.1 = .ok listed.1 ∧ e.2 = listed.2) (listing text) l

/-! ### What each call sends -/

section Serialized
variable [P : Platform] {tpl : Template K V} {encK : K → Bytes} {encV : V → Bytes}
  (hK : Encodes tpl.keySerializer encK) (hV : Encodes tpl.valueSerializer encV) {server : ScoreServer}

/-- The serialized members of a map. -/
def serializedMembers (encV : V → Bytes) (members : UnorderedMap V Double) : UnorderedMap Bytes Double :=
  UnorderedMap.emplaceAll ∅ ((visit members).map (Prod.map encV id))

include hV

/-- No score is lost or added. -/
theorem scores_serializedMembers (members : UnorderedMap V Double) :
    ((visit (serializedMembers encV members)).map Prod.snd).Perm members.vals := by
  have hnodup : (((visit members).map (Prod.map encV id)).map Prod.fst).Nodup := by
    have hmembers : ((visit members).map Prod.fst).Nodup :=
      ((visit_perm members).map Prod.fst).nodup_iff.mpr (UnorderedMap.nodup_pairs members)
    rw [List.map_map, show Prod.fst ∘ Prod.map encV (id : Double → Double) = encV ∘ Prod.fst from rfl, ← List.map_map]
    exact hmembers.map hV.injective
  have hperm := (visit_perm (serializedMembers encV members)).trans (UnorderedMap.pairs_emplaceAll_perm hnodup)
  refine (hperm.map Prod.snd).trans ?_
  rw [List.map_map, UnorderedMap.vals_eq]
  exact (visit_perm members).map Prod.snd

theorem represents_serializedMembers [DecidableEq V] (members : UnorderedMap V Double) :
    UnorderedMap.Represents encV id (serializedMembers encV members) members.toFinmap :=
  UnorderedMap.Represents.encoded hV.injective id (visit_perm members)

include hK

theorem run_zadd {σ : Type} (E : Executor σ) (key : K) (members : UnorderedMap V Double) :
    (ZsetCall.zadd key members).run tpl E = Client.zadd E (encK key) (serializedMembers encV members) := by
  have hserialize : (visit members).mapM (ZsetOperations.serializeMember tpl) =
      .ok ((visit members).map (Prod.map encV id)) := Except.mapM_eq_map fun pair _ => by
    unfold ZsetOperations.serializeMember Template.serializeValue
    rw [hV.serialize]
    rfl
  show ZsetOperations.zadd tpl E key members = _
  unfold ZsetOperations.zadd Template.serializeKey
  rw [hserialize, Program.ofExcept_ok_bind, hK.serialize, Program.ofExcept_ok_bind]
  rfl

theorem run_zrem {σ : Type} (E : Executor σ) (key : K) (members : List V) :
    (ZsetCall.zrem key members).run tpl E = Client.zrem E (encK key) (members.map encV) := by
  have hserialize : members.mapM tpl.serializeValue = .ok (members.map encV) := hV.mapM_serialize members
  show ZsetOperations.zrem tpl E key members = _
  unfold ZsetOperations.zrem Template.serializeKey
  rw [hserialize, Program.ofExcept_ok_bind, hK.serialize, Program.ofExcept_ok_bind]

end Serialized

/-! ### What the server does -/

namespace ScoreServer
variable [P : Platform] {server : ScoreServer}

theorem mapM_parsePair (hagrees : server.Agrees P) {l : List (Bytes × Double)} (h : ∀ e ∈ l, e.2.isNaN = false) :
    (l.map fun e => (P.toCharsDouble e.2, e.1)).mapM server.parsePair = .ok l := by
  refine Except.mapM_map_eq fun e he => ?_
  rw [parsePair, hagrees.read e.2 (h e he)]

theorem mapM_parsePair_of_nan (hagrees : server.Agrees P) {l : List (Bytes × Double)}
    (h : ∃ e ∈ l, e.2.isNaN = true) :
    ∃ reply, (l.map fun e => (P.toCharsDouble e.2, e.1)).mapM server.parsePair = .error reply := by
  obtain ⟨e, he, hnan⟩ := h
  rw [List.mapM_map]
  cases hparse : l.mapM (server.parsePair ∘ fun e => (P.toCharsDouble e.2, e.1)) with
  | error reply => exact ⟨reply, rfl⟩
  | ok pairs =>
    obtain ⟨pair, -, hpair⟩ := Except.exists_of_mem_left (Except.mapM_eq_ok_iff.mp hparse) he
    rw [Function.comp_apply, parsePair, hagrees.refused e.2 hnan] at hpair
    cases hpair

theorem zadd_visit (m : UnorderedMap Bytes Double) {l : List (Bytes × Double)} (hl : l ≠ []) :
    (server.zadd m (l.flatMap fun e => [P.toCharsDouble e.2, e.1])).2 =
      match (l.map fun e => (P.toCharsDouble e.2, e.1)).mapM server.parsePair with
      | .error _ => m
      | .ok pairs => m.insertAll pairs := by
  unfold zadd
  rw [if_neg (Reply.flatMap_pair_wellFormed (fun e : Bytes × Double => P.toCharsDouble e.2) Prod.fst hl),
    Reply.twoByTwo_flatMap_pair]
  cases (l.map fun e => (P.toCharsDouble e.2, e.1)).mapM server.parsePair <;> rfl

end ScoreServer

namespace ZsetStore
variable {tpl : Template K V} [DecidableEq K] [DecidableEq V] {encK : K → Bytes} {encV : V → Bytes}
  {server : ScoreServer} {db : ScoreDb} {s : ZsetStore K V}

omit [DecidableEq K] in
theorem Simulates.keep (h : Simulates encK encV db s) (clock : Nat) (key : Bytes) :
    Simulates encK encV ⟨Function.update db.zsets key (db.zsets key), clock⟩ s := by
  rw [Function.update_eq_self]
  exact ⟨h.represents, h.numbers⟩

variable (hK : Encodes tpl.keySerializer encK)
include hK

theorem update_simulates (h : Simulates encK encV db s) (clock : Nat) (key : K) {m : UnorderedMap Bytes Double}
    {f : Finmap fun _ : V => Double} (hm : UnorderedMap.Represents encV id m f)
    (hnumbers : ∀ member d, f.lookup member = some d → d.isNaN = false) :
    Simulates encK encV ⟨Function.update db.zsets (encK key) m, clock⟩ (Function.update s key f) := by
  refine ⟨UnorderedMap.Represents.update hK.injective h.represents key hm, ?_⟩
  intro k member d hd
  by_cases hk : k = key
  · subst hk
    rw [Function.update_self] at hd
    exact hnumbers member d hd
  · rw [Function.update_of_ne hk] at hd
    exact h.numbers k member d hd

variable [P : Platform] (hV : Encodes tpl.valueSerializer encV)
include hV

theorem zadd_simulates (hagrees : server.Agrees P) (h : Simulates encK encV db s) (key : K)
    (members : UnorderedMap V Double) :
    Simulates encK encV (((ZsetCall.zadd key members).run tpl server.execute).run db).2
      (s.step (.zadd key members)) := by
  have hmembers := represents_serializedMembers hV members
  have hscores := scores_serializedMembers hV members
  have hnan : (members.vals.any Double.isNaN = true) ↔
      ∃ e ∈ visit (serializedMembers encV members), e.2.isNaN = true := by
    rw [List.any_eq_true]
    constructor
    · intro hex
      obtain ⟨d, hd, hnan⟩ := hex
      obtain ⟨e, he, rfl⟩ := List.mem_map.mp (hscores.mem_iff.mpr hd)
      exact ⟨e, he, hnan⟩
    · intro hex
      obtain ⟨e, he, hnan⟩ := hex
      exact ⟨e.2, hscores.mem_iff.mp (List.mem_map_of_mem he), hnan⟩
  rw [run_zadd hK hV, step_zadd]
  unfold Client.zadd CmdOps.zadd
  by_cases hempty : (serializedMembers encV members).entries = []
  · have hserialized : serializedMembers encV members = ∅ := AList.ext hempty
    have hnone : members.toFinmap = ∅ := (hserialized ▸ hmembers).eq_empty
    rw [hempty, hnone, Finmap.empty_union, Function.update_eq_self, ite_self]
    exact h
  · have hvisit : visit (serializedMembers encV members) ≠ [] := mt visit_eq_nil_iff.mp hempty
    rw [if_neg (by simpa using hempty), zaddArguments_eq, Program.ofExcept_ok_bind, Program.snd_run_decode]
    show Simulates encK encV ⟨Function.update db.zsets (encK key) (server.zadd (db.zsets (encK key)) _).2, _⟩ _
    rw [ScoreServer.zadd_visit _ hvisit]
    by_cases hbad : members.vals.any Double.isNaN = true
    · obtain ⟨reply, hreply⟩ := ScoreServer.mapM_parsePair_of_nan hagrees (hnan.mp hbad)
      rw [if_pos hbad, hreply]
      exact h.keep _ _
    · have hgood : ∀ e ∈ visit (serializedMembers encV members), e.2.isNaN = false := fun e he =>
        Bool.eq_false_iff.mpr fun he' => hbad (hnan.mpr ⟨e, he, he'⟩)
      rw [if_neg hbad, ScoreServer.mapM_parsePair hagrees hgood]
      refine update_simulates hK h _ key ((h.represents key).union hmembers (visit_perm _)) fun member d hd => ?_
      by_cases hmem : member ∈ members.toFinmap
      · rw [Finmap.lookup_union_left hmem, Finmap.lookup_toFinmap] at hd
        have hval : d ∈ members.vals := by
          rw [UnorderedMap.vals_eq]
          exact List.mem_map_of_mem (UnorderedMap.mem_pairs.mpr hd)
        exact Bool.eq_false_iff.mpr fun hd' => hbad (List.any_eq_true.mpr ⟨d, hval, hd'⟩)
      · rw [Finmap.lookup_union_right hmem] at hd
        exact h.numbers key member d hd

theorem zrem_simulates (h : Simulates encK encV db s) (key : K) (members : List V) :
    Simulates encK encV (((ZsetCall.zrem key members).run tpl server.execute).run db).2
      (s.step (.zrem key members)) := by
  rw [run_zrem hK hV, step_zrem]
  unfold Client.zrem CmdOps.zrem
  cases members with
  | nil =>
    rw [List.foldl_nil, Function.update_eq_self]
    exact h
  | cons member members =>
    rw [if_neg (by simp), Program.snd_run_decode]
    obtain ⟨herased, -⟩ := (h.represents key).eraseAll hV.injective (member :: members)
    refine update_simulates hK h _ key herased fun other d hd => ?_
    rw [UnorderedMap.lookup_foldl_erase] at hd
    split at hd
    · cases hd
    · exact h.numbers key other d hd

theorem call_simulates (hagrees : server.Agrees P) (h : Simulates encK encV db s) (call : ZsetCall K V) :
    Simulates encK encV ((call.run tpl server.execute).run db).2 (s.step call) := by
  cases call with
  | zadd key members => exact zadd_simulates hK hV hagrees h key members
  | zrem key members => exact zrem_simulates hK hV h key members

end ZsetStore

/-! ### What a read returns -/

section Reads
variable [P : Platform] {tpl : Template K V} [DecidableEq K] [DecidableEq V] {encK : K → Bytes} {encV : V → Bytes}
  {server : ScoreServer} {db : ScoreDb} {s : ZsetStore K V}

omit [DecidableEq K] [DecidableEq V] in
/-- A reply that lists members and scores is read in its order. -/
theorem scoresReply_listing (hagrees : server.Agrees P) {l : List (Bytes × Double)} (h : ∀ e ∈ l, e.2.isNaN = false)
    (c : Bytes) :
    Client.scoresReply c (Reply.array (Reply.flatPairs (l.map fun e => (e.1, server.print e.2)))).toCmdReply =
      .ok l := by
  refine Reply.orThrow_bind_eq_ok_iff.mpr ⟨by simp [Reply.kind], Reply.scores_eq_ok_iff.mpr (Or.inr ⟨_, rfl, ?_, ?_⟩)⟩
  · rw [Reply.length_flatPairs, Nat.mul_mod_right]
  · unfold Reply.flatPairs
    rw [Reply.twoByTwo_flatMap_pair, List.map_map, List.forall₂_map_left_iff]
    exact List.forall₂_same.mpr fun e he => ⟨server.print e.2, rfl, hagrees.written e.2 (h e he)⟩

variable (hK : Encodes tpl.keySerializer encK) (hV : Encodes tpl.valueSerializer encV) (hagrees : server.Agrees P)
  (h : ZsetStore.Simulates encK encV db s)
include hK hV hagrees h

omit [DecidableEq K] in
theorem listsAll_of_range {command : Bytes} {key : K} {p : Program Exn ScoreDb (List (V × Double))}
    (hp : p = (CmdOps.cmdExecv server.execute [command, encK key, "0", "-1", "WITHSCORES"]).decode fun reply =>
      Client.scoresReply command reply >>= fun rawPairs => rawPairs.mapM (ZsetOperations.deserializeMember tpl))
    (hstep : (server.step db command (encK key) ["0", "-1", "WITHSCORES"]).1 =
      .array (Reply.flatPairs ((server.listing db command (encK key)).map fun e => (e.1, server.print e.2)))) :
    ListsAll tpl (s key) (server.listing db command) key (p.run db).1 := by
  obtain ⟨l, hl, hnodup, hfinmap⟩ := (h.represents key).exists_decoded hV.injective Function.injective_id
    (server.perm command db.clock (db.zsets (encK key)).pairs)
  have hlisting : server.listing db command (encK key) = l.map (Prod.map encV id) := hl.symm
  have hmem (member : V) (d : Double) : (member, d) ∈ l ↔ (s key).lookup member = some d := by
    rw [← hfinmap, Finmap.lookup_toFinmap, UnorderedMap.lookup_emplaceAll_empty]
    exact ⟨UnorderedMap.lookup_of_mem hnodup, UnorderedMap.mem_of_lookup⟩
  have hnumbers : ∀ e ∈ server.listing db command (encK key), e.2.isNaN = false := by
    rw [hlisting]
    intro e he
    obtain ⟨⟨member, d⟩, hin, rfl⟩ := List.mem_map.mp he
    exact h.numbers key member d ((hmem member d).mp hin)
  have hdeserialize : (l.map (Prod.map encV id)).mapM (ZsetOperations.deserializeMember tpl) = .ok l :=
    Except.mapM_map_eq fun e _ => by
      unfold ZsetOperations.deserializeMember Template.deserializeValue
      rw [Prod.map_fst, hV.deserialize]
      rfl
  have hserver : (server.execute [command, encK key, "0", "-1", "WITHSCORES"]).run db =
      (.ok (server.step db command (encK key) ["0", "-1", "WITHSCORES"]).1, _) := rfl
  rw [hstep] at hserver
  refine ⟨l, encK key, ?_, hnodup, hmem, hK.serialize key, ?_⟩
  · rw [hp, run_decode_of_reply _ hserver]
    show (Client.scoresReply command _ >>= fun rawPairs => rawPairs.mapM (ZsetOperations.deserializeMember tpl)) = _
    rw [scoresReply_listing hagrees hnumbers, Except.ok_bind, hlisting, hdeserialize]
  · rw [hlisting, List.forall₂_map_left_iff]
    exact List.forall₂_same.mpr fun e _ => ⟨hV.serialize e.1, rfl⟩

omit [DecidableEq K] in
theorem zrangeWithscores_listsAll (key : K) :
    ListsAll tpl (s key) (server.listing db "ZRANGE") key
      ((ZsetOperations.zrangeWithscores tpl server.execute key 0 (-1)).run db).1 := by
  refine listsAll_of_range hK hV hagrees h ?_ rfl
  unfold ZsetOperations.zrangeWithscores Client.zrangeWithscores Template.serializeKey
  rw [hK.serialize, Program.ofExcept_ok_bind, Program.decode_decode]
  rfl

omit [DecidableEq K] in
theorem zrevrangeWithscores_listsAll (key : K) :
    ListsAll tpl (s key) (server.listing db "ZREVRANGE") key
      ((ZsetOperations.zrevrangeWithscores tpl server.execute key 0 (-1)).run db).1 := by
  refine listsAll_of_range hK hV hagrees h ?_ rfl
  unfold ZsetOperations.zrevrangeWithscores Client.zrevrangeWithscores Template.serializeKey
  rw [hK.serialize, Program.ofExcept_ok_bind, Program.decode_decode]
  rfl

omit [DecidableEq K] in
theorem zscore_eq (key : K) (member : V) :
    ((ZsetOperations.zscore tpl server.execute key member).run db).1 = .ok ((s key).lookup member) := by
  have hargs : ZsetOperations.keyAndMember tpl key member = .ok (encK key, encV member) :=
    bothArguments_eq_ok.mpr ⟨hK.serialize key, hV.serialize member⟩
  have hserver : (server.execute ["ZSCORE", encK key, encV member]).run db =
      (.ok (Reply.ofOptional ((AList.lookup (encV member) (db.zsets (encK key))).map server.print)), _) := rfl
  unfold ZsetOperations.zscore Client.zscore CmdOps.zscore
  rw [hargs, Program.ofExcept_ok_bind, run_decode_of_reply _ hserver, (h.represents key).lookup, Option.map_id]
  refine Reply.orThrow_bind_eq_ok_iff.mpr ⟨?_, Reply.optionalScore_eq_ok_iff.mpr ?_⟩
  · cases (s key).lookup member <;> simp [Reply.ofOptional, Reply.kind]
  · cases hd : (s key).lookup member with
    | none => exact Or.inl ⟨rfl, rfl⟩
    | some d => exact Or.inr ⟨server.print d, d, rfl, hagrees.written d (h.numbers key member d hd), rfl⟩

end Reads

/-! ### Runs -/

section Runs
variable [DecidableEq K] [DecidableEq V] {tpl : Template K V}

theorem run_simulates {encK : K → Bytes} {encV : V → Bytes} (hK : Encodes tpl.keySerializer encK)
    (hV : Encodes tpl.valueSerializer encV) {server : ScoreServer} (calls : List (Platform × ZsetCall K V))
    (hcalls : ∀ call ∈ calls, server.Agrees call.1) {db : ScoreDb} {s : ZsetStore K V}
    (h : ZsetStore.Simulates encK encV db s) :
    ZsetStore.Simulates encK encV (runZsetCalls tpl server.execute calls db) (s.run calls) := by
  induction calls generalizing db s with
  | nil => exact h
  | cons call calls ih =>
    obtain ⟨hcall, hcalls⟩ := List.forall_mem_cons.mp hcalls
    exact ih hcalls (@ZsetStore.call_simulates K V tpl _ _ encK encV server db s hK call.1 hV hcall h call.2)

/-- After any run of updates, a read of a whole sorted set returns every surviving member once, with the score that it
    was given last and in the order of the server's reply, and `zscore` agrees. The decoder of scores accepts no other
    replies than NIL and flat arrays of members and scores. -/
theorem zsetCalls_keep_scores (hK : tpl.keySerializer.Lawful) (hV : tpl.valueSerializer.Lawful) (server : ScoreServer)
    (calls : List (Platform × ZsetCall K V)) (hcalls : ∀ call ∈ calls, server.Agrees call.1) [P : Platform]
    (hagrees : server.Agrees P) (key : K) :
    let db := runZsetCalls tpl server.execute calls .empty
    let scores := ZsetStore.run (fun _ => ∅) calls key
    ListsAll tpl scores (server.listing db "ZRANGE") key
        ((ZsetOperations.zrangeWithscores tpl server.execute key 0 (-1)).run db).1 ∧
      ListsAll tpl scores (server.listing db "ZREVRANGE") key
        ((ZsetOperations.zrevrangeWithscores tpl server.execute key 0 (-1)).run db).1 ∧
      (∀ member, ((ZsetOperations.zscore tpl server.execute key member).run db).1 = .ok (scores.lookup member)) ∧
      ∀ (reply : Reply) (command : Bytes) (l : List (Bytes × Double)), reply.toCmdReply.scores command = .ok l ↔
        (reply = .nil ∧ l = []) ∨ ∃ items, reply = .array items ∧ items.length % 2 = 0 ∧
          List.Forall₂ Reply.ScoredBy (Reply.twoByTwo items) l := by
  obtain ⟨encK, hencK⟩ := hK.exists_encodes
  obtain ⟨encV, hencV⟩ := hV.exists_encodes
  have hempty : ZsetStore.Simulates encK encV .empty fun _ : K => (∅ : Finmap fun _ : V => Double) :=
    ⟨fun _ => UnorderedMap.Represents.empty, fun _ member d hd => by rw [Finmap.lookup_empty] at hd; cases hd⟩
  have h := run_simulates hencK hencV calls hcalls hempty
  exact ⟨zrangeWithscores_listsAll hencK hencV hagrees h key, zrevrangeWithscores_listsAll hencK hencV hagrees h key,
    zscore_eq hencK hencV hagrees h key, fun _ _ _ => Reply.scores_eq_ok_iff⟩

end Runs

/-- The number of a double: 0.0 has 0 and 1.0 has 1, every other one a number of its own. -/
def Double.number (d : Double) : UInt64 := Equiv.swap 1 Double.one.bits d.bits

def Double.ofNumber (n : UInt64) : Double := ⟨Equiv.swap 1 Double.one.bits n⟩

theorem Double.ofNumber_number (d : Double) : Double.ofNumber d.number = d := by
  unfold Double.ofNumber Double.number
  rw [Equiv.swap_apply_self]

/-- A platform that writes doubles as their numbers. -/
abbrev numberingPlatform : Platform where
  rightToLeft := true
  enumerate l := l.reverse
  enumerate_perm l := l.reverse_perm
  toCharsDouble d := Bytes.decimal d.number.toNat
  length_toCharsDouble d := by
    have hlt : d.number.toNat < 10 ^ 20 := Nat.lt_trans d.number.toNat_lt (by decide)
    exact Nat.le_trans (Bytes.length_decimal_le (by decide) hlt) (by decide)
  fromCharsDouble s := ⟨(fromChars .uint64 s).value.map fun n => .ofNumber (UInt64.ofInt n), (fromChars .uint64 s).rest⟩

theorem doubleFromString_number (d : Double) :
    @doubleFromString numberingPlatform (Bytes.decimal d.number.toNat) = .ok d := by
  obtain ⟨first, hfirst, hvalue, hrest, -⟩ := fromStringWith_eq_ok_iff.mp (integralFromString_decimal d.number)
  have hread : (fromChars .uint64 first).value = .ok (d.number.toNat : Int) := hvalue
  refine fromStringWith_eq_ok_iff.mpr ⟨first, hfirst, ?_, hrest, rfl⟩
  show (fromChars .uint64 first).value.map _ = _
  rw [hread]
  show Except.ok (Double.ofNumber (UInt64.ofInt d.number.toNat)) = _
  rw [ofInt_toNat, Double.ofNumber_number]

/-- A server that uses the same numbers, and lists a set as it is stored. -/
def numberingServer : ScoreServer where
  parse text := (@doubleFromString numberingPlatform text).toOption.filter fun d => !d.isNaN
  print d := Bytes.decimal d.number.toNat
  order _ _ l := l
  perm _ _ l := List.Perm.refl l

theorem numberingServer_agrees : numberingServer.Agrees numberingPlatform where
  read d hd := by
    show (@doubleFromString numberingPlatform (Bytes.decimal d.number.toNat)).toOption.filter _ = _
    rw [doubleFromString_number]
    exact Option.filter_some_pos (by rw [hd]; rfl)
  written d _ := doubleFromString_number d
  refused d hd := by
    show (@doubleFromString numberingPlatform (Bytes.decimal d.number.toNat)).toOption.filter _ = _
    rw [doubleFromString_number]
    exact Option.filter_some_neg (by rw [hd]; rfl)

/-- A score that is replaced, and a member that is removed. -/
theorem zsetCalls_keep_scores_string :
    let calls : List (Platform × ZsetCall Bytes Bytes) := [
      (numberingPlatform, .zadd "z" (UnorderedMap.insertAll ∅ [("a", .one), ("b", ⟨0⟩)])),
      (numberingPlatform, .zadd "z" (UnorderedMap.insertAll ∅ [("a", ⟨0⟩)])), (numberingPlatform, .zrem "z" ["b"])]
    let db := runZsetCalls stringTemplate numberingServer.execute calls .empty
    ListsAll stringTemplate (ZsetStore.run (fun _ => ∅) calls "z") (numberingServer.listing db "ZRANGE") "z"
      ((@ZsetOperations.zrangeWithscores Bytes Bytes ScoreDb stringTemplate numberingServer.execute numberingPlatform
        "z" 0 (-1)).run db).1 :=
  (@zsetCalls_keep_scores Bytes Bytes _ _ stringTemplate stringSerializer_lawful stringSerializer_lawful
    numberingServer _ (fun call hcall => by
      simp only [List.mem_cons, List.not_mem_nil, or_false] at hcall
      rcases hcall with rfl | rfl | rfl <;> exact numberingServer_agrees)
    numberingPlatform numberingServer_agrees "z").1

end Redisdal
