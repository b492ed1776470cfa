import Redisdal.StreamOperations
import Redisdal.Theorems.Decoding
import Redisdal.Theorems.HashStore
import Redisdal.Theorems.StreamAdds

/-! # The typed stream view over a server

A server that keeps a log of entries under each key, and the typed log that a run of calls on the server refines:
what is added is read back in the order of the additions, with its id, its fields and their repeats. -/

namespace Redisdal

/-! ### The server -/

/-- The ids that a server gives to the entries of a stream, one after the other. -/
structure IdSource where
  id : Bytes → Nat → Bytes
  fresh : ∀ key, Function.Injective (id key)

/-- The log under each key, of ids with their fields and values, and the number of entries ever added to it. -/
structure StreamDb where
  streams : Bytes → Option (List (Bytes × List Bytes))
  added : Bytes → Nat

namespace StreamDb

def empty : StreamDb := ⟨fun _ => none, fun _ => 0⟩

def log (db : StreamDb) (key : Bytes) : List (Bytes × List Bytes) := (db.streams key).getD []

/-- Add the entry `* field value ...`. -/
def append (ids : IdSource) (db : StreamDb) (key : Bytes) (nomkstream : Bool) (args : List Bytes) : Reply × StreamDb :=
  match args with
  | id :: fields =>
    if id ≠ "*" ∨ fields = [] ∨ fields.length % 2 ≠ 0 then (.error "ERR wrong number of arguments", db)
    else if nomkstream = true ∧ db.streams key = none then (.nil, db)
    else
      let id := ids.id key (db.added key)
      (.string id, ⟨Function.update db.streams key (some (db.log key ++ [(id, fields)])),
        Function.update db.added key (db.added key + 1)⟩)
  | [] => (.error "ERR wrong number of arguments", db)

/-- `XADD key [NOMKSTREAM] * field value ...`. -/
def xadd (ids : IdSource) (db : StreamDb) (key : Bytes) (args : List Bytes) : Reply × StreamDb :=
  if args.head? = some ("NOMKSTREAM" : Bytes) then db.append ids key true args.tail else db.append ids key false args

def xdel (db : StreamDb) (key : Bytes) (ids : List Bytes) : Reply × StreamDb :=
  (.integer (UInt64.ofNat ((db.log key).filter (·.1 ∈ ids)).length),
    { db with streams := Function.update db.streams key ((db.streams key).map (List.filter (·.1 ∉ ids))) })

def entriesReply (log : List (Bytes × List Bytes)) : Reply :=
  .array (log.map fun e => .array [.string e.1, .array (e.2.map .string)])

/-- One command. -/
def step (ids : IdSource) (db : StreamDb) (command key : Bytes) (args : List Bytes) : Reply × StreamDb :=
  if command = "XADD" then db.xadd ids key args
  else if command = "XDEL" then db.xdel key args
  else if command = "XRANGE" ∧ args = ["-", "+"] then (entriesReply (db.log key), db)
  else if command = "XREVRANGE" ∧ args = ["+", "-"] then (entriesReply (db.log key).reverse, db)
  else (.error "ERR unknown command", db)

section Log
variable {streams : Bytes → Option (List (Bytes × List Bytes))} {added : Bytes → Nat}
  {entries : Option (List (Bytes × List Bytes))} {key c : Bytes}

theorem log_update_self : (⟨Function.update streams key entries, added⟩ : StreamDb).log key = entries.getD [] := by
  unfold log
  dsimp only
  rw [Function.update_self]

theorem log_update_of_ne (h : c ≠ key) :
    (⟨Function.update streams key entries, added⟩ : StreamDb).log c = (⟨streams, added⟩ : StreamDb).log c := by
  unfold log
  dsimp only
  rw [Function.update_of_ne h]

theorem log_xdel (db : StreamDb) (key : Bytes) (ids : List Bytes) :
    (db.xdel key ids).2.log key = (db.log key).filter (·.1 ∉ ids) := by
  unfold xdel
  rw [log_update_self, log]
  cases db.streams key <;> rfl

end Log

end StreamDb

/-- A server of streams. -/
def streamServer (ids : IdSource) : Executor StreamDb := fun argv => ⟨fun db =>
  match argv with
  | command :: key :: args => (.ok (db.step ids command key args).1, (db.step ids command key args).2)
  | _ => (.ok (.error "ERR wrong number of arguments"), db)⟩

/-! ### Calls of the typed stream view -/

/-- A call that adds an entry with id `*`, deletes entries, or reads a whole stream. -/
inductive StreamCall (K V : Type) where
  | xadd (key : K) (fields : List (K × V)) (nomkstream : Bool)
  | xdel (key : K) (ids : List Bytes)
  | xrange (key : K)
  | xrevrange (key : K)

inductive StreamResult (K V : Type) where
  | id (id : Option Bytes)
  | count (count : Int)
  | entries (entries : List (StreamEntry K V))

variable {K V : Type}

namespace StreamCall

/-- The call adds no entry without fields. -/
def Accepted : StreamCall K V → Prop
  | xadd _ fields _ => fields ≠ []
  | _ => True

def run [Platform] {σ : Type} (tpl : Template K V) (E : Executor σ) :
    StreamCall K V → Program Exn σ (StreamResult K V)
  | xadd key fields nomkstream => .id <$> StreamOperations.xadd tpl E key fields { nomkstream := nomkstream }
  | xdel key ids => .count <$> StreamOperations.xdel tpl E key ids
  | xrange key => .entries <$> StreamOperations.xrange tpl E key "-" "+" none
  | xrevrange key => .entries <$> StreamOperations.xrevrange tpl E key "+" "-" none

end StreamCall

/-- A run of calls, each on a platform of its own. -/
def runStreamCalls {σ : Type} (tpl : Template K V) (E : Executor σ) :
    List (Platform × StreamCall K V) → Program Exn σ (List (StreamResult K V))
  | [] => pure []
  | (platform, call) :: calls => do
    let result ← @StreamCall.run K V platform σ tpl E call
    let results ← runStreamCalls tpl E calls
    pure (result :: results)

/-! ### The typed log -/

/-- The surviving entries under each key, in the order in which they were added. -/
abbrev StreamLogs (K V : Type) : Type := K → List (StreamEntry K V)

namespace StreamLogs
variable [DecidableEq K]

/-- What a call with this result makes of the logs. -/
def step (s : StreamLogs K V) : StreamCall K V → StreamResult K V → StreamLogs K V
  | .xadd key fields _, .id (some id) => Function.update s key (s key ++ [⟨id, fields⟩])
  | .xdel key ids, _ => Function.update s key ((s key).filter (·.id ∉ ids))
  | _, _ => s

/-- The results that a call may have: an addition gives a new id, unless it may not create the stream and there
    are no entries; a deletion counts; a read returns the log, or the log reversed. -/
def Answers (s : StreamLogs K V) : StreamCall K V → StreamResult K V → Prop
  | .xadd key _ nomkstream, result =>
    (∃ id, result = .id (some id) ∧ ∀ e ∈ s key, e.id ≠ id) ∨ (nomkstream = true ∧ s key = [] ∧ result = .id none)
  | .xdel key ids, result => result = .count (longLong ((s key).filter (·.id ∈ ids)).length)
  | .xrange key, result => result = .entries (s key)
  | .xrevrange key, result => result = .entries (s key).reverse

/-- The results of a run of calls that starts with the logs `s`. -/
def Conforms (s : StreamLogs K V) : List (StreamCall K V) → List (StreamResult K V) → Prop
  | [], [] => True
  | call :: calls, result :: results => s.Answers call result ∧ Conforms (s.step call result) calls results
  | _, _ => False

/-! ### The simulation -/

/-- The entry as its texts. -/
def encodeTexts (encK : K → Bytes) (encV : V → Bytes) (e : StreamEntry K V) : StreamEntry Bytes Bytes :=
  ⟨e.id, e.fields.map (Prod.map encK encV)⟩

/-- The entry as the server keeps it. -/
def stored (e : StreamEntry Bytes Bytes) : Bytes × List Bytes := (e.id, e.fields.flatMap fun p => [p.1, p.2])

/-- The server holds the encoded logs, under ids that it has given out. -/
structure Simulates (ids : IdSource) (encK : K → Bytes) (encV : V → Bytes) (db : StreamDb) (s : StreamLogs K V) :
    Prop where
  logs : ∀ key, db.log (encK key) = (s key).map (stored ∘ encodeTexts encK encV)
  given : ∀ key, ∀ e ∈ s key, ∃ n < db.added (encK key), e.id = ids.id (encK key) n

/-- A call on the server does what it may do on the logs. -/
def Follows (ids : IdSource) (encK : K → Bytes) (encV : V → Bytes) (db : StreamDb) (s : StreamLogs K V)
    (call : StreamCall K V) (p : Program Exn StreamDb (StreamResult K V)) : Prop :=
  ∃ result db', p.run db = (.ok result, db') ∧ s.Answers call result ∧
    Simulates ids encK encV db' (s.step call result)

end StreamLogs

/-! ### Replies of the server -/

theorem entriesReply_stored (entries : List (StreamEntry Bytes Bytes)) :
    StreamDb.entriesReply (entries.map StreamLogs.stored) = Reply.encodeEntries entries := by
  unfold StreamDb.entriesReply Reply.encodeEntries
  rw [List.map_map]
  refine congrArg Reply.array (List.map_congr_left fun e _ => ?_)
  show Reply.array [.string e.id, .array ((e.fields.flatMap fun p => [p.1, p.2]).map .string)] = _
  rw [List.map_flatMap]
  rfl

theorem streamEntriesReply_encode [Platform] (entries : List (StreamEntry Bytes Bytes)) (c : Bytes) :
    Client.streamEntriesReply c (Reply.encodeEntries entries).toCmdReply = .ok entries :=
  Reply.orThrow_bind_eq_ok_iff.mpr ⟨by simp [Reply.encodeEntries, Reply.kind],
    Reply.streamEntries_eq_ok_iff.mpr (Reply.streamEntriesTree_encode entries)⟩

theorem optionalStringReply_ofOptional (text : Option Bytes) (c : Bytes) :
    Client.optionalStringReply c (Reply.ofOptional text).toCmdReply = .ok text :=
  Reply.orThrow_bind_eq_ok_iff.mpr ⟨by cases text <;> simp [Reply.ofOptional, Reply.kind],
    Reply.optionalString_eq_ok_iff.mpr rfl⟩

/-- An entry is added under the next id, unless it may not create the stream. -/
theorem StreamDb.xadd_addClauses (ids : IdSource) (db : StreamDb) (key : Bytes) {fields : List (Bytes × Bytes)}
    (hfields : fields ≠ []) (nomkstream : Bool) :
    db.xadd ids key (addClauses fields { nomkstream := nomkstream }) =
      if nomkstream = true ∧ db.streams key = none then (.nil, db)
      else (.string (ids.id key (db.added key)), ⟨Function.update db.streams key (some (db.log key ++
          [(ids.id key (db.added key), fields.flatMap fun field => [field.1, field.2])])),
        Function.update db.added key (db.added key + 1)⟩) := by
  have hwellFormed : ¬(("*" : Bytes) ≠ "*" ∨ (fields.flatMap fun field => [field.1, field.2]) = [] ∨
      (fields.flatMap fun field => [field.1, field.2]).length % 2 ≠ 0) := by
    rintro (h | h)
    · exact h rfl
    · exact Reply.flatMap_pair_wellFormed Prod.fst Prod.snd hfields h
  have happend : db.append ids key nomkstream
      ("*" :: fields.flatMap fun field => [field.1, field.2]) = _ := if_neg hwellFormed
  rw [← happend]
  cases nomkstream with
  | false => exact if_neg fun h => absurd (Option.some.inj h) (by decide)
  | true => exact if_pos rfl

/-! ### What each call sends -/

section Calls
variable [Platform] {tpl : Template K V} {encK : K → Bytes} {encV : V → Bytes}
  (hK : Encodes tpl.keySerializer encK) (hV : Encodes tpl.valueSerializer encV)
include hK

theorem run_xdel {σ : Type} (E : Executor σ) (key : K) {ids : List Bytes} (hne : ids ≠ []) :
    (StreamCall.xdel (V := V) key ids).run tpl E =
      .count <$> (CmdOps.cmdExecv E ("XDEL" :: encK key :: ids)).decode (Client.integerReply "XDEL") := by
  show _ <$> StreamOperations.xdel tpl E key ids = _
  unfold StreamOperations.xdel Client.xdel CmdOps.xdel Template.serializeKey
  rw [hK.serialize, Program.ofExcept_ok_bind, if_neg (by simpa using hne), if_neg (by simpa using hne)]
  rfl

theorem run_xrange {σ : Type} (E : Executor σ) (key : K) :
    (StreamCall.xrange (V := V) key).run tpl E =
      .entries <$> (CmdOps.cmdExecv E ["XRANGE", encK key, "-", "+"]).decode fun reply =>
        Client.streamEntriesReply "XRANGE" reply >>= StreamOperations.deserializeEntries tpl := by
  show _ <$> StreamOperations.xrange tpl E key "-" "+" none = _
  unfold StreamOperations.xrange Client.xrange CmdOps.xrange Template.serializeKey
  rw [hK.serialize, Program.ofExcept_ok_bind, Program.decode_decode]
  rfl

theorem run_xrevrange {σ : Type} (E : Executor σ) (key : K) :
    (StreamCall.xrevrange (V := V) key).run tpl E =
      .entries <$> (CmdOps.cmdExecv E ["XREVRANGE", encK key, "+", "-"]).decode fun reply =>
        Client.streamEntriesReply "XREVRANGE" reply >>= StreamOperations.deserializeEntries tpl := by
  show _ <$> StreamOperations.xrevrange tpl E key "+" "-" none = _
  unfold StreamOperations.xrevrange Client.xrevrange CmdOps.xrevrange Template.serializeKey
  rw [hK.serialize, Program.ofExcept_ok_bind, Program.decode_decode]
  rfl

include hV

theorem run_xadd {σ : Type} (E : Executor σ) (key : K) {fields : List (K × V)} (hne : fields ≠ []) (nomkstream : Bool) :
    (StreamCall.xadd key fields nomkstream).run tpl E =
      .id <$> (CmdOps.cmdExecv E ("XADD" :: encK key ::
        addClauses (fields.map (Prod.map encK encV)) { nomkstream := nomkstream })).decode
          (Client.optionalStringReply "XADD") := by
  have hfields : fields.mapM (StreamOperations.serializeField tpl) = .ok (fields.map (Prod.map encK encV)) :=
    Except.mapM_eq_map fun field _ => bothArguments_eq_ok.mpr ⟨hK.serialize field.1, hV.serialize field.2⟩
  have hargs : CmdOps.xaddArguments (encK key) (fields.map (Prod.map encK encV)) { nomkstream := nomkstream } =
      .ok (("XADD" : Bytes) :: encK key :: addClauses (fields.map (Prod.map encK encV)) { nomkstream := nomkstream }) :=
    CmdOps.xaddArguments_eq_ok_iff.mpr ⟨⟨by simpa using hne, fun h => (by cases h), fun _ htrim => by cases htrim⟩, rfl⟩
  show _ <$> StreamOperations.xadd tpl E key fields { nomkstream := nomkstream } = _
  unfold StreamOperations.xadd Client.xadd CmdOps.xadd Template.serializeKey
  rw [hfields, Program.ofExcept_ok_bind, hK.serialize, Program.ofExcept_ok_bind, hargs, Program.ofExcept_ok_bind]

theorem deserializeEntries_encodeTexts (entries : List (StreamEntry K V)) :
    StreamOperations.deserializeEntries tpl (entries.map (StreamLogs.encodeTexts encK encV)) = .ok entries := by
  refine Except.mapM_map_eq fun e _ => ?_
  have hfields : (e.fields.map (Prod.map encK encV)).mapM (StreamOperations.deserializeField tpl) = .ok e.fields :=
    Except.mapM_map_eq fun field _ => bothArguments_eq_ok.mpr ⟨hK.deserialize field.1, hV.deserialize field.2⟩
  unfold StreamOperations.deserializeEntry StreamLogs.encodeTexts
  rw [hfields]
  rfl

theorem streamEntriesReply_stored (entries : List (StreamEntry K V)) (c : Bytes) :
    (Client.streamEntriesReply c (StreamDb.entriesReply
      (entries.map (StreamLogs.stored ∘ StreamLogs.encodeTexts encK encV))).toCmdReply >>=
        StreamOperations.deserializeEntries tpl) = .ok entries := by
  rw [← List.map_map, entriesReply_stored, streamEntriesReply_encode, Except.ok_bind,
    deserializeEntries_encodeTexts hK hV]

/-! ### What each call does on the server -/

namespace StreamLogs
variable [DecidableEq K] {ids : IdSource} {db : StreamDb} {s : StreamLogs K V}

omit [Platform] hV in
/-- One stream of the server and its log change together. -/
theorem Simulates.update (h : Simulates ids encK encV db s) {db' : StreamDb} (key : K) {l : List (StreamEntry K V)}
    (hlog : db'.log (encK key) = l.map (stored ∘ encodeTexts encK encV))
    (hgiven : ∀ e ∈ l, ∃ n < db'.added (encK key), e.id = ids.id (encK key) n)
    (hothers : ∀ c ≠ encK key, db'.log c = db.log c ∧ db'.added c = db.added c) :
    Simulates ids encK encV db' (Function.update s key l) := by
  have hother {k : K} (hk : k ≠ key) : db'.log (encK k) = db.log (encK k) ∧ db'.added (encK k) = db.added (encK k) :=
    hothers _ (hK.injective.ne hk)
  constructor
  · intro k
    by_cases hk : k = key
    · rw [hk, Function.update_self, hlog]
    · rw [Function.update_of_ne hk, (hother hk).1, h.logs]
  · intro k e he
    by_cases hk : k = key
    · subst hk
      rw [Function.update_self] at he
      exact hgiven e he
    · rw [Function.update_of_ne hk] at he
      rw [(hother hk).2]
      exact h.given k e he

theorem xrange_follows (h : Simulates ids encK encV db s) (key : K) :
    Follows ids encK encV db s (.xrange key) ((StreamCall.xrange key).run tpl (streamServer ids)) := by
  have hserver : (streamServer ids ["XRANGE", encK key, "-", "+"]).run db =
      (.ok (StreamDb.entriesReply (db.log (encK key))), db) := rfl
  refine ⟨.entries (s key), db, ?_, rfl, h⟩
  rw [run_xrange hK, Program.run_map, run_decode_of_reply _ hserver, h.logs, streamEntriesReply_stored hK hV]
  rfl

theorem xrevrange_follows (h : Simulates ids encK encV db s) (key : K) :
    Follows ids encK encV db s (.xrevrange key) ((StreamCall.xrevrange key).run tpl (streamServer ids)) := by
  have hserver : (streamServer ids ["XREVRANGE", encK key, "+", "-"]).run db =
      (.ok (StreamDb.entriesReply (db.log (encK key)).reverse), db) := rfl
  refine ⟨.entries (s key).reverse, db, ?_, rfl, h⟩
  rw [run_xrevrange hK, Program.run_map, run_decode_of_reply _ hserver, h.logs, ← List.map_reverse,
    streamEntriesReply_stored hK hV]
  rfl

omit hV in
/-- Without ids nothing is sent, and nothing changes. -/
theorem xdel_nil_follows (h : Simulates ids encK encV db s) (key : K) :
    Follows ids encK encV db s (.xdel key []) ((StreamCall.xdel key []).run tpl (streamServer ids)) := by
  have hkeep : s.step (.xdel key []) (.count 0) = s := by
    have hall : ((s key).filter fun e => decide (e.id ∉ ([] : List Bytes))) = s key :=
      List.filter_eq_self.mpr fun _ _ => by simp
    unfold step
    dsimp only
    rw [hall, Function.update_eq_self]
  have hnone : ((s key).filter fun e => decide (e.id ∈ ([] : List Bytes))) = [] :=
    List.filter_eq_nil_iff.mpr fun _ _ => by simp
  refine ⟨.count 0, db, ?_, ?_, hkeep.symm ▸ h⟩
  · unfold StreamCall.run StreamOperations.xdel Template.serializeKey
    dsimp only
    rw [hK.serialize]
    rfl
  · have hcount : longLong ((s key).filter fun e => decide (e.id ∈ ([] : List Bytes))).length = 0 := by
      rw [hnone, List.length_nil]
      exact longLong_of_lt (by decide)
    exact congrArg StreamResult.count hcount.symm

omit hV in
theorem xdel_follows (h : Simulates ids encK encV db s) (key : K) (deleted : List Bytes) :
    Follows ids encK encV db s (.xdel key deleted) ((StreamCall.xdel key deleted).run tpl (streamServer ids)) := by
  by_cases hne : deleted = []
  · subst hne
    exact xdel_nil_follows hK h key
  have hserver : (streamServer ids ("XDEL" :: encK key :: deleted)).run db =
      (.ok (db.xdel (encK key) deleted).1, (db.xdel (encK key) deleted).2) := rfl
  have hcount : ((db.log (encK key)).filter fun e => decide (e.1 ∈ deleted)).length =
      ((s key).filter fun e => decide (e.id ∈ deleted)).length := by
    rw [h.logs, List.filter_map, List.length_map]
    rfl
  have hresult : Client.integerReply "XDEL" (db.xdel (encK key) deleted).1.toCmdReply =
      .ok (longLong ((s key).filter fun e => decide (e.id ∈ deleted)).length) := by
    rw [← hcount]
    exact integerReply_count _ _
  refine ⟨.count (longLong ((s key).filter fun e => decide (e.id ∈ deleted)).length), (db.xdel (encK key) deleted).2,
    ?_, ?_, h.update hK key ?_ ?_ ?_⟩
  · rw [run_xdel hK _ key hne, Program.run_map, run_decode_of_reply _ hserver, hresult]
    rfl
  · unfold Answers
    rfl
  · rw [StreamDb.log_xdel, h.logs, List.filter_map]
    rfl
  · exact fun e he => h.given key e (List.mem_of_mem_filter he)
  · exact fun c hc => ⟨StreamDb.log_update_of_ne hc, rfl⟩

theorem xadd_follows (h : Simulates ids encK encV db s) (key : K) {fields : List (K × V)} (hne : fields ≠ [])
    (nomkstream : Bool) :
    Follows ids encK encV db s (.xadd key fields nomkstream)
      ((StreamCall.xadd key fields nomkstream).run tpl (streamServer ids)) := by
  have hserver : (streamServer ids ("XADD" :: encK key ::
      addClauses (fields.map (Prod.map encK encV)) { nomkstream := nomkstream })).run db =
        (.ok (db.xadd ids (encK key) (addClauses (fields.map (Prod.map encK encV)) { nomkstream := nomkstream })).1,
          (db.xadd ids (encK key) (addClauses (fields.map (Prod.map encK encV)) { nomkstream := nomkstream })).2) := rfl
  rw [StreamDb.xadd_addClauses ids db (encK key) (by simpa using hne)] at hserver
  have hrun {text : Option Bytes} {db' : StreamDb} (hreply : (streamServer ids ("XADD" :: encK key ::
      addClauses (fields.map (Prod.map encK encV)) { nomkstream := nomkstream })).run db =
        (.ok (Reply.ofOptional text), db')) :
      ((StreamCall.xadd key fields nomkstream).run tpl (streamServer ids)).run db = (.ok (.id text), db') := by
    rw [run_xadd hK hV _ key hne, Program.run_map, run_decode_of_reply _ hreply, optionalStringReply_ofOptional]
    rfl
  by_cases hnone : nomkstream = true ∧ db.streams (encK key) = none
  · rw [if_pos hnone] at hserver
    have hempty : s key = [] := by
      have hlog := h.logs key
      rw [StreamDb.log, hnone.2] at hlog
      exact List.map_eq_nil_iff.mp hlog.symm
    exact ⟨.id none, db, hrun hserver, Or.inr ⟨hnone.1, hempty, rfl⟩, h⟩
  · rw [if_neg hnone] at hserver
    refine ⟨.id (some (ids.id (encK key) (db.added (encK key)))), _, hrun hserver, Or.inl ⟨_, rfl, fun e he heq => ?_⟩,
      h.update hK key ?_ ?_ ?_⟩
    · obtain ⟨n, hn, hid⟩ := h.given key e he
      exact Nat.ne_of_lt hn (ids.fresh (encK key) (hid.symm.trans heq))
    · rw [StreamDb.log_update_self, h.logs, List.map_append]
      rfl
    · intro e he
      dsimp only
      rw [Function.update_self]
      rcases List.mem_append.mp he with he | he
      · obtain ⟨n, hn, hid⟩ := h.given key e he
        exact ⟨n, Nat.lt_succ_of_lt hn, hid⟩
      · obtain rfl := List.mem_singleton.mp he
        exact ⟨_, Nat.lt_succ_self _, rfl⟩
    · exact fun c hc => ⟨StreamDb.log_update_of_ne hc, Function.update_of_ne hc _ _⟩

/-- Every call does on the server what it may do on the logs. -/
theorem call_follows (h : Simulates ids encK encV db s) {call : StreamCall K V} (hcall : call.Accepted) :
    Follows ids encK encV db s call (call.run tpl (streamServer ids)) := by
  cases call with
  | xadd key fields nomkstream => exact xadd_follows hK hV h key hcall nomkstream
  | xdel key deleted => exact xdel_follows hK h key deleted
  | xrange key => exact xrange_follows hK hV h key
  | xrevrange key => exact xrevrange_follows hK hV h key

end StreamLogs

end Calls

/-! ### Runs -/

variable [DecidableEq K]

theorem runStreamCalls_conforms {tpl : Template K V} {encK : K → Bytes} {encV : V → Bytes}
    (hK : Encodes tpl.keySerializer encK) (hV : Encodes tpl.valueSerializer encV) (ids : IdSource)
    (calls : List (Platform × StreamCall K V)) (hcalls : ∀ call ∈ calls, call.2.Accepted) {db : StreamDb}
    {s : StreamLogs K V} (h : s.Simulates ids encK encV db) :
    ∃ results, ((runStreamCalls tpl (streamServer ids) calls).run db).1 = .ok results ∧
      s.Conforms (calls.map Prod.snd) results := by
  induction calls generalizing db s with
  | nil => exact ⟨[], rfl, trivial⟩
  | cons call calls ih =>
    obtain ⟨result, db', hrun, hanswers, h'⟩ :=
      @StreamLogs.call_follows K V call.1 tpl encK encV hK hV _ ids db s h call.2 (hcalls call List.mem_cons_self)
    obtain ⟨results, hrest, hconforms⟩ := ih (fun c hc => hcalls c (List.mem_cons_of_mem _ hc)) h'
    refine ⟨result :: results, ?_, hanswers, hconforms⟩
    unfold runStreamCalls
    rw [Program.run_bind, hrun, Program.resume_ok, Program.run_bind]
    rcases hcalls : (runStreamCalls tpl (streamServer ids) calls).run db' with ⟨_, last⟩
    rw [hcalls] at hrest
    subst hrest
    rfl

/-- A run of typed stream calls on a server of logs returns results of the typed log: a read gives the surviving
    entries in the order in which they were added, each with the id that its `xadd` returned and with its fields as
    they were passed, or the same list reversed. -/
theorem streamCalls_refine_log {tpl : Template K V} (hK : tpl.keySerializer.Lawful) (hV : tpl.valueSerializer.Lawful)
    (ids : IdSource) (calls : List (Platform × StreamCall K V)) (hcalls : ∀ call ∈ calls, call.2.Accepted) :
    ∃ results, ((runStreamCalls tpl (streamServer ids) calls).run StreamDb.empty).1 = .ok results ∧
      StreamLogs.Conforms (fun _ => []) (calls.map Prod.snd) results := by
  obtain ⟨encK, hencK⟩ := hK.exists_encodes
  obtain ⟨encV, hencV⟩ := hV.exists_encodes
  exact runStreamCalls_conforms hencK hencV ids calls hcalls ⟨fun _ => rfl, fun _ e he => by cases he⟩

/-- Ids that count the entries of a stream. -/
def IdSource.counting : IdSource where
  id _ n := Bytes.decimal n
  fresh _ n m h := (Bytes.natValue_decimal n).symm.trans ((congrArg Bytes.natValue h).trans (Bytes.natValue_decimal m))

theorem streamCalls_refine_log_string :
    let calls : List (StreamCall Bytes Bytes) := [.xadd "s" [("f", "1"), ("f", "2")] true,
      .xadd "s" [("f", "1"), ("f", "2")] false, .xdel "s" [], .xrange "s"]
    ∃ results, ((runStreamCalls stringTemplate (streamServer .counting)
        (calls.map fun call => (referencePlatform, call))).run StreamDb.empty).1 = .ok results ∧
      StreamLogs.Conforms (fun _ => []) calls results :=
  streamCalls_refine_log stringSerializer_lawful stringSerializer_lawful .counting _ fun call hcall => by
    simp only [List.map_cons, List.map_nil, List.mem_cons, List.not_mem_nil, or_false] at hcall
    rcases hcall with rfl | rfl | rfl | rfl
    · exact List.cons_ne_nil _ _
    · exact List.cons_ne_nil _ _
    · trivial
    · trivial

end Redisdal
