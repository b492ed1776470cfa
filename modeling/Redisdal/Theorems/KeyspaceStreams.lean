import Redisdal.Theorems.KeyspaceScores
import Redisdal.Theorems.StreamLog

/-! # Calls on streams of the typed keyspace

The server keeps the texts of the fields, and does with them what the keyspace does with the fields. -/

namespace Redisdal

variable {K V : Type} {encK : K → Bytes} {encV : V → Bytes}

/-! ### Replies -/

/-- Fields as their texts. -/
abbrev fieldTexts (encK : K → Bytes) (encV : V → Bytes) : List (K × V) → List (Bytes × Bytes) :=
  List.map (Prod.map encK encV)

/-- Slots of a stream, with their fields as texts. -/
def slotTexts (encK : K → Bytes) (encV : V → Bytes) (e : Nat × Option (List (K × V))) :
    Nat × Option (List (Bytes × Bytes)) := (e.1, e.2.map (fieldTexts encK encV))

/-- A batch of slots, with its key and their fields as texts. -/
def batchTexts (encK : K → Bytes) (encV : V → Bytes) (b : K × List (Nat × Option (List (K × V)))) :
    Bytes × List (Nat × Option (List (Bytes × Bytes))) := (encK b.1, b.2.map (slotTexts encK encV))

theorem map_ofSlot_slotTexts (slots : List (Nat × Option (List (K × V)))) :
    (slots.map (slotTexts encK encV)).map .ofSlot =
      (slots.map .ofSlot).map (StreamLogs.encodeTexts encK encV) := by
  rw [List.map_map, List.map_map]
  refine List.map_congr_left fun e _ => ?_
  obtain ⟨n, _ | fields⟩ := e <;> rfl

theorem streamEntryTree_entry (e : Nat × Option (List (Bytes × Bytes))) :
    Reply.StreamEntryTree (.entry e) (.ofSlot e) := by
  obtain ⟨n, _ | fields⟩ := e
  · exact .entry _ .deleted
  · exact .entry _ (.fields fields)

theorem streamEntriesTree_entries (l : List (Nat × Option (List (Bytes × Bytes)))) :
    Reply.StreamEntriesTree (.array (l.map .entry)) (l.map .ofSlot) :=
  .entries (List.forall₂_map_left_iff.mpr (List.forall₂_map_right_iff.mpr
    (List.forall₂_same.mpr fun e _ => streamEntryTree_entry e)))

theorem streamBatchesTree_batches (l : List (Bytes × List (Nat × Option (List (Bytes × Bytes))))) :
    Reply.StreamBatchesTree (.array (l.map .batch)) (l.map .ofSlots) :=
  .batches (List.forall₂_map_left_iff.mpr (List.forall₂_map_right_iff.mpr
    (List.forall₂_same.mpr fun b _ => .batch b.1 (streamEntriesTree_entries b.2))))

section Readings
variable [Platform] {tpl : Template K V} (hK : Encodes tpl.keySerializer encK) (hV : Encodes tpl.valueSerializer encV)

theorem read_id (n : Option Nat) (c : Bytes) :
    ((Interpretation.optionalText c).decode (Reply.ofOptional (n.map StreamId.text)).toCmdReply >>=
      Value.plain (K := K) (V := V)) = .ok (.id (n.map StreamId.text)) := by
  rw [Interpretation.decode, optionalStringReply_ofOptional]
  rfl

theorem read_isOne {n : Nat} (hn : n ≤ 1) (c : Bytes) :
    ((Interpretation.flag c).decode (Reply.signed n).toCmdReply >>= Value.plain (K := K) (V := V)) =
      .ok (.flag (n = 1)) := by
  have hlong : IsLongLong n := ⟨by omega, by omega⟩
  rw [Interpretation.decode, Client.flagReply, integerReply_signed, asLongLong_of_isLongLong hlong]
  interval_cases n <;> rfl

include hK hV

theorem deserializeEntries_slotTexts (slots : List (Nat × Option (List (K × V)))) :
    StreamOperations.deserializeEntries tpl ((slots.map (slotTexts encK encV)).map .ofSlot) =
      .ok (slots.map .ofSlot) := by
  rw [map_ofSlot_slotTexts, deserializeEntries_encodeTexts hK hV]

theorem read_entries (slots : List (Nat × Option (List (K × V)))) (c : Bytes) :
    ((Interpretation.entries c).decode (Reply.array ((slots.map (slotTexts encK encV)).map .entry)).toCmdReply >>=
      Value.typedEntries tpl) = .ok (.entries (slots.map .ofSlot)) := by
  have hreply : Client.streamEntriesReply c (Reply.array ((slots.map (slotTexts encK encV)).map .entry)).toCmdReply =
      .ok ((slots.map (slotTexts encK encV)).map .ofSlot) :=
    Reply.orThrow_bind_eq_ok_iff.mpr ⟨by simp [Reply.kind],
      Reply.streamEntries_eq_ok_iff.mpr (streamEntriesTree_entries _)⟩
  rw [Interpretation.decode, hreply]
  show Except.map _ (StreamOperations.deserializeEntries tpl _) = _
  rw [deserializeEntries_slotTexts hK hV]
  rfl

theorem read_batches (batches : List (K × List (Nat × Option (List (K × V))))) (c : Bytes) {r : Reply}
    (hr : Reply.StreamBatchesTree r ((batches.map (batchTexts encK encV)).map .ofSlots)) :
    ((Interpretation.batches c).decode r.toCmdReply >>= Value.typedBatches tpl) =
      .ok (.batches (batches.map .ofSlots)) := by
  have hkind : r.kind ≠ .error := by
    generalize (batches.map (batchTexts encK encV)).map StreamBatch.ofSlots = l at hr
    cases hr <;> simp [Reply.kind]
  have hreply : Client.streamBatchesReply c r.toCmdReply = .ok ((batches.map (batchTexts encK encV)).map .ofSlots) :=
    Reply.orThrow_bind_eq_ok_iff.mpr ⟨hkind, Reply.streamBatches_eq_ok_iff.mpr hr⟩
  have hdeserialize : StreamOperations.deserializeBatches tpl ((batches.map (batchTexts encK encV)).map .ofSlots) =
      .ok (batches.map .ofSlots) := by
    unfold StreamOperations.deserializeBatches
    rw [List.map_map, Except.mapM_eq_ok_iff, List.forall₂_map_left_iff, List.forall₂_map_right_iff]
    refine List.forall₂_same.mpr fun b _ => ?_
    have hkey : tpl.deserializeKey (encK b.1) = .ok b.1 := hK.deserialize b.1
    show (tpl.deserializeKey (encK b.1) >>= fun key => _) = _
    rw [hkey, Except.ok_bind]
    show (StreamOperations.deserializeEntries tpl ((b.2.map (slotTexts encK encV)).map .ofSlot) >>=
      fun entries => _) = _
    rw [deserializeEntries_slotTexts hK hV]
    rfl
  rw [Interpretation.decode, hreply]
  show Except.map _ (StreamOperations.deserializeBatches tpl _) = _
  rw [hdeserialize]
  rfl

end Readings

/-! ### Reads of several streams -/

section Reads
open StreamReading
variable [ServerTexts] [DecidableEq K] [DecidableEq V] {m : ServerMap} {s : TypedKeyspace K V}

theorem starts_related (h : Holds encK encV m s) (group : Option Bytes) (streams : List (K × Bytes)) :
    starts m group (streams.map (Prod.map encK id)) =
      (starts s group streams).map (List.map (Prod.map encK id)) := by
  unfold starts
  induction streams with
  | nil => rfl
  | cons stream streams ih =>
    obtain ⟨key, first⟩ := stream
    have hfind := ViewRel.stream.find (h.datum key)
    rw [List.map_cons, List.mapM_cons, List.mapM_cons, ih, Prod.map_apply]
    dsimp only
    generalize streamView.find (m.datum (encK key)) = found at hfind ⊢
    generalize streamView.find (s.datum key) = found' at hfind ⊢
    cases hfind with
    | none => rfl
    | some hlog =>
      subst hlog
      dsimp only
      rw [id, start_map]
      cases start group first _ with
      | error message => rfl
      | ok first => cases List.mapM (m := Except Bytes) _ streams <;> rfl

omit [ServerTexts] in
theorem readAll_related (hinjective : Function.Injective encK) (reader : Option (Bytes × Bytes)) (limit : Option Nat)
    (track : Bool) (starts : List (K × ReadFrom)) (h : Holds encK encV m s) :
    (readAll reader limit track (starts.map (Prod.map encK id)) m).1 =
        (readAll reader limit track starts s).1.map (batchTexts encK encV) ∧
      Holds encK encV (readAll reader limit track (starts.map (Prod.map encK id)) m).2
        (readAll reader limit track starts s).2 := by
  induction starts generalizing m s with
  | nil => exact ⟨rfl, h⟩
  | cons first rest ih =>
    obtain ⟨key, first⟩ := first
    have hfind := ViewRel.stream.find (h.datum key)
    rw [List.map_cons, Prod.map_apply, readAll, readAll]
    generalize streamView.find (m.datum (encK key)) = found at hfind ⊢
    generalize streamView.find (s.datum key) = found' at hfind ⊢
    cases hfind with
    | none => exact ih h
    | some hlog =>
      subst hlog
      dsimp only
      rw [id, read_map]
      obtain ⟨hbatches, hnext⟩ := ih (h.put hinjective key (ViewRel.stream.write rfl))
      refine ⟨?_, hnext⟩
      rw [hbatches, List.map_append]
      cases (read reader limit track first _).1 <;> rfl

end Reads

/-! ### What argument builders throw -/

def IsInvalidArgument (e : Exn) : Prop := ∃ what, e = .invalidArgument what

theorem throws_ite {α : Type} {P : Exn → Prop} {b : Prop} [Decidable b] {x y : Outcome α} (hx : Throws P x)
    (hy : Throws P y) : Throws P (if b then x else y) := by
  split
  · exact hx
  · exact hy

theorem throws_invalidArgument {α : Type} (what : Bytes) :
    Throws IsInvalidArgument (throw (.invalidArgument what) : Outcome α) := Throws.error_iff.mpr ⟨what, rfl⟩

theorem throws_appendStreamCount (args : List Bytes) (count : Option Int) (command : Bytes) :
    Throws IsInvalidArgument (CmdOps.appendStreamCount args count command) := by
  cases count with
  | none => exact .pure _
  | some n => exact throws_ite (throws_invalidArgument _) (.pure _)

theorem throws_appendStreamBlock (args : List Bytes) (blockMs : Option Int) (command : Bytes) :
    Throws IsInvalidArgument (CmdOps.appendStreamBlock args blockMs command) := by
  cases blockMs with
  | none => exact .pure _
  | some n => exact throws_ite (throws_invalidArgument _) (.pure _)

theorem throws_appendStreamTrim (args : List Bytes) (options : StreamTrimOptions) (command : Bytes) :
    Throws IsInvalidArgument (CmdOps.appendStreamTrim args options command) :=
  throws_ite (throws_invalidArgument _) (throws_ite (throws_invalidArgument _)
    (throws_ite (throws_invalidArgument _) (.pure _)))

theorem throws_appendStreams (args : List Bytes) (streams : List (StreamReadRequest Bytes)) (command : Bytes) :
    Throws IsInvalidArgument (CmdOps.appendStreams args streams command) :=
  throws_ite (throws_invalidArgument _) (throws_ite (throws_invalidArgument _) (.pure _))

theorem throws_xaddArguments (key : Bytes) (fields : List (Bytes × Bytes)) (options : StreamAddOptions) :
    Throws IsInvalidArgument (CmdOps.xaddArguments key fields options) := by
  refine throws_ite (throws_invalidArgument _) (throws_ite (throws_invalidArgument _) ?_)
  cases options.trim with
  | none => exact .pure _
  | some trim => exact (throws_appendStreamTrim _ trim _).bind fun _ _ => .pure _

theorem throws_xreadArguments (streams : List (StreamReadRequest Bytes)) (options : StreamReadOptions) :
    Throws IsInvalidArgument (CmdOps.xreadArguments streams options) :=
  (throws_appendStreamCount _ _ _).bind fun _ _ =>
    (throws_appendStreamBlock _ _ _).bind fun _ _ => throws_appendStreams _ _ _

theorem throws_xreadgroupArguments (group consumer : Bytes) (streams : List (StreamReadRequest Bytes))
    (options : StreamReadGroupOptions) :
    Throws IsInvalidArgument (CmdOps.xreadgroupArguments group consumer streams options) :=
  (throws_appendStreamCount _ _ _).bind fun _ _ =>
    (throws_appendStreamBlock _ _ _).bind fun _ _ => throws_appendStreams _ _ _

/-! ### Calls on one stream -/

section Calls
variable [Platform] [ServerTexts] [DecidableEq K] [DecidableEq V] {tpl : Template K V}
  (hK : Encodes tpl.keySerializer encK) (hV : Encodes tpl.valueSerializer encV) {o : ListingOrder} {db : RedisDb}
  {s : TypedKeyspace K V}

omit [Platform] [ServerTexts] [DecidableEq K] [DecidableEq V] in
include hK in
theorem serializeRequests_ok (streams : List (StreamReadRequest K)) :
    StreamOperations.serializeRequests tpl streams =
      .ok (streams.map fun stream => ⟨encK stream.key, stream.id⟩) := by
  refine Except.mapM_eq_map fun stream _ => ?_
  have hkey : tpl.serializeKey stream.key = .ok (encK stream.key) := hK.serialize stream.key
  rw [hkey]
  rfl

/-- What is done to encoded entries is done to the entries. -/
theorem exists_onStream {m : ServerMap} {answer : Reply × ServerMap} (hinjective : Function.Injective encK)
    (h : Holds encK encV m s) {key : K} {i : Interpretation} {result : Value → Outcome (TypedValue K V)}
    {action : Except Bytes (StreamAction (List (K × V)))} {value : StreamAnswer (List (K × V)) → TypedValue K V}
    (herror : ∀ text, (i.decode (Reply.error text).toCmdReply >>= result) = .error (.redisError text))
    (hread : ∀ a answer, action = .ok a → a.Gives answer →
      (i.decode (Reply.ofAnswer (.ok (answer.map (fieldTexts encK encV)))).toCmdReply >>= result) = .ok (value answer))
    (hanswer : answer = m.onStream (encK key) (action.map (StreamAction.map (fieldTexts encK encV)))) :
    ∃ s', s.OnStream (i.decode answer.1.toCmdReply >>= result) s' key action value ∧ Holds encK encV answer.2 s' := by
  subst hanswer
  cases action with
  | error message => exact ⟨s, ⟨herror message, rfl⟩, h⟩
  | ok a =>
    show ∃ s', s.OnView streamView key (fun stream out stream' =>
        out = StreamAnswer.outcome value (a.run s.now stream).1 ∧ stream' = (a.run s.now stream).2)
      (i.decode (m.onStream (encK key) (.ok (a.map (fieldTexts encK encV)))).1.toCmdReply >>= result) s' ∧
      Holds encK encV (m.onStream (encK key) (.ok (a.map (fieldTexts encK encV)))).2 s'
    refine exists_onView hinjective h herror .stream rfl fun c stream hstream => ?_
    subst hstream
    rw [h.now, StreamAction.run_map]
    refine ⟨_, ⟨?_, rfl⟩, rfl⟩
    unfold StreamAction.mapResult
    dsimp only
    cases hrun : (a.run s.now stream).1 with
    | error message => exact herror message
    | ok answer => exact hread a answer rfl (StreamAction.run_gives hrun)

variable (h : Holds encK encV db.map s)

/-! ### Rejected calls -/

/-- A call that builds its argument vector conforms when it does once the arguments are accepted. -/
theorem conforms_unlessRejected {call : TypedCall K V} {op : Operation} {args : Outcome (List Bytes)}
    {result : Value → Outcome (TypedValue K V)} {i : Interpretation} {r : Request}
    {P : Outcome (TypedValue K V) → TypedKeyspace K V → Prop} (h : Holds encK encV db.map s)
    (hplan : call.plan tpl = .call op result) (hop : op.plan = .ofArguments args i)
    (hthrows : Throws IsInvalidArgument args) (hrequest : op.request = some r)
    (hid : ¬op.HasOptionId)
    (hallows : ∀ outcome s', s.UnlessRejected outcome s' call.Rejected (P outcome s') → s.Allows tpl call outcome s')
    (hP : ∃ s', P (i.decode (db.map.command o db.clock r).1.toCmdReply >>= result) s' ∧
      Holds encK encV (db.map.command o db.clock r).2 s') : CallConforms tpl encK encV o db s call := by
  have hrejects := (call.asksFor_plan tpl).rejected op result hplan
  have his := plan_is op
  rw [hop] at his
  cases hargs : args with
  | error e =>
    rw [hargs] at his hop
    have hrejected : call.Rejected := hrejects.mp (by cases his with | rejected _ hR _ => exact hR)
    obtain ⟨what, rfl⟩ := hthrows e hargs
    unfold CallConforms
    rw [run_of_call _ _ hplan, Operation.run_eq_plan, hop]
    exact ⟨s, hallows _ _ (Or.inl ⟨hrejected, ⟨what, rfl⟩, rfl⟩), h⟩
  | ok argv =>
    rw [hargs] at his hop
    have haccepted : ¬call.Rejected := fun hR => by
      cases his with
      | sent _ _ hsent _ => exact hsent (hrejects.mpr hR)
    refine conforms_call hplan hop hrequest hid ?_
    obtain ⟨s', houtcome, hnext⟩ := hP
    exact ⟨s', hallows _ _ (Or.inr ⟨haccepted, houtcome⟩), hnext⟩

/-! ### Calls on one stream -/

section Counts
variable {call : TypedCall K V} {op : Operation} {i : Interpretation} {argv : List Bytes} {key : K}
  {result : Value → Outcome (TypedValue K V)} {r : Request}

include hK h in
/-- A call on one stream that sends one command. -/
theorem conforms_onStream {a : StreamAction (List (K × V))} {value : StreamAnswer (List (K × V)) → TypedValue K V}
    (hplan : call.plan tpl = .call op result) (hsend : op.plan = .send argv i) (hrequest : op.request = some r)
    (hid : ¬op.HasOptionId)
    (hallows : ∀ outcome s', s.OnStream outcome s' key (.ok a) value → s.Allows tpl call outcome s')
    (hanswer : db.map.command o db.clock r = db.map.onStream (encK key) (.ok (a.map (fieldTexts encK encV))))
    (herror : ∀ text, (i.decode (Reply.error text).toCmdReply >>= result) = .error (.redisError text))
    (hread : ∀ answer, a.Gives answer →
      (i.decode (Reply.ofAnswer (.ok (answer.map (fieldTexts encK encV)))).toCmdReply >>= result) =
        .ok (value answer)) :
    CallConforms tpl encK encV o db s call := by
  have hread' : ∀ a' answer, (.ok a : Except Bytes (StreamAction (List (K × V)))) = .ok a' → a'.Gives answer →
      (i.decode (Reply.ofAnswer (.ok (answer.map (fieldTexts encK encV)))).toCmdReply >>= result) =
        .ok (value answer) := by
    intro a' answer ha
    cases ha
    exact hread answer
  obtain ⟨s', houtcome, hnext⟩ := exists_onStream hK.injective h herror hread' hanswer
  exact conforms_call hplan hsend hrequest hid ⟨s', hallows _ _ houtcome, hnext⟩

end Counts

section Groups
include hK h

theorem xlen_conforms (key : K) : CallConforms tpl encK encV o db s (.xlen key) := by
  refine conforms_onStream hK h (TypedPlan.ofRequest_ok (hK.serialize key) _ _) rfl rfl id (fun _ _ ha => ha) rfl
    (fun _ => rfl) fun answer hgives => ?_
  cases answer with
  | count n => exact read_signed n "XLEN"
  | _ => exact hgives.elim

theorem xgroupCreate_conforms (key : K) (group id : Bytes) (mkstream : Bool) :
    CallConforms tpl encK encV o db s (.xgroupCreate key group id mkstream) := by
  refine conforms_onStream hK h (TypedPlan.ofRequest_ok (hK.serialize key) _ _) rfl rfl not_false (fun _ _ ha => ha) rfl
    (fun _ => rfl) fun answer hgives => ?_
  cases answer with
  | ok => rfl
  | _ => exact hgives.elim

theorem xgroupSetid_conforms (key : K) (group id : Bytes) :
    CallConforms tpl encK encV o db s (.xgroupSetid key group id) := by
  refine conforms_onStream hK h (TypedPlan.ofRequest_ok (hK.serialize key) _ _) rfl rfl not_false (fun _ _ ha => ha) rfl
    (fun _ => rfl) fun answer hgives => ?_
  cases answer with
  | ok => rfl
  | _ => exact hgives.elim

theorem xgroupDestroy_conforms (key : K) (group : Bytes) :
    CallConforms tpl encK encV o db s (.xgroupDestroy key group) := by
  refine conforms_onStream hK h (TypedPlan.ofRequest_ok (hK.serialize key) _ _) rfl rfl id (fun _ _ ha => ha) rfl
    (fun _ => rfl) fun answer hgives => ?_
  cases answer with
  | count n => exact read_isOne hgives "XGROUP DESTROY"
  | _ => exact hgives.elim

theorem xgroupCreateconsumer_conforms (key : K) (group consumer : Bytes) :
    CallConforms tpl encK encV o db s (.xgroupCreateconsumer key group consumer) := by
  refine conforms_onStream hK h (TypedPlan.ofRequest_ok (hK.serialize key) _ _) rfl rfl id (fun _ _ ha => ha) rfl
    (fun _ => rfl) fun answer hgives => ?_
  cases answer with
  | count n => exact read_isOne hgives "XGROUP CREATECONSUMER"
  | _ => exact hgives.elim

theorem xgroupDelconsumer_conforms (key : K) (group consumer : Bytes) :
    CallConforms tpl encK encV o db s (.xgroupDelconsumer key group consumer) := by
  refine conforms_onStream hK h (TypedPlan.ofRequest_ok (hK.serialize key) _ _) rfl rfl id (fun _ _ ha => ha) rfl
    (fun _ => rfl) fun answer hgives => ?_
  cases answer with
  | count n => exact read_signed n "XGROUP DELCONSUMER"
  | _ => exact hgives.elim

theorem xdel_conforms (key : K) (ids : List Bytes) : CallConforms tpl encK encV o db s (.xdel key ids) := by
  have hplan := TypedPlan.ofRequest_ok (hK.serialize key) (.xdel · ids) (Value.plain (K := K) (V := V))
  by_cases hids : ids = []
  · subst hids
    refine conforms_of_answer h hplan rfl ?_
    unfold TypedKeyspace.Allows
    exact (if_pos rfl).mpr ⟨rfl, rfl⟩
  · refine conforms_onStream hK h hplan (if_neg (by simpa using hids)) rfl id
      (fun _ _ ha => cast (if_neg hids).symm ha) rfl (fun _ => rfl) fun answer hgives => ?_
    cases answer with
    | count n => exact read_signed n "XDEL"
    | _ => exact hgives.elim

theorem xack_conforms (key : K) (group : Bytes) (ids : List Bytes) :
    CallConforms tpl encK encV o db s (.xack key group ids) := by
  have hplan := TypedPlan.ofRequest_ok (hK.serialize key) (.xack · group ids) (Value.plain (K := K) (V := V))
  by_cases hids : ids = []
  · subst hids
    refine conforms_of_answer h hplan rfl ?_
    unfold TypedKeyspace.Allows
    exact (if_pos rfl).mpr ⟨rfl, rfl⟩
  · refine conforms_onStream hK h hplan (if_neg (by simpa using hids)) rfl id
      (fun _ _ ha => cast (if_neg hids).symm ha) rfl (fun _ => rfl) fun answer hgives => ?_
    cases answer with
    | count n => exact read_signed n "XACK"
    | _ => exact hgives.elim

theorem xtrim_conforms (key : K) (options : StreamTrimOptions) :
    CallConforms tpl encK encV o db s (.xtrim key options) := by
  refine conforms_unlessRejected h (TypedPlan.ofRequest_ok (hK.serialize key) _ _) rfl (throws_appendStreamTrim _ _ _)
    rfl id (fun _ _ ha => ha) (exists_onStream hK.injective h (fun _ => rfl) (fun a answer ha hgives => ?_) ?_)
  · obtain ⟨t, -, rfl⟩ := Except.map_eq_ok_iff.mp ha
    cases answer with
    | count n => exact read_signed n "XTRIM"
    | _ => exact hgives.elim
  · rw [← StreamAction.xtrim_map]
    rfl

include hV

theorem xadd_conforms (key : K) (fields : List (K × V)) (options : StreamAddOptions)
    (hin : (TypedCall.xadd key fields options).InKeyspace) :
    CallConforms tpl encK encV o db s (.xadd key fields options) := by
  have hfields : fields.mapM (StreamOperations.serializeField tpl) = .ok (fieldTexts encK encV fields) :=
    Except.mapM_eq_map fun field _ => bothArguments_eq_ok.mpr ⟨hK.serialize field.1, hV.serialize field.2⟩
  refine conforms_unlessRejected h (TypedPlan.ofRequest_ok (thenKey_ok hK hfields key) _ _) rfl
    (throws_xaddArguments _ _ _) rfl hin.1.not_readsAsOption (fun _ _ ha => ha)
    (exists_onStream hK.injective h (fun _ => rfl) (fun a answer ha hgives => ?_) ?_)
  · obtain ⟨trim, -, ha⟩ := Except.bind_eq_ok_iff.mp ha
    obtain ⟨id, -, ha⟩ := Except.bind_eq_ok_iff.mp ha
    cases ha
    cases answer with
    | id n => exact read_id n "XADD"
    | _ => exact hgives.elim
  · rw [← StreamAction.xadd_map]
    rfl

/-- XRANGE and XREVRANGE. -/
theorem exists_xrange (word : Bytes) (key : K) (start stop : Bytes) (reversed : Bool) (count : Option Int) :
    ∃ s', s.OnStream ((Interpretation.entries word).decode
        (db.map.onStream (encK key) (StreamAction.xrange start stop reversed count)).1.toCmdReply >>=
          Value.typedEntries tpl) s' key (StreamAction.xrange start stop reversed count) StreamAnswer.value ∧
      Holds encK encV (db.map.onStream (encK key) (StreamAction.xrange start stop reversed count)).2 s' := by
  refine exists_onStream hK.injective h (fun _ => rfl) (fun a answer ha hgives => ?_) (by
    rw [← StreamAction.xrange_map])
  obtain ⟨first, -, ha⟩ := Except.bind_eq_ok_iff.mp ha
  obtain ⟨last, -, ha⟩ := Except.bind_eq_ok_iff.mp ha
  cases ha
  cases answer with
  | entries l =>
    have hread := read_entries hK hV (l.map fun e => (e.1, some e.2)) word
    rw [List.map_map, List.map_map, List.map_map] at hread
    show ((Interpretation.entries word).decode (Reply.array ((l.map fun e => (e.1, fieldTexts encK encV e.2)).map
      fun e => Reply.entry (e.1, some e.2))).toCmdReply >>= Value.typedEntries tpl) = .ok (.entries (l.map _))
    rw [List.map_map]
    exact hread
  | _ => exact hgives.elim

theorem xrange_conforms (key : K) (start stop : Bytes) (count : Option Int) :
    CallConforms tpl encK encV o db s (.xrange key start stop count) :=
  conforms_unlessRejected h (TypedPlan.ofRequest_ok (hK.serialize key) _ _) rfl (throws_appendStreamCount _ _ _)
    rfl id (fun _ _ ha => ha) (exists_xrange hK hV h "XRANGE" key start stop false count)

theorem xrevrange_conforms (key : K) (stop start : Bytes) (count : Option Int) :
    CallConforms tpl encK encV o db s (.xrevrange key stop start count) :=
  conforms_unlessRejected h (TypedPlan.ofRequest_ok (hK.serialize key) _ _) rfl (throws_appendStreamCount _ _ _)
    rfl id (fun _ _ ha => ha) (exists_xrange hK hV h "XREVRANGE" key start stop true count)

/-! ### Reads -/

/-- XREAD and XREADGROUP. -/
theorem exists_reads (word : Bytes) (reader : Option (Bytes × Bytes)) (streams : List (StreamReadRequest K))
    (options : StreamReadGroupOptions) {answer : Reply × ServerMap}
    (hanswer : answer = db.map.readStreams ⟨reader, options, streams.map fun stream => ⟨encK stream.key, stream.id⟩⟩) :
    ∃ s', s.Reads ((Interpretation.batches word).decode answer.1.toCmdReply >>= Value.typedBatches tpl) s' reader
        streams options.count (!options.noack) ∧ Holds encK encV answer.2 s' := by
  have hstreams : (streams.map fun stream => (⟨encK stream.key, stream.id⟩ : StreamReadRequest Bytes)).map
      (fun stream => (stream.key, stream.id)) =
        (streams.map fun stream => (stream.key, stream.id)).map (Prod.map encK id) := by
    rw [List.map_map, List.map_map]
    rfl
  subst hanswer
  unfold ServerMap.readStreams TypedKeyspace.Reads
  rw [hstreams, starts_related h]
  cases StreamReading.starts s (reader.map Prod.fst) (streams.map fun stream => (stream.key, stream.id)) with
  | error message => exact ⟨s, ⟨rfl, rfl⟩, h⟩
  | ok starts =>
    obtain ⟨hbatches, hnext⟩ := readAll_related hK.injective reader (options.count.map Int.toNat) (!options.noack)
      starts h
    refine ⟨_, ⟨?_, rfl⟩, hnext⟩
    refine read_batches hK hV _ word ?_
    dsimp only [Except.map]
    rw [hbatches]
    split
    · next hnil =>
      rw [hnil]
      exact .nil
    · exact streamBatchesTree_batches _

theorem xread_conforms (streams : List (StreamReadRequest K)) (options : StreamReadOptions) :
    CallConforms tpl encK encV o db s (.xread streams options) :=
  conforms_unlessRejected h (TypedPlan.ofRequest_ok (serializeRequests_ok hK streams) _ _) rfl
    (throws_xreadArguments _ _) rfl id (fun _ _ ha => ha)
    (exists_reads hK hV h "XREAD" none streams ⟨options.count, options.blockMs, false⟩ rfl)

theorem xreadgroup_conforms (group consumer : Bytes) (streams : List (StreamReadRequest K))
    (options : StreamReadGroupOptions) :
    CallConforms tpl encK encV o db s (.xreadgroup group consumer streams options) :=
  conforms_unlessRejected h (TypedPlan.ofRequest_ok (serializeRequests_ok hK streams) _ _) rfl
    (throws_xreadgroupArguments _ _ _ _) rfl id (fun _ _ ha => ha)
    (exists_reads hK hV h "XREADGROUP" (some (group, consumer)) streams options rfl)

end Groups

/-! ### Any call -/

include hK hV h in
theorem call_conforms (call : TypedCall K V) (hin : call.InKeyspace)
    (hpasses : call.PassesScores → ServerScores.Passes ‹Platform›) : CallConforms tpl encK encV o db s call := by
  cases call with
  | «exists» key => exact exists_conforms hK h key
  | type key => exact type_conforms hK h key
  | expire key seconds => exact expire_conforms hK h key seconds
  | pexpire key milliseconds => exact pexpire_conforms hK h key milliseconds
  | ttl key => exact ttl_conforms hK h key
  | pttl key => exact pttl_conforms hK h key
  | persist key => exact persist_conforms hK h key
  | ping => exact ping_conforms h
  | pingMessage message => exact pingMessage_conforms h message
  | del key => exact del_conforms hK h key
  | delMany keys => exact delMany_conforms hK h keys
  | set key value => exact set_conforms hK hV h key value
  | get key => exact get_conforms hK h key
  | incr key delta => exact incr_conforms hK h key delta
  | decr key delta => exact decr_conforms hK h key delta
  | append key value => exact append_conforms hK hV h key value
  | getAndSet key value => exact getAndSet_conforms hK hV h key value
  | hget key hashKey => exact hget_conforms hK hV h key hashKey
  | hgetMany key hashMap => exact hgetMany_conforms hK hV h key hashMap
  | hgetall key => exact hgetall_conforms hK hV h key
  | hkeys key => exact hkeys_conforms hK h key
  | hvals key => exact hvals_conforms hK hV h key
  | hset key field value => exact hset_conforms hK hV h key field value
  | hsetMany key hashMap => exact hsetMany_conforms hK hV h key hashMap
  | hdel key hashKey => exact hdel_conforms hK h key hashKey
  | hdelMany key hashKeys => exact hdelMany_conforms hK h key hashKeys
  | lpushMany key values => exact lpushMany_conforms hK hV h key values
  | lpush key value => exact lpush_conforms hK hV h key value
  | rpush key value => exact rpush_conforms hK hV h key value
  | rpushMany key values => exact rpushMany_conforms hK hV h key values
  | lpop key => exact lpop_conforms hK hV h key
  | rpop key => exact rpop_conforms hK hV h key
  | lpopCount key count => exact lpopCount_conforms hK hV h key count
  | rpopCount key count => exact rpopCount_conforms hK hV h key count
  | lrange key start stop => exact lrange_conforms hK hV h key start stop
  | llen key => exact llen_conforms hK h key
  | lindex key index => exact lindex_conforms hK hV h key index
  | sadd key members => exact sadd_conforms hK hV h key members
  | srem key members => exact srem_conforms hK hV h key members
  | spop key => exact spop_conforms hK hV h key
  | smembers key => exact smembers_conforms hK hV h key
  | scard key => exact scard_conforms hK hV h key
  | sismember key member => exact sismember_conforms hK hV h key member
  | sinter keys => exact sinter_conforms hK hV h keys
  | zadd key members => exact zadd_conforms hK hV h (hpasses trivial) key members
  | zrem key members => exact zrem_conforms hK hV h key members
  | zincrby key increment member => exact zincrby_conforms hK hV h (hpasses trivial) key increment member
  | zscore key member => exact zscore_conforms hK hV h (hpasses trivial) key member
  | zrange key start stop => exact zrange_conforms hK hV h key start stop
  | zrevrange key start stop => exact zrevrange_conforms hK hV h key start stop
  | zrangeWithscores key start stop => exact zrangeWithscores_conforms hK hV h (hpasses trivial) key start stop
  | zrevrangeWithscores key start stop => exact zrevrangeWithscores_conforms hK hV h (hpasses trivial) key start stop
  | xadd key fields options => exact xadd_conforms hK hV h key fields options hin
  | xlen key => exact xlen_conforms hK h key
  | xrange key start stop count => exact xrange_conforms hK hV h key start stop count
  | xrevrange key stop start count => exact xrevrange_conforms hK hV h key stop start count
  | xread streams options => exact xread_conforms hK hV h streams options
  | xdel key ids => exact xdel_conforms hK h key ids
  | xtrim key options => exact xtrim_conforms hK h key options
  | xgroupCreate key group id mkstream => exact xgroupCreate_conforms hK h key group id mkstream
  | xgroupSetid key group id => exact xgroupSetid_conforms hK h key group id
  | xgroupDestroy key group => exact xgroupDestroy_conforms hK h key group
  | xgroupCreateconsumer key group consumer => exact xgroupCreateconsumer_conforms hK h key group consumer
  | xgroupDelconsumer key group consumer => exact xgroupDelconsumer_conforms hK h key group consumer
  | xreadgroup group consumer streams options => exact xreadgroup_conforms hK hV h group consumer streams options
  | xack key group ids => exact xack_conforms hK h key group ids
  | _ => exact hin.elim

end Calls

end Redisdal
