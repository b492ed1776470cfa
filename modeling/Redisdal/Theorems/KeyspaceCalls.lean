import Redisdal.Theorems.BatchHget
import Redisdal.Theorems.FacadeContract
import Redisdal.Theorems.Keyspace

/-! # Calls on the typed keyspace

A call of the facade, on a server that holds the encoded data of a typed keyspace, has an outcome that the keyspace
allows, and leaves the encoded data of a keyspace that it allows. -/

namespace Redisdal

variable {K V : Type} [DecidableEq K] [DecidableEq V]

/-! ### Encoded data -/

/-- A datum of the server encodes a typed one; a text is what it is. -/
inductive DatumRel (encK : K → Bytes) (encV : V → Bytes) : ServerDatum → TypedDatum K V → Prop where
  | text (value : Bytes) : DatumRel encK encV (.text value) (.text value)
  | list (values : List V) : DatumRel encK encV (.list (values.map encV)) (.list values)
  | set {m : UnorderedSet Bytes} {members : Finset V} (h : UnorderedMap.RepresentsSet encV m members) :
    DatumRel encK encV (.set m) (.set members)
  | hash {m : UnorderedMap Bytes Bytes} {fields : Finmap fun _ : K => V}
    (h : UnorderedMap.Represents encK encV m fields) : DatumRel encK encV (.hash m) (.hash fields)
  | stream (log : StreamLog (List (K × V))) :
    DatumRel encK encV (.stream (log.map (List.map (Prod.map encK encV)))) (.stream log)
  | zset {z : UnorderedMap Bytes Score} {scores : Finmap fun _ : V => Score}
    (h : UnorderedMap.Represents encV id z scores) : DatumRel encK encV (.zset z) (.zset scores)

/-- Two views find and leave related things in related data. -/
structure ViewRel (encK : K → Bytes) (encV : V → Bytes) {C C' : Type} (R : C → C' → Prop)
    (view : DatumView ServerDatum C) (view' : DatumView (TypedDatum K V) C') : Prop where
  read : ∀ {d d'}, DatumRel encK encV d d' → Option.Rel R (view.read d) (view'.read d')
  absent : R view.absent view'.absent
  write : ∀ {c c'}, R c c' → Option.Rel (DatumRel encK encV) (view.write c) (view'.write c')

namespace ViewRel
variable {encK : K → Bytes} {encV : V → Bytes}

theorem text : ViewRel encK encV Eq textView textView where
  read h := by
    cases h with
    | text value => exact .some rfl
    | _ => exact .none
  absent := rfl
  write h := by
    subst h
    rename_i t
    cases t with
    | none => exact .none
    | some value => exact .some (.text value)

theorem list : ViewRel encK encV (fun c l => c = l.map encV) listView listView where
  read h := by
    cases h with
    | list values => exact .some rfl
    | _ => exact .none
  absent := rfl
  write h := by
    subst h
    rename_i l
    cases l with
    | nil => exact .none
    | cons v l => exact .some (.list (v :: l))

omit [DecidableEq K] [DecidableEq V] in
/-- Nothing is kept of a collection that is empty. -/
theorem rel_unlessEmpty {A B : Type} {R : A → B → Prop} {p q : Prop} [Decidable p] [Decidable q] (hpq : p ↔ q) {a : A}
    {b : B} (h : R a b) : Option.Rel R (if p then none else some a) (if q then none else some b) := by
  by_cases hp : p
  · rw [if_pos hp, if_pos (hpq.mp hp)]
    exact .none
  · rw [if_neg hp, if_neg (mt hpq.mpr hp)]
    exact .some h

theorem set : ViewRel encK encV (UnorderedMap.RepresentsSet encV) (setView _) (setView _) where
  read h := by
    cases h with
    | set h => exact .some h
    | _ => exact .none
  absent := UnorderedMap.RepresentsSet.empty
  write h := rel_unlessEmpty h.eq_empty_iff (.set h)

theorem hash : ViewRel encK encV (UnorderedMap.Represents encK encV) (hashView _) (hashView _) where
  read h := by
    cases h with
    | hash h => exact .some h
    | _ => exact .none
  absent := UnorderedMap.Represents.empty
  write h := rel_unlessEmpty h.eq_empty_iff (.hash h)

theorem zset : ViewRel encK encV (UnorderedMap.Represents encV id) (zsetView _) (zsetView _) where
  read h := by
    cases h with
    | zset h => exact .some h
    | _ => exact .none
  absent := UnorderedMap.Represents.empty
  write h := rel_unlessEmpty h.eq_empty_iff (.zset h)

theorem stream : ViewRel encK encV
    (fun c log => c = log.map fun l => ConsumerLog.map l (List.map (Prod.map encK encV))) streamView streamView where
  read h := by
    cases h with
    | stream log => exact .some rfl
    | _ => exact .none
  absent := rfl
  write h := by
    subst h
    rename_i log
    cases log with
    | none => exact .none
    | some log => exact .some (.stream log)

theorem find {C C' : Type} {R : C → C' → Prop} {view : DatumView ServerDatum C}
    {view' : DatumView (TypedDatum K V) C'} (hview : ViewRel encK encV R view view') {d : Option ServerDatum}
    {d' : Option (TypedDatum K V)} (h : Option.Rel (DatumRel encK encV) d d') :
    Option.Rel R (view.find d) (view'.find d') := by
  cases h with
  | none => exact .some hview.absent
  | some h => exact hview.read h

end ViewRel

/-- The server holds the encoded data of a keyspace. -/
def Holds (encK : K → Bytes) (encV : V → Bytes) (m : ServerMap) (s : TypedKeyspace K V) : Prop :=
  ExpiringMap.Related encK (DatumRel encK encV) m s

/-- The outcome of a call is one that the keyspace allows, and so is what the server is left with. -/
def Conforms [Platform] [ServerTexts] (tpl : Template K V) (encK : K → Bytes) (encV : V → Bytes)
    (s : TypedKeyspace K V) (call : TypedCall K V) (outcome : Outcome (TypedValue K V)) (m : ServerMap) : Prop :=
  ∃ s', s.Allows tpl call outcome s' ∧ Holds encK encV m s'

/-! ### Reading replies -/

theorem longLong_toNat_emod (n : Int) : longLong (n % 2 ^ 64).toNat = asLongLong n := by
  have hnonneg : 0 ≤ n % 2 ^ 64 := Int.emod_nonneg n (by norm_num)
  unfold longLong asLongLong
  rw [Int.toNat_of_nonneg hnonneg, show (2 : Int) ^ 64 = ((2 ^ 64 : Nat) : Int) by norm_num, Int.emod_bmod]

theorem integerReply_signed (n : Int) (c : Bytes) :
    Client.integerReply c (Reply.signed n).toCmdReply = .ok (asLongLong n) := by
  unfold Reply.signed UInt64.ofInt
  rw [integerReply_count, longLong_toNat_emod]

section Readings
variable [Platform]

omit [DecidableEq K] [DecidableEq V] in
theorem read_signed (n : Int) (c : Bytes) :
    ((Interpretation.integer c).decode (Reply.signed n).toCmdReply >>= Value.plain (K := K) (V := V)) =
      .ok (.integer (asLongLong n)) := by
  rw [Interpretation.decode, integerReply_signed]
  rfl

omit [DecidableEq K] [DecidableEq V] in
theorem read_flag (b : Bool) (c : Bytes) :
    ((Interpretation.flag c).decode (Reply.signed (if b then 1 else 0)).toCmdReply >>=
      Value.plain (K := K) (V := V)) = .ok (.flag b) := by
  rw [Interpretation.decode, Client.flagReply, integerReply_signed]
  cases b <;> rfl

omit [DecidableEq K] [DecidableEq V] in
theorem read_hset (n : Int) :
    (Interpretation.hset.decode (Reply.signed n).toCmdReply >>= Value.plain (K := K) (V := V)) =
      .ok (.flag (decide (0 ≤ asLongLong n))) := by
  have hinteger := integerReply_signed n "HSET"
  unfold Client.integerReply at hinteger
  rw [Reply.orThrow_bind (by simp [Reply.signed, Reply.kind])] at hinteger
  rw [Interpretation.decode, Client.hsetReply, Reply.orThrow_bind (by simp [Reply.signed, Reply.kind]), hinteger]
  rfl

omit [DecidableEq K] [DecidableEq V] in
theorem read_ofOptional (tpl : Template K V) (text : Option Bytes) (c : Bytes) :
    ((Interpretation.optionalText c).decode (Reply.ofOptional text).toCmdReply >>= Value.typedValue tpl) =
      (text.mapM tpl.deserializeValue).map .value := by
  cases text <;> rfl

variable {tpl : Template K V} {encK : K → Bytes} {encV : V → Bytes}

omit [DecidableEq K] [DecidableEq V] in
theorem read_value (hV : Encodes tpl.valueSerializer encV) (value : Option V) (c : Bytes) :
    ((Interpretation.optionalText c).decode (Reply.ofOptional (value.map encV)).toCmdReply >>=
      Value.typedValue tpl) = .ok (.value value) := by
  have hdeserialize (v : V) : tpl.deserializeValue (encV v) = .ok v := hV.deserialize v
  rw [read_ofOptional]
  cases value with
  | none => rfl
  | some v =>
    rw [Option.map_some, Option.mapM_some, hdeserialize]
    rfl

omit [DecidableEq K] [DecidableEq V] in
theorem read_values (hV : Encodes tpl.valueSerializer encV) (values : List V) (c : Bytes) :
    ((Interpretation.texts c).decode (Reply.array ((values.map encV).map .string)).toCmdReply >>=
      Value.typedValues tpl) = .ok (.values values) := by
  rw [Interpretation.decode, Client.stringsReply, Reply.orThrow_bind (by simp [Reply.kind]), Reply.strings_strings]
  show Except.map _ ((values.map encV).mapM tpl.valueSerializer.deserialize) = _
  rw [hV.mapM_deserialize]
  rfl

omit [DecidableEq K] [DecidableEq V] in
theorem read_keyList (hK : Encodes tpl.keySerializer encK) (keys : List K) (c : Bytes) :
    ((Interpretation.texts c).decode (Reply.array ((keys.map encK).map .string)).toCmdReply >>=
      Value.typedKeyList tpl) = .ok (.keyList keys) := by
  rw [Interpretation.decode, Client.stringsReply, Reply.orThrow_bind (by simp [Reply.kind]), Reply.strings_strings]
  show Except.map _ ((keys.map encK).mapM tpl.keySerializer.deserialize) = _
  rw [hK.mapM_deserialize]
  rfl

end Readings

theorem ListDatum.range_map {α β : Type} (f : α → β) (l : List α) (start stop : Int) :
    range (l.map f) start stop = (range l start stop).map f := by
  unfold range
  rw [List.length_map, List.map_take, List.map_drop]

/-! ### From a command to a call -/

section Calls
variable [Platform] [ServerTexts] {tpl : Template K V} {encK : K → Bytes} {encV : V → Bytes} {s : TypedKeyspace K V}

omit [Platform] [ServerTexts] [DecidableEq K] [DecidableEq V] in
theorem TypedPlan.ofRequest_ok {α : Type} {request : Outcome α} {a : α} (h : request = .ok a) (op : α → Operation)
    (result : Value → Outcome (TypedValue K V)) :
    TypedPlan.ofRequest (request.map op) result = .call (op a) result := by
  rw [h]
  rfl

/-- A call that sends one command conforms when the command does, and its reply is read so. -/
theorem conforms_call {o : ListingOrder} {db : RedisDb} {call : TypedCall K V} {op : Operation}
    {result : Value → Outcome (TypedValue K V)} {argv : List Bytes} {i : Interpretation} {r : Request}
    (hplan : call.plan tpl = .call op result) (hsend : op.plan = .send argv i) (hrequest : op.request = some r)
    (hid : ¬op.HasOptionId)
    (h : Conforms tpl encK encV s call (i.decode (db.map.command o db.clock r).1.toCmdReply >>= result)
      (db.map.command o db.clock r).2) :
    Conforms tpl encK encV s call ((call.run tpl (documentedServer o)).run db).1
      ((call.run tpl (documentedServer o)).run db).2.map := by
  have hserver := run_documentedServer o (Operation.reads_back hid hsend hrequest) db
  rw [run_of_call _ _ hplan, run_of_reply hsend hserver]
  exact h

section Views
variable {m : ServerMap} {answer : Reply × ServerMap} (hK : Function.Injective encK) (h : Holds encK encV m s)
  {call : TypedCall K V} {key : K}
  {i : Interpretation} {result : Value → Outcome (TypedValue K V)}
  (herror : ∀ text, (i.decode (Reply.error text).toCmdReply >>= result) = .error (.redisError text))
include hK h herror

omit [ServerTexts] in
/-- A command on one type of data, when what it does to what it finds is related. -/
theorem exists_onView {C C' : Type} {R : C → C' → Prop} {view : DatumView ServerDatum C}
    {view' : DatumView (TypedDatum K V) C'} (hview : ViewRel encK encV R view view')
    {P : C' → Outcome (TypedValue K V) → C' → Prop} {f : C → Reply × C}
    (hanswer : answer = m.onView view (encK key) f)
    (hf : ∀ c c', R c c' → ∃ c'', P c' (i.decode (f c).1.toCmdReply >>= result) c'' ∧ R (f c).2 c'') :
    ∃ s', s.OnView view' key P (i.decode answer.1.toCmdReply >>= result) s' ∧ Holds encK encV answer.2 s' := by
  subst hanswer
  have hfind := hview.find (h.datum key)
  unfold ServerMap.onView
  generalize hc : view.find (m.datum (encK key)) = found at hfind ⊢
  generalize hc' : view'.find (s.datum key) = found' at hfind
  unfold TypedKeyspace.OnView
  rw [hc']
  cases hfind with
  | none => exact ⟨s, ⟨herror wrongType, rfl⟩, h⟩
  | some hR =>
    rename_i c c'
    obtain ⟨c'', hP, hR'⟩ := hf c c' hR
    exact ⟨s.put key (view'.write c''), ⟨c'', hP, rfl⟩, h.put hK key (hview.write hR')⟩

/-- A command on one type of data conforms when what it does to what it finds does. -/
theorem conforms_onView {C C' : Type} {R : C → C' → Prop} {view : DatumView ServerDatum C}
    {view' : DatumView (TypedDatum K V) C'} (hview : ViewRel encK encV R view view')
    {P : C' → Outcome (TypedValue K V) → C' → Prop}
    (hallows : ∀ outcome s', s.OnView view' key P outcome s' → s.Allows tpl call outcome s') {f : C → Reply × C}
    (hanswer : answer = m.onView view (encK key) f)
    (hf : ∀ c c', R c c' → ∃ c'', P c' (i.decode (f c).1.toCmdReply >>= result) c'' ∧ R (f c).2 c'') :
    Conforms tpl encK encV s call (i.decode answer.1.toCmdReply >>= result) answer.2 := by
  obtain ⟨s', hP, hholds⟩ := exists_onView hK h herror hview hanswer hf
  exact ⟨s', hallows _ _ hP, hholds⟩

theorem conforms_onText {P : Option Bytes → Outcome (TypedValue K V) → Option Bytes → Prop}
    (hallows : ∀ outcome s', s.OnText outcome s' key P → s.Allows tpl call outcome s')
    {f : Option Bytes → Reply × Option Bytes} (hanswer : answer = m.onText (encK key) f)
    (hf : ∀ t, P t (i.decode (f t).1.toCmdReply >>= result) (f t).2) :
    Conforms tpl encK encV s call (i.decode answer.1.toCmdReply >>= result) answer.2 :=
  conforms_onView hK h herror .text hallows hanswer fun c t ht => by
    subst ht
    exact ⟨(f c).2, hf c, rfl⟩

theorem conforms_onList {P : List V → Outcome (TypedValue K V) → List V → Prop}
    (hallows : ∀ outcome s', s.OnList outcome s' key P → s.Allows tpl call outcome s')
    {f : List Bytes → Reply × List Bytes} (hanswer : answer = m.onList (encK key) f) (next : List V → List V)
    (hf : ∀ l : List V, P l (i.decode (f (l.map encV)).1.toCmdReply >>= result) (next l))
    (hnext : ∀ l : List V, (f (l.map encV)).2 = (next l).map encV) :
    Conforms tpl encK encV s call (i.decode answer.1.toCmdReply >>= result) answer.2 :=
  conforms_onView hK h herror .list hallows hanswer fun _ l hl => ⟨next l, hl ▸ hf l, hl ▸ hnext l⟩

theorem conforms_onSet {P : Finset V → Outcome (TypedValue K V) → Finset V → Prop}
    (hallows : ∀ outcome s', s.OnSet outcome s' key P → s.Allows tpl call outcome s')
    {f : UnorderedSet Bytes → Reply × UnorderedSet Bytes} (hanswer : answer = m.onSet (encK key) f)
    (hf : ∀ c members, UnorderedMap.RepresentsSet encV c members →
      ∃ next, P members (i.decode (f c).1.toCmdReply >>= result) next ∧
        UnorderedMap.RepresentsSet encV (f c).2 next) :
    Conforms tpl encK encV s call (i.decode answer.1.toCmdReply >>= result) answer.2 :=
  conforms_onView hK h herror .set hallows hanswer hf

theorem conforms_onHash
    {P : (Finmap fun _ : K => V) → Outcome (TypedValue K V) → (Finmap fun _ : K => V) → Prop}
    (hallows : ∀ outcome s', s.OnHash outcome s' key P → s.Allows tpl call outcome s')
    {f : UnorderedMap Bytes Bytes → Reply × UnorderedMap Bytes Bytes} (hanswer : answer = m.onHash (encK key) f)
    (hf : ∀ c fields, UnorderedMap.Represents encK encV c fields →
      ∃ next, P fields (i.decode (f c).1.toCmdReply >>= result) next ∧
        UnorderedMap.Represents encK encV (f c).2 next) :
    Conforms tpl encK encV s call (i.decode answer.1.toCmdReply >>= result) answer.2 :=
  conforms_onView hK h herror .hash hallows hanswer hf

theorem conforms_onZset
    {P : (Finmap fun _ : V => Score) → Outcome (TypedValue K V) → (Finmap fun _ : V => Score) → Prop}
    (hallows : ∀ outcome s', s.OnZset outcome s' key P → s.Allows tpl call outcome s')
    {f : UnorderedMap Bytes Score → Reply × UnorderedMap Bytes Score} (hanswer : answer = m.onZset (encK key) f)
    (hf : ∀ c scores, UnorderedMap.Represents encV id c scores →
      ∃ next, P scores (i.decode (f c).1.toCmdReply >>= result) next ∧
        UnorderedMap.Represents encV id (f c).2 next) :
    Conforms tpl encK encV s call (i.decode answer.1.toCmdReply >>= result) answer.2 :=
  conforms_onView hK h herror .zset hallows hanswer hf

end Views

end Calls

/-! ### Calls on texts and lists -/

section Calls
variable [Platform] [ServerTexts] {tpl : Template K V} {encK : K → Bytes} {encV : V → Bytes}
  (hK : Encodes tpl.keySerializer encK) (hV : Encodes tpl.valueSerializer encV) {o : ListingOrder} {db : RedisDb}
  {s : TypedKeyspace K V} (h : Holds encK encV db.map s)

/-- A call on the server conforms. -/
abbrev CallConforms (tpl : Template K V) (encK : K → Bytes) (encV : V → Bytes) (o : ListingOrder) (db : RedisDb)
    (s : TypedKeyspace K V) (call : TypedCall K V) : Prop :=
  Conforms tpl encK encV s call ((call.run tpl (documentedServer o)).run db).1
    ((call.run tpl (documentedServer o)).run db).2.map

omit [ServerTexts] [DecidableEq K] [DecidableEq V] in
include hK hV in
theorem keyAndValue_ok (key : K) (value : V) :
    ValueOperations.keyAndValue tpl key value = .ok (encK key, encV value) :=
  bothArguments_eq_ok.mpr ⟨hK.serialize key, hV.serialize value⟩

omit [Platform] [ServerTexts] [DecidableEq K] [DecidableEq V] in
include hK in
theorem thenKey_ok {α : Type} {args : Outcome α} {a : α} (hargs : args = .ok a) (key : K) :
    TypedCall.thenKey tpl args key = .ok (a, encK key) := by
  have hkey : tpl.serializeKey key = .ok (encK key) := hK.serialize key
  rw [TypedCall.thenKey, hargs, Except.ok_bind, hkey]
  rfl

include h in
/-- A call that needs no command conforms when the keyspace allows its answer. -/
theorem conforms_of_answer {call : TypedCall K V} {op : Operation} {result : Value → Outcome (TypedValue K V)}
    {value : Value} (hplan : call.plan tpl = .call op result) (hanswer : op.plan = .answer value)
    (hallows : s.Allows tpl call (result value) s) : CallConforms tpl encK encV o db s call := by
  unfold CallConforms
  rw [run_of_call _ _ hplan, Operation.run_eq_plan, hanswer]
  exact ⟨s, hallows, h⟩

section Keys
include hK h

theorem exists_conforms (key : K) : CallConforms tpl encK encV o db s (.exists key) := by
  refine conforms_call (TypedPlan.ofRequest_ok (hK.serialize key) _ _) rfl rfl id ⟨s, ⟨?_, rfl⟩, h⟩
  exact (read_flag _ "EXISTS").trans (by rw [h.isSome_live])

theorem type_conforms (key : K) : CallConforms tpl encK encV o db s (.type key) := by
  refine conforms_call (TypedPlan.ofRequest_ok (hK.serialize key) _ _) rfl rfl id ⟨s, ⟨?_, rfl⟩, h⟩
  have hname : (db.map.datum (encK key)).map Datum.typeName = (s.datum key).map Datum.typeName := by
    have hdatum := h.datum key
    generalize db.map.datum (encK key) = d at hdatum ⊢
    generalize s.datum key = d' at hdatum ⊢
    cases hdatum with
    | none => rfl
    | some hrel => cases hrel <;> rfl
  show Except.ok (TypedValue.text (((db.map.datum (encK key)).map Datum.typeName).getD "none")) = _
  rw [hname]

/-- EXPIRE and PEXPIRE. -/
theorem expires_of_related (call : TypedCall K V) (command word : Bytes) (unit time : Int) (key : K)
    (hallows : ∀ outcome s', s.Expires outcome s' key command unit time → s.Allows tpl call outcome s') :
    Conforms tpl encK encV s call
      ((Interpretation.flag word).decode (db.map.expire command unit (encK key) time).1.toCmdReply >>= Value.plain)
      (db.map.expire command unit (encK key) time).2 := by
  unfold ServerMap.expire
  rw [h.now]
  cases hdelay : Expiry.delay unit time s.now with
  | none =>
    refine ⟨s, hallows _ _ ?_, h⟩
    unfold TypedKeyspace.Expires
    rw [hdelay]
    exact ⟨rfl, rfl⟩
  | some milliseconds =>
    obtain ⟨hflag, hnext⟩ := h.expire hK.injective key milliseconds
    refine ⟨_, hallows _ _ ?_, hnext⟩
    unfold TypedKeyspace.Expires
    rw [hdelay]
    exact ⟨(read_flag _ word).trans (by rw [hflag]), rfl⟩

theorem expire_conforms (key : K) (seconds : Int) : CallConforms tpl encK encV o db s (.expire key seconds) := by
  refine conforms_call (TypedPlan.ofRequest_ok (hK.serialize key) _ _) rfl rfl id ?_
  exact expires_of_related hK h _ _ _ _ _ key fun _ _ ha => ha

theorem pexpire_conforms (key : K) (milliseconds : Int) :
    CallConforms tpl encK encV o db s (.pexpire key milliseconds) := by
  refine conforms_call (TypedPlan.ofRequest_ok (hK.serialize key) _ _) rfl rfl id ?_
  exact expires_of_related hK h _ _ _ _ _ key fun _ _ ha => ha

theorem ttl_conforms (key : K) : CallConforms tpl encK encV o db s (.ttl key) := by
  refine conforms_call (TypedPlan.ofRequest_ok (hK.serialize key) _ _) rfl rfl id ⟨s, ⟨?_, rfl⟩, h⟩
  exact (read_signed _ "TTL").trans (by rw [h.timeLeft])

theorem pttl_conforms (key : K) : CallConforms tpl encK encV o db s (.pttl key) := by
  refine conforms_call (TypedPlan.ofRequest_ok (hK.serialize key) _ _) rfl rfl id ⟨s, ⟨?_, rfl⟩, h⟩
  exact (read_signed _ "PTTL").trans (by rw [h.timeLeft])

theorem persist_conforms (key : K) : CallConforms tpl encK encV o db s (.persist key) := by
  obtain ⟨hflag, hnext⟩ := h.persist hK.injective key
  refine conforms_call (TypedPlan.ofRequest_ok (hK.serialize key) _ _) rfl rfl id ⟨_, ⟨?_, rfl⟩, hnext⟩
  exact (read_flag _ "PERSIST").trans (by rw [hflag])

theorem del_conforms (key : K) : CallConforms tpl encK encV o db s (.del key) := by
  obtain ⟨hcount, hnext⟩ := h.eraseAll hK.injective [key]
  refine conforms_call (TypedPlan.ofRequest_ok (hK.serialize key) _ _) rfl rfl id ⟨_, ⟨?_, rfl⟩, hnext⟩
  exact (read_signed _ "DEL").trans (by rw [← hcount]; rfl)

theorem delMany_conforms (keys : List K) : CallConforms tpl encK encV o db s (.delMany keys) := by
  have hplan := TypedPlan.ofRequest_ok (hK.mapM_serialize keys) .delMany (Value.plain (K := K) (V := V))
  cases keys with
  | nil =>
    refine conforms_of_answer h hplan rfl ⟨?_, rfl⟩
    exact congrArg (fun n => Except.ok (TypedValue.integer n)) asLongLong_zero.symm
  | cons key keys =>
    obtain ⟨hcount, hnext⟩ := h.eraseAll hK.injective (key :: keys)
    refine conforms_call hplan rfl rfl id ⟨_, ⟨?_, rfl⟩, hnext⟩
    exact (read_signed _ "DEL").trans (by rw [← hcount])

end Keys

include h in
theorem ping_conforms : CallConforms tpl encK encV o db s .ping :=
  conforms_call (o := o) rfl rfl rfl id ⟨s, ⟨rfl, rfl⟩, h⟩

include h in
theorem pingMessage_conforms (message : Bytes) : CallConforms tpl encK encV o db s (.pingMessage message) :=
  conforms_call (o := o) rfl rfl rfl id ⟨s, ⟨rfl, rfl⟩, h⟩

/-! ### Texts -/

section Texts
include hK h

theorem get_conforms (key : K) : CallConforms tpl encK encV o db s (.get key) := by
  refine conforms_call (TypedPlan.ofRequest_ok (hK.serialize key) _ _) rfl rfl id ?_
  exact conforms_onText hK.injective h (fun _ => rfl) (fun _ _ ha => ha) rfl fun t => ⟨read_ofOptional tpl t "GET", rfl⟩

/-- INCRBY and DECRBY. -/
theorem counts_of_related (call : TypedCall K V) (word : Bytes) (key : K) (change : Option Bytes → Except Bytes Int)
    (hchange : ∀ t n, change t = .ok n → IsLongLong n)
    (hallows : ∀ outcome s', s.Counts outcome s' key change → s.Allows tpl call outcome s') :
    Conforms tpl encK encV s call
      ((Interpretation.integer word).decode (db.map.onText (encK key) (ServerMap.counter change)).1.toCmdReply >>=
        Value.plain) (db.map.onText (encK key) (ServerMap.counter change)).2 := by
  refine conforms_onText hK.injective h (fun _ => rfl) hallows rfl fun t => ?_
  unfold ServerMap.counter
  cases hn : change t with
  | error message => exact ⟨rfl, rfl⟩
  | ok n =>
    refine ⟨(read_signed n word).trans ?_, rfl⟩
    rw [asLongLong_of_isLongLong (hchange t n hn)]

omit [Platform] [ServerTexts] hK h [DecidableEq K] [DecidableEq V] in
theorem isLongLong_of_increment {t : Option Bytes} {delta n : Int} (hn : Counter.increment t delta = .ok n) :
    IsLongLong n := by
  unfold Counter.increment at hn
  split at hn
  · cases hn
  · split at hn
    · next hrange =>
      cases hn
      exact hrange
    · cases hn

omit [Platform] [ServerTexts] hK h [DecidableEq K] [DecidableEq V] in
theorem isLongLong_of_decrement {t : Option Bytes} {delta n : Int} (hn : Counter.decrement t delta = .ok n) :
    IsLongLong n := by
  unfold Counter.decrement at hn
  split at hn
  · cases hn
  · exact isLongLong_of_increment hn

theorem incr_conforms (key : K) (delta : Int) : CallConforms tpl encK encV o db s (.incr key delta) := by
  refine conforms_call (TypedPlan.ofRequest_ok (hK.serialize key) _ _) rfl rfl id ?_
  exact counts_of_related hK h _ _ key _ (fun _ _ => isLongLong_of_increment) fun _ _ ha => ha

theorem decr_conforms (key : K) (delta : Int) : CallConforms tpl encK encV o db s (.decr key delta) := by
  refine conforms_call (TypedPlan.ofRequest_ok (hK.serialize key) _ _) rfl rfl id ?_
  exact counts_of_related hK h _ _ key _ (fun _ _ => isLongLong_of_decrement) fun _ _ ha => ha

include hV

theorem set_conforms (key : K) (value : V) : CallConforms tpl encK encV o db s (.set key value) := by
  have hnext := h.store hK.injective key (DatumRel.text (encV value)) none
  exact conforms_call (TypedPlan.ofRequest_ok (keyAndValue_ok hK hV key value) _ _) rfl rfl id
    ⟨_, ⟨encV value, hV.serialize value, rfl, rfl⟩, hnext⟩

theorem append_conforms (key : K) (value : V) : CallConforms tpl encK encV o db s (.append key value) := by
  refine conforms_call (TypedPlan.ofRequest_ok (keyAndValue_ok hK hV key value) _ _) rfl rfl id ?_
  exact conforms_onText hK.injective h (fun _ => rfl) (fun _ _ ha => ha) rfl fun t =>
    ⟨encV value, hV.serialize value, rfl, read_signed _ "APPEND"⟩

theorem getAndSet_conforms (key : K) (value : V) : CallConforms tpl encK encV o db s (.getAndSet key value) := by
  refine conforms_call (TypedPlan.ofRequest_ok (keyAndValue_ok hK hV key value) _ _) rfl rfl id ?_
  have hfind := ViewRel.text.find (h.datum key)
  have hnext := h.store hK.injective key (DatumRel.text (encV value)) none
  unfold ServerMap.command Conforms TypedKeyspace.Allows
  dsimp only
  generalize textView.find (db.map.datum (encK key)) = found at hfind ⊢
  generalize textView.find (s.datum key) = found' at hfind ⊢
  cases hfind with
  | none => exact ⟨s, ⟨rfl, rfl⟩, h⟩
  | some ht =>
    subst ht
    exact ⟨_, ⟨encV value, hV.serialize value, read_ofOptional tpl _ "GETSET", rfl⟩, hnext⟩

end Texts

/-! ### Lists -/

section Lists
include hK hV h

theorem lpush_conforms (key : K) (value : V) : CallConforms tpl encK encV o db s (.lpush key value) := by
  refine conforms_call (TypedPlan.ofRequest_ok (keyAndValue_ok hK hV key value) _ _) rfl rfl id ?_
  exact conforms_onList hK.injective h (fun _ => rfl) (fun _ _ ha => ha) rfl (value :: ·)
    (fun l => ⟨rfl, (read_signed _ "LPUSH").trans (by simp)⟩) fun l => rfl

theorem rpush_conforms (key : K) (value : V) : CallConforms tpl encK encV o db s (.rpush key value) := by
  refine conforms_call (TypedPlan.ofRequest_ok (keyAndValue_ok hK hV key value) _ _) rfl rfl id ?_
  exact conforms_onList hK.injective h (fun _ => rfl) (fun _ _ ha => ha) rfl (· ++ [value])
    (fun l => ⟨rfl, (read_signed _ "RPUSH").trans (by simp)⟩) fun l => by simp

/-- A call that pushes nothing asks for the length. -/
theorem lpushMany_conforms (key : K) (values : List V) :
    CallConforms tpl encK encV o db s (.lpushMany key values) := by
  have hplan := TypedPlan.ofRequest_ok (thenKey_ok hK (hV.mapM_serialize values) key)
    (fun p => .lpushMany p.2 p.1) (Value.plain (K := K) (V := V))
  cases values with
  | nil =>
    refine conforms_call hplan rfl rfl id ?_
    exact conforms_onList hK.injective h (fun _ => rfl) (fun _ _ ha => ha) rfl id
      (fun l => ⟨rfl, (read_signed _ "LLEN").trans (by simp)⟩) fun l => rfl
  | cons value values =>
    refine conforms_call hplan rfl rfl id ?_
    exact conforms_onList hK.injective h (fun _ => rfl) (fun _ _ ha => ha) rfl ((value :: values).reverse ++ ·)
      (fun l => ⟨rfl, (read_signed _ "LPUSH").trans (by simp)⟩) fun l => by simp

theorem rpushMany_conforms (key : K) (values : List V) :
    CallConforms tpl encK encV o db s (.rpushMany key values) := by
  have hplan := TypedPlan.ofRequest_ok (thenKey_ok hK (hV.mapM_serialize values) key)
    (fun p => .rpushMany p.2 p.1) (Value.plain (K := K) (V := V))
  cases values with
  | nil =>
    refine conforms_call hplan rfl rfl id ?_
    exact conforms_onList hK.injective h (fun _ => rfl) (fun _ _ ha => ha) rfl id
      (fun l => ⟨(List.append_nil l).symm, (read_signed _ "LLEN").trans (by simp)⟩) fun l => rfl
  | cons value values =>
    refine conforms_call hplan rfl rfl id ?_
    exact conforms_onList hK.injective h (fun _ => rfl) (fun _ _ ha => ha) rfl (· ++ (value :: values))
      (fun l => ⟨rfl, (read_signed _ "RPUSH").trans (by simp)⟩) fun l => by simp

theorem lpop_conforms (key : K) : CallConforms tpl encK encV o db s (.lpop key) := by
  refine conforms_call (TypedPlan.ofRequest_ok (hK.serialize key) _ _) rfl rfl id ?_
  refine conforms_onList hK.injective h (fun _ => rfl) (fun _ _ ha => ha) rfl List.tail
    (fun l => ⟨?_, rfl⟩) fun l => List.map_tail.symm
  dsimp only
  rw [List.head?_map]
  exact read_value hV l.head? "LPOP"

theorem rpop_conforms (key : K) : CallConforms tpl encK encV o db s (.rpop key) := by
  refine conforms_call (TypedPlan.ofRequest_ok (hK.serialize key) _ _) rfl rfl id ?_
  refine conforms_onList hK.injective h (fun _ => rfl) (fun _ _ ha => ha) rfl List.dropLast
    (fun l => ⟨?_, rfl⟩) fun l => List.map_dropLast.symm
  dsimp only
  rw [List.getLast?_map]
  exact read_value hV l.getLast? "RPOP"

/-- LPOP and RPOP with a count: nil for a list that is not there is no values. -/
theorem popsMany_of_related (call : TypedCall K V) (word : Bytes) (key : K) (count : Int)
    (pop : Nat → List Bytes → List Bytes × List Bytes) (pop' : Nat → List V → List V × List V)
    (hpop : ∀ n l, pop n (l.map encV) = ((pop' n l).1.map encV, (pop' n l).2.map encV))
    (hnil : ∀ n, (pop' n []).1 = [])
    (hallows : ∀ outcome s', s.PopsMany outcome s' key count pop' → s.Allows tpl call outcome s') :
    Conforms tpl encK encV s call
      ((Interpretation.texts word).decode (db.map.popMany (encK key) count pop).1.toCmdReply >>=
        Value.typedValues tpl) (db.map.popMany (encK key) count pop).2 := by
  by_cases hcount : count < 0
  · refine ⟨s, hallows _ _ ?_, ?_⟩
    · unfold ServerMap.popMany TypedKeyspace.PopsMany
      rw [if_pos hcount, if_pos hcount]
      exact ⟨rfl, rfl⟩
    · unfold ServerMap.popMany
      rw [if_pos hcount]
      exact h
  · have hanswer : db.map.popMany (encK key) count pop = _ := if_neg hcount
    have hallows' : ∀ outcome s', (s.OnList outcome s' key fun l out l' =>
        out = .ok (.values (pop' count.toNat l).1) ∧ l' = (pop' count.toNat l).2) → s.Allows tpl call outcome s' := by
      intro outcome s' ha
      refine hallows outcome s' ?_
      unfold TypedKeyspace.PopsMany
      rwa [if_neg hcount]
    refine conforms_onList hK.injective h (fun _ => rfl) hallows' hanswer (fun l => (pop' count.toNat l).2)
      (fun l => ⟨?_, rfl⟩) fun l => by rw [hpop]
    cases l with
    | nil =>
      rw [hnil]
      rfl
    | cons value l =>
      rw [if_neg (by simp), hpop]
      exact read_values hV _ word

theorem lpopCount_conforms (key : K) (count : Int) : CallConforms tpl encK encV o db s (.lpopCount key count) := by
  refine conforms_call (TypedPlan.ofRequest_ok (hK.serialize key) _ _) rfl rfl id ?_
  exact popsMany_of_related hK hV h _ _ key count _ (fun n l => (l.take n, l.drop n)) (fun n l => by simp)
    (fun n => by simp) fun _ _ ha => ha

theorem rpopCount_conforms (key : K) (count : Int) : CallConforms tpl encK encV o db s (.rpopCount key count) := by
  refine conforms_call (TypedPlan.ofRequest_ok (hK.serialize key) _ _) rfl rfl id ?_
  exact popsMany_of_related hK hV h _ _ key count _ (fun n l => (l.reverse.take n, (l.reverse.drop n).reverse))
    (fun n l => by simp only [← List.map_reverse, ← List.map_take, ← List.map_drop]) (fun n => by simp)
    fun _ _ ha => ha

theorem lrange_conforms (key : K) (start stop : Int) :
    CallConforms tpl encK encV o db s (.lrange key start stop) := by
  refine conforms_call (TypedPlan.ofRequest_ok (hK.serialize key) _ _) rfl rfl id ?_
  refine conforms_onList hK.injective h (fun _ => rfl) (fun _ _ ha => ha) rfl id (fun l => ⟨?_, rfl⟩) fun l => rfl
  dsimp only
  rw [ListDatum.range_map]
  exact read_values hV _ "LRANGE"

theorem lindex_conforms (key : K) (index : Int) : CallConforms tpl encK encV o db s (.lindex key index) := by
  refine conforms_call (TypedPlan.ofRequest_ok (hK.serialize key) _ _) rfl rfl id ?_
  refine conforms_onList hK.injective h (fun _ => rfl) (fun _ _ ha => ha) rfl id (fun l => ⟨?_, rfl⟩) fun l => rfl
  have hat : ListDatum.at? (l.map encV) index = (ListDatum.at? l index).map encV := by
    unfold ListDatum.at?
    rw [List.length_map]
    dsimp only
    rw [apply_ite (Option.map encV), Option.map_none, List.getElem?_map]
  dsimp only
  rw [hat]
  exact read_value hV _ "LINDEX"

omit hV in
theorem llen_conforms (key : K) : CallConforms tpl encK encV o db s (.llen key) := by
  refine conforms_call (TypedPlan.ofRequest_ok (hK.serialize key) _ _) rfl rfl id ?_
  exact conforms_onList hK.injective h (fun _ => rfl) (fun _ _ ha => ha) rfl id
    (fun l => ⟨(read_signed _ "LLEN").trans (by simp), rfl⟩) fun l => rfl

end Lists

end Calls

end Redisdal
