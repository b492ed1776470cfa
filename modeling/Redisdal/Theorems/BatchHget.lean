import Redisdal.Theorems.Decoding
import Redisdal.Theorems.HashStore
import Redisdal.Theorems.OutParameters

/-! # The batch `hget` against a hash

The values of an HMGET reply come back in the order of the request, which is the order in which a loop visits an
unordered map. Whatever that order is, every field of the caller's map gets its own value. -/

namespace Redisdal

/-- A server whose HMGET lists, position by position, what a hash holds under the fields of the request. -/
structure HmgetServer (σ : Type) where
  executor : Executor σ
  hash : σ → Bytes → UnorderedMap Bytes Bytes
  hmget : ∀ (s : σ) (key : Bytes) (fields : List Bytes), fields ≠ [] →
    ∃ t, (executor ("HMGET" :: key :: fields)).run s =
      (.ok (.array (fields.map fun field => Reply.ofOptional (AList.lookup field (hash s key)))), t)

/-- The server of hashes with HMGET. -/
def hmgetServer : HmgetServer HashDb where
  executor argv := ⟨fun db => match argv with
    | command :: key :: fields =>
      if command = "HMGET" then
        (.ok (.array (fields.map fun field => Reply.ofOptional (AList.lookup field (db.hashes key)))), db)
      else (.ok (.error "ERR unknown command"), db)
    | _ => (.ok (.error "ERR wrong number of arguments"), db)⟩
  hash db := db.hashes
  hmget db _ _ _ := ⟨db, rfl⟩

variable [Platform] {K V σ : Type} [DecidableEq K] {tpl : Template K V} {enc : K → Bytes}

section Request
variable (hK : Encodes tpl.keySerializer enc) {before : UnorderedMap K (Option V)}
include hK

omit [DecidableEq K] in
theorem serializedFields_eq : serializedFields tpl before = .ok ((visit before).map fun pair => enc pair.1) :=
  Except.mapM_eq_map fun pair _ => hK.serialize pair.1

omit [Platform] in
theorem decodeField_enc {k : K} (hk : k ∈ before) {text : Option Bytes} {value : Option V}
    (hvalue : text.mapM tpl.deserializeValue = .ok value) :
    decodeField tpl before (enc k, text) = .ok (some (k, value)) := by
  have hfield : tpl.deserializeKey (enc k) = .ok k := hK.deserialize k
  unfold decodeField
  rw [hfield, Except.ok_bind, if_pos hk, hvalue]
  rfl

end Request

omit [DecidableEq K] in
theorem mem_requestedFields {before : UnorderedMap K (Option V)} {field : Bytes} :
    field ∈ hmgetFields (fieldMap ((visit before).map fun pair => enc pair.1)) ↔ ∃ k ∈ before, enc k = field := by
  have hkeys {k : K} : k ∈ before ↔ ∃ pair ∈ visit before, pair.1 = k := by
    rw [AList.mem_keys, ← UnorderedMap.map_fst_pairs, ← ((visit_perm before).map Prod.fst).mem_iff, List.mem_map]
  rw [mem_hmgetFields, fieldMap, UnorderedMap.mem_emplaceAll, List.map_map, List.map_map, List.mem_map]
  constructor
  · intro h
    rcases h with h | ⟨pair, hpair, rfl⟩
    · exact absurd h (AList.notMem_empty field)
    · exact ⟨pair.1, hkeys.mpr ⟨pair, hpair, rfl⟩, rfl⟩
  · intro hex
    obtain ⟨k, hk, rfl⟩ := hex
    obtain ⟨pair, hpair, rfl⟩ := hkeys.mp hk
    exact Or.inr ⟨pair, hpair, rfl⟩

/-- What the server answers to a request for these fields. -/
def storedValues (fields : List Bytes) (hash : UnorderedMap Bytes Bytes) : List (Option Bytes) :=
  fields.map fun field => AList.lookup field hash

omit [Platform] in
theorem hmgetReply_storedValues (fields : List Bytes) (hash : UnorderedMap Bytes Bytes) :
    Client.hmgetReply fields.length
      (Reply.array (fields.map fun field => Reply.ofOptional (AList.lookup field hash))).toCmdReply =
        .ok (storedValues fields hash) := by
  refine Reply.hmgetReply_eq_ok_iff.mpr ⟨?_, List.length_map ..⟩
  rw [storedValues, List.map_map]
  rfl

theorem mem_answers_storedValues {fields : List Bytes} {hash : UnorderedMap Bytes Bytes} {p : Bytes × Option Bytes} :
    p ∈ answers fields (storedValues (hmgetFields (fieldMap fields)) hash) ↔
      p.1 ∈ hmgetFields (fieldMap fields) ∧ p.2 = AList.lookup p.1 hash := by
  obtain ⟨field, text⟩ := p
  have hanswers : answers fields (storedValues (hmgetFields (fieldMap fields)) hash) =
      (hmgetFields (fieldMap fields)).map fun field => (field, AList.lookup field hash) := by
    rw [answers, storedValues, List.map_prod_left_eq_zip]
  rw [hanswers, List.mem_map]
  constructor
  · intro hex
    obtain ⟨_, hfield, h⟩ := hex
    cases h
    exact ⟨hfield, rfl⟩
  · intro hand
    obtain ⟨hfield, htext⟩ := hand
    exact ⟨field, hfield, congrArg (Prod.mk field) htext.symm⟩

omit [Platform] [DecidableEq K] in
/-- The values that the caller asks for deserialize, as those of the hash do. -/
theorem exists_storedValue {hash : UnorderedMap Bytes Bytes}
    (hvalues : ∀ field text, AList.lookup field hash = some text → ∃ v, tpl.deserializeValue text = .ok v)
    (field : Bytes) : ∃ value, (AList.lookup field hash).mapM tpl.deserializeValue = .ok value := by
  cases hlookup : AList.lookup field hash with
  | none => exact ⟨none, rfl⟩
  | some text =>
    obtain ⟨v, hv⟩ := hvalues field text hlookup
    refine ⟨some v, ?_⟩
    rw [Option.mapM_some, hv]
    rfl

/-- Each answer is decoded to a key of the caller's map and the value that the hash has for it. -/
theorem exists_decodeField (hK : Encodes tpl.keySerializer enc) {before : UnorderedMap K (Option V)}
    {hash : UnorderedMap Bytes Bytes} {fields : List Bytes}
    (hfields : (visit before).map (fun pair => enc pair.1) = fields)
    (hvalues : ∀ field text, AList.lookup field hash = some text → ∃ v, tpl.deserializeValue text = .ok v)
    {p : Bytes × Option Bytes} (hp : p ∈ answers fields (storedValues (hmgetFields (fieldMap fields)) hash)) :
    ∃ k ∈ before, enc k = p.1 ∧ ∃ value, decodeField tpl before p = .ok (some (k, value)) ∧
      (AList.lookup (enc k) hash).mapM tpl.deserializeValue = .ok value := by
  obtain ⟨field, text⟩ := p
  obtain ⟨hfield, htext⟩ := mem_answers_storedValues.mp hp
  rw [← hfields] at hfield
  obtain ⟨k, hk, rfl⟩ := mem_requestedFields.mp hfield
  obtain ⟨value, hvalue⟩ := exists_storedValue hvalues (enc k)
  exact ⟨k, hk, rfl, value, decodeField_enc hK hk ((congrArg _ htext).trans hvalue), hvalue⟩

omit [DecidableEq K] in
theorem hmgetFields_ne_nil {before : UnorderedMap K (Option V)} {fields : List Bytes} (hm : before.entries ≠ [])
    (hfields : serializedFields tpl before = .ok fields) : hmgetFields (fieldMap fields) ≠ [] := by
  intro hnil
  have hlen := length_hmgetFields (fieldMap fields)
  have hentries := fieldMap_nonempty tpl hm hfields
  rw [hnil] at hlen
  rw [List.length_eq_zero_iff.mp hlen.symm] at hentries
  cases hentries

/-- After the call the map has the keys that it had, and each the deserialized value that the server's hash has
    under the serialized key, or no value where the hash has no such field. -/
theorem hget_pairs_fields (hK : tpl.keySerializer.Lawful) (server : HmgetServer σ) (key : K)
    (before : UnorderedMap K (Option V)) (s : σ) {sKey : Bytes} (hkey : tpl.serializeKey key = .ok sKey)
    (hvalues : ∀ field text, AList.lookup field (server.hash s sKey) = some text →
      ∃ v, tpl.deserializeValue text = .ok v) :
    ∃ after t, (HashOperations.hgetMany tpl server.executor key).run (before, s) = (.ok (), (after, t)) ∧
      (∀ k, k ∈ after ↔ k ∈ before) ∧
      ∀ k ∈ before, ∃ field value, tpl.serializeKey k = .ok field ∧ AList.lookup k after = some value ∧
        (AList.lookup field (server.hash s sKey)).mapM tpl.deserializeValue = .ok value := by
  obtain ⟨enc, hK⟩ := hK.exists_encodes
  by_cases hm : before.entries = []
  · refine ⟨before, s, run_hgetMany_of_empty tpl server.executor key s hm, fun k => Iff.rfl, ?_⟩
    intro k hk
    rw [AList.mem_keys, AList.keys, hm] at hk
    cases hk
  have hfields : serializedFields tpl before = .ok ((visit before).map fun pair => enc pair.1) := serializedFields_eq hK
  generalize hencoded : (visit before).map (fun pair => enc pair.1) = fields at hfields
  obtain ⟨t, hrun⟩ := server.hmget s sKey (hmgetFields (fieldMap fields)) (hmgetFields_ne_nil hm hfields)
  have hr := hmgetReply_storedValues (hmgetFields (fieldMap fields)) (server.hash s sKey)
  have hnone : (decodedFields tpl before
      (answerMap fields (storedValues (hmgetFields (fieldMap fields)) (server.hash s sKey)))).2 = none := by
    unfold decodedFields
    refine Program.decodePrefix_eq_none ?_
    intro p hp
    have hanswer := (mem_answerMap (length_hmgetReply hr) p).mp hp
    obtain ⟨k, -, -, value, hvalue, -⟩ := exists_decodeField hK hencoded hvalues hanswer
    exact ⟨_, hvalue⟩
  have hfinal := run_hgetMany tpl server.executor hm hfields hkey hrun hr
  rw [hnone] at hfinal
  rcases hgetComplete_of_none tpl server.executor hfields hkey hrun hr hnone with
    ⟨hempty, -⟩ | ⟨fields', sKey', reply', t', values', hfields', hkey', hrun', hr', -, hkeys, hstored⟩
  · exact absurd hempty hm
  cases hfields.symm.trans hfields'
  cases hkey.symm.trans hkey'
  cases hrun.symm.trans hrun'
  cases hr.symm.trans hr'
  refine ⟨_, t, hfinal, hkeys, ?_⟩
  intro k hk
  have hrequested : enc k ∈ hmgetFields (fieldMap fields) := by
    rw [← hencoded]
    exact mem_requestedFields.mpr ⟨k, hk, rfl⟩
  have hanswer : (enc k, AList.lookup (enc k) (server.hash s sKey)) ∈
      answers fields (storedValues (hmgetFields (fieldMap fields)) (server.hash s sKey)) :=
    mem_answers_storedValues.mpr ⟨hrequested, rfl⟩
  rcases hstored k with ⟨p, hp, value, hvalue, hlookup⟩ | ⟨hnot, -⟩
  · obtain ⟨k', hk', -, value', hvalue', hread'⟩ := exists_decodeField hK hencoded hvalues hp
    cases hvalue.symm.trans hvalue'
    exact ⟨enc k, value, hK.serialize k, hlookup, hread'⟩
  · obtain ⟨k', hk', henc, value, hvalue, -⟩ := exists_decodeField hK hencoded hvalues hanswer
    cases hK.injective henc
    exact absurd hvalue (hnot _ hanswer value)

omit [Platform] in
theorem hget_pairs_fields_string :
    let db : HashDb := ⟨fun _ => UnorderedMap.insertAll ∅ [("a", "1"), ("c", "3")], 0⟩
    let before : UnorderedMap Bytes (Option Bytes) := UnorderedMap.insertAll ∅ [("a", some "0"), ("b", some "2")]
    ∃ after t, (@HashOperations.hgetMany _ _ _ stringTemplate hmgetServer.executor referencePlatform _ "h").run
        (before, db) = (.ok (), (after, t)) ∧ (∀ k, k ∈ after ↔ k ∈ before) ∧
      ∀ k ∈ before, ∃ field value, stringTemplate.serializeKey k = .ok field ∧ AList.lookup k after = some value ∧
        (AList.lookup field (hmgetServer.hash db "h")).mapM stringTemplate.deserializeValue = .ok value :=
  let db : HashDb := ⟨fun _ => UnorderedMap.insertAll ∅ [("a", "1"), ("c", "3")], 0⟩
  @hget_pairs_fields referencePlatform _ _ _ _ stringTemplate stringSerializer_lawful hmgetServer "h" _ db "h" rfl
    fun _ text _ => ⟨text, rfl⟩

end Redisdal
