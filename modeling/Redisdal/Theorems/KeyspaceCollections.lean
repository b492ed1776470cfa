import Redisdal.Theorems.KeyspaceCalls

/-! # Calls on sets and hashes of the typed keyspace

Their order is the server's, or that of an unordered container of the platform; what the keyspace says of them does
not depend on it. -/

namespace Redisdal

section Collections
variable [Platform] [ServerTexts] {K V : Type} [DecidableEq K] [DecidableEq V] {tpl : Template K V} {encK : K → Bytes}
  {encV : V → Bytes} (hK : Encodes tpl.keySerializer encK) (hV : Encodes tpl.valueSerializer encV) {o : ListingOrder}
  {db : RedisDb} {s : TypedKeyspace K V} (h : Holds encK encV db.map s)

/-! ### Sets -/

section Sets
include hK hV h

theorem sadd_conforms (key : K) (members : List V) : CallConforms tpl encK encV o db s (.sadd key members) := by
  have hplan := TypedPlan.ofRequest_ok (thenKey_ok hK (hV.mapM_serialize members) key)
    (fun p => .sadd p.2 p.1) (Value.plain (K := K) (V := V))
  by_cases hmembers : members = []
  · subst hmembers
    refine conforms_of_answer h hplan rfl ?_
    unfold TypedKeyspace.Allows
    exact (if_pos rfl).mpr ⟨rfl, rfl⟩
  · refine conforms_call hplan (if_neg (by simpa using hmembers)) rfl id ?_
    refine conforms_onSet hK.injective h (fun _ => rfl) (fun _ _ ha => cast (if_neg hmembers).symm ha) rfl
      fun c set hset => ⟨set ∪ members.toFinset, ⟨?_, rfl⟩, hset.insertAll members⟩
    have hnew (v : V) : encV v ∉ c ↔ v ∉ set := (hset.mem_iff hV.injective v).not
    have hcount := UnorderedMap.RepresentsSet.card_filter_image hV.injective (p := (· ∉ c)) (q := (· ∉ set))
      hnew members
    refine (read_signed _ "SADD").trans ?_
    rw [hcount, Finset.filter_notMem_eq_sdiff]

theorem srem_conforms (key : K) (members : List V) : CallConforms tpl encK encV o db s (.srem key members) := by
  have hplan := TypedPlan.ofRequest_ok (thenKey_ok hK (hV.mapM_serialize members) key)
    (fun p => .srem p.2 p.1) (Value.plain (K := K) (V := V))
  by_cases hmembers : members = []
  · subst hmembers
    refine conforms_of_answer h hplan rfl ?_
    unfold TypedKeyspace.Allows
    exact (if_pos rfl).mpr ⟨rfl, rfl⟩
  · refine conforms_call hplan (if_neg (by simpa using hmembers)) rfl id ?_
    refine conforms_onSet hK.injective h (fun _ => rfl) (fun _ _ ha => cast (if_neg hmembers).symm ha) rfl
      fun c set hset => ?_
    obtain ⟨herased, hcount⟩ := hset.eraseAll hV.injective members
    exact ⟨set \ members.toFinset, ⟨(read_signed _ "SREM").trans (by rw [hcount]), rfl⟩, herased⟩

theorem smembers_conforms (key : K) : CallConforms tpl encK encV o db s (.smembers key) := by
  refine conforms_call (TypedPlan.ofRequest_ok (hK.serialize key) _ _) rfl rfl id ?_
  refine conforms_onSet hK.injective h (fun _ => rfl) (fun _ _ ha => ha) rfl fun c set hset => ?_
  obtain ⟨l, hl, hnodup, hset'⟩ := hset.exists_members hV.injective (o.perm db.clock c.keys)
  refine ⟨set, ⟨l, ?_, hnodup, hset', rfl⟩, hset⟩
  dsimp only
  rw [← hl]
  exact read_values hV l "SMEMBERS"

theorem scard_conforms (key : K) : CallConforms tpl encK encV o db s (.scard key) := by
  refine conforms_call (TypedPlan.ofRequest_ok (hK.serialize key) _ _) rfl rfl id ?_
  refine conforms_onSet hK.injective h (fun _ => rfl) (fun _ _ ha => ha) rfl fun c set hset => ⟨set, ⟨?_, rfl⟩, hset⟩
  exact (read_signed _ "SCARD").trans (by rw [hset.length_keys hV.injective])

theorem sismember_conforms (key : K) (member : V) :
    CallConforms tpl encK encV o db s (.sismember key member) := by
  refine conforms_call (TypedPlan.ofRequest_ok (keyAndValue_ok hK hV key member) _ _) rfl rfl id ?_
  refine conforms_onSet hK.injective h (fun _ => rfl) (fun _ _ ha => ha) rfl fun c set hset => ⟨set, ⟨?_, rfl⟩, hset⟩
  have hmem := hset.mem_iff hV.injective member
  have hflag := read_flag (K := K) (V := V) (decide (member ∈ set)) "SISMEMBER"
  simp only [decide_eq_true_eq] at hflag
  simp only [hmem]
  exact hflag

theorem spop_conforms (key : K) : CallConforms tpl encK encV o db s (.spop key) := by
  refine conforms_call (TypedPlan.ofRequest_ok (hK.serialize key) _ _) rfl rfl id ?_
  refine conforms_onSet hK.injective h (fun _ => rfl) (fun _ _ ha => ha) rfl fun c set hset => ?_
  obtain ⟨l, hl, -, rfl⟩ := hset.exists_members hV.injective (o.perm db.clock c.keys)
  dsimp only
  rw [← hl, List.head?_map]
  cases l with
  | nil => exact ⟨∅, Or.inl ⟨rfl, rfl, rfl⟩, hset⟩
  | cons v l =>
    have herased := (hset.eraseAll hV.injective [v]).1
    rw [List.toFinset_cons (l := []), List.toFinset_nil, insert_empty_eq, Finset.sdiff_singleton_eq_erase] at herased
    exact ⟨_, Or.inr ⟨v, by simp, read_value hV (some v) "SPOP", rfl⟩, herased⟩

end Sets

/-! ### Intersections -/

omit [Platform] [ServerTexts] [DecidableEq K] [DecidableEq V] in
theorem rel_mapM {A B : Type} {R : A → B → Prop} {f : K → Option A} {g : K → Option B}
    (hfg : ∀ k, Option.Rel R (f k) (g k)) (keys : List K) :
    Option.Rel (List.Forall₂ R) (keys.mapM f) (keys.mapM g) := by
  induction keys with
  | nil => exact .some .nil
  | cons key keys ih =>
    rw [List.mapM_cons, List.mapM_cons]
    have hkey := hfg key
    generalize f key = a at hkey ⊢
    generalize g key = b at hkey ⊢
    cases hkey with
    | none => exact .none
    | some hR =>
      generalize keys.mapM f = as at ih ⊢
      generalize keys.mapM g = bs at ih ⊢
      cases ih with
      | none => exact .none
      | some hrest => exact .some (.cons hR hrest)

omit [Platform] [ServerTexts] [DecidableEq K] [DecidableEq V] in
include hV in
/-- An encoded member is in all of the sets of the server exactly when it is in all of the sets. -/
theorem all_mem_iff {cs : List (UnorderedSet Bytes)} {sets : List (Finset V)}
    (hsets : List.Forall₂ (UnorderedMap.RepresentsSet encV) cs sets) (v : V) :
    (cs.all fun c => decide (encV v ∈ c)) = true ↔ ∀ members ∈ sets, v ∈ members := by
  induction hsets with
  | nil => simp
  | cons hset _ ih =>
    rw [List.all_cons, Bool.and_eq_true, ih, decide_eq_true_eq, hset.mem_iff hV.injective, List.forall_mem_cons]

omit [Platform] [ServerTexts] [DecidableEq K] [DecidableEq V] in
include hV in
/-- The common members of sets, in the order of the server. -/
theorem exists_intersection (clock : Nat) {c : UnorderedSet Bytes} {cs : List (UnorderedSet Bytes)} {set : Finset V}
    {sets : List (Finset V)} (hset : UnorderedMap.RepresentsSet encV c set)
    (hsets : List.Forall₂ (UnorderedMap.RepresentsSet encV) cs sets) :
    ∃ l : List V, l.map encV = o.order clock (c.keys.filter fun x => cs.all fun c => decide (x ∈ c)) ∧ l.Nodup ∧
      ∀ v, v ∈ l ↔ ∀ members ∈ set :: sets, v ∈ members := by
  have hperm := o.perm clock (c.keys.filter fun x => cs.all fun c => decide (x ∈ c))
  generalize o.order clock (c.keys.filter fun x => cs.all fun c => decide (x ∈ c)) = listed at hperm ⊢
  have hrange : listed ∈ Set.range (List.map encV) := by
    rw [Set.range_list_map]
    intro x hx
    have hmem := (List.mem_filter.mp (hperm.mem_iff.mp hx)).1
    obtain ⟨v, -, rfl⟩ := (hset x).mp (AList.mem_keys.mpr hmem)
    exact ⟨v, rfl⟩
  obtain ⟨l, rfl⟩ := hrange
  refine ⟨l, rfl, (hperm.nodup_iff.mpr (c.keys_nodup.filter _)).of_map, fun v => ?_⟩
  rw [← List.mem_map_of_injective hV.injective, hperm.mem_iff, List.mem_filter, ← AList.mem_keys,
    hset.mem_iff hV.injective, all_mem_iff hV hsets, List.forall_mem_cons]

include hK hV h in
theorem sinter_conforms (keys : List K) : CallConforms tpl encK encV o db s (.sinter keys) := by
  have hplan := TypedPlan.ofRequest_ok (hK.mapM_serialize keys) .sinter (Value.typedValues tpl)
  have hfound := rel_mapM (fun key => ViewRel.set.find (h.datum key)) keys
  cases keys with
  | nil =>
    refine conforms_of_answer h hplan rfl ⟨rfl, [], rfl, List.nodup_nil, fun v => ?_⟩
    simp
  | cons key keys =>
    refine conforms_call hplan rfl rfl id ?_
    unfold ServerMap.command ServerMap.sinter Conforms TypedKeyspace.Allows TypedKeyspace.Intersects
    have hmap : ((key :: keys).map encK).mapM (fun key => (setView (UnorderedSet Bytes)).find (db.map.datum key)) =
        (key :: keys).mapM fun key => (setView (UnorderedSet Bytes)).find (db.map.datum (encK key)) := by
      rw [List.mapM_map]
      rfl
    dsimp only
    rw [hmap]
    generalize (key :: keys).mapM (fun key => (setView (UnorderedSet Bytes)).find (db.map.datum (encK key))) = found
      at hfound ⊢
    generalize (key :: keys).mapM (fun key => (setView (Finset V)).find (s.datum key)) = sets at hfound ⊢
    cases hfound with
    | none => exact ⟨s, ⟨rfl, rfl⟩, h⟩
    | some hsets =>
      cases hsets with
      | nil => exact ⟨s, ⟨rfl, [], rfl, List.nodup_nil, fun v => by simp⟩, h⟩
      | cons hset hsets =>
        obtain ⟨l, hl, hnodup, hmem⟩ := exists_intersection hV (o := o) db.clock hset hsets
        refine ⟨s, ⟨rfl, l, ?_, hnodup, fun v => ?_⟩, h⟩
        · dsimp only
          rw [← hl]
          exact read_values hV l "SINTER"
        · rw [hmem]
          exact (and_iff_right (List.cons_ne_nil _ _)).symm

/-! ### Hashes -/

section Hashes
include hK hV h

theorem hget_conforms (key hashKey : K) : CallConforms tpl encK encV o db s (.hget key hashKey) := by
  refine conforms_call (TypedPlan.ofRequest_ok (keyAndField_eq hK key hashKey) _ _) rfl rfl id ?_
  refine conforms_onHash hK.injective h (fun _ => rfl) (fun _ _ ha => ha) rfl fun c fields hfields =>
    ⟨fields, ⟨?_, rfl⟩, hfields⟩
  dsimp only
  rw [hfields.lookup]
  exact read_value hV (fields.lookup hashKey) "HGET"

theorem hgetall_conforms (key : K) : CallConforms tpl encK encV o db s (.hgetall key) := by
  refine conforms_call (TypedPlan.ofRequest_ok (hK.serialize key) _ _) rfl rfl id ?_
  refine conforms_onHash hK.injective h (fun _ => rfl) (fun _ _ ha => ha) rfl fun c fields hfields => ?_
  have hperm := o.perm db.clock c.pairs
  have hlisted : UnorderedMap.Represents encK encV (UnorderedMap.emplaceAll ∅ (o.order db.clock c.pairs)) fields :=
    hfields.congr fun x => by
      rw [UnorderedMap.lookup_emplaceAll_empty, UnorderedMap.lookup_perm hperm, UnorderedMap.lookup_pairs]
      exact (hperm.map Prod.fst).nodup_iff.mpr (UnorderedMap.nodup_pairs _)
  obtain ⟨entries, hentries, -, hfinmap⟩ := hlisted.exists_decoded hK.injective hV.injective (visit_perm _)
  have hdeserialize : (entries.map (Prod.map encK encV)).mapM (HashOperations.fieldAndValue tpl) = .ok entries :=
    Except.mapM_map_eq fun e _ => bothArguments_eq_ok.mpr ⟨hK.deserialize e.1, hV.deserialize e.2⟩
  refine ⟨fields, ⟨UnorderedMap.emplaceAll ∅ entries, ?_, hfinmap, rfl⟩, hfields⟩
  rw [Interpretation.decode, Client.hashReply, Reply.orThrow_bind (by simp [Reply.kind]), Reply.hash_flatPairs]
  show Except.map _ ((visit _).mapM _) = _
  rw [← hentries, hdeserialize]
  rfl

omit hV in
theorem hkeys_conforms (key : K) : CallConforms tpl encK encV o db s (.hkeys key) := by
  refine conforms_call (TypedPlan.ofRequest_ok (hK.serialize key) _ _) rfl rfl id ?_
  refine conforms_onHash hK.injective h (fun _ => rfl) (fun _ _ ha => ha) rfl fun c fields hfields => ?_
  have hperm := o.perm db.clock c.keys
  obtain ⟨keys, hkeys, hset⟩ := hfields.exists_keys hK.injective hperm
  have hnodup : (keys.map encK).Nodup := hkeys ▸ hperm.nodup_iff.mpr c.keys_nodup
  refine ⟨fields, ⟨keys, ?_, hnodup.of_map, hset, rfl⟩, hfields⟩
  dsimp only
  rw [← hkeys]
  exact read_keyList hK keys "HKEYS"

theorem hvals_conforms (key : K) : CallConforms tpl encK encV o db s (.hvals key) := by
  refine conforms_call (TypedPlan.ofRequest_ok (hK.serialize key) _ _) rfl rfl id ?_
  refine conforms_onHash hK.injective h (fun _ => rfl) (fun _ _ ha => ha) rfl fun c fields hfields => ?_
  obtain ⟨vals, hvals, hmultiset⟩ := hfields.exists_vals hK.injective hV.injective (o.perm db.clock c.vals)
  refine ⟨fields, ⟨vals, ?_, hmultiset, rfl⟩, hfields⟩
  dsimp only
  rw [← hvals]
  exact read_values hV vals "HVALS"

omit [Platform] [ServerTexts] [DecidableEq K] [DecidableEq V] hK hV h in
/-- A count that is no more than the length of a list is what it is. -/
theorem asLongLong_nonneg {n k : Nat} (hn : n ≤ k) (hk : k < 2 ^ 63) : 0 ≤ asLongLong n := by
  have hlong : IsLongLong n := ⟨by omega, by omega⟩
  rw [asLongLong_of_isLongLong hlong]
  exact Int.natCast_nonneg n

omit [Platform] [ServerTexts] [DecidableEq K] [DecidableEq V] hK hV h in
theorem card_added_le {W : Type} (pairs : List (Bytes × W)) (p : Bytes → Prop) [DecidablePred p] :
    ((pairs.map Prod.fst).toFinset.filter p).card ≤ pairs.length :=
  ((Finset.card_filter_le _ _).trans (List.toFinset_card_le _)).trans_eq (List.length_map ..)

theorem hset_conforms (key field : K) (value : V) :
    CallConforms tpl encK encV o db s (.hset key field value) := by
  have hrequest : bothArguments (tpl.serializeKey key) (bothArguments (tpl.serializeKey field)
      (tpl.serializeValue value)) = .ok (encK key, encK field, encV value) :=
    bothArguments_eq_ok.mpr ⟨hK.serialize key, bothArguments_eq_ok.mpr ⟨hK.serialize field, hV.serialize value⟩⟩
  refine conforms_call (TypedPlan.ofRequest_ok hrequest _ _) rfl rfl id ?_
  refine conforms_onHash hK.injective h (fun _ => rfl) (fun _ _ ha => ha) rfl fun c fields hfields =>
    ⟨fields.insert field value, ⟨?_, rfl⟩, hfields.insert hK.injective field value⟩
  refine (read_hset _).trans ?_
  rw [decide_eq_true (asLongLong_nonneg (card_added_le [(encK field, encV value)] (· ∉ c)) (by simp))]

omit [ServerTexts] [DecidableEq K] [DecidableEq V] hV h in
theorem length_visit_encoded (hashMap : UnorderedMap K V) :
    (visit (UnorderedMap.emplaceAll ∅ ((visit hashMap).map (Prod.map encK encV)))).length = hashMap.keys.length := by
  have hvisited : (visit hashMap).length = hashMap.keys.length := by
    rw [(visit_perm hashMap).length_eq, ← UnorderedMap.map_fst_pairs, List.length_map]
  have hnodup : (((visit hashMap).map (Prod.map encK encV)).map Prod.fst).Nodup := by
    rw [List.map_map, show Prod.fst ∘ Prod.map encK encV = encK ∘ Prod.fst from rfl, ← List.map_map]
    exact (((visit_perm hashMap).map Prod.fst).nodup_iff.mpr (UnorderedMap.nodup_pairs _)).map hK.injective
  rw [(visit_perm _).length_eq, (UnorderedMap.pairs_emplaceAll_perm hnodup).length_eq, List.length_map, hvisited]

theorem hsetMany_conforms (key : K) (hashMap : UnorderedMap K V) :
    CallConforms tpl encK encV o db s (.hsetMany key hashMap) := by
  have hplan := TypedPlan.ofRequest_ok (thenKey_ok hK (serialized_fields hK hV hashMap) key)
    (fun p => .hsetMany p.2 (UnorderedMap.emplaceAll ∅ p.1)) (Value.plain (K := K) (V := V))
  have hrepresents := UnorderedMap.Represents.encoded hK.injective encV (visit_perm hashMap)
  have hentries : (UnorderedMap.emplaceAll ∅ ((visit hashMap).map (Prod.map encK encV))).entries = [] ↔
      hashMap.entries = [] := by
    rw [UnorderedMap.entries_emplaceAll_eq_nil, List.map_eq_nil_iff, visit_eq_nil_iff]
  by_cases hempty : hashMap.entries = []
  · refine conforms_of_answer h hplan (if_pos (List.isEmpty_iff.mpr (hentries.mpr hempty))) ?_
    unfold TypedKeyspace.Allows
    exact (if_pos hempty).mpr ⟨rfl, rfl⟩
  · have hsend := hentries.not.mpr hempty
    refine conforms_call hplan (if_neg (by simpa using hsend)) rfl id ?_
    refine conforms_onHash hK.injective h (fun _ => rfl) (fun _ _ ha => cast (if_neg hempty).symm ha) rfl
      fun c fields hfields => ⟨hashMap.toFinmap ∪ fields, ⟨_, read_hset _, fun hsize => decide_eq_true ?_, rfl⟩,
        hfields.union hrepresents (visit_perm _)⟩
    exact asLongLong_nonneg ((card_added_le _ _).trans_eq (length_visit_encoded hK hashMap)) hsize

omit hV in
theorem hdel_conforms (key hashKey : K) : CallConforms tpl encK encV o db s (.hdel key hashKey) := by
  refine conforms_call (TypedPlan.ofRequest_ok (keyAndField_eq hK key hashKey) _ _) rfl rfl id ?_
  refine conforms_onHash hK.injective h (fun _ => rfl) (fun _ _ ha => ha) rfl fun c fields hfields => ?_
  obtain ⟨herased, hcount⟩ := hfields.eraseAll hK.injective [hashKey]
  refine ⟨fields.erase hashKey, ⟨?_, rfl⟩, herased⟩
  refine (read_signed _ "HDEL").trans ?_
  dsimp only
  rw [show [encK hashKey] = [hashKey].map encK from rfl, hcount, List.toFinset_cons, List.toFinset_nil,
    insert_empty_eq, Finset.filter_singleton]
  split
  · rw [Finset.card_singleton]
    exact congrArg (fun n => Except.ok (TypedValue.integer n)) (asLongLong_of_isLongLong (n := 1) (by decide))
  · exact congrArg (fun n => Except.ok (TypedValue.integer n)) asLongLong_zero

omit hV in
theorem hdelMany_conforms (key : K) (hashKeys : List K) :
    CallConforms tpl encK encV o db s (.hdelMany key hashKeys) := by
  have hplan := TypedPlan.ofRequest_ok (thenKey_ok hK (hK.mapM_serialize hashKeys) key)
    (fun p => .hdelMany p.2 p.1) (Value.plain (K := K) (V := V))
  by_cases hkeys : hashKeys = []
  · subst hkeys
    refine conforms_of_answer h hplan rfl ?_
    unfold TypedKeyspace.Allows
    exact (if_pos rfl).mpr ⟨rfl, rfl⟩
  · refine conforms_call hplan (if_neg (by simpa using hkeys)) rfl id ?_
    refine conforms_onHash hK.injective h (fun _ => rfl) (fun _ _ ha => cast (if_neg hkeys).symm ha) rfl
      fun c fields hfields => ?_
    obtain ⟨herased, hcount⟩ := hfields.eraseAll hK.injective hashKeys
    exact ⟨_, ⟨(read_signed _ "HDEL").trans (by rw [hcount]), rfl⟩, herased⟩

omit [ServerTexts] [DecidableEq V] h in
/-- What the batch `hget` makes of the caller's map. -/
theorem read_optionalHash {c : UnorderedMap Bytes Bytes} {fields : Finmap fun _ : K => V}
    (hfields : UnorderedMap.Represents encK encV c fields) (out : UnorderedMap K (Option V)) {texts : List Bytes}
    (htexts : (visit out).map (fun pair => encK pair.1) = texts) :
    ∃ m, ((Interpretation.hmget (hmgetFields (fieldMap texts)) (fieldMap texts)).decode
        (Reply.array ((hmgetFields (fieldMap texts)).map fun field =>
          .ofOptional (AList.lookup field c))).toCmdReply >>= Value.typedOptionalHash tpl out) = .ok (.optionalHash m) ∧
      (∀ k, k ∈ m ↔ k ∈ out) ∧ ∀ k ∈ out, AList.lookup k m = some (fields.lookup k) := by
  have hvalues (field text : Bytes) (hlookup : AList.lookup field c = some text) :
      ∃ v, tpl.deserializeValue text = .ok v := by
    obtain ⟨k, rfl⟩ := hfields.keys field (AList.lookup_isSome.mp (by rw [hlookup]; rfl))
    rw [hfields.lookup] at hlookup
    obtain ⟨v, -, rfl⟩ := Option.map_eq_some_iff.mp hlookup
    exact ⟨v, hV.deserialize v⟩
  have hvalue (k : K) : ((fields.lookup k).map encV).mapM tpl.deserializeValue = .ok (fields.lookup k) := by
    cases fields.lookup k with
    | none => rfl
    | some v =>
      have hdeserialize : tpl.deserializeValue (encV v) = .ok v := hV.deserialize v
      rw [Option.map_some, Option.mapM_some, hdeserialize]
      rfl
  have hreply := hmgetReply_storedValues (hmgetFields (fieldMap texts)) c
  -- the loop stores under each field that the caller asked for what the hash has for it
  have hdecode : ∀ p ∈ visit (answerMap texts (storedValues (hmgetFields (fieldMap texts)) c)),
      ∃ k ∈ out, encK k = p.1 ∧ decodeField tpl out p = .ok (some (k, fields.lookup k)) := by
    intro p hp
    obtain ⟨k, hk, henc, value, hd, hv⟩ :=
      exists_decodeField hK htexts hvalues ((mem_answerMap (length_hmgetReply hreply) p).mp hp)
    rw [hfields.lookup, hvalue] at hv
    cases hv
    exact ⟨k, hk, henc, hd⟩
  obtain ⟨stored, hstored⟩ := Except.exists_mapM_eq_ok (f := decodeField tpl out)
    (l := visit (answerMap texts (storedValues (hmgetFields (fieldMap texts)) c))) fun p hp => by
      obtain ⟨k, -, -, hd⟩ := hdecode p hp
      exact ⟨_, hd⟩
  have hpairs := Except.mapM_eq_ok_iff.mp hstored
  have hmem {e : K × Option V} (he : e ∈ stored.reduceOption) : e.1 ∈ out ∧ e.2 = fields.lookup e.1 := by
    obtain ⟨p, hp, hd⟩ := Except.exists_of_mem_left hpairs.flip (List.reduceOption_mem_iff.mp he)
    obtain ⟨k, hk, -, hd'⟩ := hdecode p hp
    cases hd.symm.trans hd'
    exact ⟨hk, rfl⟩
  have hall {k : K} (hk : k ∈ out) : k ∈ stored.reduceOption.map Prod.fst := by
    have hrequested : encK k ∈ hmgetFields (fieldMap texts) := by
      rw [← htexts]
      exact mem_requestedFields.mpr ⟨k, hk, rfl⟩
    have hanswer : (encK k, AList.lookup (encK k) c) ∈
        visit (answerMap texts (storedValues (hmgetFields (fieldMap texts)) c)) :=
      (mem_answerMap (length_hmgetReply hreply) _).mpr (mem_answers_storedValues.mpr ⟨hrequested, rfl⟩)
    obtain ⟨k', -, henc, hd⟩ := hdecode _ hanswer
    obtain ⟨e, he, hd'⟩ := Except.exists_of_mem_left hpairs hanswer
    cases hd.symm.trans hd'
    cases hK.injective henc
    exact List.mem_map_of_mem (f := Prod.fst) (List.reduceOption_mem_iff.mpr he)
  refine ⟨out.insertAll stored.reduceOption, ?_, UnorderedMap.mem_insertAll_of_subset fun e he => (hmem he).1,
    fun k hk => UnorderedMap.lookup_insertAll_of_forall (g := fields.lookup) (fun e he => (hmem he).2) (hall hk)⟩
  rw [Interpretation.decode, hreply]
  show Except.map _ ((visit (answerMap texts (storedValues (hmgetFields (fieldMap texts)) c))).mapM
    (decodeField tpl out)) = _
  rw [hstored]
  rfl

theorem hgetMany_conforms (key : K) (hashMap : UnorderedMap K (Option V)) :
    CallConforms tpl encK encV o db s (.hgetMany key hashMap) := by
  by_cases hempty : hashMap.entries = []
  · have hplan : TypedCall.plan tpl (.hgetMany key hashMap) = .answer (.optionalHash hashMap) :=
      if_pos (List.isEmpty_iff.mpr hempty)
    unfold CallConforms
    rw [TypedCall.run_eq_plan, hplan]
    refine ⟨s, ?_, h⟩
    unfold TypedKeyspace.Allows
    exact (if_pos hempty).mpr ⟨rfl, rfl⟩
  · have hfields : serializedFields tpl hashMap = .ok ((visit hashMap).map fun pair => encK pair.1) :=
      serializedFields_eq hK
    have hsend := fieldMap_nonempty tpl hempty hfields
    have hplan := TypedPlan.ofRequest_ok (thenKey_ok hK hfields key)
      (fun p => .hgetMany p.2 (fieldMap p.1)) (Value.typedOptionalHash tpl hashMap)
    refine conforms_call ((if_neg (by simpa using hempty)).trans hplan) (if_neg (by simpa using hsend)) rfl id ?_
    refine conforms_onHash hK.injective h (fun _ => rfl) (fun _ _ ha => cast (if_neg hempty).symm ha) rfl
      fun c fields hfields => ?_
    obtain ⟨m, hm, hkeys, hlookup⟩ := read_optionalHash hK hV hfields hashMap rfl
    exact ⟨fields, ⟨m, hm, rfl, hkeys, hlookup⟩, hfields⟩

end Hashes

end Collections

end Redisdal
