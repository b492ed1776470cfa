import Redisdal.Theorems.HashStore

/-! # The fields of `hgetall`

`hgetall` deserializes the field names of a hash and stores the values under the results. Names that read as one
key, such as the numerals 1 and 01, meet in one entry of the map. -/

namespace Redisdal
variable {K V : Type} [DecidableEq K]

/-! ### What is returned -/

/-- `hgetall` returns `m`, in some order of the server's listing and of the visit to the map of texts. -/
def HgetallReturns (tpl : Template K V) (key : K) (db : HashDb) (m : UnorderedMap K V) : Prop :=
  ∃ (platform : Platform) (o : ListingOrder),
    ((@HashOperations.hgetall _ _ _ tpl (hashServer o) platform _ key).run db).1 = .ok m

/-- What `hgetall` returns has one entry for each field of the hash, no value is lost, and no order shows. -/
structure KeepsFields (tpl : Template K V) (key : K) (hash : UnorderedMap Bytes Bytes) (db : HashDb) : Prop where
  entries : ∀ m, HgetallReturns tpl key db m → m.entries.length = hash.entries.length
  values : ∀ m, HgetallReturns tpl key db m → ∀ field text, AList.lookup field hash = some text →
    ∃ k v, tpl.deserializeKey field = .ok k ∧ tpl.deserializeValue text = .ok v ∧ AList.lookup k m = some v
  unordered : ∀ m m', HgetallReturns tpl key db m → HgetallReturns tpl key db m' → m.toFinmap = m'.toFinmap

/-- The pairs of texts `l`, deserialized one by one. -/
def Deserializes (tpl : Template K V) (l : List (Bytes × Bytes)) (entries : List (K × V)) : Prop :=
  List.Forall₂ (fun p e => tpl.deserializeKey p.1 = .ok e.1 ∧ tpl.deserializeValue p.2 = .ok e.2) l entries

omit [DecidableEq K] in
theorem mapM_fieldAndValue_eq_ok_iff [Platform] {tpl : Template K V} {l : List (Bytes × Bytes)}
    {entries : List (K × V)} :
    l.mapM (HashOperations.fieldAndValue tpl) = .ok entries ↔ Deserializes tpl l entries := by
  rw [Except.mapM_eq_ok_iff, Deserializes]
  exact ⟨fun h => h.imp fun _ _ hp => bothArguments_eq_ok.mp hp,
    fun h => h.imp fun _ _ hp => bothArguments_eq_ok.mpr hp⟩

variable {tpl : Template K V} {key : K} {sKey : Bytes} {db : HashDb}

/-- One call, on one platform and against one order of listing. -/
theorem run_hgetall_server [Platform] (o : ListingOrder) (hkey : tpl.serializeKey key = .ok sKey) :
    ((HashOperations.hgetall tpl (hashServer o) key).run db).1 =
      ((visit (UnorderedMap.emplaceAll ∅ (o.order db.clock (db.hashes sKey).pairs))).mapM
        (HashOperations.fieldAndValue tpl)).map (UnorderedMap.emplaceAll ∅) := by
  have hserver : (hashServer o ["HGETALL", sKey]).run db =
      (.ok (.array (Reply.flatPairs (o.order db.clock (db.hashes sKey).pairs))),
        ⟨Function.update db.hashes sKey (db.hashes sKey), db.clock + 1⟩) := rfl
  unfold HashOperations.hgetall Client.hgetall CmdOps.hgetall
  rw [hkey, Program.ofExcept_ok_bind, Program.decode_decode, run_decode_of_reply _ hserver]
  unfold Client.hashReply
  rw [Reply.orThrow_bind (by simp [Reply.kind]), Reply.hash_flatPairs, Except.ok_bind]
  rfl

/-- What is returned is stored from the deserialized pairs of the hash, in some order. -/
theorem deserializes_of_hgetallReturns (hkey : tpl.serializeKey key = .ok sKey) {m : UnorderedMap K V}
    (h : HgetallReturns tpl key db m) :
    ∃ l entries, l.Perm (db.hashes sKey).pairs ∧ Deserializes tpl l entries ∧
      m = UnorderedMap.emplaceAll ∅ entries := by
  obtain ⟨platform, o, hrun⟩ := h
  rw [@run_hgetall_server _ _ _ tpl key sKey db platform o hkey] at hrun
  obtain ⟨entries, hentries, rfl⟩ := Except.map_eq_ok_iff.mp hrun
  have hlisted := o.perm db.clock (db.hashes sKey).pairs
  refine ⟨_, entries, ?_, (@mapM_fieldAndValue_eq_ok_iff _ _ platform _ _ _).mp hentries, rfl⟩
  refine (@visit_perm platform _ _ _).trans ((UnorderedMap.pairs_emplaceAll_perm ?_).trans hlisted)
  exact (hlisted.map Prod.fst).nodup_iff.mpr (UnorderedMap.nodup_pairs _)

theorem exists_hgetallReturns (hkey : tpl.serializeKey key = .ok sKey)
    (hfields : ∀ field ∈ db.hashes sKey, ∃ k, tpl.deserializeKey field = .ok k)
    (hvalues : ∀ text, ∃ v, tpl.deserializeValue text = .ok v) : ∃ m, HgetallReturns tpl key db m := by
  let _ : Platform := referencePlatform
  have hperm := (visit_perm _).trans (UnorderedMap.pairs_emplaceAll_perm (UnorderedMap.nodup_pairs (db.hashes sKey)))
  obtain ⟨entries, hentries⟩ := Except.exists_mapM_eq_ok
    (f := HashOperations.fieldAndValue tpl) (l := visit (UnorderedMap.emplaceAll ∅ (db.hashes sKey).pairs))
    fun p hp => by
      have hmem : p.1 ∈ db.hashes sKey := by
        rw [AList.mem_keys, ← UnorderedMap.map_fst_pairs]
        exact List.mem_map_of_mem (hperm.mem_iff.mp hp)
      obtain ⟨k, hk⟩ := hfields p.1 hmem
      obtain ⟨v, hv⟩ := hvalues p.2
      exact ⟨(k, v), bothArguments_eq_ok.mpr ⟨hk, hv⟩⟩
  refine ⟨UnorderedMap.emplaceAll ∅ entries, referencePlatform, .stored, ?_⟩
  rw [run_hgetall_server _ hkey]
  exact congrArg _ hentries

/-! ### Keys that meet -/

/-- No two fields of the hash read as one key. -/
def KeysDiffer (tpl : Template K V) (hash : UnorderedMap Bytes Bytes) : Prop :=
  ∀ field ∈ hash, ∀ field' ∈ hash, ∀ k, tpl.deserializeKey field = .ok k → tpl.deserializeKey field' = .ok k →
    field = field'

omit [DecidableEq K] in
theorem Deserializes.keys {l : List (Bytes × Bytes)} {entries : List (K × V)} (h : Deserializes tpl l entries) :
    (l.map Prod.fst).map (fun field => (tpl.deserializeKey field).toOption) = (entries.map Prod.fst).map some := by
  induction h with
  | nil => rfl
  | cons hpe _ ih =>
    rw [List.map_cons, List.map_cons, List.map_cons, List.map_cons, ih, hpe.1]
    rfl

omit [DecidableEq K] in
theorem Deserializes.nodup_iff {hash : UnorderedMap Bytes Bytes} {l : List (Bytes × Bytes)} {entries : List (K × V)}
    (hl : l.Perm hash.pairs) (h : Deserializes tpl l entries) :
    (entries.map Prod.fst).Nodup ↔ KeysDiffer tpl hash := by
  have hmem {field : Bytes} : field ∈ l.map Prod.fst ↔ field ∈ hash := by
    rw [(hl.map Prod.fst).mem_iff, UnorderedMap.map_fst_pairs, AList.mem_keys]
  have hnodup : (l.map Prod.fst).Nodup := (hl.map Prod.fst).nodup_iff.mpr (UnorderedMap.nodup_pairs hash)
  rw [← List.nodup_map_iff (Option.some_injective K), ← h.keys, List.nodup_map_iff_inj_on hnodup]
  constructor
  · intro hinj field hfield field' hfield' k hk hk'
    exact hinj field (hmem.mpr hfield) field' (hmem.mpr hfield') (by rw [hk, hk'])
  · intro hdiffer field hfield field' hfield' heq
    have hread := List.mem_map_of_mem (f := fun field => (tpl.deserializeKey field).toOption) hfield
    rw [h.keys] at hread
    obtain ⟨k, -, hk⟩ := List.mem_map.mp hread
    exact hdiffer field (hmem.mp hfield) field' (hmem.mp hfield') k (Except.toOption_eq_some_iff.mp hk.symm)
      (Except.toOption_eq_some_iff.mp (hk.trans heq).symm)

theorem Deserializes.lookup_eq_some_iff {hash : UnorderedMap Bytes Bytes} {l : List (Bytes × Bytes)}
    {entries : List (K × V)} (hl : l.Perm hash.pairs) (h : Deserializes tpl l entries)
    (hdiffer : KeysDiffer tpl hash) {k : K} {v : V} :
    AList.lookup k (UnorderedMap.emplaceAll ∅ entries) = some v ↔
      ∃ field text, AList.lookup field hash = some text ∧ tpl.deserializeKey field = .ok k ∧
        tpl.deserializeValue text = .ok v := by
  have hnodup := (h.nodup_iff hl).mpr hdiffer
  rw [← UnorderedMap.mem_pairs, (UnorderedMap.pairs_emplaceAll_perm hnodup).mem_iff]
  constructor
  · intro hmem
    obtain ⟨⟨field, text⟩, hp, hk, hv⟩ := Except.exists_of_mem_left h.flip hmem
    exact ⟨field, text, UnorderedMap.mem_pairs.mp (hl.mem_iff.mp hp), hk, hv⟩
  · intro hex
    obtain ⟨field, text, hp, hk, hv⟩ := hex
    obtain ⟨⟨k', v'⟩, hmem, hk', hv'⟩ :=
      Except.exists_of_mem_left h (hl.mem_iff.mpr (UnorderedMap.mem_pairs.mpr hp))
    cases hk.symm.trans hk'
    cases hv.symm.trans hv'
    exact hmem

/-- Where nothing is lost and every field name reads, no two of them read as one key. -/
theorem KeepsFields.keysDiffer (h : KeepsFields tpl key (db.hashes sKey) db) (hkey : tpl.serializeKey key = .ok sKey)
    (hfields : ∀ field ∈ db.hashes sKey, ∃ k, tpl.deserializeKey field = .ok k)
    (hvalues : ∀ text, ∃ v, tpl.deserializeValue text = .ok v) : KeysDiffer tpl (db.hashes sKey) := by
  obtain ⟨m, hm⟩ := exists_hgetallReturns hkey hfields hvalues
  have hentries := h.entries m hm
  obtain ⟨l, entries, hl, hread, rfl⟩ := deserializes_of_hgetallReturns hkey hm
  rw [← hread.nodup_iff hl, ← UnorderedMap.length_emplaceAll_iff, hentries, ← hread.length_eq, hl.length_eq,
    UnorderedMap.pairs, List.length_map]

/-- Every field of the hash keeps its value exactly when no two of them read as one key, or one reads as none. -/
theorem keepsFields_iff (hkey : tpl.serializeKey key = .ok sKey)
    (hvalues : ∀ text, ∃ v, tpl.deserializeValue text = .ok v) :
    KeepsFields tpl key (db.hashes sKey) db ↔
      (∃ field ∈ db.hashes sKey, ∃ e, tpl.deserializeKey field = .error e) ∨ KeysDiffer tpl (db.hashes sKey) := by
  constructor
  · intro h
    by_cases hfields : ∀ field ∈ db.hashes sKey, ∃ k, tpl.deserializeKey field = .ok k
    · exact Or.inr (h.keysDiffer hkey hfields hvalues)
    · simp only [not_forall] at hfields
      obtain ⟨field, hfield, hno⟩ := hfields
      cases hread : tpl.deserializeKey field with
      | error e => exact Or.inl ⟨field, hfield, e, hread⟩
      | ok k => exact absurd ⟨k, hread⟩ hno
  · intro h
    rcases h with ⟨field, hfield, e, hread⟩ | hdiffer
    · have hnever (m : UnorderedMap K V) : ¬HgetallReturns tpl key db m := fun hm => by
        obtain ⟨l, entries, hl, hread', -⟩ := deserializes_of_hgetallReturns hkey hm
        obtain ⟨text, htext⟩ := Option.isSome_iff_exists.mp (AList.lookup_isSome.mpr hfield)
        obtain ⟨_, -, hk, -⟩ :=
          Except.exists_of_mem_left hread' (hl.mem_iff.mpr (UnorderedMap.mem_pairs.mpr htext))
        cases hk.symm.trans hread
      exact ⟨fun m hm => absurd hm (hnever m), fun m hm => absurd hm (hnever m), fun m _ hm => absurd hm (hnever m)⟩
    · refine ⟨fun m hm => ?_, fun m hm field text htext => ?_, fun m m' hm hm' => ?_⟩
      · obtain ⟨l, entries, hl, hread, rfl⟩ := deserializes_of_hgetallReturns hkey hm
        rw [UnorderedMap.length_emplaceAll_iff.mpr ((hread.nodup_iff hl).mpr hdiffer), ← hread.length_eq, hl.length_eq,
          UnorderedMap.pairs, List.length_map]
      · obtain ⟨l, entries, hl, hread, rfl⟩ := deserializes_of_hgetallReturns hkey hm
        obtain ⟨⟨k, v⟩, -, hk, hv⟩ :=
          Except.exists_of_mem_left hread (hl.mem_iff.mpr (UnorderedMap.mem_pairs.mpr htext))
        exact ⟨k, v, hk, hv, (hread.lookup_eq_some_iff hl hdiffer).mpr ⟨field, text, htext, hk, hv⟩⟩
      · obtain ⟨l, entries, hl, hread, rfl⟩ := deserializes_of_hgetallReturns hkey hm
        obtain ⟨l', entries', hl', hread', rfl⟩ := deserializes_of_hgetallReturns hkey hm'
        refine UnorderedMap.toFinmap_eq_iff.mpr fun k => Option.ext fun v => ?_
        exact (hread.lookup_eq_some_iff hl hdiffer).trans (hread'.lookup_eq_some_iff hl' hdiffer).symm

/-! ### Integral keys -/

/-- `redis_template<int, std::string>`. -/
def intTemplate : Template (IntegralType.Value ⟨true, 32⟩) Bytes := ⟨integralSerializer ⟨true, 32⟩, stringSerializer⟩

theorem deserialize_integral {t : IntegralType} {s : Bytes} {v : t.Value} (h : integralFromString t s = .ok v.1) :
    (integralSerializer t).deserialize s = .ok v := by
  unfold integralSerializer
  dsimp only
  split
  · next w hw =>
    cases hw.symm.trans h
    rfl
  · next e he => cases he.symm.trans h

/-- A database with one hash under every key. -/
def oneHash (pairs : List (Bytes × Bytes)) : HashDb := ⟨fun _ => UnorderedMap.insertAll ∅ pairs, 0⟩

theorem mem_oneHash {pairs : List (Bytes × Bytes)} {sKey field : Bytes} :
    field ∈ (oneHash pairs).hashes sKey ↔ field ∈ pairs.map Prod.fst := by
  show field ∈ UnorderedMap.insertAll ∅ pairs ↔ _
  rw [UnorderedMap.mem_insertAll]
  simp [AList.notMem_empty]

theorem keepsFields_one_two :
    KeepsFields intTemplate ⟨7, by decide⟩ ((oneHash [("1", "a"), ("2", "b")]).hashes "7")
      (oneHash [("1", "a"), ("2", "b")]) := by
  have hone : intTemplate.deserializeKey "1" = .ok ⟨1, by decide⟩ := deserialize_integral rfl
  have htwo : intTemplate.deserializeKey "2" = .ok ⟨2, by decide⟩ := deserialize_integral rfl
  refine (keepsFields_iff (by decide) fun text => ⟨text, rfl⟩).mpr (Or.inr ?_)
  intro field hfield field' hfield' k hk hk'
  simp only [mem_oneHash, List.map_cons, List.map_nil, List.mem_cons, List.not_mem_nil, or_false] at hfield hfield'
  rcases hfield with rfl | rfl <;> rcases hfield' with rfl | rfl
  · rfl
  · cases hone.symm.trans hk
    cases htwo.symm.trans hk'
  · cases htwo.symm.trans hk
    cases hone.symm.trans hk'
  · rfl

/-- The fields 1 and 01 share an entry of a map with `int` keys. -/
theorem not_keepsFields_leadingZero :
    ¬KeepsFields intTemplate ⟨7, by decide⟩ ((oneHash [("1", "a"), ("01", "b")]).hashes "7")
      (oneHash [("1", "a"), ("01", "b")]) := by
  intro h
  have hone : intTemplate.deserializeKey "1" = .ok ⟨1, by decide⟩ := deserialize_integral rfl
  have hzero : intTemplate.deserializeKey "01" = .ok ⟨1, by decide⟩ := deserialize_integral rfl
  have hdiffer := h.keysDiffer (by decide) (fun field hfield => ?_) fun text => ⟨text, rfl⟩
  · exact absurd (hdiffer "1" (mem_oneHash.mpr (by simp)) "01" (mem_oneHash.mpr (by simp)) _ hone hzero) (by decide)
  · simp only [mem_oneHash, List.map_cons, List.map_nil, List.mem_cons, List.not_mem_nil, or_false] at hfield
    rcases hfield with rfl | rfl
    · exact ⟨_, hone⟩
    · exact ⟨_, hzero⟩

end Redisdal
