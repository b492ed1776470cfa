import Redisdal.Theorems.KeyspaceCollections

/-! # Calls on sorted sets of the typed keyspace

Scores cross the wire as texts, in both directions; members are ranked by their scores and their encodings. -/

namespace Redisdal
open UnorderedMap

variable [P : Platform] [ServerTexts] {K V : Type} {tpl : Template K V} {encK : K → Bytes} {encV : V → Bytes}

/-! ### Replies -/

section Replies
open ServerScores

theorem read_optionalScore (hpasses : Passes P) (score : Option Score) (c : Bytes) :
    ((Interpretation.optionalScore c).decode (Reply.ofOptional (score.map print)).toCmdReply >>=
      Value.plain (K := K) (V := V)) = .ok (.optionalScore (score.map Score.value)) := by
  have hreply : Client.optionalScoreReply c (Reply.ofOptional (score.map print)).toCmdReply =
      .ok (score.map Score.value) := by
    refine Reply.orThrow_bind_eq_ok_iff.mpr ⟨?_, Reply.optionalScore_eq_ok_iff.mpr ?_⟩
    · cases score <;> simp [Reply.ofOptional, Reply.kind]
    · cases score with
      | none => exact Or.inl ⟨rfl, rfl⟩
      | some score => exact Or.inr ⟨print score, score.value, rfl, hpasses.written score, rfl⟩
  rw [Interpretation.decode, hreply]
  rfl

theorem read_score (hpasses : Passes P) (score : Score) :
    (Interpretation.score.decode (Reply.string (print score)).toCmdReply >>= Value.plain (K := K) (V := V)) =
      .ok (.score score.value) := by
  have hreply : Client.optionalScoreReply "ZINCRBY" (Reply.string (print score)).toCmdReply = .ok (some score.value) :=
    Reply.orThrow_bind_eq_ok_iff.mpr ⟨by simp [Reply.kind],
      Reply.optionalScore_eq_ok_iff.mpr (Or.inr ⟨print score, score.value, rfl, hpasses.written score, rfl⟩)⟩
  rw [Interpretation.decode, Client.zincrbyReply, hreply]
  rfl

variable (hV : Encodes tpl.valueSerializer encV)
include hV

theorem read_members (l : List (V × Score)) (c : Bytes) :
    ((Interpretation.texts c).decode (Reply.members false (l.map (Prod.map encV id))).toCmdReply >>=
      Value.typedValues tpl) = .ok (TypedKeyspace.rankedMembers l) := by
  have htexts : (l.map (Prod.map encV id)).map (fun e => Reply.string e.1) =
      ((l.map Prod.fst).map encV).map Reply.string := by
    rw [List.map_map, List.map_map, List.map_map]
    rfl
  rw [Reply.members, if_neg Bool.false_ne_true, htexts]
  exact read_values hV (l.map Prod.fst) c

theorem read_scores (hpasses : Passes P) (l : List (V × Score)) (c : Bytes) :
    ((Interpretation.scores c).decode (Reply.members true (l.map (Prod.map encV id))).toCmdReply >>=
      Value.typedScores tpl) = .ok (TypedKeyspace.rankedScores l) := by
  have hreply : Client.scoresReply c (Reply.members true (l.map (Prod.map encV id))).toCmdReply =
      .ok (l.map fun e => (encV e.1, e.2.value)) := by
    rw [Reply.members, if_pos rfl]
    refine Reply.orThrow_bind_eq_ok_iff.mpr ⟨by simp [Reply.kind],
      Reply.scores_eq_ok_iff.mpr (Or.inr ⟨_, rfl, ?_, ?_⟩)⟩
    · rw [Reply.length_flatPairs, Nat.mul_mod_right]
    · unfold Reply.flatPairs
      rw [Reply.twoByTwo_flatMap_pair, List.map_map, List.map_map, List.forall₂_map_left_iff,
        List.forall₂_map_right_iff]
      exact List.forall₂_same.mpr fun e _ => ⟨print e.2, rfl, hpasses.written e.2⟩
  have hdeserialize : (l.map fun e => (encV e.1, e.2.value)).mapM (ZsetOperations.deserializeMember tpl) =
      .ok (l.map fun e => (e.1, e.2.value)) := by
    rw [List.mapM_map]
    refine Except.mapM_eq_map fun e _ => ?_
    unfold ZsetOperations.deserializeMember Template.deserializeValue
    rw [Function.comp_apply, hV.deserialize]
    rfl
  rw [Interpretation.decode, hreply]
  show Except.map _ ((l.map fun e => (encV e.1, e.2.value)).mapM (ZsetOperations.deserializeMember tpl)) = _
  rw [hdeserialize]
  rfl

end Replies

/-! ### Calls -/

section Calls
variable [DecidableEq K] [DecidableEq V] (hK : Encodes tpl.keySerializer encK) (hV : Encodes tpl.valueSerializer encV)
  {o : ListingOrder} {db : RedisDb} {s : TypedKeyspace K V} (h : Holds encK encV db.map s)

omit [ServerTexts] [DecidableEq K] [DecidableEq V] in
include hK hV in
theorem keyAndMember_ok (key : K) (member : V) :
    ZsetOperations.keyAndMember tpl key member = .ok (encK key, encV member) :=
  bothArguments_eq_ok.mpr ⟨hK.serialize key, hV.serialize member⟩

omit [ServerTexts] [DecidableEq K] [DecidableEq V] in
include hV in
theorem serializedMembers_ok (members : UnorderedMap V Double) :
    (visit members).mapM (ZsetOperations.serializeMember tpl) = .ok ((visit members).map (Prod.map encV id)) :=
  Except.mapM_eq_map fun pair _ => by
    unfold ZsetOperations.serializeMember Template.serializeValue
    rw [hV.serialize]
    rfl

/-! ### Additions -/

omit [ServerTexts] [DecidableEq K] [DecidableEq V] in
include hV in
theorem visit_serializedMembers_perm (members : UnorderedMap V Double) :
    (visit (serializedMembers encV members)).Perm (members.pairs.map (Prod.map encV id)) := by
  have hvisited := (visit_perm members).map (Prod.map encV (id : Double → Double))
  have hnodup : (((visit members).map (Prod.map encV (id : Double → Double))).map Prod.fst).Nodup := by
    rw [List.map_map, show Prod.fst ∘ Prod.map encV (id : Double → Double) = encV ∘ Prod.fst from rfl, ← List.map_map]
    exact (((visit_perm members).map Prod.fst).nodup_iff.mpr (nodup_pairs members)).map hV.injective
  exact (visit_perm _).trans ((pairs_emplaceAll_perm hnodup).trans hvisited)

omit [DecidableEq K] [DecidableEq V] in
/-- What the server reads of the scores that the client sends. -/
theorem parse_members (hpasses : ServerScores.Passes P) (members : List (Bytes × Double)) :
    (members.map fun e => (P.toCharsDouble e.2, e.1)).mapM (fun p => (ServerScores.parse p.1).map (p.2, ·)) =
      readScores members := by
  rw [List.mapM_map]
  unfold readScores
  congr 1
  funext e
  rw [Function.comp_apply, hpasses.read]

include hK hV h

/-- ZADD, when the client sends anything. -/
theorem addsScores_of_related (hpasses : ServerScores.Passes P) (call : TypedCall K V) (key : K)
    (members : UnorderedMap V Double)
    (hallows : ∀ outcome s', s.AddsScores outcome s' key members → s.Allows tpl call outcome s') :
    Conforms tpl encK encV s call
      ((Interpretation.integer "ZADD").decode (db.map.zadd (encK key) ((visit (serializedMembers encV members)).map
        fun e => (P.toCharsDouble e.2, e.1))).1.toCmdReply >>= Value.plain)
      (db.map.zadd (encK key) ((visit (serializedMembers encV members)).map
        fun e => (P.toCharsDouble e.2, e.1))).2 := by
  have hperm := visit_serializedMembers_perm hV members
  have hread := readScores_map encV members.pairs
  unfold ServerMap.zadd
  rw [parse_members hpasses]
  unfold TypedKeyspace.AddsScores at hallows
  cases hscores : readScores members.pairs with
  | none =>
    rw [hscores] at hread hallows
    have hnone : readScores (visit (serializedMembers encV members)) = none := by
      cases hserver : readScores (visit (serializedMembers encV members)) with
      | none => rfl
      | some pairs =>
        obtain ⟨scores, hsome, -⟩ := exists_readScores_of_perm hperm.symm hserver
        rw [hread] at hsome
        cases hsome
    rw [hnone]
    exact ⟨s, hallows _ _ ⟨rfl, rfl⟩, h⟩
  | some scores =>
    rw [hscores] at hread hallows
    obtain ⟨pairs, hpairs, hpairsPerm⟩ := exists_readScores_of_perm hperm hread
    rw [hpairs]
    have hmembers : scores.map Prod.fst = members.keys := by
      rw [← map_fst_pairs, ← readScores_eq_some_iff.mp hscores, List.map_map]
      rfl
    have hnodup : (scores.map Prod.fst).Nodup := hmembers ▸ members.keys_nodup
    have hencoded := Represents.encoded hV.injective (id : Score → Score) (pairs_emplaceAll_perm hnodup).symm
    have hencodedNodup : ((scores.map (Prod.map encV (id : Score → Score))).map Prod.fst).Nodup := by
      rw [List.map_map, show Prod.fst ∘ Prod.map encV (id : Score → Score) = encV ∘ Prod.fst from rfl, ← List.map_map]
      exact hnodup.map hV.injective
    refine conforms_onZset hK.injective h (fun _ => rfl) hallows rfl fun z f hz =>
      ⟨_, ⟨?_, rfl⟩, hz.union hencoded (hpairsPerm.trans (pairs_emplaceAll_perm hencodedNodup).symm)⟩
    have hnew (v : V) : encV v ∉ z ↔ v ∉ f := (hz.mem_iff v).not
    have hcount := RepresentsSet.card_filter_image hV.injective (p := (· ∉ z)) (q := (· ∉ f)) hnew members.keys
    have hkeys : (pairs.map Prod.fst).toFinset = (members.keys.map encV).toFinset := by
      rw [List.toFinset_eq_of_perm _ _ (hpairsPerm.map Prod.fst), ← hmembers, List.map_map, List.map_map]
      rfl
    refine (read_signed _ "ZADD").trans ?_
    rw [hkeys, hcount]

theorem zadd_conforms (hpasses : ServerScores.Passes P) (key : K) (members : UnorderedMap V Double) :
    CallConforms tpl encK encV o db s (.zadd key members) := by
  have hplan := TypedPlan.ofRequest_ok (thenKey_ok hK (serializedMembers_ok hV members) key)
    (fun p => .zadd p.2 (emplaceAll ∅ p.1)) (Value.plain (K := K) (V := V))
  have hentries : (serializedMembers encV members).entries = [] ↔ members.entries = [] := by
    rw [serializedMembers, entries_emplaceAll_eq_nil, List.map_eq_nil_iff, visit_eq_nil_iff]
  by_cases hempty : members.entries = []
  · refine conforms_of_answer h hplan (if_pos (List.isEmpty_iff.mpr (hentries.mpr hempty))) ?_
    unfold TypedKeyspace.Allows
    exact (if_pos hempty).mpr ⟨rfl, rfl⟩
  · have hsend : (Operation.zadd (encK key) (serializedMembers encV members)).plan =
        .send (("ZADD" : Bytes) :: encK key :: (visit (serializedMembers encV members)).flatMap fun e =>
          [P.toCharsDouble e.2, e.1]) (.integer "ZADD") := by
      refine (if_neg (by simpa using hentries.not.mpr hempty)).trans ?_
      rw [zaddArguments_eq]
      rfl
    refine conforms_call hplan hsend rfl id ?_
    exact addsScores_of_related hK hV h hpasses _ key members fun _ _ ha => cast (if_neg hempty).symm ha

/-! ### Removals and increments -/

theorem zrem_conforms (key : K) (members : List V) : CallConforms tpl encK encV o db s (.zrem key members) := by
  have hplan := TypedPlan.ofRequest_ok (thenKey_ok hK (hV.mapM_serialize members) key)
    (fun p => .zrem p.2 p.1) (Value.plain (K := K) (V := V))
  by_cases hmembers : members = []
  · subst hmembers
    refine conforms_of_answer h hplan rfl ?_
    unfold TypedKeyspace.Allows
    exact (if_pos rfl).mpr ⟨rfl, rfl⟩
  · refine conforms_call hplan (if_neg (by simpa using hmembers)) rfl id ?_
    refine conforms_onZset hK.injective h (fun _ => rfl) (fun _ _ ha => cast (if_neg hmembers).symm ha) rfl
      fun z f hz => ?_
    obtain ⟨herased, hcount⟩ := hz.eraseAll hV.injective members
    exact ⟨_, ⟨(read_signed _ "ZREM").trans (by rw [hcount]), rfl⟩, herased⟩

theorem zincrby_conforms (hpasses : ServerScores.Passes P) (key : K) (increment : Double) (member : V) :
    CallConforms tpl encK encV o db s (.zincrby key increment member) := by
  refine conforms_call (TypedPlan.ofRequest_ok (keyAndMember_ok hK hV key member) _ _) rfl rfl id ?_
  have hallows : ∀ outcome s', s.IncrementsScore outcome s' key increment member →
      s.Allows tpl (.zincrby key increment member) outcome s' := fun _ _ ha => ha
  unfold TypedKeyspace.IncrementsScore at hallows
  unfold ServerMap.command ServerMap.zincrby
  dsimp only
  rw [hpasses.read]
  cases hdelta : Score.ofDouble? increment with
  | none =>
    rw [hdelta] at hallows
    exact ⟨s, hallows _ _ ⟨rfl, rfl⟩, h⟩
  | some delta =>
    rw [hdelta] at hallows
    refine conforms_onZset hK.injective h (fun _ => rfl) hallows rfl fun z f hz => ?_
    rw [hz.lookup, Option.map_id, id]
    cases Score.increment (f.lookup member) delta with
    | none => exact ⟨f, ⟨rfl, rfl⟩, hz⟩
    | some score => exact ⟨_, ⟨read_score hpasses score, rfl⟩, hz.insert hV.injective member score⟩

theorem zscore_conforms (hpasses : ServerScores.Passes P) (key : K) (member : V) :
    CallConforms tpl encK encV o db s (.zscore key member) := by
  refine conforms_call (TypedPlan.ofRequest_ok (keyAndMember_ok hK hV key member) _ _) rfl rfl id ?_
  refine conforms_onZset hK.injective h (fun _ => rfl) (fun _ _ ha => ha) rfl fun z f hz => ⟨f, ⟨?_, rfl⟩, hz⟩
  dsimp only
  rw [hz.lookup, Option.map_id]
  exact read_optionalScore hpasses (f.lookup member) "ZSCORE"

/-! ### Rankings -/

/-- ZRANGE and ZREVRANGE, whose reply is read as what is ranked. -/
theorem readsRanking_of_related (call : TypedCall K V) (key : K) (start stop : Int) (backwards : Bool)
    {withScores : Bool} {i : Interpretation} {result : Value → Outcome (TypedValue K V)}
    {value : List (V × Score) → TypedValue K V}
    (herror : ∀ text, (i.decode (Reply.error text).toCmdReply >>= result) = .error (.redisError text))
    (hread : ∀ l : List (V × Score),
      (i.decode (Reply.members withScores (l.map (Prod.map encV id))).toCmdReply >>= result) = .ok (value l))
    (hallows : ∀ outcome s', s.ReadsRanking outcome s' key tpl start stop backwards value →
      s.Allows tpl call outcome s') {answer : Reply × ServerMap}
    (hanswer : answer = db.map.onZset (encK key) fun z => (.members withScores
      (ListDatum.range (if backwards then (ranking z).reverse else ranking z) start stop), z)) :
    Conforms tpl encK encV s call (i.decode answer.1.toCmdReply >>= result) answer.2 := by
  refine conforms_onZset hK.injective h herror hallows hanswer fun z f hz => ?_
  obtain ⟨l, hl, hranked⟩ := exists_ranked hV hz
  refine ⟨f, ⟨rfl, l, hranked, ?_⟩, hz⟩
  have hrange : ListDatum.range (if backwards then (ranking z).reverse else ranking z) start stop =
      (ListDatum.range (if backwards then l.reverse else l) start stop).map (Prod.map encV id) := by
    rw [← ListDatum.range_map, hl, apply_ite (List.map (Prod.map encV id)), List.map_reverse]
  rw [hrange]
  exact hread _

theorem zrange_conforms (key : K) (start stop : Int) :
    CallConforms tpl encK encV o db s (.zrange key start stop) := by
  refine conforms_call (TypedPlan.ofRequest_ok (hK.serialize key) _ _) rfl rfl id ?_
  exact readsRanking_of_related hK hV h (.zrange key start stop) key start stop false (fun _ => rfl)
    (fun l => read_members hV l "ZRANGE") (fun _ _ ha => ha) rfl

theorem zrevrange_conforms (key : K) (start stop : Int) :
    CallConforms tpl encK encV o db s (.zrevrange key start stop) := by
  refine conforms_call (TypedPlan.ofRequest_ok (hK.serialize key) _ _) rfl rfl id ?_
  exact readsRanking_of_related hK hV h (.zrevrange key start stop) key start stop true (fun _ => rfl)
    (fun l => read_members hV l "ZREVRANGE") (fun _ _ ha => ha) rfl

theorem zrangeWithscores_conforms (hpasses : ServerScores.Passes P) (key : K) (start stop : Int) :
    CallConforms tpl encK encV o db s (.zrangeWithscores key start stop) := by
  refine conforms_call (TypedPlan.ofRequest_ok (hK.serialize key) _ _) rfl rfl id ?_
  exact readsRanking_of_related hK hV h (.zrangeWithscores key start stop) key start stop false (fun _ => rfl)
    (fun l => read_scores hV hpasses l "ZRANGE") (fun _ _ ha => ha) rfl

theorem zrevrangeWithscores_conforms (hpasses : ServerScores.Passes P) (key : K) (start stop : Int) :
    CallConforms tpl encK encV o db s (.zrevrangeWithscores key start stop) := by
  refine conforms_call (TypedPlan.ofRequest_ok (hK.serialize key) _ _) rfl rfl id ?_
  exact readsRanking_of_related hK hV h (.zrevrangeWithscores key start stop) key start stop true (fun _ => rfl)
    (fun l => read_scores hV hpasses l "ZREVRANGE") (fun _ _ ha => ha) rfl

end Calls

end Redisdal
