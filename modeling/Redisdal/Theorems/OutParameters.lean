import Mathlib.Data.List.ReduceOption
import Redisdal.HashOperations
import Redisdal.Theorems.Requests

/-! # The out-parameters of the typed facade

`keys`, the batch `hget` and `hscan` of the typed facade deserialize and store one element after the other.
When an element fails, what stood before it has been stored. -/

namespace Redisdal

/-- A call throws and its container is as before, or returns and the container is complete. -/
structure AllOrNothing {σ C W α : Type} (before : UnorderedMap C W) (Complete : UnorderedMap C W → Prop)
    (outcome : Except Exn α × (UnorderedMap C W × σ)) : Prop where
  nothing : ∀ e, outcome.1 = .error e → outcome.2.1.toFinmap = before.toFinmap
  all : ∀ a, outcome.1 = .ok a → Complete outcome.2.1

namespace AllOrNothing
variable {σ C W α : Type} {before m : UnorderedMap C W} {Complete : UnorderedMap C W → Prop} {t : σ}

theorem of_untouched (e : Exn) : AllOrNothing before Complete ((.error e : Except Exn α), (before, t)) :=
  ⟨fun _ _ => rfl, fun _ h => by cases h⟩

theorem ok_iff {a : α} : AllOrNothing before Complete (.ok a, (m, t)) ↔ Complete m :=
  ⟨fun h => h.all a rfl, fun h => ⟨fun _ he => (by cases he), fun _ _ => h⟩⟩

theorem error_iff {e : Exn} :
    AllOrNothing before Complete ((.error e : Except Exn α), (m, t)) ↔ m.toFinmap = before.toFinmap :=
  ⟨fun h => h.nothing e rfl, fun h => ⟨fun _ _ => h, fun _ ha => by cases ha⟩⟩

/-- The outcome of a loop that decodes and stores: it is all or nothing when nothing fails, or when what was
    stored before the failure changes nothing. -/
theorem ending_iff {f : Option Exn} (hcomplete : f = none → Complete m) :
    AllOrNothing before Complete (Program.ending f, (m, t)) ↔ f = none ∨ m.toFinmap = before.toFinmap := by
  cases f with
  | none => exact iff_of_true (ok_iff.mpr (hcomplete rfl)) (Or.inl rfl)
  | some e => exact error_iff.trans (by simp)

theorem resume_pure_iff {β : Type} {x : Except Exn α} {b : β} :
    AllOrNothing before Complete (Program.resume (fun _ => pure b) (x, (m, t))) ↔
      AllOrNothing before Complete (x, (m, t)) := by
  cases x with
  | error e => exact error_iff.trans error_iff.symm
  | ok a => exact ok_iff.trans ok_iff.symm

end AllOrNothing

/-- A call of the string client ends in a throw of the executor, or in a reply that it rejects, or goes on
    with what it reads from the reply; only the last reaches the caller's container. -/
theorem call_cases {σ C β γ : Type} (E : Executor σ) (argv : List Bytes) (f : CmdReply → Outcome β)
    (k : β → Program Exn (C × σ) γ) (m : C) (s : σ) :
    (∃ e t, (E argv).run s = (.error e, t) ∧
        (((CmdOps.cmdExecv E argv).decode f).lift >>= k).run (m, s) = (.error e, (m, t))) ∨
      ∃ reply t, (E argv).run s = (.ok reply, t) ∧
        ((∃ e, f reply.toCmdReply = .error e ∧
            (((CmdOps.cmdExecv E argv).decode f).lift >>= k).run (m, s) = (.error e, (m, t))) ∨
          ∃ b, f reply.toCmdReply = .ok b ∧
            (((CmdOps.cmdExecv E argv).decode f).lift >>= k).run (m, s) = (k b).run (m, t)) := by
  rw [Program.run_bind, Program.run_lift, Program.run_decode, CmdOps.cmdExecv, Program.run_bind]
  rcases (E argv).run s with ⟨e | reply, t⟩
  · exact Or.inl ⟨e, t, rfl, rfl⟩
  · refine Or.inr ⟨reply, t, rfl, ?_⟩
    simp only [Program.resume_ok, Program.run_pure, Program.run_ofExcept]
    cases f reply.toCmdReply with
    | error e => exact Or.inl ⟨e, rfl, rfl⟩
    | ok b => exact Or.inr ⟨b, rfl, rfl⟩

variable [Platform] {K V σ : Type} [DecidableEq K] (tpl : Template K V) (E : Executor σ)

/-! ### `keys` -/

/-- The texts of a KEYS reply in the order in which the loop visits them. -/
def visitedKeys (texts : List Bytes) : List Bytes := (visit (Client.insertKeys ∅ texts)).map Prod.fst

omit [DecidableEq K] in
theorem mem_visitedKeys {texts : List Bytes} {text : Bytes} : text ∈ visitedKeys texts ↔ text ∈ texts := by
  rw [visitedKeys, ((visit_perm _).map Prod.fst).mem_iff, UnorderedMap.map_fst_pairs, ← AList.mem_keys,
    Client.insertKeys, UnorderedMap.mem_emplaceAll]
  simp [Function.comp_def]

/-- The keys decoded before the first text that fails. -/
def decodedKeys (texts : List Bytes) : List K × Option Exn :=
  Program.decodePrefix tpl.deserializeKey (visitedKeys texts)

/-- The caller's set holds what it held, and the key of every text of the reply. -/
def KeysComplete (pattern : Bytes) (before : UnorderedSet K) (s : σ) (after : UnorderedSet K) : Prop :=
  ∃ reply t texts, (E ["KEYS", pattern]).run s = (.ok reply, t) ∧
    Client.stringsReply "KEYS" reply.toCmdReply = .ok texts ∧
    (∀ text ∈ texts, ∃ k, tpl.deserializeKey text = .ok k) ∧
    ∀ k, k ∈ after ↔ k ∈ before ∨ ∃ text ∈ texts, tpl.deserializeKey text = .ok k

/-- No key of the reply fails, or every key decoded before the failure was in the caller's set. -/
def KeysSafe (pattern : Bytes) (before : UnorderedSet K) (s : σ) : Prop :=
  ∀ reply t texts, (E ["KEYS", pattern]).run s = (.ok reply, t) →
    Client.stringsReply "KEYS" reply.toCmdReply = .ok texts →
    (decodedKeys tpl texts).2 = none ∨ ∀ k ∈ (decodedKeys tpl texts).1, k ∈ before

theorem run_storeKeys (texts : List Bytes) (m : UnorderedSet K) (t : σ) :
    (forM (visitedKeys texts) fun sKey => Program.ofExcept (tpl.deserializeKey sKey) >>= fun key =>
        Program.modify fun s => (s.1.emplace key (), s.2) : Program Exn (UnorderedSet K × σ) Unit).run (m, t) =
      (Program.ending (decodedKeys tpl texts).2,
        (m.emplaceAll ((decodedKeys tpl texts).1.map fun k => (k, ())), t)) := by
  rw [Program.run_forM_decode_fst _ fun k (m : UnorderedSet K) => m.emplace k (), UnorderedMap.emplaceAll,
    List.foldl_map]
  rfl

omit [Platform] in
theorem emplaceAll_keys_iff {m : UnorderedSet K} {l : List K} :
    (m.emplaceAll (l.map fun k => (k, ()))).toFinmap = m.toFinmap ↔ ∀ k ∈ l, k ∈ m := by
  rw [UnorderedMap.toFinmap_eq_iff]
  constructor
  · intro h k hk
    rw [← AList.lookup_isSome, ← h k, AList.lookup_isSome, UnorderedMap.mem_emplaceAll]
    exact Or.inr (by simpa using hk)
  · intro h k
    rw [UnorderedMap.lookup_emplaceAll]
    cases hm : AList.lookup k m with
    | some u => rfl
    | none =>
      have hk : k ∉ l := fun hk => AList.lookup_eq_none.mp hm (h k hk)
      rw [Option.none_or, List.lookup_eq_none_iff]
      rintro e he
      obtain ⟨k', hk', rfl⟩ := List.mem_map.mp he
      exact bne_iff_ne.mpr fun heq => hk (heq ▸ hk')

theorem keysComplete_of_none {pattern : Bytes} {m : UnorderedSet K} {reply : Reply} {texts : List Bytes} {s t : σ}
    (hrun : (E ["KEYS", pattern]).run s = (.ok reply, t))
    (hr : Client.stringsReply "KEYS" reply.toCmdReply = .ok texts) (h : (decodedKeys tpl texts).2 = none) :
    KeysComplete tpl E pattern m s (m.emplaceAll ((decodedKeys tpl texts).1.map fun k => (k, ()))) := by
  refine ⟨reply, t, texts, hrun, hr, fun text htext => ?_, fun k => ?_⟩
  · obtain ⟨k, -, hk⟩ := Program.exists_mem_decodePrefix h (mem_visitedKeys.mpr htext)
    exact ⟨k, hk⟩
  · rw [UnorderedMap.mem_emplaceAll]
    refine or_congr_right ?_
    simp only [List.map_map, Function.comp_def, List.map_id']
    constructor
    · intro hk
      obtain ⟨text, htext, hd⟩ := Program.mem_decodePrefix hk
      exact ⟨text, mem_visitedKeys.mp htext, hd⟩
    · intro hex
      obtain ⟨text, htext, hd⟩ := hex
      obtain ⟨k', hk', hd'⟩ := Program.exists_mem_decodePrefix h (mem_visitedKeys.mpr htext)
      cases hd.symm.trans hd'
      exact hk'

theorem keys_allOrNothing_iff (pattern : Bytes) (m : UnorderedSet K) (s : σ) :
    AllOrNothing m (KeysComplete tpl E pattern m s) ((tpl.keys E pattern).run (m, s)) ↔
      KeysSafe tpl E pattern m s := by
  unfold Template.keys KeysSafe
  rw [withLocal_keys]
  rcases call_cases E ["KEYS", pattern] _ _ m s with ⟨e, t, hrun, h⟩ | ⟨reply, t, hrun, ⟨e, hr, h⟩ | ⟨found, hr, h⟩⟩
  · rw [h, hrun]
    exact iff_of_true (.of_untouched e) fun _ _ _ h' => by cases h'
  · rw [h, hrun]
    refine iff_of_true (.of_untouched e) fun reply' t' texts h' htexts => ?_
    cases h'
    rw [htexts] at hr
    cases hr
  · obtain ⟨texts, htexts, rfl⟩ := Except.map_eq_ok_iff.mp hr
    rw [h.trans (run_storeKeys tpl texts m t),
      AllOrNothing.ending_iff (keysComplete_of_none tpl E hrun htexts), emplaceAll_keys_iff, hrun]
    constructor
    · intro hsafe reply' t' texts' h' htexts'
      cases h'
      rw [htexts] at htexts'
      cases htexts'
      exact hsafe
    · exact fun hsafe => hsafe reply t texts rfl htexts

/-! ### `hscan` -/

/-- The string map that the loop visits: what the string client inserts into an empty one. -/
def serializedPage (page : UnorderedMap Bytes Bytes) : UnorderedMap Bytes Bytes :=
  UnorderedMap.emplaceAll ∅ (visit page)

theorem mem_serializedPage {page : UnorderedMap Bytes Bytes} {p : Bytes × Bytes} :
    p ∈ visit (serializedPage page) ↔ p ∈ page.pairs := by
  obtain ⟨field, value⟩ := p
  rw [(visit_perm _).mem_iff, UnorderedMap.mem_pairs, serializedPage, UnorderedMap.lookup_emplaceAll_first,
    firstValue_visit, AList.lookup_empty, Option.none_or, UnorderedMap.mem_pairs]

/-- The pairs of a page decoded before the first one that fails, in the order of the loop. -/
def decodedPage (page : UnorderedMap Bytes Bytes) : List (K × V) × Option Exn :=
  Program.decodePrefix (HashOperations.fieldAndValue tpl) (visit (serializedPage page))

/-- The caller's map holds the deserialized pairs of the page, and nothing else. -/
def HscanComplete (key : K) (cursor : UInt64) (pattern : K) (count : UInt32) (s : σ) (after : UnorderedMap K V) :
    Prop :=
  ∃ args reply t next page, HashOperations.keyAndField tpl key pattern = .ok args ∧
    (E (hscanArguments args.1 cursor args.2 count)).run s = (.ok reply, t) ∧
    Client.hscanReply reply.toCmdReply = .ok (next, page) ∧
    (∀ p ∈ page.pairs, ∃ e, HashOperations.fieldAndValue tpl p = .ok e) ∧
    (∀ k, k ∈ after ↔ ∃ p ∈ page.pairs, ∃ v, HashOperations.fieldAndValue tpl p = .ok (k, v)) ∧
    ∀ k v, AList.lookup k after = some v → ∃ p ∈ page.pairs, HashOperations.fieldAndValue tpl p = .ok (k, v)

/-- No pair of the page fails, or the pairs decoded before the failure are just what the map held. -/
def HscanSafe (key : K) (cursor : UInt64) (pattern : K) (count : UInt32) (before : UnorderedMap K V) (s : σ) : Prop :=
  ∀ args reply t next page, HashOperations.keyAndField tpl key pattern = .ok args →
    (E (hscanArguments args.1 cursor args.2 count)).run s = (.ok reply, t) →
    Client.hscanReply reply.toCmdReply = .ok (next, page) →
    (decodedPage tpl page).2 = none ∨ ∀ k, (decodedPage tpl page).1.lookup k = AList.lookup k before

theorem run_storePage (page : UnorderedMap Bytes Bytes) (m : UnorderedMap K V) (t : σ) :
    (forM (visit (serializedPage page)) fun pair =>
        Program.ofExcept (HashOperations.fieldAndValue tpl pair) >>= fun e =>
          Program.modify fun s => (s.1.emplace e.1 e.2, s.2) : Program Exn (UnorderedMap K V × σ) Unit).run (m, t) =
      (Program.ending (decodedPage tpl page).2, (m.emplaceAll (decodedPage tpl page).1, t)) :=
  Program.run_forM_decode_fst _ (fun (e : K × V) (m : UnorderedMap K V) => m.emplace e.1 e.2) _ m t

theorem hscanComplete_of_none {key : K} {cursor : UInt64} {pattern : K} {count : UInt32} {args : Bytes × Bytes}
    {reply : Reply} {next : UInt64} {page : UnorderedMap Bytes Bytes} {s t : σ}
    (hargs : HashOperations.keyAndField tpl key pattern = .ok args)
    (hrun : (E (hscanArguments args.1 cursor args.2 count)).run s = (.ok reply, t))
    (hr : Client.hscanReply reply.toCmdReply = .ok (next, page)) (h : (decodedPage tpl page).2 = none) :
    HscanComplete tpl E key cursor pattern count s (UnorderedMap.emplaceAll ∅ (decodedPage tpl page).1) := by
  refine ⟨args, reply, t, next, page, hargs, hrun, hr, fun p hp => ?_, fun k => ?_, fun k v hv => ?_⟩
  · obtain ⟨e, -, he⟩ := Program.exists_mem_decodePrefix h (mem_serializedPage.mpr hp)
    exact ⟨e, he⟩
  · rw [UnorderedMap.mem_emplaceAll]
    constructor
    · intro hor
      rcases hor with hk | hk
      · exact absurd hk (AList.notMem_empty k)
      · obtain ⟨e, he, rfl⟩ := List.mem_map.mp hk
        obtain ⟨p, hp, hd⟩ := Program.mem_decodePrefix he
        exact ⟨p, mem_serializedPage.mp hp, e.2, hd⟩
    · intro hex
      obtain ⟨p, hp, v, hd⟩ := hex
      obtain ⟨e, he, hd'⟩ := Program.exists_mem_decodePrefix h (mem_serializedPage.mpr hp)
      cases hd.symm.trans hd'
      exact Or.inr (List.mem_map_of_mem he)
  · rw [UnorderedMap.lookup_emplaceAll_empty] at hv
    obtain ⟨p, hp, hd⟩ := Program.mem_decodePrefix (UnorderedMap.mem_of_lookup hv)
    exact ⟨p, mem_serializedPage.mp hp, hd⟩

theorem hscan_allOrNothing_iff (key : K) (cursor : UInt64) (pattern : K) (count : UInt32) (m : UnorderedMap K V)
    (s : σ) :
    AllOrNothing m (HscanComplete tpl E key cursor pattern count s)
        ((HashOperations.hscan tpl E key cursor pattern count).run (m, s)) ↔
      HscanSafe tpl E key cursor pattern count m s := by
  unfold HashOperations.hscan HscanSafe
  cases hargs : HashOperations.keyAndField tpl key pattern with
  | error e => exact iff_of_true (.of_untouched e) fun _ _ _ _ _ h' => by cases h'
  | ok args =>
    rw [Program.ofExcept_ok_bind, withLocal_hscan]
    rcases call_cases E (hscanArguments args.1 cursor args.2 count) _ _ m s with
      ⟨e, t, hrun, h⟩ | ⟨reply, t, hrun, ⟨e, hr, h⟩ | ⟨found, hr, h⟩⟩
    · rw [h]
      refine iff_of_true (.of_untouched e) fun args' _ _ _ _ ha h' => ?_
      cases ha
      rw [hrun] at h'
      cases h'
    · rw [h]
      refine iff_of_true (.of_untouched e) fun args' _ _ next page ha h' hpage => ?_
      cases ha
      rw [hrun] at h'
      cases h'
      rw [hpage] at hr
      cases hr
    · obtain ⟨⟨next, page⟩, hpage, rfl⟩ := Except.map_eq_ok_iff.mp hr
      have hloop := congrArg (Program.resume fun _ => (pure next : Program Exn (UnorderedMap K V × σ) UInt64))
        (run_storePage tpl page ∅ t)
      rw [h.trans hloop, AllOrNothing.resume_pure_iff,
        AllOrNothing.ending_iff (hscanComplete_of_none tpl E hargs hrun hpage), UnorderedMap.toFinmap_eq_iff]
      simp only [UnorderedMap.lookup_emplaceAll_empty]
      constructor
      · intro hsafe args' reply' t' next' page' ha h' hpage'
        cases ha
        rw [hrun] at h'
        cases h'
        rw [hpage] at hpage'
        cases hpage'
        exact hsafe
      · exact fun hsafe => hsafe args reply t next page rfl hrun hpage

/-! ### The batch `hget` -/

/-- The serialized fields of the caller's map. -/
def serializedFields (m : UnorderedMap K (Option V)) : Outcome (List Bytes) :=
  (visit m).mapM fun pair => tpl.serializeKey pair.1

/-- The string map that is handed to the string client. -/
def fieldMap (fields : List Bytes) : UnorderedMap Bytes (Option Bytes) :=
  UnorderedMap.emplaceAll ∅ (fields.map fun field => (field, none))

/-- The fields that HMGET asked for, each with its value from the reply. -/
def answers (fields : List Bytes) (values : List (Option Bytes)) : List (Bytes × Option Bytes) :=
  (hmgetFields (fieldMap fields)).zip values

/-- The string map that the loop visits: what the string client makes of the one it was handed. -/
def answerMap (fields : List Bytes) (values : List (Option Bytes)) : UnorderedMap Bytes (Option Bytes) :=
  (fieldMap fields).insertAll (answers fields values)

/-- The update that one answer makes of a map with the fields of `m`: none where `m` has no such field. -/
def decodeField (m : UnorderedMap K (Option V)) (pair : Bytes × Option Bytes) : Outcome (Option (K × Option V)) := do
  let field ← tpl.deserializeKey pair.1
  if field ∈ m then do
    let value ← pair.2.mapM tpl.deserializeValue
    pure (some (field, value))
  else pure none

/-- The updates decoded before the first answer that fails, in the order of the loop. -/
def decodedFields (m : UnorderedMap K (Option V)) (found : UnorderedMap Bytes (Option Bytes)) :
    List (K × Option V) × Option Exn :=
  ((Program.decodePrefix (decodeField tpl m) (visit found)).1.reduceOption,
    (Program.decodePrefix (decodeField tpl m) (visit found)).2)

/-- The caller's map has the fields that it had, and under each the deserialized value of an answer for it. -/
def HgetComplete (key : K) (before : UnorderedMap K (Option V)) (s : σ) (after : UnorderedMap K (Option V)) : Prop :=
  (before.entries = [] ∧ after = before) ∨
    ∃ fields sKey reply t values, serializedFields tpl before = .ok fields ∧ tpl.serializeKey key = .ok sKey ∧
      (E ("HMGET" :: sKey :: hmgetFields (fieldMap fields))).run s = (.ok reply, t) ∧
      Client.hmgetReply (hmgetFields (fieldMap fields)).length reply.toCmdReply = .ok values ∧
      (∀ p ∈ answers fields values, ∃ u, decodeField tpl before p = .ok u) ∧
      (∀ k, k ∈ after ↔ k ∈ before) ∧
      ∀ k, (∃ p ∈ answers fields values, ∃ v, decodeField tpl before p = .ok (some (k, v)) ∧
          AList.lookup k after = some v) ∨
        ((∀ p ∈ answers fields values, ∀ v, decodeField tpl before p ≠ .ok (some (k, v))) ∧
          AList.lookup k after = AList.lookup k before)

/-- No answer fails, or the last value decoded for a field before the failure is the one that it had. -/
def HgetSafe (key : K) (before : UnorderedMap K (Option V)) (s : σ) : Prop :=
  before.entries ≠ [] → ∀ fields sKey reply t values, serializedFields tpl before = .ok fields →
    tpl.serializeKey key = .ok sKey →
    (E ("HMGET" :: sKey :: hmgetFields (fieldMap fields))).run s = (.ok reply, t) →
    Client.hmgetReply (hmgetFields (fieldMap fields)).length reply.toCmdReply = .ok values →
    (decodedFields tpl before (answerMap fields values)).2 = none ∨
      ∀ k v, (decodedFields tpl before (answerMap fields values)).1.reverse.lookup k = some v →
        AList.lookup k before = some v

omit [Platform] in
theorem run_storeField (m : UnorderedMap K (Option V)) (pair : Bytes × Option Bytes) (t : σ) :
    (HashOperations.storeField tpl pair).run (m, t) =
      match decodeField tpl m pair with
      | .error e => (.error e, (m, t))
      | .ok u => (.ok (), (m.insertAll u.toList, t)) := by
  unfold HashOperations.storeField decodeField
  cases tpl.deserializeKey pair.1 with
  | error e => rfl
  | ok field =>
    rw [Program.ofExcept_ok_bind, Program.run_bind, Program.run_get, Program.resume_ok, Except.ok_bind]
    by_cases hm : field ∈ m
    · rw [if_pos hm, if_pos hm]
      cases pair.2.mapM tpl.deserializeValue <;> rfl
    · rw [if_neg hm, if_neg hm]
      rfl

omit [Platform] in
theorem mem_of_decodeField {m : UnorderedMap K (Option V)} {pair : Bytes × Option Bytes} {e : K × Option V}
    (h : decodeField tpl m pair = .ok (some e)) : e.1 ∈ m := by
  unfold decodeField at h
  cases hk : tpl.deserializeKey pair.1 with
  | error e => rw [hk] at h; cases h
  | ok field =>
    rw [hk, Except.ok_bind] at h
    split at h
    · next hm =>
      cases hv : pair.2.mapM tpl.deserializeValue with
      | error e => rw [hv] at h; cases h
      | ok value =>
        rw [hv] at h
        cases h
        exact hm
    · cases h

omit [Platform] in
/-- The loop over the answers; an update adds no field, so that the answers are decoded against the first map. -/
theorem run_storeFields (l : List (Bytes × Option Bytes)) (m : UnorderedMap K (Option V)) (t : σ) :
    (forM l (HashOperations.storeField tpl)).run (m, t) =
      (Program.ending (Program.decodePrefix (decodeField tpl m) l).2,
        (m.insertAll (Program.decodePrefix (decodeField tpl m) l).1.reduceOption, t)) := by
  induction l generalizing m with
  | nil => rfl
  | cons p l ih =>
    rw [List.forM_cons, Program.run_bind, run_storeField]
    cases hp : decodeField tpl m p with
    | error e =>
      simp only [Program.decodePrefix, hp]
      rfl
    | ok u =>
      have hu : ∀ e ∈ u.toList, e.1 ∈ m := fun e he => by
        rw [Option.mem_toList] at he
        cases he
        exact mem_of_decodeField tpl hp
      have hdecode : decodeField tpl (m.insertAll u.toList) = decodeField tpl m := by
        funext q
        unfold decodeField
        simp only [UnorderedMap.mem_insertAll_of_subset hu]
      show (forM l (HashOperations.storeField tpl)).run (m.insertAll u.toList, t) = _
      rw [ih, hdecode]
      simp only [Program.decodePrefix, hp]
      cases u with
      | none => rfl
      | some e => rfl

omit [DecidableEq K] in
theorem nodup_hmgetFields (out : UnorderedMap Bytes (Option Bytes)) : (hmgetFields out).Nodup :=
  ((visit_perm out).map Prod.fst).nodup_iff.mpr (UnorderedMap.nodup_pairs out)

omit [DecidableEq K] in
theorem mem_answerMap {fields : List Bytes} {values : List (Option Bytes)}
    (hlen : values.length = (hmgetFields (fieldMap fields)).length) (p : Bytes × Option Bytes) :
    p ∈ visit (answerMap fields values) ↔ p ∈ answers fields values := by
  have hfst : (answers fields values).map Prod.fst = hmgetFields (fieldMap fields) :=
    List.map_fst_zip (Nat.le_of_eq hlen.symm)
  rw [(visit_perm _).mem_iff, answerMap, UnorderedMap.mem_pairs_insertAll]
  · rw [hfst]
    exact nodup_hmgetFields _
  · intro k hk
    rw [hfst]
    exact mem_hmgetFields.mpr hk

theorem hgetComplete_of_none {key : K} {m : UnorderedMap K (Option V)} {fields : List Bytes} {sKey : Bytes}
    {reply : Reply} {values : List (Option Bytes)} {s t : σ} (hfields : serializedFields tpl m = .ok fields)
    (hkey : tpl.serializeKey key = .ok sKey)
    (hrun : (E ("HMGET" :: sKey :: hmgetFields (fieldMap fields))).run s = (.ok reply, t))
    (hr : Client.hmgetReply (hmgetFields (fieldMap fields)).length reply.toCmdReply = .ok values)
    (h : (decodedFields tpl m (answerMap fields values)).2 = none) :
    HgetComplete tpl E key m s (m.insertAll (decodedFields tpl m (answerMap fields values)).1) := by
  have hmem := mem_answerMap (length_hmgetReply hr)
  have hdecoded {k : K} {v : Option V} : (k, v) ∈ (decodedFields tpl m (answerMap fields values)).1 ↔
      ∃ p ∈ answers fields values, decodeField tpl m p = .ok (some (k, v)) := by
    rw [decodedFields, List.reduceOption_mem_iff]
    constructor
    · intro hk
      obtain ⟨p, hp, hd⟩ := Program.mem_decodePrefix hk
      exact ⟨p, (hmem p).mp hp, hd⟩
    · intro hex
      obtain ⟨p, hp, hd⟩ := hex
      obtain ⟨u, hu, hd'⟩ := Program.exists_mem_decodePrefix (d := decodeField tpl m) h ((hmem p).mpr hp)
      cases hd.symm.trans hd'
      exact hu
  refine Or.inr ⟨fields, sKey, reply, t, values, hfields, hkey, hrun, hr, fun p hp => ?_, fun k => ?_, fun k => ?_⟩
  · obtain ⟨u, -, hu⟩ := Program.exists_mem_decodePrefix (d := decodeField tpl m) h ((hmem p).mpr hp)
    exact ⟨u, hu⟩
  · refine UnorderedMap.mem_insertAll_of_subset (fun e he => ?_) k
    obtain ⟨p, -, hd⟩ := hdecoded.mp he
    exact mem_of_decodeField tpl hd
  · rw [UnorderedMap.lookup_insertAll]
    cases hl : (decodedFields tpl m (answerMap fields values)).1.reverse.lookup k with
    | some v =>
      left
      obtain ⟨p, hp, hd⟩ := hdecoded.mp (List.mem_reverse.mp (UnorderedMap.mem_of_lookup hl))
      exact ⟨p, hp, v, hd, rfl⟩
    | none =>
      refine Or.inr ⟨fun p hp v hd => ?_, rfl⟩
      obtain ⟨w, hw⟩ := UnorderedMap.exists_lookup_of_mem (List.mem_reverse.mpr (hdecoded.mpr ⟨p, hp, hd⟩))
      rw [hl] at hw
      cases hw

omit [DecidableEq K] in
theorem fieldMap_nonempty {m : UnorderedMap K (Option V)} {fields : List Bytes} (hm : m.entries ≠ [])
    (h : serializedFields tpl m = .ok fields) : (fieldMap fields).entries.isEmpty = false := by
  have hlen : fields.length = m.entries.length := by
    rw [← (Except.mapM_eq_ok_iff.mp h).length_eq, (visit_perm m).length_eq, UnorderedMap.pairs, List.length_map]
  obtain ⟨field, rest, rfl⟩ := List.exists_cons_of_ne_nil
    (List.ne_nil_of_length_pos (hlen ▸ List.length_pos_of_ne_nil hm))
  have hmem : field ∈ fieldMap (field :: rest) := UnorderedMap.mem_emplaceAll.mpr (Or.inr (by simp))
  rw [List.isEmpty_eq_false_iff]
  intro he
  rw [AList.mem_keys, AList.keys, he] at hmem
  cases hmem

theorem run_hgetMany_of_empty (key : K) {m : UnorderedMap K (Option V)} (s : σ) (hm : m.entries = []) :
    (HashOperations.hgetMany tpl E key).run (m, s) = (.ok (), (m, s)) := by
  unfold HashOperations.hgetMany
  rw [Program.run_bind, Program.run_get, Program.resume_ok]
  dsimp only
  rw [if_pos (by simp [hm])]
  rfl

/-- A call whose reply is read goes on with the loop over the answers. -/
theorem run_hgetMany {key : K} {m : UnorderedMap K (Option V)} {fields : List Bytes} {sKey : Bytes} {reply : Reply}
    {values : List (Option Bytes)} {s t : σ} (hm : m.entries ≠ []) (hfields : serializedFields tpl m = .ok fields)
    (hkey : tpl.serializeKey key = .ok sKey)
    (hrun : (E ("HMGET" :: sKey :: hmgetFields (fieldMap fields))).run s = (.ok reply, t))
    (hr : Client.hmgetReply (hmgetFields (fieldMap fields)).length reply.toCmdReply = .ok values) :
    (HashOperations.hgetMany tpl E key).run (m, s) =
      (Program.ending (decodedFields tpl m (answerMap fields values)).2,
        (m.insertAll (decodedFields tpl m (answerMap fields values)).1, t)) := by
  unfold HashOperations.hgetMany
  rw [Program.run_bind, Program.run_get, Program.resume_ok]
  dsimp only
  rw [if_neg (by simpa using hm)]
  show Program.run (Program.ofExcept (serializedFields tpl m) >>= _) (m, s) = _
  rw [hfields, Program.ofExcept_ok_bind, hkey, Program.ofExcept_ok_bind]
  show Program.run ((Program.withLocal (fieldMap fields) _).lift >>= _) (m, s) = _
  rw [withLocal_hgetMany E sKey (fieldMap_nonempty tpl hm hfields), Program.run_bind, Program.run_lift,
    Program.run_decode, CmdOps.cmdExecv, Program.run_bind]
  dsimp only
  rw [hrun, Program.resume_ok, Program.run_pure, Program.resume_ok, Program.run_ofExcept, hr]
  exact run_storeFields tpl (visit (answerMap fields values)) m t

theorem hget_allOrNothing_iff (key : K) (m : UnorderedMap K (Option V)) (s : σ) :
    AllOrNothing m (HgetComplete tpl E key m s) ((HashOperations.hgetMany tpl E key).run (m, s)) ↔
      HgetSafe tpl E key m s := by
  by_cases hm : m.entries = []
  · rw [run_hgetMany_of_empty tpl E key s hm]
    exact iff_of_true (AllOrNothing.ok_iff.mpr (Or.inl ⟨hm, rfl⟩)) fun hne => absurd hm hne
  unfold HashOperations.hgetMany HgetSafe
  rw [Program.run_bind, Program.run_get, Program.resume_ok]
  dsimp only
  rw [if_neg (by simpa using hm)]
  show AllOrNothing m _ (Program.run (Program.ofExcept (serializedFields tpl m) >>= _) (m, s)) ↔ _
  cases hfields : serializedFields tpl m with
  | error e => exact iff_of_true (.of_untouched e) fun _ _ _ _ _ _ h' => by cases h'
  | ok fields =>
    rw [Program.ofExcept_ok_bind]
    cases hkey : tpl.serializeKey key with
    | error e => exact iff_of_true (.of_untouched e) fun _ _ _ _ _ _ _ h' => by cases h'
    | ok sKey =>
      rw [Program.ofExcept_ok_bind]
      show AllOrNothing m _ (Program.run ((Program.withLocal (fieldMap fields) _).lift >>= _) (m, s)) ↔ _
      rw [withLocal_hgetMany E sKey (fieldMap_nonempty tpl hm hfields)]
      rcases call_cases E ("HMGET" :: sKey :: hmgetFields (fieldMap fields)) _ _ m s with
        ⟨e, t, hrun, h⟩ | ⟨reply, t, hrun, ⟨e, hr, h⟩ | ⟨found, hr, h⟩⟩
      · rw [h]
        refine iff_of_true (.of_untouched e) fun _ fields' sKey' _ _ _ hf hk h' => ?_
        cases hf
        cases hk
        rw [hrun] at h'
        cases h'
      · rw [h]
        refine iff_of_true (.of_untouched e) fun _ fields' sKey' _ _ values hf hk h' hvalues => ?_
        cases hf
        cases hk
        rw [hrun] at h'
        cases h'
        rw [hvalues] at hr
        cases hr
      · obtain ⟨values, hvalues, rfl⟩ := Except.map_eq_ok_iff.mp hr
        rw [h.trans (run_storeFields tpl (visit (answerMap fields values)) m t)]
        refine (AllOrNothing.ending_iff (hgetComplete_of_none tpl E hfields hkey hrun hvalues)).trans ?_
        rw [UnorderedMap.insertAll_toFinmap_iff]
        constructor
        · intro hsafe _ fields' sKey' reply' t' values' hf hk h' hvalues'
          cases hf
          cases hk
          rw [hrun] at h'
          cases h'
          rw [hvalues] at hvalues'
          cases hvalues'
          exact hsafe
        · exact fun hsafe => hsafe hm fields sKey reply t values rfl rfl hrun hvalues

/-- The three out-parameters are filled completely or left as they were, exactly when no element of the reply
    fails, or what stood before the one that fails changes nothing. -/
theorem out_parameters_iff :
    (∀ pattern (m : UnorderedSet K) (s : σ),
        AllOrNothing m (KeysComplete tpl E pattern m s) ((tpl.keys E pattern).run (m, s)) ↔
          KeysSafe tpl E pattern m s) ∧
      (∀ key (m : UnorderedMap K (Option V)) (s : σ),
        AllOrNothing m (HgetComplete tpl E key m s) ((HashOperations.hgetMany tpl E key).run (m, s)) ↔
          HgetSafe tpl E key m s) ∧
      ∀ key cursor pattern count (m : UnorderedMap K V) (s : σ),
        AllOrNothing m (HscanComplete tpl E key cursor pattern count s)
            ((HashOperations.hscan tpl E key cursor pattern count).run (m, s)) ↔
          HscanSafe tpl E key cursor pattern count m s :=
  ⟨keys_allOrNothing_iff tpl E, hget_allOrNothing_iff tpl E, hscan_allOrNothing_iff tpl E⟩

/-- A template that cannot read a key from the text `bad`. -/
def pickyTemplate : Template Bytes Bytes where
  keySerializer := ⟨pure, fun text => if text = "bad" then throw (.foreign 0) else pure text⟩
  valueSerializer := stringSerializer

/-- A server with the keys `bad` and `good`. -/
def twoKeys : Executor Unit := fun _ => pure (.array [.string "bad", .string "good"])

omit [Platform] in
/-- `keys` throws on the key `bad` and leaves the key `good` in the caller's set. -/
theorem not_allOrNothing_keys : ¬AllOrNothing ∅ (KeysComplete pickyTemplate twoKeys "*" ∅ ())
    ((@Template.keys _ _ _ pickyTemplate twoKeys referencePlatform _ "*").run (∅, ())) := by
  intro h
  have hsame := UnorderedMap.toFinmap_eq_iff.mp (h.nothing (.foreign 0) rfl) "good"
  exact absurd hsame (by decide)

end Redisdal
