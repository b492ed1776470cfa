import Redisdal.Theorems.Decoding
import Redisdal.Theorems.OutParameters

/-! # The out-parameters of the string client

`keys`, the batch `hget` and `hscan` of the string client read the whole reply before they touch the caller's
container. -/

namespace Redisdal
variable {σ : Type} (E : Executor σ)

/-- The caller's set holds what it held, and every key of the reply. -/
def KeysAdded (pattern : Bytes) (before : UnorderedSet Bytes) (s : σ) (after : UnorderedSet Bytes) : Prop :=
  ∃ reply t texts, (E ["KEYS", pattern]).run s = (.ok reply, t) ∧
    ((reply = .nil ∧ texts = []) ∨ reply = .array (texts.map .string)) ∧
    ∀ key, key ∈ after ↔ key ∈ before ∨ key ∈ texts

variable [Platform]

/-- The caller's map has the fields that it had, and under each the element of the reply at the position of the
    field in the request. -/
def FieldsReplaced (key : Bytes) (before : UnorderedMap Bytes (Option Bytes)) (s : σ)
    (after : UnorderedMap Bytes (Option Bytes)) : Prop :=
  (before.entries = [] ∧ after = before) ∨
    ∃ values t, (E ("HMGET" :: key :: hmgetFields before)).run s = (.ok (.array (values.map Reply.ofOptional)), t) ∧
      values.length = (hmgetFields before).length ∧ (∀ field, field ∈ after ↔ field ∈ before) ∧
      ∀ p ∈ (hmgetFields before).zip values, AList.lookup p.1 after = some p.2

omit [Platform] in
/-- The caller's map has the entries that it had, and for every other field of the reply the first value that the
    reply gives it. -/
def FieldsAdded (key : Bytes) (cursor : UInt64) (pattern : Bytes) (count : UInt32)
    (before : UnorderedMap Bytes Bytes) (s : σ) (after : UnorderedMap Bytes Bytes) : Prop :=
  ∃ text n pairs t, (E (hscanArguments key cursor pattern count)).run s =
      (.ok (.array [.string text, .array (Reply.flatPairs pairs)]), t) ∧
    integralFromString .uint64 text = .ok n ∧
    ∀ field, AList.lookup field after = (AList.lookup field before).or (UnorderedMap.firstValue pairs field)

omit [Platform] in
theorem keys_allOrNothing (pattern : Bytes) (m : UnorderedSet Bytes) (s : σ) :
    AllOrNothing m (KeysAdded E pattern m s) ((Client.keys E pattern).run (m, s)) := by
  unfold Client.keys CmdOps.keys
  rcases call_cases E ["KEYS", pattern] _ _ m s with ⟨e, t, hrun, h⟩ | ⟨reply, t, hrun, ⟨e, hr, h⟩ | ⟨texts, hr, h⟩⟩
  · rw [h]
    exact .of_untouched e
  · rw [h]
    exact .of_untouched e
  · rw [h]
    refine AllOrNothing.ok_iff.mpr ⟨reply, t, texts, hrun, Reply.stringsReply_eq_ok_iff.mp hr, fun key => ?_⟩
    rw [Client.insertKeys, UnorderedMap.mem_emplaceAll, List.map_map]
    simp [Function.comp_def]

theorem hget_allOrNothing (key : Bytes) (m : UnorderedMap Bytes (Option Bytes)) (s : σ) :
    AllOrNothing m (FieldsReplaced E key m s) ((Client.hgetMany E key).run (m, s)) := by
  unfold Client.hgetMany CmdOps.hgetMany
  rw [Program.run_bind, Program.run_get, Program.resume_ok]
  dsimp only
  by_cases hm : m.entries = []
  · rw [if_pos (by simp [hm])]
    exact AllOrNothing.ok_iff.mpr (Or.inl ⟨hm, rfl⟩)
  rw [if_neg (by simpa using hm)]
  show AllOrNothing m _ ((((CmdOps.cmdExecv E ("HMGET" :: key :: hmgetFields m)).decode
    (Client.hmgetReply m.entries.length)).lift >>= Client.storeAll (hmgetFields m)).run (m, s))
  rcases call_cases E ("HMGET" :: key :: hmgetFields m) (Client.hmgetReply m.entries.length)
    (Client.storeAll (hmgetFields m)) m s with ⟨e, t, hrun, h⟩ | ⟨reply, t, hrun, ⟨e, hr, h⟩ | ⟨values, hr, h⟩⟩
  · rw [h]
    exact .of_untouched e
  · rw [h]
    exact .of_untouched e
  · obtain ⟨rfl, hsize⟩ := Reply.hmgetReply_eq_ok_iff.mp hr
    have hlen : values.length = (hmgetFields m).length := by rw [hsize, length_hmgetFields]
    have hfst : ((hmgetFields m).zip values).map Prod.fst = hmgetFields m := List.map_fst_zip (Nat.le_of_eq hlen.symm)
    have hnodup : (((hmgetFields m).zip values).map Prod.fst).Nodup := by
      rw [hfst]
      exact nodup_hmgetFields m
    rw [h, run_storeAll _ values m t hlen fun field hfield => mem_hmgetFields.mp hfield]
    refine AllOrNothing.ok_iff.mpr (Or.inr ⟨values, t, hrun, hlen, fun field => ?_, fun p hp => ?_⟩)
    · refine UnorderedMap.mem_insertAll_of_subset (fun e he => ?_) field
      exact mem_hmgetFields.mp (hfst ▸ List.mem_map_of_mem he)
    · rw [UnorderedMap.lookup_insertAll, UnorderedMap.lookup_of_mem (v := p.2) ?_ (List.mem_reverse.mpr hp)]
      · rfl
      · rwa [List.map_reverse, List.nodup_reverse]

theorem hscan_allOrNothing (key : Bytes) (cursor : UInt64) (pattern : Bytes) (count : UInt32)
    (m : UnorderedMap Bytes Bytes) (s : σ) :
    AllOrNothing m (FieldsAdded E key cursor pattern count m s)
      ((Client.hscan E key cursor pattern count).run (m, s)) := by
  rcases call_cases E (hscanArguments key cursor pattern count) Client.hscanReply
    (fun page => Program.modify (fun s => (s.1.emplaceAll (visit page.2), s.2)) >>= fun _ => pure page.1) m s with
    ⟨e, t, hrun, h⟩ | ⟨reply, t, hrun, ⟨e, hr, h⟩ | ⟨page, hr, h⟩⟩
  · rw [Client.hscan, CmdOps.hscan, ← hscanArguments, h]
    exact .of_untouched e
  · rw [Client.hscan, CmdOps.hscan, ← hscanArguments, h]
    exact .of_untouched e
  · rw [Client.hscan, CmdOps.hscan, ← hscanArguments, h]
    obtain ⟨next, page⟩ := page
    obtain ⟨text, n, pairs, rfl, hn, rfl, rfl⟩ := Reply.hscanReply_eq_ok_iff.mp hr
    refine AllOrNothing.ok_iff.mpr ⟨text, n, pairs, t, hrun, hn, fun field => ?_⟩
    rw [UnorderedMap.lookup_emplaceAll_first, firstValue_visit, UnorderedMap.lookup_emplaceAll_empty]
    rfl

/-- The string client fills its three out-parameters completely or leaves them as they were, whatever the
    executor does. -/
theorem client_out_parameters :
    (∀ pattern (m : UnorderedSet Bytes) (s : σ),
        AllOrNothing m (KeysAdded E pattern m s) ((Client.keys E pattern).run (m, s))) ∧
      (∀ key (m : UnorderedMap Bytes (Option Bytes)) (s : σ),
        AllOrNothing m (FieldsReplaced E key m s) ((Client.hgetMany E key).run (m, s))) ∧
      ∀ key cursor pattern count (m : UnorderedMap Bytes Bytes) (s : σ),
        AllOrNothing m (FieldsAdded E key cursor pattern count m s)
          ((Client.hscan E key cursor pattern count).run (m, s)) :=
  ⟨keys_allOrNothing E, hget_allOrNothing E, hscan_allOrNothing E⟩

end Redisdal
