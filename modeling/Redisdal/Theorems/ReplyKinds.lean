import Redisdal.Theorems.Contract

/-! # Replies of the wrong kind

Which kinds of reply the result of an operation admits, and which operations throw on every other reply. -/

namespace Redisdal

/-- The kinds that an interpretation admits; scripts and raw commands hand back any reply. -/
def Interpretation.Admits : Interpretation → ReplyType → Prop
  | .integer _, k | .flag _, k | .hset, k => k = .integer
  | .set, k => k = .status ∨ k = .nil
  | .status _, k | .statusOk _, k => k = .status
  | .text _, k => k = .status ∨ k = .string
  | .optionalText _, k | .score, k | .optionalScore _, k => k = .string ∨ k = .nil
  | .scriptLoad, k => k = .string
  | .evalSha1 _, _ | .raw, _ => True
  | .texts _, k | .hash _, k | .scores _, k | .entries _, k | .batches _, k | .scan, k | .keys _, k | .hscan _, k
  | .hmget _ _, k => k = .array ∨ k = .nil

open Reply

variable [Platform]

omit [Platform] in
theorem exists_error_bind {α β : Type} {x : Outcome α} (h : ∃ e, x = .error e) (f : α → Outcome β) :
    ∃ e, (x >>= f) = .error e := by
  obtain ⟨e, rfl⟩ := h
  exact ⟨e, rfl⟩

omit [Platform] in
theorem exists_error_map {α β : Type} {x : Outcome α} (h : ∃ e, x = .error e) (f : α → β) :
    ∃ e, x.map f = .error e := by
  obtain ⟨e, rfl⟩ := h
  exact ⟨e, rfl⟩

/-- Every interpretation but those of `set` and `hset` throws on a reply of another kind. -/
theorem decode_of_not_admits {i : Interpretation} {r : Reply} (hne : r.kind ≠ .error) (h : ¬i.Admits r.kind)
    (hset : i ≠ .set) (hhset : i ≠ .hset) : ∃ e, i.decode r.toCmdReply = .error e := by
  cases i with
  | set => exact absurd rfl hset
  | hset => exact absurd rfl hhset
  | evalSha1 | raw => exact absurd trivial h
  | integer c =>
    refine exists_error_map ?_ _
    rw [Client.integerReply, orThrow_bind hne]
    exact ⟨_, asInteger_of_ne h c⟩
  | flag c =>
    refine exists_error_map (exists_error_bind ?_ _) _
    rw [Client.integerReply, orThrow_bind hne]
    exact ⟨_, asInteger_of_ne h c⟩
  | text c =>
    refine exists_error_map ?_ _
    rw [Client.textReply, orThrow_bind hne]
    exact ⟨_, asText_of_ne hne c h⟩
  | status c =>
    refine exists_error_map ?_ _
    rw [Client.statusReply, orThrow_bind hne]
    exact ⟨_, asStatus_of_ne h c⟩
  | statusOk c =>
    refine exists_error_map ?_ _
    rw [Client.statusOkReply, orThrow_bind hne]
    exact exists_error_bind ⟨_, asStatus_of_ne h c⟩ _
  | optionalText c =>
    refine exists_error_map ?_ _
    rw [Client.optionalStringReply, orThrow_bind hne]
    exact ⟨_, optionalString_of_ne c h⟩
  | optionalScore c =>
    refine exists_error_map ?_ _
    rw [Client.optionalScoreReply, orThrow_bind hne]
    exact exists_error_bind ⟨_, optionalString_of_ne c h⟩ _
  | score =>
    refine exists_error_map (exists_error_bind ?_ _) _
    rw [Client.optionalScoreReply, orThrow_bind hne]
    exact exists_error_bind ⟨_, optionalString_of_ne _ h⟩ _
  | scriptLoad =>
    refine exists_error_map ⟨.unexpectedReplyType "SCRIPT LOAD" "string" "non-string", ?_⟩ _
    rw [CmdOps.scriptLoadReply, isError_of_ne hne, if_neg Bool.false_ne_true,
      if_pos (Or.inl (by rw [type_toCmdReply]; exact h))]
    rfl
  | texts c | keys out =>
    refine exists_error_map ?_ _
    rw [Client.stringsReply, orThrow_bind hne, CmdReply.strings, isNil_of_ne (not_or.mp h).2,
      if_neg Bool.false_ne_true]
    exact exists_error_bind ⟨_, asArray_of_ne (not_or.mp h).1 _⟩ _
  | scores c =>
    refine exists_error_map ?_ _
    rw [Client.scoresReply, orThrow_bind hne, CmdReply.scores, isNil_of_ne (not_or.mp h).2,
      if_neg Bool.false_ne_true]
    exact exists_error_bind ⟨_, asArray_of_ne (not_or.mp h).1 c⟩ _
  | entries c =>
    refine exists_error_map ?_ _
    rw [Client.streamEntriesReply, orThrow_bind hne, CmdReply.streamEntries, isNil_of_ne (not_or.mp h).2,
      if_neg Bool.false_ne_true]
    exact exists_error_bind ⟨_, asArray_of_ne (not_or.mp h).1 c⟩ _
  | batches c =>
    refine exists_error_map ?_ _
    rw [Client.streamBatchesReply, orThrow_bind hne, CmdReply.streamBatches, isNil_of_ne (not_or.mp h).2,
      if_neg Bool.false_ne_true]
    exact exists_error_bind ⟨_, asArray_of_ne (not_or.mp h).1 c⟩ _
  | hash c =>
    refine exists_error_map ?_ _
    rw [Client.hashReply, orThrow_bind hne]
    exact exists_error_bind ⟨_, asArray_of_ne (not_or.mp h).1 c⟩ _
  | scan => exact exists_error_map (exists_error_bind ⟨_, scanPage_of_ne hne _ (not_or.mp h).1⟩ _) _
  | hscan out => exact exists_error_map (exists_error_bind ⟨_, scanPage_of_ne hne _ (not_or.mp h).1⟩ _) _
  | hmget fields out =>
    refine exists_error_map ?_ _
    rw [Client.hmgetReply, throwIfError_bind hne]
    exact exists_error_bind ⟨_, asArray_of_ne (not_or.mp h).1 _⟩ _

/-! ### The operations that report a reply of the wrong kind as `false` -/

namespace Operation

/-- `set` and its variants, and `hset` where it sends a command. -/
def ReportsFalse : Operation → Prop
  | .set .. | .setNotExists .. | .setEx .. | .setPx .. | .hset .. => True
  | .hsetMany _ hashMap => hashMap.entries ≠ []
  | _ => False

/-- The operation throws on every reply that is no error and of a kind that its result does not admit. -/
def RejectsWrongKinds (op : Operation) : Prop :=
  ∀ (argv : List Bytes) (i : Interpretation), op.plan = .send argv i →
    ∀ (σ : Type) (E : Executor σ) (s t : σ) (reply : Reply), (E argv).run s = (.ok reply, t) →
      reply.kind ≠ .error → ¬i.Admits reply.kind → ∃ e, (op.run E).run s = (.error e, t)

theorem reportsFalse_iff {op : Operation} :
    op.ReportsFalse ↔ ∃ argv, op.plan = .send argv .set ∨ op.plan = .send argv .hset := by
  constructor
  · intro h
    cases op with
    | set | setNotExists | setEx | setPx => exact ⟨_, Or.inl rfl⟩
    | hset => exact ⟨_, Or.inr rfl⟩
    | hsetMany key hashMap =>
      have hempty : hashMap.entries.isEmpty = false := List.isEmpty_eq_false_iff.mpr h
      exact ⟨_, Or.inr (by rw [plan, Plan.unlessEmpty, hempty]; rfl)⟩
    | _ => cases h
  · intro hex
    rcases hex with ⟨argv, h | h⟩
    · rcases readsWith_of_plan h with ⟨_, _, rfl⟩ | ⟨_, _, rfl⟩ | ⟨_, _, _, rfl⟩ | ⟨_, _, _, rfl⟩ <;> trivial
    · rcases readsWith_of_plan h with ⟨_, _, _, rfl⟩ | ⟨_, _, hne, rfl⟩
      · trivial
      · exact hne

/-- An operation throws on every reply of the wrong kind exactly when it is none of `set`, `set_not_exists`,
    `set_ex`, `set_px` and `hset`, which return `false` on some. -/
theorem rejectsWrongKinds_iff (op : Operation) : op.RejectsWrongKinds ↔ ¬op.ReportsFalse := by
  constructor
  · intro h hfalse
    obtain ⟨argv, hp | hp⟩ := reportsFalse_iff.mp hfalse
    · -- an integer is no reply to SET
      obtain ⟨e, he⟩ := h argv .set hp Unit (fun _ => pure (.integer 0)) () () (.integer 0) rfl
        (by simp [Reply.kind]) (by simp [Reply.kind, Interpretation.Admits])
      rw [run_of_reply (t := ()) hp rfl] at he
      cases he
    · -- NIL is no reply to HSET
      obtain ⟨e, he⟩ := h argv .hset hp Unit (fun _ => pure .nil) () () .nil rfl (by simp [Reply.kind])
        (by simp [Reply.kind, Interpretation.Admits])
      rw [run_of_reply (t := ()) hp rfl] at he
      cases he
  · intro h argv i hp σ E s t reply hrun hne hkind
    obtain ⟨e, he⟩ := decode_of_not_admits hne hkind
      (fun hi => h (reportsFalse_iff.mpr ⟨argv, Or.inl (hi ▸ hp)⟩))
      (fun hi => h (reportsFalse_iff.mpr ⟨argv, Or.inr (hi ▸ hp)⟩))
    exact ⟨e, by rw [run_of_reply hp hrun, he]⟩

omit [Platform] in
/-- `set` reports an INTEGER reply to its command as `false`. -/
theorem not_rejectsWrongKinds_set : ¬@RejectsWrongKinds referencePlatform (.set "key" "value") := by
  intro h
  obtain ⟨e, he⟩ := h ["SET", "key", "value"] .set rfl Unit (fun _ => pure (.integer 7)) () () (.integer 7) rfl
    (by simp [Reply.kind]) (by simp [Reply.kind, Interpretation.Admits])
  cases he

end Operation

end Redisdal
