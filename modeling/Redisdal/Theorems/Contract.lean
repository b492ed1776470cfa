import Redisdal.Theorems.Replies
import Redisdal.Theorems.Requests

/-! # The execution contract

An operation calls `cmd_execv` at most once. It does not call it at all exactly when it rejects its
arguments or takes one of the empty-collection short cuts; otherwise what the executor throws, and an error
that it returns, reach the caller. -/

namespace Redisdal

/-! ### Rejected arguments and short cuts -/

def BadCount (count : Option Int) : Prop := ∃ n, count = some n ∧ n ≤ 0

def BadBlock (blockMs : Option Int) : Prop := ∃ n, blockMs = some n ∧ n < 0

/-- No threshold, a negative limit, or a limit on exact trimming. -/
def BadTrim (options : StreamTrimOptions) : Prop :=
  options.threshold = [] ∨ (∃ n, options.limit = some n ∧ n < 0) ∨
    (options.limit ≠ none ∧ options.approximate = false)

def BadStreams (streams : List (StreamReadRequest Bytes)) : Prop := streams = [] ∨ ∃ stream ∈ streams, stream.id = []

namespace Operation

/-- The arguments are ones that the operation rejects. -/
def Rejected : Operation → Prop
  | .eval _ ks _ | .evalSha1 _ ks _ => ks.length > 64
  | .xadd _ fields options => fields = [] ∨ options.id = [] ∨ ∃ trim, options.trim = some trim ∧ BadTrim trim
  | .xtrim _ options => BadTrim options
  | .xrange _ _ _ count | .xrevrange _ _ _ count => BadCount count
  | .xread streams options => BadCount options.count ∨ BadBlock options.blockMs ∨ BadStreams streams
  | .xreadgroup _ _ streams options => BadCount options.count ∨ BadBlock options.blockMs ∨ BadStreams streams
  | _ => False

/-- The operation is given an empty collection for which it needs no command. -/
def ShortCut : Operation → Prop
  | .delMany l | .hdelMany _ l | .sadd _ l | .srem _ l | .zrem _ l | .xdel _ l | .xack _ _ l | .sinter l => l = []
  | .zadd _ members => members.entries = []
  | .hsetMany _ hashMap => hashMap.entries = []
  | .hgetMany _ hashMap => hashMap.entries = []
  | _ => False

end Operation

/-! ### When an argument builder fails -/

/-- The computation fails exactly when `P` holds. -/
def FailsIff {α : Type} (P : Prop) (x : Outcome α) : Prop := (∃ e, x = .error e) ↔ P

namespace FailsIff
variable {α β : Type} {P Q : Prop} {x : Outcome α}

theorem pure (a : α) : FailsIff False (pure a : Outcome α) :=
  iff_of_false (by rintro ⟨e, h⟩; cases h) id

theorem throw (e : Exn) : FailsIff True (throw e : Outcome α) := iff_of_true ⟨e, rfl⟩ trivial

theorem congr (h : FailsIff P x) (hPQ : P ↔ Q) : FailsIff Q x := Iff.trans h hPQ

theorem bind {f : α → Outcome β} (hx : FailsIff P x) (hf : ∀ a, FailsIff Q (f a)) : FailsIff (P ∨ Q) (x >>= f) := by
  cases x with
  | error e => exact iff_of_true ⟨e, rfl⟩ (Or.inl (hx.mp ⟨e, rfl⟩))
  | ok a =>
    have hP : ¬P := fun h => by
      obtain ⟨e, he⟩ := hx.mpr h
      cases he
    exact (hf a).trans (by simp [hP])

theorem ite {b : Prop} [Decidable b] {e : Exn} (hx : FailsIff P x) :
    FailsIff (b ∨ P) (if b then MonadExcept.throw e else x) := by
  by_cases h : b
  · rw [if_pos h]
    exact (throw e).congr (by simp [h])
  · rw [if_neg h]
    exact hx.congr (by simp [h])

end FailsIff

theorem failsIff_scriptArguments (command script : Bytes) (ks args : List Bytes) :
    FailsIff (ks.length > 64) (CmdOps.scriptArguments command script ks args) :=
  (FailsIff.ite (.pure _)).congr (by simp [maxScriptKeys])

theorem failsIff_appendStreamCount (args : List Bytes) (count : Option Int) (command : Bytes) :
    FailsIff (BadCount count) (CmdOps.appendStreamCount args count command) := by
  unfold CmdOps.appendStreamCount BadCount
  cases count with
  | none => exact (FailsIff.pure _).congr (by simp)
  | some n => exact (FailsIff.ite (.pure _)).congr (by simp)

theorem failsIff_appendStreamBlock (args : List Bytes) (blockMs : Option Int) (command : Bytes) :
    FailsIff (BadBlock blockMs) (CmdOps.appendStreamBlock args blockMs command) := by
  unfold CmdOps.appendStreamBlock BadBlock
  cases blockMs with
  | none => exact (FailsIff.pure _).congr (by simp)
  | some n => exact (FailsIff.ite (.pure _)).congr (by simp)

theorem failsIff_appendStreamTrim (args : List Bytes) (options : StreamTrimOptions) (command : Bytes) :
    FailsIff (BadTrim options) (CmdOps.appendStreamTrim args options command) := by
  unfold CmdOps.appendStreamTrim BadTrim
  refine (FailsIff.ite (FailsIff.ite (FailsIff.ite (.pure _)))).congr ?_
  cases options.limit <;> simp

theorem failsIff_appendStreams (args : List Bytes) (streams : List (StreamReadRequest Bytes)) (command : Bytes) :
    FailsIff (BadStreams streams) (CmdOps.appendStreams args streams command) := by
  unfold CmdOps.appendStreams BadStreams
  exact (FailsIff.ite (FailsIff.ite (.pure _))).congr (by simp)

theorem failsIff_xaddArguments (key : Bytes) (fields : List (Bytes × Bytes)) (options : StreamAddOptions) :
    FailsIff (fields = [] ∨ options.id = [] ∨ ∃ trim, options.trim = some trim ∧ BadTrim trim)
      (CmdOps.xaddArguments key fields options) := by
  refine FailsIff.congr (P := fields.isEmpty = true ∨ options.id.isEmpty = true ∨
    ∃ trim, options.trim = some trim ∧ BadTrim trim) (FailsIff.ite (FailsIff.ite ?_)) (by simp)
  cases options.trim with
  | none => exact (FailsIff.pure _).congr (by simp)
  | some trim => exact ((failsIff_appendStreamTrim _ trim _).bind fun _ => .pure _).congr (by simp)

theorem failsIff_xreadArguments (streams : List (StreamReadRequest Bytes)) (options : StreamReadOptions) :
    FailsIff (BadCount options.count ∨ BadBlock options.blockMs ∨ BadStreams streams)
      (CmdOps.xreadArguments streams options) :=
  (failsIff_appendStreamCount _ _ _).bind fun _ =>
    (failsIff_appendStreamBlock _ _ _).bind fun _ => failsIff_appendStreams _ _ _

theorem failsIff_xreadgroupArguments (group consumer : Bytes) (streams : List (StreamReadRequest Bytes))
    (options : StreamReadGroupOptions) :
    FailsIff (BadCount options.count ∨ BadBlock options.blockMs ∨ BadStreams streams)
      (CmdOps.xreadgroupArguments group consumer streams options) :=
  (failsIff_appendStreamCount _ _ _).bind fun _ =>
    (failsIff_appendStreamBlock _ _ _).bind fun _ => failsIff_appendStreams _ _ _

theorem failsIff_zaddArguments [Platform] (key : Bytes) (members : UnorderedMap Bytes Double) :
    FailsIff False (CmdOps.zaddArguments key members) := by
  rw [zaddArguments_eq]
  exact FailsIff.pure _

/-! ### The three ways of a plan -/

namespace Plan

/-- Rejected exactly when `R`, answered exactly when `S`, and otherwise sent. -/
inductive Is (R S : Prop) : Plan → Prop where
  | rejected (e : Exn) (hR : R) (hS : ¬S) : Is R S (.reject e)
  | answered (v : Value) (hR : ¬R) (hS : S) : Is R S (.answer v)
  | sent (argv : List Bytes) (i : Interpretation) (hR : ¬R) (hS : ¬S) : Is R S (.send argv i)

theorem Is.eq_reject {R S : Prop} {plan : Plan} (h : Is R S plan) (hR : R) : ∃ e, plan = .reject e := by
  cases h with
  | rejected e => exact ⟨e, rfl⟩
  | answered v hR' | sent argv i hR' => exact absurd hR hR'

theorem Is.eq_answer {R S : Prop} {plan : Plan} (h : Is R S plan) (hS : S) : ∃ v, plan = .answer v := by
  cases h with
  | answered v => exact ⟨v, rfl⟩
  | rejected e _ hS' | sent argv i _ hS' => exact absurd hS hS'

theorem is_send (argv : List Bytes) (i : Interpretation) : Is False False (.send argv i) := .sent argv i id id

theorem is_ofArguments {P : Prop} {args : Outcome (List Bytes)} (h : FailsIff P args) (i : Interpretation) :
    Is P False (.ofArguments args i) := by
  cases args with
  | error e => exact .rejected e (h.mp ⟨e, rfl⟩) id
  | ok argv =>
    refine .sent argv i (fun hP => ?_) id
    obtain ⟨e, he⟩ := h.mpr hP
    cases he

theorem is_unlessEmpty {α : Type} (l : List α) (v : Value) {plan : Plan} (h : Is False False plan) :
    Is False (l = []) (.unlessEmpty l.isEmpty v plan) := by
  cases l with
  | nil => exact .answered v id rfl
  | cons a l =>
    show Is False (a :: l = []) plan
    simpa using h

end Plan

variable [Platform]

/-- An operation is rejected, or takes a short cut, or sends its command. -/
theorem plan_is (op : Operation) : Plan.Is op.Rejected op.ShortCut op.plan := by
  cases op with
  | delMany | hdelMany | sadd | srem | zrem | xdel | xack | sinter | hsetMany | hgetMany =>
    exact Plan.is_unlessEmpty _ _ (Plan.is_send _ _)
  | zadd key members => exact Plan.is_unlessEmpty _ _ (Plan.is_ofArguments (failsIff_zaddArguments key members) _)
  | xadd => exact Plan.is_ofArguments (failsIff_xaddArguments _ _ _) _
  | xtrim => exact Plan.is_ofArguments (failsIff_appendStreamTrim _ _ _) _
  | xrange | xrevrange => exact Plan.is_ofArguments (failsIff_appendStreamCount _ _ _) _
  | xread => exact Plan.is_ofArguments (failsIff_xreadArguments _ _) _
  | xreadgroup => exact Plan.is_ofArguments (failsIff_xreadgroupArguments _ _ _ _) _
  | eval | evalSha1 => exact Plan.is_ofArguments (failsIff_scriptArguments _ _ _ _) _
  | lpushMany key values | rpushMany key values => cases values <;> exact Plan.is_send _ _
  | _ => exact Plan.is_send _ _

/-! ### Calls of `cmd_execv` -/

section Calls
variable {σ : Type}

/-- The executor `E` with a log of the argument vectors it is called with. -/
def logged (E : Executor σ) : Executor (List (List Bytes) × σ) := fun argv =>
  Program.modify (fun s => (s.1 ++ [argv], s.2)) >>= fun _ => (E argv).lift

/-- The argument vectors that an operation passes to `cmd_execv`, in order. -/
def calls (op : Operation) (E : Executor σ) (s : σ) : List (List Bytes) := ((op.run (logged E)).run ([], s)).2.1

/-- What a plan sends. -/
def Plan.argvs : Plan → List (List Bytes)
  | .send argv _ => [argv]
  | .answer _ | .reject _ => []

/-- The log shows what the plan sends, whatever the executor answers. -/
theorem calls_eq (op : Operation) (E : Executor σ) (s : σ) : calls op E s = op.plan.argvs := by
  unfold calls
  rw [Operation.run_eq_plan]
  cases op.plan with
  | answer v => rfl
  | reject e => rfl
  | send argv i =>
    show (Program.resume _ (Program.resume _ ((logged E argv).run ([], s)))).2.1 = [argv]
    unfold logged
    rw [Program.run_bind, Program.run_modify, Program.resume_ok, Program.run_lift]
    rcases (E argv).run s with ⟨_ | reply, t⟩ <;> rfl

theorem plan_of_mem_calls {op : Operation} {E : Executor σ} {s : σ} {argv : List Bytes} (h : argv ∈ calls op E s) :
    ∃ i, op.plan = .send argv i := by
  rw [calls_eq] at h
  cases hp : op.plan with
  | answer v => rw [hp] at h; cases h
  | reject e => rw [hp] at h; cases h
  | send argv' i =>
    rw [hp] at h
    cases List.mem_singleton.mp h
    exact ⟨i, rfl⟩

end Calls

/-! ### Error replies -/

/-- An error reply is read as `redis_error`, or by `eval_sha1` as `no_script_error`. -/
theorem decode_error (i : Interpretation) (m : Bytes) :
    i.decode (Reply.error m).toCmdReply = .error (.redisError m) ∨
      ∃ sha1, i = .evalSha1 sha1 ∧ i.decode (Reply.error m).toCmdReply = .error (.noScript "EVALSHA" sha1) := by
  cases i with
  | evalSha1 sha1 =>
    by_cases h : CmdOps.mentionsNoScript (Reply.error m).toCmdReply
    · refine Or.inr ⟨sha1, rfl, ?_⟩
      rw [Interpretation.decode, CmdOps.noScriptReply, if_pos h]
      rfl
    · left
      rw [Interpretation.decode, CmdOps.noScriptReply, if_neg h]
      rfl
  | _ => exact Or.inl rfl

/-! ### The contract -/

/-- What the caller of an operation can rely on, whatever the executor does. -/
structure ExecutionContract {σ : Type} (op : Operation) (E : Executor σ) (s : σ) : Prop where
  once : (calls op E s).length ≤ 1
  none_iff : calls op E s = [] ↔ op.Rejected ∨ op.ShortCut
  rejects : op.Rejected → ∃ e, (op.run E).run s = (.error e, s)
  answers : op.ShortCut → ∃ v, (op.run E).run s = (.ok v, s)
  llen : ∀ key, op = .lpushMany key [] ∨ op = .rpushMany key [] → calls op E s = [(["LLEN", key] : List Bytes)]
  propagates : ∀ argv ∈ calls op E s, ∀ e t, (E argv).run s = (.error e, t) → (op.run E).run s = (.error e, t)
  surfaces : ∀ argv ∈ calls op E s, ∀ m t, (E argv).run s = (.ok (.error m), t) →
    (op.run E).run s = (.error (.redisError m), t) ∨
      ∃ sha1 ks args, op = .evalSha1 sha1 ks args ∧ (op.run E).run s = (.error (.noScript "EVALSHA" sha1), t)

theorem execution_contract {σ : Type} (op : Operation) (E : Executor σ) (s : σ) : ExecutionContract op E s where
  once := by
    rw [calls_eq]
    cases op.plan <;> simp [Plan.argvs]
  none_iff := by
    rw [calls_eq]
    have h := plan_is op
    generalize op.plan = plan at h
    cases h with
    | rejected e hR hS => simp [Plan.argvs, hR]
    | answered v hR hS => simp [Plan.argvs, hS]
    | sent argv i hR hS => simp [Plan.argvs, hR, hS]
  rejects hR := by
    obtain ⟨e, hplan⟩ := (plan_is op).eq_reject hR
    exact ⟨e, by rw [Operation.run_eq_plan, hplan]; rfl⟩
  answers hS := by
    obtain ⟨v, hplan⟩ := (plan_is op).eq_answer hS
    exact ⟨v, by rw [Operation.run_eq_plan, hplan]; rfl⟩
  llen key h := by
    rw [calls_eq]
    rcases h with rfl | rfl <;> rfl
  propagates argv hargv e t hrun := by
    obtain ⟨i, hp⟩ := plan_of_mem_calls hargv
    exact run_of_throw hp hrun
  surfaces argv hargv m t hrun := by
    obtain ⟨i, hp⟩ := plan_of_mem_calls hargv
    rw [run_of_reply hp hrun]
    rcases decode_error i m with h | ⟨sha1, rfl, h⟩
    · exact Or.inl (by rw [h])
    · obtain ⟨ks, args, hop⟩ := Operation.readsWith_of_plan hp
      exact Or.inr ⟨sha1, ks, args, hop, by rw [h]⟩

end Redisdal
