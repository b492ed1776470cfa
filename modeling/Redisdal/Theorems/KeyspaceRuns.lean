import Redisdal.Theorems.FacadeContract
import Redisdal.Theorems.KeyspaceStreams
import Redisdal.Theorems.ReferenceService

/-! # Clients of one server

Clients on connections to one server, whose calls reach it in some order. A command may be lost on its way, or its
reply on the way back, and time passes between the calls. Whatever the order, the outcomes are those of one typed
keyspace, on which a call whose reply was lost has had its effect once, and one whose command was lost has had none. -/

namespace Redisdal

/-- A call of a client: the time since the last call, the platform it runs on, and what becomes of its command. -/
structure ClientCall (K V : Type) where
  elapsed : Nat
  platform : Platform
  delivery : Delivery
  call : TypedCall K V

/-- Scores pass between the platform and the server, and none is written as an option. -/
structure ScoresPass [ServerTexts] (platform : Platform) : Prop extends ServerScores.Passes platform where
  plain : ∀ d, ¬IsOptionWord (platform.toCharsDouble d)

/-- The keyspace tells of the call, and its scores pass between its platform and the server. -/
def ClientCall.InKeyspace [ServerTexts] {K V : Type} (c : ClientCall K V) : Prop :=
  c.call.InKeyspace ∧ (c.call.PassesScores → ScoresPass c.platform)

namespace ClientCall
variable {K V : Type} [DecidableEq K] (tpl : Template K V) (c : ClientCall K V)

/-- The commands that the call sends. -/
def commands : List (List Bytes) :=
  let _ := c.platform
  typedCalls tpl c.call (fun _ => pure .nil) ()

/-- It takes more arguments than an `int` counts. -/
def TooLong : Prop := ∃ argv ∈ c.commands tpl, SyncConnection.intMax < argv.length

/-- The call, on the connection of the client. -/
def run {σ : Type} (S : Service σ) : Program Exn (Option σ) (TypedValue K V) :=
  let _ := c.platform
  c.call.run tpl (SyncConnection.cmdExecv (S.hiredis c.delivery))

end ClientCall

/-- The outcomes of calls that reach the server one after the other. -/
def runClientCalls {σ : Type} (S : Service σ) {K V : Type} [DecidableEq K] (tpl : Template K V) :
    List (ClientCall K V) → Option σ → List (Outcome (TypedValue K V))
  | [], _ => []
  | c :: calls, context =>
    let answer := (c.run tpl S).run (context.map (S.wait c.elapsed))
    answer.1 :: runClientCalls S tpl calls answer.2

/-! ### Runs of the keyspace -/

/-- The same outcome, but for the text of an error of the server. -/
def OutcomeAlike {α : Type} (outcome outcome' : Outcome α) : Prop :=
  outcome = outcome' ∨
    ∃ message message', outcome = .error (.redisError message) ∧ outcome' = .error (.redisError message')

section Runs
variable [ServerTexts] {K V : Type} [DecidableEq K] [DecidableEq V] (tpl : Template K V)

/-- The outcome is one that the keyspace allows, but for the text of an error. -/
def TypedKeyspace.Permits (s : TypedKeyspace K V) (call : TypedCall K V) (outcome : Outcome (TypedValue K V))
    (s' : TypedKeyspace K V) : Prop :=
  ∃ outcome', OutcomeAlike outcome outcome' ∧ s.Allows tpl call outcome' s'

/-- What a call does to the keyspace, by what becomes of its command. A call that needs none is not affected by it. -/
inductive CallStep (s : TypedKeyspace K V) (c : ClientCall K V) :
    Outcome (TypedValue K V) → TypedKeyspace K V → Prop where
  | unsent {outcome : Outcome (TypedValue K V)} {s' : TypedKeyspace K V} (unsent : c.call.Unsent)
    (allows : s.Allows tpl c.call outcome s') : CallStep s c outcome s'
  | delivered {outcome : Outcome (TypedValue K V)} {s' : TypedKeyspace K V} (delivery : c.delivery = .delivered)
    (fits : ¬c.TooLong tpl) (permits : s.Permits tpl c.call outcome s') : CallStep s c outcome s'
  | requestLost {errstr : Bytes} (delivery : c.delivery = .requestLost errstr) (sent : ¬c.call.Unsent)
    (fits : ¬c.TooLong tpl) : CallStep s c (.error (transportError errstr)) s
  | replyLost {errstr : Bytes} {outcome : Outcome (TypedValue K V)} {s' : TypedKeyspace K V}
    (delivery : c.delivery = .replyLost errstr) (sent : ¬c.call.Unsent) (fits : ¬c.TooLong tpl)
    (permits : s.Permits tpl c.call outcome s') : CallStep s c (.error (transportError errstr)) s'
  | tooLong (long : c.TooLong tpl) : CallStep s c (.error (.lengthError "Too many Redis command arguments")) s

/-- The outcomes that calls may have on a keyspace, one after the other, and what they leave. -/
inductive KeyspaceRun : TypedKeyspace K V → List (ClientCall K V) → List (Outcome (TypedValue K V)) →
    TypedKeyspace K V → Prop
  | nil (s : TypedKeyspace K V) : KeyspaceRun s [] [] s
  | cons {s s' s'' : TypedKeyspace K V} {c : ClientCall K V} {calls : List (ClientCall K V)}
    {outcome : Outcome (TypedValue K V)} {outcomes : List (Outcome (TypedValue K V))}
    (step : CallStep tpl (s.advance c.elapsed) c outcome s') (rest : KeyspaceRun s' calls outcomes s'') :
    KeyspaceRun s (c :: calls) (outcome :: outcomes) s''

end Runs

/-! ### One call -/

section Call
variable [Platform] {K V : Type} [DecidableEq K] {tpl : Template K V} {encK : K → Bytes} {encV : V → Bytes}
  (hK : Encodes tpl.keySerializer encK) (hV : Encodes tpl.valueSerializer encV)

include hK hV in
/-- A method sends one command, or needs none, and then what becomes of commands makes no difference. -/
theorem sends_or_answers (call : TypedCall K V) :
    (¬call.Unsent ∧ ∃ op result argv i, call.plan tpl = .call op result ∧ op.plan = .send argv i) ∨
      (call.Unsent ∧ ∃ outcome : Outcome (TypedValue K V), ∀ (σ : Type) (E : Executor σ) t,
        (call.run tpl E).run t = (outcome, t)) := by
  rcases hplan : call.plan tpl with v | e | ⟨op, result⟩
  · refine Or.inr ⟨Or.inr ((call.asksFor_plan tpl).answers v hplan).2, .ok v, fun σ E t => ?_⟩
    rw [call.run_eq_plan, hplan]
    rfl
  · rcases (call.rejectsBy_plan tpl).rejects e hplan with ⟨key, -, hkey⟩ | ⟨value, -, hvalue⟩
    · cases (hK.serialize key).symm.trans hkey
    · cases (hV.serialize value).symm.trans hvalue
  · have hunsent := call.unsent_iff tpl hplan
    have his := plan_is op
    generalize hop : op.plan = plan at his
    cases his with
    | rejected e hR hS =>
      refine Or.inr ⟨hunsent.mp (Or.inl hR), .error e, fun σ E t => ?_⟩
      rw [run_of_call _ _ hplan, Operation.run_eq_plan, hop]
      rfl
    | answered v hR hS =>
      refine Or.inr ⟨hunsent.mp (Or.inr hS), result v, fun σ E t => ?_⟩
      rw [run_of_call _ _ hplan, Operation.run_eq_plan, hop]
      rfl
    | sent argv i hR hS =>
      exact Or.inl ⟨fun h => (hunsent.mpr h).elim hR hS, op, result, argv, i, rfl, hop⟩

omit hK hV in
/-- A call takes as many arguments as its command. -/
theorem tooLong_iff {call : TypedCall K V} {op : Operation} {result : Value → Outcome (TypedValue K V)}
    {argv : List Bytes} {i : Interpretation} (hplan : call.plan tpl = .call op result) (hsend : op.plan = .send argv i)
    (elapsed : Nat) (d : Delivery) :
    (ClientCall.mk elapsed ‹Platform› d call).TooLong tpl ↔ SyncConnection.intMax < argv.length := by
  have hcommands : (ClientCall.mk elapsed ‹Platform› d call).commands tpl = [argv] := by
    unfold ClientCall.commands
    rw [typedCalls_of_call _ _ hplan, calls_eq, hsend]
    rfl
  unfold ClientCall.TooLong
  rw [hcommands]
  simp

omit hK hV in
/-- A short command is never too long. -/
theorem fits_of_length {call : TypedCall K V} {op : Operation} {result : Value → Outcome (TypedValue K V)}
    {argv : List Bytes} {i : Interpretation} (hplan : call.plan tpl = .call op result) (hsend : op.plan = .send argv i)
    (hlength : argv.length ≤ SyncConnection.intMax) {elapsed : Nat} {d : Delivery} :
    ¬(ClientCall.mk elapsed ‹Platform› d call).TooLong tpl := by
  rw [tooLong_iff hplan hsend, Nat.not_lt]
  exact hlength

end Call

section Request
variable [Platform] {K V : Type} [DecidableEq K] {tpl : Template K V} {call : TypedCall K V} {op : Operation}
  {result : Value → Outcome (TypedValue K V)}

omit [Platform] [DecidableEq K] in
theorem ids_of_serializeRequests {streams : List (StreamReadRequest K)} {l : List (StreamReadRequest Bytes)}
    (h : StreamOperations.serializeRequests tpl streams = .ok l) {id : Bytes}
    (hids : ∀ stream ∈ streams, stream.id ≠ id) :
    ∀ stream ∈ l, stream.id ≠ id := by
  intro stream hmem heq
  have hid : stream.id ∈ streams.map (·.id) := by
    rw [← TypedCall.map_id_of_serializeRequests tpl h]
    exact List.mem_map_of_mem hmem
  obtain ⟨asked, hasked, hsame⟩ := List.mem_map.mp hid
  exact hids asked hasked (hsame.trans heq)

/-- What a method asks the server for, which takes it at its word. -/
theorem exists_request (hin : call.InKeyspace)
    (hscores : call.PassesScores → ∀ d, ¬IsOptionWord (Platform.toCharsDouble d))
    (hplan : call.plan tpl = .call op result) : ∃ r, op.request = some r ∧ r.group ≠ .others ∧ r.Plain := by
  cases call with
  | keys | scan | hscan | eval | execCmd => exact hin.elim
  | ping | pingMessage =>
    cases hplan
    exact ⟨_, rfl, fun h => (by cases h), trivial⟩
  | hgetMany key out =>
    by_cases hempty : out.entries.isEmpty = true
    · have hanswer : (TypedCall.hgetMany key out).plan tpl = .answer (.optionalHash out) := if_pos hempty
      rw [hanswer] at hplan
      cases hplan
    · have hcall : (TypedCall.hgetMany key out).plan tpl = _ := if_neg hempty
      rw [hcall] at hplan
      obtain ⟨_, -, rfl, rfl⟩ := TypedPlan.of_ofRequest hplan
      exact ⟨_, rfl, fun h => (by cases h), trivial⟩
  | lpushMany | rpushMany =>
    obtain ⟨⟨values, key⟩, -, rfl, rfl⟩ := TypedPlan.of_ofRequest hplan
    cases values <;> exact ⟨_, rfl, fun h => (by cases h), trivial⟩
  | zadd =>
    obtain ⟨_, -, rfl, rfl⟩ := TypedPlan.of_ofRequest hplan
    refine ⟨_, rfl, fun h => (by cases h), fun member hmember => ?_⟩
    obtain ⟨pair, -, rfl⟩ := List.mem_map.mp hmember
    exact hscores trivial pair.2
  | xread streams options =>
    obtain ⟨l, hl, rfl, rfl⟩ := TypedPlan.of_ofRequest hplan
    exact ⟨_, rfl, fun h => (by cases h), hin.1, fun _ => ids_of_serializeRequests hl hin.2⟩
  | xreadgroup =>
    obtain ⟨l, hl, rfl, rfl⟩ := TypedPlan.of_ofRequest hplan
    exact ⟨_, rfl, fun h => (by cases h), hin, fun h => (by cases h)⟩
  | xadd | xtrim =>
    obtain ⟨_, -, rfl, rfl⟩ := TypedPlan.of_ofRequest hplan
    exact ⟨_, rfl, fun h => (by cases h), hin⟩
  | _ =>
    obtain ⟨_, -, rfl, rfl⟩ := TypedPlan.of_ofRequest hplan
    exact ⟨_, rfl, fun h => (by cases h), trivial⟩

/-- Replies that are alike are read alike. -/
theorem outcomeAlike_of_reply {argv : List Bytes} {i : Interpretation} (hplan : call.plan tpl = .call op result)
    (hsend : op.plan = .send argv i) {reply reply' : Reply} (h : reply.Alike reply') :
    OutcomeAlike (i.decode reply.toCmdReply >>= result) (i.decode reply'.toCmdReply >>= result) := by
  have herror : ∀ message, i.decode (Reply.error message).toCmdReply = .error (.redisError message) := fun message =>
    (decode_error i message).resolve_right fun ⟨sha1, hi, _⟩ => by
      subst hi
      obtain ⟨ks, args, hop⟩ := Operation.readsWith_of_plan hsend
      exact (call.asksFor_plan tpl).noSha1 op result hplan sha1 ks args hop
  rcases h with rfl | ⟨message, message', rfl, rfl⟩
  · exact Or.inl rfl
  · rw [herror, herror]
    exact Or.inr ⟨message, message', rfl, rfl⟩

end Request

section Call
variable [ServerTexts] {σ : Type} {S : Service σ} {holds : σ → ServerMap → Prop} (hS : S.Documented holds)
  (hT : S.Transports) {K V : Type} [DecidableEq K] [DecidableEq V] {tpl : Template K V} {encK : K → Bytes}
  {encV : V → Bytes} (hK : Encodes tpl.keySerializer encK) (hV : Encodes tpl.valueSerializer encV)
include hS hT hK hV

omit hT in
/-- A command that the server takes at its word is carried out on the keyspace. -/
theorem exists_permits [Platform] {call : TypedCall K V} (hin : call.InKeyspace)
    (hpasses : call.PassesScores → ScoresPass ‹Platform›) {op : Operation} {result : Value → Outcome (TypedValue K V)}
    {argv : List Bytes} {i : Interpretation} (hplan : call.plan tpl = .call op result) (hsend : op.plan = .send argv i)
    {t : σ} {m : ServerMap} {s : TypedKeyspace K V} (ht : holds t m) (h : Holds encK encV m s) :
    argv ≠ [] ∧ ∃ s' m', holds (S.command argv t).2 m' ∧ Holds encK encV m' s' ∧
      s.Permits tpl call (i.decode (S.command argv t).1.toCmdReply >>= result) s' := by
  obtain ⟨r, hrequest, hgroup, hplain⟩ := exists_request hin (fun hscores => (hpasses hscores).plain) hplan
  obtain ⟨rfl, hr⟩ := Operation.writes op argv i r hsend hrequest
  obtain ⟨o, clock, halike, hholds⟩ := hS.does r hgroup hr hplain ht
  have hserver := run_documentedServer o (readRequest_argv r hr hplain.not_hasOptionId) ⟨m, clock⟩
  have hdb : Holds encK encV (RedisDb.mk m clock).map s := h
  obtain ⟨s', hallows, hnext⟩ := call_conforms hK hV (o := o) hdb call hin
    fun hscores => (hpasses hscores).toPasses
  rw [run_of_call _ _ hplan, run_of_reply hsend hserver] at hallows hnext
  exact ⟨r.argv_ne_nil, s', _, hholds, hnext, _, outcomeAlike_of_reply hplan hsend halike, hallows⟩

/-- One call on a connection, whatever becomes of its command, is a step of the keyspace. -/
theorem exists_callStep {t : σ} {m : ServerMap} {s : TypedKeyspace K V} (ht : holds t m) (h : Holds encK encV m s)
    (c : ClientCall K V) (hin : c.InKeyspace) :
    ∃ s' t' m', ((c.run tpl S).run (some t)).2 = some t' ∧ CallStep tpl s c ((c.run tpl S).run (some t)).1 s' ∧
      holds t' m' ∧ Holds encK encV m' s' := by
  obtain ⟨elapsed, platform, d, call⟩ := c
  show ∃ s' t' m', ((call.run tpl (SyncConnection.cmdExecv (S.hiredis d))).run (some t)).2 = some t' ∧
    CallStep tpl s _ ((call.run tpl (SyncConnection.cmdExecv (S.hiredis d))).run (some t)).1 s' ∧
      holds t' m' ∧ Holds encK encV m' s'
  rcases sends_or_answers hK hV call with ⟨hsent, op, result, argv, i, hplan, hsend⟩ | ⟨hunsent, outcome, hanswer⟩
  · obtain ⟨hne, s', m', hholds, hnext, hpermits⟩ := exists_permits hS hK hV hin.1 hin.2 hplan hsend ht h
    have htooLong := tooLong_iff hplan hsend elapsed d
    -- What a connection throws is what the call throws, and nothing more is sent.
    have hthrown : ∀ {e : Exn} {next : σ},
        (SyncConnection.cmdExecv (S.hiredis d) argv).run (some t) = (.error e, some next) →
        (call.run tpl (SyncConnection.cmdExecv (S.hiredis d))).run (some t) = (.error e, some next) := by
      intro e next hrun
      rw [run_of_call _ _ hplan, run_of_throw hsend hrun]
      rfl
    by_cases hlen : argv.length ≤ SyncConnection.intMax
    · have hfits := mt htooLong.mp (Nat.not_lt.mpr hlen)
      cases d with
      | delivered =>
        rw [run_of_call _ _ hplan, run_of_reply hsend (cmdExecv_delivered hT hne hlen)]
        exact ⟨s', _, m', rfl, .delivered rfl hfits hpermits, hholds, hnext⟩
      | requestLost errstr =>
        rw [hthrown (cmdExecv_requestLost hT hne hlen errstr)]
        exact ⟨s, t, m, rfl, .requestLost rfl hsent hfits, ht, h⟩
      | replyLost errstr =>
        rw [hthrown (cmdExecv_replyLost hT hne hlen errstr)]
        exact ⟨s', _, m', rfl, .replyLost rfl hsent hfits hpermits, hholds, hnext⟩
    · have hlong := Nat.lt_of_not_le hlen
      rw [hthrown (cmdExecv_tooLong _ hlong t)]
      exact ⟨s, t, m, rfl, .tooLong (htooLong.mpr hlong), ht, h⟩
  · have hdb : Holds encK encV (RedisDb.mk m 0).map s := h
    obtain ⟨s', hallows, hnext⟩ := call_conforms hK hV (o := listedInOrder) hdb call hin.1
      fun hscores => (hin.2 hscores).toPasses
    rw [hanswer] at hallows hnext ⊢
    exact ⟨s', t, m, rfl, .unsent hunsent hallows, ht, hnext⟩

/-! ### All calls -/

theorem exists_keyspaceRun (calls : List (ClientCall K V)) (hin : ∀ c ∈ calls, c.InKeyspace) {t : σ} {m : ServerMap}
    {s : TypedKeyspace K V} (ht : holds t m) (h : Holds encK encV m s) :
    ∃ s', KeyspaceRun tpl s calls (runClientCalls S tpl calls (some t)) s' := by
  induction calls generalizing t m s with
  | nil => exact ⟨s, .nil s⟩
  | cons c calls ih =>
    obtain ⟨hc, hcalls⟩ := List.forall_mem_cons.mp hin
    have hadvanced : Holds encK encV (m.advance c.elapsed) (s.advance c.elapsed) := h.advance c.elapsed
    obtain ⟨s', t', m', ht', hstep, hholds, hnext⟩ :=
      exists_callStep hS hT hK hV (hS.wait t m ht c.elapsed) hadvanced c hc
    obtain ⟨s'', hrest⟩ := ih hcalls hholds hnext
    refine ⟨s'', .cons hstep ?_⟩
    show KeyspaceRun tpl s' calls (runClientCalls S tpl calls ((c.run tpl S).run (some (S.wait c.elapsed t))).2) s''
    rw [ht']
    exact hrest

/-- From the start of the service, on a keyspace without data. -/
theorem exists_startRun (calls : List (ClientCall K V)) (hin : ∀ c ∈ calls, c.InKeyspace) :
    ∃ (time : Nat) (s' : TypedKeyspace K V), KeyspaceRun tpl (ExpiringMap.empty.advance time) calls
      (runClientCalls S tpl calls (some S.start)) s' := by
  obtain ⟨time, hstart⟩ := hS.start
  have hempty : Holds encK encV (ExpiringMap.empty.advance time) (ExpiringMap.empty.advance time : TypedKeyspace K V) :=
    ExpiringMap.Related.empty.advance time
  obtain ⟨s', hrun⟩ := exists_keyspaceRun hS hT hK hV calls hin hstart hempty
  exact ⟨time, s', hrun⟩

end Call

section Runs
variable [ServerTexts] {K V : Type} [DecidableEq K] [DecidableEq V] {tpl : Template K V} {s s' : TypedKeyspace K V}
  {outcomes : List (Outcome (TypedValue K V))}

omit [ServerTexts] [DecidableEq K] [DecidableEq V] in
theorem OutcomeAlike.eq_of_ok {α : Type} {a : α} {outcome : Outcome α} (h : OutcomeAlike (.ok a) outcome) :
    outcome = .ok a := by
  rcases h with rfl | ⟨message, message', h, -⟩
  · rfl
  · cases h

omit [ServerTexts] [DecidableEq K] [DecidableEq V] in
theorem OutcomeAlike.eq_ok {α : Type} {a : α} {outcome : Outcome α} (h : OutcomeAlike outcome (.ok a)) :
    outcome = .ok a := by
  rcases h with rfl | ⟨message, message', -, h⟩
  · rfl
  · cases h

/-- What is returned is what the keyspace allows. -/
theorem TypedKeyspace.Permits.allows {call : TypedCall K V} {value : TypedValue K V}
    (h : s.Permits tpl call (.ok value) s') : s.Allows tpl call (.ok value) s' := by
  obtain ⟨outcome, halike, hallows⟩ := h
  rwa [halike.eq_of_ok] at hallows

/-- A call that is delivered has an outcome that the keyspace permits. -/
theorem CallStep.permits {c : ClientCall K V} {outcome : Outcome (TypedValue K V)} (h : CallStep tpl s c outcome s')
    (hdelivered : c.delivery = .delivered) (hfits : ¬c.TooLong tpl) : s.Permits tpl c.call outcome s' := by
  cases h with
  | unsent _ allows => exact ⟨_, Or.inl rfl, allows⟩
  | delivered _ _ permits => exact permits
  | requestLost delivery => cases hdelivered.symm.trans delivery
  | replyLost delivery => cases hdelivered.symm.trans delivery
  | tooLong long => exact absurd long hfits

theorem KeyspaceRun.length_eq {calls : List (ClientCall K V)} (h : KeyspaceRun tpl s calls outcomes s') :
    outcomes.length = calls.length := by
  induction h with
  | nil => rfl
  | cons _ _ ih => rw [List.length_cons, List.length_cons, ih]

theorem KeyspaceRun.exists_of_append {calls calls' : List (ClientCall K V)}
    (h : KeyspaceRun tpl s (calls ++ calls') outcomes s') : ∃ first rest s₁, outcomes = first ++ rest ∧
      KeyspaceRun tpl s calls first s₁ ∧ KeyspaceRun tpl s₁ calls' rest s' := by
  induction calls generalizing s outcomes with
  | nil => exact ⟨[], outcomes, s, rfl, .nil s, h⟩
  | cons c calls ih =>
    cases h with
    | @cons _ _ _ _ _ outcome _ hstep hrun =>
      obtain ⟨first, rest, s₁, rfl, hfirst, hrest⟩ := ih hrun
      exact ⟨outcome :: first, rest, s₁, rfl, .cons hstep hfirst, hrest⟩

end Runs

/-- Decimal numbers are no options. -/
theorem not_isOptionWord_decimal (n : Nat) : ¬IsOptionWord (Bytes.decimal n) := by
  intro hword
  have hupper : upper (Bytes.decimal n) = Bytes.decimal n := by
    refine (List.map_congr_left fun b hb => if_neg fun hlower => ?_).trans (List.map_id _)
    have hdigit := Bytes.isDigit_decimal hb
    simp only [Bytes.isDigit, Bool.and_eq_true, decide_eq_true_eq] at hdigit
    exact absurd (UInt8.le_trans hlower.1 hdigit.2) (by decide)
  have hwords : ∀ word ∈ optionWords, ∃ b ∈ word, Bytes.isDigit b = false := by decide
  obtain ⟨b, hb, hdigit⟩ := hwords _ hword
  rw [hupper] at hb
  rw [Bytes.isDigit_decimal hb] at hdigit
  cases hdigit

theorem scoresPass_numbering : @ScoresPass numberingTexts numberingPlatform :=
  @ScoresPass.mk numberingTexts numberingPlatform numberingScores_passes fun d =>
    not_isOptionWord_decimal d.number.toNat

end Redisdal
