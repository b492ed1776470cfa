import Redisdal.Template
import Redisdal.Theorems.Requests
import Redisdal.Theorems.Replies

/-! # Loading and running scripts

What `script_load` and `eval_sha1` send, and what they make of each outcome, through the command builder, the
client and the typed facade. -/

namespace Redisdal

/-- The command that runs a loaded script. -/
def evalshaArguments (sha1 : Bytes) (keys args : List Bytes) : List Bytes :=
  (["EVALSHA", sha1, Bytes.decimal keys.length] : List Bytes) ++ keys ++ args

/-- The command that loads a script. -/
def scriptLoadArguments (script : Bytes) : List Bytes := ["SCRIPT", "LOAD", script]

/-- What the client makes of a reply to `EVALSHA`. -/
def evalshaOutcome (sha1 : Bytes) : Reply → Outcome CmdReply
  | .error message =>
    if Bytes.contains message "NOSCRIPT" then .error (.noScript "EVALSHA" sha1) else .error (.redisError message)
  | reply => .ok reply.toCmdReply

theorem noScriptReply_bind (sha1 : Bytes) (reply : Reply) :
    (CmdOps.noScriptReply sha1 reply.toCmdReply >>= Client.evalSha1Reply) = evalshaOutcome sha1 reply := by
  cases reply with
  | error message =>
    show (CmdOps.noScriptReply sha1 (Reply.error message).toCmdReply >>= Client.evalSha1Reply) =
      if Bytes.contains message "NOSCRIPT" then _ else _
    unfold CmdOps.noScriptReply CmdOps.mentionsNoScript
    by_cases h : Bytes.contains message "NOSCRIPT"
    · rw [if_pos h]
      exact congrArg (· >>= Client.evalSha1Reply) (if_pos h)
    · rw [if_neg h]
      exact congrArg (· >>= Client.evalSha1Reply) (if_neg h)
  | _ => rfl

/-! ### The client -/

section Client
variable {σ : Type} {E : Executor σ} {sha1 : Bytes} {keys args : List Bytes} {s t : σ}

/-- Too many keys are rejected before anything is sent. -/
theorem run_evalSha1_of_many (E : Executor σ) (sha1 : Bytes) (args : List Bytes) (s : σ)
    (h : maxScriptKeys < keys.length) :
    (Client.evalSha1 E sha1 keys args).run s =
      (.error (.tooManyScriptKeys "EVALSHA" keys.length maxScriptKeys), s) := by
  unfold Client.evalSha1 CmdOps.evalSha1 CmdOps.scriptArguments
  rw [if_pos h]
  rfl

theorem evalSha1_eq (h : keys.length ≤ maxScriptKeys) : Client.evalSha1 E sha1 keys args =
    (CmdOps.cmdExecv E (evalshaArguments sha1 keys args)).decode fun reply =>
      CmdOps.noScriptReply sha1 reply >>= Client.evalSha1Reply := by
  unfold Client.evalSha1 CmdOps.evalSha1 CmdOps.scriptArguments
  rw [if_neg (Nat.not_lt.mpr h)]
  show ((CmdOps.cmdExecv E (evalshaArguments sha1 keys args)).decode _).decode _ = _
  exact Program.decode_decode _ _ _

theorem run_evalSha1_of_reply (h : keys.length ≤ maxScriptKeys) {reply : Reply}
    (hrun : (E (evalshaArguments sha1 keys args)).run s = (.ok reply, t)) :
    (Client.evalSha1 E sha1 keys args).run s = (evalshaOutcome sha1 reply, t) := by
  rw [evalSha1_eq h, run_decode_of_reply E hrun, noScriptReply_bind]

theorem run_evalSha1_of_throw (h : keys.length ≤ maxScriptKeys) {e : Exn}
    (hrun : (E (evalshaArguments sha1 keys args)).run s = (.error e, t)) :
    (Client.evalSha1 E sha1 keys args).run s = (.error e, t) := by
  rw [evalSha1_eq h, Program.run_decode, CmdOps.cmdExecv, Program.run_bind, hrun]
  rfl

theorem run_scriptLoad_of_reply {script : Bytes} {reply : Reply}
    (hrun : (E (scriptLoadArguments script)).run s = (.ok reply, t)) :
    (Client.scriptLoad E script).run s = (CmdOps.scriptLoadReply reply.toCmdReply, t) := run_decode_of_reply E hrun

theorem run_scriptLoad_of_throw {script : Bytes} {e : Exn}
    (hrun : (E (scriptLoadArguments script)).run s = (.error e, t)) :
    (Client.scriptLoad E script).run s = (.error e, t) := by
  unfold Client.scriptLoad CmdOps.scriptLoad
  rw [Program.run_decode, CmdOps.cmdExecv, Program.run_bind, show (E ["SCRIPT", "LOAD", script]).run s = _ from hrun]
  rfl

theorem scriptLoadReply_eq_ok_iff {reply : Reply} {sha : Bytes} :
    CmdOps.scriptLoadReply reply.toCmdReply = .ok sha ↔ reply = .string sha := by
  cases reply with
  | string text =>
    constructor
    · intro h
      cases h
      rfl
    · intro h
      cases h
      rfl
  | _ => constructor <;> intro h <;> cases h

end Client

/-! ### The typed facade -/

section Template
variable {K V σ : Type} {tpl : Template K V} {E : Executor σ} {sha1 : Bytes} {cache : Sha1Cache} {s t : σ}

theorem run_scriptLoad_of_ok (cache : Sha1Cache) {script sha : Bytes}
    (h : (Client.scriptLoad E script).run s = (.ok sha, t)) :
    (Template.scriptLoad E script).run (cache, s) = (.ok sha, (cache.emplace sha script, t)) := by
  unfold Template.scriptLoad
  rw [Program.run_bind, Program.run_lift, h]
  rfl

/-- The handler loads the script that it finds in the cache, and calls the client again. -/
theorem run_reload_of_known {sKeys sArgs : List Bytes} {e : Exn} {script : Bytes}
    (hcache : AList.lookup sha1 cache = some script) : (Template.reload E sha1 sKeys sArgs e).run (cache, t) =
      Program.resume
        (fun newSha => do
          Program.modify fun s => (s.1.emplace newSha script, s.2)
          (Client.evalSha1 E newSha sKeys sArgs).lift)
        (((Client.scriptLoad E script).run t).1, (cache, ((Client.scriptLoad E script).run t).2)) := by
  unfold Template.reload
  rw [Program.run_bind, Program.run_get, Program.resume_ok, hcache]
  rfl

variable {keys : List K} {args : List V} {sKeys sArgs : List Bytes}

theorem evalSha1_of_serialize_error {e : Exn}
    (h : (keys.mapM tpl.serializeKey >>= fun _ => args.mapM tpl.serializeValue) = .error e) :
    (tpl.evalSha1 E sha1 keys args).run (cache, s) = (.error e, (cache, s)) := by
  unfold Template.evalSha1
  cases hk : keys.mapM tpl.serializeKey with
  | error e' =>
    rw [hk] at h
    cases h
    rfl
  | ok sKeys =>
    rw [hk, Except.ok_bind] at h
    rw [h]
    rfl

variable (hk : keys.mapM tpl.serializeKey = .ok sKeys) (ha : args.mapM tpl.serializeValue = .ok sArgs)
include hk ha

theorem run_evalSha1_eq : (tpl.evalSha1 E sha1 keys args).run (cache, s) =
    Program.recover (fun e => if e.isNoScript then Template.reload E sha1 sKeys sArgs e else Program.throw e)
      (((Client.evalSha1 E sha1 sKeys sArgs).run s).1, (cache, ((Client.evalSha1 E sha1 sKeys sArgs).run s).2)) := by
  unfold Template.evalSha1
  rw [hk, ha]
  rfl

/-- Where the client does not raise `no_script_error`, its outcome stands. -/
theorem run_evalSha1_of_outcome {outcome : Outcome CmdReply}
    (h : (Client.evalSha1 E sha1 sKeys sArgs).run s = (outcome, t))
    (hother : ∀ e, outcome = .error e → e.isNoScript = false) :
    (tpl.evalSha1 E sha1 keys args).run (cache, s) = (outcome, (cache, t)) := by
  rw [run_evalSha1_eq hk ha, h]
  cases outcome with
  | ok reply => rfl
  | error e =>
    rw [Program.recover_error, hother e rfl]
    rfl

variable {e : Exn} (h : (Client.evalSha1 E sha1 sKeys sArgs).run s = (.error e, t)) (hmissing : e.isNoScript = true)
include h hmissing

theorem run_evalSha1_of_missing : (tpl.evalSha1 E sha1 keys args).run (cache, s) =
    (Template.reload E sha1 sKeys sArgs e).run (cache, t) := by
  rw [run_evalSha1_eq hk ha, h, Program.recover_error, hmissing]
  rfl

theorem run_evalSha1_of_unknown (hcache : AList.lookup sha1 cache = none) :
    (tpl.evalSha1 E sha1 keys args).run (cache, s) = (.error e, (cache, t)) := by
  rw [run_evalSha1_of_missing hk ha h hmissing]
  unfold Template.reload
  rw [Program.run_bind, Program.run_get, Program.resume_ok, hcache]
  rfl

variable {script : Bytes} (hcache : AList.lookup sha1 cache = some script)
include hcache

theorem run_evalSha1_of_load_error {e' : Exn} {u : σ} (hload : (Client.scriptLoad E script).run t = (.error e', u)) :
    (tpl.evalSha1 E sha1 keys args).run (cache, s) = (.error e', (cache, u)) := by
  rw [run_evalSha1_of_missing hk ha h hmissing, run_reload_of_known hcache, hload]
  rfl

/-- A digest that the cache knows is retried once, under the digest of the reloaded script. -/
theorem run_evalSha1_of_loaded {newSha : Bytes} {u : σ}
    (hload : (Client.scriptLoad E script).run t = (.ok newSha, u)) :
    (tpl.evalSha1 E sha1 keys args).run (cache, s) = (((Client.evalSha1 E newSha sKeys sArgs).run u).1,
      (cache.emplace newSha script, ((Client.evalSha1 E newSha sKeys sArgs).run u).2)) := by
  rw [run_evalSha1_of_missing hk ha h hmissing, run_reload_of_known hcache, hload]
  rfl

end Template

/-! ### Every way a call can go -/

section Inversion
variable {K V σ : Type} (tpl : Template K V) (E : Executor σ) (sha1 : Bytes) (keys : List K) (args : List V)
  (cache : Sha1Cache) (s : σ)

/-- How a call of `eval_sha1` ends, with the cache and the connection that it leaves. -/
inductive EvalSha1Run : Outcome CmdReply × (Sha1Cache × σ) → Prop where
  | unserialized (e : Exn) : EvalSha1Run (.error e, (cache, s))
  | answered {sKeys sArgs : List Bytes} {outcome : Outcome CmdReply} {t : σ}
      (hk : keys.mapM tpl.serializeKey = .ok sKeys) (ha : args.mapM tpl.serializeValue = .ok sArgs)
      (hclient : (Client.evalSha1 E sha1 sKeys sArgs).run s = (outcome, t))
      (hother : ∀ e, outcome = .error e → e.isNoScript = false) : EvalSha1Run (outcome, (cache, t))
  | unknown {sKeys sArgs : List Bytes} {e : Exn} {t : σ}
      (hk : keys.mapM tpl.serializeKey = .ok sKeys) (ha : args.mapM tpl.serializeValue = .ok sArgs)
      (hclient : (Client.evalSha1 E sha1 sKeys sArgs).run s = (.error e, t)) (hmissing : e.isNoScript = true)
      (hcache : AList.lookup sha1 cache = none) : EvalSha1Run (.error e, (cache, t))
  | unloaded {sKeys sArgs : List Bytes} {e e' : Exn} {script : Bytes} {t u : σ}
      (hk : keys.mapM tpl.serializeKey = .ok sKeys) (ha : args.mapM tpl.serializeValue = .ok sArgs)
      (hclient : (Client.evalSha1 E sha1 sKeys sArgs).run s = (.error e, t)) (hmissing : e.isNoScript = true)
      (hcache : AList.lookup sha1 cache = some script)
      (hload : (Client.scriptLoad E script).run t = (.error e', u)) : EvalSha1Run (.error e', (cache, u))
  | retried {sKeys sArgs : List Bytes} {e : Exn} {script newSha : Bytes} {t u : σ}
      (hk : keys.mapM tpl.serializeKey = .ok sKeys) (ha : args.mapM tpl.serializeValue = .ok sArgs)
      (hclient : (Client.evalSha1 E sha1 sKeys sArgs).run s = (.error e, t)) (hmissing : e.isNoScript = true)
      (hcache : AList.lookup sha1 cache = some script)
      (hload : (Client.scriptLoad E script).run t = (.ok newSha, u)) :
      EvalSha1Run (((Client.evalSha1 E newSha sKeys sArgs).run u).1,
        (cache.emplace newSha script, ((Client.evalSha1 E newSha sKeys sArgs).run u).2))

theorem evalSha1_run :
    EvalSha1Run tpl E sha1 keys args cache s ((tpl.evalSha1 E sha1 keys args).run (cache, s)) := by
  cases hk : keys.mapM tpl.serializeKey with
  | error e =>
    rw [evalSha1_of_serialize_error (e := e) (by rw [hk]; rfl)]
    exact .unserialized e
  | ok sKeys =>
  cases ha : args.mapM tpl.serializeValue with
  | error e =>
    rw [evalSha1_of_serialize_error (e := e) (by rw [hk, ha]; rfl)]
    exact .unserialized e
  | ok sArgs =>
  rcases hclient : (Client.evalSha1 E sha1 sKeys sArgs).run s with ⟨outcome, t⟩
  by_cases hmissing : ∃ e, outcome = .error e ∧ e.isNoScript = true
  case neg =>
    have hother : ∀ e, outcome = .error e → e.isNoScript = false := fun e he =>
      Bool.eq_false_iff.mpr fun hm => hmissing ⟨e, he, hm⟩
    rw [run_evalSha1_of_outcome hk ha hclient hother]
    exact .answered hk ha hclient hother
  case pos =>
    obtain ⟨e, rfl, hm⟩ := hmissing
    cases hcache : AList.lookup sha1 cache with
    | none =>
      rw [run_evalSha1_of_unknown hk ha hclient hm hcache]
      exact .unknown hk ha hclient hm hcache
    | some script =>
      rcases hload : (Client.scriptLoad E script).run t with ⟨e' | newSha, u⟩
      · rw [run_evalSha1_of_load_error hk ha hclient hm hcache hload]
        exact .unloaded hk ha hclient hm hcache hload
      · rw [run_evalSha1_of_loaded hk ha hclient hm hcache hload]
        exact .retried hk ha hclient hm hcache hload

/-- What a call makes of the cache: nothing, or one entry for a script that was loaded again. -/
theorem cache_evalSha1 :
    ((tpl.evalSha1 E sha1 keys args).run (cache, s)).2.1 = cache ∨
      ∃ script newSha t u, AList.lookup sha1 cache = some script ∧
        (Client.scriptLoad E script).run t = (.ok newSha, u) ∧
        ((tpl.evalSha1 E sha1 keys args).run (cache, s)).2.1 = cache.emplace newSha script := by
  have hrun := evalSha1_run tpl E sha1 keys args cache s
  generalize (tpl.evalSha1 E sha1 keys args).run (cache, s) = result at hrun ⊢
  cases hrun with
  | retried hk ha hclient hmissing hcache hload => exact Or.inr ⟨_, _, _, _, hcache, hload, rfl⟩
  | _ => exact Or.inl rfl

end Inversion

end Redisdal
