import Redisdal.Theorems.Scripts

/-! # At most one execution

One call of the facade's `eval_sha1` against a server that answers each command as it likes: when the script
runs at most once, and when `no_script_error` is raised for nothing but a missing script. -/

namespace Redisdal

/-! ### The server -/

/-- The error code of a message: its first word. -/
def errorCode (message : Bytes) : Bytes := message.takeWhile (· != Bytes.ofChar ' ')

/-- What becomes of an `EVALSHA`: the script runs and replies, the script is missing, or a transport error comes
    before or after it ran. -/
inductive EvalAnswer where
  | ran (reply : Reply) (code : ∀ message, reply = .error message → errorCode message ≠ "NOSCRIPT")
  | missing (message : Bytes) (code : errorCode message = "NOSCRIPT")
  | lost (executed : Bool) (e : Exn) (transport : e.isNoScript = false)

namespace EvalAnswer

/-- What the executor returns or throws. -/
def outcome : EvalAnswer → Outcome Reply
  | ran reply _ => .ok reply
  | missing message _ => .ok (.error message)
  | lost _ e _ => .error e

/-- How often the script ran. -/
def runs : EvalAnswer → Nat
  | ran .. => 1
  | missing .. => 0
  | lost executed .. => if executed then 1 else 0

/-- An error of the script itself whose text mentions NOSCRIPT. -/
def Misread : EvalAnswer → Prop
  | ran (.error message) _ => Bytes.contains message "NOSCRIPT" = true
  | _ => False

end EvalAnswer

/-- A server that answers each command by its state, which each command changes. -/
structure Adversary (τ : Type) where
  eval : τ → List Bytes → EvalAnswer
  /-- The answer to any other command. -/
  other : τ → List Bytes → Outcome Reply
  next : τ → List Bytes → τ

/-- The connection to the server; it counts the executions of scripts. -/
def Adversary.executor {τ : Type} (A : Adversary τ) : Executor (τ × Nat) := fun argv => ⟨fun s =>
  if argv.headD [] = "EVALSHA" then
    ((A.eval s.1 argv).outcome, (A.next s.1 argv, s.2 + (A.eval s.1 argv).runs))
  else (A.other s.1 argv, (A.next s.1 argv, s.2))⟩

/-! ### The property and its condition -/

section AtMostOnce
variable {K V τ : Type} (tpl : Template K V) (A : Adversary τ) (cache : Sha1Cache)

/-- The client's `eval_sha1` raises `no_script_error` only for an error whose code is NOSCRIPT. -/
def RaisesForCode (s : τ × Nat) (sha1 : Bytes) (sKeys sArgs : List Bytes) : Prop :=
  ∀ e, ((Client.evalSha1 A.executor sha1 sKeys sArgs).run s).1 = .error e → e.isNoScript = true →
    ∃ message, ((A.executor (evalshaArguments sha1 sKeys sArgs)).run s).1 = .ok (.error message) ∧
      errorCode message = "NOSCRIPT"

/-- One call of the facade makes the server run the script at most once, and each call of the client's
    `eval_sha1` that it makes raises `no_script_error` only for an error whose code is NOSCRIPT. -/
structure AtMostOnce (s : τ × Nat) (sha1 : Bytes) (keys : List K) (args : List V) : Prop where
  runs : ((tpl.evalSha1 A.executor sha1 keys args).run (cache, s)).2.2.2 ≤ s.2 + 1
  first : ∀ sKeys sArgs, keys.mapM tpl.serializeKey = .ok sKeys → args.mapM tpl.serializeValue = .ok sArgs →
    RaisesForCode A s sha1 sKeys sArgs
  retry : ∀ sKeys sArgs, keys.mapM tpl.serializeKey = .ok sKeys → args.mapM tpl.serializeValue = .ok sArgs →
    ∀ e t script newSha u, (Client.evalSha1 A.executor sha1 sKeys sArgs).run s = (.error e, t) → e.isNoScript = true →
      AList.lookup sha1 cache = some script → (Client.scriptLoad A.executor script).run t = (.ok newSha, u) →
      RaisesForCode A u newSha sKeys sArgs

/-- No `EVALSHA` that the call comes to send is answered by an error of the script that mentions NOSCRIPT. -/
structure NothingMisread (t : τ) (sha1 : Bytes) (keys : List K) (args : List V) : Prop where
  first : ∀ sKeys sArgs, keys.mapM tpl.serializeKey = .ok sKeys → args.mapM tpl.serializeValue = .ok sArgs →
    sKeys.length ≤ maxScriptKeys → ¬(A.eval t (evalshaArguments sha1 sKeys sArgs)).Misread
  retry : ∀ sKeys sArgs, keys.mapM tpl.serializeKey = .ok sKeys → args.mapM tpl.serializeValue = .ok sArgs →
    sKeys.length ≤ maxScriptKeys → ∀ message code script newSha,
      A.eval t (evalshaArguments sha1 sKeys sArgs) = .missing message code → AList.lookup sha1 cache = some script →
      A.other (A.next t (evalshaArguments sha1 sKeys sArgs)) (scriptLoadArguments script) = .ok (.string newSha) →
      ¬(A.eval (A.next (A.next t (evalshaArguments sha1 sKeys sArgs)) (scriptLoadArguments script))
          (evalshaArguments newSha sKeys sArgs)).Misread

end AtMostOnce

/-! ### One call of the client -/

/-- A message whose code is NOSCRIPT mentions it. -/
theorem contains_of_errorCode {message : Bytes} (h : errorCode message = "NOSCRIPT") :
    Bytes.contains message "NOSCRIPT" = true := by
  have hprefix : errorCode message <+: message := List.takeWhile_prefix _
  rw [h] at hprefix
  exact decide_eq_true hprefix.isInfix

namespace EvalAnswer

/-- What the client makes of an answer. -/
def clientOutcome (sha1 : Bytes) (answer : EvalAnswer) : Outcome CmdReply := answer.outcome >>= evalshaOutcome sha1

theorem clientOutcome_missing {sha1 message : Bytes} (code : errorCode message = "NOSCRIPT") :
    (missing message code).clientOutcome sha1 = .error (.noScript "EVALSHA" sha1) :=
  if_pos (contains_of_errorCode code)

/-- `no_script_error` is raised for a missing script and for a script that mentions NOSCRIPT in its error. -/
theorem isNoScript_cases {sha1 : Bytes} {answer : EvalAnswer} {e : Exn} (h : answer.clientOutcome sha1 = .error e)
    (he : e.isNoScript = true) : answer.Misread ∨ ∃ message code, answer = missing message code := by
  cases answer with
  | missing message code => exact Or.inr ⟨message, code, rfl⟩
  | lost executed e' transport =>
    cases h
    rw [transport] at he
    cases he
  | ran reply code =>
    cases reply with
    | error message =>
      by_cases hmentions : Bytes.contains message "NOSCRIPT" = true
      · exact Or.inl hmentions
      · have houtcome : (ran (.error message) code).clientOutcome sha1 = .error (.redisError message) :=
          if_neg hmentions
        rw [houtcome] at h
        cases h
        cases he
    | _ => cases h

theorem clientOutcome_of_misread {sha1 : Bytes} {answer : EvalAnswer} (h : answer.Misread) :
    answer.clientOutcome sha1 = .error (.noScript "EVALSHA" sha1) := by
  cases answer with
  | ran reply code =>
    cases reply with
    | error message => exact if_pos h
    | _ => cases h
  | _ => cases h

theorem runs_le (answer : EvalAnswer) : answer.runs ≤ 1 := by
  rcases answer with _ | _ | ⟨executed⟩
  · exact Nat.le_refl 1
  · exact Nat.zero_le 1
  · cases executed
    · exact Nat.zero_le 1
    · exact Nat.le_refl 1

end EvalAnswer

namespace Adversary
variable {K V τ : Type} {tpl : Template K V} (A : Adversary τ) {cache : Sha1Cache} (sha1 : Bytes)
  {sKeys sArgs : List Bytes} (s : τ × Nat)

theorem run_evalsha (sKeys sArgs : List Bytes) : (A.executor (evalshaArguments sha1 sKeys sArgs)).run s =
    ((A.eval s.1 (evalshaArguments sha1 sKeys sArgs)).outcome,
      (A.next s.1 (evalshaArguments sha1 sKeys sArgs),
        s.2 + (A.eval s.1 (evalshaArguments sha1 sKeys sArgs)).runs)) := rfl

theorem run_client (sArgs : List Bytes) (h : sKeys.length ≤ maxScriptKeys) :
    (Client.evalSha1 A.executor sha1 sKeys sArgs).run s =
    ((A.eval s.1 (evalshaArguments sha1 sKeys sArgs)).clientOutcome sha1,
      (A.next s.1 (evalshaArguments sha1 sKeys sArgs),
        s.2 + (A.eval s.1 (evalshaArguments sha1 sKeys sArgs)).runs)) := by
  have hrun := run_evalsha A sha1 s sKeys sArgs
  unfold EvalAnswer.clientOutcome
  cases houtcome : (A.eval s.1 (evalshaArguments sha1 sKeys sArgs)).outcome with
  | ok reply =>
    rw [houtcome] at hrun
    exact run_evalSha1_of_reply h hrun
  | error e =>
    rw [houtcome] at hrun
    exact run_evalSha1_of_throw h hrun

theorem run_load (script : Bytes) : (A.executor (scriptLoadArguments script)).run s =
    (A.other s.1 (scriptLoadArguments script), (A.next s.1 (scriptLoadArguments script), s.2)) := rfl

theorem run_scriptLoad_eq_ok_iff {script newSha : Bytes} {u : τ × Nat} :
    (Client.scriptLoad A.executor script).run s = (.ok newSha, u) ↔
      A.other s.1 (scriptLoadArguments script) = .ok (.string newSha) ∧
        u = (A.next s.1 (scriptLoadArguments script), s.2) := by
  have hload := run_load A s script
  cases hanswer : A.other s.1 (scriptLoadArguments script) with
  | ok reply =>
    rw [hanswer] at hload
    rw [run_scriptLoad_of_reply hload, Prod.mk.injEq, scriptLoadReply_eq_ok_iff, Except.ok.injEq, eq_comm (a := u)]
  | error e =>
    rw [hanswer] at hload
    rw [run_scriptLoad_of_throw hload, Prod.mk.injEq]
    simp

theorem snd_run_scriptLoad (script : Bytes) : ((Client.scriptLoad A.executor script).run s).2 =
    (A.next s.1 (scriptLoadArguments script), s.2) := by
  have hload := run_load A s script
  cases hanswer : A.other s.1 (scriptLoadArguments script) with
  | ok reply =>
    rw [hanswer] at hload
    rw [run_scriptLoad_of_reply hload]
  | error e =>
    rw [hanswer] at hload
    rw [run_scriptLoad_of_throw hload]

/-- The client raises `no_script_error` for the right reason exactly when it misreads no error of the script. -/
theorem raisesForCode_iff : RaisesForCode A s sha1 sKeys sArgs ↔
    (sKeys.length ≤ maxScriptKeys → ¬(A.eval s.1 (evalshaArguments sha1 sKeys sArgs)).Misread) := by
  by_cases h : sKeys.length ≤ maxScriptKeys
  case neg =>
    refine ⟨fun _ hle => absurd hle h, fun _ e he hmissing => ?_⟩
    rw [run_evalSha1_of_many A.executor sha1 sArgs s (Nat.lt_of_not_le h)] at he
    cases he
    cases hmissing
  case pos =>
    unfold RaisesForCode
    rw [run_client A sha1 s sArgs h, run_evalsha]
    constructor
    · intro hraises _ hmisread
      obtain ⟨message, houtcome, hcode⟩ := hraises _ (EvalAnswer.clientOutcome_of_misread hmisread) rfl
      generalize A.eval s.1 (evalshaArguments sha1 sKeys sArgs) = answer at hmisread houtcome
      cases answer with
      | ran reply code =>
        cases houtcome
        exact code message rfl hcode
      | _ => cases hmisread
    · intro hreadable e he hmissing
      rcases EvalAnswer.isNoScript_cases he hmissing with hmisread | ⟨message, code, hanswer⟩
      · exact absurd hmisread (hreadable h)
      · rw [hanswer]
        exact ⟨message, rfl, code⟩

end Adversary

/-! ### One call of the facade -/

section Facade
variable {K V τ : Type} {tpl : Template K V} {A : Adversary τ} {cache : Sha1Cache} {sha1 : Bytes} {keys : List K}
  {args : List V} {s : τ × Nat}

theorem Adversary.runs_client_le (A : Adversary τ) (sha1 : Bytes) (s : τ × Nat) (sKeys sArgs : List Bytes) :
    ((Client.evalSha1 A.executor sha1 sKeys sArgs).run s).2.2 ≤ s.2 + 1 := by
  by_cases hle : sKeys.length ≤ maxScriptKeys
  · rw [run_client A sha1 s sArgs hle]
    exact Nat.add_le_add_left (EvalAnswer.runs_le _) s.2
  · rw [run_evalSha1_of_many A.executor sha1 sArgs s (Nat.lt_of_not_le hle)]
    exact Nat.le_succ s.2

/-- Where nothing is misread, `no_script_error` means that the script has not run. -/
theorem NothingMisread.state_of_missing (h : NothingMisread tpl A cache s.1 sha1 keys args) {sKeys sArgs : List Bytes}
    (hk : keys.mapM tpl.serializeKey = .ok sKeys) (ha : args.mapM tpl.serializeValue = .ok sArgs) {e : Exn}
    {t : τ × Nat} (hclient : (Client.evalSha1 A.executor sha1 sKeys sArgs).run s = (.error e, t))
    (hmissing : e.isNoScript = true) : t.2 = s.2 := by
  by_cases hle : sKeys.length ≤ maxScriptKeys
  case neg =>
    rw [run_evalSha1_of_many A.executor sha1 sArgs s (Nat.lt_of_not_le hle)] at hclient
    cases hclient
    rfl
  case pos =>
    rw [Adversary.run_client A sha1 s sArgs hle, Prod.mk.injEq] at hclient
    obtain ⟨houtcome, rfl⟩ := hclient
    rcases EvalAnswer.isNoScript_cases houtcome hmissing with hmisread | ⟨message, code, hanswer⟩
    · exact absurd hmisread (h.first sKeys sArgs hk ha hle)
    · rw [hanswer]
      rfl

/-- Where nothing is misread, only a missing script is retried, and it has not run yet. -/
theorem runs_evalSha1_le (h : NothingMisread tpl A cache s.1 sha1 keys args) :
    ((tpl.evalSha1 A.executor sha1 keys args).run (cache, s)).2.2.2 ≤ s.2 + 1 := by
  have hrun := evalSha1_run tpl A.executor sha1 keys args cache s
  generalize (tpl.evalSha1 A.executor sha1 keys args).run (cache, s) = result at hrun ⊢
  cases hrun with
  | unserialized e => exact Nat.le_succ s.2
  | @answered sKeys sArgs outcome t hk ha hclient hother =>
    have hruns := A.runs_client_le sha1 s sKeys sArgs
    rwa [hclient] at hruns
  | @unknown sKeys sArgs e t hk ha hclient hmissing hcache =>
    have hruns := A.runs_client_le sha1 s sKeys sArgs
    rwa [hclient] at hruns
  | @unloaded sKeys sArgs e e' script t u hk ha hclient hmissing hcache hload =>
    have hstate : u.2 = t.2 := by
      have hsnd := Adversary.snd_run_scriptLoad A t script
      rw [hload] at hsnd
      rw [show u = _ from hsnd]
    show u.2 ≤ s.2 + 1
    rw [hstate, h.state_of_missing hk ha hclient hmissing]
    exact Nat.le_succ s.2
  | @retried sKeys sArgs e script newSha t u hk ha hclient hmissing hcache hload =>
    have hruns := A.runs_client_le newSha u sKeys sArgs
    have hstate : u.2 = t.2 := by
      obtain ⟨-, rfl⟩ := (Adversary.run_scriptLoad_eq_ok_iff A t).mp hload
      rfl
    rw [hstate, h.state_of_missing hk ha hclient hmissing] at hruns
    exact hruns

/-- A script runs at most once, and `no_script_error` is raised for the code NOSCRIPT only, exactly when no error of
    the script that mentions NOSCRIPT comes back. -/
theorem atMostOnce_iff (tpl : Template K V) (A : Adversary τ) (cache : Sha1Cache) (s : τ × Nat) (sha1 : Bytes)
    (keys : List K) (args : List V) :
    AtMostOnce tpl A cache s sha1 keys args ↔ NothingMisread tpl A cache s.1 sha1 keys args := by
  constructor
  · intro h
    refine ⟨fun sKeys sArgs hk ha => (Adversary.raisesForCode_iff A sha1 s).mp (h.first sKeys sArgs hk ha), ?_⟩
    intro sKeys sArgs hk ha hle message code script newSha hanswer hcache hload
    have hclient := Adversary.run_client A sha1 s sArgs hle
    rw [hanswer, EvalAnswer.clientOutcome_missing] at hclient
    have hloaded :=
      (Adversary.run_scriptLoad_eq_ok_iff A (A.next s.1 (evalshaArguments sha1 sKeys sArgs), s.2)).mpr ⟨hload, rfl⟩
    have hretry := h.retry sKeys sArgs hk ha _ _ _ _ _ hclient rfl hcache hloaded
    exact (Adversary.raisesForCode_iff A newSha _).mp hretry hle
  · intro h
    refine ⟨runs_evalSha1_le h, fun sKeys sArgs hk ha => ?_, ?_⟩
    · exact (Adversary.raisesForCode_iff A sha1 s).mpr (h.first sKeys sArgs hk ha)
    intro sKeys sArgs hk ha e t script newSha u hclient hm hcache hload
    rw [Adversary.raisesForCode_iff]
    intro hle
    rw [Adversary.run_client A sha1 s sArgs hle, Prod.mk.injEq] at hclient
    obtain ⟨houtcome, rfl⟩ := hclient
    obtain ⟨hloaded, rfl⟩ := (Adversary.run_scriptLoad_eq_ok_iff A _).mp hload
    rcases EvalAnswer.isNoScript_cases houtcome hm with hmisread | ⟨message, code, hanswer⟩
    · exact absurd hmisread (h.first sKeys sArgs hk ha hle)
    · exact h.retry sKeys sArgs hk ha hle message code script newSha hanswer hcache hloaded

end Facade

/-- A server on which the script runs and fails with an error that mentions NOSCRIPT. -/
def failingScript : Adversary Unit where
  eval _ _ := .ran (.error "ERR no key is named NOSCRIPT") (by rintro _ ⟨⟩; decide)
  other _ _ := .ok (.string "sha")
  next _ _ := ()

/-- A script that fails so runs twice. -/
theorem not_atMostOnce_failingScript :
    ¬AtMostOnce stringTemplate failingScript (UnorderedMap.emplace ∅ "sha" "return 1") ((), 0) "sha" [] [] := by
  intro h
  have hruns : ((stringTemplate.evalSha1 failingScript.executor "sha" [] []).run
      (UnorderedMap.emplace ∅ "sha" "return 1", ((), 0))).2.2.2 = 2 := by decide
  exact absurd h.runs (by rw [hruns]; decide)

end Redisdal
