import Redisdal.Theorems.AtMostOnce

/-! # The script cache over whole runs

A server that keeps the scripts loaded into it and may lose them before any command, the runs of
`script_load` and `eval_sha1` calls on one facade, and what the facade's cache makes of them. -/

namespace Redisdal

/-! ### The server -/

/-- What a server makes of scripts: their digests, what they do with the arguments of an `EVALSHA` after the
    digest, and the message for a digest that it does not know. -/
structure ScriptServer (δ : Type) where
  digest : Bytes → Bytes
  digest_injective : Function.Injective digest
  execute : Bytes → List Bytes → δ → Reply × δ
  execute_error : ∀ script args data message, (execute script args data).1 = .error message →
    Bytes.contains message "NOSCRIPT" = false
  missing : Bytes → Bytes
  errorCode_missing : ∀ sha1, errorCode (missing sha1) = "NOSCRIPT"

/-- The loaded scripts and the data, with the commands received and the scripts executed so far. -/
structure ScriptDb (δ : Type) where
  loaded : List Bytes
  data : δ
  sent : List (List Bytes)
  ran : List (Bytes × List Bytes)

variable {K V δ : Type}

/-- The scripts that the next command finds; `flush n` tells whether they are flushed before command `n`. -/
def ScriptDb.inForce (flush : Nat → Bool) (db : ScriptDb δ) : List Bytes :=
  if flush db.sent.length then [] else db.loaded

namespace ScriptServer

/-- The script with the digest runs, if it is loaded. -/
def evalsha (S : ScriptServer δ) (db : ScriptDb δ) (sha1 : Bytes) (args : List Bytes) : Reply × ScriptDb δ :=
  match db.loaded.find? fun script => S.digest script = sha1 with
  | some script =>
    let done := S.execute script args db.data
    (done.1, { db with data := done.2, ran := db.ran ++ [(script, args)] })
  | none => (.error (S.missing sha1), db)

/-- One command: its reply and what it leaves. -/
def command (S : ScriptServer δ) (db : ScriptDb δ) (argv : List Bytes) : Reply × ScriptDb δ :=
  match argv with
  | name :: argument :: rest =>
    if name = "EVALSHA" then S.evalsha db argument rest
    else if name = "SCRIPT" ∧ argument = "LOAD" then
      match rest with
      | [script] => (.string (S.digest script), { db with loaded := script :: db.loaded })
      | _ => (.error "ERR wrong number of arguments", db)
    else (.error "ERR unknown command", db)
  | _ => (.error "ERR unknown command", db)

def executor (S : ScriptServer δ) (flush : Nat → Bool) : Executor (ScriptDb δ) := fun argv => ⟨fun db =>
  let answer := S.command { db with loaded := db.inForce flush } argv
  (.ok answer.1, { answer.2 with sent := db.sent ++ [argv] })⟩

end ScriptServer

/-! ### Runs -/

/-- A call of the facade. -/
inductive ScriptCall (K V : Type) where
  | load (script : Bytes)
  | eval (sha1 : Bytes) (keys : List K) (args : List V)

/-- A facade and its server, with the digests that `script_load` has returned. -/
structure Session (δ : Type) where
  cache : Sha1Cache
  server : ScriptDb δ
  returned : List Bytes

namespace Session

def start (db : ScriptDb δ) : Session δ := ⟨∅, db, []⟩

section
variable (tpl : Template K V) (S : ScriptServer δ) (flush : Nat → Bool)

def step (s : Session δ) : ScriptCall K V → Session δ
  | .load script =>
    let result := (Template.scriptLoad (S.executor flush) script).run (s.cache, s.server)
    match result.1 with
    | .ok sha => ⟨result.2.1, result.2.2, s.returned ++ [sha]⟩
    | .error _ => ⟨result.2.1, result.2.2, s.returned⟩
  | .eval sha1 keys args =>
    let result := (tpl.evalSha1 (S.executor flush) sha1 keys args).run (s.cache, s.server)
    ⟨result.2.1, result.2.2, s.returned⟩

def run (s : Session δ) (calls : List (ScriptCall K V)) : Session δ := calls.foldl (step tpl S flush) s

end

end Session

/-! ### Transparency -/

/-- The outcome of a call whose script gave the reply. -/
def scriptOutcome : Reply → Outcome CmdReply
  | .error message => .error (.redisError message)
  | reply => .ok reply.toCmdReply

/-- The commands `sent` brought the script to run once, and its reply to the caller. -/
structure RunsOnce (S : ScriptServer δ) (script : Bytes) (args : List Bytes) (sent : List (List Bytes))
    (db db' : ScriptDb δ) (outcome : Outcome CmdReply) : Prop where
  sent : db'.sent = db.sent ++ sent
  ran : db'.ran = db.ran ++ [(script, args)]
  data : db'.data = (S.execute script args db.data).2
  outcome : outcome = scriptOutcome (S.execute script args db.data).1

/-- The commands `sent` ran nothing, and the caller sees `no_script_error`. -/
structure RunsNothing (sha1 : Bytes) (sent : List (List Bytes)) (db db' : ScriptDb δ) (outcome : Outcome CmdReply) :
    Prop where
  sent : db'.sent = db.sent ++ sent
  ran : db'.ran = db.ran
  data : db'.data = db.data
  outcome : outcome = .error (.noScript "EVALSHA" sha1)

/-- The arguments that an executed script sees. -/
def executedArguments (sKeys sArgs : List Bytes) : List Bytes := [Bytes.decimal sKeys.length] ++ sKeys ++ sArgs

/-- A call of `eval_sha1` with the digest of a script that the facade has loaded. -/
structure CachedCall (S : ScriptServer δ) (flush : Nat → Bool) (script : Bytes) (sKeys sArgs : List Bytes)
    (db db' : ScriptDb δ) (outcome : Outcome CmdReply) : Prop where
  hit : script ∈ db.inForce flush → RunsOnce S script (executedArguments sKeys sArgs)
    [evalshaArguments (S.digest script) sKeys sArgs] db db' outcome
  reloaded : script ∉ db.inForce flush → flush (db.sent.length + 2) = false →
    RunsOnce S script (executedArguments sKeys sArgs)
      [evalshaArguments (S.digest script) sKeys sArgs, scriptLoadArguments script,
        evalshaArguments (S.digest script) sKeys sArgs] db db' outcome
  flushed : script ∉ db.inForce flush → flush (db.sent.length + 2) = true →
    RunsNothing (S.digest script)
      [evalshaArguments (S.digest script) sKeys sArgs, scriptLoadArguments script,
        evalshaArguments (S.digest script) sKeys sArgs] db db' outcome

/-- A call of `eval_sha1` with a digest that the facade has not got from `script_load`. -/
structure ForeignCall (S : ScriptServer δ) (flush : Nat → Bool) (sha1 : Bytes) (sKeys sArgs : List Bytes)
    (db db' : ScriptDb δ) (outcome : Outcome CmdReply) : Prop where
  hit : ∀ script ∈ db.inForce flush, sha1 = S.digest script → RunsOnce S script (executedArguments sKeys sArgs)
    [evalshaArguments sha1 sKeys sArgs] db db' outcome
  missing : (∀ script ∈ db.inForce flush, sha1 ≠ S.digest script) →
    RunsNothing sha1 [evalshaArguments sha1 sKeys sArgs] db db' outcome

section
variable (tpl : Template K V) (S : ScriptServer δ) (flush : Nat → Bool)

/-- What holds of a facade at any point of a run. -/
structure Session.Transparent (s : Session δ) : Prop where
  loads : ∀ script, ∃ db',
    (Template.scriptLoad (S.executor flush) script).run (s.cache, s.server) =
      (.ok (S.digest script), (s.cache.emplace (S.digest script) script, db')) ∧
    AList.lookup (S.digest script) (s.cache.emplace (S.digest script) script) = some script ∧
    db'.loaded = script :: s.server.inForce flush ∧ db'.data = s.server.data ∧
    db'.sent = s.server.sent ++ [scriptLoadArguments script] ∧ db'.ran = s.server.ran
  digest : ∀ sha1 script, AList.lookup sha1 s.cache = some script → sha1 = S.digest script
  kept : ∀ (calls : List (ScriptCall K V)) sha1 script, AList.lookup sha1 s.cache = some script →
    AList.lookup sha1 (s.run tpl S flush calls).cache = some script
  cached : ∀ sha1 ∈ s.returned, ∃ script, sha1 = S.digest script ∧ AList.lookup sha1 s.cache = some script ∧
    ∀ (keys : List K) (args : List V) sKeys sArgs, keys.mapM tpl.serializeKey = .ok sKeys →
      args.mapM tpl.serializeValue = .ok sArgs → keys.length ≤ maxScriptKeys →
      ∃ outcome db',
        (tpl.evalSha1 (S.executor flush) sha1 keys args).run (s.cache, s.server) = (outcome, (s.cache, db')) ∧
        CachedCall S flush script sKeys sArgs s.server db' outcome
  foreign : ∀ sha1 ∉ s.returned, ∀ (keys : List K) (args : List V) sKeys sArgs,
    keys.mapM tpl.serializeKey = .ok sKeys → args.mapM tpl.serializeValue = .ok sArgs → keys.length ≤ maxScriptKeys →
      ∃ outcome db',
        (tpl.evalSha1 (S.executor flush) sha1 keys args).run (s.cache, s.server) = (outcome, (s.cache, db')) ∧
        ForeignCall S flush sha1 sKeys sArgs s.server db' outcome

end

/-! ### Commands -/

/-- A script that mentions NOSCRIPT in no error keeps its own outcome. -/
theorem evalshaOutcome_of_script {sha1 : Bytes} {reply : Reply}
    (h : ∀ message, reply = .error message → Bytes.contains message "NOSCRIPT" = false) :
    evalshaOutcome sha1 reply = scriptOutcome reply := by
  cases reply with
  | error message => exact if_neg (Bool.eq_false_iff.mp (h message rfl))
  | _ => rfl

namespace ScriptServer
variable (S : ScriptServer δ) (flush : Nat → Bool) (db : ScriptDb δ)

theorem evalsha_hit {script : Bytes} (args : List Bytes) (h : script ∈ db.loaded) :
    S.evalsha db (S.digest script) args = ((S.execute script args db.data).1,
      { db with data := (S.execute script args db.data).2, ran := db.ran ++ [(script, args)] }) := by
  unfold evalsha
  cases hfind : db.loaded.find? fun other => S.digest other = S.digest script with
  | none => exact absurd (List.find?_eq_none.mp hfind script h) (by simp)
  | some other =>
    have hdigest : S.digest other = S.digest script := by simpa using List.find?_some hfind
    rw [S.digest_injective hdigest]

theorem evalsha_miss {sha1 : Bytes} (args : List Bytes) (h : ∀ script ∈ db.loaded, sha1 ≠ S.digest script) :
    S.evalsha db sha1 args = (.error (S.missing sha1), db) := by
  unfold evalsha
  rw [List.find?_eq_none.mpr fun script hmem => by simpa using (h script hmem).symm]

theorem run_evalsha (sha1 : Bytes) (sKeys sArgs : List Bytes) :
    (S.executor flush (evalshaArguments sha1 sKeys sArgs)).run db =
      (.ok (S.evalsha { db with loaded := db.inForce flush } sha1 (executedArguments sKeys sArgs)).1,
        { (S.evalsha { db with loaded := db.inForce flush } sha1 (executedArguments sKeys sArgs)).2 with
          sent := db.sent ++ [evalshaArguments sha1 sKeys sArgs] }) := rfl

theorem run_scriptLoad (script : Bytes) : (Client.scriptLoad (S.executor flush) script).run db =
    (.ok (S.digest script),
      { db with loaded := script :: db.inForce flush, sent := db.sent ++ [scriptLoadArguments script] }) :=
  have hserver : (S.executor flush (scriptLoadArguments script)).run db = (.ok (.string (S.digest script)),
      { db with loaded := script :: db.inForce flush, sent := db.sent ++ [scriptLoadArguments script] }) := rfl
  run_scriptLoad_of_reply hserver

variable {script sha1 : Bytes} {sKeys : List Bytes} (sArgs : List Bytes) (hle : sKeys.length ≤ maxScriptKeys)
include hle

/-- A script in force runs, and its reply comes back. -/
theorem run_evalSha1_hit (h : script ∈ db.inForce flush) :
    (Client.evalSha1 (S.executor flush) (S.digest script) sKeys sArgs).run db =
      (scriptOutcome (S.execute script (executedArguments sKeys sArgs) db.data).1,
        ⟨db.inForce flush, (S.execute script (executedArguments sKeys sArgs) db.data).2,
          db.sent ++ [evalshaArguments (S.digest script) sKeys sArgs],
          db.ran ++ [(script, executedArguments sKeys sArgs)]⟩) := by
  have hserver : (S.executor flush (evalshaArguments (S.digest script) sKeys sArgs)).run db =
      (.ok (S.execute script (executedArguments sKeys sArgs) db.data).1,
        ⟨db.inForce flush, (S.execute script (executedArguments sKeys sArgs) db.data).2,
          db.sent ++ [evalshaArguments (S.digest script) sKeys sArgs],
          db.ran ++ [(script, executedArguments sKeys sArgs)]⟩) := by
    rw [run_evalsha, evalsha_hit]
    exact h
  rw [run_evalSha1_of_reply hle hserver, evalshaOutcome_of_script (S.execute_error script _ db.data)]

/-- A digest of no script in force is answered as missing. -/
theorem run_evalSha1_miss (h : ∀ script ∈ db.inForce flush, sha1 ≠ S.digest script) :
    (Client.evalSha1 (S.executor flush) sha1 sKeys sArgs).run db =
      (.error (.noScript "EVALSHA" sha1),
        ⟨db.inForce flush, db.data, db.sent ++ [evalshaArguments sha1 sKeys sArgs], db.ran⟩) := by
  have hserver : (S.executor flush (evalshaArguments sha1 sKeys sArgs)).run db = (.ok (.error (S.missing sha1)),
      ⟨db.inForce flush, db.data, db.sent ++ [evalshaArguments sha1 sKeys sArgs], db.ran⟩) := by
    rw [run_evalsha, evalsha_miss]
    exact h
  rw [run_evalSha1_of_reply hle hserver]
  exact Prod.ext (if_pos (contains_of_errorCode (S.errorCode_missing sha1))) rfl

end ScriptServer

/-! ### Steps -/

section Steps
variable {tpl : Template K V} {S : ScriptServer δ} {flush : Nat → Bool} {s : Session δ}

/-- The cache has the scripts behind the digests that were returned, and no others. -/
structure Session.Inv (S : ScriptServer δ) (s : Session δ) : Prop where
  digest : ∀ sha1 script, AList.lookup sha1 s.cache = some script → sha1 = S.digest script
  returned : ∀ sha1, sha1 ∈ s.cache ↔ sha1 ∈ s.returned

namespace Session

theorem inv_start (S : ScriptServer δ) (db : ScriptDb δ) : (start db).Inv S :=
  ⟨fun _ _ h => (by cases h), fun sha1 => iff_of_false (AList.notMem_empty sha1) List.not_mem_nil⟩

/-- What `script_load` leaves in the cache, also where the digest had its entry. -/
theorem Inv.lookup_emplace (h : s.Inv S) (script : Bytes) :
    AList.lookup (S.digest script) (s.cache.emplace (S.digest script) script) = some script := by
  rw [UnorderedMap.lookup_emplace, if_pos rfl]
  cases hlookup : AList.lookup (S.digest script) s.cache with
  | none => rfl
  | some other =>
    rw [S.digest_injective (h.digest _ _ hlookup)]
    rfl

theorem step_load (script : Bytes) : s.step tpl S flush (.load script) =
    ⟨s.cache.emplace (S.digest script) script,
      { s.server with
        loaded := script :: s.server.inForce flush
        sent := s.server.sent ++ [scriptLoadArguments script] },
      s.returned ++ [S.digest script]⟩ := by
  simp only [step, run_scriptLoad_of_ok s.cache (S.run_scriptLoad flush s.server script)]

/-- A script that is loaded again has its entry. -/
theorem cache_step_eval (tpl : Template K V) (flush : Nat → Bool) (h : s.Inv S) (sha1 : Bytes) (keys : List K)
    (args : List V) :
    (s.step tpl S flush (.eval sha1 keys args)).cache = s.cache := by
  show ((tpl.evalSha1 (S.executor flush) sha1 keys args).run (s.cache, s.server)).2.1 = s.cache
  obtain hcache | ⟨script, newSha, t, u, hlookup, hload, hcache⟩ :=
    cache_evalSha1 tpl (S.executor flush) sha1 keys args s.cache s.server
  · exact hcache
  · rw [S.run_scriptLoad] at hload
    cases hload
    rw [hcache, UnorderedMap.emplace, if_pos]
    rw [← h.digest sha1 script hlookup, ← AList.lookup_isSome, hlookup]
    rfl

theorem inv_step (h : s.Inv S) (call : ScriptCall K V) : (s.step tpl S flush call).Inv S := by
  cases call with
  | load script =>
    rw [step_load]
    refine ⟨fun sha1 other hlookup => ?_, fun sha1 => ?_⟩
    · rw [UnorderedMap.lookup_emplace, Option.or_eq_some_iff] at hlookup
      rcases hlookup with hlookup | ⟨-, hlookup⟩
      · exact h.digest sha1 other hlookup
      · split at hlookup
        · next hsha => cases hlookup; exact hsha
        · cases hlookup
    · rw [UnorderedMap.mem_emplace, h.returned, List.mem_append, List.mem_singleton]
  | eval sha1 keys args =>
    have hcache := cache_step_eval tpl flush h sha1 keys args
    refine ⟨fun sha1 script hlookup => h.digest sha1 script (hcache ▸ hlookup), fun sha1 => ?_⟩
    rw [hcache]
    exact h.returned sha1

theorem inv_run (h : s.Inv S) (calls : List (ScriptCall K V)) : (s.run tpl S flush calls).Inv S := by
  induction calls generalizing s with
  | nil => exact h
  | cons call calls ih => exact ih (inv_step h call)

theorem lookup_step (h : s.Inv S) (call : ScriptCall K V) {sha1 script : Bytes}
    (hlookup : AList.lookup sha1 s.cache = some script) :
    AList.lookup sha1 (s.step tpl S flush call).cache = some script := by
  cases call with
  | load other =>
    rw [step_load]
    show AList.lookup sha1 (s.cache.emplace (S.digest other) other) = _
    rw [UnorderedMap.lookup_emplace, hlookup]
    rfl
  | eval sha keys args => rw [cache_step_eval tpl flush h, hlookup]

theorem lookup_run (h : s.Inv S) (calls : List (ScriptCall K V)) {sha1 script : Bytes}
    (hlookup : AList.lookup sha1 s.cache = some script) :
    AList.lookup sha1 (s.run tpl S flush calls).cache = some script := by
  induction calls generalizing s with
  | nil => exact hlookup
  | cons call calls ih => exact ih (inv_step h call) (lookup_step h call hlookup)

end Session

end Steps

/-! ### Calls of `eval_sha1` -/

theorem isNoScript_scriptOutcome {reply : Reply} {e : Exn} (h : scriptOutcome reply = .error e) :
    e.isNoScript = false := by
  cases reply with
  | error message =>
    cases h
    rfl
  | _ => cases h

section Evaluations
variable {tpl : Template K V} (S : ScriptServer δ) (flush : Nat → Bool) {cache : Sha1Cache} (db : ScriptDb δ)
  {keys : List K} {args : List V} {sKeys sArgs : List Bytes} (hk : keys.mapM tpl.serializeKey = .ok sKeys)
  (ha : args.mapM tpl.serializeValue = .ok sArgs) (hle : sKeys.length ≤ maxScriptKeys)
include hk ha hle

theorem evalSha1_hit (cache : Sha1Cache) {script : Bytes} (h : script ∈ db.inForce flush) :
    ∃ outcome db',
      (tpl.evalSha1 (S.executor flush) (S.digest script) keys args).run (cache, db) = (outcome, (cache, db')) ∧
        RunsOnce S script (executedArguments sKeys sArgs) [evalshaArguments (S.digest script) sKeys sArgs] db db'
          outcome :=
  ⟨_, _, run_evalSha1_of_outcome hk ha (S.run_evalSha1_hit flush db sArgs hle h) fun _ => isNoScript_scriptOutcome,
    ⟨rfl, rfl, rfl, rfl⟩⟩

/-- A digest that the cache knows: the script is reloaded where the server has lost it, and runs unless the
    server loses it once more. -/
theorem evalSha1_cached {script : Bytes} (hcache : AList.lookup (S.digest script) cache = some script) :
    ∃ outcome db',
      (tpl.evalSha1 (S.executor flush) (S.digest script) keys args).run (cache, db) = (outcome, (cache, db')) ∧
        CachedCall S flush script sKeys sArgs db db' outcome := by
  by_cases hforce : script ∈ db.inForce flush
  case pos =>
    obtain ⟨outcome, db', hrun, honce⟩ := evalSha1_hit S flush db hk ha hle cache hforce
    exact ⟨outcome, db', hrun, ⟨fun _ => honce, fun h => absurd hforce h, fun h => absurd hforce h⟩⟩
  case neg =>
    have hmissing : ∀ other ∈ db.inForce flush, S.digest script ≠ S.digest other := fun other hother hdigest =>
      hforce ((S.digest_injective hdigest).symm ▸ hother)
    have hmiss := S.run_evalSha1_miss flush db sArgs hle hmissing
    obtain ⟨u, hload, hloaded, hsent, hdata, hran⟩ : ∃ u, (Client.scriptLoad (S.executor flush) script).run
        ⟨db.inForce flush, db.data, db.sent ++ [evalshaArguments (S.digest script) sKeys sArgs], db.ran⟩ =
          (.ok (S.digest script), u) ∧ script ∈ u.loaded ∧
        u.sent = db.sent ++ [evalshaArguments (S.digest script) sKeys sArgs, scriptLoadArguments script] ∧
        u.data = db.data ∧ u.ran = db.ran :=
      ⟨_, S.run_scriptLoad flush _ script, List.mem_cons_self, List.append_assoc .., rfl, rfl⟩
    have hlength : u.sent.length = db.sent.length + 2 := by
      rw [hsent, List.length_append]
      rfl
    have hrun := run_evalSha1_of_loaded hk ha hmiss rfl hcache hload
    rw [UnorderedMap.emplace_of_mem (AList.lookup_isSome.mp (by rw [hcache]; rfl))] at hrun
    refine ⟨_, _, hrun, ⟨fun h => absurd h hforce, fun _ hflush => ?_, fun _ hflush => ?_⟩⟩
    · -- the reloaded script is still there
      have hkept : script ∈ u.inForce flush := by
        rwa [ScriptDb.inForce, hlength, hflush]
      rw [S.run_evalSha1_hit flush u sArgs hle hkept, hsent, hdata, hran]
      exact ⟨List.append_assoc .., rfl, rfl, rfl⟩
    · -- the reloaded script is lost before the retry
      have hlost : u.inForce flush = [] := by
        rw [ScriptDb.inForce, hlength, hflush]
        rfl
      have hmissing' : ∀ other ∈ u.inForce flush, S.digest script ≠ S.digest other := by
        rw [hlost]
        exact fun other hother => absurd hother List.not_mem_nil
      rw [S.run_evalSha1_miss flush u sArgs hle hmissing', hsent]
      exact ⟨List.append_assoc .., hran, hdata, rfl⟩

theorem evalSha1_foreign {sha1 : Bytes} (hcache : AList.lookup sha1 cache = none) :
    ∃ outcome db', (tpl.evalSha1 (S.executor flush) sha1 keys args).run (cache, db) = (outcome, (cache, db')) ∧
      ForeignCall S flush sha1 sKeys sArgs db db' outcome := by
  by_cases hforce : ∃ script ∈ db.inForce flush, sha1 = S.digest script
  case pos =>
    obtain ⟨script, hscript, rfl⟩ := hforce
    obtain ⟨outcome, db', hrun, honce⟩ := evalSha1_hit S flush db hk ha hle cache hscript
    refine ⟨outcome, db', hrun, ⟨fun other _ hdigest => ?_, fun h => absurd rfl (h script hscript)⟩⟩
    rw [← S.digest_injective hdigest]
    exact honce
  case neg =>
    have hmiss := S.run_evalSha1_miss flush db sArgs hle fun script hscript hdigest => hforce ⟨script, hscript, hdigest⟩
    refine ⟨_, _, run_evalSha1_of_unknown hk ha hmiss rfl hcache, ⟨fun script hscript hdigest => ?_, fun _ => ?_⟩⟩
    · exact absurd ⟨script, hscript, hdigest⟩ hforce
    · exact ⟨rfl, rfl, rfl, rfl⟩

end Evaluations

/-- At any point of any run, with the scripts flushed before any of its commands: `script_load` sends the script,
    returns its digest and leaves the two in the cache; the cache has the digests that were returned, each with its
    script, and keeps them; a call with such a digest runs its script once, reloading it where it was lost, unless it
    is lost between the reload and the retry; a call with another digest sends one command and runs what the server
    has under it, or nothing. -/
theorem scriptCache_transparent (tpl : Template K V) (S : ScriptServer δ) (flush : Nat → Bool) (db : ScriptDb δ)
    (calls : List (ScriptCall K V)) : ((Session.start db).run tpl S flush calls).Transparent tpl S flush := by
  have hinv : ((Session.start db).run tpl S flush calls).Inv S := Session.inv_run (Session.inv_start S db) calls
  refine ⟨fun script => ?_, hinv.digest, fun more sha1 script => Session.lookup_run hinv more, ?_, ?_⟩
  · exact ⟨_, run_scriptLoad_of_ok _ (S.run_scriptLoad flush _ script), hinv.lookup_emplace script, rfl, rfl, rfl, rfl⟩
  · intro sha1 hreturned
    have hmem : sha1 ∈ ((Session.start db).run tpl S flush calls).cache := (hinv.returned sha1).mpr hreturned
    obtain ⟨script, hlookup⟩ := Option.isSome_iff_exists.mp (AList.lookup_isSome.mpr hmem)
    obtain rfl := hinv.digest sha1 script hlookup
    refine ⟨script, rfl, hlookup, fun keys args sKeys sArgs hk ha hle => ?_⟩
    exact evalSha1_cached S flush _ hk ha (by rwa [← (Except.mapM_eq_ok_iff.mp hk).length_eq]) hlookup
  · intro sha1 hreturned keys args sKeys sArgs hk ha hle
    have hlookup := AList.lookup_eq_none.mpr fun hmem => hreturned ((hinv.returned sha1).mp hmem)
    exact evalSha1_foreign S flush _ hk ha (by rwa [← (Except.mapM_eq_ok_iff.mp hk).length_eq]) hlookup

/-- A server whose digests are the scripts themselves, each of which replies with its text. -/
def echoServer : ScriptServer Unit where
  digest := id
  digest_injective := Function.injective_id
  execute script _ data := (.string script, data)
  execute_error _ _ _ _ h := by cases h
  missing _ := "NOSCRIPT No matching script"
  errorCode_missing _ := rfl

/-- A script that is flushed before its first use is reloaded and runs once. -/
example : ((Session.start ⟨[], (), [], []⟩).run stringTemplate echoServer (· == 1)
    [.load "return 1", .eval "return 1" [] []]).server.ran =
      [(("return 1" : Bytes), (["0"] : List Bytes))] := by decide

end Redisdal
