import Redisdal.Theorems.Credentials
import Redisdal.Theorems.ReplyConversion

/-! # The handshake

What the constructor of `sync_connection` sends and what it takes as an answer, for any URL and any server. A
transport that records its calls shows what goes over the wire. -/

namespace Redisdal

/-! ### A record of the wire -/

/-- A command and what came back for it, if anything. -/
structure Exchange where
  argv : List Bytes
  reply : Option RedisReply

/-- `H` with the exchanges of each context. -/
def Hiredis.recorded {τ : Type} (H : Hiredis τ) : Hiredis (List Exchange × τ) where
  connect host port := (H.connect host port).map fun context => ([], context)
  connectUnix path := (H.connectUnix path).map fun context => ([], context)
  err context := H.err context.2
  errstr context := H.errstr context.2
  commandArgv context argv :=
    ((H.commandArgv context.2 argv).1,
      (context.1 ++ [⟨argv, (H.commandArgv context.2 argv).1⟩], (H.commandArgv context.2 argv).2))

/-- The exchanges so far. -/
def exchanges {τ : Type} (context : Option (List Exchange × τ)) : List Exchange := (context.map Prod.fst).getD []

/-- The status OK. -/
def IsOk (reply : Option RedisReply) : Prop :=
  ∃ integer str element, reply = some (.mk .status integer str element) ∧ str.Holds ("OK" : Bytes)

namespace SyncConnection

/-! ### What a URL asks for -/

def authCommand (credentials : Config.Credentials) : List Bytes :=
  if credentials.username ≠ [] then ["AUTH", credentials.username, credentials.password]
  else ["AUTH", credentials.password]

def selectCommand (index : UInt32) : List Bytes := ["SELECT", Bytes.decimal index.toNat]

/-- The commands that establish the identity and the database of a URL. -/
def required (url : Bytes) : List (List Bytes) :=
  (if (Config.supplied url).username ≠ [] ∨ (Config.supplied url).password ≠ [] then
    [authCommand (Config.supplied url)] else []) ++
  (if Config.databaseIndex url ≠ 0 then [selectCommand (Config.databaseIndex url)] else [])

/-- All commands were sent, in order and nothing besides, and answered OK. -/
def Established (commands : List (List Bytes)) (log : List Exchange) : Prop :=
  log.map Exchange.argv = commands ∧ ∀ x ∈ log, IsOk x.reply

/-- The commands are sent in order, each at most once and none besides, a command only after the ones before it have
    been answered OK. Unless all are sent and answered OK, the outcome is a throw. -/
structure Establishes (commands : List (List Bytes)) (log : List Exchange) (outcome : Outcome Unit) : Prop where
  sent : log.map Exchange.argv <+: commands
  answered : ∀ x ∈ log.dropLast, IsOk x.reply
  completes : outcome = .ok () → Established commands log

/-- The commands of a user on a connection, each of which may throw. -/
def useConnection {τ : Type} (H : Hiredis τ) : List (List Bytes) → Option τ → Option τ
  | [], context => context
  | args :: commands, context => useConnection H commands ((cmdExecv H args).run context).2

/-- A constructor call, and the commands of its user where it returns. -/
def session {τ : Type} (H : Hiredis τ) (url : Bytes) (commands : List (List Bytes)) : Option τ :=
  match (construct H url).run none with
  | (.ok (), context) => useConnection H commands context
  | (.error _, context) => context

/-- With every server, the constructor establishes what the URL asks for, and a user sends commands only after that. -/
def HandshakeKept (url : Bytes) : Prop :=
  ∀ (τ : Type) (H : Hiredis τ),
    Establishes (required url) (exchanges ((construct H.recorded url).run none).2)
        ((construct H.recorded url).run none).1 ∧
      ∀ commands, ∃ sent, exchanges (session H.recorded url commands) =
          exchanges ((construct H.recorded url).run none).2 ++ sent ∧
        (sent ≠ [] → Established (required url) (exchanges ((construct H.recorded url).run none).2))

/-! ### One command -/

theorem validateOkReply_iff {reply : CmdReply} {command : Bytes} :
    validateOkReply reply command = .ok () ↔ reply.type = .status ∧ reply.strValue = some ("OK" : Bytes) := by
  unfold validateOkReply CmdReply.isError
  split
  · next herror =>
    refine iff_of_false (fun h => by cases h) fun h => ?_
    rw [h.1] at herror
    cases herror
  · split
    · next hbad => exact iff_of_false (fun h => by cases h) fun h => hbad.elim (fun hne => hne h.1) fun hne => hne h.2
    · next hgood =>
      rw [not_or, not_not, not_not] at hgood
      exact iff_of_true rfl hgood

/-- Of all replies, the status OK is converted to one that is taken as an answer. -/
theorem convert_validate_iff {reply : RedisReply} {command : Bytes} :
    (convertReply reply >>= fun t => validateOkReply t.toCmdReply command) = .ok () ↔ IsOk (some reply) := by
  rw [Except.bind_eq_ok_iff]
  constructor
  · intro hex
    obtain ⟨t, hconvert, hvalid⟩ := hex
    obtain ⟨hstatus, hok⟩ := validateOkReply_iff.mp hvalid
    rcases converts reply with ⟨-, what, hbad⟩ | ⟨-, t', hgood, hrep⟩
    · rw [hconvert] at hbad
      cases hbad
    · rw [hconvert] at hgood
      cases hgood
      cases hrep with
      | @text type kind integer str element text c hkind hstr htype htext =>
        rw [hok] at htext
        cases htext
        rw [hstatus] at htype
        subst htype
        cases type with
        | status => exact ⟨integer, str, element, rfl, hstr⟩
        | _ => cases hkind
      | integer htype => rw [hstatus] at htype; cases htype
      | nil htype => rw [hstatus] at htype; cases htype
      | array _ htype => rw [hstatus] at htype; cases htype
      | other htype => rw [hstatus] at htype; cases htype
  · intro hex
    obtain ⟨integer, str, element, heq, hstr⟩ := hex
    cases heq
    have hvalues := values_of_holds hstr
    obtain ⟨t, hconvert, hkind, htext⟩ := convertReply_of_text integer element
      (show RedisReplyType.status.textKind = some .status from rfl) (hvalues.symm ▸ hstr)
    refine ⟨t, hconvert, validateOkReply_iff.mpr ⟨?_, htext.trans (congrArg some hvalues)⟩⟩
    rw [Reply.type_toCmdReply, hkind]

section Commands
variable {τ : Type} (H : Hiredis τ) (context : τ) {args : List Bytes}

/-- A command of the handshake succeeds exactly when it is answered with the status OK. -/
theorem exists_run_execOk (hne : args ≠ []) (hlen : args.length ≤ intMax) (command : Bytes) :
    ∃ outcome, (execOk H args command).run (some context) = (outcome, some (H.commandArgv context args).2) ∧
      (outcome = .ok () ↔ IsOk (H.commandArgv context args).1) := by
  unfold execOk execConverted
  rw [Program.decode_decode, Program.run_decode, run_execArgs H hne hlen]
  unfold received
  rcases H.commandArgv context args with ⟨_ | reply, next⟩
  · refine ⟨_, rfl, iff_of_false (fun h => by cases h) fun h => ?_⟩
    obtain ⟨_, _, _, heq, -⟩ := h
    cases heq
  · dsimp only
    by_cases ht : reply.type = .error
    · have hnot : ¬IsOk (some reply) := fun h => by
        obtain ⟨_, _, _, heq, -⟩ := h
        cases heq
        cases ht
      rw [if_pos ht]
      cases stringOf reply.str with
      | error e => exact ⟨.error e, rfl, iff_of_false (fun h => by cases h) hnot⟩
      | ok message => exact ⟨.error (.redisError message), rfl, iff_of_false (fun h => by cases h) hnot⟩
    · rw [if_neg ht]
      exact ⟨_, rfl, convert_validate_iff⟩

end Commands

/-! ### All of them -/

/-- The commands of the constructor that are sent, up to the first one that is not answered OK. -/
inductive Sends : List (List Bytes) → List Exchange → Outcome Unit → Prop where
  | done : Sends [] [] (.ok ())
  | stopped {x : Exchange} {commands : List (List Bytes)} (e : Exn) (h : ¬IsOk x.reply) :
    Sends (x.argv :: commands) [x] (.error e)
  | answered {x : Exchange} {commands : List (List Bytes)} {log : List Exchange} {outcome : Outcome Unit}
    (h : IsOk x.reply) (hrest : Sends commands log outcome) : Sends (x.argv :: commands) (x :: log) outcome

theorem establishes_nothing (commands : List (List Bytes)) (e : Exn) : Establishes commands [] (.error e) :=
  ⟨List.nil_prefix, by simp, fun heq => by cases heq⟩

theorem Sends.establishes {commands : List (List Bytes)} {log : List Exchange} {outcome : Outcome Unit}
    (h : Sends commands log outcome) : Establishes commands log outcome := by
  induction h with
  | done => exact ⟨List.prefix_rfl, by simp, fun _ => ⟨rfl, by simp⟩⟩
  | stopped e h => exact ⟨List.prefix_append [_] _, by simp, fun heq => by cases heq⟩
  | @answered x commands log outcome h _ ih =>
    refine ⟨?_, ?_, fun heq => ?_⟩
    · rw [List.map_cons, List.prefix_cons_inj]
      exact ih.sent
    · intro y hy
      cases log with
      | nil => cases hy
      | cons z log =>
        rcases List.mem_cons.mp hy with rfl | hy
        · exact h
        · exact ih.answered y hy
    · obtain ⟨hall, hok⟩ := ih.completes heq
      exact ⟨by rw [List.map_cons, hall], List.forall_mem_cons.mpr ⟨h, hok⟩⟩

theorem Sends.completes {commands : List (List Bytes)} {log : List Exchange} {outcome : Outcome Unit}
    (h : Sends commands log outcome) (hok : ∀ x ∈ log, IsOk x.reply) : outcome = .ok () := by
  induction h with
  | done => rfl
  | stopped e h => exact absurd (hok _ List.mem_cons_self) h
  | answered _ _ ih => exact ih fun x hx => hok x (List.mem_cons_of_mem _ hx)

/-- What the constructor sends, with the name that an error of each command mentions. -/
def handshakeCommands (config : RedisConfig) : List (List Bytes × Bytes) :=
  (if config.password ≠ [] then [(authCommand ⟨config.username, config.password⟩, ("AUTH" : Bytes))] else []) ++
  (if config.index ≠ 0 then [(selectCommand config.index, ("SELECT" : Bytes))] else [])

theorem handshake_eq {τ : Type} (H : Hiredis τ) (config : RedisConfig) :
    handshake H config = forM (handshakeCommands config) fun command => execOk H command.1 command.2 := by
  unfold handshake handshakeCommands authCommand selectCommand
  by_cases hpassword : config.password = [] <;> by_cases husername : config.username = [] <;>
    by_cases hindex : config.index = 0 <;> simp [hpassword, husername, hindex, Program.bind_pure_unit]

/-- The loop over the commands goes on as long as they are answered OK. -/
theorem sends_forM {τ : Type} (H : Hiredis τ) (commands : List (List Bytes × Bytes))
    (h : ∀ command ∈ commands, command.1 ≠ [] ∧ command.1.length ≤ intMax) (context : List Exchange × τ) :
    ∃ log outcome next,
      (forM commands fun command => execOk H.recorded command.1 command.2).run (some context) =
        (outcome, some (context.1 ++ log, next)) ∧
      Sends (commands.map Prod.fst) log outcome ∧
      ∀ x ∈ log, ∃ context, x.reply = (H.commandArgv context x.argv).1 := by
  induction commands generalizing context with
  | nil => exact ⟨[], .ok (), context.2, by simp, .done, by simp⟩
  | cons command commands ih =>
    obtain ⟨hcommand, hcommands⟩ := List.forall_mem_cons.mp h
    obtain ⟨first, hrun, hok⟩ := exists_run_execOk H.recorded context hcommand.1 hcommand.2 command.2
    -- What goes over the wire for this command.
    let x : Exchange := ⟨command.1, (H.commandArgv context.2 command.1).1⟩
    have horigin : ∃ context', x.reply = (H.commandArgv context' x.argv).1 := ⟨context.2, rfl⟩
    rw [List.forM_cons, Program.run_bind, hrun]
    cases first with
    | error e =>
      refine ⟨[x], .error e, _, rfl, Sends.stopped (x := x) e fun h => ?_, ?_⟩
      · cases hok.mpr h
      · simpa using horigin
    | ok u =>
      obtain ⟨log, outcome, next, hrest, hsends, hreplies⟩ := ih hcommands (H.recorded.commandArgv context command.1).2
      refine ⟨x :: log, outcome, next, ?_, Sends.answered (x := x) (hok.mp rfl) hsends, ?_⟩
      · rw [Program.resume_ok, hrest]
        simp [Hiredis.recorded, x]
      · exact List.forall_mem_cons.mpr ⟨horigin, hreplies⟩

/-! ### The constructor -/

section Construct
variable {τ : Type} (H : Hiredis τ)

theorem connect_recorded (config : RedisConfig) :
    connect H.recorded config = (connect H config).map fun context => ([], context) := by
  unfold connect
  cases config.scheme <;> rfl

/-- A transport that does not connect: nothing is sent. -/
theorem run_construct_of_not_connected {url : Bytes} {config : RedisConfig} {e : Exn}
    (h : Config.parseRedisUrl url = .ok config) (hcheck : checkContext H (connect H config) = .error e) :
    (construct H url).run none = (.error e, connect H config) := by
  unfold construct
  rw [h, Program.ofExcept_ok_bind, Program.run_bind, Program.run_modify, Program.resume_ok, hcheck]
  rfl

theorem run_construct_of_connected {url : Bytes} {config : RedisConfig} (h : Config.parseRedisUrl url = .ok config)
    (hcheck : checkContext H (connect H config) = .ok ()) :
    (construct H url).run none = (handshake H config).run (connect H config) := by
  unfold construct
  rw [h, Program.ofExcept_ok_bind, Program.run_bind, Program.run_modify, Program.resume_ok, hcheck]
  rfl

theorem handshakeCommands_sendable (config : RedisConfig) :
    ∀ command ∈ handshakeCommands config, command.1 ≠ [] ∧ command.1.length ≤ intMax := by
  intro command hmem
  unfold handshakeCommands authCommand selectCommand at hmem
  rw [List.mem_append] at hmem
  rcases hmem with hmem | hmem
  · split at hmem
    · rw [List.mem_singleton.mp hmem]
      dsimp only
      split <;> simp [intMax]
    · cases hmem
  · split at hmem
    · rw [List.mem_singleton.mp hmem]
      simp [intMax]
    · cases hmem

theorem sends_construct {url : Bytes} {config : RedisConfig} {context : τ} (h : Config.parseRedisUrl url = .ok config)
    (hconnect : connect H config = some context) (herr : H.err context = false) :
    ∃ log outcome next, (construct H.recorded url).run none = (outcome, some (log, next)) ∧
      Sends ((handshakeCommands config).map Prod.fst) log outcome ∧
      ∀ x ∈ log, ∃ context, x.reply = (H.commandArgv context x.argv).1 := by
  have hrecorded : connect H.recorded config = some ([], context) := by rw [connect_recorded, hconnect]; rfl
  have hcheck : checkContext H.recorded (connect H.recorded config) = .ok () := by
    rw [hrecorded]
    exact if_neg (by rw [show H.recorded.err ([], context) = H.err context from rfl, herr]; exact Bool.false_ne_true)
  rw [run_construct_of_connected H.recorded h hcheck, hrecorded, handshake_eq]
  exact sends_forM H _ (handshakeCommands_sendable config) ([], context)

theorem establishes_construct {url : Bytes} {config : RedisConfig} (h : Config.parseRedisUrl url = .ok config) :
    Establishes ((handshakeCommands config).map Prod.fst) (exchanges ((construct H.recorded url).run none).2)
      ((construct H.recorded url).run none).1 := by
  cases hconnect : connect H config with
  | none =>
    have hrecorded : connect H.recorded config = none := by rw [connect_recorded, hconnect]; rfl
    rw [run_construct_of_not_connected H.recorded h (by rw [hrecorded]; rfl), hrecorded]
    exact establishes_nothing _ _
  | some context =>
    cases herr : H.err context with
    | true =>
      have hrecorded : connect H.recorded config = some ([], context) := by rw [connect_recorded, hconnect]; rfl
      rw [run_construct_of_not_connected H.recorded h (by rw [hrecorded]; exact if_pos herr), hrecorded]
      exact establishes_nothing _ _
    | false =>
      obtain ⟨log, outcome, next, hrun, hsends, -⟩ := sends_construct H h hconnect herr
      rw [hrun]
      exact hsends.establishes

end Construct

/-! ### The user of a connection -/

section User
variable {τ : Type} (H : Hiredis τ)

theorem state_cmdExecv (args : List Bytes) (context : Option τ) :
    ((cmdExecv H args).run context).2 = ((execArgs H args).run context).2 := by
  have hconverted : ((execConverted H args).run context).2 = ((execArgs H args).run context).2 :=
    Program.snd_run_decode ..
  rw [← hconverted]
  show (Program.recover _ ((execConverted H args).run context)).2 = _
  rcases (execConverted H args).run context with ⟨e | reply, next⟩
  · cases e <;> rfl
  · rfl

theorem exchanges_cmdExecv (args : List Bytes) (context : Option (List Exchange × τ)) :
    ∃ sent, exchanges ((cmdExecv H.recorded args).run context).2 = exchanges context ++ sent := by
  rw [state_cmdExecv]
  by_cases hne : args = []
  · exact ⟨[], by subst hne; simp [execArgs]⟩
  · by_cases hlen : args.length ≤ intMax
    · cases context with
      | none => exact ⟨[], by simp [execArgs, execv, hne, Nat.not_lt.mpr hlen]⟩
      | some context =>
        rw [run_execArgs H.recorded hne hlen]
        exact ⟨_, rfl⟩
    · exact ⟨[], by simp [execArgs, hne, Nat.lt_of_not_le hlen]⟩

theorem exchanges_useConnection (commands : List (List Bytes)) (context : Option (List Exchange × τ)) :
    ∃ sent, exchanges (useConnection H.recorded commands context) = exchanges context ++ sent := by
  induction commands generalizing context with
  | nil => exact ⟨[], (List.append_nil _).symm⟩
  | cons args commands ih =>
    obtain ⟨first, hfirst⟩ := exchanges_cmdExecv H args context
    obtain ⟨sent, hsent⟩ := ih ((cmdExecv H.recorded args).run context).2
    exact ⟨first ++ sent, by rw [useConnection, hsent, hfirst, List.append_assoc]⟩

/-- A user comes after the constructor, where that has returned. -/
theorem exchanges_session (url : Bytes) (commands : List (List Bytes)) :
    ∃ sent, exchanges (session H.recorded url commands) = exchanges ((construct H.recorded url).run none).2 ++ sent ∧
      (sent ≠ [] → ((construct H.recorded url).run none).1 = .ok ()) := by
  unfold session
  rcases (construct H.recorded url).run none with ⟨e | u, context⟩
  · exact ⟨[], (List.append_nil _).symm, fun h => absurd rfl h⟩
  · obtain ⟨sent, hsent⟩ := exchanges_useConnection H commands context
    exact ⟨sent, hsent, fun _ => rfl⟩

end User

/-! ### Which URLs are established -/

/-- A server that answers OK to everything. -/
def obliging : Hiredis Unit where
  connect _ _ := some ()
  connectUnix _ := some ()
  err _ := false
  errstr _ := []
  commandArgv _ _ := (some (.mk .status 0 (.items ("OK" : Bytes)) (.null 0)), ())

theorem construct_obliging {url : Bytes} {config : RedisConfig} (h : Config.parseRedisUrl url = .ok config) :
    ((construct obliging.recorded url).run none).1 = .ok () ∧
      (exchanges ((construct obliging.recorded url).run none).2).map Exchange.argv =
        (handshakeCommands config).map Prod.fst := by
  have hconnect : connect obliging config = some () := by
    unfold connect
    cases config.scheme <;> rfl
  obtain ⟨log, outcome, next, hrun, hsends, hreplies⟩ := sends_construct obliging h hconnect rfl
  have hok : outcome = .ok () := hsends.completes fun x hx => by
    obtain ⟨_, hreply⟩ := hreplies x hx
    exact ⟨_, _, _, hreply, .items _⟩
  rw [hrun]
  exact ⟨hok, (hsends.establishes.completes hok).1⟩

theorem handshakeKept_iff_commands {url : Bytes} {config : RedisConfig} (h : Config.parseRedisUrl url = .ok config) :
    HandshakeKept url ↔ (handshakeCommands config).map Prod.fst = required url := by
  constructor
  · intro hkept
    obtain ⟨hok, hsent⟩ := construct_obliging h
    have hestablished := (hkept Unit obliging).1.completes hok
    rw [← hsent, hestablished.1]
  · intro heq τ H
    have hconstruct := establishes_construct H h
    rw [heq] at hconstruct
    refine ⟨hconstruct, fun commands => ?_⟩
    obtain ⟨sent, hsession, hreturned⟩ := exchanges_session H url commands
    exact ⟨sent, hsession, fun hne => hconstruct.completes (hreturned hne)⟩

/-- An AUTH is sent as it should be: none for no credentials, and the same one otherwise. -/
theorem auth_eq_iff (config : RedisConfig) (credentials : Config.Credentials)
    (husername : config.username = credentials.username ∨ config.username = []) :
    (if config.password ≠ [] then [authCommand ⟨config.username, config.password⟩] else []) =
        (if credentials.username ≠ [] ∨ credentials.password ≠ [] then [authCommand credentials] else []) ↔
      (credentials.username = [] ∨ credentials.password ≠ []) ∧
        config.username = credentials.username ∧ config.password = credentials.password := by
  obtain ⟨username, password⟩ := credentials
  dsimp only at husername ⊢
  constructor
  · intro heq
    by_cases hpassword : config.password = []
    · rw [if_neg (not_not.mpr hpassword)] at heq
      by_cases hnone : username ≠ [] ∨ password ≠ []
      · rw [if_pos hnone] at heq
        cases heq
      · rw [not_or, not_not, not_not] at hnone
        obtain ⟨rfl, rfl⟩ := hnone
        exact ⟨Or.inl rfl, husername.elim id id, hpassword⟩
    · rw [if_pos hpassword] at heq
      by_cases hsome : username ≠ [] ∨ password ≠ []
      · rw [if_pos hsome, List.singleton_inj] at heq
        unfold authCommand at heq
        by_cases hkept : config.username = []
        · by_cases hgiven : username = []
          · rw [if_neg (not_not.mpr hkept), if_neg (not_not.mpr hgiven)] at heq
            have hsame : config.password = password := by simpa using heq
            exact ⟨Or.inl hgiven, hkept.trans hgiven.symm, hsame⟩
          · rw [if_neg (not_not.mpr hkept), if_pos hgiven] at heq
            cases heq
        · have hsame := husername.resolve_right hkept
          have hgiven : username ≠ [] := hsame ▸ hkept
          rw [if_pos hkept, if_pos hgiven] at heq
          have hpasswords : config.password = password := by simpa [hsame] using heq
          exact ⟨Or.inr (hpasswords ▸ hpassword), hsame, hpasswords⟩
      · rw [if_neg hsome] at heq
        cases heq
  · rintro ⟨hpossible, rfl, rfl⟩
    by_cases hpassword : config.password = []
    · have hnone := hpossible.resolve_right (not_not.mpr hpassword)
      rw [if_neg (not_not.mpr hpassword), if_neg (not_or.mpr ⟨not_not.mpr hnone, not_not.mpr hpassword⟩)]
    · rw [if_pos hpassword, if_pos (Or.inr hpassword)]

theorem map_fst_handshakeCommands (config : RedisConfig) :
    (handshakeCommands config).map Prod.fst =
      (if config.password ≠ [] then [authCommand ⟨config.username, config.password⟩] else []) ++
      (if config.index ≠ 0 then [selectCommand config.index] else []) := by
  unfold handshakeCommands
  rw [List.map_append]
  congr 1 <;> split <;> rfl

/-- The constructor establishes the identity and the database of a URL unless the URL names a user without a password,
    or hides the credentials of its query behind an empty part of its userinfo. -/
theorem handshakeKept_iff {url : Bytes} {config : RedisConfig} (h : Config.parseRedisUrl url = .ok config) :
    HandshakeKept url ↔
      ((Config.supplied url).username = [] ∨ (Config.supplied url).password ≠ []) ∧ ¬Config.HidesQuery url := by
  rw [handshakeKept_iff_commands h, map_fst_handshakeCommands, required, (Config.parseRedisUrl_keeps h).index,
    List.append_left_inj, auth_eq_iff config (Config.supplied url) (Config.username_kept_or_nil h),
    Config.parsed_eq_supplied_iff h]

/-- A password alone, for a server without users. -/
theorem handshakeKept_iff_password : HandshakeKept "redis://:secret@localhost?index=3" := by
  have h : Config.parseRedisUrl "redis://:secret@localhost?index=3" =
      .ok { scheme := .redis, host := "localhost", password := "secret", index := 3 } := rfl
  have husername : (Config.supplied "redis://:secret@localhost?index=3").username = [] := rfl
  have hquery : ¬Config.HidesQuery "redis://:secret@localhost?index=3" := by
    rintro (⟨-, -, hne⟩ | ⟨-, -, hne⟩) <;> exact hne rfl
  exact (handshakeKept_iff h).mpr ⟨Or.inl husername, hquery⟩

/-- The user `alice` gets a connection on which no AUTH was sent. -/
theorem not_handshakeKept_user : ¬HandshakeKept "redis://alice@localhost" := by
  intro hkept
  have h : Config.parseRedisUrl "redis://alice@localhost" =
      .ok { scheme := .redis, host := "localhost", username := "alice" } := rfl
  have hcommands := (handshakeKept_iff_commands h).mp hkept
  have hsent : (handshakeCommands { scheme := .redis, host := "localhost", username := "alice" }).map Prod.fst = [] :=
    rfl
  have hasked : required "redis://alice@localhost" = [authCommand ⟨"alice", ""⟩] := rfl
  rw [hsent, hasked] at hcommands
  cases hcommands

end SyncConnection

end Redisdal
